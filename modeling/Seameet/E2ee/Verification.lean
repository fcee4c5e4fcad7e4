import Mathlib.Data.List.Perm.Basic
import Seameet.E2ee.SafetyNumber

/-!
# Both ends display the same safety number

A safety number does not depend on who computes it. Whether the two sides show the
same one depends on when: a number is right while both key pairs it was computed from
are current, and wrong after either side's ratchet until the number is computed again.
A side computes it only when a public key of the other arrives, and its own ratchet
makes nobody send one.

The invariant says of each side that its number is right, or that the other's present
public key is still on its way to it.
-/

namespace Seameet.E2ee

open Library

section Symmetry

/-- The comparison changes its sign with its arguments. -/
theorem compareBytes_swap (a b : List UInt8) : compareBytes b a = -compareBytes a b := by
  induction a generalizing b with
  | nil =>
    cases b with
    | nil => rfl
    | cons byte rest => simp [compareBytes]
  | cons head tail inductionHypothesis =>
    cases b with
    | nil => simp [compareBytes]
    | cons byte rest =>
      unfold compareBytes
      by_cases same : head = byte
      · rw [if_neg (not_not.mpr same), if_neg (not_not.mpr same.symm)]
        exact inductionHypothesis rest
      · rw [if_pos same, if_pos (Ne.symm same)]
        omega

/-- Only equal byte strings compare as equal. -/
theorem compareBytes_eq_zero {a b : List UInt8} (equal : compareBytes a b = 0) : a = b := by
  induction a generalizing b with
  | nil =>
    cases b with
    | nil => rfl
    | cons byte rest =>
      simp only [compareBytes, List.length_nil, List.length_cons] at equal
      omega
  | cons head tail inductionHypothesis =>
    cases b with
    | nil =>
      simp only [compareBytes, List.length_nil, List.length_cons] at equal
      omega
    | cons byte rest =>
      unfold compareBytes at equal
      by_cases same : head = byte
      · rw [if_neg (not_not.mpr same)] at equal
        rw [same, inductionHypothesis equal]
      · rw [if_pos same] at equal
        have value : head.toNat ≠ byte.toNat := fun alike => same (UInt8.toNat.inj alike)
        omega

/-- A safety number does not depend on which of the two keys is one's own. -/
theorem computeSafetyNumber_comm (digest : List UInt8 → List UInt8) (a b : List UInt8) :
    computeSafetyNumber digest a b = computeSafetyNumber digest b a := by
  have swap := compareBytes_swap a b
  unfold computeSafetyNumber
  rcases lt_trichotomy (compareBytes a b) 0 with below | equal | above
  · rw [if_pos (by omega), if_neg (by omega)]
  · rw [compareBytes_eq_zero equal]
  · rw [if_neg (by omega), if_pos (by omega)]

end Symmetry

/-- A shared secret is being derived with this public key. -/
def Pending.agreesOn (publicKey : Nat) : Pending → Bool
  | .agreeing _ _ tested => decide (tested = publicKey)
  | _ => false

namespace Verifier

/-- A public key of the other side is being handled, and the own key pair has not been
looked at for its number. -/
def Hears (verifier : Verifier) (publicKey : Nat) : Prop :=
  .publicKey publicKey ∈ verifier.received ∨ .importing publicKey ∈ verifier.awaiting ∨
    ∃ broadcast keyPair, .agreeing broadcast keyPair publicKey ∈ verifier.awaiting

/-- The present public key is being broadcast, or will be. -/
def Tells (verifier : Verifier) : Prop :=
  .generatingKey ∈ verifier.awaiting ∨ ∃ keyPair, verifier.ecdhKeyPair = some keyPair ∧
    (.exporting keyPair ∈ verifier.awaiting ∨ .publicKey keyPair ∈ verifier.sent)

/-- The number of two public keys is being computed. -/
def Numbers (verifier : Verifier) (own publicKey : Nat) : Prop :=
  ∃ broadcast, .numbering broadcast own publicKey ∈ verifier.awaiting

end Verifier

instance (verifier : Verifier) (publicKey : Nat) : Decidable (verifier.Hears publicKey) :=
  decidable_of_iff (.publicKey publicKey ∈ verifier.received ∨
      .importing publicKey ∈ verifier.awaiting ∨
      ∃ pending ∈ verifier.awaiting, pending.agreesOn publicKey = true) (by
    refine or_congr_right (or_congr_right ⟨?_, ?_⟩)
    · rintro ⟨pending, member, agrees⟩
      cases pending with
      | agreeing broadcast keyPair tested =>
        obtain rfl : tested = publicKey := of_decide_eq_true agrees
        exact ⟨broadcast, keyPair, member⟩
      | _ => cases agrees
    · rintro ⟨broadcast, keyPair, member⟩
      exact ⟨_, member, decide_eq_true rfl⟩)

/-- The message carries a public key. -/
def KeyMessage.isKey : KeyMessage → Bool
  | .publicKey _ => true
  | .join | .present => false

/-- Something put aside that needs the own key pair. -/
def Pending.keyed : Pending → Bool
  | .exporting _ | .generatingPair | .generatingKey | .agreeing _ _ _ | .numbering _ _ _ => true
  | .noticing | .visiting | .importing _ => false

/-- Something put aside on account of a public key of the other side. -/
def Pending.answers : Pending → Bool
  | .importing _ | .agreeing _ _ _ | .numbering _ _ _ => true
  | .noticing | .visiting | .exporting _ | .generatingPair | .generatingKey => false

namespace Verifier

/-- Without a key pair there is nothing that needs one. -/
structure Keyless (verifier : Verifier) : Prop where
  senderKeyRaw : verifier.senderKeyRaw = none
  safetyNumber : verifier.safetyNumber = none
  sent : ∀ message ∈ verifier.sent, message.isKey = false
  awaiting : ∀ pending ∈ verifier.awaiting, pending.keyed = false

/-- No public key of the other side has come. -/
structure Unheard (verifier : Verifier) : Prop where
  peerPublicKey : verifier.peerPublicKey = none
  safetyNumber : verifier.safetyNumber = none
  received : ∀ message ∈ verifier.received, message.isKey = false
  awaiting : ∀ pending ∈ verifier.awaiting, pending.answers = false

end Verifier

namespace Pairing

variable (digest : List UInt8 → List UInt8) (raw : Nat → List UInt8)

/-- The other side's present public key is still on its way to this side. -/
def OnItsWay (pairing : Pairing) (side : Side) : Prop :=
  (∃ publicKey, (pairing.verifier side.other).ecdhKeyPair = some publicKey ∧
    (pairing.verifier side).Hears publicKey) ∨ (pairing.verifier side.other).Tells

/-- Two key pairs are the present ones of the two sides. -/
def Present (pairing : Pairing) (side : Side) (own publicKey : Nat) : Prop :=
  (pairing.verifier side).ecdhKeyPair = some own ∧
    (pairing.verifier side.other).ecdhKeyPair = some publicKey

/-- The side's number is still to be computed from the present keys. -/
def Settling (pairing : Pairing) (side : Side) : Prop :=
  pairing.OnItsWay side ∨ ∃ own publicKey, pairing.Present side own publicKey ∧
    (pairing.verifier side).Numbers own publicKey

/-- The side's number, if it has one, is that of the present keys or still to be
computed from them. -/
def Agreed (pairing : Pairing) (side : Side) : Prop :=
  ∀ number, (pairing.verifier side).safetyNumber = some number →
    pairing.Settling side ∨ ∃ own publicKey, pairing.Present side own publicKey ∧
      number = computeSafetyNumber digest (raw own) (raw publicKey)

/-- What is asked of a handler that goes on. -/
def CarefulAt (pairing : Pairing) (side : Side) : Option Pending → Prop
  | some .generatingPair =>
    (pairing.verifier side).safetyNumber = none ∨ pairing.OnItsWay side
  | some (.numbering _ _ _) => pairing.Settling side
  | some .noticing | some (.exporting _) | some .generatingKey | some .visiting
  | some (.importing _) | some (.agreeing _ _ _) | none => True

/-- Whenever a ratchet replaces the key pair of a side that has a number, the other's
present public key is still on its way to it; and whenever a side stores a number, it
is that of the present keys or will be computed again. -/
def Careful (pairing : Pairing) : PairingEvent → Prop
  | .resumes side position =>
    pairing.CarefulAt side (pairing.verifier side).awaiting[position]?
  | .generates _ | .joins _ | .broadcasts _ | .announces _ | .ratchets _ | .relays _
  | .delivers _ => True

/-- What holds in every run of careful steps. -/
structure Consistent (pairing : Pairing) : Prop where
  keyless : ∀ side, (pairing.verifier side).ecdhKeyPair = none → (pairing.verifier side).Keyless
  unheard : ∀ side, (pairing.verifier side.other).ecdhKeyPair = none ∨
    pairing.admitted side = false → (pairing.verifier side).Unheard
  agreed : ∀ side, pairing.Agreed digest raw side

end Pairing

namespace Verifier

variable {before after : Verifier} {pending : Pending} {rest : List Pending}

/-- What one side does when its key pair and its number stay: what was on its way out
still is, what was on its way in still is or is being numbered with the present key
pair, and nothing appears that needs a key pair or a public key that never came. -/
structure Moves (before after : Verifier) : Prop where
  ecdhKeyPair : after.ecdhKeyPair = before.ecdhKeyPair
  safetyNumber : after.safetyNumber = before.safetyNumber
  tells : before.Tells → after.Tells
  hears : ∀ own publicKey, before.ecdhKeyPair = some own → before.Hears publicKey →
    after.Hears publicKey ∨ after.Numbers own publicKey
  numbers : ∀ own publicKey, before.Numbers own publicKey → after.Numbers own publicKey
  keyless : before.ecdhKeyPair = none → before.Keyless → after.Keyless
  unheard : before.Unheard → after.Unheard

/-- More put aside, or more sent, loses nothing. -/
theorem moves_of_more (pair : after.ecdhKeyPair = before.ecdhKeyPair)
    (number : after.safetyNumber = before.safetyNumber)
    (awaiting : ∀ pending ∈ before.awaiting, pending ∈ after.awaiting)
    (sent : ∀ message ∈ before.sent, message ∈ after.sent)
    (received : ∀ message ∈ before.received, message ∈ after.received)
    (keyless : before.ecdhKeyPair = none → before.Keyless → after.Keyless)
    (unheard : before.Unheard → after.Unheard) : before.Moves after := by
  refine ⟨pair, number, ?_, ?_, ?_, keyless, unheard⟩
  · rintro (generating | ⟨keyPair, present, exporting | telling⟩)
    · exact .inl (awaiting _ generating)
    · exact .inr ⟨keyPair, pair.trans present, .inl (awaiting _ exporting)⟩
    · exact .inr ⟨keyPair, pair.trans present, .inr (sent _ telling)⟩
  · rintro own publicKey _ (coming | importing | ⟨broadcast, keyPair, agreeing⟩)
    · exact .inl (.inl (received _ coming))
    · exact .inl (.inr (.inl (awaiting _ importing)))
    · exact .inl (.inr (.inr ⟨broadcast, keyPair, awaiting _ agreeing⟩))
  · rintro own publicKey ⟨broadcast, numbering⟩
    exact ⟨broadcast, awaiting _ numbering⟩

/-- The tasks of a verifier that takes up one more are those it had and that one. -/
theorem mem_await {verifier : Verifier} {added tested : Pending} :
    tested ∈ (verifier.await added).awaiting ↔ tested ∈ verifier.awaiting ∨ tested = added := by
  simp [await]

/-- Putting something aside loses nothing. -/
theorem moves_await (verifier : Verifier) {added : Pending}
    (keyed : added.keyed = true → verifier.ecdhKeyPair ≠ none)
    (answers : added.answers = true → ¬ verifier.Unheard) : verifier.Moves (verifier.await added) := by
  refine moves_of_more rfl rfl ?_ (fun _ member => member) (fun _ member => member) ?_ ?_
  · intro pending member
    exact mem_await.mpr (.inl member)
  · rintro missing ⟨senderKeyRaw, safetyNumber, sent, awaiting⟩
    refine ⟨senderKeyRaw, safetyNumber, sent, ?_⟩
    intro pending member
    rcases mem_await.mp member with old | rfl
    · exact awaiting pending old
    · rw [← Bool.not_eq_true]
      exact fun needs => keyed needs missing
  · intro unheard
    refine ⟨unheard.peerPublicKey, unheard.safetyNumber, unheard.received, ?_⟩
    intro pending member
    rcases mem_await.mp member with old | rfl
    · exact unheard.awaiting pending old
    · rw [← Bool.not_eq_true]
      exact fun hears => answers hears unheard

/-- A verifier that does nothing has moved. -/
theorem Moves.refl (verifier : Verifier) : verifier.Moves verifier :=
  moves_of_more rfl rfl (fun _ member => member) (fun _ member => member) (fun _ member => member)
    (fun _ held => held) (fun held => held)

/-- A broadcast of the present public key loses nothing. -/
theorem moves_broadcastPublicKey (verifier : Verifier) : verifier.Moves verifier.broadcastPublicKey := by
  unfold broadcastPublicKey
  cases present : verifier.ecdhKeyPair with
  | none => exact Moves.refl verifier
  | some keyPair =>
    apply moves_await
    · intro _
      rw [present]
      exact Option.some_ne_none keyPair
    · exact fun impossible => nomatch impossible

/-- Two moves in a row are a move. -/
theorem Moves.trans {later : Verifier} (first : before.Moves after) (second : after.Moves later) :
    before.Moves later := by
  refine ⟨second.ecdhKeyPair.trans first.ecdhKeyPair, second.safetyNumber.trans first.safetyNumber,
    fun told => second.tells (first.tells told), ?_, ?_, ?_, fun held => second.unheard (first.unheard held)⟩
  · intro own publicKey present heard
    rcases first.hears own publicKey present heard with still | numbered
    · exact second.hears own publicKey (first.ecdhKeyPair.trans present) still
    · exact .inr (second.numbers own publicKey numbered)
  · exact fun own publicKey numbered => second.numbers own publicKey (first.numbers own publicKey numbered)
  · exact fun missing held => second.keyless (first.ecdhKeyPair.trans missing) (first.keyless missing held)

/-- A handler that goes on loses nothing when what it stood for is still there after. -/
theorem moves_of_resumed (taken : ∀ tested, tested ∈ before.awaiting ↔ tested = pending ∨ tested ∈ rest)
    (pair : after.ecdhKeyPair = before.ecdhKeyPair)
    (number : after.safetyNumber = before.safetyNumber)
    (awaiting : ∀ tested ∈ rest, tested ∈ after.awaiting)
    (sent : ∀ message ∈ before.sent, message ∈ after.sent)
    (received : ∀ message ∈ before.received, message ∈ after.received)
    (tells : (pending = .generatingKey ∨
      ∃ keyPair, before.ecdhKeyPair = some keyPair ∧ pending = .exporting keyPair) → after.Tells)
    (hears : ∀ own publicKey, before.ecdhKeyPair = some own →
      (pending = .importing publicKey ∨ ∃ broadcast keyPair,
        pending = .agreeing broadcast keyPair publicKey) →
      after.Hears publicKey ∨ after.Numbers own publicKey)
    (numbers : ∀ broadcast own publicKey, pending ≠ .numbering broadcast own publicKey)
    (keyless : before.ecdhKeyPair = none → before.Keyless → after.Keyless)
    (unheard : before.Unheard → after.Unheard) : before.Moves after := by
  refine ⟨pair, number, ?_, ?_, ?_, keyless, unheard⟩
  · rintro (generating | ⟨keyPair, present, exporting | telling⟩)
    · rcases (taken _).mp generating with here | there
      · exact tells (.inl here.symm)
      · exact .inl (awaiting _ there)
    · rcases (taken _).mp exporting with here | there
      · exact tells (.inr ⟨keyPair, present, here.symm⟩)
      · exact .inr ⟨keyPair, pair.trans present, .inl (awaiting _ there)⟩
    · exact .inr ⟨keyPair, pair.trans present, .inr (sent _ telling)⟩
  · rintro own publicKey present (coming | importing | ⟨broadcast, keyPair, agreeing⟩)
    · exact .inl (.inl (received _ coming))
    · rcases (taken _).mp importing with here | there
      · exact hears own publicKey present (.inl here.symm)
      · exact .inl (.inr (.inl (awaiting _ there)))
    · rcases (taken _).mp agreeing with here | there
      · exact hears own publicKey present (.inr ⟨broadcast, keyPair, here.symm⟩)
      · exact .inl (.inr (.inr ⟨broadcast, keyPair, awaiting _ there⟩))
  · rintro own publicKey ⟨broadcast, numbering⟩
    rcases (taken _).mp numbering with here | there
    · exact absurd here.symm (numbers broadcast own publicKey)
    · exact ⟨broadcast, awaiting _ there⟩

/-- What is put aside by a broadcast of the present public key. -/
theorem mem_broadcastPublicKey {verifier : Verifier} {tested : Pending} :
    tested ∈ verifier.broadcastPublicKey.awaiting ↔ tested ∈ verifier.awaiting ∨
      ∃ keyPair, verifier.ecdhKeyPair = some keyPair ∧ tested = .exporting keyPair := by
  unfold broadcastPublicKey
  cases verifier.ecdhKeyPair with
  | none => simp
  | some keyPair => simp [mem_await]

/-- A broadcast changes nothing but what is put aside. -/
theorem broadcastPublicKey_fields (verifier : Verifier) :
    verifier.broadcastPublicKey.ecdhKeyPair = verifier.ecdhKeyPair ∧
      verifier.broadcastPublicKey.senderKeyRaw = verifier.senderKeyRaw ∧
      verifier.broadcastPublicKey.peerPublicKey = verifier.peerPublicKey ∧
      verifier.broadcastPublicKey.safetyNumber = verifier.safetyNumber ∧
      verifier.broadcastPublicKey.sent = verifier.sent ∧
      verifier.broadcastPublicKey.received = verifier.received := by
  unfold broadcastPublicKey
  split <;> exact ⟨rfl, rfl, rfl, rfl, rfl, rfl⟩

/-- Taking something off that neither tells, nor hears, nor numbers loses nothing. -/
theorem moves_taken (taken : ∀ tested, tested ∈ before.awaiting ↔ tested = pending ∨ tested ∈ rest)
    (inert : pending = .noticing ∨ pending = .visiting) :
    before.Moves { before with awaiting := rest } := by
  have fewer : ∀ tested ∈ rest, tested ∈ before.awaiting :=
    fun tested member => (taken tested).mpr (.inr member)
  refine moves_of_resumed taken rfl rfl (fun _ member => member) (fun _ member => member)
    (fun _ member => member) ?_ ?_ ?_ ?_ ?_
  · rintro (generating | ⟨keyPair, _, exporting⟩)
    · rcases inert with same | same <;> cases same.symm.trans generating
    · rcases inert with same | same <;> cases same.symm.trans exporting
  · rintro own publicKey _ (importing | ⟨broadcast, keyPair, agreeing⟩)
    · rcases inert with same | same <;> cases same.symm.trans importing
    · rcases inert with same | same <;> cases same.symm.trans agreeing
  · intro broadcast own publicKey numbering
    rcases inert with same | same <;> cases same.symm.trans numbering
  · exact fun _ held => ⟨held.senderKeyRaw, held.safetyNumber, held.sent,
      fun tested member => held.awaiting tested (fewer tested member)⟩
  · exact fun held => ⟨held.peerPublicKey, held.safetyNumber, held.received,
      fun tested member => held.awaiting tested (fewer tested member)⟩

section Resumed

variable (digest : List UInt8 → List UInt8) (raw : Nat → List UInt8) (generated : Nat)

/-- An exported public key is sent. -/
theorem moves_exporting {publicKey : Nat}
    (taken : ∀ tested, tested ∈ before.awaiting ↔ tested = .exporting publicKey ∨ tested ∈ rest) :
    before.Moves ({ before with awaiting := rest }.send (.publicKey publicKey)) := by
  have here : .exporting publicKey ∈ before.awaiting := (taken _).mpr (.inl rfl)
  refine moves_of_resumed taken rfl rfl (fun _ member => member)
    (fun _ member => List.mem_append_left _ member) (fun _ member => member) ?_ ?_ ?_ ?_ ?_
  · rintro (generating | ⟨keyPair, present, same⟩)
    · cases generating
    · obtain rfl : publicKey = keyPair := Pending.exporting.inj same
      exact .inr ⟨publicKey, present, .inr (List.mem_append_right _ List.mem_cons_self)⟩
  · rintro own other _ (importing | ⟨broadcast, keyPair, agreeing⟩)
    · cases importing
    · cases agreeing
  · exact fun _ _ _ numbering => nomatch numbering
  · exact fun _ held => nomatch held.awaiting _ here
  · exact fun held => ⟨held.peerPublicKey, held.safetyNumber, held.received,
      fun tested member => held.awaiting tested ((taken tested).mpr (.inr member))⟩

/-- A ratchet's sender key is there, and its public key is exported. -/
theorem moves_generatingKey (rooted : before.ecdhKeyPair = none → before.Keyless)
    (taken : ∀ tested, tested ∈ before.awaiting ↔ tested = .generatingKey ∨ tested ∈ rest) :
    before.Moves ({ before with
      awaiting := rest
      senderKeyRaw := some generated
      sharedSecret := none }.broadcastPublicKey) := by
  have here : .generatingKey ∈ before.awaiting := (taken _).mpr (.inl rfl)
  obtain ⟨keyPair, present⟩ : ∃ keyPair, before.ecdhKeyPair = some keyPair := by
    apply Option.ne_none_iff_exists'.mp
    intro missing
    cases (rooted missing).awaiting _ here
  obtain ⟨pair, _, peer, number, sent, received⟩ := broadcastPublicKey_fields { before with
    awaiting := rest
    senderKeyRaw := some generated
    sharedSecret := none }
  refine moves_of_resumed taken pair number ?_ ?_ ?_ ?_ ?_ ?_ ?_ ?_
  · exact fun tested member => mem_broadcastPublicKey.mpr (.inl member)
  · intro message member
    rw [sent]
    exact member
  · intro message member
    rw [received]
    exact member
  · intro _
    exact .inr ⟨keyPair, pair.trans present,
      .inl (mem_broadcastPublicKey.mpr (.inr ⟨keyPair, present, rfl⟩))⟩
  · rintro own other _ (importing | ⟨broadcast, keyPair, agreeing⟩)
    · cases importing
    · cases agreeing
  · exact fun _ _ _ numbering => nomatch numbering
  · intro missing _
    rw [present] at missing
    cases missing
  · intro held
    refine ⟨peer.trans held.peerPublicKey, number.trans held.safetyNumber, ?_, ?_⟩
    · rw [received]
      exact held.received
    · intro tested member
      rcases mem_broadcastPublicKey.mp member with old | ⟨_, _, rfl⟩
      · exact held.awaiting tested ((taken tested).mpr (.inr old))
      · rfl

/-- An imported public key is agreed upon with the present key pair, if there is one. -/
theorem moves_importing {publicKey : Nat}
    (taken : ∀ tested, tested ∈ before.awaiting ↔ tested = .importing publicKey ∨ tested ∈ rest) :
    before.Moves (({ before with awaiting := rest } : Verifier).resume digest raw generated
      (.importing publicKey)) := by
  have here : .importing publicKey ∈ before.awaiting := (taken _).mpr (.inl rfl)
  have heard : ¬ before.Unheard := fun held => nomatch held.awaiting _ here
  rcases Option.eq_none_or_eq_some before.ecdhKeyPair with present | ⟨keyPair, present⟩
  · have shape : ({ before with awaiting := rest } : Verifier).resume digest raw generated
        (.importing publicKey) =
          { before with awaiting := rest, peerPublicKey := some publicKey } := by
      simp only [resume, present]
    rw [shape]
    refine moves_of_resumed taken rfl rfl (fun _ member => member) (fun _ member => member)
      (fun _ member => member) ?_ ?_ ?_ ?_ ?_
    · rintro (generating | ⟨_, _, exporting⟩)
      · cases generating
      · cases exporting
    · intro own other some_pair
      rw [present] at some_pair
      cases some_pair
    · exact fun _ _ _ numbering => nomatch numbering
    · exact fun _ held => ⟨held.senderKeyRaw, held.safetyNumber, held.sent,
        fun tested member => held.awaiting tested ((taken tested).mpr (.inr member))⟩
    · exact fun held => absurd held heard
  · have shape : ({ before with awaiting := rest } : Verifier).resume digest raw generated
        (.importing publicKey) =
          { before with awaiting := rest, peerPublicKey := some publicKey }.await
            (.agreeing false keyPair publicKey) := by
      simp only [resume, present]
    rw [shape]
    refine moves_of_resumed taken rfl rfl (fun _ member => mem_await.mpr (.inl member))
      (fun _ member => member) (fun _ member => member) ?_ ?_ ?_ ?_ ?_
    · rintro (generating | ⟨_, _, exporting⟩)
      · cases generating
      · cases exporting
    · rintro own other _ (importing | ⟨_, _, agreeing⟩)
      · obtain rfl : publicKey = other := Pending.importing.inj importing
        exact .inl (.inr (.inr ⟨false, keyPair, mem_await.mpr (.inr rfl)⟩))
      · cases agreeing
    · exact fun _ _ _ numbering => nomatch numbering
    · intro missing
      rw [present] at missing
      cases missing
    · exact fun held => absurd held heard

/-- With the shared secret there, the number is computed with the present key pair. -/
theorem moves_agreeing {broadcast : Bool} {keyPair publicKey : Nat}
    (rooted : before.ecdhKeyPair = none → before.Keyless)
    (taken : ∀ tested, tested ∈ before.awaiting ↔
      tested = .agreeing broadcast keyPair publicKey ∨ tested ∈ rest) :
    before.Moves (({ before with awaiting := rest } : Verifier).resume digest raw generated
      (.agreeing broadcast keyPair publicKey)) := by
  have here : .agreeing broadcast keyPair publicKey ∈ before.awaiting := (taken _).mpr (.inl rfl)
  have heard : ¬ before.Unheard := fun held => nomatch held.awaiting _ here
  rcases Option.eq_none_or_eq_some before.ecdhKeyPair with present | ⟨own, present⟩
  · exact nomatch (rooted present).awaiting _ here
  · have shape : ({ before with awaiting := rest } : Verifier).resume digest raw generated
        (.agreeing broadcast keyPair publicKey) =
          { before with
            awaiting := rest
            sharedSecret := some (deriveSharedSecret keyPair publicKey) }.await
              (.numbering broadcast own publicKey) := by
      simp only [resume, present]
    rw [shape]
    refine moves_of_resumed taken rfl rfl (fun _ member => mem_await.mpr (.inl member))
      (fun _ member => member) (fun _ member => member) ?_ ?_ ?_ ?_ ?_
    · rintro (generating | ⟨_, _, exporting⟩)
      · cases generating
      · cases exporting
    · rintro mine other same (importing | ⟨_, _, agreeing⟩)
      · cases importing
      · obtain ⟨rfl, rfl, rfl⟩ := Pending.agreeing.inj agreeing
        obtain rfl : own = mine := Option.some.inj (present.symm.trans same)
        exact .inr ⟨broadcast, mem_await.mpr (.inr rfl)⟩
    · exact fun _ _ _ numbering => nomatch numbering
    · intro missing
      rw [present] at missing
      cases missing
    · exact fun held => absurd held heard

/-- The broadcast looks at the other side, and derives its number or goes on to export
the public key. -/
theorem moves_visiting
    (taken : ∀ tested, tested ∈ before.awaiting ↔ tested = .visiting ∨ tested ∈ rest) :
    before.Moves (({ before with awaiting := rest } : Verifier).resume digest raw generated
      .visiting) := by
  refine (moves_taken taken (.inr rfl)).trans ?_
  unfold resume
  dsimp only
  split
  · next keyPair publicKey present heard _ =>
    apply moves_await
    · intro _
      rw [present]
      exact Option.some_ne_none keyPair
    · intro _ held
      rw [held.peerPublicKey] at heard
      cases heard
  · exact moves_broadcastPublicKey _

end Resumed

/-- A message without a public key leaves for the server. -/
theorem moves_sent {message : KeyMessage} {tail : List KeyMessage}
    (queued : before.sent = message :: tail) (plain : message.isKey = false) :
    before.Moves { before with sent := tail } := by
  have fewer : ∀ tested ∈ tail, tested ∈ before.sent := by
    intro tested member
    rw [queued]
    exact List.mem_cons_of_mem message member
  refine ⟨rfl, rfl, ?_, fun _ _ _ heard => .inl heard, fun _ _ numbered => numbered, ?_, ?_⟩
  · rintro (generating | ⟨keyPair, present, exporting | telling⟩)
    · exact .inl generating
    · exact .inr ⟨keyPair, present, .inl exporting⟩
    · rw [queued] at telling
      rcases List.mem_cons.mp telling with rfl | behind
      · cases plain
      · exact .inr ⟨keyPair, present, .inr behind⟩
  · exact fun _ held => ⟨held.senderKeyRaw, held.safetyNumber,
      fun tested member => held.sent tested (fewer tested member), held.awaiting⟩
  · exact fun held => ⟨held.peerPublicKey, held.safetyNumber, held.received, held.awaiting⟩

/-- A message without a public key is placed for a side. -/
theorem moves_received (message : KeyMessage) (plain : message.isKey = false) :
    before.Moves { before with received := before.received ++ [message] } := by
  refine moves_of_more rfl rfl (fun _ member => member) (fun _ member => member)
    (fun _ member => List.mem_append_left _ member) ?_ ?_
  · exact fun _ held => ⟨held.senderKeyRaw, held.safetyNumber, held.sent, held.awaiting⟩
  · intro held
    refine ⟨held.peerPublicKey, held.safetyNumber, ?_, held.awaiting⟩
    intro tested member
    rcases List.mem_append.mp member with old | new
    · exact held.received tested old
    · rw [List.mem_singleton.mp new]
      exact plain

/-- A message without a public key is taken from the queue. -/
theorem moves_dequeued {message : KeyMessage} {tail : List KeyMessage}
    (queued : before.received = message :: tail) (plain : message.isKey = false) :
    before.Moves { before with received := tail } := by
  have fewer : ∀ tested ∈ tail, tested ∈ before.received := by
    intro tested member
    rw [queued]
    exact List.mem_cons_of_mem message member
  refine ⟨rfl, rfl, fun told => told, ?_, fun _ _ numbered => numbered, ?_, ?_⟩
  · rintro own publicKey _ (coming | handled)
    · rw [queued] at coming
      rcases List.mem_cons.mp coming with rfl | behind
      · cases plain
      · exact .inl (.inl behind)
    · exact .inl (.inr handled)
  · exact fun _ held => ⟨held.senderKeyRaw, held.safetyNumber, held.sent, held.awaiting⟩
  · exact fun held => ⟨held.peerPublicKey, held.safetyNumber,
      fun tested member => held.received tested (fewer tested member), held.awaiting⟩

/-- A message that is handled loses nothing. -/
theorem moves_handled {message : KeyMessage} {tail : List KeyMessage}
    (queued : before.received = message :: tail) :
    before.Moves ({ before with received := tail }.handleMessage message) := by
  cases message with
  | join => exact moves_dequeued queued rfl
  | present =>
    refine (moves_dequeued queued rfl).trans (moves_await _ ?_ ?_)
    · exact fun impossible => nomatch impossible
    · exact fun impossible => nomatch impossible
  | publicKey publicKey =>
    have first : .publicKey publicKey ∈ before.received := by
      rw [queued]
      exact List.mem_cons_self
    refine ⟨rfl, rfl, ?_, ?_, ?_, ?_, ?_⟩
    · rintro (generating | ⟨keyPair, present, exporting | telling⟩)
      · exact .inl (mem_await.mpr (.inl generating))
      · exact .inr ⟨keyPair, present, .inl (mem_await.mpr (.inl exporting))⟩
      · exact .inr ⟨keyPair, present, .inr telling⟩
    · rintro own other _ (coming | importing | ⟨broadcast, keyPair, agreeing⟩)
      · rw [queued] at coming
        rcases List.mem_cons.mp coming with same | behind
        · obtain rfl := KeyMessage.publicKey.inj same
          exact .inl (.inr (.inl (mem_await.mpr (.inr rfl))))
        · exact .inl (.inl behind)
      · exact .inl (.inr (.inl (mem_await.mpr (.inl importing))))
      · exact .inl (.inr (.inr ⟨broadcast, keyPair, mem_await.mpr (.inl agreeing)⟩))
    · rintro own other ⟨broadcast, numbering⟩
      exact ⟨broadcast, mem_await.mpr (.inl numbering)⟩
    · intro _ held
      refine ⟨held.senderKeyRaw, held.safetyNumber, held.sent, ?_⟩
      intro tested member
      rcases mem_await.mp member with old | rfl
      · exact held.awaiting tested old
      · rfl
    · exact fun held => nomatch held.received _ first

end Verifier

namespace Pairing

variable {digest : List UInt8 → List UInt8} {raw : Nat → List UInt8} {generated : Nat}
  {pairing later : Pairing} {side : Side} {after : Verifier}

/-- The state later differs from the earlier one in what one side has become. -/
structure Turns (pairing : Pairing) (side : Side) (after : Verifier) (later : Pairing) : Prop where
  here : later.verifier side = after
  there : later.verifier side.other = pairing.verifier side.other
  admitted : later.admitted = pairing.admitted

/-- Setting one side's verifier is a turn of that side. -/
theorem turns_set (pairing : Pairing) (side : Side) (after : Verifier) :
    pairing.Turns side after (pairing.set side after) :=
  ⟨Function.update_self .., Function.update_of_ne (Side.other_ne side) .., rfl⟩

/-- Setting one side's verifier together with the counter of keys is a turn of that side. -/
theorem turns_resumed (pairing : Pairing) (generated : Nat) (side : Side) (after : Verifier) :
    pairing.Turns side after ({ pairing with generated }.set side after) :=
  ⟨Function.update_self .., Function.update_of_ne (Side.other_ne side) .., rfl⟩

/-- Setting one side twice is a turn from the first setting to the second. -/
theorem turns_again (pairing : Pairing) (side : Side) (before after : Verifier) :
    (pairing.set side before).Turns side after (pairing.set side after) := by
  refine ⟨Function.update_self .., ?_, rfl⟩
  exact (Function.update_of_ne (Side.other_ne side) ..).trans
    (Function.update_of_ne (Side.other_ne side) ..).symm

/-- The first two facts of a turn that keeps the key pair, or that gives it one. -/
theorem Consistent.rooted (consistent : pairing.Consistent digest raw)
    (turns : pairing.Turns side after later)
    (kept : after.ecdhKeyPair = none → (pairing.verifier side).ecdhKeyPair = none)
    (keyless : (pairing.verifier side).ecdhKeyPair = none → (pairing.verifier side).Keyless →
      after.ecdhKeyPair = none → after.Keyless)
    (unheard : (pairing.verifier side).Unheard → after.Unheard)
    (agreed : ∀ tested, later.Agreed digest raw tested) : later.Consistent digest raw := by
  obtain ⟨here, there, admitted⟩ := turns
  refine ⟨?_, ?_, agreed⟩
  · intro tested missing
    rcases Side.eq_or_other side tested with rfl | rfl
    · rw [here] at missing ⊢
      exact keyless (kept missing) (consistent.keyless _ (kept missing)) missing
    · rw [there] at missing ⊢
      exact consistent.keyless _ missing
  · intro tested away
    rcases Side.eq_or_other side tested with rfl | rfl
    · rw [there, admitted] at away
      rw [here]
      exact unheard (consistent.unheard _ away)
    · rw [Side.other_other, here, admitted] at away
      rw [there]
      apply consistent.unheard
      rw [Side.other_other]
      exact away.imp_left kept

/-- A side whose number is there has a key pair. -/
theorem Consistent.paired (consistent : pairing.Consistent digest raw) {number : List Char}
    (computed : (pairing.verifier side).safetyNumber = some number) :
    ∃ own, (pairing.verifier side).ecdhKeyPair = some own := by
  apply Option.ne_none_iff_exists'.mp
  intro missing
  rw [(consistent.keyless side missing).safetyNumber] at computed
  cases computed

/-- The other side's number stays right, or on its way, while this side keeps its key
pair and tells of it no less. -/
theorem Consistent.other_agreed (consistent : pairing.Consistent digest raw)
    (turns : pairing.Turns side after later)
    (pair : after.ecdhKeyPair = (pairing.verifier side).ecdhKeyPair)
    (tells : (pairing.verifier side).Tells → after.Tells) :
    later.Agreed digest raw side.other := by
  obtain ⟨here, there, _⟩ := turns
  intro number computed
  rw [there] at computed
  have before := consistent.agreed side.other number computed
  unfold Settling OnItsWay Present at before ⊢
  rw [Side.other_other] at before ⊢
  rw [here, there, pair]
  exact before.imp_left (Or.imp_left (Or.imp_right tells))

/-- This side's number stays right, or on its way, while it keeps number and key pair
and loses nothing that is coming. -/
theorem Consistent.own_agreed (consistent : pairing.Consistent digest raw)
    (turns : pairing.Turns side after later)
    (pair : after.ecdhKeyPair = (pairing.verifier side).ecdhKeyPair)
    (number : after.safetyNumber = (pairing.verifier side).safetyNumber)
    (hears : ∀ own publicKey, (pairing.verifier side).ecdhKeyPair = some own →
      (pairing.verifier side).Hears publicKey → after.Hears publicKey ∨ after.Numbers own publicKey)
    (numbers : ∀ own publicKey, (pairing.verifier side).Numbers own publicKey →
      after.Numbers own publicKey) : later.Agreed digest raw side := by
  obtain ⟨here, there, _⟩ := turns
  intro shown computed
  rw [here, number] at computed
  obtain ⟨own, present⟩ := consistent.paired computed
  have same : ∀ mine publicKey, pairing.Present side mine publicKey →
      later.Present side mine publicKey := by
    intro mine publicKey both
    refine ⟨?_, ?_⟩
    · rw [here, pair]
      exact both.1
    · rw [there]
      exact both.2
  rcases consistent.agreed side shown computed with
    ((⟨publicKey, theirs, heard⟩ | told) | ⟨mine, publicKey, both, numbered⟩) |
      ⟨mine, publicKey, both, right⟩
  · rcases hears own publicKey present heard with still | numbered
    · refine .inl (.inl (.inl ⟨publicKey, ?_, ?_⟩))
      · rw [there]
        exact theirs
      · rw [here]
        exact still
    · refine .inl (.inr ⟨own, publicKey, same own publicKey ⟨present, theirs⟩, ?_⟩)
      rw [here]
      exact numbered
  · refine .inl (.inl (.inr ?_))
    rw [there]
    exact told
  · refine .inl (.inr ⟨mine, publicKey, same mine publicKey both, ?_⟩)
    rw [here]
    exact numbers mine publicKey numbered
  · exact .inr ⟨mine, publicKey, same mine publicKey both, right⟩

/-- A side that loses nothing keeps the pairing consistent. -/
theorem Consistent.moves (consistent : pairing.Consistent digest raw)
    (turns : pairing.Turns side after later)
    (moves : (pairing.verifier side).Moves after) : later.Consistent digest raw := by
  apply consistent.rooted turns
  · intro missing
    rw [← moves.ecdhKeyPair]
    exact missing
  · exact fun missing held _ => moves.keyless missing held
  · exact moves.unheard
  · intro tested
    rcases Side.eq_or_other side tested with rfl | rfl
    · exact consistent.own_agreed turns moves.ecdhKeyPair moves.safetyNumber moves.hears moves.numbers
    · exact consistent.other_agreed turns moves.ecdhKeyPair moves.tells

/-- A side's first key pair finds nobody with a number of it. -/
theorem Consistent.first_pair (consistent : pairing.Consistent digest raw)
    (missing : (pairing.verifier side).ecdhKeyPair = none)
    (turns : pairing.Turns side { pairing.verifier side with ecdhKeyPair := some generated } later) :
    later.Consistent digest raw := by
  have keyless := consistent.keyless side missing
  have unheard : (pairing.verifier side.other).Unheard := by
    apply consistent.unheard
    rw [Side.other_other]
    exact .inl missing
  apply consistent.rooted turns
  · exact fun impossible => nomatch impossible
  · exact fun _ _ impossible => nomatch impossible
  · exact fun held => ⟨held.peerPublicKey, held.safetyNumber, held.received, held.awaiting⟩
  · intro tested number computed
    rcases Side.eq_or_other side tested with rfl | rfl
    · rw [turns.here] at computed
      cases keyless.safetyNumber.symm.trans computed
    · rw [turns.there, unheard.safetyNumber] at computed
      cases computed

/-- A ratchet replaces the key pair of a side that has no number, or whose number will
be computed again. The other side will be told. -/
theorem Consistent.ratcheted (consistent : pairing.Consistent digest raw) {rest : List Pending}
    (taken : ∀ tested, tested ∈ (pairing.verifier side).awaiting ↔
      tested = .generatingPair ∨ tested ∈ rest)
    (careful : (pairing.verifier side).safetyNumber = none ∨ pairing.OnItsWay side)
    (turns : pairing.Turns side ({ pairing.verifier side with
      awaiting := rest
      ecdhKeyPair := some generated }.await .generatingKey) later) :
    later.Consistent digest raw := by
  obtain ⟨here, there, admitted⟩ := turns
  have stays : ∀ tested, tested ≠ .generatingPair → tested ∈ (pairing.verifier side).awaiting →
      tested ∈ (later.verifier side).awaiting := by
    intro tested apart member
    rw [here, Verifier.mem_await]
    exact .inl (((taken tested).mp member).resolve_left apart)
  apply consistent.rooted ⟨here, there, admitted⟩
  · exact fun impossible => nomatch impossible
  · exact fun _ _ impossible => nomatch impossible
  · intro held
    refine ⟨held.peerPublicKey, held.safetyNumber, held.received, ?_⟩
    intro tested member
    rcases Verifier.mem_await.mp member with old | rfl
    · exact held.awaiting tested ((taken tested).mpr (.inr old))
    · rfl
  · intro tested number computed
    rcases Side.eq_or_other side tested with rfl | rfl
    · rw [here] at computed
      obtain ⟨publicKey, theirs, heard⟩ | told := careful.resolve_left (by
        intro none
        cases none.symm.trans computed)
      · refine .inl (.inl (.inl ⟨publicKey, by rw [there]; exact theirs, ?_⟩))
        rcases heard with coming | importing | ⟨broadcast, keyPair, agreeing⟩
        · left
          rw [here]
          exact coming
        · exact .inr (.inl (stays _ (fun impossible => nomatch impossible) importing))
        · exact .inr (.inr ⟨broadcast, keyPair,
            stays _ (fun impossible => nomatch impossible) agreeing⟩)
      · exact .inl (.inl (.inr (by rw [there]; exact told)))
    · refine .inl (.inl (.inr ?_))
      rw [Side.other_other, here]
      exact .inl (Verifier.mem_await.mpr (.inr rfl))

/-- A number is stored that is right, or will be computed again. -/
theorem Consistent.numbered (consistent : pairing.Consistent digest raw) {rest : List Pending}
    {broadcast : Bool} {own publicKey : Nat}
    (taken : ∀ tested, tested ∈ (pairing.verifier side).awaiting ↔
      tested = .numbering broadcast own publicKey ∨ tested ∈ rest)
    (careful : pairing.Settling side)
    (turns : pairing.Turns side { pairing.verifier side with
      awaiting := rest
      safetyNumber := some (computeSafetyNumber digest (raw own) (raw publicKey)) } later) :
    later.Consistent digest raw := by
  obtain ⟨here, there, admitted⟩ := turns
  have place := (taken _).mpr (.inl rfl)
  have stays : ∀ tested, tested ≠ .numbering broadcast own publicKey →
      tested ∈ (pairing.verifier side).awaiting → tested ∈ (later.verifier side).awaiting := by
    intro tested apart member
    rw [here]
    exact ((taken tested).mp member).resolve_left apart
  apply consistent.rooted ⟨here, there, admitted⟩
  · exact fun missing => missing
  · exact fun _ held _ => nomatch held.awaiting _ place
  · exact fun held => nomatch held.awaiting _ place
  · intro tested
    rcases Side.eq_or_other side tested with rfl | rfl
    · intro number computed
      rw [here] at computed
      obtain rfl := Option.some.inj computed
      rcases careful with (⟨coming, theirs, heard⟩ | told) | ⟨mine, other, both, again, numbering⟩
      · refine .inl (.inl (.inl ⟨coming, by rw [there]; exact theirs, ?_⟩))
        rcases heard with arrived | importing | ⟨again, keyPair, agreeing⟩
        · left
          rw [here]
          exact arrived
        · exact .inr (.inl (stays _ (fun impossible => nomatch impossible) importing))
        · exact .inr (.inr ⟨again, keyPair,
            stays _ (fun impossible => nomatch impossible) agreeing⟩)
      · exact .inl (.inl (.inr (by rw [there]; exact told)))
      · have now : later.Present tested mine other := ⟨by rw [here]; exact both.1, by rw [there]; exact both.2⟩
        rcases (taken _).mp numbering with same | rests
        · obtain ⟨-, rfl, rfl⟩ := Pending.numbering.inj same
          exact .inr ⟨mine, other, now, rfl⟩
        · exact .inl (.inr ⟨mine, other, now, again, by rw [here]; exact rests⟩)
    · apply consistent.other_agreed ⟨here, there, admitted⟩ rfl
      rintro (generating | ⟨keyPair, present, exporting | telling⟩)
      · exact .inl (((taken _).mp generating).resolve_left (fun impossible => nomatch impossible))
      · exact .inr ⟨keyPair, present, .inl (((taken _).mp exporting).resolve_left
          (fun impossible => nomatch impossible))⟩
      · exact .inr ⟨keyPair, present, .inr telling⟩

/-- Who has joined is only ever added to. -/
theorem Consistent.admits (consistent : pairing.Consistent digest raw)
    (same : later.verifier = pairing.verifier)
    (more : ∀ tested, later.admitted tested = false → pairing.admitted tested = false) :
    later.Consistent digest raw := by
  have agreed := consistent.agreed
  unfold Agreed Settling OnItsWay Present at agreed
  refine ⟨?_, ?_, ?_⟩
  · rw [same]
    exact consistent.keyless
  · intro tested away
    rw [same] at away ⊢
    exact consistent.unheard tested (away.imp_right (more tested))
  · unfold Agreed Settling OnItsWay Present
    rw [same]
    exact agreed

/-- A join shows the two sides to each other once both are there. -/
theorem Consistent.joined (consistent : pairing.Consistent digest raw) :
    (pairing.relay side .join).Consistent digest raw := by
  have more : Consistent digest raw
      { pairing with admitted := Function.update pairing.admitted side true } := by
    refine consistent.admits rfl ?_
    intro tested away
    dsimp only at away
    by_cases same : tested = side
    · subst same
      rw [Function.update_self] at away
      cases away
    · rw [Function.update_of_ne same] at away
      exact away
  unfold relay
  dsimp only
  split
  · have first := more.moves (turns_set _ side _)
      (Verifier.moves_received .present rfl)
    exact first.moves (turns_set _ side.other _) (Verifier.moves_received .present rfl)
  · exact more

/-- A public key reaches the other side, or nobody when the other side has not
joined. -/
theorem Consistent.relays_key (consistent : pairing.Consistent digest raw) {publicKey : Nat}
    {tail : List KeyMessage}
    (queued : (pairing.verifier side).sent = .publicKey publicKey :: tail) :
    ((pairing.set side { pairing.verifier side with sent := tail }).relay side
      (.publicKey publicKey)).Consistent digest raw := by
  have first : .publicKey publicKey ∈ (pairing.verifier side).sent := by
    rw [queued]
    exact List.mem_cons_self
  have fewer : ∀ tested ∈ tail, tested ∈ (pairing.verifier side).sent := by
    intro tested member
    rw [queued]
    exact List.mem_cons_of_mem _ member
  have paired : (pairing.verifier side).ecdhKeyPair ≠ none :=
    fun missing => nomatch (consistent.keyless side missing).sent _ first
  have turns := turns_set pairing side { pairing.verifier side with sent := tail }
  generalize pairing.set side { pairing.verifier side with sent := tail } = middle at turns
  have own : middle.Agreed digest raw side := consistent.own_agreed turns rfl rfl
    (fun _ _ _ heard => .inl heard) (fun _ _ numbered => numbered)
  obtain ⟨here, there, admitted⟩ := turns
  unfold relay
  dsimp only
  split
  · next joined =>
    have placed := turns_set middle side.other { middle.verifier side.other with
      received := (middle.verifier side.other).received ++ [.publicKey publicKey] }
    have again : middle.deliver side.other (.publicKey publicKey) =
      middle.set side.other { middle.verifier side.other with
        received := (middle.verifier side.other).received ++ [.publicKey publicKey] } := rfl
    rw [again]
    generalize middle.set side.other { middle.verifier side.other with
      received := (middle.verifier side.other).received ++ [.publicKey publicKey] } = later at placed
    obtain ⟨receiver, sender, kept⟩ := placed
    rw [Side.other_other, here] at sender
    rw [there] at receiver
    refine ⟨?_, ?_, ?_⟩
    · intro tested missing
      rcases Side.eq_or_other side tested with rfl | rfl
      · rw [sender] at missing
        exact absurd missing paired
      · rw [receiver] at missing ⊢
        have held := consistent.keyless side.other missing
        exact ⟨held.senderKeyRaw, held.safetyNumber, held.sent, held.awaiting⟩
    · intro tested absent
      rcases Side.eq_or_other side tested with rfl | rfl
      · rw [receiver, kept, admitted] at absent
        rw [sender]
        have held := consistent.unheard _ absent
        exact ⟨held.peerPublicKey, held.safetyNumber, held.received, held.awaiting⟩
      · rw [Side.other_other, sender, kept, joined] at absent
        rcases absent with missing | impossible
        · exact absurd missing paired
        · cases impossible
    · intro tested number computed
      rcases Side.eq_or_other side tested with rfl | rfl
      · rw [sender] at computed
        have before := own number (by rw [here]; exact computed)
        unfold Settling OnItsWay Present at before ⊢
        rw [here, there] at before
        rw [sender, receiver]
        exact before
      · rw [receiver] at computed
        have before := consistent.agreed side.other number computed
        unfold Settling OnItsWay Present at before ⊢
        rw [Side.other_other] at before ⊢
        rw [sender, receiver]
        rcases before with ((⟨coming, mine, heard⟩ | told) | numbered) | right
        · refine .inl (.inl (.inl ⟨coming, mine, ?_⟩))
          exact heard.imp_left (List.mem_append_left _)
        · rcases told with generating | ⟨keyPair, present, exporting | telling⟩
          · exact .inl (.inl (.inr (.inl generating)))
          · exact .inl (.inl (.inr (.inr ⟨keyPair, present, .inl exporting⟩)))
          · rw [queued] at telling
            rcases List.mem_cons.mp telling with same | behind
            · obtain rfl := KeyMessage.publicKey.inj same
              exact .inl (.inl (.inl ⟨keyPair, present,
                .inl (List.mem_append_right _ List.mem_cons_self)⟩))
            · exact .inl (.inl (.inr (.inr ⟨keyPair, present, .inr behind⟩)))
        · exact .inl (.inr numbered)
        · exact .inr right
  · next away =>
    have unheard : (pairing.verifier side.other).Unheard := by
      apply consistent.unheard
      rw [← admitted]
      exact .inr (by simpa using away)
    apply consistent.rooted ⟨here, there, admitted⟩
    · exact fun missing => missing
    · exact fun missing => absurd missing paired
    · exact fun held => ⟨held.peerPublicKey, held.safetyNumber, held.received, held.awaiting⟩
    · intro tested
      rcases Side.eq_or_other side tested with rfl | rfl
      · exact own
      · intro number computed
        rw [there, unheard.safetyNumber] at computed
        cases computed

/-- Every careful step keeps the pairing consistent. -/
theorem step_consistent (pairing : Pairing) (event : PairingEvent) (later : Pairing)
    (consistent : pairing.Consistent digest raw) (careful : pairing.Careful event)
    (stepped : pairing.step digest raw event = some later) : later.Consistent digest raw := by
  cases event with
  | generates side =>
    simp only [step] at stepped
    split at stepped
    · obtain rfl := Option.some.inj stepped
      unfold Verifier.generate
      split
      · next missing =>
        exact consistent.first_pair (Option.isNone_iff_eq_none.mp missing) (turns_resumed ..)
      · next present =>
        refine consistent.moves (turns_resumed ..) (Verifier.moves_of_more rfl rfl
          (fun _ member => member) (fun _ member => member) (fun _ member => member) ?_ ?_)
        · intro missing
          rw [missing] at present
          exact absurd rfl present
        · exact fun held => ⟨held.peerPublicKey, held.safetyNumber, held.received, held.awaiting⟩
    · cases stepped
  | joins side =>
    simp only [step] at stepped
    split at stepped
    · cases stepped
    · obtain rfl := Option.some.inj stepped
      refine consistent.moves (turns_set ..) (Verifier.moves_of_more rfl rfl (fun _ member => member)
        (fun _ member => List.mem_append_left _ member) (fun _ member => member) ?_ ?_)
      · intro _ held
        refine ⟨held.senderKeyRaw, held.safetyNumber, ?_, held.awaiting⟩
        intro message member
        rcases List.mem_append.mp member with old | new
        · exact held.sent message old
        · rw [List.mem_singleton.mp new]
          rfl
      · exact fun held => ⟨held.peerPublicKey, held.safetyNumber, held.received, held.awaiting⟩
  | broadcasts side =>
    simp only [step] at stepped
    split at stepped
    · obtain rfl := Option.some.inj stepped
      have marked : (pairing.verifier side).Moves { pairing.verifier side with broadcasted := true } :=
        Verifier.moves_of_more rfl rfl (fun _ member => member) (fun _ member => member)
          (fun _ member => member)
          (fun _ held => ⟨held.senderKeyRaw, held.safetyNumber, held.sent, held.awaiting⟩)
          (fun held => ⟨held.peerPublicKey, held.safetyNumber, held.received, held.awaiting⟩)
      refine consistent.moves (turns_set ..) (marked.trans (Verifier.moves_await _ ?_ ?_))
      · exact fun impossible => nomatch impossible
      · exact fun impossible => nomatch impossible
    · cases stepped
  | announces side =>
    obtain rfl := Option.some.inj stepped
    exact consistent.moves (turns_set ..) (Verifier.moves_broadcastPublicKey _)
  | ratchets side =>
    simp only [step] at stepped
    split at stepped
    · next ready =>
      obtain rfl := Option.some.inj stepped
      refine consistent.moves (turns_set ..) (Verifier.moves_await _ ?_ ?_)
      · intro _ missing
        rw [(consistent.keyless side missing).senderKeyRaw] at ready
        cases ready
      · exact fun impossible => nomatch impossible
    · cases stepped
  | resumes side position =>
    simp only [step] at stepped
    obtain ⟨pending, place, rfl⟩ := Option.map_eq_some_iff.mp stepped
    have taken : ∀ tested, tested ∈ (pairing.verifier side).awaiting ↔
        tested = pending ∨ tested ∈ (pairing.verifier side).awaiting.eraseIdx position := by
      intro tested
      obtain ⟨inside, rfl⟩ := List.getElem?_eq_some_iff.mp place
      rw [← (List.getElem_cons_eraseIdx_perm inside).mem_iff, List.mem_cons]
    have rooted := consistent.keyless side
    cases pending with
    | noticing =>
      exact consistent.moves (turns_resumed ..)
        ((Verifier.moves_taken taken (.inl rfl)).trans (Verifier.moves_broadcastPublicKey _))
    | exporting publicKey =>
      exact consistent.moves (turns_resumed ..) (Verifier.moves_exporting taken)
    | generatingPair =>
      have guard : (pairing.verifier side).safetyNumber = none ∨ pairing.OnItsWay side := by
        simpa only [Careful, CarefulAt, place] using careful
      exact consistent.ratcheted taken guard (turns_resumed ..)
    | generatingKey =>
      exact consistent.moves (turns_resumed ..) (Verifier.moves_generatingKey _ rooted taken)
    | visiting =>
      exact consistent.moves (turns_resumed ..) (Verifier.moves_visiting digest raw _ taken)
    | importing publicKey =>
      exact consistent.moves (turns_resumed ..) (Verifier.moves_importing digest raw _ taken)
    | agreeing broadcast keyPair publicKey =>
      exact consistent.moves (turns_resumed ..) (Verifier.moves_agreeing digest raw _ rooted taken)
    | numbering broadcast own publicKey =>
      have guard : pairing.Settling side := by
        simpa only [Careful, CarefulAt, place] using careful
      have stored := consistent.numbered taken guard
        (turns_resumed pairing (pairing.generated + 1) side _)
      cases broadcast with
      | false => exact stored
      | true =>
        refine stored.moves (turns_again ..) ?_
        rw [(turns_resumed ..).here]
        exact Verifier.moves_broadcastPublicKey _
  | relays side =>
    simp only [step] at stepped
    obtain ⟨message, head, rfl⟩ := Option.map_eq_some_iff.mp stepped
    obtain ⟨tail, queued⟩ := List.head?_eq_some_iff.mp head
    rw [queued]
    dsimp only [List.tail_cons]
    cases message with
    | publicKey publicKey => exact consistent.relays_key queued
    | present => exact consistent.moves (turns_set ..) (Verifier.moves_sent queued rfl)
    | join =>
      have left := consistent.moves (turns_set ..) (Verifier.moves_sent queued rfl)
      exact left.joined

  | delivers side =>
    simp only [step] at stepped
    obtain ⟨message, head, rfl⟩ := Option.map_eq_some_iff.mp stepped
    obtain ⟨tail, queued⟩ := List.head?_eq_some_iff.mp head
    refine consistent.moves (turns_set ..) ?_
    rw [queued]
    exact Verifier.moves_handled queued

end Pairing

section Decidable

instance (verifier : Verifier) : Decidable verifier.Tells :=
  decidable_of_iff (.generatingKey ∈ verifier.awaiting ∨ verifier.ecdhKeyPair.any (fun keyPair =>
      decide (.exporting keyPair ∈ verifier.awaiting ∨ .publicKey keyPair ∈ verifier.sent)) = true)
    (by simp [Verifier.Tells, Option.any_eq_true])

instance (pairing : Pairing) (side : Side) : Decidable (pairing.OnItsWay side) :=
  decidable_of_iff ((pairing.verifier side.other).ecdhKeyPair.any (fun publicKey =>
      decide ((pairing.verifier side).Hears publicKey)) = true ∨
        (pairing.verifier side.other).Tells)
    (by simp [Pairing.OnItsWay, Option.any_eq_true])

instance (pairing : Pairing) (side : Side) : Decidable (pairing.Settling side) :=
  decidable_of_iff (pairing.OnItsWay side ∨ (pairing.verifier side).ecdhKeyPair.any (fun own =>
      (pairing.verifier side.other).ecdhKeyPair.any (fun publicKey =>
        decide (.numbering false own publicKey ∈ (pairing.verifier side).awaiting ∨
          .numbering true own publicKey ∈ (pairing.verifier side).awaiting))) = true)
    (by
      simp only [Pairing.Settling, Pairing.Present, Verifier.Numbers, Option.any_eq_true,
        decide_eq_true_eq, Bool.exists_bool, and_assoc, exists_and_left])

instance (pairing : Pairing) (side : Side) :
    (pending : Option Pending) → Decidable (pairing.CarefulAt side pending)
  | some .generatingPair => inferInstanceAs (Decidable (_ ∨ _))
  | some (.numbering _ _ _) => inferInstanceAs (Decidable (pairing.Settling side))
  | some .noticing | some (.exporting _) | some .generatingKey | some .visiting
  | some (.importing _) | some (.agreeing _ _ _) | none => isTrue trivial

instance (pairing : Pairing) : (event : PairingEvent) → Decidable (pairing.Careful event)
  | .resumes side position =>
    inferInstanceAs (Decidable (pairing.CarefulAt side (pairing.verifier side).awaiting[position]?))
  | .generates _ | .joins _ | .broadcasts _ | .announces _ | .ratchets _ | .relays _
  | .delivers _ => isTrue trivial

end Decidable

section Numbers

variable (digest : List UInt8 → List UInt8) (raw : Nat → List UInt8)

/-- Nothing has happened, and nothing is inconsistent. -/
theorem new_consistent : Pairing.new.Consistent digest raw := by
  refine ⟨?_, ?_, ?_⟩
  · exact fun side _ => ⟨rfl, rfl, List.forall_mem_nil _, List.forall_mem_nil _⟩
  · exact fun side _ => ⟨rfl, rfl, List.forall_mem_nil _, List.forall_mem_nil _⟩
  · intro side number impossible
    cases impossible

/-- In a quiescent state nothing is on its way. -/
theorem quiescent_settled {pairing : Pairing} (quiescent : pairing.Quiescent) (side : Side) :
    ¬ pairing.Settling side := by
  obtain ⟨awaiting, _, received⟩ := quiescent side
  obtain ⟨waiting, sent, _⟩ := quiescent side.other
  unfold Pairing.Settling Pairing.OnItsWay Verifier.Hears Verifier.Tells Verifier.Numbers
  rw [awaiting, received, waiting, sent]
  simp

/-- A safety number does not depend on which key is one's own. In every run in which no
ratchet replaces a key pair behind a number that nobody will compute again, and no
number of outdated keys is the last to be stored, the two sides of a quiescent state
show the same number, that of their present public keys.

The invariant keeps for each side either a task that will compute its number again, or the
agreement of what is shown with the two public keys in force. Quiescence leaves the
agreement only. -/
theorem safety_numbers_agree :
    (∀ a b, computeSafetyNumber digest a b = computeSafetyNumber digest b a) ∧
      ∀ pairing, Reaches (Pairing.step digest raw) Pairing.Careful Pairing.new pairing →
        pairing.Quiescent → ∀ left right,
        (pairing.verifier .left).safetyNumber = some left →
        (pairing.verifier .right).safetyNumber = some right →
        left = right ∧ ∃ leftKey rightKey,
          (pairing.verifier .left).ecdhKeyPair = some leftKey ∧
          (pairing.verifier .right).ecdhKeyPair = some rightKey ∧
          left = computeSafetyNumber digest (raw leftKey) (raw rightKey) := by
  refine ⟨computeSafetyNumber_comm digest, ?_⟩
  intro pairing reached quiescent left right atLeft atRight
  have consistent := Reaches.invariant (Pairing.Consistent digest raw) (new_consistent digest raw)
    Pairing.step_consistent reached
  obtain ⟨own, other, ⟨mine, theirs⟩, shown⟩ :=
    (consistent.agreed .left left atLeft).resolve_left (quiescent_settled quiescent .left)
  obtain ⟨there, here, ⟨right_own, right_other⟩, displayed⟩ :=
    (consistent.agreed .right right atRight).resolve_left (quiescent_settled quiescent .right)
  obtain rfl : own = here := Option.some.inj (mine.symm.trans right_other)
  obtain rfl : other = there := Option.some.inj (theirs.symm.trans right_own)
  exact ⟨by rw [shown, displayed, computeSafetyNumber_comm], own, other, mine, theirs, shown⟩

end Numbers

section Sample

/-- A hash of 32 bytes that keeps the bytes it is given. -/
def sampleDigest (bytes : List UInt8) : List UInt8 := (bytes ++ List.replicate 32 0).take 32

/-- The bytes of a public key. -/
def sampleRaw (publicKey : Nat) : List UInt8 := [4, UInt8.ofNat publicKey]

/-- Both sides generate their keys, join, broadcast their public keys and handle what
they are sent. -/
def meeting : List PairingEvent :=
  [.generates .left, .generates .left, .generates .right, .generates .right,
    .joins .left, .relays .left, .broadcasts .left, .resumes .left 0, .resumes .left 0, .relays .left,
    .joins .right, .relays .right, .broadcasts .right, .resumes .right 0, .resumes .right 0,
    .relays .right, .delivers .left, .delivers .left, .delivers .right, .resumes .left 0,
    .resumes .left 1, .resumes .right 0, .resumes .right 0, .relays .right, .relays .left,
    .delivers .left, .delivers .right, .resumes .left 0, .resumes .left 0, .resumes .left 0,
    .resumes .left 0, .resumes .left 0, .resumes .left 0, .resumes .right 0, .resumes .right 0,
    .resumes .right 0]

/-- The left side's first ratchet: its new public key reaches the other side, which
computes its number again. -/
def firstRatchet : List PairingEvent :=
  [.ratchets .left, .resumes .left 0, .resumes .left 0, .resumes .left 0, .relays .left,
    .delivers .right, .resumes .right 0, .resumes .right 0, .resumes .right 0]

/-- The pairing at the end of these events, as far as they are admitted. -/
def paired (admitted : Pairing → PairingEvent → Prop)
    [∀ pairing event, Decidable (admitted pairing event)] (events : List PairingEvent) : Pairing :=
  (walk (Pairing.step sampleDigest sampleRaw) admitted Pairing.new events).getD Pairing.new

/-- The right side announces its key once more. While it is on its way, the left side
ratchets; it then takes up the key and announces its new one. -/
def announcedRatchet : List PairingEvent :=
  [.announces .right, .resumes .right 0, .relays .right, .ratchets .left, .resumes .left 0,
    .delivers .left, .resumes .left 0, .resumes .left 0, .resumes .left 0, .resumes .left 0,
    .resumes .left 0, .relays .left, .delivers .right, .resumes .right 0, .resumes .right 0,
    .resumes .right 0]

/-- The meeting and such a ratchet after it. -/
def ratcheted : Pairing := paired Pairing.Careful (meeting ++ announcedRatchet)

/-- After the ratchet nothing is on its way, and both sides show the number of the key
pair that it made and of the other side's, which is not the one they showed before. -/
theorem safety_numbers_agree_sample :
    ∃ left right, (ratcheted.verifier .left).safetyNumber = some left ∧
      (ratcheted.verifier .right).safetyNumber = some right ∧ left = right ∧
      left = computeSafetyNumber sampleDigest (sampleRaw 22) (sampleRaw 2) ∧
      left ≠ computeSafetyNumber sampleDigest (sampleRaw 0) (sampleRaw 2) := by
  have reached : Reaches (Pairing.step sampleDigest sampleRaw) Pairing.Careful Pairing.new ratcheted :=
    walk_reaches_end _ Pairing.Careful Pairing.new (meeting ++ announcedRatchet) (by decide +kernel)
  have quiescent : ratcheted.Quiescent := by
    intro side
    cases side <;> decide +kernel
  let number := computeSafetyNumber sampleDigest (sampleRaw 22) (sampleRaw 2)
  have left : (ratcheted.verifier .left).safetyNumber = some number := by decide +kernel
  have right : (ratcheted.verifier .right).safetyNumber = some number := by decide +kernel
  have agreed := (safety_numbers_agree sampleDigest sampleRaw).2 ratcheted reached quiescent number
    number left right
  exact ⟨number, number, left, right, agreed.1, rfl, by decide +kernel⟩

/-- After one ratchet of the left side and nothing else, the sides show different
numbers, although nothing is on its way any more. -/
theorem safety_numbers_differ :
    Reaches (Pairing.step sampleDigest sampleRaw) always Pairing.new
        (paired always (meeting ++ firstRatchet)) ∧
      (paired always (meeting ++ firstRatchet)).Quiescent ∧ ∃ left right,
        ((paired always (meeting ++ firstRatchet)).verifier .left).safetyNumber = some left ∧
        ((paired always (meeting ++ firstRatchet)).verifier .right).safetyNumber = some right ∧
        left ≠ right := by
  refine ⟨walk_reaches_end _ _ _ _ (by decide +kernel), ?_,
    computeSafetyNumber sampleDigest (sampleRaw 0) (sampleRaw 2),
    computeSafetyNumber sampleDigest (sampleRaw 2) (sampleRaw 21), ?_, ?_, ?_⟩
  · intro side
    cases side <;> decide +kernel
  · decide +kernel
  · decide +kernel
  · decide +kernel

end Sample

end Seameet.E2ee
