import Mathlib.Data.List.Perm.Basic
import Seameet.E2ee.Provenance

/-!
# What a participant that enters a room will do

A participant's public key and sender key are on the way in one of several forms: a
message, a handler at an await, or the broadcast that is still to come. Whenever the
participant goes on, each of these becomes a later one. Only one thing may be lost: a
handler that comes to send the sender key before it is generated sends nothing.
-/

namespace Seameet.E2ee

open Library

namespace Suspended

/-- The handler of a public key, or the broadcast for a pending participant: it will come
to send the sender key. -/
@[grind] def answers : Suspended → Bool
  | .agreeing _ _ _ | .numbering _ | .announcing true _ | .draining _ => true
  | .decrypting _ _ rest => rest.isSome
  | _ => false

/-- The public key will be sent. -/
@[grind] def announces : Suspended → Bool
  | .exporting _ | .announcing _ _ => true
  | .agreeing broadcast _ _ | .numbering broadcast => broadcast
  | _ => false

/-- A sender key of the other will be decrypted. -/
@[grind] def carries : Suspended → Bool
  | .draining queue => !queue.isEmpty
  | .decrypting _ _ _ => true
  | _ => false

/-- The sender keys that wait for the shared secret will be taken out. -/
@[grind] def drains : Suspended → Bool
  | .numbering _ | .announcing true _ => true
  | _ => false

/-- The continuation is about to agree on a secret. -/
@[grind] def derives : Suspended → Bool
  | .agreeing _ _ _ => true
  | _ => false

/-- The continuation is about to import a key. -/
@[grind] def imports : Suspended → Bool
  | .importing _ => true
  | _ => false

/-- The continuation is about to note what arrives. -/
@[grind] def notices : Suspended → Bool
  | .noticing => true
  | _ => false

/-- The continuation is about to encrypt a sender key. -/
@[grind] def encrypts : Suspended → Bool
  | .encrypting _ _ => true
  | _ => false

end Suspended

namespace LobbyMessage

/-- The message announces a public key. -/
@[grind] def isPublicKey : LobbyMessage → Bool
  | .publicKey _ => true
  | _ => false

/-- The message carries a sender key. -/
@[grind] def isSenderKey : LobbyMessage → Bool
  | .senderKey _ _ => true
  | _ => false

/-- The message tells who is present. -/
@[grind] def isPresent : LobbyMessage → Bool
  | .present => true
  | _ => false

end LobbyMessage

namespace Entrant

variable {Chain Key : Type} (entrant : Entrant Chain Key)

/-- The broadcast is still to come, and will find the other's public key and no secret. -/
def linkable : Bool :=
  !entrant.broadcasted && entrant.sharedSecret.isNone && entrant.peerPublicKey.isSome

/-- The participant will come to send its sender key. -/
def answers : Bool := entrant.awaiting.any Suspended.answers || entrant.linkable

/-- The sender key is on its way. -/
def sends : Bool :=
  entrant.awaiting.any Suspended.encrypts || entrant.sent.any LobbyMessage.isSenderKey

/-- A public key of the other has arrived and is still to be handled. -/
def hears : Bool :=
  entrant.received.any LobbyMessage.isPublicKey || entrant.awaiting.any Suspended.imports

/-- The public key will reach the server. -/
def announces : Bool :=
  !entrant.broadcasted || entrant.awaiting.any Suspended.announces ||
    entrant.sent.any LobbyMessage.isPublicKey ||
    entrant.keys.ecdhKeyPair.isSome && (entrant.received.any LobbyMessage.isPresent ||
      entrant.awaiting.any Suspended.notices)

/-- A sender key of the other has arrived and is still to be decrypted. -/
def waits : Bool :=
  entrant.received.any LobbyMessage.isSenderKey || !entrant.pendingSenderKeys.isEmpty ||
    entrant.awaiting.any Suspended.carries

/-- The shared secret is there, or will be. -/
def derives : Bool :=
  entrant.sharedSecret.isSome || entrant.awaiting.any Suspended.derives || entrant.linkable

/-- No sender key waits for a secret that is there, unless it is about to be taken out. -/
def drained : Bool :=
  entrant.sharedSecret.isNone || entrant.pendingSenderKeys.isEmpty ||
    entrant.awaiting.any Suspended.drains

/-- The sender key of the other is there, with the worker's message perhaps still on its
way. -/
def Obtained (primitives : Primitives Nat Chain Key) (peerId : String)
    (entrant : Entrant Chain Key) : Prop :=
  ∃ key, entrant.peerSenderKey = some key ∧
    ((∃ entry ∈ entrant.worker.entriesOf peerId, entry.keyId = key.2 ∧
        entry.Belongs primitives key.1) ∨ .setKey peerId key.2 key.1 ∈ entrant.mail)

/-- What becomes of everything under way when a participant goes on; a sender key of its
own that it has not generated may be lost. -/
structure Moves (primitives : Primitives Nat Chain Key) (peerId : String)
    (before after : Entrant Chain Key) (lost : Prop) : Prop where
  answers : before.answers = true → after.answers = true ∨ after.sends = true ∨ lost
  sends : before.sends = true → after.sends = true
  hears : before.hears = true → after.hears = true ∨ after.answers = true ∧ after.derives = true
  announces : before.announces = true → after.announces = true
  waits : before.waits = true → after.waits = true ∨ after.Obtained primitives peerId
  derives : before.derives = true → after.derives = true
  drained : before.drained = true → after.drained = true
  obtained : before.Obtained primitives peerId → after.Obtained primitives peerId

end Entrant

namespace Entrant

variable {Chain Key : Type} {primitives : Primitives Nat Chain Key} {ownId peerId : String}
  {entrant : Entrant Chain Key} {peer : Keys}

section Tests

variable (entrant) (suspended : Suspended) (message : LobbyMessage)

/-- A continuation taken up answers if it does itself. -/
@[grind =] theorem answers_await :
    (entrant.await suspended).answers = (suspended.answers || entrant.answers) := by
  simp [answers, await, linkable]
  grind

/-- A continuation taken up sends a sender key if it encrypts one. -/
@[grind =] theorem sends_await :
    (entrant.await suspended).sends = (suspended.encrypts || entrant.sends) := by
  simp [sends, await]
  grind

/-- A continuation taken up hears of a public key if it imports one. -/
@[grind =] theorem hears_await :
    (entrant.await suspended).hears = (suspended.imports || entrant.hears) := by
  simp [hears, await]
  grind

/-- A continuation taken up announces the own key, at once or once the key pair is there. -/
@[grind =] theorem announces_await : (entrant.await suspended).announces =
    (suspended.announces || entrant.keys.ecdhKeyPair.isSome && suspended.notices ||
      entrant.announces) := by
  simp [announces, await]
  grind

/-- A continuation taken up waits with a sender key if it carries one. -/
@[grind =] theorem waits_await :
    (entrant.await suspended).waits = (suspended.carries || entrant.waits) := by
  simp [waits, await]
  grind

/-- A continuation taken up derives a secret if it does itself. -/
@[grind =] theorem derives_await :
    (entrant.await suspended).derives = (suspended.derives || entrant.derives) := by
  simp [derives, await, linkable]
  grind

/-- A continuation taken up drains the queue if it does itself. -/
@[grind =] theorem drained_await :
    (entrant.await suspended).drained = (suspended.drains || entrant.drained) := by
  simp [drained, await]
  grind

/-- Sending changes nothing of the answers that are due. -/
@[grind =] theorem answers_send : (entrant.send message).answers = entrant.answers := rfl

/-- Sending changes nothing of what is heard. -/
@[grind =] theorem hears_send : (entrant.send message).hears = entrant.hears := rfl

/-- Sending changes nothing of what waits. -/
@[grind =] theorem waits_send : (entrant.send message).waits = entrant.waits := rfl

/-- Sending changes nothing of the secrets under way. -/
@[grind =] theorem derives_send : (entrant.send message).derives = entrant.derives := rfl

/-- Sending changes nothing of the queue under way. -/
@[grind =] theorem drained_send : (entrant.send message).drained = entrant.drained := rfl

/-- Sending a sender key is what sends one. -/
@[grind =] theorem sends_send :
    (entrant.send message).sends = (message.isSenderKey || entrant.sends) := by
  simp [sends, send]
  grind

/-- Sending a public key is what announces one. -/
@[grind =] theorem announces_send :
    (entrant.send message).announces = (message.isPublicKey || entrant.announces) := by
  simp [announces, send]
  grind

/-- Taking out the queued sender keys puts them into a handler's hands. -/
theorem drain_tests : entrant.drainPendingSenderKeys.answers = true ∧
    entrant.drainPendingSenderKeys.sends = entrant.sends ∧
    entrant.drainPendingSenderKeys.hears = entrant.hears ∧
    entrant.drainPendingSenderKeys.announces = entrant.announces ∧
    entrant.drainPendingSenderKeys.waits = entrant.waits ∧
    entrant.drainPendingSenderKeys.derives = entrant.derives ∧
    entrant.drainPendingSenderKeys.drained = true := by
  refine ⟨?_, ?_, ?_, ?_, ?_, ?_, ?_⟩ <;>
    simp only [drainPendingSenderKeys, await, answers, sends, hears, announces, waits, derives,
      drained, linkable, List.any_append, List.any_cons, List.any_nil, Suspended.answers,
      Suspended.encrypts, Suspended.imports, Suspended.announces, Suspended.notices,
      Suspended.carries, Suspended.derives, Suspended.drains, List.isEmpty_nil] <;>
    grind

/-- What is told of a participant does not depend on the order of its handlers. -/
theorem tests_perm {other : Entrant Chain Key} {awaiting : List Suspended}
    (same : other = { entrant with awaiting }) (perm : entrant.awaiting.Perm awaiting) :
    other.answers = entrant.answers ∧ other.sends = entrant.sends ∧ other.hears = entrant.hears ∧
      other.announces = entrant.announces ∧ other.waits = entrant.waits ∧
      other.derives = entrant.derives ∧ other.drained = entrant.drained := by
  subst same
  have tests := fun test : Suspended → Bool => @List.Perm.any_eq _ _ _ test perm
  simp only [answers, sends, hears, announces, waits, derives, drained, linkable, tests, and_self]

end Tests

/-- The page announces the public key when it is shown the other. -/
theorem noticing_moves : Moves primitives peerId (entrant.await .noticing)
    (entrant.resume peerId .noticing) False := by
  simp only [resume]
  split <;> refine ⟨?_, ?_, ?_, ?_, ?_, ?_, ?_, id⟩ <;> grind

/-- A public key is stored, and the shared secret is derived or left to the broadcast. -/
theorem importing_moves {publicKey : Nat} (genuine : entrant.Genuine ownId peerId peer)
    (ready : entrant.broadcasted = true → entrant.keys.ecdhKeyPair ≠ none) :
    Moves primitives peerId (entrant.await (.importing publicKey))
      (entrant.resume peerId (.importing publicKey)) False := by
  let stored : Entrant Chain Key := { entrant with peerPublicKey := some publicKey }
  have sends : stored.sends = entrant.sends := rfl
  have hears : stored.hears = entrant.hears := rfl
  have announces : stored.announces = entrant.announces := rfl
  have waits : stored.waits = entrant.waits := rfl
  have drained : stored.drained = entrant.drained := rfl
  have linkable : stored.linkable = (!entrant.broadcasted && entrant.sharedSecret.isNone) :=
    Bool.and_true _
  cases pair : entrant.keys.ecdhKeyPair with
  | none =>
    -- Without a key pair the broadcast is still to come, and there is no secret.
    have unsecret : entrant.sharedSecret = none := by
      cases secret : entrant.sharedSecret with
      | none => rfl
      | some secret' =>
        obtain ⟨_, _, has, _⟩ := genuine.sharedSecret secret' secret
        simp [pair] at has
    have awaited : entrant.broadcasted = false := by
      cases broadcasted : entrant.broadcasted with
      | false => rfl
      | true => exact absurd pair (ready broadcasted)
    have linked : stored.linkable = true := by rw [linkable, awaited, unsecret]; rfl
    have answers : stored.answers = true := by rw [Entrant.answers, linked, Bool.or_true]
    have derives : stored.derives = true := by rw [Entrant.derives, linked, Bool.or_true]
    simp only [resume, pair]
    change Moves primitives peerId _ stored _
    refine ⟨?_, ?_, ?_, ?_, ?_, ?_, ?_, id⟩ <;> grind
  | some keyPair =>
    simp only [resume, pair]
    change Moves primitives peerId _ (stored.await (.agreeing false keyPair publicKey)) _
    refine ⟨?_, ?_, ?_, ?_, ?_, ?_, ?_, id⟩ <;> grind

/-- The shared secret is derived. -/
theorem agreeing_moves (broadcast : Bool) (keyPair publicKey : Nat) :
    Moves primitives peerId (entrant.await (.agreeing broadcast keyPair publicKey))
      (entrant.resume peerId (.agreeing broadcast keyPair publicKey)) False := by
  let derived : Entrant Chain Key :=
    { entrant with sharedSecret := some (deriveSharedSecret keyPair publicKey) }
  have derives : derived.derives = true := rfl
  have sends : derived.sends = entrant.sends := rfl
  have hears : derived.hears = entrant.hears := rfl
  have announces : derived.announces = entrant.announces := rfl
  have waits : derived.waits = entrant.waits := rfl
  change Moves primitives peerId _ (derived.await (.numbering broadcast)) _
  refine ⟨?_, ?_, ?_, ?_, ?_, ?_, ?_, id⟩ <;> grind

/-- The handler takes out the queued sender keys; the broadcast announces first. -/
theorem numbering_moves {broadcast : Bool} (pair : entrant.keys.ecdhKeyPair ≠ none) :
    Moves primitives peerId (entrant.await (.numbering broadcast))
      (entrant.resume peerId (.numbering broadcast)) False := by
  cases broadcast with
  | false =>
    have drain := entrant.drain_tests
    simp only [resume]
    refine ⟨?_, ?_, ?_, ?_, ?_, ?_, ?_, id⟩ <;> grind
  | true =>
    obtain ⟨keyPair, has⟩ := Option.ne_none_iff_exists'.mp pair
    simp only [resume, has]
    refine ⟨?_, ?_, ?_, ?_, ?_, ?_, ?_, id⟩ <;> grind

/-- The broadcast sends the public key, and goes on to a pending participant. -/
theorem announcing_moves (pending : Bool) (publicKey : Nat) :
    Moves primitives peerId (entrant.await (.announcing pending publicKey))
      (entrant.resume peerId (.announcing pending publicKey)) False := by
  cases pending with
  | false =>
    simp only [resume]
    refine ⟨?_, ?_, ?_, ?_, ?_, ?_, ?_, id⟩ <;> grind
  | true =>
    have drain := (entrant.send (.publicKey publicKey)).drain_tests
    simp only [resume]
    refine ⟨?_, ?_, ?_, ?_, ?_, ?_, ?_, id⟩ <;> grind

/-- The queued sender keys are gone through, and then the own one is sent, if it is
there. -/
theorem draining_moves {queue : List (EncryptedKey × Nat)}
    (secret : entrant.sharedSecret.isSome = true) :
    Moves primitives peerId (entrant.await (.draining queue))
      (entrant.resume peerId (.draining queue))
        (queue = [] ∧ entrant.keys.senderKeyRaw = none) := by
  obtain ⟨sharedSecret, has⟩ := Option.isSome_iff_exists.mp secret
  cases queue with
  | nil =>
    cases raw : entrant.keys.senderKeyRaw with
    | none =>
      simp only [resume, sendSenderKeyTo, has, raw]
      refine ⟨?_, ?_, ?_, ?_, ?_, ?_, ?_, id⟩ <;> grind
    | some senderKeyRaw =>
      simp only [resume, sendSenderKeyTo, has, raw]
      refine ⟨?_, ?_, ?_, ?_, ?_, ?_, ?_, id⟩ <;> grind
  | cons item queue =>
    simp only [resume, processSenderKey, has]
    refine ⟨?_, ?_, ?_, ?_, ?_, ?_, ?_, id⟩ <;> grind

/-- A sender key is decrypted and installed. -/
theorem decrypting_moves {sharedSecret : SharedSecret} {item : EncryptedKey × Nat}
    {rest : Option (List (EncryptedKey × Nat))}
    (agreed : Agreed entrant.keys peer sharedSecret)
    (genuine : SendersItem peer entrant.keys item) :
    Moves primitives peerId (entrant.await (.decrypting sharedSecret item rest))
      (entrant.resume peerId (.decrypting sharedSecret item rest)) False := by
  obtain ⟨sealed, senderKeyRaw, same, has, rfl⟩ := genuine
  cases agreed.symm.unique same
  simp only [resume, decryptSenderKey, encryptSenderKey, if_pos]
  let installs : Entrant Chain Key := { entrant with
    peerSenderKey := some (senderKeyRaw, localKeyId)
    mail := entrant.mail ++ [WorkerMessage.setKey peerId localKeyId senderKeyRaw] }
  have obtained : ∀ rest, ((installs.send .requestKeyframe).proceed rest).Obtained primitives
      peerId := by
    intro rest
    cases rest <;> exact ⟨_, rfl, .inr (List.mem_append_right _ (List.mem_singleton_self _))⟩
  have tests : installs.answers = entrant.answers ∧ installs.sends = entrant.sends ∧
      installs.hears = entrant.hears ∧ installs.announces = entrant.announces ∧
      installs.waits = entrant.waits ∧ installs.derives = entrant.derives ∧
      installs.drained = entrant.drained := ⟨rfl, rfl, rfl, rfl, rfl, rfl, rfl⟩
  change Moves primitives peerId _ ((installs.send .requestKeyframe).proceed rest) _
  cases rest with
  | none =>
    refine ⟨?_, ?_, ?_, ?_, ?_, ?_, ?_, fun _ => obtained none⟩ <;> grind [proceed]
  | some later =>
    refine ⟨?_, ?_, ?_, ?_, ?_, ?_, ?_, fun _ => obtained (some later)⟩ <;> grind [proceed]

/-- Moves that lose nothing. -/
theorem Moves.safe {before after : Entrant Chain Key} {lost : Prop}
    (moves : Moves primitives peerId before after False) :
    Moves primitives peerId before after lost :=
  { moves with answers := fun held => (moves.answers held).imp_right (Or.imp_right False.elim) }

/-- A handler goes on. Only a handler that comes to send a sender key not yet generated
loses anything. -/
theorem resume_moves {suspended : Suspended} (genuine : entrant.Genuine ownId peerId peer)
    (ready : entrant.broadcasted = true → entrant.keys.ecdhKeyPair ≠ none)
    (holds : suspended.Genuine entrant.keys peer (entrant.sharedSecret.isSome = true)) :
    Moves primitives peerId (entrant.await suspended) (entrant.resume peerId suspended)
      (suspended = .draining [] ∧ entrant.keys.senderKeyRaw = none) := by
  cases suspended with
  | noticing => exact noticing_moves.safe
  | exporting publicKey =>
    simp only [resume]
    refine ⟨?_, ?_, ?_, ?_, ?_, ?_, ?_, id⟩ <;> grind
  | importing publicKey => exact (importing_moves genuine ready).safe
  | agreeing broadcast keyPair publicKey =>
    exact (agreeing_moves broadcast keyPair publicKey).safe
  | numbering broadcast => exact (numbering_moves holds.2).safe
  | announcing pending publicKey => exact (announcing_moves pending publicKey).safe
  | draining queue =>
    have moves : Moves primitives peerId _ _ (queue = [] ∧ entrant.keys.senderKeyRaw = none) :=
      draining_moves holds.1
    refine { moves with answers := fun held => (moves.answers held).imp_right ?_ }
    exact Or.imp_right fun lost => ⟨by rw [lost.1], lost.2⟩
  | decrypting sharedSecret item rest => exact (decrypting_moves holds.2.1 holds.2.2.1).safe
  | encrypting sharedSecret senderKeyRaw =>
    simp only [resume]
    refine ⟨?_, ?_, ?_, ?_, ?_, ?_, ?_, id⟩ <;> grind

/-- A key is generated. -/
theorem generate_moves (generated : Nat) :
    Moves primitives peerId entrant (entrant.generate ownId generated) False := by
  have pair : entrant.keys.ecdhKeyPair.isSome = true →
      (entrant.keys.generate generated).ecdhKeyPair.isSome = true := by
    intro has
    obtain ⟨keyPair, held⟩ := Option.isSome_iff_exists.mp has
    rw [(entrant.keys.grows_generate generated).pair keyPair held]
    rfl
  have announces : ∀ mail, entrant.announces = true →
      ({ entrant with keys := entrant.keys.generate generated, mail } :
        Entrant Chain Key).announces = true := by
    intro mail
    simp only [Entrant.announces]
    grind
  simp only [generate]
  split
  · refine ⟨.inl, id, .inl, announces _, .inl, id, id, ?_⟩
    rintro ⟨key, held, installed | posted⟩
    · exact ⟨key, held, .inl installed⟩
    · exact ⟨key, held, .inr (List.mem_append_left _ posted)⟩
  · exact ⟨.inl, id, .inl, announces _, .inl, id, id, id⟩

/-- The participant joins. -/
theorem join_moves : Moves primitives peerId entrant entrant.join False := by
  let joined : Entrant Chain Key := { entrant with joined := true }
  have tests : joined.answers = entrant.answers ∧ joined.sends = entrant.sends ∧
      joined.hears = entrant.hears ∧ joined.announces = entrant.announces ∧
      joined.waits = entrant.waits ∧ joined.derives = entrant.derives ∧
      joined.drained = entrant.drained := ⟨rfl, rfl, rfl, rfl, rfl, rfl, rfl⟩
  change Moves primitives peerId _ (joined.send .join) _
  refine ⟨?_, ?_, ?_, ?_, ?_, ?_, ?_, id⟩ <;> grind

/-- The broadcast starts. -/
theorem broadcast_moves (pair : entrant.keys.ecdhKeyPair ≠ none) :
    Moves primitives peerId entrant entrant.broadcast False := by
  obtain ⟨keyPair, has⟩ := Option.ne_none_iff_exists'.mp pair
  let marked : Entrant Chain Key := { entrant with broadcasted := true }
  have sends : marked.sends = entrant.sends := rfl
  have hears : marked.hears = entrant.hears := rfl
  have waits : marked.waits = entrant.waits := rfl
  have drained : marked.drained = entrant.drained := rfl
  have answers : entrant.linkable = false → marked.answers = entrant.answers := by
    intro unlinked
    rw [Entrant.answers, Entrant.answers, unlinked]
    rfl
  have derives : entrant.linkable = false → marked.derives = entrant.derives := by
    intro unlinked
    rw [Entrant.derives, Entrant.derives, unlinked]
    rfl
  simp only [broadcast, has]
  split
  · refine ⟨?_, ?_, ?_, ?_, ?_, ?_, ?_, id⟩ <;> grind
  · rename_i passed
    have unlinked : entrant.linkable = false := by
      rw [linkable]
      cases key : entrant.peerPublicKey with
      | none => exact Bool.and_false _
      | some publicKey =>
        cases secret : entrant.sharedSecret with
        | none => exact (passed publicKey key secret).elim
        | some sharedSecret => simp
    refine ⟨?_, ?_, ?_, ?_, ?_, ?_, ?_, id⟩ <;> grind
  · rename_i missing
    simp at missing

/-- A message of the server is taken and handled. -/
theorem deliver_moves {message : LobbyMessage} {received : List LobbyMessage}
    (taken : entrant.received = message :: received) :
    Moves primitives peerId entrant ({ entrant with received }.handleMessage message) False := by
  let rest : Entrant Chain Key := { entrant with received }
  have answers : entrant.answers = rest.answers := rfl
  have sends : entrant.sends = rest.sends := rfl
  have hears : entrant.hears = (message.isPublicKey || rest.hears) := by
    simp only [Entrant.hears, taken, List.any_cons, Bool.or_assoc, rest]
  have announces : entrant.announces =
      (entrant.keys.ecdhKeyPair.isSome && message.isPresent || rest.announces) := by
    simp only [Entrant.announces, taken, List.any_cons, rest]
    grind
  have waits : entrant.waits = (message.isSenderKey || rest.waits) := by
    simp only [Entrant.waits, taken, List.any_cons, Bool.or_assoc, rest]
  have derives : entrant.derives = rest.derives := rfl
  have drained : entrant.drained = rest.drained := rfl
  have keys : rest.keys = entrant.keys := rfl
  change Moves primitives peerId _ (rest.handleMessage message) _
  cases message with
  | present =>
    simp only [handleMessage]
    refine ⟨?_, ?_, ?_, ?_, ?_, ?_, ?_, id⟩ <;> grind
  | publicKey publicKey =>
    simp only [handleMessage]
    refine ⟨?_, ?_, ?_, ?_, ?_, ?_, ?_, id⟩ <;> grind
  | senderKey encryptedKey keyId =>
    simp only [handleMessage]
    cases secret : rest.sharedSecret with
    | none =>
      have queued : (rest.queueSenderKey (encryptedKey, keyId)).pendingSenderKeys ≠ [] := by
        simp only [queueSenderKey]
        split
        · rename_i beyond
          rw [← List.length_pos_iff, List.length_drop]
          unfold pendingSenderKeyCap at beyond
          omega
        · simp
      have waiting : (rest.queueSenderKey (encryptedKey, keyId)).waits = true := by
        rw [Entrant.waits]
        simp [queued]
      have undrained : (rest.queueSenderKey (encryptedKey, keyId)).drained = true := by
        rw [Entrant.drained]
        simp [queueSenderKey, secret]
      let queueing := rest.queueSenderKey (encryptedKey, keyId)
      have tests : queueing.answers = rest.answers ∧ queueing.sends = rest.sends ∧
          queueing.hears = rest.hears ∧ queueing.announces = rest.announces ∧
          queueing.derives = rest.derives := ⟨rfl, rfl, rfl, rfl, rfl⟩
      rw [Option.isNone_none, if_pos rfl]
      change Moves primitives peerId _ queueing _
      refine ⟨?_, ?_, ?_, ?_, fun _ => .inl waiting, ?_, fun _ => undrained, id⟩ <;> grind
    | some sharedSecret =>
      simp only [Option.isNone_some, Bool.false_eq_true, ↓reduceIte, processSenderKey, secret]
      refine ⟨?_, ?_, ?_, ?_, ?_, ?_, ?_, id⟩ <;> grind
  | join | requestKeyframe =>
    simp only [handleMessage]
    refine ⟨?_, ?_, ?_, ?_, ?_, ?_, ?_, id⟩ <;> grind

/-- The worker handles a message. -/
theorem install_moves {position : Nat} {message : WorkerMessage Nat} (distinct : ownId ≠ peerId)
    (genuine : entrant.Genuine ownId peerId peer)
    (named : entrant.mail[position]? = some message) :
    Moves primitives peerId entrant
      { entrant with
        mail := entrant.mail.eraseIdx position
        worker := entrant.worker.receive primitives message } False := by
  refine ⟨.inl, id, .inl, id, .inl, id, id, ?_⟩
  rintro ⟨key, held, there⟩
  refine ⟨key, held, ?_⟩
  dsimp only
  obtain ⟨senderKeyRaw, has, rfl⟩ := genuine.obtained key held
  obtain ⟨keys, id, posted, owns, rfl, ⟨rfl, rfl⟩ | ⟨rfl, rfl⟩⟩ :=
    genuine.mail message (List.mem_of_getElem? named)
  · simp only [Worker.entriesOf_receive, if_neg distinct.symm]
    refine there.imp_right fun waiting => ?_
    obtain ⟨inside, same⟩ := List.getElem?_eq_some_iff.mp named
    rcases List.mem_cons.mp ((List.getElem_cons_eraseIdx_perm inside).symm.mem_iff.mp waiting) with
      handled | later
    · exact absurd (WorkerMessage.setKey.inj (handled.trans same)).1 distinct.symm
    · exact later
  · cases has.symm.trans owns
    left
    simp only [Worker.entriesOf_receive, if_pos]
    exact ⟨_, List.mem_append_right _ List.mem_cons_self, rfl,
      initChainEntry_belongs primitives _ _⟩

/-- What a participant does next does not depend on the order of its handlers. -/
theorem Moves.of_perm (entrant : Entrant Chain Key) {after : Entrant Chain Key}
    {awaiting : List Suspended} {lost : Prop}
    (moves : Moves primitives peerId { entrant with awaiting } after lost)
    (perm : entrant.awaiting.Perm awaiting) : Moves primitives peerId entrant after lost := by
  obtain ⟨answers, sends, hears, announces, waits, derives, drained⟩ :=
    tests_perm entrant rfl perm
  exact {
    answers := fun held => moves.answers (answers.trans held)
    sends := fun held => moves.sends (sends.trans held)
    hears := fun held => moves.hears (hears.trans held)
    announces := fun held => moves.announces (announces.trans held)
    waits := fun held => moves.waits (waits.trans held)
    derives := fun held => moves.derives (derives.trans held)
    drained := fun held => moves.drained (drained.trans held)
    obtained := moves.obtained }

end Entrant

end Seameet.E2ee
