import Seameet.E2ee.Forgery

/-!
# A sender's new key at its receiver

A key that is set anew starts a chain at counter one, and the replay window of its
identifier stays what the frames of an earlier key have made of it. The first
frames of the new chain are then tested against counters that were counted in
another chain.

A frame that names another entry leaves an entry alone which has kept no skipped
key, and it leaves its window alone. The invariant follows one entry through the
frames of its own sender and whatever else reaches the worker between them.
-/

namespace Seameet.E2ee

open Library

section Untouched

variable {Raw Chain Key : Type} {primitives : Primitives Raw Chain Key}
  {keys : Raw → Nat → Prop} {senderId : String} {worker : Worker Chain Key}
  {entry : ChainEntry Chain Key} {data : List UInt8}

/-- The frame is not decrypted under this entry: another entry is found first, or
none. -/
def Worker.Unmatched (worker : Worker Chain Key) (senderId : String) (data : List UInt8)
    (entry : ChainEntry Chain Key) : Prop :=
  ∀ wire, Worker.readFrame data = some wire →
    (worker.entriesOf senderId).find? (fun held => held.keyId % 256 == wire.kid) ≠ some entry

/-- The entry has kept no skipped key and the frame is not decrypted under it. -/
def Worker.Idle (worker : Worker Chain Key) (senderId : String) (data : List UInt8)
    (entry : ChainEntry Chain Key) : Prop :=
  entry.skippedKeys.entries = [] ∧ worker.Unmatched senderId data entry

/-- An entry without skipped keys has none for any counter. -/
theorem skipped_lookup_none (unused : entry.skippedKeys.entries = []) (ctr : Nat) :
    entry.skippedKeys.lookup ctr = none := by
  rw [Ordered.lookup_eq_none, Ordered.keys, unused]
  exact List.not_mem_nil

/-- Asking an entry for a key leaves the other entries in their places. -/
theorem derived_member (sound : Sound primitives keys senderId worker) {wire : WireFrame}
    {other : ChainEntry Chain Key} {window : ReplayWindow}
    (found : (worker.entriesOf senderId).find? (fun held => held.keyId % 256 == wire.kid) =
      some other)
    (member : entry ∈ worker.entriesOf senderId) (apart : entry ≠ other) :
    entry ∈ (worker.derived primitives senderId wire other window).entriesOf senderId := by
  have place := (found_entry found).1
  obtain ⟨rawKey, _, belongs⟩ := sound.belongs other place
  have distinct : entry.keyId ≠ other.keyId := fun same => apart (sound.same_entry member place same)
  rw [Worker.entriesOf_derived, if_pos rfl, (getDecryptionKey_belongs belongs wire.ctr).2]
  exact List.mem_map.mpr ⟨entry, member, if_neg distinct⟩

/-- Asking for a key changes no identifier. -/
theorem derived_keyIds (sound : Sound primitives keys senderId worker) {wire : WireFrame}
    {other : ChainEntry Chain Key} {window : ReplayWindow}
    (found : (worker.entriesOf senderId).find? (fun held => held.keyId % 256 == wire.kid) =
      some other) :
    ((worker.derived primitives senderId wire other window).entriesOf senderId).map
      ChainEntry.keyId = (worker.entriesOf senderId).map ChainEntry.keyId := by
  obtain ⟨rawKey, _, belongs⟩ := sound.belongs other (found_entry found).1
  have same := (getDecryptionKey_belongs belongs wire.ctr).2
  rw [Worker.entriesOf_derived, if_pos rfl, List.map_map]
  apply List.map_congr_left
  intro held _
  simp only [Function.comp_apply]
  split
  · next here => exact here.symm
  · rfl

/-- The fallback leaves an entry without skipped keys in its place. -/
theorem fallback_member {start : Worker Chain Key} {wire : WireFrame}
    {tried : List (ChainEntry Chain Key)} {result : Option (List UInt8) × Worker Chain Key}
    (outcome : Worker.FallbackOutcome primitives start senderId wire tried result)
    (member : entry ∈ start.entriesOf senderId)
    (distinct : ∀ other ∈ tried, entry.keyId = other.keyId → entry = other)
    (unused : entry.skippedKeys.entries = []) : entry ∈ result.2.entriesOf senderId := by
  cases outcome with
  | dropped => simpa using member
  | opened other cached plaintext place below kept opens =>
    rw [Worker.entriesOf_usedSkipped, if_pos rfl]
    refine List.mem_map.mpr ⟨entry, member, if_neg ?_⟩
    intro same
    obtain rfl := distinct other place same
    rw [skipped_lookup_none unused] at kept
    cases kept

/-- The fallback changes no identifier. -/
theorem fallback_keyIds {start : Worker Chain Key} {wire : WireFrame}
    {tried : List (ChainEntry Chain Key)} {result : Option (List UInt8) × Worker Chain Key}
    (outcome : Worker.FallbackOutcome primitives start senderId wire tried result) :
    (result.2.entriesOf senderId).map ChainEntry.keyId =
      (start.entriesOf senderId).map ChainEntry.keyId := by
  cases outcome with
  | dropped => simp
  | opened other cached plaintext place below kept opens =>
    rw [Worker.entriesOf_usedSkipped, if_pos rfl, List.map_map]
    apply List.map_congr_left
    intro held _
    simp only [Function.comp_apply]
    split
    · next here => exact here.symm
    · rfl

/-- The fallback leaves a window alone when the entries it serves have kept nothing. -/
theorem fallback_window {start : Worker Chain Key} {wire : WireFrame}
    {tried : List (ChainEntry Chain Key)} {result : Option (List UInt8) × Worker Chain Key}
    (outcome : Worker.FallbackOutcome primitives start senderId wire tried result) {kid : Nat}
    (unused : ∀ other ∈ tried, other.keyId % 256 = kid → other.skippedKeys.entries = []) :
    result.2.replayWindows.lookup (senderId, kid) = start.replayWindows.lookup (senderId, kid) := by
  cases outcome with
  | dropped => simp
  | opened other cached plaintext place below kept opens =>
    show (checkReplay start.replayWindows senderId (other.keyId % 256) wire.ctr).2.lookup
      (senderId, kid) = _
    rw [Worker.checkReplay_lookup, if_neg]
    intro here
    rw [skipped_lookup_none (unused other place (congrArg Prod.snd here).symm)] at kept
    cases kept

/-- A frame that is not decrypted under an entry leaves it in its place, when it
has kept no skipped key. -/
theorem decryptFrame_member (sound : Sound primitives keys senderId worker)
    (member : entry ∈ worker.entriesOf senderId) (idle : worker.Idle senderId data entry) :
    entry ∈ (worker.decryptFrame primitives senderId data).2.entriesOf senderId := by
  obtain ⟨unused, unmatched⟩ := idle
  have elsewhere : ∀ {wire : WireFrame} {other : ChainEntry Chain Key},
      Worker.readFrame data = some wire →
      (worker.entriesOf senderId).find? (fun held => held.keyId % 256 == wire.kid) = some other →
      entry ≠ other := by
    rintro wire other read found rfl
    exact unmatched wire read found
  have distinct : ∀ other ∈ worker.entriesOf senderId, entry.keyId = other.keyId → entry = other :=
    fun other place same => sound.same_entry member place same
  have outcome := worker.decryptFrame_outcome primitives senderId data
  generalize worker.decryptFrame primitives senderId data = result at outcome
  cases outcome with
  | keyless missing => simpa using member
  | malformed unread => exact member
  | refused wire other read found refuses => exact member
  | withheld wire other window read found accepts none_given =>
    exact derived_member sound found member (elsewhere read found)
  | opened wire other window messageKey plaintext read found accepts given opens =>
    exact derived_member sound found member (elsewhere read found)
  | fellBack wire other window messageKey result read found accepts given sealed fallback =>
    refine fallback_member fallback (derived_member sound found member (elsewhere read found)) ?_ unused
    intro tried place
    exact distinct tried (List.mem_filter.mp (List.mem_reverse.mp place)).1
  | unmatched wire result read missing fallback =>
    exact fallback_member fallback member
      (fun tried place => distinct tried (List.mem_reverse.mp place)) unused

/-- No frame changes an identifier. -/
theorem decryptFrame_keyIds (sound : Sound primitives keys senderId worker) (data : List UInt8) :
    ((worker.decryptFrame primitives senderId data).2.entriesOf senderId).map ChainEntry.keyId =
      (worker.entriesOf senderId).map ChainEntry.keyId := by
  have outcome := worker.decryptFrame_outcome primitives senderId data
  generalize worker.decryptFrame primitives senderId data = result at outcome
  cases outcome with
  | keyless missing => simp
  | malformed unread => rfl
  | refused wire other read found refuses => rfl
  | withheld wire other window read found accepts none_given => exact derived_keyIds sound found
  | opened wire other window messageKey plaintext read found accepts given opens =>
    exact derived_keyIds sound found
  | fellBack wire other window messageKey result read found accepts given sealed fallback =>
    exact (fallback_keyIds fallback).trans (derived_keyIds sound found)
  | unmatched wire result read missing fallback => exact fallback_keyIds fallback

/-- A frame leaves a window alone that serves only entries it does not touch. -/
theorem decryptFrame_window {kid : Nat}
    (idle : ∀ other ∈ worker.entriesOf senderId, other.keyId % 256 = kid →
      worker.Idle senderId data other) :
    (worker.decryptFrame primitives senderId data).2.replayWindows.lookup (senderId, kid) =
      worker.replayWindows.lookup (senderId, kid) := by
  have elsewhere : ∀ {wire : WireFrame} {other : ChainEntry Chain Key} {window : ReplayWindow},
      Worker.readFrame data = some wire →
      (worker.entriesOf senderId).find? (fun held => held.keyId % 256 == wire.kid) = some other →
      (worker.derived primitives senderId wire other window).replayWindows.lookup (senderId, kid) =
        worker.replayWindows.lookup (senderId, kid) := by
    intro wire other window read found
    rw [Worker.replayWindows_derived, if_neg]
    intro here
    obtain ⟨place, named⟩ := found_entry found
    have served : other.keyId % 256 = kid := named.trans (congrArg Prod.snd here).symm
    exact (idle other place served).2 wire read found
  have unused : ∀ other ∈ worker.entriesOf senderId, other.keyId % 256 = kid →
      other.skippedKeys.entries = [] := fun other place served => (idle other place served).1
  have outcome := worker.decryptFrame_outcome primitives senderId data
  generalize worker.decryptFrame primitives senderId data = result at outcome
  cases outcome with
  | keyless missing => simp
  | malformed unread => rfl
  | refused wire other read found refuses => rfl
  | withheld wire other window read found accepts none_given => exact elsewhere read found
  | opened wire other window messageKey plaintext read found accepts given opens =>
    exact elsewhere read found
  | fellBack wire other window messageKey result read found accepts given sealed fallback =>
    refine (fallback_window fallback ?_).trans (elsewhere read found)
    intro tried place
    exact unused tried (List.mem_filter.mp (List.mem_reverse.mp place)).1
  | unmatched wire result read missing fallback =>
    exact fallback_window fallback (fun tried place => unused tried (List.mem_reverse.mp place))

end Untouched

section Newest

variable {Raw Chain Key : Type} (primitives : Primitives Raw Chain Key)

/-- A sender whose newest key has encrypted this many frames. Older keys may still
be installed. -/
structure Encrypting (senderId : String) (rawKey : Raw) (keyId sent : Nat)
    (worker : Worker Chain Key) : Prop where
  newest : ∃ entry, (worker.entriesOf senderId).getLast? = some entry ∧ entry.keyId = keyId ∧
    entry.nextCtr = sent + 1 ∧ entry.Belongs primitives rawKey
  counted : (worker.frameCounters.lookup (senderId, keyId)).getD 0 = sent

variable {primitives} {senderId : String} {rawKey : Raw} {keyId sent : Nat}
  {worker : Worker Chain Key}

/-- A key that has not counted a frame yet encrypts from counter one on. -/
theorem encrypting_fresh (primitives : Primitives Raw Chain Key) (rawKey : Raw)
    (worker : Worker Chain Key)
    (uncounted : worker.frameCounters.lookup (senderId, keyId) = none) :
    Encrypting primitives senderId rawKey keyId 0
      (worker.receive primitives (.setKey senderId keyId rawKey)) := by
  refine ⟨⟨initChainEntry primitives rawKey keyId, ?_, rfl, rfl,
    initChainEntry_belongs primitives rawKey keyId⟩, ?_⟩
  · rw [Worker.entriesOf_receive]
    simp
  · show (worker.frameCounters.lookup (senderId, keyId)).getD 0 = 0
    rw [uncounted]
    rfl

/-- A frame with room for its clear header takes the next counter and the next
message key; a shorter one is dropped and takes none. -/
theorem encryptFrame_encrypting (encrypting : Encrypting primitives senderId rawKey keyId sent worker)
    (item : Sent) :
    if item.clear ≤ item.1.data.length then
      (worker.encryptFrame primitives item.1 senderId item.2).1.map Encrypted.output =
          some (wireOf primitives senderId rawKey keyId (sent + 1) item) ∧
        Encrypting primitives senderId rawKey keyId (sent + 1)
          (worker.encryptFrame primitives item.1 senderId item.2).2
    else worker.encryptFrame primitives item.1 senderId item.2 = (none, worker) := by
  obtain ⟨⟨entry, newest, rfl, next, belongs⟩, counted⟩ := encrypting
  split
  · rename_i room
    obtain ⟨wire, moved⟩ := encryptFrame_next newest next belongs counted item room
    refine ⟨wire, ?_⟩
    rw [moved]
    refine ⟨⟨(getEncryptionKey primitives entry).2, ?_, rfl, congrArg (· + 1) next,
      getEncryptionKey_belongs belongs⟩, counted_advanced counted⟩
    rw [Worker.entriesOf_advanced, if_pos rfl, List.getLast?_map, newest]
    simp
  · rename_i long
    have outcome := worker.encryptFrame_outcome primitives item.1 senderId item.2
    generalize worker.encryptFrame primitives item.1 senderId item.2 = result at outcome
    cases outcome with
    | notReady missing =>
      rw [missing] at newest
      cases newest
    | short under => rfl
    | encrypted _ _ _ _ _ room => exact absurd room long

end Newest

section Exchange

variable {Raw Chain Key : Type} (primitives : Primitives Raw Chain Key)

/-- One frame encrypted by the sender and handed to the receiver, or something else
that happens to the receiver. -/
abbrev Arrival (Raw : Type) := Sent ⊕ WorkerEvent Raw

/-- The frames that the sender encrypts, each with what the receiver emits for it.
They arrive in order and none is lost; other events come in between. -/
def exchange (senderId : String) :
    Worker Chain Key → Worker Chain Key → List (Arrival Raw) → List (Sent × Option (List UInt8))
  | _, _, [] => []
  | sender, receiver, .inl item :: rest =>
    let sealed := sender.encryptFrame primitives item.1 senderId item.2
    match sealed.1 with
    | none => exchange senderId sealed.2 receiver rest
    | some encrypted =>
      let opened := receiver.decryptFrame primitives senderId encrypted.output
      (item, opened.1) :: exchange senderId sealed.2 opened.2 rest
  | sender, receiver, .inr event :: rest =>
    exchange senderId sender ((receiver.step primitives event).getD receiver) rest

/-- How many of the frames are long enough to be encrypted. -/
def encryptable (arrivals : List (Arrival Raw)) : Nat :=
  arrivals.countP (fun arrival =>
    arrival.elim (fun item => decide (item.clear ≤ item.1.data.length)) (fun _ => false))

/-- Every encrypted frame is emitted as it was. -/
def AllEmitted (results : List (Sent × Option (List UInt8))) : Prop :=
  ∀ result ∈ results, result.2 = some result.1.1.data

/-- The main thread says nothing about the sender, and the receiver does not speak in
the sender's name. Frames may be anything. -/
def Elsewhere (senderId : String) : WorkerEvent Raw → Prop
  | .message (.setKey participantId _ _) => participantId ≠ senderId
  | .message (.removeKeys participantId) => participantId ≠ senderId
  | .message (.purgeOldKeys participantId _) => participantId ≠ senderId
  | .encrypts _ participantId _ => participantId ≠ senderId
  | .decrypts _ _ => True

/-- What may happen at the receiver while the key stays the sender's key of its
identifier: no other key of the sender is set and none is taken away that is not
older, the receiver does not speak in the sender's name, and the sender's other
frames name other identifiers. -/
def Undisturbing (senderId : String) (keyId : Nat) : WorkerEvent Raw → Prop
  | .message (.setKey participantId _ _) => participantId ≠ senderId
  | .message (.removeKeys participantId) => participantId ≠ senderId
  | .message (.purgeOldKeys participantId keepKeyId) => participantId = senderId → keepKeyId ≤ keyId
  | .encrypts _ participantId _ => participantId ≠ senderId
  | .decrypts participantId data => participantId = senderId →
    ∀ wire, Worker.readFrame data = some wire → wire.kid ≠ keyId % 256

/-- The receiver has opened the frames of a key up to a counter, one after the
other, and no other entry has the identifier's low bits. -/
structure Follows (senderId : String) (rawKey : Raw) (keyId opened : Nat) (worker : Worker Chain Key) :
    Prop where
  entry : ∃ entry ∈ worker.entriesOf senderId, entry.keyId = keyId ∧ entry.nextCtr = opened + 1 ∧
    entry.skippedKeys.entries = [] ∧ entry.Belongs primitives rawKey
  lone : ∀ held ∈ worker.entriesOf senderId, held.keyId % 256 = keyId % 256 → held.keyId = keyId

variable {primitives} {keys : Raw → Nat → Prop} {senderId : String} {rawKey : Raw}
  {keyId opened : Nat} {worker : Worker Chain Key}

/-- A key just set is followed from the start. -/
theorem follows_fresh (worker : Worker Chain Key)
    (lone : ∀ entry ∈ worker.entriesOf senderId, entry.keyId % 256 = keyId % 256 →
      entry.keyId = keyId) :
    Follows primitives senderId rawKey keyId 0
      (worker.receive primitives (.setKey senderId keyId rawKey)) := by
  have entries := worker.entriesOf_receive primitives (.setKey senderId keyId rawKey) senderId
  dsimp only at entries
  rw [if_pos rfl] at entries
  constructor
  · refine ⟨initChainEntry primitives rawKey keyId, ?_, rfl, rfl, rfl,
      initChainEntry_belongs primitives rawKey keyId⟩
    rw [entries]
    exact List.mem_append_right _ List.mem_cons_self
  · intro held member same
    rw [entries] at member
    rcases List.mem_append.mp member with old | new
    · exact lone held (List.mem_filter.mp old).1 same
    · rw [List.mem_singleton.mp new]
      rfl

/-- The entry that is followed is the one its identifier finds. -/
theorem Follows.found (sound : Sound primitives keys senderId worker)
    (follows : Follows primitives senderId rawKey keyId opened worker)
    {entry : ChainEntry Chain Key} (member : entry ∈ worker.entriesOf senderId)
    (named : entry.keyId = keyId) :
    (worker.entriesOf senderId).find? (fun held => held.keyId % 256 == keyId % 256) = some entry := by
  obtain ⟨found, place⟩ : ∃ found, (worker.entriesOf senderId).find?
      (fun held => held.keyId % 256 == keyId % 256) = some found := by
    rw [← Option.isSome_iff_exists, List.find?_isSome]
    exact ⟨entry, member, by rw [named]; exact beq_self_eq_true _⟩
  obtain ⟨there, same⟩ := found_entry place
  rw [place, sound.same_entry there member ((follows.lone found there same).trans named.symm)]

/-- An entry without skipped keys gives the key of its next counter and moves on by
one. -/
theorem getDecryptionKey_next {entry : ChainEntry Chain Key} (belongs : entry.Belongs primitives rawKey)
    (unused : entry.skippedKeys.entries = []) :
    (getDecryptionKey primitives entry entry.nextCtr).1 =
        some (messageKeyAt primitives rawKey entry.keyId entry.nextCtr) ∧
      (getDecryptionKey primitives entry entry.nextCtr).2.nextCtr = entry.nextCtr + 1 ∧
      (getDecryptionKey primitives entry entry.nextCtr).2.skippedKeys.entries = [] := by
  have outcome := getDecryptionKey_outcome belongs entry.nextCtr
  generalize getDecryptionKey primitives entry entry.nextCtr = result at outcome
  cases outcome with
  | cached found below => exact absurd below (Nat.lt_irrefl entry.nextCtr)
  | passed absent below => exact absurd below (Nat.lt_irrefl entry.nextCtr)
  | far beyond =>
    rw [Nat.sub_self] at beyond
    exact absurd beyond (Nat.not_lt_zero _)
  | reached kept ahead near origin recent =>
    refine ⟨rfl, rfl, List.eq_nil_iff_forall_not_mem.mpr ?_⟩
    intro held member
    rcases origin held member with old | ⟨_, above, below, _⟩
    · rw [unused] at old
      cases old
    · omega

/-- The next frame of a followed key is emitted when the window accepts its counter,
and dropped when it does not. -/
theorem follows_frame (ideal : primitives.Ideal) (sound : Sound primitives keys senderId worker)
    (follows : Follows primitives senderId rawKey keyId opened worker) (item : Sent)
    (small : opened + 1 < 4294967296) :
    (Window.check replayWindowSize (worker.replayWindows.lookup (senderId, keyId % 256))
        (opened + 1) = none →
      (worker.decryptFrame primitives senderId
        (wireOf primitives senderId rawKey keyId (opened + 1) item)).1 = none) ∧
    ∀ window, Window.check replayWindowSize
        (worker.replayWindows.lookup (senderId, keyId % 256)) (opened + 1) = some window →
      (worker.decryptFrame primitives senderId
          (wireOf primitives senderId rawKey keyId (opened + 1) item)).1 = some item.1.data ∧
        Follows primitives senderId rawKey keyId (opened + 1) (worker.decryptFrame primitives senderId
          (wireOf primitives senderId rawKey keyId (opened + 1) item)).2 ∧
        (worker.decryptFrame primitives senderId (wireOf primitives senderId rawKey keyId (opened + 1)
          item)).2.replayWindows.lookup (senderId, keyId % 256) = some window := by
  obtain ⟨wire, read, kid, counted, payload, opens, plain⟩ :=
    wireOf_genuine ideal senderId rawKey keyId item small
  obtain ⟨entry, member, named, next, unused, belongs⟩ := follows.entry
  have found := follows.found sound member named
  rw [← kid] at found ⊢
  rw [decryptFrame_of_read read member]
  constructor
  · intro refused
    rw [Worker.decryptWire_refused found (by rw [counted]; exact refused)]
  · intro window accepted
    obtain ⟨given, moved, still⟩ := getDecryptionKey_next belongs unused
    obtain ⟨later, same⟩ := getDecryptionKey_belongs belongs wire.ctr
    rw [next, ← counted] at given moved still
    rw [Worker.decryptWire_accepted found (by rw [counted]; exact accepted), given, belongs.salt,
      named, counted]
    dsimp only
    rw [opens]
    dsimp only
    refine ⟨by rw [plain], ⟨?_, ?_⟩, ?_⟩
    · refine ⟨(getDecryptionKey primitives entry wire.ctr).2, ?_, same.trans named, ?_, still, later⟩
      · rw [Worker.entriesOf_derived, if_pos rfl]
        exact List.mem_map.mpr ⟨entry, member, if_pos same.symm⟩
      · rw [moved, counted]
    · intro held place low
      have identifier := List.mem_map_of_mem (f := ChainEntry.keyId) place
      rw [derived_keyIds sound found] at identifier
      obtain ⟨old, there, rename⟩ := List.mem_map.mp identifier
      rw [← rename] at low ⊢
      exact follows.lone old there low
    · rw [Worker.replayWindows_derived, if_pos (by rw [kid])]

/-- A key is followed as long as its entry stays and no identifier is added. -/
theorem Follows.keep {after : Worker Chain Key}
    (follows : Follows primitives senderId rawKey keyId opened worker)
    (stays : ∀ entry ∈ worker.entriesOf senderId, entry.keyId = keyId →
      entry.skippedKeys.entries = [] → entry ∈ after.entriesOf senderId)
    (identifiers : ∀ held ∈ after.entriesOf senderId,
      held.keyId ∈ (worker.entriesOf senderId).map ChainEntry.keyId) :
    Follows primitives senderId rawKey keyId opened after := by
  obtain ⟨entry, member, named, next, unused, belongs⟩ := follows.entry
  refine ⟨⟨entry, stays entry member named unused, named, next, unused, belongs⟩, ?_⟩
  intro held place low
  obtain ⟨old, there, rename⟩ := List.mem_map.mp (identifiers held place)
  rw [← rename] at low ⊢
  exact follows.lone old there low

/-- An event that is not about the sender leaves the sender's entries and windows
alone, when it is not one of the sender's frames. -/
theorem elsewhere_frame {event : WorkerEvent Raw} {after : Worker Chain Key}
    (elsewhere : Elsewhere senderId event) (quiet : ∀ data, event ≠ .decrypts senderId data)
    (stepped : worker.step primitives event = some after) :
    after.entriesOf senderId = worker.entriesOf senderId ∧
      ∀ kid, after.replayWindows.lookup (senderId, kid) =
        worker.replayWindows.lookup (senderId, kid) := by
  cases event with
  | message message =>
    obtain rfl := Option.some.inj stepped
    have entries := worker.entriesOf_receive primitives message senderId
    cases message with
    | setKey participantId identifier other =>
      dsimp only at entries
      rw [if_neg (Ne.symm elsewhere)] at entries
      exact ⟨entries, fun _ => rfl⟩
    | removeKeys participantId =>
      have apart : senderId ≠ participantId := Ne.symm elsewhere
      dsimp only at entries
      rw [if_neg apart] at entries
      refine ⟨entries, ?_⟩
      intro kid
      show (worker.replayWindows.retain (fun key _ => key.1 != participantId)).lookup
        (senderId, kid) = _
      rw [Table.lookup_retain]
      cases worker.replayWindows.lookup (senderId, kid) with
      | none => rfl
      | some window => simp [Option.filter, apart]
    | purgeOldKeys participantId keepKeyId =>
      dsimp only at entries
      rw [if_neg (Ne.symm elsewhere)] at entries
      exact ⟨entries, fun _ => rfl⟩
  | encrypts frame participantId isAudio =>
    obtain rfl := Option.some.inj stepped
    have outcome := worker.encryptFrame_outcome primitives frame participantId isAudio
    generalize worker.encryptFrame primitives frame participantId isAudio = result at outcome
    cases outcome with
    | notReady missing => exact ⟨by simp, by simp⟩
    | short under => exact ⟨rfl, fun _ => rfl⟩
    | encrypted entry codecHeader payload aad newest room cut bound =>
      exact ⟨by rw [Worker.entriesOf_advanced, if_neg (Ne.symm elsewhere)], fun _ => rfl⟩
  | decrypts other data =>
    obtain rfl := Option.some.inj stepped
    have apart : senderId ≠ other := by
      rintro rfl
      exact quiet data rfl
    exact Worker.decryptFrame_frame apart data

/-- Purging the sender's older keys keeps the followed one. -/
theorem follows_purge (follows : Follows primitives senderId rawKey keyId opened worker)
    {keepKeyId : Nat} (older : keepKeyId ≤ keyId) :
    Follows primitives senderId rawKey keyId opened
      (worker.receive primitives (.purgeOldKeys senderId keepKeyId)) := by
  have entries := worker.entriesOf_receive primitives (.purgeOldKeys senderId keepKeyId) senderId
  dsimp only at entries
  rw [if_pos rfl] at entries
  apply follows.keep
  · intro entry member named _
    rw [entries]
    refine List.mem_filter.mpr ⟨member, ?_⟩
    rw [named]
    exact decide_eq_true older
  · intro held place
    rw [entries] at place
    exact List.mem_map_of_mem (List.mem_filter.mp place).1

/-- A frame that names other low bits keeps the followed key and its window. -/
theorem follows_other_frame (sound : Sound primitives keys senderId worker)
    (follows : Follows primitives senderId rawKey keyId opened worker) {data : List UInt8}
    (other : ∀ wire, Worker.readFrame data = some wire → wire.kid ≠ keyId % 256) :
    Follows primitives senderId rawKey keyId opened
        (worker.decryptFrame primitives senderId data).2 ∧
      (worker.decryptFrame primitives senderId data).2.replayWindows.lookup
        (senderId, keyId % 256) = worker.replayWindows.lookup (senderId, keyId % 256) := by
  have idle : ∀ entry ∈ worker.entriesOf senderId, entry.keyId % 256 = keyId % 256 →
      entry.skippedKeys.entries = [] → worker.Idle senderId data entry := by
    intro entry _ low unused
    refine ⟨unused, ?_⟩
    intro wire read found
    exact other wire read ((found_entry found).2.symm.trans low)
  refine ⟨follows.keep ?_ ?_, decryptFrame_window ?_⟩
  · intro entry member named unused
    exact decryptFrame_member sound member (idle entry member (by rw [named]) unused)
  · intro held place
    rw [← decryptFrame_keyIds sound data]
    exact List.mem_map_of_mem place
  · intro entry member low
    obtain ⟨followed, there, named, _, unused, _⟩ := follows.entry
    obtain rfl := sound.same_entry there member (named.trans (follows.lone entry member low).symm)
    exact idle followed member low unused

/-- An undisturbing event leaves the followed key and its window as they are. -/
theorem follows_event (sound : Sound primitives keys senderId worker)
    (follows : Follows primitives senderId rawKey keyId opened worker) {event : WorkerEvent Raw}
    {after : Worker Chain Key} (undisturbing : Undisturbing senderId keyId event)
    (stepped : worker.step primitives event = some after) :
    Sound primitives keys senderId after ∧
      Follows primitives senderId rawKey keyId opened after ∧
      after.replayWindows.lookup (senderId, keyId % 256) =
        worker.replayWindows.lookup (senderId, keyId % 256) := by
  have soundAfter : Sound primitives keys senderId after := by
    refine step_sound worker event after sound ?_ stepped
    cases event with
    | message message =>
      cases message with
      | setKey participantId identifier other => exact fun here => absurd here undisturbing
      | removeKeys participantId => trivial
      | purgeOldKeys participantId keepKeyId => trivial
    | encrypts frame participantId isAudio => exact undisturbing
    | decrypts other data => trivial
  have aside : Elsewhere senderId event → (∀ data, event ≠ .decrypts senderId data) →
      Follows primitives senderId rawKey keyId opened after ∧
        after.replayWindows.lookup (senderId, keyId % 256) =
          worker.replayWindows.lookup (senderId, keyId % 256) := by
    intro elsewhere quiet
    obtain ⟨entries, windows⟩ := elsewhere_frame elsewhere quiet stepped
    refine ⟨follows.keep ?_ ?_, windows _⟩
    · intro entry member _ _
      rw [entries]
      exact member
    · intro held place
      rw [entries] at place
      exact List.mem_map_of_mem place
  refine ⟨soundAfter, ?_⟩
  cases event with
  | message message =>
    cases message with
    | setKey participantId identifier other => exact aside undisturbing (fun _ => nofun)
    | removeKeys participantId => exact aside undisturbing (fun _ => nofun)
    | purgeOldKeys participantId keepKeyId =>
      by_cases here : participantId = senderId
      · subst here
        obtain rfl := Option.some.inj stepped
        exact ⟨follows_purge follows (undisturbing rfl), rfl⟩
      · exact aside here (fun _ => nofun)
  | encrypts frame participantId isAudio => exact aside undisturbing (fun _ => nofun)
  | decrypts other data =>
    by_cases here : other = senderId
    · subst here
      obtain rfl := Option.some.inj stepped
      exact follows_other_frame sound follows (undisturbing rfl)
    · refine aside trivial ?_
      intro read same
      injection same with sender
      exact here sender

/-- A counter that has used up its four bytes starts again at zero, which is behind
the window. -/
theorem follows_wrapped (ideal : primitives.Ideal) (sound : Sound primitives keys senderId worker)
    (follows : Follows primitives senderId rawKey keyId 4294967295 worker) (item : Sent)
    {window : ReplayWindow}
    (stored : worker.replayWindows.lookup (senderId, keyId % 256) = some window)
    (reach : 4294967295 ≤ window.highest) :
    (worker.decryptFrame primitives senderId
      (wireOf primitives senderId rawKey keyId 4294967296 item)).1 = none := by
  obtain ⟨wire, read, kid, counted⟩ :=
    wireOf_read ideal senderId rawKey keyId 4294967296 item
  obtain ⟨entry, member, named, -⟩ := follows.entry
  have found := follows.found sound member named
  rw [← kid] at found stored
  have behind : wire.ctr + replayWindowSize ≤ window.highest := by
    rw [counted]
    exact Nat.le_trans (by decide) reach
  rw [decryptFrame_of_read read member, Worker.decryptWire_refused found]
  rw [stored]
  exact (Window.settle_behind behind).1

/-- The frames of a followed key are emitted, all of them, exactly when their
counters fit the header and the window accepts each of them. The induction is on
the arrivals; a counter that is accepted decides nothing about the later ones. -/
theorem exchange_emitted_iff (ideal : primitives.Ideal) (arrivals : List (Arrival Raw)) {sent : Nat}
    {sender receiver : Worker Chain Key}
    (encrypting : Encrypting primitives senderId rawKey keyId sent sender)
    (sound : Sound primitives keys senderId receiver)
    (follows : Follows primitives senderId rawKey keyId sent receiver) (small : sent < 4294967296)
    (reach : sent = 0 ∨ ∃ window,
      receiver.replayWindows.lookup (senderId, keyId % 256) = some window ∧ sent ≤ window.highest)
    (undisturbing : ∀ event, .inr event ∈ arrivals → Undisturbing senderId keyId event) :
    AllEmitted (exchange primitives senderId sender receiver arrivals) ↔
      sent + encryptable arrivals < 4294967296 ∧
        ∀ ctr, sent < ctr → ctr ≤ sent + encryptable arrivals →
          (Window.check replayWindowSize
            (receiver.replayWindows.lookup (senderId, keyId % 256)) ctr).isSome = true := by
  induction arrivals generalizing sender receiver sent with
  | nil =>
    refine iff_of_true ?_ ⟨small, ?_⟩
    · intro result impossible
      cases impossible
    · intro ctr above below
      rw [encryptable, List.countP_nil] at below
      omega
  | cons arrival rest inductionHypothesis =>
    have later : ∀ event, .inr event ∈ rest → Undisturbing senderId keyId event :=
      fun event member => undisturbing event (List.mem_cons_of_mem arrival member)
    cases arrival with
    | inr event =>
      have count : encryptable (.inr event :: rest) = encryptable rest := by
        simp [encryptable]
      obtain ⟨after, stepped⟩ : ∃ after, receiver.step primitives event = some after := by
        cases event <;> exact ⟨_, rfl⟩
      obtain ⟨soundAfter, followsAfter, window⟩ :=
        follows_event sound follows (undisturbing event List.mem_cons_self) stepped
      rw [exchange, stepped, Option.getD_some, count]
      rw [← window] at reach ⊢
      exact inductionHypothesis encrypting soundAfter followsAfter small reach later
    | inl item =>
      have encrypted := encryptFrame_encrypting encrypting item
      by_cases room : item.clear ≤ item.1.data.length
      · have count : encryptable (.inl item :: rest) = encryptable rest + 1 := by
          simp [encryptable, room]
        rw [if_pos room] at encrypted
        obtain ⟨output, encryptingAfter⟩ := encrypted
        obtain ⟨frame, made, wire⟩ := Option.map_eq_some_iff.mp output
        have results : exchange primitives senderId sender receiver (.inl item :: rest) =
            (item, (receiver.decryptFrame primitives senderId
                (wireOf primitives senderId rawKey keyId (sent + 1) item)).1) ::
              exchange primitives senderId
                (sender.encryptFrame primitives item.1 senderId item.2).2
                (receiver.decryptFrame primitives senderId
                  (wireOf primitives senderId rawKey keyId (sent + 1) item)).2 rest := by
          rw [exchange, made, ← wire]
        rw [results, AllEmitted, List.forall_mem_cons, count]
        by_cases fits : sent + 1 < 4294967296
        · obtain ⟨refused, accepted⟩ := follows_frame ideal sound follows item fits
          cases tried : Window.check replayWindowSize
              (receiver.replayWindows.lookup (senderId, keyId % 256)) (sent + 1) with
          | none =>
            rw [refused tried]
            apply iff_of_false
            · rintro ⟨impossible, _⟩
              cases impossible
            · rintro ⟨_, all⟩
              have first := all (sent + 1) (by omega) (by omega)
              rw [tried] at first
              cases first
          | some window =>
            obtain ⟨emitted, followsAfter, stored⟩ := accepted window tried
            have soundAfter := decryptFrame_sound sound
              (wireOf primitives senderId rawKey keyId (sent + 1) item)
            have next := inductionHypothesis encryptingAfter soundAfter followsAfter fits
              (.inr ⟨window, stored, Window.check_reaches _ tried⟩) later
            rw [AllEmitted, stored] at next
            have run := Window.check_run_iff _ tried (sent + 1 + encryptable rest)
            rw [emitted, next, ← run, Nat.add_assoc sent 1, Nat.add_comm 1]
            exact ⟨fun both => both.2, fun both => ⟨rfl, both⟩⟩
        · obtain rfl : sent = 4294967295 := by omega
          obtain ⟨window, stored, highest⟩ := reach.resolve_left (by decide)
          rw [follows_wrapped ideal sound follows item stored highest]
          apply iff_of_false
          · rintro ⟨impossible, _⟩
            cases impossible
          · rintro ⟨few, _⟩
            omega
      · have count : encryptable (.inl item :: rest) = encryptable rest := by
          simp [encryptable, room]
        rw [if_neg room] at encrypted
        rw [exchange, encrypted, count]
        exact inductionHypothesis encrypting sound follows small reach later

end Exchange

section Recorded

variable {Raw Chain Key : Type} {primitives : Primitives Raw Chain Key} {senderId : String}
  {rawKey : Raw} {keyId : Nat} {worker : Worker Chain Key}

/-- Every window has its end recorded. -/
def Worker.Recorded (worker : Worker Chain Key) : Prop :=
  ∀ key window, worker.replayWindows.lookup key = some window → window.Marks window.highest

/-- Testing a counter keeps the ends of the windows recorded. -/
theorem recorded_insert (recorded : worker.Recorded) {key tested : String × Nat} {ctr : Nat}
    {window after : ReplayWindow}
    (accepted : Window.check replayWindowSize (worker.replayWindows.lookup key) ctr = some window)
    (stored : (worker.replayWindows.insert key window).lookup tested = some after) :
    after.Marks after.highest := by
  rw [Table.lookup_insert_eq] at stored
  split at stored
  · obtain rfl := Option.some.inj stored
    exact Window.check_marks_highest _ (by decide) accepted (recorded key)
  · exact recorded tested after stored

/-- The fallback keeps the ends of the windows recorded. -/
theorem fallback_recorded (recorded : worker.Recorded) {wire : WireFrame}
    {tried : List (ChainEntry Chain Key)} {result : Option (List UInt8) × Worker Chain Key}
    (outcome : Worker.FallbackOutcome primitives worker senderId wire tried result) :
    result.2.Recorded := by
  cases outcome with
  | dropped =>
    intro key window stored
    rw [Worker.replayWindows_notifyNotReady] at stored
    exact recorded key window stored
  | opened entry cached plaintext member below kept opens =>
    intro key window stored
    have place : (checkReplay worker.replayWindows senderId (entry.keyId % 256) wire.ctr).2.lookup
      key = some window := stored
    unfold checkReplay at place
    split at place
    · next accepted => exact recorded_insert recorded accepted place
    · exact recorded key window place

/-- A frame keeps the ends of the windows recorded. -/
theorem decryptFrame_recorded (recorded : worker.Recorded) (data : List UInt8) :
    (worker.decryptFrame primitives senderId data).2.Recorded := by
  have outcome := worker.decryptFrame_outcome primitives senderId data
  generalize worker.decryptFrame primitives senderId data = result at outcome
  cases outcome with
  | keyless missing =>
    intro key window stored
    rw [Worker.replayWindows_notifyNotReady] at stored
    exact recorded key window stored
  | malformed unread => exact recorded
  | refused wire entry read found refuses => exact recorded
  | withheld wire entry window read found accepts none_given =>
    exact fun _ _ stored => recorded_insert recorded accepts stored
  | opened wire entry window messageKey plaintext read found accepts given opens =>
    exact fun _ _ stored => recorded_insert recorded accepts stored
  | fellBack wire entry window messageKey result read found accepts given sealed fallback =>
    exact fallback_recorded (fun _ _ stored => recorded_insert recorded accepts stored) fallback
  | unmatched wire result read missing fallback => exact fallback_recorded recorded fallback

/-- Every window of a reached worker has its end recorded. -/
theorem reached_recorded {admitted : Worker Chain Key → WorkerEvent Raw → Prop}
    (reached : Reaches (Worker.step primitives) admitted Worker.fresh worker) : worker.Recorded := by
  refine Reaches.invariant Worker.Recorded ?_ ?_ reached
  · intro key window stored
    cases stored
  · intro before event after recorded _ stepped
    cases event with
    | message message =>
      obtain rfl := Option.some.inj stepped
      cases message with
      | setKey participantId identifier other => exact recorded
      | removeKeys participantId =>
        intro key window stored
        have kept : (before.replayWindows.retain (fun key _ => key.1 != participantId)).lookup key =
          some window := stored
        rw [Table.lookup_retain] at kept
        exact recorded key window (Option.filter_eq_some_iff.mp kept).1
      | purgeOldKeys participantId keepKeyId => exact recorded
    | encrypts frame participantId isAudio =>
      obtain rfl := Option.some.inj stepped
      have outcome := before.encryptFrame_outcome primitives frame participantId isAudio
      generalize before.encryptFrame primitives frame participantId isAudio = result at outcome
      cases outcome with
      | notReady missing =>
        intro key window stored
        rw [Worker.replayWindows_notifyNotReady] at stored
        exact recorded key window stored
      | short under => exact recorded
      | encrypted entry codecHeader payload aad newest room cut bound => exact recorded
    | decrypts other data =>
      obtain rfl := Option.some.inj stepped
      exact decryptFrame_recorded recorded data

/-- A reached worker is sound after a key was set. -/
theorem renewed_sound
    (reached : Reaches (Worker.step primitives) (Receives (fun _ _ => True) senderId) Worker.fresh
      worker) :
    Sound primitives (fun _ _ => True) senderId
      (worker.receive primitives (.setKey senderId keyId rawKey)) :=
  receive_sound (reached_sound reached) _ (fun _ => trivial)

/-- A receiver that has accepted a counter under the identifier drops a frame of the
new key, at the latest the one with the highest accepted counter. -/
theorem renewed_key_stalls (ideal : primitives.Ideal) {sender receiver : Worker Chain Key}
    (reached : Reaches (Worker.step primitives) (Receives (fun _ _ => True) senderId) Worker.fresh
      receiver)
    (lone : ∀ entry ∈ receiver.entriesOf senderId, entry.keyId % 256 = keyId % 256 →
      entry.keyId = keyId)
    (uncounted : sender.frameCounters.lookup (senderId, keyId) = none) (arrivals : List (Arrival Raw))
    (undisturbing : ∀ event, .inr event ∈ arrivals → Undisturbing senderId keyId event)
    {window : ReplayWindow}
    (stored : receiver.replayWindows.lookup (senderId, keyId % 256) = some window)
    (used : 0 < window.highest) (many : window.highest ≤ encryptable arrivals) :
    ¬ AllEmitted (exchange primitives senderId
        (sender.receive primitives (.setKey senderId keyId rawKey))
        (receiver.receive primitives (.setKey senderId keyId rawKey)) arrivals) := by
  have served := exchange_emitted_iff ideal arrivals (encrypting_fresh primitives rawKey sender uncounted)
    (renewed_sound reached) (follows_fresh receiver lone) (by decide) (.inl rfl) undisturbing
  intro emitted
  have accepts := (served.mp emitted).2 window.highest used (by rw [Nat.zero_add]; exact many)
  have kept : (receiver.receive primitives (.setKey senderId keyId rawKey)).replayWindows.lookup
    (senderId, keyId % 256) = some window := stored
  rw [kept, Window.check_isSome] at accepts
  rcases accepts with above | ⟨_, unmarked⟩
  · exact absurd above (Nat.lt_irrefl window.highest)
  · exact unmarked (reached_recorded reached _ window stored)

end Recorded

section Sample

/-- A receiver that has opened a frame under the sender's first key. -/
def listenedSample : Worker SampleKey SampleKey :=
  (sampleWorker.decryptFrame samplePrimitives "alice" genuineSample).2

/-- The sample worker is reached by messages that any worker may get. -/
theorem listenedSample_reached : Reaches (Worker.step samplePrimitives)
    (Receives (fun _ _ => True) "alice") Worker.fresh listenedSample := by
  have any : Receives (fun _ _ => True) "alice" (Worker.fresh : Worker SampleKey SampleKey)
      (.message (.setKey "alice" 7 9)) := fun _ => trivial
  have heard : Receives (fun _ _ => True) "alice" sampleWorker
      (.decrypts "alice" genuineSample : WorkerEvent Nat) := trivial
  exact .next (.next .start any rfl) heard rfl

/-- An audio frame. -/
def sampleItem : Sent := ({ data := [1, 2], payloadType := some 111 }, true)

end Sample

end Seameet.E2ee
