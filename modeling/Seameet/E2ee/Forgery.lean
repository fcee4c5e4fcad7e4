import Seameet.E2ee.Delivery

/-!
# Frames that fail authentication

A relay can hand the receiver any bytes as a frame of a sender. Such a frame is
never emitted: every key the receiver tries is one of the sender's own. It can
still change the receiver, because the counter is recorded and the message key is
taken from the chain before the tag is checked.

When the window refuses the counter, or the entry is already past it and has kept
no key for it, nothing that matters is changed: the two receivers that have and
have not seen the frame differ at most in whether a counter that no longer has a
key is recorded, and they emit the same frames from then on.
-/

namespace Seameet.E2ee

open Library

section Receiver

variable {Raw Chain Key : Type} (primitives : Primitives Raw Chain Key)

/-- Something that happens to the worker. -/
inductive WorkerEvent (Raw : Type) where
  | message (message : WorkerMessage Raw)
  | encrypts (frame : Frame) (participantId : String) (isAudio : Bool)
  | decrypts (senderId : String) (data : List UInt8)

/-- One event. Every event is possible in every state. -/
def Worker.step (worker : Worker Chain Key) : WorkerEvent Raw → Option (Worker Chain Key)
  | .message message => some (worker.receive primitives message)
  | .encrypts frame participantId isAudio =>
    some (worker.encryptFrame primitives frame participantId isAudio).2
  | .decrypts senderId data => some (worker.decryptFrame primitives senderId data).2

/-- The keys installed for the sender are the sender's, and the worker encrypts
nothing in the sender's name. Frames of the sender may be anything. -/
def Receives (keys : Raw → Nat → Prop) (senderId : String) (_ : Worker Chain Key) :
    WorkerEvent Raw → Prop
  | .message (.setKey participantId keyId rawKey) => participantId = senderId → keys rawKey keyId
  | .encrypts _ participantId _ => participantId ≠ senderId
  | _ => True

/-- What the receiver keeps about a sender: distinct entries of the sender's own
keys, each of them moved on only by counters that its window has accepted. -/
structure Sound (keys : Raw → Nat → Prop) (senderId : String) (worker : Worker Chain Key) :
    Prop where
  distinct : ((worker.entriesOf senderId).map ChainEntry.keyId).Nodup
  belongs : ∀ entry ∈ worker.entriesOf senderId,
    ∃ rawKey, keys rawKey entry.keyId ∧ entry.Belongs primitives rawKey
  behind : ∀ entry ∈ worker.entriesOf senderId, entry.nextCtr = 1 ∨
    ∃ window, worker.replayWindows.lookup (senderId, entry.keyId % 256) = some window ∧
      entry.nextCtr ≤ window.highest + 1

variable {primitives} {keys : Raw → Nat → Prop} {senderId : String} {worker after : Worker Chain Key}

/-- Entries are told apart by their key identifiers. -/
theorem Sound.same_entry (sound : Sound primitives keys senderId worker)
    {entry other : ChainEntry Chain Key} (member : entry ∈ worker.entriesOf senderId)
    (present : other ∈ worker.entriesOf senderId) (same : entry.keyId = other.keyId) :
    entry = other :=
  List.inj_on_of_nodup_map sound.distinct member present same

/-- What is kept speaks of the sender's entries and windows only. -/
theorem Sound.congr (sound : Sound primitives keys senderId worker)
    (entries : after.entriesOf senderId = worker.entriesOf senderId)
    (windows : ∀ kid, after.replayWindows.lookup (senderId, kid) =
      worker.replayWindows.lookup (senderId, kid)) : Sound primitives keys senderId after := by
  obtain ⟨distinct, belongs, behind⟩ := sound
  rw [← entries] at distinct belongs behind
  refine ⟨distinct, belongs, ?_⟩
  intro entry member
  rw [windows]
  exact behind entry member

/-- Changing an entry in place keeps what is kept, when the entry still belongs to
its key and the windows only move up. -/
theorem Sound.replace (sound : Sound primitives keys senderId worker)
    {entry changed : ChainEntry Chain Key} (member : entry ∈ worker.entriesOf senderId)
    (keyId : changed.keyId = entry.keyId)
    (moved : ∀ rawKey, entry.Belongs primitives rawKey → changed.Belongs primitives rawKey)
    (entries : after.entriesOf senderId = (worker.entriesOf senderId).map
      (fun held => if held.keyId = changed.keyId then changed else held))
    (windows : ∀ kid window, worker.replayWindows.lookup (senderId, kid) = some window →
      ∃ later, after.replayWindows.lookup (senderId, kid) = some later ∧
        window.highest ≤ later.highest)
    (covered : changed.nextCtr = entry.nextCtr ∨
      ∃ window, after.replayWindows.lookup (senderId, changed.keyId % 256) = some window ∧
        changed.nextCtr ≤ window.highest + 1) : Sound primitives keys senderId after := by
  have behind : ∀ held ∈ worker.entriesOf senderId, held.nextCtr = 1 ∨
      ∃ window, after.replayWindows.lookup (senderId, held.keyId % 256) = some window ∧
        held.nextCtr ≤ window.highest + 1 := by
    intro held present
    rcases sound.behind held present with start | ⟨window, stored, reach⟩
    · exact .inl start
    · obtain ⟨later, known, higher⟩ := windows _ window stored
      exact .inr ⟨later, known, by omega⟩
  have origin : ∀ held ∈ after.entriesOf senderId,
      held = changed ∨ held ∈ worker.entriesOf senderId := by
    intro held present
    rw [entries] at present
    obtain ⟨old, place, rfl⟩ := List.mem_map.mp present
    split
    · exact .inl rfl
    · exact .inr place
  constructor
  · have identifiers : (after.entriesOf senderId).map ChainEntry.keyId =
        (worker.entriesOf senderId).map ChainEntry.keyId := by
      rw [entries, List.map_map]
      apply List.map_congr_left
      intro held _
      simp only [Function.comp_apply]
      split
      · next same => exact same.symm
      · rfl
    rw [identifiers]
    exact sound.distinct
  · intro held present
    rcases origin held present with rfl | old
    · obtain ⟨rawKey, known, belongs⟩ := sound.belongs entry member
      exact ⟨rawKey, keyId ▸ known, moved rawKey belongs⟩
    · exact sound.belongs held old
  · intro held present
    rcases origin held present with rfl | old
    · rcases covered with same | reached
      · rw [same, keyId]
        exact behind entry member
      · exact .inr reached
    · exact behind held old

/-- The entry found by a key identifier is installed and has it. -/
theorem found_entry {entries : List (ChainEntry Chain Key)} {entry : ChainEntry Chain Key} {kid : Nat}
    (found : entries.find? (fun held => held.keyId % 256 == kid) = some entry) :
    entry ∈ entries ∧ entry.keyId % 256 = kid :=
  ⟨List.mem_of_find?_eq_some found, by simpa using List.find?_some found⟩

/-- Recording an accepted counter and asking for its key keeps what is kept: the
entry moves on only to a counter the window has accepted. -/
theorem derived_sound (sound : Sound primitives keys senderId worker) {wire : WireFrame}
    {entry : ChainEntry Chain Key} {window : ReplayWindow}
    (found : (worker.entriesOf senderId).find? (fun held => held.keyId % 256 == wire.kid) =
      some entry)
    (accepts : Window.check replayWindowSize
      (worker.replayWindows.lookup (senderId, wire.kid)) wire.ctr = some window) :
    Sound primitives keys senderId (worker.derived primitives senderId wire entry window) := by
  obtain ⟨member, kid⟩ := found_entry found
  obtain ⟨rawKey, _, belongs⟩ := sound.belongs entry member
  obtain ⟨_, same⟩ := getDecryptionKey_belongs belongs wire.ctr
  apply sound.replace member same
  · exact fun other held => (getDecryptionKey_belongs held wire.ctr).1
  · rw [Worker.entriesOf_derived, if_pos rfl]
  · intro other old stored
    rw [Worker.replayWindows_derived]
    split
    · next here =>
      obtain rfl : other = wire.kid := congrArg Prod.snd here
      rw [stored] at accepts
      refine ⟨window, rfl, ?_⟩
      rw [(Window.check_marks accepts).1]
      exact Nat.le_max_left old.highest wire.ctr
    · exact ⟨old, stored, Nat.le_refl old.highest⟩
  · have reach := Window.check_reaches _ accepts
    have stored : (worker.derived primitives senderId wire entry window).replayWindows.lookup
        (senderId, entry.keyId % 256) = some window := by
      rw [Worker.replayWindows_derived, kid, if_pos rfl]
    have outcome := getDecryptionKey_outcome belongs wire.ctr
    rw [same, stored]
    generalize getDecryptionKey primitives entry wire.ctr = result at outcome
    cases outcome with
    | cached found below => exact .inl rfl
    | passed absent below => exact .inl rfl
    | far beyond => exact .inl rfl
    | reached kept ahead near origin recent =>
      exact .inr ⟨window, rfl, Nat.succ_le_succ reach⟩

/-- Using a skipped key keeps what is kept. -/
theorem usedSkipped_sound (sound : Sound primitives keys senderId worker) (wire : WireFrame)
    {entry : ChainEntry Chain Key} (member : entry ∈ worker.entriesOf senderId) :
    Sound primitives keys senderId (worker.usedSkipped senderId wire entry) := by
  have same : ({ entry with
    skippedKeys := entry.skippedKeys.erase wire.ctr } : ChainEntry Chain Key).keyId = entry.keyId := rfl
  apply sound.replace member same
  · rintro rawKey ⟨salt, started, chain, skipped⟩
    exact ⟨salt, started, chain, fun kept place => skipped kept (Ordered.mem_erase.mp place).1⟩
  · rw [Worker.entriesOf_usedSkipped, if_pos rfl]
  · intro kid window stored
    show ∃ later, (checkReplay worker.replayWindows senderId (entry.keyId % 256) wire.ctr).2.lookup
      (senderId, kid) = some later ∧ window.highest ≤ later.highest
    rw [Worker.checkReplay_lookup]
    split
    · next here =>
      obtain rfl : kid = entry.keyId % 256 := congrArg Prod.snd here
      rw [stored]
      exact Window.settle_highest replayWindowSize window wire.ctr
    · exact ⟨window, stored, Nat.le_refl window.highest⟩
  · exact .inl rfl

/-- The fallback keeps what is kept, when it tries installed entries. -/
theorem fallback_sound (sound : Sound primitives keys senderId worker) {wire : WireFrame}
    {tried : List (ChainEntry Chain Key)} (installed : ∀ entry ∈ tried, entry ∈ worker.entriesOf senderId)
    {result : Option (List UInt8) × Worker Chain Key}
    (outcome : Worker.FallbackOutcome primitives worker senderId wire tried result) :
    Sound primitives keys senderId result.2 := by
  cases outcome with
  | dropped => exact sound.congr (by simp) (by simp)
  | opened entry cached plaintext member below kept opens =>
    exact usedSkipped_sound sound wire (installed entry member)

/-- The entries that the fallback tries after the matching one are still there. -/
theorem others_installed (worker : Worker Chain Key) {wire : WireFrame} {entry : ChainEntry Chain Key}
    {window : ReplayWindow} {rawKey : Raw} (belongs : entry.Belongs primitives rawKey) :
    ∀ other ∈ ((worker.entriesOf senderId).filter
        (fun held => held.keyId != entry.keyId)).reverse,
      other ∈ (worker.derived primitives senderId wire entry window).entriesOf senderId := by
  intro other place
  obtain ⟨member, apart⟩ := List.mem_filter.mp (List.mem_reverse.mp place)
  have distinct : other.keyId ≠ entry.keyId := by simpa using apart
  rw [Worker.entriesOf_derived, if_pos rfl, (getDecryptionKey_belongs belongs wire.ctr).2]
  exact List.mem_map.mpr ⟨other, member, if_neg distinct⟩

/-- A received frame, whatever it is, keeps what is kept about its sender. -/
theorem decryptFrame_sound (sound : Sound primitives keys senderId worker) (data : List UInt8) :
    Sound primitives keys senderId (worker.decryptFrame primitives senderId data).2 := by
  have outcome := worker.decryptFrame_outcome primitives senderId data
  generalize worker.decryptFrame primitives senderId data = result at outcome
  cases outcome with
  | keyless missing => exact sound.congr (by simp) (by simp)
  | malformed unread => exact sound
  | refused wire entry read found refuses => exact sound
  | withheld wire entry window read found accepts none_given => exact derived_sound sound found accepts
  | opened wire entry window messageKey plaintext read found accepts given opens =>
    exact derived_sound sound found accepts
  | fellBack wire entry window messageKey result read found accepts given sealed fallback =>
    obtain ⟨rawKey, _, belongs⟩ := sound.belongs entry (found_entry found).1
    exact fallback_sound (derived_sound sound found accepts)
      (others_installed worker belongs) fallback
  | unmatched wire result read missing fallback =>
    exact fallback_sound sound (fun _ place => List.mem_reverse.mp place) fallback

/-- Fewer entries keep what is kept. -/
theorem Sound.fewer (sound : Sound primitives keys senderId worker)
    (entries : (after.entriesOf senderId).Sublist (worker.entriesOf senderId))
    (windows : after.entriesOf senderId ≠ [] → ∀ kid, after.replayWindows.lookup (senderId, kid) =
      worker.replayWindows.lookup (senderId, kid)) : Sound primitives keys senderId after := by
  refine ⟨(entries.map ChainEntry.keyId).nodup sound.distinct,
    fun entry member => sound.belongs entry (entries.subset member), ?_⟩
  intro entry member
  rw [windows (List.ne_nil_of_mem member)]
  exact sound.behind entry (entries.subset member)

/-- A message keeps what is kept, when a key it installs for the sender is the
sender's. A new key starts at its first counter. -/
theorem receive_sound (sound : Sound primitives keys senderId worker) (message : WorkerMessage Raw)
    (own : Receives keys senderId worker (.message message)) :
    Sound primitives keys senderId (worker.receive primitives message) := by
  have entries := worker.entriesOf_receive primitives message senderId
  cases message with
  | setKey participantId keyId rawKey =>
    dsimp only at entries
    split at entries
    · next here =>
      subst here
      have old : ∀ entry ∈ (worker.entriesOf senderId).filter (fun held => held.keyId != keyId),
          entry ∈ worker.entriesOf senderId ∧ entry.keyId ≠ keyId := by
        intro entry member
        obtain ⟨place, apart⟩ := List.mem_filter.mp member
        exact ⟨place, by simpa using apart⟩
      constructor
      · rw [entries, List.map_append, List.nodup_append]
        refine ⟨(List.filter_sublist.map ChainEntry.keyId).nodup sound.distinct,
          List.nodup_singleton keyId, ?_⟩
        intro identifier member other new
        obtain ⟨entry, place, rfl⟩ := List.mem_map.mp member
        obtain rfl := List.mem_singleton.mp new
        exact (old entry place).2
      · intro entry member
        rw [entries] at member
        rcases List.mem_append.mp member with place | new
        · exact sound.belongs entry (old entry place).1
        · obtain rfl := List.mem_singleton.mp new
          exact ⟨rawKey, own rfl, initChainEntry_belongs primitives rawKey keyId⟩
      · intro entry member
        rw [entries] at member
        rcases List.mem_append.mp member with place | new
        · exact sound.behind entry (old entry place).1
        · obtain rfl := List.mem_singleton.mp new
          exact .inl rfl
    · exact sound.congr entries (fun _ => rfl)
  | removeKeys participantId =>
    dsimp only at entries
    split at entries
    · apply sound.fewer
      · rw [entries]
        exact List.nil_sublist _
      · intro present
        exact absurd entries present
    · next elsewhere =>
      apply sound.congr entries
      intro kid
      show (worker.replayWindows.retain (fun key _ => key.1 != participantId)).lookup
        (senderId, kid) = _
      rw [Table.lookup_retain]
      cases worker.replayWindows.lookup (senderId, kid) with
      | none => rfl
      | some window => simp [Option.filter, elsewhere]
  | purgeOldKeys participantId keepKeyId =>
    dsimp only at entries
    split at entries
    · next here =>
      subst here
      apply sound.fewer
      · rw [entries]
        exact List.filter_sublist
      · intro _ kid
        rfl
    · exact sound.congr entries (fun _ => rfl)

/-- Every event keeps what is kept. -/
theorem step_sound (worker : Worker Chain Key) (event : WorkerEvent Raw) (after : Worker Chain Key)
    (sound : Sound primitives keys senderId worker) (own : Receives keys senderId worker event)
    (stepped : worker.step primitives event = some after) : Sound primitives keys senderId after := by
  cases event with
  | message message =>
    obtain rfl := Option.some.inj stepped
    exact receive_sound sound message own
  | encrypts frame participantId isAudio =>
    obtain rfl := Option.some.inj stepped
    have outcome := worker.encryptFrame_outcome primitives frame participantId isAudio
    generalize worker.encryptFrame primitives frame participantId isAudio = result at outcome
    cases outcome with
    | notReady missing => exact sound.congr (by simp) (by simp)
    | short under => exact sound
    | encrypted entry codecHeader payload aad newest room cut bound =>
      exact sound.congr (by rw [Worker.entriesOf_advanced, if_neg (Ne.symm own)]) (fun _ => rfl)
  | decrypts other data =>
    obtain rfl := Option.some.inj stepped
    by_cases same : senderId = other
    · subst same
      exact decryptFrame_sound sound data
    · obtain ⟨entries, windows⟩ := Worker.decryptFrame_frame same data
      exact sound.congr entries windows

/-- Every reached worker keeps what is kept. -/
theorem reached_sound (reached : Reaches (Worker.step primitives) (Receives keys senderId)
    Worker.fresh worker) : Sound primitives keys senderId worker := by
  refine Reaches.invariant (Sound primitives keys senderId) ?_ step_sound reached
  refine ⟨List.nodup_nil, ?_, ?_⟩
  · intro entry member
    cases member
  · intro entry member
    cases member

end Receiver

section Windows

/-- Two windows that agree up to counters that are spent. A window that is missing
on the left may be one on the right that holds the spent counter zero alone. -/
def WindowAlike (spent : Nat → Prop) : Option ReplayWindow → Option ReplayWindow → Prop
  | none, none => True
  | none, some right => right.highest = 0 ∧ spent 0
  | some left, some right => left.highest = right.highest ∧
      ∀ ctr, left.Covers replayWindowSize ctr → ¬ spent ctr → (left.Marks ctr ↔ right.Marks ctr)
  | some _, none => False

variable {spent more : Nat → Prop} {left right : Option ReplayWindow}

/-- A window is like itself whatever was spent. -/
theorem WindowAlike.refl (spent : Nat → Prop) (window : Option ReplayWindow) :
    WindowAlike spent window window := by
  cases window with
  | none => trivial
  | some window => exact ⟨rfl, fun _ _ _ => Iff.rfl⟩

/-- More counters may be spent. -/
theorem WindowAlike.mono (alike : WindowAlike spent left right)
    (grows : ∀ ctr, spent ctr → more ctr) : WindowAlike more left right := by
  cases left with
  | none =>
    cases right with
    | none => trivial
    | some right => exact ⟨alike.1, grows 0 alike.2⟩
  | some left =>
    cases right with
    | none => exact alike.elim
    | some right =>
      exact ⟨alike.1, fun ctr covered unspent => alike.2 ctr covered (fun used => unspent (grows ctr used))⟩

/-- Alike windows accept the same counters, but for spent ones, and stay alike. -/
theorem WindowAlike.settle (alike : WindowAlike spent left right) (ctr : Nat) :
    WindowAlike spent (Window.settle replayWindowSize left ctr)
        (Window.settle replayWindowSize right ctr) ∧
      (¬ spent ctr → (Window.check replayWindowSize left ctr).isSome =
        (Window.check replayWindowSize right ctr).isSome) := by
  cases left with
  | none =>
    cases right with
    | none => exact ⟨WindowAlike.refl spent _, fun _ => rfl⟩
    | some right =>
      obtain ⟨zero, used⟩ := alike
      have near : right.highest < ctr + replayWindowSize := by
        unfold replayWindowSize
        omega
      obtain ⟨later, settled, reach, marks⟩ := Window.settle_within near
      rw [settled]
      constructor
      · refine ⟨?_, ?_⟩
        · show ctr = later.highest
          omega
        · intro tested covered unspent
          have low : later.Covers replayWindowSize tested := by
            unfold Window.Covers at covered ⊢
            dsimp only at covered
            omega
          rw [Window.marks_fresh, marks tested low]
          constructor
          · exact .inl
          · rintro (same | ⟨below, _⟩)
            · exact same
            · obtain rfl : tested = 0 := by omega
              exact absurd used unspent
      · intro unspent
        have above : right.highest < ctr := by
          rw [zero, Nat.pos_iff_ne_zero]
          rintro rfl
          exact unspent used
        exact ((Window.check_isSome replayWindowSize right ctr).mpr (.inl above)).symm
  | some left =>
    cases right with
    | none => exact alike.elim
    | some right =>
      obtain ⟨same, agree⟩ := alike
      by_cases near : left.highest < ctr + replayWindowSize
      · obtain ⟨leftLater, leftSettled, leftReach, leftMarks⟩ := Window.settle_within near
        obtain ⟨rightLater, rightSettled, rightReach, rightMarks⟩ :=
          Window.settle_within (same ▸ near)
        rw [leftSettled, rightSettled]
        constructor
        · refine ⟨by rw [leftReach, rightReach, same], ?_⟩
          intro tested covered unspent
          have rightCovered : rightLater.Covers replayWindowSize tested := by
            unfold Window.Covers at covered ⊢
            omega
          have earlier : left.Covers replayWindowSize tested := by
            unfold Window.Covers at covered ⊢
            omega
          rw [leftMarks tested covered, rightMarks tested rightCovered, agree tested earlier unspent]
        · intro unspent
          apply Bool.eq_iff_iff.mpr
          rw [Window.check_isSome, Window.check_isSome, same]
          have marked := agree ctr near unspent
          have covers : left.Covers replayWindowSize ctr ↔ right.Covers replayWindowSize ctr := by
            unfold Window.Covers
            rw [same]
          rw [← covers, marked]
      · have behind : ctr + replayWindowSize ≤ left.highest := Nat.le_of_not_lt near
        obtain ⟨leftRefused, leftSettled⟩ := Window.settle_behind behind
        obtain ⟨rightRefused, rightSettled⟩ := Window.settle_behind (same ▸ behind)
        rw [leftSettled, rightSettled, leftRefused, rightRefused]
        exact ⟨⟨same, agree⟩, fun _ => rfl⟩

/-- Recording a spent counter that the window has reached leaves an alike window. -/
theorem WindowAlike.record {window : Option ReplayWindow} {ctr : Nat} (used : spent ctr)
    (start : window = none → ctr = 0)
    (reached : ∀ stored, window = some stored → ctr ≤ stored.highest) :
    WindowAlike spent window (Window.settle replayWindowSize window ctr) := by
  cases window with
  | none =>
    obtain rfl := start rfl
    exact ⟨rfl, used⟩
  | some stored =>
    have inside := reached stored rfl
    by_cases near : stored.highest < ctr + replayWindowSize
    · obtain ⟨later, settled, reach, marks⟩ := Window.settle_within near
      rw [settled]
      refine ⟨by omega, fun tested covered unspent => ?_⟩
      have low : later.Covers replayWindowSize tested := by
        unfold Window.Covers at covered ⊢
        omega
      rw [marks tested low]
      constructor
      · exact .inr
      · rintro (rfl | marked)
        · exact absurd used unspent
        · exact marked
    · rw [(Window.settle_behind (Nat.le_of_not_lt near)).2]
      exact WindowAlike.refl spent (some stored)

end Windows

section Alike

variable {Raw Chain Key : Type} {primitives : Primitives Raw Chain Key} {keys : Raw → Nat → Prop}
  {senderId : String} {left right worker : Worker Chain Key} {entry changed : ChainEntry Chain Key}
  {wire : WireFrame}

/-- The entry has moved past the counter and has kept no key for it. -/
def ChainEntry.Past (entry : ChainEntry Chain Key) (ctr : Nat) : Prop :=
  ctr < entry.nextCtr ∧ ctr ∉ entry.skippedKeys.keys

/-- The entry that a key identifier names is past the counter. -/
def Spent (entries : List (ChainEntry Chain Key)) (kid ctr : Nat) : Prop :=
  ∃ entry, entries.find? (fun held => held.keyId % 256 == kid) = some entry ∧ entry.Past ctr

/-- Two receivers with the same entries of a sender, whose windows agree up to
spent counters. -/
structure Alike (senderId : String) (left right : Worker Chain Key) : Prop where
  entries : right.entriesOf senderId = left.entriesOf senderId
  windows : ∀ kid, WindowAlike (Spent (left.entriesOf senderId) kid)
    (left.replayWindows.lookup (senderId, kid)) (right.replayWindows.lookup (senderId, kid))

/-- A spent counter stays spent when its entry is changed and past the same
counters. -/
theorem Spent.replace {entries : List (ChainEntry Chain Key)}
    (distinct : (entries.map ChainEntry.keyId).Nodup) (member : entry ∈ entries)
    (keyId : changed.keyId = entry.keyId) (moves : ∀ ctr, entry.Past ctr → changed.Past ctr)
    {kid ctr : Nat} (spent : Spent entries kid ctr) :
    Spent (entries.map (fun held => if held.keyId = changed.keyId then changed else held)) kid ctr := by
  obtain ⟨found, first, past⟩ := spent
  have tests : (fun held : ChainEntry Chain Key => held.keyId % 256 == kid) ∘
      (fun held => if held.keyId = changed.keyId then changed else held) =
        fun held => held.keyId % 256 == kid := by
    funext held
    simp only [Function.comp_apply]
    split
    · next same => rw [same]
    · rfl
  refine ⟨if found.keyId = changed.keyId then changed else found, ?_, ?_⟩
  · rw [List.find?_map, tests, first]
    rfl
  · split
    · next same =>
      have here : found = entry :=
        List.inj_on_of_nodup_map distinct (List.mem_of_find?_eq_some first) member (same.trans keyId)
      exact moves ctr (here ▸ past)
    · exact past

/-- Asking an entry for a key leaves it past at least the same counters. -/
theorem getDecryptionKey_past {rawKey : Raw} (belongs : entry.Belongs primitives rawKey)
    (targetCtr ctr : Nat) (past : entry.Past ctr) :
    (getDecryptionKey primitives entry targetCtr).2.Past ctr := by
  obtain ⟨below, absent⟩ := past
  have outcome := getDecryptionKey_outcome belongs targetCtr
  generalize getDecryptionKey primitives entry targetCtr = result at outcome
  cases outcome with
  | cached found _ =>
    refine ⟨below, fun present => absent ?_⟩
    obtain ⟨key, held⟩ := Ordered.mem_keys.mp present
    exact Ordered.mem_keys.mpr ⟨key, (Ordered.mem_erase.mp held).1⟩
  | passed _ _ => exact ⟨below, absent⟩
  | far beyond => exact ⟨below, absent⟩
  | reached kept ahead near origin recent =>
    refine ⟨by dsimp only; omega, fun present => ?_⟩
    obtain ⟨key, held⟩ := Ordered.mem_keys.mp present
    rcases origin _ held with old | ⟨_, above, _⟩
    · exact absent (Ordered.mem_keys.mpr ⟨key, old⟩)
    · dsimp only at above
      omega

/-- An entry gives no key for a counter it is past, and stays as it is. -/
theorem getDecryptionKey_of_past {ctr : Nat} (past : entry.Past ctr) :
    getDecryptionKey primitives entry ctr = (none, entry) := by
  obtain ⟨below, absent⟩ := past
  unfold getDecryptionKey
  rw [Ordered.lookup_eq_none.mpr absent]
  simp only [below, ↓reduceIte]

/-- A frame with a spent counter is dropped, and at most recorded. -/
theorem decryptWire_spent (sound : Sound primitives keys senderId worker)
    (spent : Spent (worker.entriesOf senderId) wire.kid wire.ctr) :
    (worker.decryptWire primitives senderId wire).1 = none ∧
      (worker.decryptWire primitives senderId wire).2.entriesOf senderId =
        worker.entriesOf senderId ∧
      ∀ kid, (worker.decryptWire primitives senderId wire).2.replayWindows.lookup (senderId, kid) =
        if kid = wire.kid then
          Window.settle replayWindowSize (worker.replayWindows.lookup (senderId, wire.kid)) wire.ctr
        else worker.replayWindows.lookup (senderId, kid) := by
  obtain ⟨entry, found, past⟩ := spent
  have unchanged : getDecryptionKey primitives entry wire.ctr = (none, entry) :=
    getDecryptionKey_of_past past
  cases tried : Window.check replayWindowSize
      (worker.replayWindows.lookup (senderId, wire.kid)) wire.ctr with
  | none =>
    rw [Worker.decryptWire_refused found tried]
    refine ⟨rfl, rfl, fun kid => ?_⟩
    rw [Window.settle, tried]
    split
    · next same => rw [same]; rfl
    · rfl
  | some window =>
    rw [Worker.decryptWire_accepted found tried, unchanged]
    refine ⟨rfl, ?_, fun kid => ?_⟩
    · rw [Worker.entriesOf_derived, if_pos rfl, unchanged]
      have each : ∀ held ∈ worker.entriesOf senderId,
          (if held.keyId = entry.keyId then entry else held) = held := by
        intro held member
        split
        · next same => exact (sound.same_entry member (found_entry found).1 same).symm
        · rfl
      exact (List.map_congr_left each).trans (List.map_id _)
    · rw [Worker.replayWindows_derived, Window.settle, tried]
      simp only [Prod.mk.injEq, true_and]
      rfl

/-- Alike receivers stay alike when both use the same skipped key. -/
theorem Alike.used (alike : Alike senderId left right) (sound : Sound primitives keys senderId left)
    (member : entry ∈ left.entriesOf senderId) :
    Alike senderId (left.usedSkipped senderId wire entry) (right.usedSkipped senderId wire entry) := by
  have same : ({ entry with
    skippedKeys := entry.skippedKeys.erase wire.ctr } : ChainEntry Chain Key).keyId = entry.keyId := rfl
  have moves : ∀ ctr, entry.Past ctr → ({ entry with
      skippedKeys := entry.skippedKeys.erase wire.ctr } : ChainEntry Chain Key).Past ctr := by
    rintro ctr ⟨below, absent⟩
    refine ⟨below, fun present => absent ?_⟩
    obtain ⟨key, held⟩ := Ordered.mem_keys.mp present
    exact Ordered.mem_keys.mpr ⟨key, (Ordered.mem_erase.mp held).1⟩
  constructor
  · rw [Worker.entriesOf_usedSkipped, Worker.entriesOf_usedSkipped, alike.entries]
  · intro kid
    rw [Worker.entriesOf_usedSkipped, if_pos rfl]
    show WindowAlike _
      ((checkReplay left.replayWindows senderId (entry.keyId % 256) wire.ctr).2.lookup (senderId, kid))
      ((checkReplay right.replayWindows senderId (entry.keyId % 256) wire.ctr).2.lookup (senderId, kid))
    rw [Worker.checkReplay_lookup, Worker.checkReplay_lookup]
    have grows : ∀ ctr, Spent (left.entriesOf senderId) kid ctr → Spent _ kid ctr :=
      fun ctr spent => spent.replace sound.distinct member same moves
    refine WindowAlike.mono ?_ grows
    by_cases here : kid = entry.keyId % 256
    · subst here
      rw [if_pos rfl, if_pos rfl]
      exact ((alike.windows _).settle wire.ctr).1
    · have apart : (senderId, kid) ≠ (senderId, entry.keyId % 256) :=
        fun equal => here (congrArg Prod.snd equal)
      rw [if_neg apart, if_neg apart]
      exact alike.windows kid

/-- Alike receivers stay alike when both accept a counter and ask for its key. -/
theorem Alike.derived (alike : Alike senderId left right) (sound : Sound primitives keys senderId left)
    (found : (left.entriesOf senderId).find? (fun held => held.keyId % 256 == wire.kid) = some entry)
    {leftWindow rightWindow : ReplayWindow}
    (leftAccepts : Window.check replayWindowSize
      (left.replayWindows.lookup (senderId, wire.kid)) wire.ctr = some leftWindow)
    (rightAccepts : Window.check replayWindowSize
      (right.replayWindows.lookup (senderId, wire.kid)) wire.ctr = some rightWindow) :
    Alike senderId (left.derived primitives senderId wire entry leftWindow)
      (right.derived primitives senderId wire entry rightWindow) := by
  obtain ⟨member, -⟩ := found_entry found
  obtain ⟨rawKey, _, belongs⟩ := sound.belongs entry member
  obtain ⟨_, same⟩ := getDecryptionKey_belongs belongs wire.ctr
  constructor
  · rw [Worker.entriesOf_derived, Worker.entriesOf_derived, alike.entries]
  · intro kid
    rw [Worker.entriesOf_derived, if_pos rfl, Worker.replayWindows_derived,
      Worker.replayWindows_derived]
    have grows : ∀ ctr, Spent (left.entriesOf senderId) kid ctr → Spent _ kid ctr :=
      fun ctr spent => spent.replace sound.distinct member same (getDecryptionKey_past belongs wire.ctr)
    refine WindowAlike.mono ?_ grows
    by_cases here : kid = wire.kid
    · subst here
      rw [if_pos rfl, if_pos rfl]
      have settled := ((alike.windows wire.kid).settle wire.ctr).1
      rw [Window.settle, Window.settle, leftAccepts, rightAccepts] at settled
      exact settled
    · have apart : (senderId, kid) ≠ (senderId, wire.kid) :=
        fun equal => here (congrArg Prod.snd equal)
      rw [if_neg apart, if_neg apart]
      exact alike.windows kid

/-- The fallback does the same in alike receivers. The induction is on the entries
still to be tried. -/
theorem decryptFallback_alike (alike : Alike senderId left right)
    (sound : Sound primitives keys senderId left) (wire : WireFrame)
    (tried : List (ChainEntry Chain Key)) (installed : ∀ entry ∈ tried, entry ∈ left.entriesOf senderId) :
    (left.decryptFallback primitives senderId wire tried).1 =
        (right.decryptFallback primitives senderId wire tried).1 ∧
      Alike senderId (left.decryptFallback primitives senderId wire tried).2
        (right.decryptFallback primitives senderId wire tried).2 := by
  induction tried with
  | nil =>
    refine ⟨rfl, ?_, ?_⟩
    · simp [Worker.decryptFallback, alike.entries]
    · intro kid
      simpa [Worker.decryptFallback] using alike.windows kid
  | cons entry rest inductionHypothesis =>
    have later := inductionHypothesis (fun other member => installed other (List.mem_cons_of_mem entry member))
    simp only [Worker.decryptFallback]
    split
    · cases kept : entry.skippedKeys.lookup wire.ctr with
      | none => exact later
      | some cached =>
        dsimp only
        cases opens : Worker.openFrame primitives senderId wire entry.baseSalt cached with
        | none => exact later
        | some plaintext => exact ⟨rfl, alike.used sound (installed entry List.mem_cons_self)⟩
    · exact later

/-- Alike receivers emit the same for a frame that was taken apart, and stay alike.
Where the windows disagree about the counter, it is spent and both drop the frame. -/
theorem decryptWire_alike (alike : Alike senderId left right)
    (leftSound : Sound primitives keys senderId left) (rightSound : Sound primitives keys senderId right)
    (wire : WireFrame) :
    (left.decryptWire primitives senderId wire).1 = (right.decryptWire primitives senderId wire).1 ∧
      Alike senderId (left.decryptWire primitives senderId wire).2
        (right.decryptWire primitives senderId wire).2 := by
  cases found : (left.entriesOf senderId).find? (fun held => held.keyId % 256 == wire.kid) with
  | none =>
    have rightFound := found
    rw [← alike.entries] at rightFound
    unfold Worker.decryptWire
    simp only [found, rightFound]
    rw [alike.entries]
    exact decryptFallback_alike alike leftSound wire _ (fun _ place => List.mem_reverse.mp place)
  | some entry =>
    have rightFound := found
    rw [← alike.entries] at rightFound
    by_cases past : entry.Past wire.ctr
    · obtain ⟨leftNone, leftEntries, leftWindows⟩ := decryptWire_spent leftSound ⟨entry, found, past⟩
      obtain ⟨rightNone, rightEntries, rightWindows⟩ :=
        decryptWire_spent rightSound ⟨entry, rightFound, past⟩
      refine ⟨leftNone.trans rightNone.symm, ?_, ?_⟩
      · rw [leftEntries, rightEntries, alike.entries]
      · intro kid
        rw [leftEntries, leftWindows, rightWindows]
        by_cases here : kid = wire.kid
        · subst here
          rw [if_pos rfl, if_pos rfl]
          exact ((alike.windows wire.kid).settle wire.ctr).1
        · rw [if_neg here, if_neg here]
          exact alike.windows kid
    · have unspent : ¬ Spent (left.entriesOf senderId) wire.kid wire.ctr := by
        rintro ⟨other, named, spent⟩
        rw [found] at named
        exact past (Option.some.inj named ▸ spent)
      have same := ((alike.windows wire.kid).settle wire.ctr).2 unspent
      cases leftTried : Window.check replayWindowSize
          (left.replayWindows.lookup (senderId, wire.kid)) wire.ctr with
      | none =>
        rw [leftTried] at same
        have rightTried : Window.check replayWindowSize
            (right.replayWindows.lookup (senderId, wire.kid)) wire.ctr = none := by
          rw [← Option.not_isSome_iff_eq_none, ← same]
          decide
        rw [Worker.decryptWire_refused found leftTried, Worker.decryptWire_refused rightFound rightTried]
        exact ⟨rfl, alike⟩
      | some leftWindow =>
        rw [leftTried] at same
        obtain ⟨rightWindow, rightTried⟩ := Option.isSome_iff_exists.mp same.symm
        have after := alike.derived leftSound found leftTried rightTried
        rw [Worker.decryptWire_accepted found leftTried,
          Worker.decryptWire_accepted rightFound rightTried]
        cases (getDecryptionKey primitives entry wire.ctr).1 with
        | none => exact ⟨rfl, after⟩
        | some messageKey =>
          dsimp only
          cases Worker.openFrame primitives senderId wire entry.baseSalt messageKey with
          | some plaintext => exact ⟨rfl, after⟩
          | none =>
            obtain ⟨rawKey, _, belongs⟩ := leftSound.belongs entry (found_entry found).1
            dsimp only
            rw [alike.entries]
            exact decryptFallback_alike after (derived_sound leftSound found leftTried) wire _
              (others_installed left belongs)

/-- Alike receivers emit the same for a frame and stay alike. -/
theorem decryptFrame_alike (alike : Alike senderId left right)
    (leftSound : Sound primitives keys senderId left) (rightSound : Sound primitives keys senderId right)
    (data : List UInt8) :
    (left.decryptFrame primitives senderId data).1 = (right.decryptFrame primitives senderId data).1 ∧
      Alike senderId (left.decryptFrame primitives senderId data).2
        (right.decryptFrame primitives senderId data).2 := by
  unfold Worker.decryptFrame
  rw [alike.entries]
  split
  · refine ⟨rfl, by simp [alike.entries], ?_⟩
    intro kid
    simpa using alike.windows kid
  · cases Worker.readFrame data with
    | none => exact ⟨rfl, alike⟩
    | some wire =>
      exact decryptWire_alike alike leftSound rightSound wire

end Alike

section Forged

variable {Raw Chain Key : Type} (primitives : Primitives Raw Chain Key)

/-- A frame that no key of the sender produced: its ciphertext is none that a key
of the sender gives at the counter and under the headers that the frame carries. -/
def Forged (keys : Raw → Nat → Prop) (senderId : String) (data : List UInt8) : Prop :=
  ∀ wire, Worker.readFrame data = some wire → ∀ rawKey keyId, keys rawKey keyId → ∀ plaintext,
    wire.ciphertext ≠ primitives.encrypt (messageKeyAt primitives rawKey keyId wire.ctr)
      (computeNonce (primitives.deriveSalt rawKey keyId) wire.ctr)
      (buildAAD senderId wire.codecHeader wire.e2eeHeader) plaintext

/-- The frame cannot touch a counter that still matters: it cannot be taken apart,
or no entry has its key identifier, or the window refuses its counter, or the
entry is past the counter and has kept no key for it. -/
def Untouching (worker : Worker Chain Key) (senderId : String) (data : List UInt8) : Prop :=
  ∀ wire entry, Worker.readFrame data = some wire →
    (worker.entriesOf senderId).find? (fun held => held.keyId % 256 == wire.kid) = some entry →
    Window.check replayWindowSize (worker.replayWindows.lookup (senderId, wire.kid)) wire.ctr = none ∨
      entry.Past wire.ctr

/-- What the receiver emits for these frames of the sender, one after the other. -/
def emitted (senderId : String) : Worker Chain Key → List (List UInt8) → List (Option (List UInt8))
  | _, [] => []
  | worker, data :: rest =>
    (worker.decryptFrame primitives senderId data).1 ::
      emitted senderId (worker.decryptFrame primitives senderId data).2 rest

variable {primitives} {keys : Raw → Nat → Prop} {senderId : String} {worker left right : Worker Chain Key}
  {data : List UInt8}

/-- No key of the sender opens a forged frame. -/
theorem openFrame_forged (ideal : primitives.Ideal) (forged : Forged primitives keys senderId data)
    {wire : WireFrame} (read : Worker.readFrame data = some wire) {rawKey : Raw} {keyId : Nat}
    (known : keys rawKey keyId) :
    Worker.openFrame primitives senderId wire (primitives.deriveSalt rawKey keyId)
      (messageKeyAt primitives rawKey keyId wire.ctr) = none := by
  cases opened : Worker.openFrame primitives senderId wire (primitives.deriveSalt rawKey keyId)
      (messageKeyAt primitives rawKey keyId wire.ctr) with
  | none => rfl
  | some plaintext =>
    exact absurd ((ideal.opens _ _ _ _ _).mp opened) (forged wire read rawKey keyId known plaintext)

/-- No skipped key of an installed entry opens a forged frame. -/
theorem fallback_forged (ideal : primitives.Ideal) (sound : Sound primitives keys senderId worker)
    (forged : Forged primitives keys senderId data) {wire : WireFrame}
    (read : Worker.readFrame data = some wire) {tried : List (ChainEntry Chain Key)}
    (installed : ∀ entry ∈ tried, entry ∈ worker.entriesOf senderId)
    {result : Option (List UInt8) × Worker Chain Key}
    (outcome : Worker.FallbackOutcome primitives worker senderId wire tried result) :
    result = (none, worker.notifyNotReady .decrypt senderId) := by
  cases outcome with
  | dropped => rfl
  | opened entry cached plaintext member below kept opens =>
    obtain ⟨rawKey, known, belongs⟩ := sound.belongs entry (installed entry member)
    obtain ⟨_, same⟩ := belongs.skipped _ (Ordered.lookup_eq_some.mp kept)
    dsimp only at same
    rw [same, belongs.salt, openFrame_forged ideal forged read known] at opens
    cases opens

/-- The key that an entry gives for a counter is the counter's own. -/
theorem given_key {entry : ChainEntry Chain Key} {rawKey : Raw} {ctr : Nat} {messageKey : Key}
    (belongs : entry.Belongs primitives rawKey)
    (given : (getDecryptionKey primitives entry ctr).1 = some messageKey) :
    messageKey = messageKeyAt primitives rawKey entry.keyId ctr := by
  have outcome := getDecryptionKey_outcome belongs ctr
  generalize getDecryptionKey primitives entry ctr = result at outcome given
  cases outcome with
  | cached found below => exact (Option.some.inj given).symm
  | passed absent below => cases given
  | far beyond => cases given
  | reached kept ahead near origin recent => exact (Option.some.inj given).symm

/-- A forged frame is never emitted. -/
theorem decryptFrame_forged (ideal : primitives.Ideal) (sound : Sound primitives keys senderId worker)
    (forged : Forged primitives keys senderId data) :
    (worker.decryptFrame primitives senderId data).1 = none := by
  have outcome := worker.decryptFrame_outcome primitives senderId data
  generalize worker.decryptFrame primitives senderId data = result at outcome
  cases outcome with
  | keyless missing => rfl
  | malformed unread => rfl
  | refused wire entry read found refuses => rfl
  | withheld wire entry window read found accepts none_given => rfl
  | opened wire entry window messageKey plaintext read found accepts given opens =>
    obtain ⟨rawKey, known, belongs⟩ := sound.belongs entry (found_entry found).1
    rw [given_key belongs given, belongs.salt, openFrame_forged ideal forged read known] at opens
    cases opens
  | fellBack wire entry window messageKey result read found accepts given sealed fallback =>
    obtain ⟨rawKey, _, belongs⟩ := sound.belongs entry (found_entry found).1
    rw [fallback_forged ideal (derived_sound sound found accepts) forged read
      (others_installed worker belongs) fallback]
  | unmatched wire result read missing fallback =>
    rw [fallback_forged ideal sound forged read (fun _ place => List.mem_reverse.mp place) fallback]

/-- A forged frame that cannot touch a counter that still matters leaves an alike
receiver behind: it records at most a spent counter that the window has reached. -/
theorem untouching_alike (ideal : primitives.Ideal) (sound : Sound primitives keys senderId worker)
    (forged : Forged primitives keys senderId data) (untouching : Untouching worker senderId data) :
    Alike senderId worker (worker.decryptFrame primitives senderId data).2 := by
  have alike : ∀ after : Worker Chain Key, after.entriesOf senderId = worker.entriesOf senderId →
      after.replayWindows = worker.replayWindows → Alike senderId worker after := by
    intro after entries windows
    refine ⟨entries, fun kid => ?_⟩
    rw [windows]
    exact WindowAlike.refl _ _
  have outcome := worker.decryptFrame_outcome primitives senderId data
  generalize decrypted : worker.decryptFrame primitives senderId data = result at outcome
  cases outcome with
  | keyless missing => exact alike _ (by simp) (by simp)
  | malformed unread => exact alike _ rfl rfl
  | refused wire entry read found refuses => exact alike _ rfl rfl
  | withheld wire entry window read found accepts none_given =>
    obtain ⟨member, kid⟩ := found_entry found
    rcases untouching wire entry read found with refused | past
    · rw [accepts] at refused
      cases refused
    · have spent : Spent (worker.entriesOf senderId) wire.kid wire.ctr := ⟨entry, found, past⟩
      obtain ⟨_, entries, windows⟩ := decryptWire_spent sound spent
      have whole : worker.decryptWire primitives senderId wire =
          (none, worker.derived primitives senderId wire entry window) := by
        rw [Worker.decryptWire_accepted found accepts, none_given]
      rw [whole] at entries windows
      refine ⟨entries, fun identifier => ?_⟩
      rw [windows]
      split
      · next here =>
        subst here
        have started := sound.behind entry member
        rw [kid] at started
        apply WindowAlike.record spent
        · intro missing
          rcases started with start | ⟨stored, known, _⟩
          · have below := past.1
            omega
          · rw [missing] at known
            cases known
        · intro stored known
          have below := past.1
          rcases started with start | ⟨held, present, reach⟩
          · omega
          · obtain rfl : stored = held := Option.some.inj (known.symm.trans present)
            omega
      · exact WindowAlike.refl _ _
  | opened wire entry window messageKey plaintext read found accepts given opens =>
    have none_emitted := decryptFrame_forged ideal sound forged
    rw [decrypted] at none_emitted
    cases none_emitted
  | fellBack wire entry window messageKey result read found accepts given sealed fallback =>
    rcases untouching wire entry read found with refused | past
    · rw [accepts] at refused
      cases refused
    · rw [getDecryptionKey_of_past past] at given
      cases given
  | unmatched wire result read missing fallback =>
    rw [fallback_forged ideal sound forged read (fun _ place => List.mem_reverse.mp place) fallback]
    exact alike _ (by simp) (by simp)

/-- Alike receivers emit the same from then on. The induction is on the frames
still to come. -/
theorem emitted_alike (frames : List (List UInt8)) (alike : Alike senderId left right)
    (leftSound : Sound primitives keys senderId left) (rightSound : Sound primitives keys senderId right) :
    emitted primitives senderId left frames = emitted primitives senderId right frames := by
  induction frames generalizing left right with
  | nil => rfl
  | cons data rest inductionHypothesis =>
    obtain ⟨same, later⟩ := decryptFrame_alike alike leftSound rightSound data
    rw [emitted, emitted, same, inductionHypothesis later (decryptFrame_sound leftSound data)
      (decryptFrame_sound rightSound data)]

/-- When a forged frame changes nothing at the receiver. In every state that
messages and frames reach, with no key but the sender's installed for the sender,
a frame that no key of the sender produced is not emitted; and if it cannot touch
a counter that still matters, then every sequence of frames of the sender that
comes after it is emitted as if it had never arrived.

A forged frame fails authentication under each key that is tried, and what it still moves is
the chain of the one entry it names. Two workers that agree on the counters that matter emit
the same from then on. -/
theorem forged_frame_harmless (ideal : primitives.Ideal)
    (reached : Reaches (Worker.step primitives) (Receives keys senderId) Worker.fresh worker)
    (forged : Forged primitives keys senderId data) :
    (worker.decryptFrame primitives senderId data).1 = none ∧
      (Untouching worker senderId data → ∀ frames,
        emitted primitives senderId (worker.decryptFrame primitives senderId data).2 frames =
          emitted primitives senderId worker frames) := by
  have sound := reached_sound reached
  refine ⟨decryptFrame_forged ideal sound forged, fun untouching frames => ?_⟩
  exact (emitted_alike frames (untouching_alike ideal sound forged untouching) sound
    (decryptFrame_sound sound data)).symm

/-- The counter of a frame has four bytes. -/
theorem readFrame_counter {wire : WireFrame} (read : Worker.readFrame data = some wire) :
    wire.ctr < 4294967296 := by
  unfold Worker.readFrame at read
  split at read
  · cases read
  · dsimp only at read
    split at read
    · cases read
    · next room =>
      obtain rfl := Option.some.inj read
      have bytes : ((((data.drop (data.getLast?.getD 0 &&& 0x7f).toNat).take e2eeHeaderLength).drop
          headerKidLength).length = 4) := by
        rw [List.length_drop, List.length_take, List.length_drop]
        unfold e2eeHeaderLength headerCtrLength headerKidLength trailerLength at *
        omega
      exact BigEndian.decode_lt bytes

/-- A frame of a sender with a key is decrypted once it is taken apart. -/
theorem decryptFrame_of_read {wire : WireFrame} {entry : ChainEntry Chain Key}
    (read : Worker.readFrame data = some wire) (member : entry ∈ worker.entriesOf senderId) :
    worker.decryptFrame primitives senderId data = worker.decryptWire primitives senderId wire := by
  have present : (worker.entriesOf senderId).isEmpty = false := by
    rw [List.isEmpty_eq_false_iff]
    exact List.ne_nil_of_mem member
  unfold Worker.decryptFrame
  rw [present, read]
  rfl

/-- A forged frame whose counter the window accepts and the entry still has a key
for silences the sender: the genuine frame of that counter, whatever it carries,
would have been emitted and is not emitted any more. -/
theorem forged_frame_silences (ideal : primitives.Ideal)
    (reached : Reaches (Worker.step primitives) (Receives keys senderId) Worker.fresh worker)
    {wire : WireFrame} {entry : ChainEntry Chain Key} {window : ReplayWindow} {messageKey : Key}
    (read : Worker.readFrame data = some wire)
    (found : (worker.entriesOf senderId).find? (fun held => held.keyId % 256 == wire.kid) = some entry)
    (accepts : Window.check replayWindowSize
      (worker.replayWindows.lookup (senderId, wire.kid)) wire.ctr = some window)
    (given : (getDecryptionKey primitives entry wire.ctr).1 = some messageKey) :
    ∃ rawKey, keys rawKey entry.keyId ∧ ∀ payload,
      (worker.decryptFrame primitives senderId
          (wireBytes primitives senderId rawKey entry.keyId wire.ctr [] payload)).1 = some payload ∧
      ((worker.derived primitives senderId wire entry window).decryptFrame primitives senderId
          (wireBytes primitives senderId rawKey entry.keyId wire.ctr [] payload)).1 = none := by
  have sound := reached_sound reached
  obtain ⟨member, kid⟩ := found_entry found
  obtain ⟨rawKey, known, belongs⟩ := sound.belongs entry member
  obtain ⟨_, same⟩ := getDecryptionKey_belongs belongs wire.ctr
  refine ⟨rawKey, known, fun payload => ?_⟩
  have genuine := readFrame_wireBytes ideal senderId rawKey entry.keyId wire.ctr [] payload
    (by decide) (readFrame_counter read)
  have stored : (getDecryptionKey primitives entry wire.ctr).2 ∈
      (worker.derived primitives senderId wire entry window).entriesOf senderId := by
    rw [Worker.entriesOf_derived, if_pos rfl]
    exact List.mem_map.mpr ⟨entry, member, if_pos same.symm⟩
  constructor
  · rw [decryptFrame_of_read genuine member,
      Worker.decryptWire_accepted (by rw [kid]; exact found) (by rw [kid]; exact accepts), given]
    dsimp only
    rw [given_key belongs given, belongs.salt]
    have opens : Worker.openFrame primitives senderId {
        codecHeader := []
        kid := entry.keyId % 256
        ctr := wire.ctr
        e2eeHeader := e2eeHeaderOf entry.keyId wire.ctr
        ciphertext := sealed primitives senderId rawKey entry.keyId wire.ctr [] payload }
        (primitives.deriveSalt rawKey entry.keyId)
        (messageKeyAt primitives rawKey entry.keyId wire.ctr) = some payload :=
      (ideal.opens _ _ _ _ _).mpr rfl
    rw [opens]
    rfl
  · obtain ⟨other, named⟩ : ∃ other, ((worker.derived primitives senderId wire entry window).entriesOf
        senderId).find? (fun held => held.keyId % 256 == entry.keyId % 256) = some other := by
      apply Option.isSome_iff_exists.mp
      rw [List.find?_isSome]
      exact ⟨_, stored, by rw [same]; exact beq_self_eq_true _⟩
    rw [decryptFrame_of_read genuine stored, Worker.decryptWire_refused named]
    rw [kid, Worker.replayWindows_derived, if_pos rfl]
    exact Window.check_again _ accepts

end Forged

section Sample

/-- The one key of the sample sender. -/
def sampleKeys (rawKey keyId : Nat) : Prop := rawKey = 9 ∧ keyId = 7

/-- Sixteen zero bytes as a frame of that key and counter one. -/
def forgedSample : List UInt8 := [7, 0, 0, 0, 1] ++ List.replicate 16 0 ++ [0]

/-- The first frame that the sample sender really sends. -/
def genuineSample : List UInt8 :=
  sentFrame (encryptAll samplePrimitives "alice" sampleWorker sampleFrames).1 1

/-- The bytes of the forged frame read as a frame with counter 1. -/
theorem forgedSample_read : Worker.readFrame forgedSample = some {
    codecHeader := [], kid := 7, ctr := 1, e2eeHeader := [7, 0, 0, 0, 1]
    ciphertext := List.replicate 16 0 } := by
  decide +kernel

/-- The forged frame was sealed by nobody. -/
theorem forgedSample_forged : Forged samplePrimitives sampleKeys "alice" forgedSample := by
  rintro wire read rawKey keyId ⟨rfl, rfl⟩ plaintext produced
  obtain rfl := Option.some.inj (forgedSample_read.symm.trans read)
  have opened := (samplePrimitives_ideal.opens _ _ _ _ _).mpr produced
  have closed : samplePrimitives.decrypt (messageKeyAt samplePrimitives 9 7 1)
      (computeNonce (samplePrimitives.deriveSalt 9 7) 1) (buildAAD "alice" [] [7, 0, 0, 0, 1])
      (List.replicate 16 0) = none := by
    decide +kernel
  rw [closed] at opened
  cases opened

/-- The receiver of the sample is reached. -/
theorem sampleWorker_reached : Reaches (Worker.step samplePrimitives) (Receives sampleKeys "alice")
    Worker.fresh sampleWorker := by
  have own : Receives sampleKeys "alice" (Worker.fresh : Worker SampleKey SampleKey)
      (.message (.setKey "alice" 7 9)) := fun _ => ⟨rfl, rfl⟩
  exact .next .start own rfl

/-- One forged frame silences a genuine one: the frame that the sender encrypts
under the same counter is emitted by the receiver, and is not emitted any more
once the forged frame has arrived. -/
theorem forged_frame_not_harmless :
    Reaches (Worker.step samplePrimitives) (Receives sampleKeys "alice") Worker.fresh sampleWorker ∧
      Forged samplePrimitives sampleKeys "alice" forgedSample ∧
      emitted samplePrimitives "alice" sampleWorker [genuineSample] = [some [1, 2]] ∧
      emitted samplePrimitives "alice"
        (sampleWorker.decryptFrame samplePrimitives "alice" forgedSample).2 [genuineSample] = [none] :=
  ⟨sampleWorker_reached, forgedSample_forged, by decide +kernel, by decide +kernel⟩

/-- After the genuine frame, the window refuses the same forged frame, and the next
genuine frame is emitted. -/
theorem forged_frame_harmless_late :
    emitted samplePrimitives "alice"
      ((sampleWorker.decryptFrame samplePrimitives "alice" genuineSample).2.decryptFrame
        samplePrimitives "alice" forgedSample).2
      [sentFrame (encryptAll samplePrimitives "alice" sampleWorker sampleFrames).1 2] = [some [3]] := by
  have own : Receives sampleKeys "alice" sampleWorker (.decrypts "alice" genuineSample) := trivial
  have reached : Reaches (Worker.step samplePrimitives) (Receives sampleKeys "alice") Worker.fresh
      (sampleWorker.decryptFrame samplePrimitives "alice" genuineSample).2 :=
    .next sampleWorker_reached own rfl
  have untouching : Untouching (sampleWorker.decryptFrame samplePrimitives "alice" genuineSample).2
      "alice" forgedSample := by
    intro wire entry read _
    obtain rfl := Option.some.inj (forgedSample_read.symm.trans read)
    exact .inl (by decide +kernel)
  rw [(forged_frame_harmless samplePrimitives_ideal reached forgedSample_forged).2 untouching]
  decide +kernel

end Sample

end Seameet.E2ee
