import Seameet.E2ee.Renewal

/-!
# After a burst of loss

A receiver follows a chain over a limited number of missing frames. When more are
missing, the entry gives no key and stays where it is, so the next frame is farther
away still. The counter is recorded all the same, the frame is dropped without a
word, and nothing ever asks the sender for its key again.

The invariant of the locked receiver speaks of all counters to come, also of those
that start again at zero when the four bytes are used up: they are behind the window
or recorded in it.
-/

namespace Seameet.E2ee

open Library

section Receiver

variable {Raw Chain Key : Type} (primitives : Primitives Raw Chain Key)

/-- A frame of the sender with its counter, or something else at the receiver. -/
abbrev Delivery (Raw : Type) := (Nat × Sent) ⊕ WorkerEvent Raw

/-- The receiver after these deliveries, in any order of the counters. -/
def hear (senderId : String) (rawKey : Raw) (keyId : Nat) :
    Worker Chain Key → List (Delivery Raw) → Worker Chain Key
  | worker, [] => worker
  | worker, .inl (ctr, item) :: rest =>
    hear senderId rawKey keyId (worker.decryptFrame primitives senderId
      (wireOf primitives senderId rawKey keyId ctr item)).2 rest
  | worker, .inr event :: rest =>
    hear senderId rawKey keyId ((worker.step primitives event).getD worker) rest

/-- The receiver after an exchange. -/
def exchanged (senderId : String) :
    Worker Chain Key → Worker Chain Key → List (Arrival Raw) → Worker Chain Key
  | _, receiver, [] => receiver
  | sender, receiver, .inl item :: rest =>
    let sealed := sender.encryptFrame primitives item.1 senderId item.2
    match sealed.1 with
    | none => exchanged senderId sealed.2 receiver rest
    | some encrypted =>
      exchanged senderId sealed.2 (receiver.decryptFrame primitives senderId encrypted.output).2 rest
  | sender, receiver, .inr event :: rest =>
    exchanged senderId sender ((receiver.step primitives event).getD receiver) rest

/-- Something that is not about the sender and is none of the sender's frames. -/
def Quiet (senderId : String) (event : WorkerEvent Raw) : Prop :=
  Elsewhere senderId event ∧ ∀ data, event ≠ .decrypts senderId data

/-- The main thread has been told in between that the sender's frames are dropped. -/
def Notified (senderId : String) (before after : Worker Chain Key) : Prop :=
  ∃ more, after.posted = before.posted ++ more ∧ (Operation.decrypt, senderId) ∈ more

/-- How many frames were dropped before the first one that was emitted. -/
def droppedFirst (results : List (Sent × Option (List UInt8))) : Nat :=
  (results.takeWhile (fun result => result.2.isNone)).length

/-- The receiver follows the sender again after at most so many dropped frames, or
reports them. -/
def Recovers (senderId : String) (bound : Nat) (sender receiver : Worker Chain Key)
    (arrivals : List (Arrival Raw)) : Prop :=
  droppedFirst (exchange primitives senderId sender receiver arrivals) ≤ bound ∨
    Notified senderId receiver (exchanged primitives senderId sender receiver arrivals)

/-- The receiver's one entry follows a frame with this counter. -/
def Worker.Reachable (worker : Worker Chain Key) (senderId : String) (ctr : Nat) : Prop :=
  ∃ entry, worker.entriesOf senderId = [entry] ∧ ctr - entry.nextCtr ≤ entry.skipLimit

/-- The receiver's one entry has not moved past the counters heard, nor has its
window. -/
structure Heard (senderId : String) (rawKey : Raw) (keyId heard : Nat) (worker : Worker Chain Key) :
    Prop where
  entry : ∃ entry, worker.entriesOf senderId = [entry] ∧ entry.keyId = keyId ∧
    entry.Belongs primitives rawKey ∧ entry.nextCtr ≤ heard + 1
  window : ∀ window, worker.replayWindows.lookup (senderId, keyId % 256) = some window →
    window.highest ≤ heard

variable {primitives} {senderId : String} {rawKey : Raw} {keyId heard ctr : Nat}
  {worker after : Worker Chain Key} {entry : ChainEntry Chain Key} {window : ReplayWindow}

/-- An accepted counter is the window's end when it is above the old one. -/
theorem check_highest {old : Option ReplayWindow} {bound : Nat}
    (accepted : Window.check replayWindowSize old ctr = some window)
    (below : ∀ earlier, old = some earlier → earlier.highest ≤ bound) (small : ctr ≤ bound) :
    window.highest ≤ bound := by
  cases old with
  | none =>
    obtain rfl := Option.some.inj accepted
    exact small
  | some earlier =>
    rw [(Window.check_marks accepted).1]
    exact Nat.max_le.mpr ⟨below earlier rfl, small⟩

/-- What speaks of the sender's entries and windows survives a quiet event. -/
theorem Heard.quiet (followed : Heard primitives senderId rawKey keyId heard worker)
    {event : WorkerEvent Raw} (quiet : Quiet senderId event)
    (stepped : worker.step primitives event = some after) :
    Heard primitives senderId rawKey keyId heard after := by
  obtain ⟨entries, windows⟩ := elsewhere_frame quiet.1 quiet.2 stepped
  refine ⟨by rw [entries]; exact followed.entry, ?_⟩
  rw [windows]
  exact followed.window

/-- Asking the one entry for a heard counter moves neither it nor its window past the
counters heard. -/
theorem Heard.derived (followed : Heard primitives senderId rawKey keyId heard worker)
    (single : worker.entriesOf senderId = [entry]) {wire : WireFrame}
    (kid : wire.kid = keyId % 256) (small : wire.ctr ≤ heard)
    (accepted : Window.check replayWindowSize
      (worker.replayWindows.lookup (senderId, wire.kid)) wire.ctr = some window) :
    Heard primitives senderId rawKey keyId heard
      (worker.derived primitives senderId wire entry window) := by
  obtain ⟨found, there, named, belongs, below⟩ := followed.entry
  obtain rfl : found = entry := by
    rw [there] at single
    exact List.head_eq_of_cons_eq single
  obtain ⟨later, same⟩ := getDecryptionKey_belongs belongs wire.ctr
  constructor
  · refine ⟨_, entriesOf_derived_single there belongs wire window, same.trans named, later, ?_⟩
    have outcome := getDecryptionKey_outcome belongs wire.ctr
    generalize getDecryptionKey primitives found wire.ctr = result at outcome
    cases outcome with
    | cached kept under => exact below
    | passed absent under => exact below
    | far beyond => exact below
    | reached kept ahead near origin recent => exact Nat.succ_le_succ small
  · intro recorded stored
    rw [Worker.replayWindows_derived, if_pos (by rw [kid])] at stored
    obtain rfl := Option.some.inj stored
    rw [kid] at accepted
    exact check_highest accepted followed.window small

/-- With one entry there is no other to fall back on. -/
theorem no_others (single : worker.entriesOf senderId = [entry]) :
    ((worker.entriesOf senderId).filter (fun held => held.keyId != entry.keyId)).reverse = [] := by
  rw [single]
  simp

/-- A genuine frame, in whatever order it comes, moves neither the entry nor the
window past the counters heard. -/
theorem Heard.frame (ideal : primitives.Ideal)
    (followed : Heard primitives senderId rawKey keyId heard worker) (item : Sent) (small : ctr ≤ heard)
    (fits : heard < 4294967296) :
    Heard primitives senderId rawKey keyId heard (worker.decryptFrame primitives senderId
      (wireOf primitives senderId rawKey keyId ctr item)).2 := by
  obtain ⟨wire, read, kid, counted, -⟩ := wireOf_genuine ideal senderId rawKey keyId item
    (Nat.lt_of_le_of_lt small fits)
  obtain ⟨entry, single, named, -⟩ := followed.entry
  have place := find_single single (by rw [named]; exact kid)
  have reach : wire.ctr ≤ heard := by
    rw [counted]
    exact small
  have outcome := worker.decryptFrame_outcome primitives senderId
    (wireOf primitives senderId rawKey keyId ctr item)
  generalize worker.decryptFrame primitives senderId
    (wireOf primitives senderId rawKey keyId ctr item) = result at outcome
  cases outcome with
  | keyless missing =>
    rw [single] at missing
    cases missing
  | malformed unread => exact followed
  | refused frame other again found refuses => exact followed
  | withheld frame other window again found accepts none_given =>
    obtain rfl : wire = frame := Option.some.inj (read.symm.trans again)
    obtain rfl : entry = other := Option.some.inj (place.symm.trans found)
    exact followed.derived single kid reach accepts
  | opened frame other window messageKey plaintext again found accepts given opens =>
    obtain rfl : wire = frame := Option.some.inj (read.symm.trans again)
    obtain rfl : entry = other := Option.some.inj (place.symm.trans found)
    exact followed.derived single kid reach accepts
  | fellBack frame other window messageKey result again found accepts given sealed fallback =>
    obtain rfl : wire = frame := Option.some.inj (read.symm.trans again)
    obtain rfl : entry = other := Option.some.inj (place.symm.trans found)
    have derived := followed.derived single kid reach accepts
    rw [no_others single] at fallback
    cases fallback with
    | dropped => exact ⟨by simpa using derived.entry, by simpa using derived.window⟩
    | opened tried cached plaintext member below kept opens => cases member
  | unmatched frame result again missing fallback =>
    obtain rfl : wire = frame := Option.some.inj (read.symm.trans again)
    rw [place] at missing
    cases missing

/-- Neither the entry nor the window of a receiver is past the counters it heard. -/
theorem hear_heard (ideal : primitives.Ideal) (history : List (Delivery Raw))
    (followed : Heard primitives senderId rawKey keyId heard worker) (fits : heard < 4294967296)
    (genuine : ∀ ctr item, .inl (ctr, item) ∈ history → ctr ≤ heard)
    (quiet : ∀ event, .inr event ∈ history → Quiet senderId event) :
    Heard primitives senderId rawKey keyId heard
      (hear primitives senderId rawKey keyId worker history) := by
  induction history generalizing worker with
  | nil => exact followed
  | cons delivery rest inductionHypothesis =>
    have laterGenuine := fun ctr item (member : .inl (ctr, item) ∈ rest) =>
      genuine ctr item (List.mem_cons_of_mem delivery member)
    have laterQuiet := fun event (member : .inr event ∈ rest) =>
      quiet event (List.mem_cons_of_mem delivery member)
    cases delivery with
    | inl frame =>
      exact inductionHypothesis
        (followed.frame ideal frame.2 (genuine frame.1 frame.2 List.mem_cons_self) fits)
        laterGenuine laterQuiet
    | inr event =>
      obtain ⟨after, stepped⟩ : ∃ after, worker.step primitives event = some after := by
        cases event <;> exact ⟨_, rfl⟩
      rw [hear, stepped]
      exact inductionHypothesis (followed.quiet (quiet event List.mem_cons_self) stepped)
        laterGenuine laterQuiet

end Receiver

section Locked

variable {Raw Chain Key : Type} {primitives : Primitives Raw Chain Key} {senderId : String}
  {rawKey : Raw} {keyId heard lost sent next : Nat} {worker sender receiver after : Worker Chain Key}
  {entry : ChainEntry Chain Key} {window : ReplayWindow}

/-- A counter at or above the entry's next one is given a key when it is near. -/
theorem given_near (belongs : entry.Belongs primitives rawKey) {ctr : Nat} (ahead : entry.nextCtr ≤ ctr)
    (near : ctr - entry.nextCtr ≤ entry.skipLimit) :
    (getDecryptionKey primitives entry ctr).1 =
      some (messageKeyAt primitives rawKey entry.keyId ctr) := by
  have outcome := getDecryptionKey_outcome belongs ctr
  generalize getDecryptionKey primitives entry ctr = result at outcome
  cases outcome with
  | cached found below => rfl
  | passed absent below => omega
  | far beyond => omega
  | reached kept above within origin recent => rfl

/-- A counter that is too far ahead is given none, and the entry stays. -/
theorem given_far (belongs : entry.Belongs primitives rawKey) {ctr : Nat}
    (far : entry.nextCtr + entry.skipLimit < ctr) :
    getDecryptionKey primitives entry ctr = (none, entry) := by
  have outcome := getDecryptionKey_outcome belongs ctr
  generalize getDecryptionKey primitives entry ctr = result at outcome
  cases outcome with
  | cached found below => omega
  | passed absent below => rfl
  | far beyond => rfl
  | reached kept ahead near origin recent => omega

/-- The first frame after a short loss is emitted. The induction is on what arrives
before it. -/
theorem near_recovers (ideal : primitives.Ideal) (arrivals : List (Arrival Raw))
    (encrypting : Encrypting primitives senderId rawKey keyId sent sender)
    (followed : Heard primitives senderId rawKey keyId sent receiver)
    (near : receiver.Reachable senderId (sent + 1)) (fits : sent + 1 < 4294967296)
    (quiet : ∀ event, .inr event ∈ arrivals → Quiet senderId event) :
    droppedFirst (exchange primitives senderId sender receiver arrivals) = 0 := by
  induction arrivals generalizing receiver with
  | nil => rfl
  | cons arrival rest inductionHypothesis =>
    have laterQuiet := fun event (member : .inr event ∈ rest) =>
      quiet event (List.mem_cons_of_mem arrival member)
    cases arrival with
    | inr event =>
      obtain ⟨after, stepped⟩ : ∃ after, receiver.step primitives event = some after := by
        cases event <;> exact ⟨_, rfl⟩
      have silent := quiet event List.mem_cons_self
      have entries := (elsewhere_frame silent.1 silent.2 stepped).1
      rw [exchange, stepped, Option.getD_some]
      refine inductionHypothesis (followed.quiet silent stepped) ?_ laterQuiet
      unfold Worker.Reachable
      rw [entries]
      exact near
    | inl item =>
      have encrypted := encryptFrame_encrypting encrypting item
      by_cases room : item.clear ≤ item.1.data.length
      · rw [if_pos room] at encrypted
        obtain ⟨frame, made, wire⟩ := Option.map_eq_some_iff.mp encrypted.1
        obtain ⟨taken, read, genuine⟩ := wireOf_genuine ideal senderId rawKey keyId item fits
        obtain ⟨entry, single, rfl, belongs, below⟩ := followed.entry
        obtain ⟨found, there, within⟩ := near
        obtain rfl : found = entry := by
          rw [there] at single
          exact List.head_eq_of_cons_eq single
        obtain ⟨window, accepted⟩ : ∃ window, Window.check replayWindowSize
            (receiver.replayWindows.lookup (senderId, found.keyId % 256)) (sent + 1) = some window := by
          rw [← Option.isSome_iff_exists]
          cases stored : receiver.replayWindows.lookup (senderId, found.keyId % 256) with
          | none => rfl
          | some window =>
            rw [Window.check_isSome]
            exact .inl (Nat.lt_succ_of_le (followed.window window stored))
        have given := given_near belongs (by omega) within
        have emitted := decryptWire_emits genuine there belongs accepted given
        have member : found ∈ receiver.entriesOf senderId := by
          rw [there]
          exact List.mem_cons_self
        rw [exchange, made]
        dsimp only
        rw [wire, decryptFrame_of_read read member, emitted]
        rfl
      · rw [if_neg room] at encrypted
        rw [exchange, encrypted]
        exact inductionHypothesis followed near laterQuiet

/-- A receiver that no counter from `next` on can move. The window is still below
`next` before the first of these frames has come; after it, the window's end is the
last counter that fits the header, and every counter from `next` on is recorded. -/
structure Locked (primitives : Primitives Raw Chain Key) (senderId : String) (rawKey : Raw)
    (keyId next sent : Nat) (worker : Worker Chain Key) : Prop where
  entry : ∃ entry, worker.entriesOf senderId = [entry] ∧ entry.keyId = keyId ∧
    entry.Belongs primitives rawKey ∧ entry.nextCtr + entry.skipLimit < next
  due : next ≤ sent + 1
  window : (sent + 1 = next ∧ ∀ window,
      worker.replayWindows.lookup (senderId, keyId % 256) = some window → window.highest < next) ∨
    next ≤ sent ∧ ∃ window, worker.replayWindows.lookup (senderId, keyId % 256) = some window ∧
      window.highest = min sent 4294967295 ∧
      ∀ ctr, next ≤ ctr → ctr ≤ window.highest → window.Covers replayWindowSize ctr →
        window.Marks ctr

/-- A locked receiver's window accepts the next counter while it fits the header, and
records it beside the ones before it. -/
theorem recorded_next {recorded : Option ReplayWindow}
    (before : (sent + 1 = next ∧ ∀ window, recorded = some window → window.highest < next) ∨
      next ≤ sent ∧ ∃ window, recorded = some window ∧ window.highest = min sent 4294967295 ∧
        ∀ ctr, next ≤ ctr → ctr ≤ window.highest → window.Covers replayWindowSize ctr →
          window.Marks ctr)
    (fits : sent + 1 < 4294967296) :
    ∃ window, Window.check replayWindowSize recorded (sent + 1) = some window ∧
      window.highest = sent + 1 ∧
      ∀ ctr, next ≤ ctr → ctr ≤ window.highest → window.Covers replayWindowSize ctr →
        window.Marks ctr := by
  cases recorded with
  | none =>
    obtain ⟨first, _⟩ | ⟨_, window, impossible, _⟩ := before
    · refine ⟨_, rfl, rfl, ?_⟩
      intro ctr above below _
      dsimp only at below
      exact Window.marks_fresh.mpr (by omega)
    · cases impossible
  | some old =>
    have under : old.highest < sent + 1 := by
      obtain ⟨first, below⟩ | ⟨_, window, same, highest, _⟩ := before
      · rw [first]
        exact below old rfl
      · obtain rfl := Option.some.inj same
        omega
    obtain ⟨window, accepted⟩ : ∃ window,
        Window.check replayWindowSize (some old) (sent + 1) = some window := by
      rw [← Option.isSome_iff_exists, Window.check_isSome]
      exact .inl under
    obtain ⟨reach, marks⟩ := Window.check_marks accepted
    have highest : window.highest = sent + 1 := by omega
    refine ⟨window, accepted, highest, ?_⟩
    intro ctr above below covered
    rw [marks ctr covered]
    obtain ⟨first, _⟩ | ⟨_, _, same, top, earlier⟩ := before
    · exact .inl (by omega)
    · obtain rfl := Option.some.inj same
      rcases Nat.eq_or_lt_of_le below with last | lower
      · exact .inl (last.trans highest)
      · refine .inr (earlier ctr above (by omega) ?_)
        unfold Window.Covers at covered ⊢
        omega

/-- The next frame is dropped by a locked receiver, which stays locked and tells
nobody. -/
theorem Locked.frame (ideal : primitives.Ideal)
    (locked : Locked primitives senderId rawKey keyId next sent worker)
    (low : next + replayWindowSize ≤ 4294967296) (item : Sent) :
    (worker.decryptFrame primitives senderId
        (wireOf primitives senderId rawKey keyId (sent + 1) item)).1 = none ∧
      (worker.decryptFrame primitives senderId
        (wireOf primitives senderId rawKey keyId (sent + 1) item)).2.posted = worker.posted ∧
      Locked primitives senderId rawKey keyId next (sent + 1)
        (worker.decryptFrame primitives senderId
          (wireOf primitives senderId rawKey keyId (sent + 1) item)).2 := by
  obtain ⟨wire, read, kid, counted⟩ := wireOf_read ideal senderId rawKey keyId (sent + 1) item
  obtain ⟨⟨entry, single, rfl, belongs, far⟩, due, recorded⟩ := locked
  have member : entry ∈ worker.entriesOf senderId := by
    rw [single]
    exact List.mem_cons_self
  have found := find_single single kid
  rw [decryptFrame_of_read read member]
  rw [← kid] at recorded
  by_cases fits : sent + 1 < 4294967296
  · have place : wire.ctr = sent + 1 := by
      rw [counted, Nat.mod_eq_of_lt fits]
    obtain ⟨window, accepted, highest, marks⟩ := recorded_next recorded fits
    rw [← place] at accepted
    have stays := given_far belongs (Nat.lt_of_lt_of_le far (place ▸ due))
    rw [Worker.decryptWire_accepted found accepted, stays]
    refine ⟨rfl, rfl, ⟨entry, ?_, rfl, belongs, far⟩, by omega, .inr ⟨due, window, ?_, ?_, marks⟩⟩
    · rw [entriesOf_derived_single single belongs, stays]
    · rw [Worker.replayWindows_derived, if_pos (by rw [kid])]
    · rw [highest, Nat.min_eq_left (by omega)]
  · obtain ⟨first, _⟩ | ⟨later, window, stored, highest, marks⟩ := recorded
    · unfold replayWindowSize at low
      omega
    · have small : wire.ctr < 4294967296 := readFrame_counter read
      have top : window.highest = 4294967295 := by omega
      have refused : Window.check replayWindowSize
          (worker.replayWindows.lookup (senderId, wire.kid)) wire.ctr = none := by
        rw [stored, ← Option.not_isSome_iff_eq_none, Window.check_isSome]
        rintro (above | ⟨covered, unmarked⟩)
        · omega
        · have near : next ≤ wire.ctr := by
            unfold Window.Covers at covered
            omega
          exact unmarked (marks wire.ctr near (by omega) covered)
      rw [Worker.decryptWire_refused found refused]
      refine ⟨rfl, rfl, ⟨entry, single, rfl, belongs, far⟩, by omega, .inr ⟨due, window, ?_, ?_, marks⟩⟩
      · rw [← kid]
        exact stored
      · have full : 4294967295 ≤ sent + 1 := by omega
        rw [top, Nat.min_eq_right full]

/-- A locked receiver drops as many frames as one likes, and tells nobody. The
induction is on the number of frames. -/
theorem locked_exchange (ideal : primitives.Ideal) (count : Nat) {item : Sent}
    (encrypting : Encrypting primitives senderId rawKey keyId sent sender)
    (locked : Locked primitives senderId rawKey keyId next sent receiver)
    (low : next + replayWindowSize ≤ 4294967296) (room : item.clear ≤ item.1.data.length) :
    exchange primitives senderId sender receiver (List.replicate count (.inl item)) =
        List.replicate count (item, none) ∧
      (exchanged primitives senderId sender receiver (List.replicate count (.inl item))).posted =
        receiver.posted := by
  induction count generalizing sender receiver sent with
  | zero => exact ⟨rfl, rfl⟩
  | succ count inductionHypothesis =>
    have encrypted := encryptFrame_encrypting encrypting item
    rw [if_pos room] at encrypted
    obtain ⟨output, encryptingAfter⟩ := encrypted
    obtain ⟨frame, made, wire⟩ := Option.map_eq_some_iff.mp output
    obtain ⟨dropped, silent, lockedAfter⟩ := locked.frame ideal low item
    obtain ⟨results, posted⟩ := inductionHypothesis encryptingAfter lockedAfter
    rw [List.replicate_succ, exchange, exchanged, made]
    dsimp only
    rw [wire, dropped, results, posted, silent]
    exact ⟨rfl, rfl⟩

/-- A receiver that has heard some counters has heard them among more. -/
theorem Heard.mono (followed : Heard primitives senderId rawKey keyId heard worker)
    (more : heard ≤ sent) : Heard primitives senderId rawKey keyId sent worker := by
  obtain ⟨⟨entry, single, named, belongs, below⟩, window⟩ := followed
  exact ⟨⟨entry, single, named, belongs, by omega⟩,
    fun recorded stored => Nat.le_trans (window recorded stored) more⟩

/-- A receiver whose entry does not follow the next frame is locked. -/
theorem Heard.locked (followed : Heard primitives senderId rawKey keyId sent worker)
    (far : ¬ worker.Reachable senderId (sent + 1)) :
    Locked primitives senderId rawKey keyId (sent + 1) sent worker := by
  obtain ⟨⟨entry, single, named, belongs, _⟩, below⟩ := followed
  have beyond : ¬ sent + 1 - entry.nextCtr ≤ entry.skipLimit := fun near => far ⟨entry, single, near⟩
  exact ⟨⟨entry, single, named, belongs, by omega⟩, Nat.le_refl _, .inl ⟨rfl, fun window stored =>
    Nat.lt_succ_of_le (below window stored)⟩⟩

/-- A locked receiver recovers within no number of frames: of one frame more, all
are dropped and none is reported. -/
theorem Locked.never_recovers (ideal : primitives.Ideal)
    (encrypting : Encrypting primitives senderId rawKey keyId sent sender)
    (locked : Locked primitives senderId rawKey keyId next sent receiver)
    (low : next + replayWindowSize ≤ 4294967296) (bound : Nat) :
    ¬ ∀ arrivals, (∀ event, .inr event ∈ arrivals → Quiet senderId event) →
      Recovers primitives senderId bound sender receiver arrivals := by
  intro recovers
  obtain ⟨results, posted⟩ := locked_exchange ideal (bound + 1) encrypting locked low
    (by decide : Sent.clear ({ data := [], payloadType := none }, true) ≤ 0)
  have silent : ∀ event : WorkerEvent Raw, .inr event ∈ List.replicate (bound + 1)
      (.inl ({ data := [], payloadType := none }, true) : Arrival Raw) → Quiet senderId event := by
    intro event member
    cases List.eq_of_mem_replicate member
  rcases recovers _ silent with few | ⟨more, appended, told⟩
  · rw [results, droppedFirst, List.takeWhile_replicate, if_pos Option.isNone_none,
      List.length_replicate] at few
    omega
  · rw [posted, List.self_eq_append_right] at appended
    rw [appended] at told
    cases told

/-- A receiver that starts with one key has heard nothing. -/
theorem heard_fresh {start : Worker Chain Key} (blank : start.entriesOf senderId = [])
    (unheard : start.replayWindows.lookup (senderId, keyId % 256) = none) :
    Heard primitives senderId rawKey keyId heard
      (start.receive primitives (.setKey senderId keyId rawKey)) := by
  have entries := start.entriesOf_receive primitives (.setKey senderId keyId rawKey) senderId
  dsimp only at entries
  rw [if_pos rfl, blank] at entries
  refine ⟨⟨_, entries, rfl, initChainEntry_belongs primitives rawKey keyId,
    Nat.le_add_left 1 heard⟩, ?_⟩
  intro window stored
  have kept : start.replayWindows.lookup (senderId, keyId % 256) = some window := stored
  rw [unheard] at kept
  cases kept

/-- Whatever number of dropped frames is allowed, a receiver recovers from a burst of
loss within it or through a report exactly when its entry still follows the first
frame after the burst: within 256 counters of its next one when it has decrypted a
frame since the key was set, and within 30000 when it has not. Then it drops none of
them. The receiver has been given genuine frames in any order, and `lost` frames were
lost behind them.

An entry that does not follow a frame is left where it is, so it follows the next one
still less, and the frame is dropped before anything is reported. One frame more than
is allowed shows that. -/
theorem burst_recovers_iff (ideal : primitives.Ideal) (bound : Nat) {start : Worker Chain Key}
    (blank : start.entriesOf senderId = [])
    (unheard : start.replayWindows.lookup (senderId, keyId % 256) = none)
    (history : List (Delivery Raw))
    (genuine : ∀ ctr item, .inl (ctr, item) ∈ history → ctr ≤ heard)
    (quiet : ∀ event, .inr event ∈ history → Quiet senderId event)
    (encrypting : Encrypting primitives senderId rawKey keyId (heard + lost) sender)
    (low : heard + lost + 1 + replayWindowSize ≤ 4294967296) :
    ((∀ arrivals, (∀ event, .inr event ∈ arrivals → Quiet senderId event) →
        Recovers primitives senderId bound sender (hear primitives senderId rawKey keyId
          (start.receive primitives (.setKey senderId keyId rawKey)) history) arrivals) ↔
      (hear primitives senderId rawKey keyId
        (start.receive primitives (.setKey senderId keyId rawKey)) history).Reachable senderId
          (heard + lost + 1)) ∧
      ((hear primitives senderId rawKey keyId
        (start.receive primitives (.setKey senderId keyId rawKey)) history).Reachable senderId
          (heard + lost + 1) →
        ∀ arrivals, (∀ event, .inr event ∈ arrivals → Quiet senderId event) →
          droppedFirst (exchange primitives senderId sender (hear primitives senderId rawKey keyId
            (start.receive primitives (.setKey senderId keyId rawKey)) history) arrivals) = 0) := by
  have window : (0 : Nat) < replayWindowSize := by decide
  have first : Heard primitives senderId rawKey keyId heard
      (start.receive primitives (.setKey senderId keyId rawKey)) := heard_fresh blank unheard
  have followed := (hear_heard ideal history first (by omega) genuine quiet).mono
    (Nat.le_add_right heard lost)
  have follows : (hear primitives senderId rawKey keyId
      (start.receive primitives (.setKey senderId keyId rawKey)) history).Reachable senderId
        (heard + lost + 1) →
      ∀ arrivals, (∀ event, .inr event ∈ arrivals → Quiet senderId event) →
        droppedFirst (exchange primitives senderId sender (hear primitives senderId rawKey keyId
          (start.receive primitives (.setKey senderId keyId rawKey)) history) arrivals) = 0 :=
    fun near arrivals silent => near_recovers ideal arrivals encrypting followed near (by omega) silent
  refine ⟨⟨?_, ?_⟩, follows⟩
  · intro recovers
    by_contra far
    exact (followed.locked far).never_recovers ideal encrypting low bound recovers
  · intro near arrivals silent
    refine .inl ?_
    rw [follows near arrivals silent]
    exact Nat.zero_le bound

end Locked

section Sample

/-- A sender that has encrypted as many frames under its key as one likes. -/
theorem encrypting_sample (count : Nat) :
    ∃ sender, Encrypting samplePrimitives "alice" 9 7 count sender := by
  induction count with
  | zero => exact ⟨_, encrypting_fresh samplePrimitives 9 Worker.fresh rfl⟩
  | succ count inductionHypothesis =>
    obtain ⟨sender, encrypting⟩ := inductionHypothesis
    have encrypted := encryptFrame_encrypting encrypting sampleItem
    rw [if_pos (by decide)] at encrypted
    exact ⟨_, encrypted.2⟩

/-- A receiver that has decrypted the first frame. -/
def heardSample : Worker SampleKey SampleKey :=
  hear samplePrimitives "alice" 9 7 sampleWorker [.inl (1, sampleItem)]

/-- The entry of that receiver has caught up and waits for counter 2. -/
theorem heardSample_entries :
    (heardSample.entriesOf "alice").map (fun entry => (entry.nextCtr, entry.skipLimit)) =
      [(2, 256)] := by
  decide +kernel

/-- That receiver has heard one counter. -/
theorem heardSample_heard : Heard samplePrimitives "alice" 9 7 1 heardSample := by
  have start : Heard samplePrimitives "alice" 9 7 1 sampleWorker :=
    heard_fresh rfl rfl
  refine hear_heard samplePrimitives_ideal [.inl (1, sampleItem)] start (by decide) ?_ ?_
  · intro ctr item member
    obtain ⟨rfl, rfl⟩ : ctr = 1 ∧ item = sampleItem := by simpa using member
    exact Nat.le_refl 1
  · intro event member
    simp at member

/-- After the first frame, 300 frames are lost. However many of the next ones are
delivered, in order and without loss, all of them are dropped and none is reported. -/
theorem burst_locks_out : ∃ sender, Encrypting samplePrimitives "alice" 9 7 301 sender ∧
    ¬ ∃ bound, ∀ arrivals : List (Arrival Nat),
      (∀ event, .inr event ∈ arrivals → Quiet "alice" event) →
        Recovers samplePrimitives "alice" bound sender heardSample arrivals := by
  obtain ⟨sender, encrypting⟩ := encrypting_sample 301
  refine ⟨sender, encrypting, ?_⟩
  have far : ¬ heardSample.Reachable "alice" (301 + 1) := by
    rintro ⟨entry, single, near⟩
    have entries := heardSample_entries
    rw [single] at entries
    obtain ⟨next, limit⟩ : entry.nextCtr = 2 ∧ entry.skipLimit = 256 := by simpa using entries
    omega
  rintro ⟨bound, recovers⟩
  exact ((heardSample_heard.mono (by decide)).locked far).never_recovers samplePrimitives_ideal
    encrypting (by decide) bound recovers

/-- After the loss of 200 frames, the receiver goes on with the next one. -/
theorem burst_recovers_sample : ∃ sender, Encrypting samplePrimitives "alice" 9 7 (1 + 200) sender ∧
    ∀ arrivals : List (Arrival Nat), (∀ event, .inr event ∈ arrivals → Quiet "alice" event) →
      Recovers samplePrimitives "alice" 0 sender
        (hear samplePrimitives "alice" 9 7
          (Worker.fresh.receive samplePrimitives (.setKey "alice" 7 9)) [.inl (1, sampleItem)])
        arrivals := by
  obtain ⟨sender, encrypting⟩ := encrypting_sample (1 + 200)
  refine ⟨sender, encrypting, (burst_recovers_iff samplePrimitives_ideal 0 rfl rfl _ ?_ ?_ encrypting
    (by decide)).1.mpr ?_⟩
  · intro ctr item member
    obtain ⟨rfl, rfl⟩ : ctr = 1 ∧ item = sampleItem := by simpa using member
    exact Nat.le_refl 1
  · intro event member
    simp at member
  · have entries := heardSample_entries
    obtain ⟨entry, single, same⟩ := List.map_eq_singleton_iff.mp entries
    obtain ⟨next, limit⟩ := Prod.mk.inj same
    exact ⟨entry, single, by omega⟩

end Sample

end Seameet.E2ee
