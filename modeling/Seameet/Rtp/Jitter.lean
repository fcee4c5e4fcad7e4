import Mathlib.Data.Nat.Basic
import Seameet.Library.Ordered
import Seameet.Library.Runs
import Seameet.Rtp.Packet

/-!
# The jitter buffer

Packets are pushed in arrival order and polled in sequence order. A sixteen-bit
sequence number is unwrapped to a 32-bit number by counting the wraps seen so
far; the buffer is keyed by unwrapped numbers, drops what is behind the next
number to emit, and drops the lowest keys above its capacity. A poll that finds
the next number missing declares everything up to the lowest key it holds lost.

Every number from the first one emitted up to the next one to emit is accounted
for once: it was emitted or it was declared lost, in increasing order.
-/

namespace Seameet.Rtp

open Library

/-- Events emitted by the jitter buffer. -/
inductive JitterBufferEvent where
  /-- A packet with the given sequence number was detected as lost. -/
  | packetLost (seq : UInt16)
  deriving DecidableEq, Repr

/-- Cumulative statistics for the jitter buffer. -/
structure JitterStats where
  received : Nat
  lost : Nat
  reordered : Nat
  late : Nat
  deriving DecidableEq, Repr

/-- What became of an unwrapped number. This is a record for the statements
below; the program keeps none. -/
inductive Fate where
  /-- A poll returned the packet stored under the number. -/
  | emitted (number : Nat) (packet : RtpPacket)
  /-- A poll pushed a lost event for the number. -/
  | lost (number : Nat)
  deriving DecidableEq, Repr

namespace Fate

/-- The unwrapped number that is accounted for. -/
def number : Fate → Nat
  | emitted number _ => number
  | lost number => number

/-- The packet that the poll returned. -/
def packet? : Fate → Option RtpPacket
  | emitted _ packet => some packet
  | lost _ => none

/-- The event that the poll pushed. -/
def event? : Fate → Option JitterBufferEvent
  | emitted _ _ => none
  | lost number => some (.packetLost (UInt16.ofNat number))

end Fate

/-- A 32-bit machine number keeps the remainder. -/
def u32 (number : Nat) : Nat := number % 4294967296

/-- Reorder buffer that compensates for network jitter. The last field is the
record of fates. -/
structure JitterBuffer where
  capacity : Nat
  buffer : Ordered Nat RtpPacket
  nextEmit : Option Nat
  lastPushed : Option Nat
  highSeq : Option UInt16
  cycles : Nat
  events : List JitterBufferEvent
  stats : JitterStats
  fates : List Fate

namespace JitterBuffer

/-- Creates a new jitter buffer. -/
def new (capacity : Nat) : JitterBuffer :=
  { capacity, buffer := .empty, nextEmit := none, lastPushed := none, highSeq := none, cycles := 0,
    events := [], stats := ⟨0, 0, 0, 0⟩, fates := [] }

/-- Unwraps a raw sequence number, and counts a wrap that it completes. -/
def unwrapSeq (jitter : JitterBuffer) (seq : UInt16) : Nat × JitterBuffer :=
  match jitter.highSeq with
  | none => (seq.toNat, { jitter with highSeq := some seq, cycles := 0 })
  | some high =>
    let diff := seq - high
    if diff < 0x8000 then
      let cycles := if seq < high ∧ 0 < diff then u32 (jitter.cycles + 1) else jitter.cycles
      (u32 (cycles * 0x10000 + seq.toNat), { jitter with highSeq := some seq, cycles })
    -- Behind the highest number, and numerically above it: the previous cycle.
    else if high < seq then
      (u32 ((jitter.cycles - 1) * 0x10000 + seq.toNat), jitter)
    else
      (u32 (jitter.cycles * 0x10000 + seq.toNat), jitter)

/-- Whether the number is behind the next one to emit. -/
def isLate (jitter : JitterBuffer) (unwrapped : Nat) : Bool :=
  match jitter.nextEmit with
  | some next => unwrapped < next
  | none => false

/-- Whether the number is behind the last one pushed. -/
def isReordered (jitter : JitterBuffer) (unwrapped : Nat) : Bool :=
  match jitter.lastPushed with
  | some last => unwrapped < last
  | none => false

/-- Inserts a packet into the buffer. -/
def push (jitter : JitterBuffer) (packet : RtpPacket) : JitterBuffer :=
  let (unwrapped, jitter) := jitter.unwrapSeq packet.sequenceNumber
  if jitter.isLate unwrapped then
    { jitter with stats := { jitter.stats with late := jitter.stats.late + 1 } }
  else
    let reordered :=
      if jitter.isReordered unwrapped then jitter.stats.reordered + 1 else jitter.stats.reordered
    { jitter with
      lastPushed := some unwrapped
      buffer := (jitter.buffer.insert unwrapped packet).keepHighest jitter.capacity
      stats := { jitter.stats with reordered, received := jitter.stats.received + 1 } }

/-- Polls the next in-sequence packet. The clock reading is taken and not used. -/
def poll (jitter : JitterBuffer) (_nowMs : Nat) : Option RtpPacket × JitterBuffer :=
  match jitter.buffer.first? with
  | none => (none, jitter)
  | some (firstKey, _) =>
    let next := jitter.nextEmit.getD firstKey
    let jitter := { jitter with nextEmit := some next }
    match jitter.buffer.lookup next with
    | some packet =>
      (some packet, { jitter with
        nextEmit := some (u32 (next + 1))
        buffer := jitter.buffer.erase next
        fates := jitter.fates ++ [.emitted next packet] })
    | none =>
      match jitter.buffer.first? with
      | none => (none, jitter)
      | some (earliestBuffered, packet) =>
        if earliestBuffered ≤ next then
          (some packet, { jitter with
            nextEmit := some earliestBuffered
            buffer := jitter.buffer.erase earliestBuffered
            fates := jitter.fates ++ [.emitted earliestBuffered packet] })
        else
          let gapSize := earliestBuffered - next
          if 0 < gapSize then
            let gap := (List.range gapSize).map (fun seqOffset => u32 (next + seqOffset))
            (some packet, { jitter with
              events := jitter.events ++ gap.map (fun lost => .packetLost (UInt16.ofNat lost))
              stats := { jitter.stats with lost := jitter.stats.lost + gapSize }
              nextEmit := some (u32 (earliestBuffered + 1))
              buffer := jitter.buffer.erase earliestBuffered
              fates := jitter.fates ++ gap.map .lost ++ [.emitted earliestBuffered packet] })
          else
            (none, jitter)

/-- Drains pending events from the buffer. -/
def drainEvents (jitter : JitterBuffer) : List JitterBufferEvent × JitterBuffer :=
  (jitter.events, { jitter with events := [] })

end JitterBuffer

/-- A call of the consumer. -/
inductive Call where
  | push (packet : RtpPacket)
  | poll (nowMs : Nat)
  | drainEvents

/-- The packet that a call pushes. -/
def Call.pushed? : Call → Option RtpPacket
  | .push packet => some packet
  | .poll _ => none
  | .drainEvents => none

/-- A buffer in use, with what its consumer has done and received so far. -/
structure Session where
  jitter : JitterBuffer
  pushes : Nat
  returned : List RtpPacket
  drained : List JitterBufferEvent

namespace Session

/-- A new buffer of the given capacity, not used yet. -/
def opened (capacity : Nat) : Session :=
  { jitter := .new capacity, pushes := 0, returned := [], drained := [] }

/-- One call. Every call is possible in every state. -/
def step (session : Session) : Call → Option Session
  | .push packet =>
    some { session with jitter := session.jitter.push packet, pushes := session.pushes + 1 }
  | .poll nowMs =>
    some { session with
      jitter := (session.jitter.poll nowMs).2
      returned := session.returned ++ (session.jitter.poll nowMs).1.toList }
  | .drainEvents =>
    some { session with
      jitter := session.jitter.drainEvents.2
      drained := session.drained ++ session.jitter.drainEvents.1 }

/-- The number that a pushed packet unwraps to is below the last 32-bit number. -/
def Below (session : Session) (call : Call) : Prop :=
  ∀ packet ∈ call.pushed?, (session.jitter.unwrapSeq packet.sequenceNumber).1 < 4294967295

instance (session : Session) (call : Call) : Decidable (session.Below call) :=
  inferInstanceAs (Decidable (∀ packet ∈ call.pushed?,
    (session.jitter.unwrapSeq packet.sequenceNumber).1 < 4294967295))

end Session

/-- The numbers from `first` up to `next` are accounted for, each once and in
increasing order, and the first of them by an emission. -/
structure Ledger (fates : List Fate) (first next : Nat) : Prop where
  ordered : first ≤ next
  numbers : fates.map Fate.number = List.range' first (next - first)
  opened : ∀ fate, fates.head? = some fate → ∃ packet, fate = .emitted first packet

namespace Ledger

variable {fates : List Fate} {first next : Nat}

/-- Nothing is accounted for before the first number. -/
theorem start (first : Nat) : Ledger [] first first :=
  ⟨Nat.le_refl first, by rw [Nat.sub_self]; rfl, fun _ impossible => by cases impossible⟩

/-- The record holds as many fates as there are numbers. -/
theorem count (ledger : Ledger fates first next) : fates.length = next - first := by
  rw [← List.length_map, ledger.numbers, List.length_range']

/-- The next number is emitted. -/
theorem emit (ledger : Ledger fates first next) (packet : RtpPacket) :
    Ledger (fates ++ [.emitted next packet]) first (next + 1) := by
  have ordered := ledger.ordered
  refine ⟨by omega, ?_, ?_⟩
  · have longer : next + 1 - first = next - first + 1 := by omega
    have last : first + (next - first) = next := by omega
    rw [List.map_append, ledger.numbers, longer, List.range'_1_concat, last]
    rfl
  · intro fate head
    cases known : fates with
    | nil =>
      have empty := ledger.count
      rw [known, List.length_nil] at empty
      have same : first = next := by omega
      subst same
      rw [known] at head
      exact ⟨packet, (Option.some.inj head).symm⟩
    | cons earliest rest =>
      rw [known] at head
      exact ledger.opened fate (by rw [known]; exact head)

/-- A run of numbers after an emission is declared lost. -/
theorem lose (ledger : Ledger fates first next) (begun : first < next) (gap : Nat) :
    Ledger (fates ++ (List.range gap).map (fun offset => .lost (next + offset))) first
      (next + gap) := by
  refine ⟨by omega, ?_, ?_⟩
  · have numbers : ((List.range gap).map (fun offset => Fate.lost (next + offset))).map Fate.number =
        List.range' next gap := by
      rw [List.map_map, List.range'_eq_map_range]
      rfl
    have longer : next + gap - first = next - first + gap := by omega
    have last : first + (next - first) = next := by omega
    rw [List.map_append, ledger.numbers, numbers, longer, ← List.range'_append_1, last]
  · intro fate head
    cases known : fates with
    | nil =>
      have empty := ledger.count
      rw [known, List.length_nil] at empty
      omega
    | cons earliest rest =>
      rw [known] at head
      exact ledger.opened fate (by rw [known]; exact head)

end Ledger

namespace JitterBuffer

/-- Unwrapping touches the two fields it counts with and nothing else. -/
theorem unwrapSeq_frame (jitter : JitterBuffer) (seq : UInt16) :
    ∃ highSeq cycles, (jitter.unwrapSeq seq).2 = { jitter with highSeq, cycles } := by
  unfold unwrapSeq
  cases jitter.highSeq with
  | none => exact ⟨some seq, 0, rfl⟩
  | some high =>
    dsimp only
    split
    · exact ⟨_, _, rfl⟩
    · split
      · exact ⟨jitter.highSeq, jitter.cycles, rfl⟩
      · exact ⟨jitter.highSeq, jitter.cycles, rfl⟩

/-- An unwrapped number is the sequence number plus whole cycles. -/
theorem unwrapSeq_named (jitter : JitterBuffer) (seq : UInt16) :
    (jitter.unwrapSeq seq).1 % 65536 = seq.toNat := by
  have small : seq.toNat < 65536 := seq.toNat_lt
  unfold unwrapSeq u32
  cases jitter.highSeq with
  | none => exact Nat.mod_eq_of_lt small
  | some high =>
    dsimp only
    split
    · omega
    · split
      · omega
      · omega

/-- What the buffer keeps between calls. -/
structure Sound (jitter : JitterBuffer) : Prop where
  /-- A key is below the last 32-bit number, and names the packet stored under it. -/
  keyed : ∀ entry ∈ jitter.buffer.entries,
    entry.1 < 4294967295 ∧ entry.2.sequenceNumber.toNat = entry.1 % 65536
  room : jitter.buffer.size ≤ jitter.capacity
  ahead : ∀ next, jitter.nextEmit = some next → ∀ entry ∈ jitter.buffer.entries, next ≤ entry.1
  unopened : jitter.nextEmit = none → jitter.fates = []
  ledger : ∀ next, jitter.nextEmit = some next →
    next ≤ 4294967295 ∧ ∃ first, first < next ∧ Ledger jitter.fates first next
  lost : jitter.stats.lost = (jitter.fates.filterMap Fate.event?).length
  named : ∀ number packet, .emitted number packet ∈ jitter.fates →
    packet.sequenceNumber.toNat = number % 65536

/-- A push drops the packet as late, or stores it under its unwrapped number. -/
inductive PushOutcome (jitter : JitterBuffer) (packet : RtpPacket) : JitterBuffer → Prop where
  /-- The number is behind the next one to emit. -/
  | late (highSeq : Option UInt16) (cycles : Nat) :
      PushOutcome jitter packet { jitter with
        highSeq, cycles, stats := { jitter.stats with late := jitter.stats.late + 1 } }
  /-- The packet is stored and the lowest keys above the capacity are dropped. -/
  | stored (highSeq : Option UInt16) (cycles reordered : Nat)
      (ahead : ∀ next, jitter.nextEmit = some next →
        next ≤ (jitter.unwrapSeq packet.sequenceNumber).1) :
      PushOutcome jitter packet { jitter with
        highSeq, cycles
        lastPushed := some (jitter.unwrapSeq packet.sequenceNumber).1
        buffer := (jitter.buffer.insert (jitter.unwrapSeq packet.sequenceNumber).1
          packet).keepHighest jitter.capacity
        stats := { jitter.stats with reordered, received := jitter.stats.received + 1 } }

/-- A push has one of its two outcomes. -/
theorem push_outcome (jitter : JitterBuffer) (packet : RtpPacket) :
    PushOutcome jitter packet (jitter.push packet) := by
  obtain ⟨highSeq, cycles, frame⟩ := unwrapSeq_frame jitter packet.sequenceNumber
  unfold push
  dsimp only
  rw [frame]
  split
  · exact .late highSeq cycles
  · next notLate =>
    refine .stored highSeq cycles _ ?_
    intro next known
    simp only [isLate, known, decide_eq_true_eq] at notLate
    omega

/-- A poll finds nothing, finds the next number, or declares a gap lost. -/
inductive PollOutcome (jitter : JitterBuffer) : Option RtpPacket × JitterBuffer → Prop where
  /-- Nothing is buffered. -/
  | empty : PollOutcome jitter (none, jitter)
  /-- The next number is buffered. The first poll takes the lowest key for it. -/
  | next (number : Nat) (packet : RtpPacket)
      (expected : jitter.nextEmit = some number ∨ jitter.nextEmit = none)
      (stored : (number, packet) ∈ jitter.buffer.entries)
      (lowest : ∀ entry ∈ jitter.buffer.entries, number ≤ entry.1) :
      PollOutcome jitter (some packet, { jitter with
        nextEmit := some (number + 1)
        buffer := jitter.buffer.erase number
        fates := jitter.fates ++ [.emitted number packet] })
  /-- The numbers below the lowest key are missing. -/
  | gap (number gapSize : Nat) (packet : RtpPacket) (expected : jitter.nextEmit = some number)
      (stored : (number + gapSize, packet) ∈ jitter.buffer.entries)
      (lowest : ∀ entry ∈ jitter.buffer.entries, number + gapSize ≤ entry.1) :
      PollOutcome jitter (some packet, { jitter with
        events := jitter.events ++ (List.range gapSize).map
          (fun offset => .packetLost (UInt16.ofNat (number + offset)))
        stats := { jitter.stats with lost := jitter.stats.lost + gapSize }
        nextEmit := some (number + gapSize + 1)
        buffer := jitter.buffer.erase (number + gapSize)
        fates := jitter.fates ++ (List.range gapSize).map (fun offset => .lost (number + offset))
          ++ [.emitted (number + gapSize) packet] })

/-- A poll of a sound buffer has one of its three outcomes. The key range keeps
every number from wrapping, and no key is below the expected number. -/
theorem poll_outcome (jitter : JitterBuffer) (nowMs : Nat) (sound : jitter.Sound) :
    PollOutcome jitter (jitter.poll nowMs) := by
  unfold poll
  cases first : jitter.buffer.first? with
  | none => exact .empty
  | some entry =>
    obtain ⟨earliest, packet⟩ := entry
    obtain ⟨stored, lowest⟩ := Ordered.first_lowest first
    have small : earliest < 4294967295 := (sound.keyed _ stored).1
    dsimp only
    cases found : jitter.buffer.lookup (jitter.nextEmit.getD earliest) with
    | some held =>
      have member := Ordered.lookup_eq_some.mp found
      have below : jitter.nextEmit.getD earliest < 4294967295 := (sound.keyed _ member).1
      have exact : u32 (jitter.nextEmit.getD earliest + 1) = jitter.nextEmit.getD earliest + 1 := by
        apply Nat.mod_eq_of_lt
        omega
      dsimp only
      rw [exact]
      apply PollOutcome.next _ held _ member
      · cases known : jitter.nextEmit with
        | none => exact lowest
        | some next => exact sound.ahead next known
      · cases jitter.nextEmit with
        | none => exact .inr rfl
        | some next => exact .inl rfl
    | none =>
      cases known : jitter.nextEmit with
      | none =>
        rw [known] at found
        exact absurd (Ordered.mem_keys.mpr ⟨packet, stored⟩) (Ordered.lookup_eq_none.mp found)
      | some next =>
        rw [known] at found
        have ahead : next ≤ earliest := sound.ahead next known _ stored
        have apart : next ≠ earliest := by
          intro same
          rw [same] at found
          exact Ordered.lookup_eq_none.mp found (Ordered.mem_keys.mpr ⟨packet, stored⟩)
        obtain ⟨gapSize, rfl⟩ : ∃ gapSize, earliest = next + gapSize := ⟨earliest - next, by omega⟩
        have size : next + gapSize - next = gapSize := by omega
        have exact : u32 (next + gapSize + 1) = next + gapSize + 1 := by
          apply Nat.mod_eq_of_lt
          omega
        have numbers : (List.range gapSize).map (fun seqOffset => u32 (next + seqOffset)) =
            (List.range gapSize).map (fun offset => next + offset) := by
          apply List.map_congr_left
          intro offset member
          have within := List.mem_range.mp member
          apply Nat.mod_eq_of_lt
          omega
        have notBelow : ¬ next + gapSize ≤ next := by omega
        have positive : 0 < gapSize := by omega
        simp only [Option.getD_some, first, notBelow, ↓reduceIte, size, positive, exact, numbers,
          List.map_map]
        exact .gap next gapSize packet known stored lowest

/-- A fresh buffer is sound. -/
theorem new_sound (capacity : Nat) : (new capacity).Sound := by
  constructor
  · intro entry member
    cases member
  · exact Nat.zero_le capacity
  · intro next known
    cases known
  · intro _
    rfl
  · intro next known
    cases known
  · rfl
  · intro number packet member
    cases member

/-- A push keeps the buffer sound while the unwrapped number is in range. -/
theorem push_sound {jitter : JitterBuffer} (sound : jitter.Sound) (packet : RtpPacket)
    (below : (jitter.unwrapSeq packet.sequenceNumber).1 < 4294967295) :
    (jitter.push packet).Sound := by
  have outcome := push_outcome jitter packet
  generalize jitter.push packet = after at outcome
  cases outcome with
  | late highSeq cycles =>
    exact ⟨sound.keyed, sound.room, sound.ahead, sound.unopened, sound.ledger, sound.lost,
      sound.named⟩
  | stored highSeq cycles reordered ahead =>
    have kept : ∀ entry ∈ ((jitter.buffer.insert (jitter.unwrapSeq packet.sequenceNumber).1
        packet).keepHighest jitter.capacity).entries,
        entry = ((jitter.unwrapSeq packet.sequenceNumber).1, packet) ∨
          entry ∈ jitter.buffer.entries :=
      fun _ member => Ordered.mem_of_mem_insert (Ordered.mem_of_mem_keepHighest member)
    constructor
    · intro entry member
      rcases kept entry member with rfl | old
      · exact ⟨below, (unwrapSeq_named jitter packet.sequenceNumber).symm⟩
      · exact sound.keyed entry old
    · exact Ordered.keepHighest_size jitter.capacity _
    · intro next known entry member
      rcases kept entry member with rfl | old
      · exact ahead next known
      · exact sound.ahead next known entry old
    · exact sound.unopened
    · exact sound.ledger
    · exact sound.lost
    · exact sound.named

/-- Where the record stands when a number is emitted next: at the expected number
after an emission, and at the number itself before any. -/
theorem Sound.ledger_next {jitter : JitterBuffer} (sound : jitter.Sound) {number : Nat}
    (expected : jitter.nextEmit = some number ∨ jitter.nextEmit = none) :
    ∃ first, Ledger jitter.fates first number := by
  rcases expected with known | unknown
  · obtain ⟨_, first, _, ledger⟩ := sound.ledger number known
    exact ⟨first, ledger⟩
  · rw [sound.unopened unknown]
    exact ⟨number, Ledger.start number⟩

/-- The events of a lost run of numbers, one for each and in order. -/
theorem lost_events (number gapSize : Nat) :
    ((List.range gapSize).map (fun offset => Fate.lost (number + offset))).filterMap Fate.event? =
      (List.range gapSize).map (fun offset => .packetLost (UInt16.ofNat (number + offset))) := by
  rw [List.filterMap_map, ← List.filterMap_eq_map]
  rfl

/-- A poll keeps the buffer sound. -/
theorem poll_sound {jitter : JitterBuffer} (sound : jitter.Sound) (nowMs : Nat) :
    (jitter.poll nowMs).2.Sound := by
  have outcome := poll_outcome jitter nowMs sound
  generalize jitter.poll nowMs = result at outcome
  cases outcome with
  | empty => exact sound
  | next number packet expected stored lowest =>
    obtain ⟨small, name⟩ := sound.keyed _ stored
    obtain ⟨first, ledger⟩ := sound.ledger_next expected
    constructor
    · exact fun entry member => sound.keyed entry (Ordered.mem_erase.mp member).1
    · exact Nat.le_trans (Ordered.erase_size number jitter.buffer) sound.room
    · intro next known entry member
      obtain rfl : number + 1 = next := Option.some.inj known
      obtain ⟨old, other⟩ := Ordered.mem_erase.mp member
      have above := lowest entry old
      omega
    · intro unknown
      cases unknown
    · intro next known
      obtain rfl : number + 1 = next := Option.some.inj known
      have ordered := ledger.ordered
      exact ⟨by omega, first, by omega, ledger.emit packet⟩
    · rw [List.filterMap_append, List.length_append, ← sound.lost]
      rfl
    · intro tested held member
      rcases List.mem_append.mp member with old | new
      · exact sound.named tested held old
      · cases List.mem_singleton.mp new
        exact name
  | gap number gapSize packet expected stored lowest =>
    obtain ⟨small, name⟩ := sound.keyed _ stored
    obtain ⟨_, first, begun, ledger⟩ := sound.ledger number expected
    constructor
    · exact fun entry member => sound.keyed entry (Ordered.mem_erase.mp member).1
    · exact Nat.le_trans (Ordered.erase_size (number + gapSize) jitter.buffer) sound.room
    · intro next known entry member
      obtain rfl : number + gapSize + 1 = next := Option.some.inj known
      obtain ⟨old, other⟩ := Ordered.mem_erase.mp member
      have above := lowest entry old
      omega
    · intro unknown
      cases unknown
    · intro next known
      obtain rfl : number + gapSize + 1 = next := Option.some.inj known
      exact ⟨by omega, first, by omega, (ledger.lose begun gapSize).emit packet⟩
    · simp only [List.filterMap_append, List.length_append, lost_events, List.length_map,
        List.length_range, ← sound.lost]
      rfl
    · intro tested held member
      rcases List.mem_append.mp member with earlier | new
      · rcases List.mem_append.mp earlier with old | lost
        · exact sound.named tested held old
        · obtain ⟨offset, _, impossible⟩ := List.mem_map.mp lost
          cases impossible
      · cases List.mem_singleton.mp new
        exact name

/-- A push leaves the record and the pending events alone, and is counted as
received or as late. -/
theorem push_outputs (jitter : JitterBuffer) (packet : RtpPacket) :
    (jitter.push packet).fates = jitter.fates ∧ (jitter.push packet).events = jitter.events ∧
      (jitter.push packet).stats.received + (jitter.push packet).stats.late =
        jitter.stats.received + jitter.stats.late + 1 := by
  have outcome := push_outcome jitter packet
  generalize jitter.push packet = after at outcome
  cases outcome with
  | late highSeq cycles => exact ⟨rfl, rfl, rfl⟩
  | stored highSeq cycles reordered ahead =>
    refine ⟨rfl, rfl, ?_⟩
    show jitter.stats.received + 1 + jitter.stats.late = _
    omega

/-- No packet is returned for lost numbers. -/
theorem lost_packets (numbers : List Nat) (lost : Nat → Fate) (each : ∀ number, (lost number).packet? = none) :
    (numbers.map lost).filterMap Fate.packet? = [] := by
  rw [List.filterMap_map, List.filterMap_eq_nil_iff]
  exact fun number _ => each number

/-- A poll records what it returns and the events it pushes, and counts no packet
as received or late. -/
theorem poll_outputs {jitter : JitterBuffer} (sound : jitter.Sound) (nowMs : Nat) :
    ∃ added, (jitter.poll nowMs).2.fates = jitter.fates ++ added ∧
      added.filterMap Fate.packet? = (jitter.poll nowMs).1.toList ∧
      (jitter.poll nowMs).2.events = jitter.events ++ added.filterMap Fate.event? ∧
      (jitter.poll nowMs).2.stats.received = jitter.stats.received ∧
      (jitter.poll nowMs).2.stats.late = jitter.stats.late := by
  have outcome := poll_outcome jitter nowMs sound
  generalize jitter.poll nowMs = result at outcome
  cases outcome with
  | empty => exact ⟨[], (List.append_nil _).symm, rfl, (List.append_nil _).symm, rfl, rfl⟩
  | next number packet =>
    exact ⟨[.emitted number packet], rfl, rfl, (List.append_nil _).symm, rfl, rfl⟩
  | gap number gapSize packet =>
    refine ⟨(List.range gapSize).map (fun offset => .lost (number + offset))
      ++ [.emitted (number + gapSize) packet], List.append_assoc _ _ _, ?_, ?_, rfl, rfl⟩
    · rw [List.filterMap_append, lost_packets _ _ fun _ => rfl]
      rfl
    · rw [List.filterMap_append, lost_events]
      exact congrArg (jitter.events ++ ·) (List.append_nil _).symm

/-- Poll until nothing is returned, and while the fuel lasts. -/
def pollWith (nowMs : Nat) : Nat → JitterBuffer → List RtpPacket × JitterBuffer
  | 0, jitter => ([], jitter)
  | fuel + 1, jitter =>
      match jitter.poll nowMs with
      | (none, jitter) => ([], jitter)
      | (some packet, jitter) =>
          let (rest, jitter) := pollWith nowMs fuel jitter
          (packet :: rest, jitter)

/-- Poll until nothing is returned. -/
def pollAll (jitter : JitterBuffer) (nowMs : Nat) : List RtpPacket × JitterBuffer :=
  pollWith nowMs (jitter.buffer.size + 1) jitter

/-- A poll returns nothing when nothing is buffered, and takes out what it returns. -/
theorem poll_progress (jitter : JitterBuffer) (nowMs : Nat) :
    (jitter.poll nowMs = (none, jitter) ∧ jitter.buffer.size = 0) ∨
      ∃ packet after, jitter.poll nowMs = (some packet, after) ∧
        after.buffer.size < jitter.buffer.size := by
  unfold poll
  cases first : jitter.buffer.first? with
  | none => exact .inl ⟨rfl, List.length_eq_zero_iff.mpr (List.head?_eq_none_iff.mp first)⟩
  | some entry =>
    obtain ⟨earliest, packet⟩ := entry
    have lowest := (Ordered.first_lowest first).1
    dsimp only
    cases found : jitter.buffer.lookup (jitter.nextEmit.getD earliest) with
    | some held => exact .inr ⟨held, _, rfl, Ordered.erase_size_lt (Ordered.lookup_eq_some.mp found)⟩
    | none =>
      dsimp only
      rw [first]
      dsimp only
      by_cases behind : earliest ≤ jitter.nextEmit.getD earliest
      · rw [if_pos behind]
        exact .inr ⟨packet, _, rfl, Ordered.erase_size_lt lowest⟩
      · rw [if_neg behind, if_pos (by omega)]
        exact .inr ⟨packet, _, rfl, Ordered.erase_size_lt lowest⟩

/-- With fuel for every packet and one more poll, nothing is left. -/
theorem pollWith_size (nowMs fuel : Nat) (jitter : JitterBuffer) (enough : jitter.buffer.size < fuel) :
    (pollWith nowMs fuel jitter).2.buffer.size = 0 := by
  induction fuel generalizing jitter with
  | zero => omega
  | succ fuel inductionHypothesis =>
    unfold pollWith
    rcases poll_progress jitter nowMs with ⟨nothing, dry⟩ | ⟨packet, after, returned, fewer⟩
    · rw [nothing]
      exact dry
    · rw [returned]
      exact inductionHypothesis after (by omega)

/-- The packets that were emitted so far. -/
def emissions (jitter : JitterBuffer) : List RtpPacket := jitter.fates.filterMap Fate.packet?

/-- A push emits nothing. -/
theorem push_emissions (jitter : JitterBuffer) (packet : RtpPacket) :
    (jitter.push packet).emissions = jitter.emissions := by
  have outcome := push_outcome jitter packet
  generalize jitter.push packet = after at outcome
  cases outcome with
  | late => rfl
  | stored => rfl

/-- A poll adds what it returns, after the numbers it declares lost. -/
theorem poll_emissions (jitter : JitterBuffer) (nowMs : Nat) :
    (jitter.poll nowMs).2.emissions = jitter.emissions ++ (jitter.poll nowMs).1.toList := by
  unfold poll emissions
  cases jitter.buffer.first? with
  | none => exact (List.append_nil _).symm
  | some entry =>
    dsimp only
    split
    · exact List.filterMap_append
    · split
      · exact (List.append_nil _).symm
      · split
        · exact List.filterMap_append
        · split
          · rw [List.filterMap_append, List.filterMap_append, lost_packets _ _ fun _ => rfl, List.append_nil]
            rfl
          · exact (List.append_nil _).symm

end JitterBuffer

namespace Session

/-- What a session keeps: a sound buffer, and counts and outputs that agree with
its record. -/
structure Sound (session : Session) : Prop where
  jitter : session.jitter.Sound
  counted : session.jitter.stats.received + session.jitter.stats.late = session.pushes
  returned : session.returned = session.jitter.fates.filterMap Fate.packet?
  reported : session.drained ++ session.jitter.events =
    session.jitter.fates.filterMap Fate.event?

/-- One call keeps the session sound. -/
theorem step_sound (before : Session) (call : Call) (after : Session) (sound : before.Sound)
    (below : before.Below call) (stepped : before.step call = some after) : after.Sound := by
  cases call with
  | push packet =>
    obtain rfl := Option.some.inj stepped
    obtain ⟨fates, events, counted⟩ := JitterBuffer.push_outputs before.jitter packet
    refine ⟨JitterBuffer.push_sound sound.jitter packet (below packet rfl), ?_, ?_, ?_⟩
    · exact counted.trans (congrArg (· + 1) sound.counted)
    · exact sound.returned.trans (by rw [fates])
    · rw [events, fates]
      exact sound.reported
  | poll nowMs =>
    obtain rfl := Option.some.inj stepped
    obtain ⟨added, fates, packets, events, received, late⟩ :=
      JitterBuffer.poll_outputs sound.jitter nowMs
    refine ⟨JitterBuffer.poll_sound sound.jitter nowMs, ?_, ?_, ?_⟩
    · rw [received, late]
      exact sound.counted
    · rw [fates, List.filterMap_append, packets, ← sound.returned]
    · rw [fates, events, List.filterMap_append, ← sound.reported, List.append_assoc]
  | drainEvents =>
    obtain rfl := Option.some.inj stepped
    obtain ⟨keyed, room, ahead, unopened, ledger, lost, named⟩ := sound.jitter
    refine ⟨⟨keyed, room, ahead, unopened, ledger, lost, named⟩, sound.counted, sound.returned, ?_⟩
    show before.drained ++ before.jitter.events ++ [] = _
    rw [List.append_nil]
    exact sound.reported

/-- Every reached session is sound. -/
theorem reached_sound {capacity : Nat} {session : Session}
    (reached : Reaches step Below (opened capacity) session) : session.Sound := by
  refine Reaches.invariant Sound ⟨JitterBuffer.new_sound capacity, rfl, rfl, rfl⟩ ?_ reached
  intro before call after sound below stepped
  exact step_sound before call after sound below stepped

/-- The capacity is never changed. -/
theorem reached_capacity {capacity : Nat} {session : Session}
    (reached : Reaches step Below (opened capacity) session) :
    session.jitter.capacity = capacity := by
  refine Reaches.invariant_with Sound (fun state => state.jitter.capacity = capacity)
    (fun _ => reached_sound) rfl ?_ reached
  intro before call after sound same _ stepped
  cases call with
  | push packet =>
    obtain rfl := Option.some.inj stepped
    have outcome := JitterBuffer.push_outcome before.jitter packet
    show (before.jitter.push packet).capacity = capacity
    generalize before.jitter.push packet = pushed at outcome
    cases outcome with
    | late highSeq cycles => exact same
    | stored highSeq cycles reordered ahead => exact same
  | poll nowMs =>
    obtain rfl := Option.some.inj stepped
    have outcome := JitterBuffer.poll_outcome before.jitter nowMs sound.jitter
    show (before.jitter.poll nowMs).2.capacity = capacity
    generalize before.jitter.poll nowMs = polled at outcome
    cases outcome with
    | empty => exact same
    | next number packet => exact same
    | gap number gapSize packet => exact same
  | drainEvents =>
    obtain rfl := Option.some.inj stepped
    exact same

/-- Every sequence number is accounted for once. In every state that pushes,
polls and drains reach from a new buffer, with every pushed packet unwrapped
below the last 32-bit number:

the record of a buffer that has emitted nothing is empty, and otherwise it runs
through the numbers from the first emission up to the next one to emit, each once
and in increasing order; a number names the packet returned for it; no buffered
key is below the next number, and there is room in the buffer; the packets
returned and the events drained or pending are those of the record, and the
statistics count the lost events and the pushes.

The invariant is the ledger of the buffer's fates. A push adds none, a poll adds the lost
numbers and then the emitted one, and a drain moves events from the buffer to the record. -/
theorem accounted_once {capacity : Nat} {session : Session}
    (reached : Reaches step Below (opened capacity) session) :
    (session.jitter.nextEmit = none → session.jitter.fates = []) ∧
    (∀ next, session.jitter.nextEmit = some next → ∃ first packet,
      session.jitter.fates.head? = some (.emitted first packet) ∧
      session.jitter.fates.map Fate.number = List.range' first (next - first) ∧
      ∀ entry ∈ session.jitter.buffer.entries, next ≤ entry.1) ∧
    (∀ number packet, .emitted number packet ∈ session.jitter.fates →
      packet.sequenceNumber.toNat = number % 65536) ∧
    session.jitter.buffer.size ≤ capacity ∧
    session.returned = session.jitter.fates.filterMap Fate.packet? ∧
    session.drained ++ session.jitter.events = session.jitter.fates.filterMap Fate.event? ∧
    session.jitter.stats.lost = (session.drained ++ session.jitter.events).length ∧
    session.jitter.stats.received + session.jitter.stats.late = session.pushes := by
  have sound := reached_sound reached
  refine ⟨sound.jitter.unopened, ?_, sound.jitter.named, ?_, sound.returned, sound.reported, ?_,
    sound.counted⟩
  · intro next known
    obtain ⟨_, first, begun, ledger⟩ := sound.jitter.ledger next known
    cases fates : session.jitter.fates with
    | nil =>
      have empty := ledger.count
      rw [fates, List.length_nil] at empty
      omega
    | cons earliest rest =>
      obtain ⟨packet, rfl⟩ := ledger.opened earliest (by rw [fates]; rfl)
      rw [← fates]
      exact ⟨first, packet, by rw [fates]; rfl, ledger.numbers, sound.jitter.ahead next known⟩
  · rw [← reached_capacity reached]
    exact sound.jitter.room
  · rw [sound.reported]
    exact sound.jitter.lost

/-- A run over the wrap with one number missing: 65535 is emitted, 65536 is lost
and 65537 is emitted. -/
def gapRun : List Call :=
  [.push (.newAudio [] 0 0 65535), .poll 0, .push (.newAudio [] 0 0 1), .poll 0, .drainEvents]

/-- The session after that run. -/
def gapSession : Session := (walk step Below (opened 2) gapRun).getD (opened 2)

/-- After a loss and a wrap of the numbers every number has its one fate. -/
theorem accounted_once_gap : gapSession.jitter.nextEmit = some 65538 ∧
    gapSession.jitter.stats.lost = 1 ∧
    ∃ first packet, gapSession.jitter.fates.head? = some (.emitted first packet) ∧
      gapSession.jitter.fates.map Fate.number = List.range' first (65538 - first) ∧
      ∀ entry ∈ gapSession.jitter.buffer.entries, 65538 ≤ entry.1 := by
  have expected : gapSession.jitter.nextEmit = some 65538 := by decide +kernel
  have reached : Reaches step Below (opened 2) gapSession :=
    walk_reaches_end step Below (opened 2) gapRun (by decide +kernel)
  exact ⟨expected, by decide +kernel, (accounted_once reached).2.1 65538 expected⟩

end Session

end Seameet.Rtp
