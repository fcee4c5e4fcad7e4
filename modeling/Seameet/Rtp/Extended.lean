import Seameet.Rtp.Jitter

/-!
# Extended sequence numbers

Every packet of a stream has a place in an unbounded sequence, and its wire number is
the low sixteen bits of that place. The jitter buffer guesses the place from the
highest wire number and the wraps it has counted. Here each arrival carries its true
place beside the packet, and the key that the buffer computed for it is recorded.

While every packet is less than half a cycle away from the highest one before it, a
key is the true place less the start of the first packet's cycle. The one exception
is a packet from before that start: there is no earlier cycle to put it in, and it is
given a key in the first one, behind packets that it precedes.
-/

namespace Seameet.Rtp

open Library

/-- A packet that arrives, with its place in the unbounded sequence. -/
structure Arrival where
  extended : ℤ
  packet : RtpPacket
  wire : (packet.sequenceNumber.toNat : ℤ) = extended % 65536

/-- A buffer in use, with the arrivals so far and the keys computed for them. -/
structure Stream where
  session : Session
  arrivals : List (Arrival × Nat)

/-- A packet arrives, or the consumer polls or drains. -/
inductive StreamEvent where
  | arrives (arrival : Arrival)
  | polls (nowMs : Nat)
  | drains

/-- The first place of the cycle that holds a place. -/
def cycleStart (extended : ℤ) : ℤ := extended / 65536 * 65536

namespace Stream

/-- A stream of which nothing has arrived. -/
def opened (capacity : Nat) : Stream := { session := .opened capacity, arrivals := [] }

/-- One event. Every event is possible in every state. -/
def step (stream : Stream) : StreamEvent → Option Stream
  | .arrives arrival =>
    (stream.session.step (.push arrival.packet)).map fun session =>
      { session
        arrivals := stream.arrivals ++
          [(arrival, (stream.session.jitter.unwrapSeq arrival.packet.sequenceNumber).1)] }
  | .polls nowMs =>
    (stream.session.step (.poll nowMs)).map fun session => { stream with session }
  | .drains =>
    (stream.session.step .drainEvents).map fun session => { stream with session }

/-- Nothing that has arrived is ahead of this place. -/
def Highest (stream : Stream) (extended : ℤ) : Prop :=
  ∀ other ∈ stream.arrivals, other.1.extended ≤ extended

instance (stream : Stream) (extended : ℤ) : Decidable (stream.Highest extended) :=
  inferInstanceAs (Decidable (∀ other ∈ stream.arrivals, other.1.extended ≤ extended))

/-- A packet is less than half a cycle away from the highest one before it, and the
stream is short enough for 32-bit keys. -/
def Regular (stream : Stream) : StreamEvent → Prop
  | .arrives arrival =>
    (∀ highest ∈ stream.arrivals, stream.Highest highest.1.extended →
      -32768 < arrival.extended - highest.1.extended ∧
        arrival.extended - highest.1.extended < 32768) ∧
    ∀ first ∈ stream.arrivals.head?,
      arrival.extended - cycleStart first.1.extended < 4294967295
  | .polls _ => True
  | .drains => True

instance (stream : Stream) (event : StreamEvent) : Decidable (stream.Regular event) := by
  unfold Regular
  split <;> infer_instance

/-- The start of the first packet's cycle. -/
def start (stream : Stream) : ℤ :=
  (stream.arrivals.head?.map (fun first => cycleStart first.1.extended)).getD 0

/-- The keys of any two arrivals are ordered as their places are. -/
def KeysOrdered (stream : Stream) : Prop :=
  ∀ one ∈ stream.arrivals, ∀ other ∈ stream.arrivals,
    one.2 < other.2 ↔ one.1.extended < other.1.extended

instance (stream : Stream) : Decidable stream.KeysOrdered :=
  inferInstanceAs (Decidable (∀ one ∈ stream.arrivals, ∀ other ∈ stream.arrivals,
    (one.2 < other.2 ↔ one.1.extended < other.1.extended)))

/-- A poll returns the packet whose place comes first among those in the buffer. -/
def PolledInOrder (stream : Stream) : Prop :=
  ∀ nowMs packet, (stream.session.jitter.poll nowMs).1 = some packet →
    ∃ polled ∈ stream.arrivals, polled.1.packet = packet ∧
      ∀ other ∈ stream.arrivals,
        (other.2, other.1.packet) ∈ stream.session.jitter.buffer.entries →
          polled.1.extended ≤ other.1.extended

end Stream

/-- The key of a place in a stream whose first packet has another place. -/
def keyOf (first extended : ℤ) : ℤ :=
  if cycleStart first ≤ extended then extended - cycleStart first
  else extended - cycleStart first + 65536

namespace JitterBuffer

/-- The buffer has counted the wraps up to a highest place. -/
structure Counted (jitter : JitterBuffer) (first highest : ℤ) : Prop where
  seen : ∃ high, jitter.highSeq = some high ∧ (high.toNat : ℤ) = highest % 65536
  cycles : (jitter.cycles : ℤ) = highest / 65536 - first / 65536
  ahead : first ≤ highest
  bounded : highest - cycleStart first < 4294967295

/-- The first packet of a stream is given its wire number for a key. -/
theorem unwrapSeq_first {jitter : JitterBuffer} (arrival : Arrival) (unseen : jitter.highSeq = none) :
    ((jitter.unwrapSeq arrival.packet.sequenceNumber).1 : ℤ) =
        keyOf arrival.extended arrival.extended ∧
      (jitter.unwrapSeq arrival.packet.sequenceNumber).2.Counted arrival.extended
        arrival.extended := by
  have wire := arrival.wire
  have within : cycleStart arrival.extended ≤ arrival.extended := by
    unfold cycleStart
    omega
  unfold unwrapSeq
  rw [unseen]
  refine ⟨?_, ⟨_, rfl, wire⟩, ?_, Int.le_refl _, ?_⟩
  · show (arrival.packet.sequenceNumber.toNat : ℤ) = _
    rw [keyOf, if_pos within]
    unfold cycleStart
    omega
  · show ((0 : Nat) : ℤ) = _
    omega
  · unfold cycleStart
    omega

/-- A later packet is given the key of its place, and the count moves on to it when it
is the highest. The cases are those of the unwrapping: ahead, ahead over a wrap,
behind, and behind a wrap. -/
theorem unwrapSeq_next {jitter : JitterBuffer} {first highest : ℤ} {arrival : Arrival}
    (counted : jitter.Counted first highest)
    (near : -32768 < arrival.extended - highest ∧ arrival.extended - highest < 32768)
    (bounded : arrival.extended - cycleStart first < 4294967295) :
    ((jitter.unwrapSeq arrival.packet.sequenceNumber).1 : ℤ) = keyOf first arrival.extended ∧
      (jitter.unwrapSeq arrival.packet.sequenceNumber).2.Counted first
        (max highest arrival.extended) := by
  obtain ⟨⟨high, seen, wireHigh⟩, cycles, ahead, high_bounded⟩ := counted
  have wire := arrival.wire
  have small : arrival.packet.sequenceNumber.toNat < 65536 := arrival.packet.sequenceNumber.toNat_lt
  have highSmall : high.toNat < 65536 := high.toNat_lt
  have difference : (arrival.packet.sequenceNumber - high).toNat =
      (65536 - high.toNat + arrival.packet.sequenceNumber.toNat) % 65536 := UInt16.toNat_sub _ _
  have forward : arrival.packet.sequenceNumber - high < 0x8000 ↔ highest ≤ arrival.extended := by
    rw [UInt16.lt_iff_toNat_lt, difference]
    show _ < 32768 ↔ _
    omega
  have positive : 0 < arrival.packet.sequenceNumber - high ↔
      arrival.packet.sequenceNumber.toNat ≠ high.toNat := by
    rw [UInt16.lt_iff_toNat_lt, difference]
    show 0 < _ ↔ _
    omega
  have above : high < arrival.packet.sequenceNumber ↔
      high.toNat < arrival.packet.sequenceNumber.toNat := UInt16.lt_iff_toNat_lt
  have below : arrival.packet.sequenceNumber < high ↔
      arrival.packet.sequenceNumber.toNat < high.toNat := UInt16.lt_iff_toNat_lt
  unfold cycleStart at high_bounded bounded
  unfold unwrapSeq
  rw [seen]
  dsimp only
  by_cases reaches : highest ≤ arrival.extended
  · rw [if_pos (forward.mpr reaches), max_eq_right reaches]
    have started : cycleStart first ≤ arrival.extended := by
      unfold cycleStart
      omega
    by_cases wraps : arrival.packet.sequenceNumber < high ∧
        0 < arrival.packet.sequenceNumber - high
    · rw [if_pos wraps]
      rw [below, positive] at wraps
      refine ⟨?_, ⟨_, rfl, wire⟩, ?_, by omega, by unfold cycleStart; omega⟩
      · rw [keyOf, if_pos started]
        unfold u32 cycleStart
        omega
      · show ((u32 (jitter.cycles + 1) : Nat) : ℤ) = _
        unfold u32
        omega
    · rw [if_neg wraps]
      rw [below, positive] at wraps
      refine ⟨?_, ⟨_, rfl, wire⟩, ?_, by omega, by unfold cycleStart; omega⟩
      · rw [keyOf, if_pos started]
        unfold u32 cycleStart
        omega
      · show (jitter.cycles : ℤ) = _
        omega
  · rw [if_neg (mt forward.mp reaches), max_eq_left (by omega)]
    have kept : jitter.Counted first highest :=
      ⟨⟨high, seen, wireHigh⟩, cycles, ahead, high_bounded⟩
    by_cases previous : high < arrival.packet.sequenceNumber
    · rw [if_pos previous]
      rw [above] at previous
      refine ⟨?_, kept⟩
      unfold keyOf u32 cycleStart
      split <;> omega
    · rw [if_neg previous]
      rw [above] at previous
      refine ⟨?_, kept⟩
      unfold keyOf u32 cycleStart
      split <;> omega

/-- A push counts as its unwrapping does. -/
theorem push_counted {jitter : JitterBuffer} {packet : RtpPacket} {first highest : ℤ}
    (counted : (jitter.unwrapSeq packet.sequenceNumber).2.Counted first highest) :
    (jitter.push packet).Counted first highest := by
  obtain ⟨highSeq, cycles, frame⟩ := unwrapSeq_frame jitter packet.sequenceNumber
  rw [frame] at counted
  unfold push
  dsimp only
  rw [frame]
  split
  · exact ⟨counted.seen, counted.cycles, counted.ahead, counted.bounded⟩
  · exact ⟨counted.seen, counted.cycles, counted.ahead, counted.bounded⟩

/-- A push stores nothing but the packet. -/
theorem push_stores {jitter : JitterBuffer} {packet : RtpPacket} {entry : Nat × RtpPacket}
    (member : entry ∈ (jitter.push packet).buffer.entries) :
    entry = ((jitter.unwrapSeq packet.sequenceNumber).1, packet) ∨
      entry ∈ jitter.buffer.entries := by
  have outcome := push_outcome jitter packet
  generalize jitter.push packet = after at outcome member
  cases outcome with
  | late highSeq cycles => exact .inr member
  | stored highSeq cycles reordered ahead =>
    exact Ordered.mem_of_mem_insert (Ordered.mem_of_mem_keepHighest member)

/-- A poll leaves the count alone, and stores nothing. -/
theorem poll_counts {jitter : JitterBuffer} (sound : jitter.Sound) (nowMs : Nat) :
    (jitter.poll nowMs).2.highSeq = jitter.highSeq ∧
      (jitter.poll nowMs).2.cycles = jitter.cycles ∧
      ∀ entry ∈ (jitter.poll nowMs).2.buffer.entries, entry ∈ jitter.buffer.entries := by
  have outcome := poll_outcome jitter nowMs sound
  generalize jitter.poll nowMs = result at outcome
  cases outcome with
  | empty => exact ⟨rfl, rfl, fun _ member => member⟩
  | next number packet => exact ⟨rfl, rfl, fun _ member => (Ordered.mem_erase.mp member).1⟩
  | gap number gapSize packet => exact ⟨rfl, rfl, fun _ member => (Ordered.mem_erase.mp member).1⟩

/-- A poll counts nothing. -/
theorem poll_counted {jitter : JitterBuffer} (sound : jitter.Sound) (nowMs : Nat) {first highest : ℤ}
    (counted : jitter.Counted first highest) : (jitter.poll nowMs).2.Counted first highest := by
  obtain ⟨highSeq, cycles, _⟩ := poll_counts sound nowMs
  obtain ⟨⟨high, held, wire⟩, wraps, ahead, bounded⟩ := counted
  exact ⟨⟨high, highSeq.trans held, wire⟩, (congrArg Nat.cast cycles).trans wraps, ahead, bounded⟩

/-- A poll that returns a packet returns the one under the lowest key. -/
theorem poll_lowest {jitter : JitterBuffer} (sound : jitter.Sound) {nowMs : Nat} {packet : RtpPacket}
    (polled : (jitter.poll nowMs).1 = some packet) :
    ∃ key, (key, packet) ∈ jitter.buffer.entries ∧ ∀ entry ∈ jitter.buffer.entries, key ≤ entry.1 := by
  have outcome := poll_outcome jitter nowMs sound
  generalize jitter.poll nowMs = result at outcome polled
  cases outcome with
  | empty => cases polled
  | next number held expected stored lowest =>
    obtain rfl := Option.some.inj polled
    exact ⟨number, stored, lowest⟩
  | gap number gapSize held expected stored lowest =>
    obtain rfl := Option.some.inj polled
    exact ⟨number + gapSize, stored, lowest⟩

end JitterBuffer

namespace Stream

/-- What the record of the arrivals says about the buffer. -/
structure Tracked (stream : Stream) : Prop where
  sound : stream.session.Sound
  stored : ∀ entry ∈ stream.session.jitter.buffer.entries,
    ∃ arrival ∈ stream.arrivals, (arrival.2, arrival.1.packet) = entry
  unseen : stream.arrivals = [] → stream.session.jitter.highSeq = none
  counted : ∀ first ∈ stream.arrivals.head?, ∃ highest ∈ stream.arrivals,
    stream.Highest highest.1.extended ∧
      stream.session.jitter.Counted first.1.extended highest.1.extended
  /-- An arrival may come before the first one, but by less than half a cycle. -/
  keyed : ∀ first ∈ stream.arrivals.head?, ∀ arrival ∈ stream.arrivals,
    (arrival.2 : ℤ) = keyOf first.1.extended arrival.1.extended ∧
      first.1.extended - 32768 < arrival.1.extended ∧
      arrival.1.extended - cycleStart first.1.extended < 4294967295

/-- A poll keeps what the record says. -/
theorem Tracked.polls {stream : Stream} (tracked : stream.Tracked) (nowMs : Nat) {after : Session}
    (stepped : stream.session.step (.poll nowMs) = some after) :
    Tracked { stream with session := after } := by
  have sound := Session.step_sound stream.session (.poll nowMs) after tracked.sound nofun stepped
  obtain rfl := Option.some.inj stepped
  obtain ⟨highSeq, _, kept⟩ := JitterBuffer.poll_counts tracked.sound.jitter nowMs
  refine ⟨sound, fun entry member => tracked.stored entry (kept entry member),
    fun none => highSeq.trans (tracked.unseen none), ?_, tracked.keyed⟩
  intro first head
  obtain ⟨highest, member, most, counted⟩ := tracked.counted first head
  exact ⟨highest, member, most, JitterBuffer.poll_counted tracked.sound.jitter nowMs counted⟩

/-- Draining the events keeps what the record says. -/
theorem Tracked.drains {stream : Stream} (tracked : stream.Tracked) {after : Session}
    (stepped : stream.session.step .drainEvents = some after) :
    Tracked { stream with session := after } := by
  have sound := Session.step_sound stream.session .drainEvents after tracked.sound nofun stepped
  obtain rfl := Option.some.inj stepped
  refine ⟨sound, tracked.stored, tracked.unseen, ?_, tracked.keyed⟩
  intro first head
  obtain ⟨highest, member, most, counted⟩ := tracked.counted first head
  exact ⟨highest, member, most, counted.seen, counted.cycles, counted.ahead, counted.bounded⟩

/-- The state after an arrival. -/
def arrived (stream : Stream) (arrival : Arrival) (after : Session) : Stream :=
  { session := after
    arrivals := stream.arrivals ++
      [(arrival, (stream.session.jitter.unwrapSeq arrival.packet.sequenceNumber).1)] }

section Arrive

variable {stream : Stream} {arrival : Arrival} {after : Session}

/-- What an arrival leaves in the buffer is on record. -/
theorem Tracked.stored_arrived (tracked : stream.Tracked)
    (stepped : stream.session.step (.push arrival.packet) = some after) :
    ∀ entry ∈ after.jitter.buffer.entries,
      ∃ other ∈ (stream.arrived arrival after).arrivals, (other.2, other.1.packet) = entry := by
  obtain rfl := Option.some.inj stepped
  intro entry member
  rcases JitterBuffer.push_stores member with rfl | old
  · exact ⟨_, List.mem_append_right _ (List.mem_singleton.mpr rfl), rfl⟩
  · obtain ⟨other, inside, same⟩ := tracked.stored entry old
    exact ⟨other, List.mem_append_left _ inside, same⟩

/-- The count of the buffer after an arrival is that of the unwrapping. -/
theorem counted_arrived {first highest : ℤ}
    (stepped : stream.session.step (.push arrival.packet) = some after)
    (counted : (stream.session.jitter.unwrapSeq arrival.packet.sequenceNumber).2.Counted first
      highest) : after.jitter.Counted first highest := by
  obtain rfl := Option.some.inj stepped
  exact JitterBuffer.push_counted counted

/-- The first arrival. -/
theorem Tracked.arrives_first (tracked : stream.Tracked) (none : stream.arrivals = [])
    (stepped : stream.session.step (.push arrival.packet) = some after) :
    (stream.arrived arrival after).Tracked := by
  obtain ⟨key, counted⟩ := JitterBuffer.unwrapSeq_first arrival (tracked.unseen none)
  have within : cycleStart arrival.extended ≤ arrival.extended ∧
      arrival.extended - cycleStart arrival.extended < 65536 := by
    unfold cycleStart
    omega
  have below : stream.session.Below (.push arrival.packet) := by
    intro packet pushed
    obtain rfl := Option.some.inj pushed
    rw [keyOf, if_pos within.1] at key
    omega
  have only : (stream.arrived arrival after).arrivals =
      [(arrival, (stream.session.jitter.unwrapSeq arrival.packet.sequenceNumber).1)] := by
    rw [arrived, none]
    rfl
  refine ⟨Session.step_sound _ _ _ tracked.sound below stepped, tracked.stored_arrived stepped,
    ?_, ?_, ?_⟩
  · rw [only]
    nofun
  · rw [only]
    intro first head
    obtain rfl := Option.some.inj head
    refine ⟨_, List.mem_singleton.mpr rfl, ?_, counted_arrived stepped counted⟩
    intro other member
    rw [only] at member
    rw [List.mem_singleton.mp member]
  · rw [only]
    intro first head other member
    obtain rfl := Option.some.inj head
    obtain rfl := List.mem_singleton.mp member
    exact ⟨key, Int.sub_lt_self _ (by decide), Int.lt_trans within.2 (by decide)⟩

/-- A later arrival. The highest place before it bounds it from both sides. -/
theorem Tracked.arrives_next (tracked : stream.Tracked) {first : Arrival × Nat}
    (head : stream.arrivals.head? = some first) (regular : stream.Regular (.arrives arrival))
    (stepped : stream.session.step (.push arrival.packet) = some after) :
    (stream.arrived arrival after).Tracked := by
  obtain ⟨highest, inside, most, counts⟩ := tracked.counted first head
  have near := regular.1 highest inside most
  have bounded := regular.2 first head
  obtain ⟨key, counted⟩ := JitterBuffer.unwrapSeq_next counts near bounded
  have ahead := counts.ahead
  have started : cycleStart first.1.extended ≤ first.1.extended := by
    unfold cycleStart
    omega
  have below : stream.session.Below (.push arrival.packet) := by
    intro packet pushed
    obtain rfl := Option.some.inj pushed
    unfold keyOf at key
    split at key <;> omega
  have headed : (stream.arrived arrival after).arrivals.head? = some first := by
    rw [arrived, List.head?_append, head]
    rfl
  refine ⟨Session.step_sound _ _ _ tracked.sound below stepped, tracked.stored_arrived stepped,
    ?_, ?_, ?_⟩
  · intro none
    rw [none] at headed
    cases headed
  · intro other found
    obtain rfl := Option.some.inj (headed.symm.trans found)
    have kept := counted_arrived stepped counted
    by_cases reaches : highest.1.extended ≤ arrival.extended
    · rw [max_eq_right reaches] at kept
      refine ⟨_, List.mem_append_right _ (List.mem_singleton.mpr rfl), ?_, kept⟩
      intro tested member
      rcases List.mem_append.mp member with old | new
      · exact Int.le_trans (most tested old) reaches
      · rw [List.mem_singleton.mp new]
    · rw [max_eq_left (by omega)] at kept
      refine ⟨highest, List.mem_append_left _ inside, ?_, kept⟩
      intro tested member
      rcases List.mem_append.mp member with old | new
      · exact most tested old
      · rw [List.mem_singleton.mp new]
        show arrival.extended ≤ highest.1.extended
        omega
  · intro other found tested member
    obtain rfl := Option.some.inj (headed.symm.trans found)
    rcases List.mem_append.mp member with old | new
    · exact tracked.keyed first head tested old
    · rw [List.mem_singleton.mp new]
      refine ⟨key, ?_, bounded⟩
      show first.1.extended - 32768 < arrival.extended
      omega

end Arrive

/-- One event keeps what the record says. -/
theorem step_tracked (before : Stream) (event : StreamEvent) (after : Stream)
    (tracked : before.Tracked) (regular : before.Regular event)
    (stepped : before.step event = some after) : after.Tracked := by
  unfold step at stepped
  cases event with
  | arrives arrival =>
    obtain ⟨session, pushed, rfl⟩ := Option.map_eq_some_iff.mp stepped
    cases head : before.arrivals.head? with
    | none => exact tracked.arrives_first (List.head?_eq_none_iff.mp head) pushed
    | some first => exact tracked.arrives_next head regular pushed
  | polls nowMs =>
    obtain ⟨session, polled, rfl⟩ := Option.map_eq_some_iff.mp stepped
    exact tracked.polls nowMs polled
  | drains =>
    obtain ⟨session, drained, rfl⟩ := Option.map_eq_some_iff.mp stepped
    exact tracked.drains drained

/-- Every reached stream is on record. -/
theorem reached_tracked {capacity : Nat} {stream : Stream}
    (reached : Reaches step Regular (opened capacity) stream) : stream.Tracked := by
  refine Reaches.invariant Tracked ?_ step_tracked reached
  refine ⟨⟨JitterBuffer.new_sound capacity, rfl, rfl, rfl⟩, ?_, fun _ => rfl, ?_, ?_⟩
  · intro entry member
    cases member
  · intro first head
    cases head
  · intro first head
    cases head

/-- When no arrival comes from before the first one's cycle, a key is a distance from
the start of that cycle. -/
theorem Tracked.key {stream : Stream} (tracked : stream.Tracked) {arrival : Arrival × Nat}
    (member : arrival ∈ stream.arrivals) (started : stream.start ≤ arrival.1.extended) :
    (arrival.2 : ℤ) = arrival.1.extended - stream.start := by
  cases head : stream.arrivals.head? with
  | none =>
    rw [List.head?_eq_none_iff.mp head] at member
    cases member
  | some first =>
    have start : stream.start = cycleStart first.1.extended := by
      rw [start, head]
      rfl
    have key := (tracked.keyed first head arrival member).1
    rw [keyOf, if_pos (start ▸ started)] at key
    rw [key, start]

/-- An arrival from before the first one's cycle is put behind the first one. -/
theorem Tracked.misplaced {stream : Stream} (tracked : stream.Tracked) {arrival : Arrival × Nat}
    (member : arrival ∈ stream.arrivals) (early : arrival.1.extended < stream.start) :
    ¬ stream.KeysOrdered := by
  intro ordered
  cases head : stream.arrivals.head? with
  | none =>
    rw [List.head?_eq_none_iff.mp head] at member
    cases member
  | some first =>
    have start : stream.start = cycleStart first.1.extended := by
      rw [start, head]
      rfl
    rw [start] at early
    have started : cycleStart first.1.extended ≤ first.1.extended ∧
        first.1.extended - cycleStart first.1.extended < 65536 := by
      unfold cycleStart
      omega
    have inside := List.mem_of_head? head
    obtain ⟨key, after, _⟩ := tracked.keyed first head arrival member
    have own := (tracked.keyed first head first inside).1
    rw [keyOf, if_neg (by omega)] at key
    rw [keyOf, if_pos started.1] at own
    have behind := (ordered arrival member first inside).mpr (by omega)
    omega

/-- Keys and polls are in order in a state of a stream exactly when nothing arrived
from before the cycle of the first packet. The distance between a packet and the
highest one before it, the reordering, duplication and loss, the polls and the wraps
may be any that the stream allows.

A key is the extended number less that of the cycle the stream began in. A packet from
before that cycle has no such key, and the one it is given is out of order. -/
theorem ordered_iff {capacity : Nat} {stream : Stream}
    (reached : Reaches step Regular (opened capacity) stream) :
    stream.KeysOrdered ∧ stream.PolledInOrder ↔
      ∀ arrival ∈ stream.arrivals, stream.start ≤ arrival.1.extended := by
  have tracked := reached_tracked reached
  constructor
  · rintro ⟨ordered, _⟩ arrival member
    by_contra early
    exact tracked.misplaced member (Int.lt_of_not_ge early) ordered
  · intro started
    have key : ∀ arrival ∈ stream.arrivals, (arrival.2 : ℤ) = arrival.1.extended - stream.start :=
      fun arrival member => tracked.key member (started arrival member)
    constructor
    · intro one oneIn other otherIn
      have left := key one oneIn
      have right := key other otherIn
      omega
    · intro nowMs packet polled
      obtain ⟨lowestKey, stored, lowest⟩ := JitterBuffer.poll_lowest tracked.sound.jitter polled
      obtain ⟨arrival, member, same⟩ := tracked.stored _ stored
      obtain ⟨rfl, rfl⟩ := Prod.mk.inj same
      refine ⟨arrival, member, rfl, fun other otherIn buffered => ?_⟩
      have left := key arrival member
      have right := key other otherIn
      have least : arrival.2 ≤ other.2 := lowest _ buffered
      omega

/-- An arrival at a place. -/
def arrivalAt (extended : ℤ) : Arrival where
  extended
  packet := .newAudio [] 0 0 (UInt16.ofNat (extended % 65536).toNat)
  wire := by
    show ((UInt16.ofNat (extended % 65536).toNat).toNat : ℤ) = _
    rw [UInt16.toNat_ofNat']
    omega

/-- A stream that starts before a wrap and comes back over it, with a duplicate. -/
def reorderedRun : List StreamEvent :=
  [.arrives (arrivalAt 65535), .arrives (arrivalAt 65537), .arrives (arrivalAt 65536), .polls 0,
    .arrives (arrivalAt 65537), .arrives (arrivalAt 65534), .polls 0]

/-- The state that this run comes to. -/
def reorderedStream : Stream := (walk step Regular (opened 4) reorderedRun).getD (opened 4)

/-- Applied to a run of late, repeated and reordered packets. -/
theorem ordered_iff_reordered : reorderedStream.KeysOrdered ∧ reorderedStream.PolledInOrder :=
  (ordered_iff (walk_reaches_end step Regular (opened 4) reorderedRun (by decide +kernel))).mpr
    (by decide +kernel)

/-- The first packet is the first of a cycle, and the one before it arrives next: it is
given the last key of the first packet's cycle. -/
theorem early_packet_misplaced : ∃ stream, Reaches step Regular (opened 4) stream ∧
    ¬ stream.KeysOrdered := by
  refine ⟨_, walk_reaches_end step Regular (opened 4)
    [.arrives (arrivalAt 65536), .arrives (arrivalAt 65535)] (by decide +kernel), ?_⟩
  decide +kernel

end Stream

end Seameet.Rtp
