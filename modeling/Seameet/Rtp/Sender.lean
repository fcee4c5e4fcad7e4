import Mathlib.Data.List.Perm.Subperm
import Seameet.Rtp.Extended

/-!
# The audio path

A sender numbers its payloads with a wrapping sixteen-bit counter and writes each as
one RTP packet into a channel. At the other end a packet is read back and pushed into
a jitter buffer, which is polled at any time.

The counter, the codec and the buffer agree over any number of wraps: what has been
polled, what is buffered and what is still in the channel are together what was sent,
in order and each once, as long as the buffer has room for what is pushed.
-/

namespace Seameet.Rtp

open Library

/-- Cumulative send statistics. -/
structure SenderStats where
  bytesSent : Nat
  packetsSent : Nat
  deriving DecidableEq, Repr

/-- The receiving half of a channel: what it holds, and whether it is still there. -/
structure Outbound where
  queue : List (List UInt8)
  isOpen : Bool
  deriving DecidableEq, Repr

/-- Sends RTP packets over a channel, with the number of the next one. -/
structure RtpSender where
  ssrc : UInt32
  seq : UInt16
  tx : Outbound
  stats : SenderStats
  deriving DecidableEq, Repr

namespace RtpSender

/-- Creates a new sender for an open channel. -/
def new (ssrc : UInt32) : RtpSender :=
  { ssrc, seq := 0, tx := ⟨[], true⟩, stats := ⟨0, 0⟩ }

/-- Returns the next sequence number and advances the counter (wrapping). -/
def nextSeq (sender : RtpSender) : UInt16 × RtpSender :=
  (sender.seq, { sender with seq := sender.seq + 1 })

/-- Serializes and sends one RTP packet through the channel. -/
def sendPacket (sender : RtpSender) (packet : RtpPacket) : Except SeaMeetError Unit × RtpSender :=
  let bytes := packet.toBytes
  let sender := { sender with
    stats := ⟨sender.stats.bytesSent + bytes.length, sender.stats.packetsSent + 1⟩ }
  if sender.tx.isOpen then
    (.ok (), { sender with tx := { sender.tx with queue := sender.tx.queue ++ [bytes] } })
  else
    (.error (.peerConnection "send channel closed"), sender)

/-- Sends an audio payload as a single RTP packet. -/
def sendAudio (sender : RtpSender) (payload : List UInt8) (timestamp : UInt32) :
    Except SeaMeetError Unit × RtpSender :=
  let (seq, sender) := sender.nextSeq
  sender.sendPacket (.newAudio payload timestamp sender.ssrc seq)

end RtpSender

/-- A sender, its channel and a jitter buffer, with the payloads and timestamps that
were sent. -/
structure AudioPath where
  sender : RtpSender
  session : Session
  sent : List (List UInt8 × UInt32)

/-- Something that happens on the path. -/
inductive AudioEvent where
  | sends (payload : List UInt8) (timestamp : UInt32)
  /-- The next packet of the channel is read and pushed. -/
  | delivers
  | polls (nowMs : Nat)
  | drains
  deriving DecidableEq, Repr

namespace AudioPath

/-- A path on which nothing was sent. -/
def opened (ssrc : UInt32) (capacity : Nat) : AudioPath :=
  { sender := .new ssrc, session := .opened capacity, sent := [] }

/-- One event. A packet that is not read back is dropped. -/
def step (path : AudioPath) : AudioEvent → Option AudioPath
  | .sends payload timestamp =>
    some { path with
      sender := (path.sender.sendAudio payload timestamp).2
      sent := path.sent ++ [(payload, timestamp)] }
  | .delivers =>
    match path.sender.tx.queue with
    | [] => none
    | bytes :: rest =>
      let taken := { path with sender := { path.sender with tx := { path.sender.tx with queue := rest } } }
      match RtpPacket.fromBytes bytes with
      | .error _ => some taken
      | .ok packet => (path.session.step (.push packet)).map fun session => { taken with session }
  | .polls nowMs => (path.session.step (.poll nowMs)).map fun session => { path with session }
  | .drains => (path.session.step .drainEvents).map fun session => { path with session }

/-- Fewer payloads than 32-bit numbers are sent, and a packet is pushed where there is
room for it. -/
def Fits (path : AudioPath) : AudioEvent → Prop
  | .sends _ _ => path.sent.length + 1 < 4294967295
  | .delivers => path.session.jitter.buffer.size < path.session.jitter.capacity
  | .polls _ => True
  | .drains => True

instance (path : AudioPath) (event : AudioEvent) : Decidable (path.Fits event) := by
  unfold Fits
  split <;> infer_instance

/-- The packets that the sender made, in order. -/
def packets (path : AudioPath) : List RtpPacket :=
  path.sent.mapIdx fun number content =>
    .newAudio content.1 content.2 path.sender.ssrc (UInt16.ofNat number)

/-- What a packet carries for the listener. -/
def content (packet : RtpPacket) : List UInt8 × UInt32 := (packet.payload, packet.timestamp)

/-- The packets carry what was sent. -/
theorem packets_content (path : AudioPath) : path.packets.map content = path.sent := by
  apply List.ext_getElem
  · simp [packets]
  · intro index below _
    simp [packets, content, RtpPacket.newAudio]

/-- A packet of the path survives the wire. -/
theorem packets_read {path : AudioPath} {packet : RtpPacket} (member : packet ∈ path.packets) :
    RtpPacket.fromBytes packet.toBytes = .ok packet := by
  obtain ⟨number, below, rfl⟩ := List.mem_mapIdx.mp member
  exact RtpPacket.fromBytes_toBytes (RtpPacket.new_wellFormed _ _ _ _ false).1

/-- Where everything that was sent is: polled, buffered or in the channel. -/
structure Carried (path : AudioPath) (polled pushed : Nat) : Prop where
  ordered : polled ≤ pushed ∧ pushed ≤ path.sent.length
  few : path.sent.length < 4294967295
  numbering : path.sender.seq = UInt16.ofNat path.sent.length
  isOpen : path.sender.tx.isOpen = true
  channel : path.sender.tx.queue = (path.packets.drop pushed).map RtpPacket.toBytes
  sound : path.session.jitter.Sound
  stored : ∀ entry, entry ∈ path.session.jitter.buffer.entries ↔
    polled ≤ entry.1 ∧ entry.1 < pushed ∧ path.packets[entry.1]? = some entry.2
  next : path.session.jitter.nextEmit = none ∧ polled = 0 ∨
    path.session.jitter.nextEmit = some polled
  unseen : pushed = 0 → path.session.jitter.highSeq = none
  counted : 0 < pushed → path.session.jitter.Counted 0 (pushed - 1)
  returned : path.session.returned = path.packets.take polled
  silent : path.session.drained = [] ∧ path.session.jitter.events = []

namespace Carried

variable {path : AudioPath} {polled pushed : Nat}

/-- Nothing was sent yet. -/
theorem opened (ssrc : UInt32) (capacity : Nat) :
    (AudioPath.opened ssrc capacity).Carried 0 0 where
  ordered := ⟨Nat.le_refl 0, Nat.le_refl 0⟩
  few := (by decide : 0 < 4294967295)
  numbering := rfl
  isOpen := rfl
  channel := rfl
  sound := JitterBuffer.new_sound capacity
  stored entry := by
    constructor
    · intro member
      cases member
    · rintro ⟨_, impossible, _⟩
      cases impossible
  next := .inl ⟨rfl, rfl⟩
  unseen _ := rfl
  counted impossible := by cases impossible
  returned := rfl
  silent := ⟨rfl, rfl⟩

/-- The sender makes one packet of a payload, and an open channel takes it. -/
theorem sendAudio_open {sender : RtpSender} (isOpen : sender.tx.isOpen = true)
    (payload : List UInt8) (timestamp : UInt32) :
    (sender.sendAudio payload timestamp).2.ssrc = sender.ssrc ∧
      (sender.sendAudio payload timestamp).2.seq = sender.seq + 1 ∧
      (sender.sendAudio payload timestamp).2.tx.isOpen = true ∧
      (sender.sendAudio payload timestamp).2.tx.queue = sender.tx.queue ++
        [(RtpPacket.newAudio payload timestamp sender.ssrc sender.seq).toBytes] := by
  simp only [RtpSender.sendAudio, RtpSender.nextSeq, RtpSender.sendPacket, isOpen, if_true]
  exact ⟨trivial, trivial, trivial, trivial⟩

/-- One more payload is sent: its packet is the last one, and is put into the channel. -/
theorem sends (carried : path.Carried polled pushed) {payload : List UInt8} {timestamp : UInt32}
    (few : path.sent.length + 1 < 4294967295) {after : AudioPath}
    (stepped : path.step (.sends payload timestamp) = some after) :
    after.Carried polled pushed := by
  obtain ⟨low, high⟩ := carried.ordered
  obtain ⟨ssrc, seq, isOpen, queue⟩ := sendAudio_open carried.isOpen payload timestamp
  obtain rfl := Option.some.inj stepped
  have length : path.packets.length = path.sent.length := List.length_mapIdx
  have longer : AudioPath.packets { path with
      sender := (path.sender.sendAudio payload timestamp).2
      sent := path.sent ++ [(payload, timestamp)] } =
      path.packets ++ [.newAudio payload timestamp path.sender.ssrc path.sender.seq] := by
    simp [packets, ssrc, carried.numbering, List.mapIdx_append]
  have size : (path.sent ++ [(payload, timestamp)]).length = path.sent.length + 1 :=
    List.length_append
  refine ⟨⟨low, ?_⟩, ?_, ?_, isOpen, ?_, carried.sound, ?_, carried.next, carried.unseen,
    carried.counted, ?_, carried.silent⟩
  · show pushed ≤ (path.sent ++ [(payload, timestamp)]).length
    omega
  · show (path.sent ++ [(payload, timestamp)]).length < 4294967295
    omega
  · show (path.sender.sendAudio payload timestamp).2.seq = _
    rw [seq, carried.numbering, size, UInt16.ofNat_add]
    rfl
  · show (path.sender.sendAudio payload timestamp).2.tx.queue = _
    rw [queue, longer, carried.channel, List.drop_append_of_le_length (by omega), List.map_append]
    rfl
  · intro entry
    rw [longer, carried.stored]
    constructor
    · rintro ⟨above, below, named⟩
      rw [List.getElem?_append_left (by omega)]
      exact ⟨above, below, named⟩
    · rintro ⟨above, below, named⟩
      rw [List.getElem?_append_left (by omega)] at named
      exact ⟨above, below, named⟩
  · rw [longer, List.take_append_of_le_length (by omega)]
    exact carried.returned

/-- Draining the events gives none. -/
theorem drains (carried : path.Carried polled pushed) {after : AudioPath}
    (stepped : path.step .drains = some after) : after.Carried polled pushed := by
  obtain rfl := Option.some.inj stepped
  obtain ⟨keyed, room, ahead, unopened, ledger, lost, named⟩ := carried.sound
  refine ⟨carried.ordered, carried.few, carried.numbering, carried.isOpen, carried.channel,
    ⟨keyed, room, ahead, unopened, ledger, lost, named⟩, carried.stored, carried.next,
    carried.unseen, ?_, carried.returned, ?_, rfl⟩
  · intro some
    exact ⟨(carried.counted some).seen, (carried.counted some).cycles, (carried.counted some).ahead,
      (carried.counted some).bounded⟩
  · show path.session.drained ++ path.session.jitter.events = []
    rw [carried.silent.1, carried.silent.2]
    rfl

/-- The lowest key of the buffer is the number of packets polled. -/
theorem lowest_key (carried : path.Carried polled pushed) {number : Nat} {packet : RtpPacket}
    (stored : (number, packet) ∈ path.session.jitter.buffer.entries)
    (lowest : ∀ entry ∈ path.session.jitter.buffer.entries, number ≤ entry.1) :
    number = polled ∧ polled < pushed ∧ path.packets[polled]? = some packet := by
  obtain ⟨above, below, named⟩ := (carried.stored _).mp stored
  have high := carried.ordered.2
  have length : path.packets.length = path.sent.length := List.length_mapIdx
  have next : (polled, path.packets[polled]) ∈ path.session.jitter.buffer.entries :=
    (carried.stored _).mpr ⟨Nat.le_refl _, by omega, List.getElem?_eq_getElem (by omega)⟩
  have least := lowest _ next
  have same : number = polled := Nat.le_antisymm least above
  exact ⟨same, by omega, same ▸ named⟩

/-- The buffer after the lowest key is taken out. -/
theorem stored_erase (carried : path.Carried polled pushed) (entry : Nat × RtpPacket) :
    entry ∈ (path.session.jitter.buffer.erase polled).entries ↔
      polled + 1 ≤ entry.1 ∧ entry.1 < pushed ∧ path.packets[entry.1]? = some entry.2 := by
  rw [Ordered.mem_erase, carried.stored]
  constructor
  · rintro ⟨⟨above, below, named⟩, apart⟩
    exact ⟨by omega, below, named⟩
  · rintro ⟨above, below, named⟩
    exact ⟨⟨by omega, below, named⟩, by omega⟩

/-- A poll of a buffer with something in it returns the next packet of those sent. No
number is missing, so that nothing is declared lost. -/
theorem polls (carried : path.Carried polled pushed) {nowMs : Nat} {after : AudioPath}
    (stepped : path.step (.polls nowMs) = some after) :
    ∃ polled, after.Carried polled pushed := by
  have sound := JitterBuffer.poll_sound carried.sound nowMs
  have counted : 0 < pushed → (path.session.jitter.poll nowMs).2.Counted 0 (pushed - 1) :=
    fun some => JitterBuffer.poll_counted carried.sound nowMs (carried.counted some)
  have unseen : pushed = 0 → (path.session.jitter.poll nowMs).2.highSeq = none :=
    fun none => (JitterBuffer.poll_counts carried.sound nowMs).1.trans (carried.unseen none)
  have outcome := JitterBuffer.poll_outcome path.session.jitter nowMs carried.sound
  obtain rfl := Option.some.inj stepped
  have low := carried.ordered
  generalize path.session.jitter.poll nowMs = result at outcome sound counted unseen
  cases outcome with
  | empty =>
    refine ⟨polled, low, carried.few, carried.numbering, carried.isOpen, carried.channel,
      carried.sound, carried.stored, carried.next, carried.unseen, carried.counted, ?_,
      carried.silent⟩
    show path.session.returned ++ [] = _
    rw [List.append_nil]
    exact carried.returned
  | next number packet expected stored lowest =>
    obtain ⟨rfl, some, named⟩ := carried.lowest_key stored lowest
    refine ⟨number + 1, ⟨some, low.2⟩, carried.few, carried.numbering, carried.isOpen,
      carried.channel, sound, carried.stored_erase, .inr rfl, unseen, counted, ?_, carried.silent⟩
    show path.session.returned ++ [packet] = path.packets.take (number + 1)
    rw [carried.returned, List.take_add_one, named]
    rfl
  | gap number gapSize packet expected stored lowest =>
    obtain ⟨same, some, named⟩ := carried.lowest_key stored lowest
    have none : gapSize = 0 := by
      rcases carried.next with ⟨unset, _⟩ | set
      · rw [unset] at expected
        cases expected
      · have number := Option.some.inj (expected.symm.trans set)
        omega
    subst none
    obtain rfl : number = polled := same
    refine ⟨number + 1, ⟨some, low.2⟩, carried.few, carried.numbering, carried.isOpen,
      carried.channel, sound, carried.stored_erase, .inr rfl, unseen, counted, ?_,
      carried.silent.1, ?_⟩
    · show path.session.returned ++ [packet] = path.packets.take (number + 1)
      rw [carried.returned, List.take_add_one, named]
      rfl
    · show path.session.jitter.events ++ [] = []
      rw [List.append_nil]
      exact carried.silent.2

/-- The number of packets in the buffer. -/
theorem size (carried : path.Carried polled pushed) :
    pushed - polled ≤ path.session.jitter.buffer.size := by
  have high := carried.ordered.2
  have length : path.packets.length = path.sent.length := List.length_mapIdx
  have inside : List.range' polled (pushed - polled) ⊆ path.session.jitter.buffer.keys := by
    intro number member
    obtain ⟨above, below⟩ := List.mem_range'_1.mp member
    refine Ordered.mem_keys.mpr ⟨path.packets[number], (carried.stored _).mpr ⟨above, ?_, ?_⟩⟩
    · show number < pushed
      omega
    · exact List.getElem?_eq_getElem (by omega)
  have fewer := (List.subperm_of_subset (List.nodup_range') inside).length_le
  rw [List.length_range'] at fewer
  exact Nat.le_trans fewer (Nat.le_of_eq (List.length_map _))

/-- The key of the next packet is the number of packets pushed before it. -/
theorem next_key (carried : path.Carried polled pushed) {packet : RtpPacket}
    (named : path.packets[pushed]? = some packet) :
    (path.session.jitter.unwrapSeq packet.sequenceNumber).1 = pushed ∧
      (path.session.jitter.unwrapSeq packet.sequenceNumber).2.Counted 0 pushed := by
  have few := carried.few
  obtain ⟨below, made⟩ := List.getElem?_eq_some_iff.mp named
  have length : path.packets.length = path.sent.length := List.length_mapIdx
  have number : packet.sequenceNumber = UInt16.ofNat pushed := by
    rw [← made]
    simp [packets, RtpPacket.newAudio]
  let arrival : Arrival :=
    { extended := pushed
      packet
      wire := by
        rw [number, UInt16.toNat_ofNat']
        omega }
  have own : keyOf 0 pushed = pushed := by
    unfold keyOf cycleStart
    rw [if_pos (by omega)]
    omega
  rcases Nat.eq_zero_or_pos pushed with none | some
  · obtain ⟨key, counted⟩ := JitterBuffer.unwrapSeq_first arrival (carried.unseen none)
    have place : arrival.extended = 0 := congrArg Nat.cast none
    rw [place] at key counted
    have zero : ((path.session.jitter.unwrapSeq packet.sequenceNumber).1 : ℤ) = 0 :=
      key.trans (by decide)
    subst none
    exact ⟨by omega, counted⟩
  · have near : -32768 < arrival.extended - (pushed - 1) ∧ arrival.extended - (pushed - 1) < 32768 := by
      show -32768 < (pushed : ℤ) - (pushed - 1) ∧ (pushed : ℤ) - (pushed - 1) < 32768
      omega
    have bounded : arrival.extended - cycleStart 0 < 4294967295 := by
      show (pushed : ℤ) - 0 < 4294967295
      omega
    obtain ⟨key, counted⟩ := JitterBuffer.unwrapSeq_next (carried.counted some) near bounded
    have key : ((path.session.jitter.unwrapSeq packet.sequenceNumber).1 : ℤ) = pushed := key.trans own
    have highest : max ((pushed : ℤ) - 1) arrival.extended = pushed := max_eq_right (Int.sub_le_self _ (by decide))
    rw [highest] at counted
    exact ⟨by omega, counted⟩

/-- A push that is not behind the next number stores the packet. -/
theorem push_stored {jitter : JitterBuffer} {packet : RtpPacket}
    (ahead : ∀ next, jitter.nextEmit = some next →
      next ≤ (jitter.unwrapSeq packet.sequenceNumber).1) :
    (jitter.push packet).buffer = (jitter.buffer.insert (jitter.unwrapSeq packet.sequenceNumber).1
        packet).keepHighest jitter.capacity ∧
      (jitter.push packet).nextEmit = jitter.nextEmit := by
  obtain ⟨highSeq, cycles, frame⟩ := JitterBuffer.unwrapSeq_frame jitter packet.sequenceNumber
  unfold JitterBuffer.push
  dsimp only
  rw [frame]
  split
  · next late =>
    cases known : jitter.nextEmit with
    | none => simp [JitterBuffer.isLate, known] at late
    | some next =>
      simp only [JitterBuffer.isLate, known, decide_eq_true_eq] at late
      exact absurd (ahead next known) (Nat.not_le_of_lt late)
  · exact ⟨rfl, rfl⟩

/-- The buffer after the next packet is pushed: nothing is dropped. -/
theorem stored_push (carried : path.Carried polled pushed) {packet : RtpPacket}
    (named : path.packets[pushed]? = some packet)
    (room : path.session.jitter.buffer.size < path.session.jitter.capacity) (entry : Nat × RtpPacket) :
    entry ∈ ((path.session.jitter.buffer.insert pushed packet).keepHighest
        path.session.jitter.capacity).entries ↔
      polled ≤ entry.1 ∧ entry.1 < pushed + 1 ∧ path.packets[entry.1]? = some entry.2 := by
  have size := carried.size
  have low := carried.ordered.1
  have inserted : ∀ other, other ∈ (path.session.jitter.buffer.insert pushed packet).entries ↔
      polled ≤ other.1 ∧ other.1 < pushed + 1 ∧ path.packets[other.1]? = some other.2 := by
    intro other
    rw [Ordered.mem_insert, carried.stored]
    constructor
    · rintro (rfl | ⟨⟨above, below, held⟩, _⟩)
      · exact ⟨low, Nat.lt_succ_self pushed, named⟩
      · exact ⟨above, Nat.lt_succ_of_lt below, held⟩
    · rintro ⟨above, below, held⟩
      by_cases new : other.1 = pushed
      · rw [new, named] at held
        exact .inl (Prod.ext new (Option.some.inj held).symm)
      · exact .inr ⟨⟨above, by omega, held⟩, new⟩
  constructor
  · exact fun member => (inserted entry).mp (Ordered.mem_of_mem_keepHighest member)
  · intro within
    refine Ordered.mem_keepHighest ((inserted entry).mpr within)
      (fun other member => ((inserted other).mp member).2.1) ?_
    omega

/-- The next packet of the channel is pushed, and is the highest in the buffer. -/
theorem delivers (carried : path.Carried polled pushed) {after : AudioPath}
    (room : path.session.jitter.buffer.size < path.session.jitter.capacity)
    (stepped : path.step .delivers = some after) : after.Carried polled (pushed + 1) := by
  have length : path.packets.length = path.sent.length := List.length_mapIdx
  cases waiting : path.packets.drop pushed with
  | nil =>
    rw [step, carried.channel, waiting] at stepped
    cases stepped
  | cons packet rest =>
    have named : path.packets[pushed]? = some packet := by
      rw [← List.head?_drop, waiting]
      rfl
    have below := (List.getElem?_eq_some_iff.mp named).1
    have later : path.packets.drop (pushed + 1) = rest := by
      rw [← List.drop_drop, waiting]
      rfl
    have read := packets_read (List.mem_of_getElem? named)
    obtain ⟨key, counted⟩ := carried.next_key named
    have low := carried.ordered.1
    have ahead : ∀ next, path.session.jitter.nextEmit = some next →
        next ≤ (path.session.jitter.unwrapSeq packet.sequenceNumber).1 := by
      intro next known
      rcases carried.next with ⟨unset, _⟩ | set
      · rw [unset] at known
        cases known
      · obtain rfl := Option.some.inj (set.symm.trans known)
        rw [key]
        exact low
    obtain ⟨buffer, nextEmit⟩ := push_stored ahead
    rw [key] at buffer
    have sound := JitterBuffer.push_sound carried.sound packet (by rw [key]; have few := carried.few; omega)
    have events := (JitterBuffer.push_outputs path.session.jitter packet).2.1
    simp only [step, carried.channel, waiting, List.map_cons, read, Session.step, Option.map_some] at stepped
    obtain rfl := Option.some.inj stepped
    refine ⟨⟨by omega, by show pushed + 1 ≤ path.sent.length; omega⟩, carried.few, carried.numbering,
      carried.isOpen, ?_, sound, ?_, ?_, ?_, ?_, carried.returned, carried.silent.1, ?_⟩
    · show rest.map RtpPacket.toBytes = (path.packets.drop (pushed + 1)).map RtpPacket.toBytes
      rw [later]
    · intro entry
      show entry ∈ (path.session.jitter.push packet).buffer.entries ↔ _
      rw [buffer]
      exact carried.stored_push named room entry
    · show (path.session.jitter.push packet).nextEmit = none ∧ _ ∨
        (path.session.jitter.push packet).nextEmit = _
      rw [nextEmit]
      exact carried.next
    · intro impossible
      cases impossible
    · intro _
      have highest : ((pushed + 1 : Nat) : ℤ) - 1 = pushed := by omega
      rw [highest]
      exact JitterBuffer.push_counted counted
    · exact events.trans carried.silent.2

end Carried

/-- One event keeps account of what was sent. -/
theorem step_carried (before : AudioPath) (event : AudioEvent) (after : AudioPath)
    (carried : ∃ polled pushed, before.Carried polled pushed) (fits : before.Fits event)
    (stepped : before.step event = some after) : ∃ polled pushed, after.Carried polled pushed := by
  obtain ⟨polled, pushed, carried⟩ := carried
  cases event with
  | sends payload timestamp => exact ⟨polled, pushed, carried.sends fits stepped⟩
  | delivers => exact ⟨polled, pushed + 1, carried.delivers fits stepped⟩
  | polls nowMs =>
    obtain ⟨later, kept⟩ := carried.polls stepped
    exact ⟨later, pushed, kept⟩
  | drains => exact ⟨polled, pushed, carried.drains stepped⟩

/-- The audio path is lossless and in order: whatever the polls and however many wraps,
what was polled is the beginning of what was sent, nothing is declared lost, and once
the channel and the buffer are empty it is all that was sent.

The path is described by two marks in what was sent: how far it was polled and how far it
was pushed. A sender moves neither, and the buffer holds what is between the two. -/
theorem audio_lossless {ssrc : UInt32} {capacity : Nat} {path : AudioPath}
    (reached : Reaches step Fits (opened ssrc capacity) path) :
    path.session.returned.map content <+: path.sent ∧
      path.session.drained ++ path.session.jitter.events = [] ∧
      (path.sender.tx.queue = [] → path.session.jitter.buffer.entries = [] →
        path.session.returned.map content = path.sent) := by
  obtain ⟨polled, pushed, carried⟩ := Reaches.invariant
    (fun path => ∃ polled pushed, Carried path polled pushed)
    ⟨0, 0, Carried.opened ssrc capacity⟩ step_carried reached
  have length : path.packets.length = path.sent.length := List.length_mapIdx
  have returned : path.session.returned.map content = path.sent.take polled := by
    rw [carried.returned, List.map_take, packets_content]
  refine ⟨?_, ?_, ?_⟩
  · rw [returned]
    exact List.take_prefix polled path.sent
  · rw [carried.silent.1, carried.silent.2]
    rfl
  · intro channel buffer
    have delivered : path.sent.length ≤ pushed := by
      rw [carried.channel, List.map_eq_nil_iff, List.drop_eq_nil_iff, length] at channel
      exact channel
    have low := carried.ordered
    by_cases all : polled = pushed
    · rw [returned, List.take_of_length_le (by omega)]
    · have waits := (carried.stored (polled, path.packets[polled])).mpr
        ⟨Nat.le_refl _, by omega, List.getElem?_eq_getElem (by omega)⟩
      rw [buffer] at waits
      cases waits

/-- Three payloads through a buffer with room for two. -/
def sampleRun : List AudioEvent :=
  [.sends [1] 0, .polls 0, .sends [2] 960, .delivers, .delivers, .polls 20, .sends [] 1920,
    .delivers, .drains, .polls 40, .polls 60]

/-- The path after that run. -/
def samplePath : AudioPath := (walk step Fits (opened 7 2) sampleRun).getD (opened 7 2)

/-- In the sample every frame that was sent is returned, across the wrap of the numbers. -/
theorem audio_lossless_sample : samplePath.sent = [([1], 0), ([2], 960), ([], 1920)] ∧
    samplePath.session.returned.map content = samplePath.sent :=
  ⟨by decide +kernel,
    (audio_lossless (walk_reaches_end step Fits (opened 7 2) sampleRun (by decide +kernel))).2.2
      (by decide +kernel) (by decide +kernel)⟩

end AudioPath

end Seameet.Rtp
