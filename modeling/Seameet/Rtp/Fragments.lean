import Seameet.Library.Chunks
import Seameet.Library.Traced
import Seameet.Rtp.Sender

/-!
# Video in fragments

A video frame is cut into payloads that fit a packet. The fragments of a frame carry
its timestamp and follow each other in the sender's one numbering, which audio shares;
the last one is marked. A frame without data makes no packet at all.

What a call puts into the channel is said once, as a list of packets. A run of calls
puts these lists one after the other, and cutting after the marks takes the video
packets apart again.
-/

namespace Seameet.Rtp

open Library

/-- Maximum payload size per RTP packet (MTU-safe). -/
def maxPayloadSize : Nat := 1200

namespace RtpSender

/-- The loop over the chunks of a frame, from the chunk at an index on. -/
def sendChunks (timestamp : UInt32) (lastIdx : Nat) :
    RtpSender → Nat → List (List UInt8) → Except SeaMeetError Unit × RtpSender
  | sender, _, [] => (.ok (), sender)
  | sender, i, chunk :: rest =>
    let (seq, sender) := sender.nextSeq
    let marker := i == lastIdx
    match sender.sendPacket (.newVideo chunk timestamp sender.ssrc seq marker) with
    | (.error error, sender) => (.error error, sender)
    | (.ok (), sender) => sendChunks timestamp lastIdx sender (i + 1) rest

/-- Sends an encoded video frame, fragmenting into MTU-safe RTP packets. -/
def sendVideo (sender : RtpSender) (data : List UInt8) (timestamp : UInt32) :
    Except SeaMeetError Unit × RtpSender :=
  let chunks := chunks maxPayloadSize data
  let lastIdx := chunks.length - 1
  sendChunks timestamp lastIdx sender 0 chunks

end RtpSender

/-- A call on a sender. -/
inductive SendCall where
  | audio (payload : List UInt8) (timestamp : UInt32)
  | video (data : List UInt8) (timestamp : UInt32)
  deriving DecidableEq, Repr

namespace SendCall

/-- A call, with what it returns. -/
def send (sender : RtpSender) (call : SendCall) : RtpSender × List (Except SeaMeetError Unit) :=
  match call with
  | .audio payload timestamp =>
    let (result, sender) := sender.sendAudio payload timestamp
    (sender, [result])
  | .video data timestamp =>
    let (result, sender) := sender.sendVideo data timestamp
    (sender, [result])

/-- The packets of a frame, the first of them with this number. -/
def fragments (ssrc : UInt32) (seq : UInt16) (data : List UInt8) (timestamp : UInt32) :
    List RtpPacket :=
  (chunks maxPayloadSize data).mapIdx fun i chunk =>
    .newVideo chunk timestamp ssrc (seq + UInt16.ofNat i) (i == (chunks maxPayloadSize data).length - 1)

/-- The packets of a call, the first of them with this number. -/
def packets (ssrc : UInt32) (seq : UInt16) : SendCall → List RtpPacket
  | .audio payload timestamp => [.newAudio payload timestamp ssrc seq]
  | .video data timestamp => fragments ssrc seq data timestamp

/-- The frame of a call, when it has one. -/
def frame? : SendCall → Option (List UInt8 × UInt32)
  | .audio _ _ => none
  | .video data timestamp => if data = [] then none else some (data, timestamp)

end SendCall

/-- Audio and video are told apart by their payload types. -/
def RtpPacket.isVideo (packet : RtpPacket) : Bool := packet.payloadType == ptVideo

/-- The sender has put these packets into the open channel, and numbered them on. -/
structure Sends (before after : RtpSender) (packets : List RtpPacket) : Prop where
  ssrc : after.ssrc = before.ssrc
  seq : after.seq = before.seq + UInt16.ofNat packets.length
  isOpen : after.tx.isOpen = true
  queue : after.tx.queue = before.tx.queue ++ packets.map RtpPacket.toBytes

namespace Sends

variable {first second third : RtpSender} {packets more : List RtpPacket}

/-- Sending nothing sends nothing. -/
theorem none (isOpen : first.tx.isOpen = true) : Sends first first [] where
  ssrc := rfl
  seq := by simp
  isOpen := isOpen
  queue := by simp

/-- Two sendings in a row are a sending. -/
theorem trans (earlier : Sends first second packets) (later : Sends second third more) :
    Sends first third (packets ++ more) where
  ssrc := later.ssrc.trans earlier.ssrc
  seq := by
    rw [later.seq, earlier.seq, List.length_append, UInt16.ofNat_add, UInt16.add_assoc]
  isOpen := later.isOpen
  queue := by rw [later.queue, earlier.queue, List.map_append, List.append_assoc]

/-- One packet with the next number. -/
theorem one (isOpen : first.tx.isOpen = true) (packet : RtpPacket) :
    (first.nextSeq.2.sendPacket packet).1 = .ok () ∧
      Sends first (first.nextSeq.2.sendPacket packet).2 [packet] := by
  simp only [RtpSender.nextSeq, RtpSender.sendPacket, isOpen, if_true]
  exact ⟨trivial, rfl, rfl, rfl, rfl⟩

end Sends

section Calls

variable {sender : RtpSender}

/-- The loop over the chunks, on an open channel. The induction is on the chunks still
to be sent. -/
theorem sendChunks_sends (isOpen : sender.tx.isOpen = true) (timestamp : UInt32) (lastIdx i : Nat)
    (chunks : List (List UInt8)) :
    (RtpSender.sendChunks timestamp lastIdx sender i chunks).1 = .ok () ∧
      Sends sender (RtpSender.sendChunks timestamp lastIdx sender i chunks).2
        (chunks.mapIdx fun j chunk => .newVideo chunk timestamp sender.ssrc
          (sender.seq + UInt16.ofNat j) (i + j == lastIdx)) := by
  induction chunks generalizing sender i with
  | nil => exact ⟨rfl, .none isOpen⟩
  | cons chunk rest inductionHypothesis =>
    let packet := RtpPacket.newVideo chunk timestamp sender.ssrc sender.seq (i == lastIdx)
    obtain ⟨taken, sends⟩ := Sends.one isOpen packet
    obtain ⟨result, later⟩ := inductionHypothesis sends.isOpen (i + 1)
    have unfolded : RtpSender.sendChunks timestamp lastIdx sender i (chunk :: rest) =
        RtpSender.sendChunks timestamp lastIdx (sender.nextSeq.2.sendPacket packet).2 (i + 1) rest := by
      simp only [RtpSender.sendChunks, packet, RtpSender.nextSeq, RtpSender.sendPacket, isOpen, if_true]
    have numbered : ∀ j, sender.seq + UInt16.ofNat 1 + UInt16.ofNat j =
        sender.seq + UInt16.ofNat (j + 1) := by
      intro j
      rw [UInt16.ofNat_add, UInt16.add_assoc, UInt16.add_comm (UInt16.ofNat 1)]
    have place : ∀ j, i + 1 + j = i + (j + 1) := fun j => by omega
    have first : sender.seq + UInt16.ofNat 0 = sender.seq := UInt16.add_zero sender.seq
    have whole := sends.trans later
    simp only [sends.ssrc, sends.seq, List.length_singleton, place, numbered] at whole
    rw [unfolded, List.mapIdx_cons, first]
    exact ⟨result, whole⟩

/-- A call on an open channel succeeds and sends its packets. -/
theorem send_sends (isOpen : sender.tx.isOpen = true) (call : SendCall) :
    (call.send sender).2 = [.ok ()] ∧
      Sends sender (call.send sender).1 (call.packets sender.ssrc sender.seq) := by
  cases call with
  | audio payload timestamp =>
    obtain ⟨result, sends⟩ := Sends.one isOpen (.newAudio payload timestamp sender.ssrc sender.seq)
    exact ⟨congrArg (fun outcome => [outcome]) result, sends⟩
  | video data timestamp =>
    obtain ⟨result, sends⟩ := sendChunks_sends isOpen timestamp
      ((chunks maxPayloadSize data).length - 1) 0 (chunks maxPayloadSize data)
    simp only [Nat.zero_add] at sends
    exact ⟨congrArg (fun outcome => [outcome]) result, sends⟩

/-- The packets of calls that follow each other. -/
def packetsOf (ssrc : UInt32) : UInt16 → List SendCall → List RtpPacket
  | _, [] => []
  | seq, call :: rest =>
      call.packets ssrc seq ++
        packetsOf ssrc (seq + UInt16.ofNat (call.packets ssrc seq).length) rest

/-- A run of calls on an open channel. -/
theorem run_sends (isOpen : sender.tx.isOpen = true) (calls : List SendCall) :
    (traced SendCall.send sender calls).2 = calls.map (fun _ => .ok ()) ∧
      Sends sender (traced SendCall.send sender calls).1 (packetsOf sender.ssrc sender.seq calls) := by
  induction calls generalizing sender with
  | nil => exact ⟨rfl, .none isOpen⟩
  | cons call rest inductionHypothesis =>
    obtain ⟨result, sends⟩ := send_sends isOpen call
    obtain ⟨results, later⟩ := inductionHypothesis sends.isOpen
    rw [sends.ssrc, sends.seq] at later
    exact ⟨by rw [traced, result, results]; rfl, sends.trans later⟩

end Calls

section Packets

variable {ssrc : UInt32} {seq : UInt16} {data : List UInt8} {timestamp : UInt32}

/-- The first packets of a list are numbered on from a number. -/
def Numbered (seq : UInt16) (packets : List RtpPacket) : Prop :=
  ∀ i packet, packets[i]? = some packet → packet.sequenceNumber = seq + UInt16.ofNat i

/-- Numbered packets in a row are numbered. -/
theorem Numbered.append {packets more : List RtpPacket} (numbered : Numbered seq packets)
    (later : Numbered (seq + UInt16.ofNat packets.length) more) : Numbered seq (packets ++ more) := by
  intro i packet found
  by_cases first : i < packets.length
  · rw [List.getElem?_append_left first] at found
    exact numbered i packet found
  · rw [List.getElem?_append_right (Nat.le_of_not_lt first)] at found
    have place : i = packets.length + (i - packets.length) := by omega
    rw [later _ packet found, UInt16.add_assoc, ← UInt16.ofNat_add, ← place]

/-- The packets of one call are numbered from where the sender stands. -/
theorem packets_numbered (call : SendCall) : Numbered seq (call.packets ssrc seq) := by
  intro i packet found
  cases call with
  | audio payload timestamp =>
    obtain ⟨below, rfl⟩ := List.getElem?_eq_some_iff.mp found
    obtain rfl : i = 0 := by simpa [SendCall.packets] using below
    exact (UInt16.add_zero seq).symm
  | video data timestamp =>
    simp only [SendCall.packets, SendCall.fragments, List.getElem?_mapIdx, Option.map_eq_some_iff] at found
    obtain ⟨chunk, _, rfl⟩ := found
    rfl

/-- The packets of several calls are numbered from where the sender stands: by the calls. -/
theorem packetsOf_numbered (calls : List SendCall) : Numbered seq (packetsOf ssrc seq calls) := by
  induction calls generalizing seq with
  | nil => exact nofun
  | cons call rest inductionHypothesis => exact (packets_numbered call).append inductionHypothesis

/-- What is known of each packet: it is read back as it was, and a video packet is
neither empty nor too long. -/
def Proper (packet : RtpPacket) : Prop :=
  RtpPacket.fromBytes packet.toBytes = .ok packet ∧
    (packet.isVideo = true → 1 ≤ packet.payload.length ∧ packet.payload.length ≤ maxPayloadSize)

/-- A fragment is a video packet with the frame's timestamp and one of its chunks. -/
theorem mem_fragments {packet : RtpPacket} (member : packet ∈ SendCall.fragments ssrc seq data timestamp) :
    Proper packet ∧ packet.isVideo = true ∧ packet.timestamp = timestamp := by
  obtain ⟨i, below, rfl⟩ := List.mem_mapIdx.mp member
  refine ⟨⟨?_, ?_⟩, rfl, rfl⟩
  · exact RtpPacket.fromBytes_toBytes (RtpPacket.new_wellFormed _ _ _ _ _).2
  · exact fun _ => chunks_size (by decide) (List.getElem_mem below)

/-- A packet of a call is proper. -/
theorem packets_proper {call : SendCall} {packet : RtpPacket} (member : packet ∈ call.packets ssrc seq) :
    Proper packet := by
  cases call with
  | audio payload timestamp =>
    obtain rfl := List.mem_singleton.mp member
    refine ⟨RtpPacket.fromBytes_toBytes (RtpPacket.new_wellFormed _ _ _ _ false).1, ?_⟩
    intro impossible
    cases impossible
  | video data timestamp => exact (mem_fragments member).1

/-- The packets of several calls are proper. -/
theorem packetsOf_proper (calls : List SendCall) : ∀ packet ∈ packetsOf ssrc seq calls, Proper packet := by
  induction calls generalizing seq with
  | nil => exact nofun
  | cons call rest inductionHypothesis =>
    intro packet member
    rcases List.mem_append.mp member with here | later
    · exact packets_proper here
    · exact inductionHypothesis packet later

/-- The payloads of a frame's packets are the frame. -/
theorem fragments_payload :
    (SendCall.fragments ssrc seq data timestamp).flatMap RtpPacket.payload = data := by
  have payloads : (SendCall.fragments ssrc seq data timestamp).map RtpPacket.payload =
      chunks maxPayloadSize data := by
    unfold SendCall.fragments
    apply List.ext_getElem
    · simp
    · intro i below _
      simp [RtpPacket.newVideo]
  rw [List.flatMap_def, payloads]
  exact chunks_flatten (by decide) data

/-- The packets of a frame that is not empty are marked at the end and nowhere else. -/
theorem fragments_closed (full : data ≠ []) :
    Closed RtpPacket.marker (SendCall.fragments ssrc seq data timestamp) := by
  have pieces : chunks maxPayloadSize data ≠ [] :=
    fun none => full ((chunks_eq_nil (by decide)).mp none)
  obtain ⟨earlier, last, split⟩ := (List.eq_nil_or_concat _).resolve_left pieces
  have lastIdx : (earlier ++ [last]).length - 1 = earlier.length := by simp
  rw [SendCall.fragments, split, List.concat_eq_append, lastIdx, List.mapIdx_append]
  refine ⟨_, _, rfl, by simp [RtpPacket.newVideo], ?_⟩
  intro packet member
  obtain ⟨i, below, rfl⟩ := List.mem_mapIdx.mp member
  have before : i ≠ earlier.length := Nat.ne_of_lt below
  simpa [RtpPacket.newVideo] using before

/-- The packets of the frames that are not empty, frame by frame. -/
def framePackets (ssrc : UInt32) : UInt16 → List SendCall → List (List RtpPacket)
  | _, [] => []
  | seq, call :: rest =>
      let sent := call.packets ssrc seq
      let later := framePackets ssrc (seq + UInt16.ofNat sent.length) rest
      if call.frame?.isSome then sent :: later else later

/-- The video packets are those of the frames, one frame after the other. -/
theorem video_flatten (calls : List SendCall) :
    (packetsOf ssrc seq calls).filter RtpPacket.isVideo = (framePackets ssrc seq calls).flatten := by
  induction calls generalizing seq with
  | nil => rfl
  | cons call rest inductionHypothesis =>
    rw [packetsOf, List.filter_append, inductionHypothesis, framePackets]
    cases call with
    | audio payload timestamp => rfl
    | video data timestamp =>
      have all : (SendCall.fragments ssrc seq data timestamp).filter RtpPacket.isVideo =
          SendCall.fragments ssrc seq data timestamp :=
        List.filter_eq_self.mpr fun packet member => (mem_fragments member).2.1
      show (SendCall.fragments ssrc seq data timestamp).filter RtpPacket.isVideo ++ _ = _
      rw [all]
      by_cases empty : data = []
      · subst empty
        rfl
      · simp [SendCall.frame?, empty, SendCall.packets]

/-- Each frame that is not empty has its packets, and they are closed. -/
theorem framePackets_frames (calls : List SendCall) :
    (∀ piece ∈ framePackets ssrc seq calls, Closed RtpPacket.marker piece) ∧
      List.Forall₂ (fun piece frame => piece.flatMap RtpPacket.payload = frame.1 ∧
        ∀ packet ∈ piece, packet.timestamp = frame.2)
      (framePackets ssrc seq calls) (calls.filterMap SendCall.frame?) := by
  induction calls generalizing seq with
  | nil => exact ⟨nofun, .nil⟩
  | cons call rest inductionHypothesis =>
    obtain ⟨closed, frames⟩ := @inductionHypothesis (seq + UInt16.ofNat (call.packets ssrc seq).length)
    rw [framePackets, List.filterMap_cons]
    cases call with
    | audio payload timestamp => exact ⟨closed, frames⟩
    | video data timestamp =>
      by_cases empty : data = []
      · subst empty
        exact ⟨closed, frames⟩
      · simp only [SendCall.frame?, empty, if_false, Option.isSome_some, if_true]
        constructor
        · intro piece member
          rcases List.mem_cons.mp member with rfl | later
          · exact fragments_closed empty
          · exact closed piece later
        · exact .cons ⟨fragments_payload, fun packet member => (mem_fragments member).2.2⟩ frames

end Packets

/-- Fragmentation is reversible. The packets that any calls put into an open channel are
read back with consecutive numbers, no video payload is empty or too long, and cutting
the video packets after the marks gives the frames that are not empty, in order, each
packet with its frame's timestamp.

The packets of a call are its fragments, numbered from where the sender stands, and the mark
is on the last of them. The parser reads each of them back, and the marks cut where a frame
ends. -/
theorem video_reassembled (sender : RtpSender) (isOpen : sender.tx.isOpen = true)
    (calls : List SendCall) :
    let run := traced SendCall.send sender calls
    ∃ emitted packets, run.1.tx.queue = sender.tx.queue ++ emitted ∧
      emitted.map RtpPacket.fromBytes = packets.map .ok ∧
      Numbered sender.seq packets ∧
      (∀ packet ∈ packets, packet.isVideo = true →
        1 ≤ packet.payload.length ∧ packet.payload.length ≤ maxPayloadSize) ∧
      List.Forall₂ (fun piece frame => piece.flatMap RtpPacket.payload = frame.1 ∧
          ∀ packet ∈ piece, packet.timestamp = frame.2)
        (cutAfter RtpPacket.marker (packets.filter RtpPacket.isVideo))
        (calls.filterMap SendCall.frame?) := by
  obtain ⟨_, sends⟩ := run_sends isOpen calls
  have proper : ∀ packet ∈ packetsOf sender.ssrc sender.seq calls, Proper packet :=
    packetsOf_proper calls
  refine ⟨_, packetsOf sender.ssrc sender.seq calls, sends.queue, ?_, packetsOf_numbered calls,
    fun packet member => (proper packet member).2, ?_⟩
  · rw [List.map_map]
    exact List.map_congr_left fun packet member => (proper packet member).1
  · obtain ⟨closed, frames⟩ := @framePackets_frames sender.ssrc sender.seq calls
    rw [video_flatten, cutAfter_flatten _ closed]
    exact frames

/-- A frame of one byte more than fits a packet, an empty one and a short one, with audio
in between. -/
def sampleCalls : List SendCall :=
  [.audio [1, 2] 960, .video (List.replicate 1201 5) 3000, .audio [] 1920, .video [] 6000,
    .video [9] 9000]

/-- The sample's packets are parsed and put together to the frames that were sent. -/
theorem video_reassembled_sample :
    ∃ emitted, ∃ packets : List RtpPacket,
      (traced SendCall.send (RtpSender.new 7) sampleCalls).1.tx.queue = emitted ∧
      emitted.map RtpPacket.fromBytes = packets.map .ok ∧
      List.Forall₂ (fun piece frame => piece.flatMap RtpPacket.payload = frame.1 ∧
          ∀ packet ∈ piece, packet.timestamp = frame.2)
        (cutAfter RtpPacket.marker (packets.filter RtpPacket.isVideo))
        [(List.replicate 1201 5, 3000), ([9], 9000)] := by
  obtain ⟨emitted, packets, queue, read, _, _, frames⟩ :=
    video_reassembled (RtpSender.new 7) rfl sampleCalls
  exact ⟨emitted, packets, queue, read, frames⟩

end Seameet.Rtp
