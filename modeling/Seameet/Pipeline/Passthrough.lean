import Seameet.Pipeline.Inbound
import Seameet.Pipeline.Outbound
import Seameet.Rtp.Sender

/-!
# Raw audio from end to end

The passthrough codec writes a frame as its sample rate, its channels and its samples,
each with the lowest byte first, and reads back exactly the payloads of that shape.

With this codec at both ends, a pipeline that sends is joined to one that receives by a
channel that keeps the order. Whatever the processors hold back, and whenever packets are
delivered and the buffer is drained, the listener hears the frames that were let through,
in order and unchanged, and no draining fails.
-/

namespace Seameet.Pipeline

open Library Rtp

namespace AudioPassthrough

/-- The bytes of a number, lowest first. -/
def littleEndian (width number : Nat) : List UInt8 := (BigEndian.encode width number).reverse

/-- Writes raw PCM data: the sample rate, the channels and the samples, with the lowest
byte of each first. -/
def encode (input : PcmFrame) : List UInt8 :=
  littleEndian 4 input.sampleRate.toNat ++ littleEndian 2 input.channels.toNat ++
    input.samples.flatMap fun sample => littleEndian 4 sample.toNat

section Format

/-- A number is written in as many bytes as the width. -/
@[simp] theorem littleEndian_length (width number : Nat) :
    (littleEndian width number).length = width := by
  simp [littleEndian]

/-- A number that fits its field is read back as it was written. -/
theorem decode_littleEndian {width number : Nat} (fits : number < BigEndian.span width) :
    BigEndian.decode (littleEndian width number).reverse = number := by
  rw [littleEndian, List.reverse_reverse, BigEndian.decode_encode fits]

/-- Bytes read as a number are written again unchanged. -/
theorem littleEndian_decode {bytes : List UInt8} {width : Nat} (length : bytes.length = width) :
    littleEndian width (BigEndian.decode bytes.reverse) = bytes := by
  rw [littleEndian, BigEndian.encode_decode_of_length (by rw [List.length_reverse, length]),
    List.reverse_reverse]

/-- A sample that is written is read back. -/
theorem u32_littleEndian (number : UInt32) :
    UInt32.ofNat (BigEndian.decode (littleEndian 4 number.toNat).reverse) = number := by
  rw [decode_littleEndian number.toNat_lt, UInt32.ofNat_toNat]

/-- Four bytes that are read are written back. -/
theorem littleEndian_u32 {bytes : List UInt8} (length : bytes.length = 4) :
    littleEndian 4 (UInt32.ofNat (BigEndian.decode bytes.reverse)).toNat = bytes := by
  have reversed : bytes.reverse.length = 4 := by rw [List.length_reverse, length]
  have below : BigEndian.decode bytes.reverse < 2 ^ 32 := BigEndian.decode_lt reversed
  rw [UInt32.toNat_ofNat', Nat.mod_eq_of_lt below, littleEndian_decode length]

/-- Two bytes that are read are written back. -/
theorem littleEndian_u16 {bytes : List UInt8} (length : bytes.length = 2) :
    littleEndian 2 (UInt16.ofNat (BigEndian.decode bytes.reverse)).toNat = bytes := by
  have reversed : bytes.reverse.length = 2 := by rw [List.length_reverse, length]
  have below : BigEndian.decode bytes.reverse < 2 ^ 16 := BigEndian.decode_lt reversed
  rw [UInt16.toNat_ofNat', Nat.mod_eq_of_lt below, littleEndian_decode length]

/-- The written samples are cut into those they were written from. -/
theorem chunks_samples (samples : List UInt32) :
    chunks 4 (samples.flatMap fun sample => littleEndian 4 sample.toNat) =
      samples.map fun sample => littleEndian 4 sample.toNat := by
  rw [List.flatMap_def]
  refine chunks_even (by decide) ?_
  intro piece member
  obtain ⟨sample, _, rfl⟩ := List.mem_map.mp member
  exact littleEndian_length 4 _

/-- Each sample takes four bytes. -/
theorem samples_length (samples : List UInt32) :
    (samples.flatMap fun sample => littleEndian 4 sample.toNat).length = samples.length * 4 := by
  induction samples with
  | nil => rfl
  | cons sample rest inductionHypothesis =>
    rw [List.flatMap_cons, List.length_append, littleEndian_length, inductionHypothesis,
      List.length_cons]
    omega

/-- A frame that was written is read back. -/
theorem decode_encode (frame : PcmFrame) : decode (encode frame) = .ok frame := by
  have length : (encode frame).length = 6 + frame.samples.length * 4 := by
    rw [encode, List.length_append, List.length_append, littleEndian_length, littleEndian_length,
      samples_length]
  have rate : (encode frame).take 4 = littleEndian 4 frame.sampleRate.toNat := by
    rw [encode, List.append_assoc]
    exact List.take_left' (littleEndian_length 4 _)
  have channels : ((encode frame).drop 4).take 2 = littleEndian 2 frame.channels.toNat := by
    rw [encode, List.append_assoc, List.drop_left' (littleEndian_length 4 _)]
    exact List.take_left' (littleEndian_length 2 _)
  have samples : (encode frame).drop 6 =
      frame.samples.flatMap fun sample => littleEndian 4 sample.toNat := by
    rw [encode]
    exact List.drop_left' (by rw [List.length_append, littleEndian_length, littleEndian_length])
  have read : (frame.samples.map fun sample => littleEndian 4 sample.toNat).map
      (fun piece => UInt32.ofNat (BigEndian.decode piece.reverse)) = frame.samples := by
    rw [List.map_map]
    exact (List.map_congr_left fun sample _ => u32_littleEndian sample).trans (List.map_id _)
  have channel : UInt16.ofNat (BigEndian.decode (littleEndian 2 frame.channels.toNat).reverse) =
      frame.channels := by
    rw [decode_littleEndian frame.channels.toNat_lt, UInt16.ofNat_toNat]
  unfold decode
  rw [if_neg (by omega)]
  dsimp only
  rw [samples, samples_length, if_neg (by omega), rate, channels, chunks_samples, read, channel,
    u32_littleEndian]

/-- What is read back was written so. -/
theorem encode_decode {data : List UInt8} {frame : PcmFrame} (read : decode data = .ok frame) :
    encode frame = data := by
  unfold decode at read
  split at read
  · cases read
  · next long =>
    dsimp only at read
    split at read
    · cases read
    · next aligned =>
      obtain rfl := Except.ok.inj read
      have whole : (chunks 4 (data.drop 6)).flatten = data.drop 6 :=
        chunks_flatten (by decide) (data.drop 6)
      have samples : ((chunks 4 (data.drop 6)).map fun piece =>
          UInt32.ofNat (BigEndian.decode piece.reverse)).flatMap
            (fun sample => littleEndian 4 sample.toNat) = data.drop 6 := by
        rw [List.flatMap_map]
        refine Eq.trans ?_ whole
        rw [List.flatMap_def]
        refine congrArg List.flatten ((List.map_congr_left ?_).trans (List.map_id _))
        intro piece member
        exact littleEndian_u32 (chunks_full (by decide) (by omega) member)
      have rate : (data.take 4).length = 4 := List.length_take_of_le (by omega)
      have channels : ((data.drop 4).take 2).length = 2 :=
        List.length_take_of_le (by rw [List.length_drop]; omega)
      unfold encode
      dsimp only
      rw [samples, littleEndian_u32 rate, littleEndian_u16 channels, List.append_assoc]
      have rest : (data.drop 4).take 2 ++ data.drop 6 = data.drop 4 := by
        have split := List.take_append_drop 2 (data.drop 4)
        rw [List.drop_drop] at split
        exact split
      rw [rest, List.take_append_drop]

/-- A payload is read exactly when it has the six bytes in front and whole samples
behind them. -/
theorem decode_isOk_iff (data : List UInt8) :
    (∃ frame, decode data = .ok frame) ↔ 6 ≤ data.length ∧ (data.length - 6) % 4 = 0 := by
  unfold decode
  split
  · next short =>
    constructor
    · rintro ⟨_, ⟨⟩⟩
    · rintro ⟨long, _⟩
      omega
  · next long =>
    dsimp only
    rw [List.length_drop]
    split
    · next ragged =>
      constructor
      · rintro ⟨_, ⟨⟩⟩
      · rintro ⟨_, aligned⟩
        exact absurd aligned ragged
    · next aligned => exact ⟨fun _ => ⟨by omega, by omega⟩, fun _ => ⟨_, rfl⟩⟩

/-- Frames and the payloads of that shape are written and read back one to one.

The samples are little-endian words, which are taken apart and put together four bytes at a
time. -/
theorem passthrough_bijective :
    (∀ frame, decode (encode frame) = .ok frame) ∧
      (∀ data frame, decode data = .ok frame → encode frame = data) ∧
        ∀ data, (∃ frame, decode data = .ok frame) ↔
          6 ≤ data.length ∧ (data.length - 6) % 4 = 0 :=
  ⟨decode_encode, fun _ _ => encode_decode, decode_isOk_iff⟩

end Format

/-- The codec of a receiving pipeline. -/
def decodeRaw (decoder : Unit) (data : List UInt8) : Except SeaMeetError PcmFrame × Unit :=
  (decode data, decoder)

/-- The code of a sending pipeline with these processors. -/
def stages {Processor Event : Type}
    (processAudio : Processor → PcmFrame → ProcessorHint Event × PcmFrame × Processor) :
    Stages Processor Unit PcmFrame Event :=
  { processAudio, encode := fun encoder input => (.ok (encode input), encoder) }

end AudioPassthrough

open AudioPassthrough

variable {Processor Event : Type}

/-- A pipeline that sends raw audio and one that receives it. -/
structure AudioCall (Processor Event : Type) where
  outbound : OutboundPipeline Processor Unit Event
  inbound : InboundPipeline Unit PcmFrame
  /-- The frames that the processors let through. -/
  forwarded : List PcmFrame

/-- Something that happens in a call. -/
inductive AudioCallEvent (Processor : Type) where
  | addsProcessor (processor : Processor)
  | setsTiming (sampleRate frameMs : UInt32)
  | captures (frame : PcmFrame)
  /-- The next packet of the channel is read and pushed. -/
  | delivers
  | drains (nowMs : Nat)

namespace AudioCall

/-- A call in which nothing was captured. -/
def opened (ssrc audioTs videoTs : UInt32) : AudioCall Processor Event :=
  { outbound := .new () (.new ssrc) audioTs videoTs, inbound := .new (), forwarded := [] }

variable (processAudio : Processor → PcmFrame → ProcessorHint Event × PcmFrame × Processor)

/-- The frame that a chain of processors lets through. -/
def passed (chain : List Processor) (frame : PcmFrame) : Option PcmFrame :=
  match processChain processAudio chain frame with
  | (.forward, frame, _) => some frame
  | _ => none

/-- One event. A packet that is not read back is dropped. -/
def step (call : AudioCall Processor Event) :
    AudioCallEvent Processor → Option (AudioCall Processor Event)
  | .addsProcessor processor => some { call with outbound := call.outbound.addProcessor processor }
  | .setsTiming sampleRate frameMs =>
      some { call with outbound := call.outbound.setAudioTiming sampleRate frameMs }
  | .captures frame =>
      some { call with
        outbound := (call.outbound.sendAudio (stages processAudio) frame).2
        forwarded := call.forwarded ++
          (passed processAudio call.outbound.processorChain frame).toList }
  | .delivers =>
      match call.outbound.sender.tx.queue with
      | [] => none
      | bytes :: rest =>
          let taken := { call with outbound := { call.outbound with sender :=
            { call.outbound.sender with tx := { call.outbound.sender.tx with queue := rest } } } }
          match RtpPacket.fromBytes bytes with
          | .error _ => some taken
          | .ok packet => some { taken with inbound := call.inbound.pushRtp packet }
  | .drains nowMs => some { call with inbound := (call.inbound.drain decodeRaw nowMs).2 }

/-- Fewer frames than 32-bit numbers are let through, and a packet is delivered where the
buffer has room for it. -/
def Fits (call : AudioCall Processor Event) : AudioCallEvent Processor → Prop
  | .captures _ => call.forwarded.length + 1 < 4294967295
  | .delivers => call.inbound.jitter.buffer.size < call.inbound.jitter.capacity
  | _ => True

instance (call : AudioCall Processor Event) (event : AudioCallEvent Processor) :
    Decidable (call.Fits event) := by
  unfold Fits
  split <;> infer_instance

section Hearing

/-- The packets of written frames are read back as those frames, and none is rejected. -/
theorem decodeAll_written {packets : List RtpPacket} {frames : List PcmFrame}
    (audio : ∀ packet ∈ packets, packet.payloadType = ptAudio)
    (written : packets.map RtpPacket.payload = frames.map encode) :
    decodeAll decodeRaw () packets = (frames, ()) ∧ Accepted decodeRaw () packets := by
  induction packets generalizing frames with
  | nil =>
    obtain rfl := List.map_eq_nil_iff.mp written.symm
    exact ⟨rfl, trivial⟩
  | cons packet rest inductionHypothesis =>
    cases frames with
    | nil => cases written
    | cons frame frames =>
      obtain ⟨payload, later⟩ := List.cons.inj written
      have kind := audio packet List.mem_cons_self
      have read : decodeRaw () packet.payload = (.ok frame, ()) := by
        rw [decodeRaw, payload, decode_encode]
      obtain ⟨decoded, accepted⟩ := inductionHypothesis
        (fun other member => audio other (List.mem_cons_of_mem packet member)) later
      refine ⟨?_, ?_⟩
      · simp only [decodeAll, if_pos kind, read, decoded]
      · simp only [Accepted, if_pos kind, read]
        exact ⟨rfl, accepted⟩

/-- Polling until nothing is returned follows the path of what was sent. The induction is
on the fuel. -/
theorem pollWith_carried {path : AudioPath} {polled pushed : Nat}
    (carried : path.Carried polled pushed) (nowMs fuel : Nat) :
    ∃ later, AudioPath.Carried { path with session := { path.session with
      jitter := (JitterBuffer.pollWith nowMs fuel path.session.jitter).2
      returned := path.session.returned ++
        (JitterBuffer.pollWith nowMs fuel path.session.jitter).1 } } later pushed := by
  induction fuel generalizing path polled with
  | zero =>
    refine ⟨polled, ?_⟩
    simpa only [JitterBuffer.pollWith, List.append_nil] using carried
  | succ fuel inductionHypothesis =>
    have polls := @AudioPath.Carried.polls path polled pushed carried nowMs
    obtain ⟨next, stepped⟩ := polls rfl
    unfold JitterBuffer.pollWith
    rcases JitterBuffer.poll_progress path.session.jitter nowMs with
      ⟨nothing, _⟩ | ⟨packet, after, returned, _⟩
    · rw [nothing]
      exact ⟨polled, by simpa only [List.append_nil] using carried⟩
    · simp only [returned] at stepped ⊢
      obtain ⟨later, followed⟩ := inductionHypothesis stepped
      refine ⟨later, ?_⟩
      simpa only [Option.toList_some, List.append_assoc, List.singleton_append] using followed

/-- The frames that were let through are what is on the path, and those that were polled
are what was heard. -/
structure Joined (call : AudioCall Processor Event) (path : AudioPath) (polled pushed : Nat) :
    Prop where
  carried : path.Carried polled pushed
  sender : path.sender = call.outbound.sender
  jitter : path.session.jitter = call.inbound.jitter
  sent : path.sent.map Prod.fst = call.forwarded.map encode
  heard : call.inbound.audio = call.forwarded.take polled

namespace Joined

variable {processAudio} {call : AudioCall Processor Event} {path : AudioPath} {polled pushed : Nat}

/-- Where the sender, the listener and the frames are the same, so is the rest. -/
theorem aside (joined : call.Joined path polled pushed) {after : AudioCall Processor Event}
    (sender : after.outbound.sender = call.outbound.sender) (inbound : after.inbound = call.inbound)
    (forwarded : after.forwarded = call.forwarded) : after.Joined path polled pushed := by
  refine ⟨joined.carried, joined.sender.trans sender.symm, ?_, ?_, ?_⟩
  · rw [inbound]
    exact joined.jitter
  · rw [forwarded]
    exact joined.sent
  · rw [inbound, forwarded]
    exact joined.heard

/-- The first packets of the path are read back as the first frames. -/
theorem decoded (joined : call.Joined path polled pushed) (count : Nat) :
    decodeAll decodeRaw () (path.packets.take count) = (call.forwarded.take count, ()) ∧
      Accepted decodeRaw () (path.packets.take count) := by
  refine decodeAll_written ?_ ?_
  · intro packet member
    obtain ⟨number, _, rfl⟩ := List.mem_mapIdx.mp (List.mem_of_mem_take member)
    rfl
  · have payloads : path.packets.map RtpPacket.payload = path.sent.map Prod.fst := by
      rw [← path.packets_content, List.map_map]
      rfl
    rw [List.map_take, payloads, joined.sent, List.map_take]

/-- Draining publishes all that was pushed, and does not fail. -/
theorem drains (joined : call.Joined path polled pushed) (nowMs : Nat) :
    ∃ count path,
      call.inbound.drain decodeRaw nowMs = (.ok count, (call.inbound.drain decodeRaw nowMs).2) ∧
        Joined { call with inbound := (call.inbound.drain decodeRaw nowMs).2 } path pushed pushed := by
  obtain ⟨later, carried⟩ := pollWith_carried joined.carried nowMs (path.session.jitter.buffer.size + 1)
  have size := carried.size
  have dry := JitterBuffer.pollWith_size nowMs _ path.session.jitter (Nat.lt_succ_self _)
  obtain rfl : later = pushed := by
    have low := carried.ordered.1
    simp only [dry] at size
    omega
  have returned := carried.returned
  have before := joined.carried.returned
  -- what is polled now continues what was polled before
  have whole : path.packets.take later = path.packets.take polled ++
      (call.inbound.jitter.pollAll nowMs).1 := by
    rw [← before, JitterBuffer.pollAll, ← joined.jitter]
    exact returned.symm
  obtain ⟨read, accepted⟩ := joined.decoded later
  rw [whole, decodeAll_append, (joined.decoded polled).1] at read
  rw [whole, accepted_append, (joined.decoded polled).1] at accepted
  obtain ⟨count, drained⟩ := call.inbound.drain_accepted decodeRaw nowMs accepted.2
  refine ⟨count, _, by rw [drained], carried, joined.sender, ?_, joined.sent, ?_⟩
  · rw [drained]
    exact congrArg (fun jitter : JitterBuffer => (jitter.pollAll nowMs).2) joined.jitter
  · rw [drained]
    show call.inbound.audio ++ _ = call.forwarded.take later
    rw [joined.heard]
    exact congrArg Prod.fst read

/-- A frame that is let through is the last one on the path. -/
theorem captures (joined : call.Joined path polled pushed) {frame : PcmFrame}
    (few : call.forwarded.length + 1 < 4294967295) {after : AudioCall Processor Event}
    (stepped : call.step processAudio (.captures frame) = some after) :
    ∃ path, after.Joined path polled pushed := by
  obtain rfl := Option.some.inj stepped
  have sized : path.sent.length = call.forwarded.length := by
    simpa only [List.length_map] using congrArg List.length joined.sent
  have low := joined.carried.ordered
  unfold OutboundPipeline.sendAudio passed
  show ∃ path, Joined _ path _ _
  rcases chained : processChain processAudio call.outbound.processorChain frame with
    ⟨_ | _ | event, frame, chain⟩
  · have carried := @AudioPath.Carried.sends path polled pushed joined.carried (encode frame)
      call.outbound.audioTs (by omega) _ rfl
    refine ⟨_, carried, ?_, joined.jitter, ?_, ?_⟩
    · simp only [stages, chained]
      rw [joined.sender]
    · simp only [Option.toList_some, List.map_append, joined.sent]
      rfl
    · show call.inbound.audio = (call.forwarded ++ [frame]).take polled
      rw [List.take_append_of_le_length (by omega)]
      exact joined.heard
  · exact ⟨path, joined.aside (by simp only [stages, chained]) rfl (List.append_nil _)⟩
  · exact ⟨path, joined.aside (by simp only [stages, chained]) rfl (List.append_nil _)⟩

/-- The next packet on the path is delivered. -/
theorem delivers (joined : call.Joined path polled pushed)
    (room : call.inbound.jitter.buffer.size < call.inbound.jitter.capacity)
    {after : AudioCall Processor Event} (stepped : call.step processAudio .delivers = some after) :
    ∃ path, after.Joined path polled (pushed + 1) := by
  rw [← joined.jitter] at room
  have moves : ∀ {later}, path.step .delivers = some later → later.Carried polled (pushed + 1) :=
    joined.carried.delivers room
  unfold step at stepped
  dsimp only at stepped
  rw [← joined.sender] at stepped
  unfold AudioPath.step at moves
  dsimp only at moves
  split at stepped
  · cases stepped
  · next bytes rest waiting =>
    rw [waiting] at moves
    dsimp only at moves
    split at stepped
    · next error unread =>
      rw [unread] at moves
      obtain rfl := Option.some.inj stepped
      exact ⟨_, moves rfl, rfl, joined.jitter, joined.sent, joined.heard⟩
    · next packet read =>
      rw [read] at moves
      obtain rfl := Option.some.inj stepped
      refine ⟨_, moves rfl, rfl, ?_, joined.sent, joined.heard⟩
      show path.session.jitter.push packet = call.inbound.jitter.push packet
      rw [joined.jitter]

end Joined

variable {processAudio}

/-- One event keeps the two ends of the call joined. -/
theorem step_joined (before : AudioCall Processor Event) (event : AudioCallEvent Processor)
    (after : AudioCall Processor Event)
    (joined : ∃ path polled pushed, before.Joined path polled pushed) (fits : before.Fits event)
    (stepped : before.step processAudio event = some after) :
    ∃ path polled pushed, after.Joined path polled pushed := by
  obtain ⟨path, polled, pushed, joined⟩ := joined
  cases event with
  | addsProcessor processor =>
    obtain rfl := Option.some.inj stepped
    exact ⟨path, polled, pushed, joined.aside rfl rfl rfl⟩
  | setsTiming sampleRate frameMs =>
    obtain rfl := Option.some.inj stepped
    exact ⟨path, polled, pushed, joined.aside rfl rfl rfl⟩
  | captures frame =>
    obtain ⟨path, kept⟩ := joined.captures fits stepped
    exact ⟨path, polled, pushed, kept⟩
  | delivers =>
    obtain ⟨path, kept⟩ := joined.delivers fits stepped
    exact ⟨path, polled, pushed + 1, kept⟩
  | drains nowMs =>
    obtain rfl := Option.some.inj stepped
    obtain ⟨_, path, _, kept⟩ := joined.drains nowMs
    exact ⟨path, pushed, pushed, kept⟩

/-- In every state of a call, what was heard is the beginning of what the processors let
through, no draining fails, and once the channel is empty a draining leaves nothing
unheard.

The call is laid upon the audio path: what the processors let through is what is sent, and
what is drained is what is polled. A drain goes on until the buffer has nothing in order. -/
theorem heard_in_order {ssrc audioTs videoTs : UInt32} {call : AudioCall Processor Event}
    (reached : Reaches (step processAudio) Fits (opened ssrc audioTs videoTs) call) :
    call.inbound.audio <+: call.forwarded ∧
      ∀ nowMs, ∃ count after, call.inbound.drain decodeRaw nowMs = (.ok count, after) ∧
        (call.outbound.sender.tx.queue = [] → after.audio = call.forwarded) := by
  obtain ⟨path, polled, pushed, joined⟩ := Reaches.invariant
    (fun call : AudioCall Processor Event => ∃ path polled pushed, call.Joined path polled pushed)
    ⟨.opened ssrc jitterCapacity, 0, 0, .opened ssrc jitterCapacity, rfl, rfl, rfl, rfl⟩
    step_joined reached
  refine ⟨joined.heard ▸ List.take_prefix polled call.forwarded, ?_⟩
  intro nowMs
  obtain ⟨count, later, drained, kept⟩ := joined.drains nowMs
  refine ⟨count, _, drained, ?_⟩
  intro empty
  have sized : later.sent.length = call.forwarded.length := by
    simpa only [List.length_map] using congrArg List.length kept.sent
  have length : later.packets.length = later.sent.length := List.length_mapIdx
  have delivered : call.forwarded.length ≤ pushed := by
    have channel := kept.carried.channel
    rw [kept.sender, show _ = [] from empty, eq_comm, List.map_eq_nil_iff, List.drop_eq_nil_iff,
      length, sized] at channel
    exact channel
  rw [kept.heard]
  exact List.take_of_length_le delivered

end Hearing

section Sample

/-- A processor that holds back every frame without samples. -/
def gate (processor : Unit) (frame : PcmFrame) : ProcessorHint Unit × PcmFrame × Unit :=
  (if frame.samples.isEmpty then .drop else .forward, frame, processor)

/-- Three frames of which the second is held back; one is delivered before the last one
is captured. -/
def gatedRun : List (AudioCallEvent Unit) :=
  [.setsTiming 48000 20, .captures ⟨[0x3F800000], 48000, 1⟩, .addsProcessor (), .drains 0,
    .captures ⟨[], 48000, 1⟩, .delivers, .drains 20, .captures ⟨[0xBF800000, 0], 48000, 2⟩, .delivers]

/-- The call after that run. -/
def gatedCall : AudioCall Unit Unit :=
  (walk (step gate) Fits (opened 7 4294967295 0) gatedRun).getD (opened 7 4294967295 0)

/-- Applied to the gated run: what is in hand after a drain is all that was forwarded. -/
theorem heard_in_order_gated :
    gatedCall.inbound.audio = [⟨[0x3F800000], 48000, 1⟩] ∧
      ∃ count after, gatedCall.inbound.drain decodeRaw 40 = (.ok count, after) ∧
        after.audio = gatedCall.forwarded := by
  refine ⟨by decide +kernel, ?_⟩
  have reached := walk_reaches_end (step gate) Fits (opened 7 4294967295 0) gatedRun (by decide +kernel)
  obtain ⟨count, after, drained, whole⟩ := (heard_in_order reached).2 40
  exact ⟨count, after, drained, whole (by decide +kernel)⟩

end Sample

end AudioCall

end Seameet.Pipeline
