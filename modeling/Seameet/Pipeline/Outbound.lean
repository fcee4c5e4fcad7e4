import Seameet.Rtp.Fragments

/-!
# Sending audio

An audio frame goes through a chain of processors, any of which may hold it back, then
through the encoder and the RTP sender. Each frame that reaches the sender is given the
current timestamp, which then advances by a step that is computed once from the sample
rate and the length of a frame. Video shares the sender and has its own timestamps.

What is put into the channel says which timestamps were given. They follow the step
whatever the processors and the encoder do, and the step is that of the media clock
where dividing the sample rate by a thousand loses nothing.
-/

namespace Seameet.Pipeline

open Library Rtp

/-- Default video clock rate (90 kHz as per RTP spec). -/
def videoClockRate : UInt32 := 90000

/-- Default video frame rate. -/
def defaultFps : UInt32 := 30

/-- Hint returned by a processor after processing a frame. -/
inductive ProcessorHint (Event : Type) where
  | forward
  | drop
  | emit (event : Event)

/-- The code a pipeline is given. A boxed processor is its own state, and so is an
encoder. -/
structure Stages (Processor Encoder Frame Event : Type) where
  processAudio : Processor → Frame → ProcessorHint Event × Frame × Processor
  encode : Encoder → Frame → Except SeaMeetError (List UInt8) × Encoder

/-- Encodes audio frames and sends them as RTP packets. -/
structure OutboundPipeline (Processor Encoder Event : Type) where
  encoder : Encoder
  sender : RtpSender
  processorChain : List Processor
  /-- The room events that were sent on. -/
  events : List Event
  audioTs : UInt32
  audioTsStep : UInt32
  videoTs : UInt32
  videoTsStep : UInt32

variable {Processor Encoder Frame Event : Type}

/-- Processes an audio frame through the chain. -/
def processChain (process : Processor → Frame → ProcessorHint Event × Frame × Processor) :
    List Processor → Frame → ProcessorHint Event × Frame × List Processor
  | [], frame => (.forward, frame, [])
  | proc :: rest, frame =>
      match process proc frame with
      | (.forward, frame, proc) =>
          let (hint, frame, rest) := processChain process rest frame
          (hint, frame, proc :: rest)
      | (hint, frame, proc) => (hint, frame, proc :: rest)

namespace OutboundPipeline

/-- Creates a new outbound pipeline. The first timestamps are random. -/
def new (encoder : Encoder) (sender : RtpSender) (audioTs videoTs : UInt32) :
    OutboundPipeline Processor Encoder Event :=
  { encoder, sender, processorChain := [], events := [], audioTs, audioTsStep := 960, videoTs,
    videoTsStep := videoClockRate / defaultFps }

variable (pipeline : OutboundPipeline Processor Encoder Event)

/-- Sets the audio timestamp step based on sample rate and frame duration. -/
def setAudioTiming (sampleRate frameMs : UInt32) : OutboundPipeline Processor Encoder Event :=
  { pipeline with audioTsStep := sampleRate / 1000 * frameMs }

/-- Sets the video frame rate for timestamp computation. -/
def setVideoFps (fps : UInt32) : OutboundPipeline Processor Encoder Event :=
  if 0 < fps then { pipeline with videoTsStep := videoClockRate / fps } else pipeline

/-- Appends a processor to the chain. -/
def addProcessor (processor : Processor) : OutboundPipeline Processor Encoder Event :=
  { pipeline with processorChain := pipeline.processorChain ++ [processor] }

/-- Encodes and sends a single audio frame. -/
def sendAudio (stages : Stages Processor Encoder Frame Event) (frame : Frame) :
    Except SeaMeetError Unit × OutboundPipeline Processor Encoder Event :=
  match processChain stages.processAudio pipeline.processorChain frame with
  | (.drop, _, processorChain) => (.ok (), { pipeline with processorChain })
  | (.emit event, _, processorChain) =>
      (.ok (), { pipeline with processorChain, events := pipeline.events ++ [event] })
  | (.forward, frame, processorChain) =>
      match stages.encode pipeline.encoder frame with
      | (.error error, encoder) => (.error error, { pipeline with processorChain, encoder })
      | (.ok encoded, encoder) =>
          let ts := pipeline.audioTs
          let (result, sender) := pipeline.sender.sendAudio encoded ts
          (result, { pipeline with
            processorChain, encoder, sender, audioTs := pipeline.audioTs + pipeline.audioTsStep })

/-- Sends an encoded video frame (already encoded externally). -/
def sendVideo (data : List UInt8) :
    Except SeaMeetError Unit × OutboundPipeline Processor Encoder Event :=
  let ts := pipeline.videoTs
  let (result, sender) := pipeline.sender.sendVideo data ts
  (result, { pipeline with sender, videoTs := pipeline.videoTs + pipeline.videoTsStep })

end OutboundPipeline

/-- Something that happens to a pipeline once its audio timing is set. -/
inductive OutboundCall (Processor Frame : Type) where
  | audio (frame : Frame)
  | video (data : List UInt8)
  | videoFps (fps : UInt32)
  | addProcessor (processor : Processor)
  /-- The receiving half of the channel takes the next packet. -/
  | takes
  /-- The receiving half of the channel is dropped. -/
  | closes

/-- What is new in the channel of a sender. -/
def newIn (before after : RtpSender) : List (List UInt8) :=
  after.tx.queue.drop before.tx.queue.length

namespace OutboundCall

/-- One call, with what it puts into the channel. -/
def make (stages : Stages Processor Encoder Frame Event)
    (pipeline : OutboundPipeline Processor Encoder Event) :
    OutboundCall Processor Frame → OutboundPipeline Processor Encoder Event × List (List UInt8)
  | .audio frame =>
      let after := (pipeline.sendAudio stages frame).2
      (after, newIn pipeline.sender after.sender)
  | .video data =>
      let after := (pipeline.sendVideo data).2
      (after, newIn pipeline.sender after.sender)
  | .videoFps fps => (pipeline.setVideoFps fps, [])
  | .addProcessor processor => (pipeline.addProcessor processor, [])
  | .takes =>
      let tx := { pipeline.sender.tx with queue := pipeline.sender.tx.queue.tail }
      ({ pipeline with sender := { pipeline.sender with tx } }, [])
  | .closes =>
      let tx := { pipeline.sender.tx with isOpen := false }
      ({ pipeline with sender := { pipeline.sender with tx } }, [])

end OutboundCall

/-- The timestamps of the audio packets among the packets of a channel. -/
def audioTimestamps (wire : List (List UInt8)) : List UInt32 :=
  let packets := wire.filterMap fun bytes => (RtpPacket.fromBytes bytes).toOption
  (packets.filter fun packet => packet.payloadType = ptAudio).map RtpPacket.timestamp

section Channel

/-- The time stamps of two stretches are those of the first and then of the second. -/
theorem audioTimestamps_append (first second : List (List UInt8)) :
    audioTimestamps (first ++ second) = audioTimestamps first ++ audioTimestamps second := by
  simp [audioTimestamps]

/-- An audio packet is read back with its timestamp. -/
theorem audioTimestamps_audio (payload : List UInt8) (timestamp ssrc : UInt32) (seq : UInt16) :
    audioTimestamps [(RtpPacket.newAudio payload timestamp ssrc seq).toBytes] = [timestamp] := by
  have read := RtpPacket.fromBytes_toBytes (RtpPacket.new_wellFormed payload timestamp ssrc seq false).1
  have kept : [(RtpPacket.newAudio payload timestamp ssrc seq).toBytes].filterMap
      (fun bytes => (RtpPacket.fromBytes bytes).toOption) =
        [RtpPacket.newAudio payload timestamp ssrc seq] := by
    rw [List.filterMap_cons, read]
    rfl
  rw [audioTimestamps, kept]
  rfl

/-- The packets of a video frame are no audio packets. -/
theorem audioTimestamps_video (ssrc : UInt32) (seq : UInt16) (data : List UInt8)
    (timestamp : UInt32) :
    audioTimestamps ((SendCall.fragments ssrc seq data timestamp).map RtpPacket.toBytes) = [] := by
  unfold audioTimestamps
  rw [List.map_eq_nil_iff, List.filter_eq_nil_iff]
  intro packet member
  obtain ⟨bytes, written, read⟩ := List.mem_filterMap.mp member
  obtain ⟨fragment, among, rfl⟩ := List.mem_map.mp written
  obtain ⟨proper, video, _⟩ := mem_fragments among
  rw [proper.1] at read
  obtain rfl : fragment = packet := Option.some.inj read
  have kind : fragment.payloadType = ptVideo := by simpa [RtpPacket.isVideo] using video
  rw [kind]
  decide

variable (sender : RtpSender)

/-- A packet for a closed channel is not queued. -/
theorem sendPacket_closed (packet : RtpPacket) (closed : sender.tx.isOpen = false) :
    (sender.sendPacket packet).2.tx = sender.tx := by
  simp [RtpSender.sendPacket, closed]

/-- Nothing is put into a closed channel. -/
theorem send_closed (call : SendCall) (closed : sender.tx.isOpen = false) :
    (call.send sender).1.tx = sender.tx := by
  cases call with
  | audio payload timestamp => exact sendPacket_closed sender.nextSeq.2 _ closed
  | video data timestamp =>
    show (sender.sendVideo data timestamp).2.tx = sender.tx
    unfold RtpSender.sendVideo
    cases chunks maxPayloadSize data with
    | nil => rfl
    | cons chunk rest =>
      simp only [RtpSender.sendChunks, RtpSender.nextSeq, RtpSender.sendPacket, closed,
        Bool.false_eq_true, if_false]

/-- A call puts its packets into an open channel, and nothing into a closed one. -/
theorem send_put (call : SendCall) :
    (call.send sender).1.tx.isOpen = sender.tx.isOpen ∧
      newIn sender (call.send sender).1 =
        if sender.tx.isOpen then (call.packets sender.ssrc sender.seq).map RtpPacket.toBytes
        else [] := by
  cases isOpen : sender.tx.isOpen with
  | true =>
    have sends := (send_sends isOpen call).2
    refine ⟨sends.isOpen, ?_⟩
    rw [newIn, sends.queue, List.drop_left, if_pos rfl]
  | false =>
    have same := send_closed sender call isOpen
    refine ⟨by rw [same, isOpen], ?_⟩
    rw [newIn, same, List.drop_length]
    rfl

end Channel

/-- The audio packets so far have timestamps one step apart from a first one on, and so
does the next one while the channel is open. -/
structure OnClock (first step : UInt32) (pipeline : OutboundPipeline Processor Encoder Event)
    (wire : List (List UInt8)) : Prop where
  steady : pipeline.audioTsStep = step
  given : ∀ i ts, (audioTimestamps wire)[i]? = some ts → ts = first + UInt32.ofNat i * step
  next : pipeline.sender.tx.isOpen = true →
    pipeline.audioTs = first + UInt32.ofNat (audioTimestamps wire).length * step

namespace OnClock

variable {first step : UInt32} {pipeline after : OutboundPipeline Processor Encoder Event}
  {wire more : List (List UInt8)}

/-- Where no audio packet is added and the audio timestamp stays, so does the rest. -/
theorem aside (clock : OnClock first step pipeline wire)
    (same : after.audioTsStep = pipeline.audioTsStep ∧ after.audioTs = pipeline.audioTs)
    (opened : after.sender.tx.isOpen = true → pipeline.sender.tx.isOpen = true)
    (silent : audioTimestamps more = []) : OnClock first step after (wire ++ more) := by
  have whole : audioTimestamps (wire ++ more) = audioTimestamps wire := by
    rw [audioTimestamps_append, silent, List.append_nil]
  refine ⟨same.1.trans clock.steady, ?_, ?_⟩
  · rw [whole]
    exact clock.given
  · rw [whole, same.2]
    exact fun isOpen => clock.next (opened isOpen)

/-- A frame that reaches the sender takes the timestamp and moves it on. -/
theorem sent (clock : OnClock first step pipeline wire)
    (moved : after.audioTsStep = pipeline.audioTsStep ∧
      after.audioTs = pipeline.audioTs + pipeline.audioTsStep)
    (encoded : List UInt8) (sender : after.sender = (pipeline.sender.sendAudio encoded pipeline.audioTs).2) :
    OnClock first step after (wire ++ newIn pipeline.sender after.sender) := by
  obtain ⟨stays, put⟩ := send_put pipeline.sender (.audio encoded pipeline.audioTs)
  have same : (SendCall.send pipeline.sender (.audio encoded pipeline.audioTs)).1 = after.sender :=
    sender.symm
  rw [same] at stays put
  cases isOpen : pipeline.sender.tx.isOpen with
  | false =>
    rw [put, isOpen]
    refine ⟨moved.1.trans clock.steady, ?_, ?_⟩
    · simpa using clock.given
    · intro opened
      rw [stays, isOpen] at opened
      cases opened
  | true =>
    have stamped : audioTimestamps (wire ++ newIn pipeline.sender after.sender) =
        audioTimestamps wire ++ [pipeline.audioTs] := by
      rw [put, isOpen, if_pos rfl, audioTimestamps_append]
      exact congrArg _ (audioTimestamps_audio encoded _ _ _)
    have current := clock.next isOpen
    refine ⟨moved.1.trans clock.steady, ?_, ?_⟩
    · intro i ts found
      rw [stamped, List.getElem?_append] at found
      split at found
      · exact clock.given i ts found
      · obtain ⟨below, rfl⟩ := List.getElem?_eq_some_iff.mp found
        have place : i = (audioTimestamps wire).length := by
          have single : i - (audioTimestamps wire).length < 1 := below
          omega
        simpa [place] using current
    · intro _
      rw [stamped, moved.2, current, clock.steady, List.length_append, List.length_singleton,
        UInt32.ofNat_add, UInt32.add_mul, UInt32.add_assoc]
      exact congrArg (fun more => first + (UInt32.ofNat _ * step + more)) (UInt32.one_mul step).symm

/-- Every call keeps the timestamps one step apart. A frame is held back, cannot be
encoded, or reaches the sender. -/
theorem call (clock : OnClock first step pipeline wire)
    (stages : Stages Processor Encoder Frame Event) (call : OutboundCall Processor Frame) :
    OnClock first step (call.make stages pipeline).1 (wire ++ (call.make stages pipeline).2) := by
  cases call with
  | audio frame =>
    simp only [OutboundCall.make, OutboundPipeline.sendAudio]
    split
    · exact clock.aside ⟨rfl, rfl⟩ (fun isOpen => isOpen) (by simp [newIn, audioTimestamps])
    · exact clock.aside ⟨rfl, rfl⟩ (fun isOpen => isOpen) (by simp [newIn, audioTimestamps])
    · split
      · exact clock.aside ⟨rfl, rfl⟩ (fun isOpen => isOpen) (by simp [newIn, audioTimestamps])
      · rename_i encoded encoder _
        exact clock.sent ⟨rfl, rfl⟩ encoded rfl
  | video data =>
    obtain ⟨stays, put⟩ := send_put pipeline.sender (.video data pipeline.videoTs)
    refine clock.aside ⟨rfl, rfl⟩ (fun isOpen => stays ▸ isOpen) ?_
    show audioTimestamps (newIn pipeline.sender
      (SendCall.send pipeline.sender (.video data pipeline.videoTs)).1) = []
    rw [put]
    split
    · exact audioTimestamps_video _ _ data _
    · rfl
  | videoFps fps =>
    refine clock.aside ?_ ?_ rfl
    · simp only [OutboundCall.make, OutboundPipeline.setVideoFps]
      split <;> exact ⟨rfl, rfl⟩
    · simp only [OutboundCall.make, OutboundPipeline.setVideoFps]
      split <;> exact fun isOpen => isOpen
  | addProcessor processor => exact clock.aside ⟨rfl, rfl⟩ (fun isOpen => isOpen) rfl
  | takes => exact clock.aside ⟨rfl, rfl⟩ (fun isOpen => isOpen) rfl
  | closes => exact clock.aside ⟨rfl, rfl⟩ nofun rfl

end OnClock

section Timing

/-- The timestamps of a run follow the step that was set. -/
theorem timestamps_step (stages : Stages Processor Encoder Frame Event)
    (pipeline : OutboundPipeline Processor Encoder Event)
    (calls : List (OutboundCall Processor Frame)) (i : Nat) (ts : UInt32)
    (given : (audioTimestamps (traced (OutboundCall.make stages) pipeline calls).2)[i]? = some ts) :
    ts = pipeline.audioTs + UInt32.ofNat i * pipeline.audioTsStep := by
  have initial : OnClock pipeline.audioTs pipeline.audioTsStep pipeline [] :=
    ⟨rfl, nofun, fun _ => by simp [audioTimestamps]⟩
  have clock := traced_keeps (OnClock pipeline.audioTs pipeline.audioTsStep) calls
    (fun state wire call _ clock => clock.call stages call) pipeline [] initial
  exact clock.given i ts given

variable (sampleRate frameMs : UInt32)

/-- The step that is set leaves out what the division of the sample rate loses. -/
theorem step_add_lost (fits : sampleRate.toNat * frameMs.toNat < 4294967296) :
    (sampleRate / 1000 * frameMs).toNat + sampleRate.toNat % 1000 * frameMs.toNat / 1000 =
      sampleRate.toNat * frameMs.toNat / 1000 := by
  have parts := Nat.div_add_mod sampleRate.toNat 1000
  have product : sampleRate.toNat * frameMs.toNat =
      1000 * (sampleRate.toNat / 1000 * frameMs.toNat) + sampleRate.toNat % 1000 * frameMs.toNat := by
    calc sampleRate.toNat * frameMs.toNat
        = (1000 * (sampleRate.toNat / 1000) + sampleRate.toNat % 1000) * frameMs.toNat := by rw [parts]
      _ = _ := by rw [Nat.add_mul, Nat.mul_assoc]
  have exact : (sampleRate / 1000 * frameMs).toNat = sampleRate.toNat / 1000 * frameMs.toNat := by
    rw [UInt32.toNat_mul, UInt32.toNat_div]
    exact Nat.mod_eq_of_lt (by show _ / 1000 * _ < _; omega)
  rw [exact, product, Nat.mul_add_div (by decide)]

/-- The step that is set is that of the media clock exactly when the division of the
sample rate loses nothing. -/
theorem step_exact_iff (whole : 1000 ∣ sampleRate.toNat * frameMs.toNat)
    (fits : sampleRate.toNat * frameMs.toNat < 4294967296) :
    sampleRate / 1000 * frameMs = UInt32.ofNat (sampleRate.toNat * frameMs.toNat / 1000) ↔
      sampleRate.toNat % 1000 * frameMs.toNat = 0 := by
  have sum := step_add_lost sampleRate frameMs fits
  have divides : 1000 ∣ sampleRate.toNat % 1000 * frameMs.toNat := by
    have parts := Nat.div_add_mod sampleRate.toNat 1000
    rw [← parts, Nat.add_mul, Nat.mul_assoc] at whole
    exact (Nat.dvd_add_right (Nat.dvd_mul_right 1000 _)).mp whole
  rw [← UInt32.toNat_inj, UInt32.toNat_ofNat_of_lt' (by show _ < 4294967296; omega)]
  constructor
  · intro same
    obtain ⟨lost, product⟩ := divides
    rw [product, Nat.mul_div_cancel_left _ (by decide)] at sum
    omega
  · intro nothing
    rw [nothing] at sum
    omega

end Timing

/-- Stages that let every frame through and encode it as nothing. -/
def plain : Stages Unit Unit Unit Unit :=
  { processAudio := fun _ frame => (.forward, frame, ()), encode := fun _ _ => (.ok [], ()) }

/-- A new pipeline whose first timestamps are zero. -/
def fresh : OutboundPipeline Unit Unit Unit := .new () (.new 1) 0 0

/-- The timestamps of forwarded audio follow the media clock, in every run with the
timing that was set, exactly when the sample rate is whole in thousands or the frames
have no length.

One frame's step is compared with the clock's. If the two are the same, so are all their
multiples; and two frames in a row show the difference if they are not. -/
theorem timestamps_exact_iff (sampleRate frameMs : UInt32)
    (whole : 1000 ∣ sampleRate.toNat * frameMs.toNat)
    (fits : sampleRate.toNat * frameMs.toNat < 4294967296) :
    (∀ (Processor Encoder Frame Event : Type) (stages : Stages Processor Encoder Frame Event)
      (pipeline : OutboundPipeline Processor Encoder Event)
      (calls : List (OutboundCall Processor Frame)) (i : Nat) (ts : UInt32),
      (audioTimestamps (traced (OutboundCall.make stages)
        (pipeline.setAudioTiming sampleRate frameMs) calls).2)[i]? = some ts →
      ts = pipeline.audioTs +
        UInt32.ofNat (i * (sampleRate.toNat * frameMs.toNat / 1000))) ↔
      sampleRate.toNat % 1000 * frameMs.toNat = 0 := by
  rw [← step_exact_iff sampleRate frameMs whole fits]
  constructor
  · intro follows
    have second : (audioTimestamps (traced (OutboundCall.make plain)
        (fresh.setAudioTiming sampleRate frameMs) [.audio (), .audio ()]).2)[1]? =
          some (0 + sampleRate / 1000 * frameMs) := by
      show (audioTimestamps ([(RtpPacket.newAudio [] 0 1 0).toBytes] ++
        ([(RtpPacket.newAudio [] (0 + sampleRate / 1000 * frameMs) 1 1).toBytes] ++ [])))[1]? = _
      rw [audioTimestamps_append, audioTimestamps_append, audioTimestamps_audio, audioTimestamps_audio]
      rfl
    have stamped := follows Unit Unit Unit Unit plain fresh _ 1 _ second
    rw [Nat.one_mul] at stamped
    exact (UInt32.zero_add _).symm.trans (stamped.trans (UInt32.zero_add _))
  · intro exact Processor Encoder Frame Event stages pipeline calls i ts given
    have stamped := timestamps_step stages _ calls i ts given
    rw [stamped, UInt32.ofNat_mul, ← exact]
    rfl

/-- At 44100 Hz twenty milliseconds are 882 samples, and the step is 880. -/
theorem timestamps_drift :
    audioTimestamps (traced (OutboundCall.make plain) (fresh.setAudioTiming 44100 20)
      [.audio (), .audio ()]).2 = [0, 880] ∧ 44100 * 20 / 1000 = 882 := by
  decide +kernel

/-- At 48000 Hz they follow the clock, with video and a change of its rate in between. -/
theorem timestamps_exact_48k :
    let calls : List (OutboundCall Unit Unit) :=
      [.audio (), .video [1], .audio (), .takes, .videoFps 25, .audio ()]
    (audioTimestamps (traced (OutboundCall.make plain) (fresh.setAudioTiming 48000 20) calls).2)[2]? =
        some 1920 ∧ 1920 = fresh.audioTs + UInt32.ofNat (2 * 960) := by
  intro calls
  have third : (audioTimestamps (traced (OutboundCall.make plain)
      (fresh.setAudioTiming 48000 20) calls).2)[2]? = some 1920 := by decide +kernel
  exact ⟨third, (timestamps_exact_iff 48000 20 (by decide) (by decide)).mpr (by decide)
    Unit Unit Unit Unit plain fresh calls 2 1920 third⟩

end Seameet.Pipeline
