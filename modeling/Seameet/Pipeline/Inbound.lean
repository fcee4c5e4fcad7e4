import Seameet.Library.Chunks
import Seameet.Rtp.Jitter

/-!
# Receiving audio

Packets are pushed into a jitter buffer. Draining it polls until nothing is returned,
decodes the payloads of audio packets and publishes the frames. An error of the decoder
ends the draining at once; what is behind the rejected packet stays in the buffer.

A task that drains on a timer gives such an error back and ends. A task that drains
after each packet logs it and goes on. In both, what is published are the frames of all
audio payloads that were polled and accepted.
-/

namespace Seameet.Pipeline

open Library Rtp

/-- Default jitter buffer capacity in packets. -/
def jitterCapacity : Nat := 128

variable {Decoder Frame : Type}

/-- Receives RTP packets, reorders them through a jitter buffer, decodes audio, and
publishes decoded frames. -/
structure InboundPipeline (Decoder Frame : Type) where
  decoder : Decoder
  jitter : JitterBuffer
  /-- The frames that were published. -/
  audio : List Frame
  pollCount : Nat

namespace InboundPipeline

/-- Creates a new inbound pipeline. -/
def new (decoder : Decoder) : InboundPipeline Decoder Frame :=
  { decoder, jitter := .new jitterCapacity, audio := [], pollCount := 0 }

variable (pipeline : InboundPipeline Decoder Frame)

/-- Pushes an incoming RTP packet into the jitter buffer. -/
def pushRtp (packet : RtpPacket) : InboundPipeline Decoder Frame :=
  { pipeline with jitter := pipeline.jitter.push packet }

variable (decode : Decoder → List UInt8 → Except SeaMeetError Frame × Decoder)

/-- The loop of `drain`: poll, decode and publish, until nothing is polled or a payload
is rejected. -/
def drainLoop (nowMs : Nat) : Nat → InboundPipeline Decoder Frame → Nat →
    Except SeaMeetError Nat × InboundPipeline Decoder Frame
  | 0, pipeline, count => (.ok count, pipeline)
  | fuel + 1, pipeline, count =>
      match pipeline.jitter.poll nowMs with
      | (none, jitter) => (.ok count, { pipeline with jitter })
      | (some pkt, jitter) =>
          if pkt.payloadType = ptAudio then
            match decode pipeline.decoder pkt.payload with
            | (.error error, decoder) => (.error error, { pipeline with jitter, decoder })
            | (.ok frame, decoder) =>
                drainLoop nowMs fuel
                  { pipeline with jitter, decoder, audio := pipeline.audio ++ [frame] } (count + 1)
          else drainLoop nowMs fuel { pipeline with jitter } count

/-- Drains all ready packets from the jitter buffer, decodes audio, and publishes frames.
Returns the number of frames emitted. -/
def drain (nowMs : Nat) : Except SeaMeetError Nat × InboundPipeline Decoder Frame :=
  match drainLoop decode nowMs (pipeline.jitter.buffer.size + 1) pipeline 0 with
  | (.error error, pipeline) => (.error error, pipeline)
  | (.ok count, pipeline) => (.ok count, { pipeline with pollCount := pipeline.pollCount + 1 })

end InboundPipeline

/-- What the timer task waits for. -/
inductive RunEvent where
  | tick (nowMs : Nat)
  | stop
  deriving DecidableEq, Repr

namespace InboundPipeline

variable (decode : Decoder → List UInt8 → Except SeaMeetError Frame × Decoder)

/-- Runs the pipeline, polling the jitter buffer on a timer until stopped. Nothing is
returned while the task waits for another event. -/
def run : InboundPipeline Decoder Frame → List RunEvent →
    Option (Except SeaMeetError Unit) × InboundPipeline Decoder Frame
  | pipeline, [] => (none, pipeline)
  | pipeline, .tick nowMs :: rest =>
      match pipeline.drain decode nowMs with
      | (.error error, pipeline) => (some (.error error), pipeline)
      | (.ok _, pipeline) => run pipeline rest
  | pipeline, .stop :: _ => (some (.ok ()), pipeline)

end InboundPipeline

section Decoding

variable (decode : Decoder → List UInt8 → Except SeaMeetError Frame × Decoder)

/-- The frames of the audio payloads that the decoder accepts, whichever others it
rejects. -/
def decodeAll : Decoder → List RtpPacket → List Frame × Decoder
  | decoder, [] => ([], decoder)
  | decoder, pkt :: rest =>
      if pkt.payloadType = ptAudio then
        match decode decoder pkt.payload with
        | (.error _, decoder) => decodeAll decoder rest
        | (.ok frame, decoder) =>
            let (frames, decoder) := decodeAll decoder rest
            (frame :: frames, decoder)
      else decodeAll decoder rest

/-- The decoder accepts the payload of every audio packet. -/
def Accepted : Decoder → List RtpPacket → Prop
  | _, [] => True
  | decoder, pkt :: rest =>
      if pkt.payloadType = ptAudio then
        (decode decoder pkt.payload).1.isOk = true ∧ Accepted (decode decoder pkt.payload).2 rest
      else Accepted decoder rest

/-- The packets that the buffer emits when each tick before the stop polls it dry. -/
def emitted : JitterBuffer → List RunEvent → List RtpPacket
  | _, [] => []
  | jitter, .tick nowMs :: rest =>
      let (packets, jitter) := jitter.pollAll nowMs
      packets ++ emitted jitter rest
  | _, .stop :: _ => []

/-- A tick puts out what the poll gives and then what follows. -/
theorem emitted_tick (jitter : JitterBuffer) (nowMs : Nat) (rest : List RunEvent) :
    emitted jitter (.tick nowMs :: rest) =
      (jitter.pollAll nowMs).1 ++ emitted (jitter.pollAll nowMs).2 rest := rfl

/-- Decoding two stretches is decoding the first and then the second. -/
theorem decodeAll_append (decoder : Decoder) (first second : List RtpPacket) :
    decodeAll decode decoder (first ++ second) =
      ((decodeAll decode decoder first).1 ++
          (decodeAll decode (decodeAll decode decoder first).2 second).1,
        (decodeAll decode (decodeAll decode decoder first).2 second).2) := by
  induction first generalizing decoder with
  | nil => rfl
  | cons pkt rest inductionHypothesis =>
    simp only [List.cons_append, decodeAll]
    split
    · split
      · exact inductionHypothesis _
      · rw [inductionHypothesis]
        rfl
    · exact inductionHypothesis decoder

/-- Two stretches are accepted exactly where the first is, and the second after it. -/
theorem accepted_append (decoder : Decoder) (first second : List RtpPacket) :
    Accepted decode decoder (first ++ second) ↔
      Accepted decode decoder first ∧ Accepted decode (decodeAll decode decoder first).2 second := by
  induction first generalizing decoder with
  | nil => simp [Accepted, decodeAll]
  | cons pkt rest inductionHypothesis =>
    simp only [List.cons_append, Accepted, decodeAll]
    split
    · rw [inductionHypothesis, and_assoc]
      rcases decode decoder pkt.payload with ⟨error | frame, after⟩
      · simp [Except.isOk, Except.toBool]
      · rfl
    · exact inductionHypothesis decoder

end Decoding

section Draining

variable (decode : Decoder → List UInt8 → Except SeaMeetError Frame × Decoder)

namespace InboundPipeline

/-- What one turn of the loop of `drain` finds. -/
inductive Turn (nowMs : Nat) (pipeline : InboundPipeline Decoder Frame) : Prop where
  | dry (jitter : JitterBuffer) (polled : pipeline.jitter.poll nowMs = (none, jitter))
  /-- Another packet than audio. -/
  | passed (packet : RtpPacket) (jitter : JitterBuffer)
      (polled : pipeline.jitter.poll nowMs = (some packet, jitter))
      (other : packet.payloadType ≠ ptAudio)
  | rejected (packet : RtpPacket) (jitter : JitterBuffer)
      (polled : pipeline.jitter.poll nowMs = (some packet, jitter))
      (audio : packet.payloadType = ptAudio) (error : SeaMeetError) (decoder : Decoder)
      (decoded : decode pipeline.decoder packet.payload = (.error error, decoder))
  | accepted (packet : RtpPacket) (jitter : JitterBuffer)
      (polled : pipeline.jitter.poll nowMs = (some packet, jitter))
      (audio : packet.payloadType = ptAudio) (frame : Frame) (decoder : Decoder)
      (decoded : decode pipeline.decoder packet.payload = (.ok frame, decoder))

/-- A turn of the loop is one of those the relation names. -/
theorem turn_cases (nowMs : Nat) (pipeline : InboundPipeline Decoder Frame) :
    Turn decode nowMs pipeline := by
  rcases polled : pipeline.jitter.poll nowMs with ⟨_ | packet, jitter⟩
  · exact .dry jitter polled
  · by_cases audio : packet.payloadType = ptAudio
    · rcases decoded : decode pipeline.decoder packet.payload with ⟨error | frame, decoder⟩
      · exact .rejected packet jitter polled audio error decoder decoded
      · exact .accepted packet jitter polled audio frame decoder decoded
    · exact .passed packet jitter polled audio

/-- Where no payload is rejected, the loop publishes the frames of all that is polled. -/
theorem drainLoop_accepted (nowMs fuel : Nat) (pipeline : InboundPipeline Decoder Frame) (count : Nat)
    (accepted : Accepted decode pipeline.decoder (JitterBuffer.pollWith nowMs fuel pipeline.jitter).1) :
    ∃ total, drainLoop decode nowMs fuel pipeline count = (.ok total, { pipeline with
      jitter := (JitterBuffer.pollWith nowMs fuel pipeline.jitter).2
      decoder := (decodeAll decode pipeline.decoder (JitterBuffer.pollWith nowMs fuel pipeline.jitter).1).2
      audio := pipeline.audio ++
        (decodeAll decode pipeline.decoder (JitterBuffer.pollWith nowMs fuel pipeline.jitter).1).1 }) := by
  induction fuel generalizing pipeline count with
  | zero => exact ⟨count, by simp [drainLoop, JitterBuffer.pollWith, decodeAll]⟩
  | succ fuel inductionHypothesis =>
    cases turn_cases decode nowMs pipeline with
    | dry jitter polled =>
      exact ⟨count, by simp [drainLoop, JitterBuffer.pollWith, polled, decodeAll]⟩
    | passed packet jitter polled other =>
      simp only [JitterBuffer.pollWith, polled, Accepted, if_neg other] at accepted
      simp only [drainLoop, JitterBuffer.pollWith, polled, decodeAll, if_neg other]
      exact inductionHypothesis { pipeline with jitter } count accepted
    | rejected packet jitter polled audio error decoder decoded =>
      simp only [JitterBuffer.pollWith, polled, Accepted, if_pos audio, decoded] at accepted
      exact absurd accepted.1 (by simp [Except.isOk, Except.toBool])
    | accepted packet jitter polled audio frame decoder decoded =>
      simp only [JitterBuffer.pollWith, polled, Accepted, if_pos audio, decoded] at accepted
      obtain ⟨total, remaining⟩ := inductionHypothesis
        { pipeline with jitter, decoder, audio := pipeline.audio ++ [frame] } (count + 1) accepted.2
      refine ⟨total, ?_⟩
      simp only [drainLoop, JitterBuffer.pollWith, polled, decodeAll, if_pos audio, decoded, remaining,
        List.append_assoc, List.singleton_append]

/-- A rejected payload ends the loop with the decoder's error. -/
theorem drainLoop_rejected (nowMs fuel : Nat) (pipeline : InboundPipeline Decoder Frame) (count : Nat)
    (rejected : ¬ Accepted decode pipeline.decoder (JitterBuffer.pollWith nowMs fuel pipeline.jitter).1) :
    ∃ error, (drainLoop decode nowMs fuel pipeline count).1 = .error error := by
  induction fuel generalizing pipeline count with
  | zero => exact absurd trivial rejected
  | succ fuel inductionHypothesis =>
    cases turn_cases decode nowMs pipeline with
    | dry jitter polled =>
      rw [JitterBuffer.pollWith, polled] at rejected
      exact absurd trivial rejected
    | passed packet jitter polled other =>
      simp only [JitterBuffer.pollWith, polled, Accepted, if_neg other] at rejected
      simp only [drainLoop, polled, if_neg other]
      exact inductionHypothesis { pipeline with jitter } count rejected
    | rejected packet jitter polled audio error decoder decoded =>
      exact ⟨error, by simp only [drainLoop, polled, if_pos audio, decoded]⟩
    | accepted packet jitter polled audio frame decoder decoded =>
      simp only [JitterBuffer.pollWith, polled, Accepted, if_pos audio, decoded] at rejected
      simp only [drainLoop, polled, if_pos audio, decoded]
      exact inductionHypothesis { pipeline with jitter, decoder, audio := pipeline.audio ++ [frame] }
        (count + 1) fun accepted => rejected ⟨rfl, accepted⟩

variable (pipeline : InboundPipeline Decoder Frame)

/-- Draining publishes the frames of all that the buffer emits, when none is rejected. -/
theorem drain_accepted (nowMs : Nat)
    (accepted : Accepted decode pipeline.decoder (pipeline.jitter.pollAll nowMs).1) :
    ∃ total, pipeline.drain decode nowMs = (.ok total, { pipeline with
      jitter := (pipeline.jitter.pollAll nowMs).2
      decoder := (decodeAll decode pipeline.decoder (pipeline.jitter.pollAll nowMs).1).2
      audio := pipeline.audio ++
        (decodeAll decode pipeline.decoder (pipeline.jitter.pollAll nowMs).1).1
      pollCount := pipeline.pollCount + 1 }) := by
  obtain ⟨total, drained⟩ := drainLoop_accepted decode nowMs _ pipeline 0 accepted
  exact ⟨total, by rw [drain, drained]; rfl⟩

/-- Draining fails when a payload is rejected. -/
theorem drain_rejected (nowMs : Nat)
    (rejected : ¬ Accepted decode pipeline.decoder (pipeline.jitter.pollAll nowMs).1) :
    ∃ error after, pipeline.drain decode nowMs = (.error error, after) := by
  obtain ⟨error, failed⟩ := drainLoop_rejected decode nowMs _ pipeline 0 rejected
  rcases looped : drainLoop decode nowMs (pipeline.jitter.buffer.size + 1) pipeline 0 with
    ⟨same | total, after⟩
  · exact ⟨same, after, by rw [drain, looped]⟩
  · rw [looped] at failed
    cases failed

/-- What a task on a timer should do: return at the stop and not before, and publish the
frames of all accepted payloads that the buffer emits. -/
def Served (events : List RunEvent) : Prop :=
  (pipeline.run decode events).1 = (if .stop ∈ events then some (.ok ()) else none) ∧
    (pipeline.run decode events).2.audio =
      pipeline.audio ++ (decodeAll decode pipeline.decoder (emitted pipeline.jitter events)).1

/-- With every payload accepted, the task does what it should. The induction is on the
events, of which a tick empties the buffer. -/
theorem served_of_accepted (events : List RunEvent)
    (accepted : Accepted decode pipeline.decoder (emitted pipeline.jitter events)) :
    pipeline.Served decode events := by
  induction events generalizing pipeline with
  | nil => exact ⟨rfl, (List.append_nil _).symm⟩
  | cons event rest inductionHypothesis =>
    cases event with
    | stop => exact ⟨rfl, (List.append_nil _).symm⟩
    | tick nowMs =>
      have stays : RunEvent.stop ∈ RunEvent.tick nowMs :: rest ↔ .stop ∈ rest := by simp
      rw [emitted_tick, accepted_append] at accepted
      obtain ⟨total, drained⟩ := pipeline.drain_accepted decode nowMs accepted.1
      have served := inductionHypothesis (pipeline.drain decode nowMs).2 (by
        rw [drained]
        exact accepted.2)
      rw [drained] at served
      unfold Served at served ⊢
      rw [emitted_tick, decodeAll_append, run, drained, ← List.append_assoc]
      simp only [stays]
      exact served

/-- With a payload rejected, the task returns the error, before any stop. -/
theorem run_of_rejected (events : List RunEvent)
    (rejected : ¬ Accepted decode pipeline.decoder (emitted pipeline.jitter events)) :
    ∃ error, (pipeline.run decode events).1 = some (.error error) := by
  induction events generalizing pipeline with
  | nil => exact absurd trivial rejected
  | cons event rest inductionHypothesis =>
    cases event with
    | stop => exact absurd trivial rejected
    | tick nowMs =>
      rw [emitted_tick, accepted_append] at rejected
      by_cases here : Accepted decode pipeline.decoder (pipeline.jitter.pollAll nowMs).1
      · obtain ⟨total, drained⟩ := pipeline.drain_accepted decode nowMs here
        have returned := inductionHypothesis (pipeline.drain decode nowMs).2 (by
          rw [drained]
          exact fun later => rejected ⟨here, later⟩)
        rw [drained] at returned
        rw [run, drained]
        exact returned
      · obtain ⟨error, after, drained⟩ := pipeline.drain_rejected decode nowMs here
        rw [run, drained]
        exact ⟨error, rfl⟩

end InboundPipeline

end Draining

/-- A task on a timer goes on until the stop, and publishes all that it should, exactly
when the decoder accepts every audio payload that the jitter buffer emits.

The run stops at the first payload that is rejected and at nothing else. Where none is, each
tick publishes what the buffer emits, up to the stop. -/
theorem run_served_iff (decode : Decoder → List UInt8 → Except SeaMeetError Frame × Decoder)
    (pipeline : InboundPipeline Decoder Frame) (events : List RunEvent) :
    pipeline.Served decode events ↔
      Accepted decode pipeline.decoder (emitted pipeline.jitter events) := by
  refine ⟨fun served => ?_, pipeline.served_of_accepted decode events⟩
  by_contra rejected
  obtain ⟨error, returned⟩ := pipeline.run_of_rejected decode events rejected
  rw [InboundPipeline.Served, returned] at served
  split at served
  · cases served.1
  · cases served.1

/-- What reaches a peer while it runs. A packet comes with the time at which it does. -/
inductive PeerEvent where
  | rtpReceived (packet : RtpPacket) (nowMs : Nat)
  | disconnected
  /-- An event that a peer has no use for, or more events missed than it could hold. -/
  | passed
  | closed
  | stop
  deriving DecidableEq, Repr

/-- Whether a peer returns. -/
def PeerEvent.isEnd : PeerEvent → Bool
  | .disconnected => true
  | .closed => true
  | .stop => true
  | _ => false

namespace InboundPipeline

variable (decode : Decoder → List UInt8 → Except SeaMeetError Frame × Decoder)

/-- Runs with an event stream, forwarding received RTP packets into the inbound pipeline.
A failure to drain is logged only. -/
def runWithEvents : InboundPipeline Decoder Frame → List PeerEvent →
    Option (Except SeaMeetError Unit) × InboundPipeline Decoder Frame
  | pipeline, [] => (none, pipeline)
  | pipeline, .rtpReceived packet nowMs :: rest =>
      runWithEvents ((pipeline.pushRtp packet).drain decode nowMs).2 rest
  | pipeline, .passed :: rest => runWithEvents pipeline rest
  | pipeline, .disconnected :: _ => (some (.ok ()), pipeline)
  | pipeline, .closed :: _ => (some (.ok ()), pipeline)
  | pipeline, .stop :: _ => (some (.ok ()), pipeline)

/-- The published frames are those of all accepted payloads that the buffer has emitted,
decoded in that order. -/
def Published (initial : Decoder) (pipeline : InboundPipeline Decoder Frame) : Prop :=
  decodeAll decode initial pipeline.jitter.emissions = (pipeline.audio, pipeline.decoder)

namespace Published

variable {decode} {initial : Decoder} {pipeline : InboundPipeline Decoder Frame}

/-- The loop keeps it, whichever payloads are rejected. -/
theorem drainLoop (published : pipeline.Published decode initial) (nowMs fuel count : Nat) :
    (InboundPipeline.drainLoop decode nowMs fuel pipeline count).2.Published decode initial := by
  induction fuel generalizing pipeline count with
  | zero => exact published
  | succ fuel inductionHypothesis =>
    have grown := pipeline.jitter.poll_emissions nowMs
    have decoded_on : ∀ packets, decodeAll decode initial (pipeline.jitter.emissions ++ packets) =
        (pipeline.audio ++ (decodeAll decode pipeline.decoder packets).1,
          (decodeAll decode pipeline.decoder packets).2) := by
      intro packets
      rw [decodeAll_append, published]
    cases turn_cases decode nowMs pipeline with
    | dry jitter polled =>
      rw [polled] at grown
      simp only [InboundPipeline.drainLoop, polled]
      exact (congrArg (decodeAll decode initial) (grown.trans (List.append_nil _))).trans published
    | passed packet jitter polled other =>
      rw [polled] at grown
      simp only [InboundPipeline.drainLoop, polled, if_neg other]
      have published : Published decode initial { pipeline with jitter } := by
        simpa [Published, decodeAll, other] using
          (congrArg (decodeAll decode initial) grown).trans (decoded_on [packet])
      exact inductionHypothesis published count
    | rejected packet jitter polled audio error decoder decoded =>
      rw [polled] at grown
      simp only [InboundPipeline.drainLoop, polled, if_pos audio, decoded]
      simpa [Published, decodeAll, audio, decoded] using
        (congrArg (decodeAll decode initial) grown).trans (decoded_on [packet])
    | accepted packet jitter polled audio frame decoder decoded =>
      rw [polled] at grown
      simp only [InboundPipeline.drainLoop, polled, if_pos audio, decoded]
      have published : Published decode initial
          { pipeline with jitter, decoder, audio := pipeline.audio ++ [frame] } := by
        simpa [Published, decodeAll, audio, decoded] using
          (congrArg (decodeAll decode initial) grown).trans (decoded_on [packet])
      exact inductionHypothesis published (count + 1)

/-- Draining publishes exactly what was decoded. -/
theorem drain (published : pipeline.Published decode initial) (nowMs : Nat) :
    (pipeline.drain decode nowMs).2.Published decode initial := by
  have looped := published.drainLoop nowMs (pipeline.jitter.buffer.size + 1) 0
  unfold InboundPipeline.drain
  split
  · rename_i failed
    rw [failed] at looped
    exact looped
  · rename_i drained
    rw [drained] at looped
    exact looped

/-- Pushing a packet publishes nothing new. -/
theorem pushRtp (published : pipeline.Published decode initial) (packet : RtpPacket) :
    (pipeline.pushRtp packet).Published decode initial := by
  unfold Published InboundPipeline.pushRtp
  rw [JitterBuffer.push_emissions]
  exact published

/-- A task on a timer keeps it to the end. -/
theorem run (published : pipeline.Published decode initial) (events : List RunEvent) :
    (pipeline.run decode events).2.Published decode initial := by
  induction events generalizing pipeline with
  | nil => exact published
  | cons event rest inductionHypothesis =>
    cases event with
    | stop => exact published
    | tick nowMs =>
      have kept := published.drain nowMs
      unfold InboundPipeline.run
      rcases drained : pipeline.drain decode nowMs with ⟨error | count, after⟩
      · rw [drained] at kept
        exact kept
      · rw [drained] at kept
        exact inductionHypothesis kept

/-- A peer keeps it to the end. -/
theorem runWithEvents (published : pipeline.Published decode initial) (events : List PeerEvent) :
    (pipeline.runWithEvents decode events).2.Published decode initial := by
  induction events generalizing pipeline with
  | nil => exact published
  | cons event rest inductionHypothesis =>
    cases event with
    | rtpReceived packet nowMs => exact inductionHypothesis ((published.pushRtp packet).drain nowMs)
    | passed => exact inductionHypothesis published
    | _ => exact published

end Published

/-- A peer returns at the first event that ends it and not before, without an error,
whichever payloads are rejected. -/
theorem runWithEvents_returned (pipeline : InboundPipeline Decoder Frame) (events : List PeerEvent) :
    (pipeline.runWithEvents decode events).1 =
      if events.any PeerEvent.isEnd then some (.ok ()) else none := by
  induction events generalizing pipeline with
  | nil => rfl
  | cons event rest inductionHypothesis =>
    cases event with
    | rtpReceived packet nowMs => exact inductionHypothesis _
    | passed => exact inductionHypothesis _
    | _ => rfl

end InboundPipeline

/-- A raw PCM audio frame. A sample is the bit pattern of its number. -/
structure PcmFrame where
  samples : List UInt32
  sampleRate : UInt32
  channels : UInt16
  deriving DecidableEq, Repr

namespace AudioPassthrough

/-- Reads back raw PCM data: the sample rate, the channels and the samples, with the
lowest byte of each first. -/
def decode (data : List UInt8) : Except SeaMeetError PcmFrame :=
  let number := fun bytes : List UInt8 => BigEndian.decode bytes.reverse
  if data.length < 6 then
    .error (.codec "AudioPassthrough: payload too short")
  else
    let sampleRate := UInt32.ofNat (number (data.take 4))
    let channels := UInt16.ofNat (number ((data.drop 4).take 2))
    let sampleBytes := data.drop 6
    if sampleBytes.length % 4 ≠ 0 then
      .error (.codec "AudioPassthrough: sample data not aligned to f32")
    else
      .ok {
        samples := (chunks 4 sampleBytes).map fun piece => UInt32.ofNat (number piece)
        sampleRate, channels }

end AudioPassthrough

/-- A payload of two bytes ends the task at the first tick, and the frame behind it is
never published. -/
theorem bad_packet_silences :
    let decode : Unit → List UInt8 → Except SeaMeetError PcmFrame × Unit :=
      fun _ data => (AudioPassthrough.decode data, ())
    let pipeline := ((InboundPipeline.new ()).pushRtp (.newAudio [0, 1] 0 1 0)).pushRtp
      (.newAudio [128, 187, 0, 0, 1, 0] 960 1 1)
    let ticks : List RunEvent := [.tick 0, .tick 10]
    (pipeline.run decode ticks).1 =
        some (.error (.codec "AudioPassthrough: payload too short")) ∧
      (pipeline.run decode ticks).2.audio = [] ∧
      (decodeAll decode () (emitted pipeline.jitter ticks)).1 = [⟨[], 48000, 1⟩] := by
  decide +kernel

end Seameet.Pipeline
