import Seameet.Media.Assignment

/-!
# The timers of a media task

A decoder that misses a picture shows nothing until the next keyframe, so a media task asks
for keyframes on timers as well: five times in the first two seconds after it is connected,
every thirty seconds from its own browser, and, for three seconds after it has found a line
for a source, from that source in every idle pass of its loop.

The loop with its timers refines the loop without them: it takes the same turns with the
same effects and says the same, apart from more requests for keyframes. What was proved of
the task without timers holds of the loop.

The lists of times are records, and so are the counted passes.
-/

namespace Seameet

open Library

/-- The locals of a media task with its timers. Times are nanoseconds of a monotonic clock. -/
structure MediaLoop where
  task : Task
  connectedAt : Option Nat
  postConnectPliCount : Nat
  lastPli : Nat
  /-- When the keyframes of a new connection were asked for, oldest first. -/
  bursts : List Nat
  /-- How many passes a connected task has made two seconds or more after the first. -/
  latePasses : Nat
  /-- When the thirty seconds had passed, oldest first. -/
  safetyNets : List Nat
  /-- Which source was found a line, and when. -/
  shown : List (ParticipantId × Nat)
  /-- Which source was asked in an idle pass, and when. -/
  retries : List (ParticipantId × Nat)

/-- One turn of the loop: the drained events, then a command, or nothing before the timer
runs out. -/
inductive LoopTurn where
  | drained (events : List RtcEvent)
  | command (cmd : PeerCmd)
  | idle
deriving DecidableEq

/-- The turn of a task without timers. -/
def LoopTurn.untimed : LoopTurn → Option Task.Turn
  | .drained events => some (.drained events)
  | .command cmd => some (.command cmd)
  | .idle => none

/-- An output that asks for no keyframe. -/
def Output.lasting : Output → Bool
  | .keyframe _ | .pli _ => false
  | _ => true

/-- Milliseconds after the connection at which keyframes are asked for. -/
def pliBurstDelaysMs : List Nat := [0, 200, 500, 1000, 2000]

/-- How many nanoseconds a millisecond has. -/
def nanosPerMilli : Nat := 1000000

/-- How long the keyframes of a new source are asked for. -/
def keyframeRetrySpan : Nat := 3000 * nanosPerMilli

/-- How long a task's own browser is left alone. -/
def safetyNetPeriod : Nat := 30000 * nanosPerMilli

/-- The source has got a slot, or a screen line. -/
def Task.shows (before after : Task) (source : ParticipantId) : Bool :=
  (before.sourceSlots.lookup source).isNone && (after.sourceSlots.lookup source).isSome ||
    !before.hasScreenMid source && after.hasScreenMid source

namespace MediaLoop

/-- The loop as it is started, with its timers armed from now on. -/
def start (pid : ParticipantId) (ownAudioPt ownVideoPt : Nat) (roomId : RoomId) (now : Nat)
    (answer : SdpAnswer) : MediaLoop :=
  { task := .start pid ownAudioPt ownVideoPt roomId now answer, connectedAt := none,
    postConnectPliCount := 0, lastPli := now, bursts := [], latePasses := 0, safetyNets := [],
    shown := [], retries := [] }

/-- Keyframes for a new connection: at each of the delays, or in the first pass after it. -/
def burst (rtc : Rtc) (loop : MediaLoop) : MediaLoop × List Output :=
  if loop.task.iceConnected && loop.task.mediaStarted then
    let connectedAt := loop.connectedAt.getD rtc.now
    let elapsedMs := (rtc.now - connectedAt) / nanosPerMilli
    let connected : MediaLoop :=
      { loop with
        connectedAt := some connectedAt
        latePasses := if 2000 ≤ elapsedMs then loop.latePasses + 1 else loop.latePasses }
    match pliBurstDelaysMs[loop.postConnectPliCount]? with
    | some delay =>
        if delay ≤ elapsedMs then
          ({ connected with
              postConnectPliCount := loop.postConnectPliCount + 1
              bursts := loop.bursts ++ [rtc.now] },
            Task.requestOwn rtc loop.task.lines.ownVideoMid ++ loop.task.requestAllKeyframes rtc)
        else (connected, [])
    | none => (connected, [])
  else (loop, [])

/-- Every thirty seconds the task's own browser is asked. -/
def safetyNet (rtc : Rtc) (loop : MediaLoop) : MediaLoop × List Output :=
  if loop.task.mediaStarted && safetyNetPeriod ≤ rtc.now - loop.lastPli then
    ({ loop with lastPli := rtc.now, safetyNets := loop.safetyNets ++ [rtc.now] },
      Task.requestOwn rtc loop.task.lines.ownVideoMid ++
        Task.requestOwn rtc loop.task.lines.ownScreenMid)
  else (loop, [])

/-- Whether a new source is still asked. -/
def retried (rtc : Rtc) (loop : MediaLoop) (source : ParticipantId) : Bool :=
  (loop.task.sourceKeyframePending.lookup source).any fun since =>
    rtc.now - since < keyframeRetrySpan

/-- The new sources are asked, and the others forgotten. -/
def retry (rtc : Rtc) (loop : MediaLoop) : MediaLoop × List Output :=
  let sources := (rtc.arrange loop.task.sourceKeyframePending.keys).filter (loop.retried rtc)
  ({ loop with
      task := { loop.task with
        sourceKeyframePending := loop.task.sourceKeyframePending.retain fun _ since =>
          rtc.now - since < keyframeRetrySpan }
      retries := loop.retries ++ (sources.filter (· ∈ rtc.peers)).map (·, rtc.now) },
    sources.flatMap (Task.requestKeyframe rtc))

/-- The sources that a command finds a line for. -/
def appearances (rtc : Rtc) (before after : Task) : PeerCmd → List (ParticipantId × Nat)
  | .media packet =>
      if before.shows after packet.sourcePid then [(packet.sourcePid, rtc.now)] else []
  | _ => []

/-- One turn, with what the environment answers during it. -/
def turn (loop : MediaLoop) (input : Rtc × LoopTurn) : MediaLoop × List Output :=
  match input.2 with
  | .drained events =>
      let drained := loop.task.drainOutputs input.1 events
      let burst := { loop with task := drained.1 }.burst input.1
      (burst.1, drained.2 ++ burst.2)
  | .command cmd =>
      let handled := loop.task.handle input.1 cmd
      ({ loop with
          task := handled.1
          shown := loop.shown ++ appearances input.1 loop.task handled.1 cmd },
        handled.2)
  | .idle =>
      let net := loop.safetyNet input.1
      let retried := net.1.retry input.1
      (retried.1, net.2 ++ retried.2)

/-- A run of the loop: any turns in any order. -/
def run : MediaLoop → List (Rtc × LoopTurn) → MediaLoop × List Output := traced turn

end MediaLoop

namespace Task

/-- The task with other sources to be asked again. -/
def retrying (task : Task) (pending : Table ParticipantId Nat) : Task :=
  { task with sourceKeyframePending := pending }

/-- The tasks differ in the sources to be asked again at most. -/
def Alike (task other : Task) : Prop := ∃ pending, other = task.retrying pending

section Alike

variable (rtc : Rtc) {task other : Task}

/-- A task is alike itself. -/
theorem Alike.refl (task : Task) : task.Alike task := ⟨task.sourceKeyframePending, rfl⟩

/-- Tasks alike to a third are alike. -/
theorem Alike.trans {third : Task} (one : task.Alike other) (two : other.Alike third) :
    task.Alike third := by
  obtain ⟨_, rfl⟩ := one
  obtain ⟨pending, rfl⟩ := two
  exact ⟨pending, rfl⟩

/-- Alike tasks forward a packet alike. -/
theorem Alike.writeForwardedRtp (alike : task.Alike other) (media : ForwardedMedia) :
    (task.writeForwardedRtp rtc media).1.Alike (other.writeForwardedRtp rtc media).1 ∧
      (task.writeForwardedRtp rtc media).2 = (other.writeForwardedRtp rtc media).2 := by
  obtain ⟨pending, rfl⟩ := alike
  have ensured : (task.retrying pending).ensureSlot media.sourcePid media.isScreen =
      task.ensureSlot media.sourcePid media.isScreen := rfl
  unfold Task.writeForwardedRtp
  rw [ensured]
  split
  · exact ⟨⟨pending, rfl⟩, rfl⟩
  · split <;> exact ⟨⟨pending, rfl⟩, rfl⟩

/-- Announcing a source keeps tasks alike and puts out the same. -/
theorem Alike.announceSource (alike : task.Alike other) (source : ParticipantId)
    (createdNew gainedScreenMid : Bool) :
    (task.announceSource rtc source createdNew gainedScreenMid).1.Alike
        (other.announceSource rtc source createdNew gainedScreenMid).1 ∧
      (task.announceSource rtc source createdNew gainedScreenMid).2 =
        (other.announceSource rtc source createdNew gainedScreenMid).2 := by
  obtain ⟨pending, rfl⟩ := alike
  unfold Task.announceSource
  split <;> exact ⟨⟨_, rfl⟩, rfl⟩

/-- Parking media keeps tasks alike. -/
theorem Alike.park (alike : task.Alike other) (media : ForwardedMedia) :
    (task.park media).Alike (other.park media) := by
  obtain ⟨pending, rfl⟩ := alike
  refine ⟨pending, ?_⟩
  unfold Task.park Task.retrying
  extract_lets buffer
  by_cases room : buffer.length < mediaBufferCap
  · rw [if_pos room, if_pos room]
  · rw [if_neg room, if_neg room]

/-- Forwarding media keeps tasks alike and puts out the same. -/
theorem Alike.forward (alike : task.Alike other) (media : ForwardedMedia) :
    (task.forward rtc media).1.Alike (other.forward rtc media).1 ∧
      (task.forward rtc media).2 = (other.forward rtc media).2 := by
  obtain ⟨pending, rfl⟩ := alike
  -- Once the slot is ensured.
  have onward : ∀ (ensured : Task) (created hadScreenMid : Bool),
      let forwards := fun (ensured : Task) =>
        if (ensured.sourceSlots.lookup media.sourcePid).isNone then (ensured.park media, [])
        else
          let written := ensured.writeForwardedRtp rtc media
          let announced := written.1.announceSource rtc media.sourcePid created
            (!hadScreenMid && written.1.hasScreenMid media.sourcePid)
          (announced.1, written.2 ++ announced.2)
      (forwards ensured).1.Alike (forwards (ensured.retrying pending)).1 ∧
        (forwards ensured).2 = (forwards (ensured.retrying pending)).2 := by
    intro ensured created hadScreenMid forwards
    have alike : ensured.Alike (ensured.retrying pending) := ⟨pending, rfl⟩
    by_cases absent : (ensured.sourceSlots.lookup media.sourcePid).isNone = true
    · have absent' : ((ensured.retrying pending).sourceSlots.lookup media.sourcePid).isNone = true :=
        absent
      simp only [forwards, if_pos absent, if_pos absent']
      exact ⟨alike.park media, trivial⟩
    · have absent' : ¬((ensured.retrying pending).sourceSlots.lookup media.sourcePid).isNone = true :=
        absent
      obtain ⟨written, same⟩ := alike.writeForwardedRtp rtc media
      have screen : ((ensured.retrying pending).writeForwardedRtp rtc media).1.hasScreenMid
          media.sourcePid = (ensured.writeForwardedRtp rtc media).1.hasScreenMid media.sourcePid := by
        obtain ⟨_, written⟩ := written
        rw [written]
        rfl
      obtain ⟨announced, told⟩ := written.announceSource rtc media.sourcePid created
        (!hadScreenMid && (ensured.writeForwardedRtp rtc media).1.hasScreenMid media.sourcePid)
      simp only [forwards, if_neg absent, if_neg absent', screen]
      exact ⟨announced, by rw [same, told]⟩
  unfold Task.forward
  by_cases muted : (media.isAudio && decide (media.sourcePid ∈ task.mutedPeers)) = true
  · have muted' : (media.isAudio && decide (media.sourcePid ∈ (task.retrying pending).mutedPeers)) =
        true := muted
    rw [if_pos muted, if_pos muted']
    exact ⟨⟨pending, rfl⟩, rfl⟩
  · have muted' : ¬(media.isAudio && decide (media.sourcePid ∈ (task.retrying pending).mutedPeers)) =
        true := muted
    rw [if_neg muted, if_neg muted']
    by_cases had : (task.sourceSlots.lookup media.sourcePid).isSome = true
    · have had' : ((task.retrying pending).sourceSlots.lookup media.sourcePid).isSome = true := had
      simp only [if_pos had, if_pos had']
      exact onward task _ _
    · have had' : ¬((task.retrying pending).sourceSlots.lookup media.sourcePid).isSome = true := had
      simp only [if_neg had, if_neg had']
      exact onward { task with
        sourceSlots := (task.ensureSlot media.sourcePid media.isScreen).2 } _ _

/-- Flushing one source keeps tasks alike and puts out the same. -/
theorem Alike.flushSource (alike : task.Alike other) (source : ParticipantId) :
    (task.flushSource rtc source).1.Alike (other.flushSource rtc source).1 ∧
      (task.flushSource rtc source).2 = (other.flushSource rtc source).2 := by
  obtain ⟨pending, rfl⟩ := alike
  have same : (task.retrying pending).pendingMedia.lookup source = task.pendingMedia.lookup source := rfl
  unfold Task.flushSource
  rw [same]
  cases task.pendingMedia.lookup source with
  | none => exact ⟨⟨pending, rfl⟩, rfl⟩
  | some buffered =>
    have emptied : ({ task with pendingMedia := task.pendingMedia.erase source } : Task).Alike
        { task.retrying pending with
          pendingMedia := (task.retrying pending).pendingMedia.erase source } := ⟨pending, rfl⟩
    obtain ⟨written, told⟩ := traced_simulates Task.Alike
      (buffered.filter fun media => !isPendingMediaStale media.wallclock rtc.now)
      (fun _ _ media _ alike => alike.writeForwardedRtp rtc media) emptied
    obtain ⟨_, slots⟩ := written
    refine ⟨⟨_, slots⟩, ?_⟩
    simp only [Task.writeAll, slots, told]
    rfl

/-- Flushing several sources keeps tasks alike and puts out the same: by the list. -/
theorem Alike.flush (alike : task.Alike other) (sources : List ParticipantId) :
    (Task.flush rtc task sources).1.Alike (Task.flush rtc other sources).1 ∧
      (Task.flush rtc task sources).2 = (Task.flush rtc other sources).2 :=
  traced_simulates Task.Alike sources
    (fun _ _ source _ alike => alike.flushSource rtc source) alike

/-- Adopting a line as one's own keeps tasks alike. -/
theorem Alike.adoptOwn (alike : task.Alike other) (line : Mid × MediaKind) :
    (task.adoptOwn line).Alike (other.adoptOwn line) := by
  obtain ⟨pending, rfl⟩ := alike
  refine ⟨pending, ?_⟩
  unfold Task.adoptOwn
  cases line.2 with
  | audio =>
    cases h : task.lines.ownAudioMid <;> simp [Task.retrying, h]
  | video =>
    cases h : task.lines.ownVideoMid <;> simp [Task.retrying, h]

/-- Pushing a free line keeps tasks alike. -/
theorem Alike.push (alike : task.Alike other) (line : Mid × MediaKind) :
    (task.push line).Alike (other.push line) := by
  obtain ⟨pending, rfl⟩ := alike
  exact ⟨pending, rfl⟩

/-- Adopting a negotiated line keeps tasks alike. -/
theorem Alike.adoptNegotiated (alike : task.Alike other) (line : Mid × MediaKind) :
    (task.adoptNegotiated line).Alike (other.adoptNegotiated line) := by
  have own := alike.adoptOwn line
  obtain ⟨pending, rfl⟩ := alike
  unfold Task.adoptNegotiated
  cases line.2 with
  | audio => exact own
  | video =>
    have flags : ((task.retrying pending).screenSharePending ||
        (task.retrying pending).screenShareActive) =
          (task.screenSharePending || task.screenShareActive) := rfl
    have lines : (task.retrying pending).lines = task.lines := rfl
    simp only [flags, lines]
    split
    · exact own
    · split <;> exact ⟨pending, rfl⟩

/-- Negotiating keeps tasks alike and replies the same. -/
theorem Alike.negotiated (alike : task.Alike other) (sdp : String) :
    (task.negotiated rtc sdp).Alike (other.negotiated rtc sdp) ∧
      (task.handleRenegotiation rtc sdp).2.2 = (other.handleRenegotiation rtc sdp).2.2 := by
  have lines : other.lines = task.lines := by
    obtain ⟨_, rfl⟩ := alike
    rfl
  unfold Task.negotiated Task.handleRenegotiation
  cases rtc.acceptOffer sdp with
  | none => exact ⟨alike, rfl⟩
  | some answer =>
    simp only [lines]
    refine ⟨?_, trivial⟩
    have learnt : ((freshMids task.lines.allMids answer.mids).foldl Task.push task).Alike
        ((freshMids task.lines.allMids answer.mids).foldl Task.push other) :=
      List.foldl_rel alike fun line _ _ _ alike => alike.push line
    exact List.foldl_rel learnt fun line _ _ _ alike => alike.adoptNegotiated line

/-- Renegotiating keeps tasks alike and puts out the same. -/
theorem Alike.renegotiate (alike : task.Alike other) (sdp : String) :
    (task.renegotiate rtc sdp).1.Alike (other.renegotiate rtc sdp).1 ∧
      (task.renegotiate rtc sdp).2 = (other.renegotiate rtc sdp).2 := by
  obtain ⟨adopted, reply⟩ := alike.negotiated rtc sdp
  have waiting : (other.negotiated rtc sdp).pendingMedia = (task.negotiated rtc sdp).pendingMedia := by
    obtain ⟨_, same⟩ := adopted
    rw [same]
    rfl
  obtain ⟨flushed, told⟩ := adopted.flush rtc
    (rtc.arrange (task.negotiated rtc sdp).pendingMedia.keys)
  unfold Task.renegotiate
  simp only [waiting, ← reply, ← told]
  refine ⟨flushed, ?_⟩
  obtain ⟨_, same⟩ := flushed
  rw [same]
  rfl

/-- A change of the peer count keeps tasks alike and puts out the same. -/
theorem Alike.peerCountChanged (alike : task.Alike other) (count : Nat) :
    (task.peerCountChanged rtc count).1.Alike (other.peerCountChanged rtc count).1 ∧
      (task.peerCountChanged rtc count).2 = (other.peerCountChanged rtc count).2 := by
  obtain ⟨pending, rfl⟩ := alike
  exact ⟨⟨pending, rfl⟩, rfl⟩

/-- Alike tasks handle a command alike. -/
theorem Alike.handle (alike : task.Alike other) (cmd : PeerCmd) :
    (task.handle rtc cmd).1.Alike (other.handle rtc cmd).1 ∧
      (task.handle rtc cmd).2 = (other.handle rtc cmd).2 := by
  cases cmd with
  | media packet => exact alike.forward rtc packet
  | renegotiationOffer sdp => exact alike.renegotiate rtc sdp
  | peerCountChanged count => exact alike.peerCountChanged rtc count
  | udpPacket data source =>
    obtain ⟨pending, rfl⟩ := alike
    have flags : ((task.retrying pending).iceConnected, (task.retrying pending).routeRegistered) =
      (task.iceConnected, task.routeRegistered) := rfl
    simp only [Prod.mk.injEq] at flags
    simp only [Task.handle, flags]
    split <;> exact ⟨⟨pending, rfl⟩, rfl⟩
  | peerMuteChanged pid muted =>
    obtain ⟨pending, rfl⟩ := alike
    cases muted <;> exact ⟨⟨pending, rfl⟩, rfl⟩
  | screenShareActive active =>
    obtain ⟨pending, rfl⟩ := alike
    cases active <;> exact ⟨⟨pending, rfl⟩, rfl⟩
  | iceCandidate | requestKeyframe | setMuted | peerLeft | sourceScreenStopped =>
    obtain ⟨pending, rfl⟩ := alike
    exact ⟨⟨_, rfl⟩, rfl⟩

/-- An event of the media library keeps tasks alike and puts out the same. -/
theorem Alike.drainEvent (alike : task.Alike other) (event : RtcEvent) :
    (task.drainEvent rtc event).1.Alike (other.drainEvent rtc event).1 ∧
      (task.drainEvent rtc event).2 = (other.drainEvent rtc event).2 := by
  obtain ⟨pending, rfl⟩ := alike
  cases event with
  | egressBitrateEstimate bps =>
    have noticed : (task.retrying pending).lastBweNotify = task.lastBweNotify := rfl
    simp only [Task.drainEvent, noticed]
    split <;> exact ⟨⟨pending, rfl⟩, rfl⟩
  | connected | iceRestarted | mediaAdded | rtpPacket | keyframeRequest =>
    exact ⟨⟨pending, rfl⟩, rfl⟩

/-- A line of the own media keeps tasks alike. -/
theorem Alike.addMedia (alike : task.Alike other) (line : Mid × MediaKind) :
    (task.addMedia line).Alike (other.addMedia line) := by
  have lines : other.lines = task.lines := by
    obtain ⟨_, rfl⟩ := alike
    rfl
  unfold Task.addMedia
  rw [lines]
  split
  · exact alike
  · exact (alike.push line).adoptOwn line

/-- Starting the media keeps tasks alike and puts out the same. -/
theorem Alike.startMedia (alike : task.Alike other) :
    (task.startMedia rtc).1.Alike (other.startMedia rtc).1 ∧
      (task.startMedia rtc).2 = (other.startMedia rtc).2 := by
  obtain ⟨pending, rfl⟩ := alike
  have started : (task.retrying pending).mediaStarted = task.mediaStarted := rfl
  have lines : (task.retrying pending).lines = task.lines := rfl
  unfold Task.startMedia
  simp only [started, lines]
  split <;> exact ⟨⟨pending, rfl⟩, rfl⟩

/-- Alike tasks drain the same events alike. -/
theorem Alike.drainOutputs (alike : task.Alike other) (events : List RtcEvent) :
    (task.drainOutputs rtc events).1.Alike (other.drainOutputs rtc events).1 ∧
      (task.drainOutputs rtc events).2 = (other.drainOutputs rtc events).2 := by
  obtain ⟨drained, told⟩ := traced_simulates Task.Alike events
    (fun _ _ event _ alike => alike.drainEvent rtc event) alike
  have listed : ((addedMedia events).foldl Task.addMedia (drainEvents rtc task events).1).Alike
      ((addedMedia events).foldl Task.addMedia (drainEvents rtc other events).1) :=
    List.foldl_rel drained fun line _ _ _ alike => alike.addMedia line
  obtain ⟨started, asked⟩ := listed.startMedia rtc
  exact ⟨started, congrArg₂ (· ++ ·) told asked⟩

end Alike

end Task

namespace MediaLoop

section Refinement

variable (rtc : Rtc) (loop : MediaLoop)

/-- Requests for keyframes do not last. -/
theorem requestOwn_passing (mid : Option Mid) :
    (Task.requestOwn rtc mid).filter Output.lasting = [] := by
  cases mid with
  | none => rfl
  | some mid =>
    simp only [Task.requestOwn]
    split <;> rfl

/-- Asking everybody for a key frame puts out nothing that lasts. -/
theorem requestAllKeyframes_passing (task : Task) :
    (task.requestAllKeyframes rtc).filter Output.lasting = [] := by
  apply List.filter_eq_nil_iff.mpr
  intro output asked
  obtain ⟨_, _, rfl⟩ := List.mem_map.mp asked
  exact Bool.false_ne_true

/-- What the loop asks for by itself changes the task in nothing that it answers by. -/
theorem burst_passing :
    (loop.burst rtc).1.task = loop.task ∧ (loop.burst rtc).2.filter Output.lasting = [] := by
  unfold burst
  split
  · extract_lets connectedAt elapsedMs connected
    split
    · split
      · refine ⟨rfl, ?_⟩
        rw [List.filter_append, requestOwn_passing, requestAllKeyframes_passing, List.append_nil]
      · exact ⟨rfl, rfl⟩
    · exact ⟨rfl, rfl⟩
  · exact ⟨rfl, rfl⟩

/-- The safety net changes nothing of the task and puts out nothing that lasts. -/
theorem safetyNet_passing :
    (loop.safetyNet rtc).1.task = loop.task ∧ (loop.safetyNet rtc).2.filter Output.lasting = [] := by
  unfold safetyNet
  split
  · refine ⟨rfl, ?_⟩
    rw [List.filter_append, requestOwn_passing, requestOwn_passing, List.append_nil]
  · exact ⟨rfl, rfl⟩

/-- A retry changes only whom the task has asked and puts out nothing that lasts. -/
theorem retry_passing :
    loop.task.Alike (loop.retry rtc).1.task ∧ (loop.retry rtc).2.filter Output.lasting = [] := by
  refine ⟨⟨_, rfl⟩, ?_⟩
  apply List.filter_eq_nil_iff.mpr
  intro output asked
  obtain ⟨source, _, asked⟩ := List.mem_flatMap.mp asked
  simp only [Task.requestKeyframe] at asked
  split at asked
  · rw [List.mem_singleton.mp asked]
    exact Bool.false_ne_true
  · cases asked

/-- The loop with its timers does what the task without them does, in the same turns: its
locals are the same but for the sources to be asked again, it says all that the task says,
and what else it says are requests for keyframes.

The timers change only the record of whom to ask again, and they put out requests for
keyframes only. A turn of the loop is the task's turn with such outputs between. -/
theorem timers_refine (inputs : List (Rtc × LoopTurn)) :
    let timed := loop.run inputs
    let plain := loop.task.run (inputs.filterMap fun input => input.2.untimed.map (input.1, ·))
    (∃ pending, timed.1.task = plain.1.retrying pending) ∧ plain.2.Sublist timed.2 ∧
      timed.2.filter Output.lasting = plain.2.filter Output.lasting := by
  intro timed plain
  refine traced_stutters _ Output.lasting (fun (loop : MediaLoop) (task : Task) => task.Alike loop.task)
    ?_ ?_ inputs (.refl loop.task)
  · rintro loop task ⟨rtc, turn⟩ taken projected alike
    cases turn with
    | drained events =>
      obtain rfl := Option.some.inj projected
      obtain ⟨drained, told⟩ := alike.drainOutputs rtc events
      obtain ⟨kept, passing⟩ :=
        burst_passing rtc { loop with task := (loop.task.drainOutputs rtc events).1 }
      simp only [turn, Task.turn, told]
      refine ⟨by rw [kept]; exact drained, List.sublist_append_left _ _, ?_⟩
      rw [List.filter_append, passing, List.append_nil]
    | command cmd =>
      obtain rfl := Option.some.inj projected
      obtain ⟨handled, told⟩ := alike.handle rtc cmd
      simp only [turn, Task.turn, told]
      exact ⟨handled, .refl _, trivial⟩
    | idle => cases projected
  · rintro loop task ⟨rtc, turn⟩ projected alike
    cases turn with
    | drained | command => cases projected
    | idle =>
      obtain ⟨same, silent⟩ := loop.safetyNet_passing rtc
      obtain ⟨asked, quiet⟩ := (loop.safetyNet rtc).1.retry_passing rtc
      rw [same] at asked
      refine ⟨alike.trans asked, ?_⟩
      simp only [turn, List.filter_append, silent, quiet, List.append_nil]

end Refinement

end MediaLoop

namespace Task

section Asked

variable (rtc : Rtc) (task : Task)

/-- A source with a slot keeps one when a packet of it is forwarded. -/
theorem writeForwardedRtp_present (media : ForwardedMedia)
    (present : (task.sourceSlots.lookup media.sourcePid).isSome = true) :
    ((task.writeForwardedRtp rtc media).1.sourceSlots.lookup media.sourcePid).isSome = true := by
  have outcome := writeForwardedRtp_outcome rtc task media
  generalize task.writeForwardedRtp rtc media = result at outcome ⊢
  cases outcome with
  | refused => exact present
  | unlined slot slots ensured => rw [ensureSlot_stored ensured, Option.isSome_some]
  | sent => simp

/-- Exactly a source that gets a slot or a screen line is noted to be asked again. -/
theorem forward_asked (media : ForwardedMedia) :
    (task.forward rtc media).1.sourceKeyframePending =
      if task.shows (task.forward rtc media).1 media.sourcePid then
        task.sourceKeyframePending.insert media.sourcePid rtc.now
      else task.sourceKeyframePending := by
  have unseen : ∀ after : Task, after.sourceSlots = task.sourceSlots →
      task.shows after media.sourcePid = false := by
    intro after same
    have screen : after.hasScreenMid media.sourcePid = task.hasScreenMid media.sourcePid := by
      rw [Task.hasScreenMid, Task.hasScreenMid, same]
    rw [Task.shows, same, screen]
    cases task.sourceSlots.lookup media.sourcePid <;> cases task.hasScreenMid media.sourcePid <;> rfl
  -- Once the source has a slot.
  have seen : ∀ opened : Task, opened.sourceKeyframePending = task.sourceKeyframePending →
      (opened.sourceSlots.lookup media.sourcePid).isSome = true →
      let written := opened.writeForwardedRtp rtc media
      let announced := (written.1.announceSource rtc media.sourcePid
        (!(task.sourceSlots.lookup media.sourcePid).isSome)
        (!task.hasScreenMid media.sourcePid && written.1.hasScreenMid media.sourcePid)).1
      announced.sourceKeyframePending =
        if task.shows announced media.sourcePid then
          task.sourceKeyframePending.insert media.sourcePid rtc.now
        else task.sourceKeyframePending := by
    intro opened same present written announced
    have stands := opened.writeForwardedRtp_present rtc media present
    obtain ⟨slots, framed⟩ := writeForwardedRtp_frame rtc opened media
    have kept : written.1.sourceKeyframePending = task.sourceKeyframePending := by
      rw [framed]
      exact same
    have noted : announced.sourceSlots = written.1.sourceSlots := by
      obtain ⟨_, noting⟩ := written.1.announceSource_frame rtc media.sourcePid
        (!(task.sourceSlots.lookup media.sourcePid).isSome)
        (!task.hasScreenMid media.sourcePid && written.1.hasScreenMid media.sourcePid)
      change (written.1.announceSource rtc media.sourcePid _ _).1.sourceSlots = _
      rw [noting]
    have shown : task.shows announced media.sourcePid =
        (!(task.sourceSlots.lookup media.sourcePid).isSome ||
          (!task.hasScreenMid media.sourcePid && written.1.hasScreenMid media.sourcePid)) := by
      have screen : announced.hasScreenMid media.sourcePid =
          written.1.hasScreenMid media.sourcePid := by
        rw [Task.hasScreenMid, Task.hasScreenMid, noted]
      rw [Task.shows, noted, screen, stands, Bool.and_true, Option.not_isSome]
    rw [shown]
    simp only [announced, announceSource]
    split
    · exact congrArg (·.insert media.sourcePid rtc.now) kept
    · exact kept
  have parks : ∀ opened : Task, opened.sourceSlots = task.sourceSlots →
      opened.sourceKeyframePending = task.sourceKeyframePending →
        (opened.park media).sourceKeyframePending =
          if task.shows (opened.park media) media.sourcePid then
            task.sourceKeyframePending.insert media.sourcePid rtc.now
          else task.sourceKeyframePending := by
    intro opened slots asked
    have parked : (opened.park media).sourceSlots = opened.sourceSlots ∧
        (opened.park media).sourceKeyframePending = opened.sourceKeyframePending := by
      simp only [park]
      split <;> exact ⟨rfl, rfl⟩
    rw [unseen _ (parked.1.trans slots)]
    exact parked.2.trans asked
  unfold Task.forward
  split
  · rw [unseen task rfl]
    rfl
  · cases stored : task.sourceSlots.lookup media.sourcePid with
    | some slot =>
      have opened := seen task rfl (by rw [stored]; rfl)
      simpa only [stored, Option.isSome_some, if_true, Option.isNone_some, Bool.false_eq_true,
        if_false] using opened
    | none =>
      simp only [Option.isSome_none, Bool.false_eq_true, if_false]
      split
      · next absent =>
        cases ensured : task.ensureSlot media.sourcePid media.isScreen with
        | mk slot slots =>
          cases slot with
          | some slot =>
            rw [ensured] at absent
            simp [ensureSlot_stored ensured] at absent
          | none =>
            have refused := (@ensureSlot_refused task _ _ (by rw [ensured])).1
            rw [ensured] at refused
            exact parks _ (Prod.mk.inj refused).2 rfl
      · next present =>
        have opened := seen { task with
          sourceSlots := (task.ensureSlot media.sourcePid media.isScreen).2 } rfl
            (by simpa [Option.isSome_iff_ne_none] using present)
        simpa only [stored, Option.isSome_none] using opened

/-- Flushing a source changes nothing of whom the task has asked. -/
theorem flushSource_asked (source : ParticipantId) :
    (task.flushSource rtc source).1.sourceKeyframePending = task.sourceKeyframePending := by
  unfold flushSource
  cases task.pendingMedia.lookup source with
  | none => rfl
  | some buffered =>
    refine traced_keeps_state
      (fun after : Task => after.sourceKeyframePending = task.sourceKeyframePending) _
      (fun before media _ same => ?_) _ rfl
    obtain ⟨slots, framed⟩ := writeForwardedRtp_frame rtc before media
    rw [framed]
    exact same

/-- Adopting a line as one's own changes nothing of whom the task has asked. -/
theorem adoptOwn_asked (line : Mid × MediaKind) :
    (task.adoptOwn line).sourceKeyframePending = task.sourceKeyframePending := by
  unfold adoptOwn
  cases line.2 <;> simp only <;> split <;> rfl

/-- Adopting a negotiated line changes nothing of whom the task has asked. -/
theorem adoptNegotiated_asked (line : Mid × MediaKind) :
    (task.adoptNegotiated line).sourceKeyframePending = task.sourceKeyframePending := by
  unfold adoptNegotiated
  cases line.2 with
  | audio => exact task.adoptOwn_asked line
  | video =>
    simp only
    split
    · exact task.adoptOwn_asked line
    · split <;> rfl

/-- Renegotiating changes nothing of whom the task has asked. -/
theorem renegotiate_asked (sdp : String) :
    (task.renegotiate rtc sdp).1.sourceKeyframePending = task.sourceKeyframePending := by
  have learnt : ∀ (step : Task → Mid × MediaKind → Task) (lines : List (Mid × MediaKind)) (task : Task),
      (∀ task line, (step task line).sourceKeyframePending = task.sourceKeyframePending) →
        (lines.foldl step task).sourceKeyframePending = task.sourceKeyframePending := by
    intro step lines task each
    induction lines generalizing task with
    | nil => rfl
    | cons line rest inductionHypothesis =>
      rw [List.foldl_cons, inductionHypothesis, each]
  have negotiated : (task.negotiated rtc sdp).sourceKeyframePending = task.sourceKeyframePending := by
    unfold Task.negotiated handleRenegotiation
    cases rtc.acceptOffer sdp with
    | none => rfl
    | some answer =>
      exact (learnt adoptNegotiated _ _ adoptNegotiated_asked).trans (learnt push _ _ fun _ _ => rfl)
  exact traced_keeps_state
    (fun after : Task => after.sourceKeyframePending = task.sourceKeyframePending) _
    (fun before source _ same => (before.flushSource_asked rtc source).trans same) _ negotiated

/-- No event of the connection notes a source. -/
theorem drainOutputs_asked (events : List RtcEvent) :
    (task.drainOutputs rtc events).1.sourceKeyframePending = task.sourceKeyframePending := by
  have drained : (drainEvents rtc task events).1.sourceKeyframePending = task.sourceKeyframePending := by
    refine traced_keeps_state
      (fun after : Task => after.sourceKeyframePending = task.sourceKeyframePending) _
      (fun before event _ same => ?_) _ rfl
    refine Eq.trans ?_ same
    cases event with
    | egressBitrateEstimate bps =>
      simp only [drainEvent]
      split <;> rfl
    | _ => rfl
  have listed : ∀ (lines : List (Mid × MediaKind)) (task : Task),
      (lines.foldl addMedia task).sourceKeyframePending = task.sourceKeyframePending := by
    intro lines
    induction lines with
    | nil => exact fun _ => rfl
    | cons line rest inductionHypothesis =>
      intro task
      rw [List.foldl_cons, inductionHypothesis]
      unfold addMedia
      split
      · rfl
      · exact adoptOwn_asked _ line
  have started : ∀ task : Task,
      (task.startMedia rtc).1.sourceKeyframePending = task.sourceKeyframePending := by
    intro task
    unfold startMedia
    split <;> rfl
  exact (started _).trans ((listed _ _).trans drained)

/-- A new task has no source to be asked again. -/
theorem start_unasked (pid : ParticipantId) (ownAudioPt ownVideoPt : Nat) (roomId : RoomId)
    (now : Nat) (answer : SdpAnswer) :
    (start pid ownAudioPt ownVideoPt roomId now answer).sourceKeyframePending = ∅ := by
  unfold start
  obtain ⟨lines, framed⟩ := foldl_listing_frame _ answer.mids
  rw [framed]

/-- A command notes the sources it finds a line for, and no others. -/
theorem handle_asked (cmd : PeerCmd) (source : ParticipantId) (since : Nat)
    (asked : (task.handle rtc cmd).1.sourceKeyframePending.lookup source = some since) :
    task.sourceKeyframePending.lookup source = some since ∨
      (source, since) ∈ MediaLoop.appearances rtc task (task.handle rtc cmd).1 cmd := by
  cases cmd with
  | media packet =>
    change (task.forward rtc packet).1.sourceKeyframePending.lookup source = some since at asked
    rw [forward_asked] at asked
    split at asked
    · next shows =>
      rw [Table.lookup_insert_eq] at asked
      split at asked
      · next own =>
        right
        have appeared : MediaLoop.appearances rtc task (task.handle rtc (.media packet)).1
            (.media packet) = [(packet.sourcePid, rtc.now)] := if_pos shows
        rw [appeared, own, Option.some.inj asked]
        exact List.mem_singleton_self _
      · exact .inl asked
    · exact .inl asked
  | renegotiationOffer sdp =>
    left
    change (task.renegotiate rtc sdp).1.sourceKeyframePending.lookup source = some since at asked
    rwa [renegotiate_asked] at asked
  | peerLeft left =>
    change (task.sourceKeyframePending.erase left).lookup source = some since at asked
    rw [Table.lookup_erase_eq] at asked
    split at asked
    · cases asked
    · exact .inl asked
  | udpPacket data address =>
    left
    simp only [handle] at asked
    split at asked <;> exact asked
  | peerMuteChanged pid muted => cases muted <;> exact .inl asked
  | screenShareActive active => cases active <;> exact .inl asked
  | iceCandidate | requestKeyframe | setMuted | sourceScreenStopped | peerCountChanged => exact .inl asked

end Asked

end Task

namespace MediaLoop

/-- What the timers keep, in a task that started at a moment. -/
structure Paced (started : Nat) (loop : MediaLoop) : Prop where
  counted : loop.bursts.length = loop.postConnectPliCount
  few : loop.postConnectPliCount ≤ pliBurstDelaysMs.length
  prompt : min pliBurstDelaysMs.length loop.latePasses ≤ loop.postConnectPliCount
  unconnected : loop.connectedAt = none → loop.postConnectPliCount = 0
  /-- The first request is made in the very pass that finds the task connected. -/
  begun : ∀ connected, loop.connectedAt = some connected → 0 < loop.postConnectPliCount
  delayed : ∀ connected, loop.connectedAt = some connected → ∀ index delay time : Nat,
    pliBurstDelaysMs[index]? = some delay → loop.bursts[index]? = some time →
      connected + delay * nanosPerMilli ≤ time
  since : started ≤ loop.lastPli
  spaced : loop.safetyNets.Pairwise fun earlier later => earlier + safetyNetPeriod ≤ later
  calm : ∀ time ∈ loop.safetyNets, started + safetyNetPeriod ≤ time ∧ time ≤ loop.lastPli
  noted : ∀ source since, loop.task.sourceKeyframePending.lookup source = some since →
    (source, since) ∈ loop.shown
  fresh : ∀ source time, (source, time) ∈ loop.retries →
    ∃ since, (source, since) ∈ loop.shown ∧ time < since + keyframeRetrySpan

section Pacing

variable (rtc : Rtc) {loop : MediaLoop} {started : Nat}

/-- Another task whose sources to be asked again have been seen. -/
theorem Paced.retask (paced : Paced started loop) (task : Task) (seen : List (ParticipantId × Nat))
    (noted : ∀ source since, task.sourceKeyframePending.lookup source = some since →
      (source, since) ∈ loop.shown ++ seen) :
    Paced started { loop with task := task, shown := loop.shown ++ seen } :=
  { paced with
    noted := noted
    fresh := fun source time retried => by
      obtain ⟨since, shown, young⟩ := paced.fresh source time retried
      exact ⟨since, List.mem_append_left _ shown, young⟩ }

/-- A pass that asks for no keyframes has been late only after the last of them. -/
theorem Paced.waits (paced : Paced started loop) (connectedAt late : Nat)
    (before : loop.connectedAt = some connectedAt)
    (due : late = loop.latePasses ∨
      late = loop.latePasses + 1 ∧ loop.postConnectPliCount = pliBurstDelaysMs.length) :
    Paced started { loop with connectedAt := some connectedAt, latePasses := late } :=
  { paced with
    prompt := by
      have prompt := paced.prompt
      change min _ late ≤ loop.postConnectPliCount
      omega
    unconnected := fun absent => by cases absent
    begun := fun _ _ => paced.begun connectedAt before
    delayed := fun connected same => by
      obtain rfl := Option.some.inj same
      exact paced.delayed connectedAt before }

/-- A pass that asks for the keyframes of a delay that is over. -/
theorem Paced.asks (paced : Paced started loop) (connectedAt late now delay : Nat)
    (next : pliBurstDelaysMs[loop.postConnectPliCount]? = some delay)
    (before : loop.connectedAt = none ∨ loop.connectedAt = some connectedAt)
    (reached : connectedAt + delay * nanosPerMilli ≤ now) (step : late ≤ loop.latePasses + 1) :
    Paced started { loop with
      connectedAt := some connectedAt
      latePasses := late
      postConnectPliCount := loop.postConnectPliCount + 1
      bursts := loop.bursts ++ [now] } :=
  { paced with
    counted := by
      change (loop.bursts ++ [now]).length = loop.postConnectPliCount + 1
      rw [List.length_append, paced.counted, List.length_singleton]
    few := (List.getElem?_eq_some_iff.mp next).1
    prompt := by
      have prompt := paced.prompt
      change min _ late ≤ loop.postConnectPliCount + 1
      omega
    unconnected := fun absent => by cases absent
    begun := fun _ _ => Nat.succ_pos _
    delayed := fun connected same index gap time listed asked => by
      obtain rfl := Option.some.inj same
      change (loop.bursts ++ [now])[index]? = some time at asked
      rcases Nat.lt_trichotomy index loop.bursts.length with earlier | rfl | beyond
      · rw [List.getElem?_append_left earlier] at asked
        rcases before with fresh | same
        · have none := paced.unconnected fresh
          rw [paced.counted] at earlier
          omega
        · exact paced.delayed connectedAt same index gap time listed asked
      · rw [List.getElem?_append_right (Nat.le_refl _), Nat.sub_self] at asked
        obtain rfl := Option.some.inj asked
        rw [paced.counted, next] at listed
        obtain rfl := Option.some.inj listed
        exact reached
      · rw [List.getElem?_eq_none (by rw [List.length_append, List.length_singleton]; omega)] at asked
        cases asked }

/-- Every delay of the burst is two seconds at most. -/
theorem pliBurstDelaysMs_le : ∀ delay ∈ pliBurstDelaysMs, delay ≤ 2000 := by decide

/-- Every delay of the burst but the first is positive. -/
theorem pliBurstDelaysMs_pos {index delay : Nat} (later : 0 < index)
    (listed : pliBurstDelaysMs[index]? = some delay) : 0 < delay := by
  obtain ⟨before, rfl⟩ := Nat.exists_eq_succ_of_ne_zero (Nat.ne_of_gt later)
  have tail : ∀ delay ∈ pliBurstDelaysMs.tail, 0 < delay := by decide
  exact tail delay (List.mem_of_getElem? listed)

/-- The pass after the events keeps the pace. -/
theorem Paced.burst (paced : Paced started loop) : Paced started (loop.burst rtc).1 := by
  unfold MediaLoop.burst
  split
  · extract_lets connectedAt elapsedMs connected
    have before : loop.connectedAt = none ∧ connectedAt = rtc.now ∨
        loop.connectedAt = some connectedAt := by
      cases stored : loop.connectedAt with
      | none => exact .inl ⟨rfl, by simp only [connectedAt, stored, Option.getD_none]⟩
      | some since => exact .inr (by simp only [connectedAt, stored, Option.getD_some])
    split
    · next delay next =>
      split
      · next reached =>
        refine paced.asks connectedAt _ rtc.now delay next (before.imp_left And.left) ?_ ?_
        · rcases before with ⟨fresh, same⟩ | _
          -- The first request: its delay is nothing.
          · rw [paced.unconnected fresh] at next
            obtain rfl := Option.some.inj next
            omega
          -- The later ones: some time has passed.
          · have some_time := pliBurstDelaysMs_pos (paced.begun connectedAt ‹_›) next
            have passed : delay * nanosPerMilli ≤ rtc.now - connectedAt :=
              (Nat.le_div_iff_mul_le (by decide)).mp reached
            have milli : 0 < nanosPerMilli := by decide
            have := Nat.mul_pos some_time milli
            omega
        · change (if 2000 ≤ elapsedMs then loop.latePasses + 1 else loop.latePasses) ≤ _
          split <;> omega
      · next early =>
        have waiting : loop.connectedAt = some connectedAt := by
          rcases before with ⟨fresh, _⟩ | same
          · rw [paced.unconnected fresh] at next
            obtain rfl := Option.some.inj next
            exact absurd (Nat.zero_le _) early
          · exact same
        refine paced.waits connectedAt _ waiting ?_
        split
        · next late =>
          exact absurd (Nat.le_trans (pliBurstDelaysMs_le _ (List.mem_of_getElem? next)) late) early
        · exact .inl rfl
    · next done =>
      have all : loop.postConnectPliCount = pliBurstDelaysMs.length :=
        Nat.le_antisymm paced.few (List.getElem?_eq_none_iff.mp done)
      have waiting : loop.connectedAt = some connectedAt := by
        rcases before with ⟨fresh, _⟩ | same
        · rw [paced.unconnected fresh] at all
          cases all
        · exact same
      refine paced.waits connectedAt _ waiting ?_
      split
      · exact .inr ⟨rfl, all⟩
      · exact .inl rfl
  · exact paced

/-- The safety net keeps the loop paced. -/
theorem Paced.safetyNet (paced : Paced started loop) : Paced started (loop.safetyNet rtc).1 := by
  unfold MediaLoop.safetyNet
  split
  · next due =>
    have overdue : safetyNetPeriod ≤ rtc.now - loop.lastPli :=
      of_decide_eq_true (Bool.and_eq_true_iff.mp due).2
    have period : 0 < safetyNetPeriod := by decide
    have since := paced.since
    exact { paced with
      since := by change started ≤ rtc.now; omega
      spaced := by
        refine List.pairwise_append.mpr ⟨paced.spaced, List.pairwise_singleton _ _, ?_⟩
        intro earlier among later last
        obtain rfl := List.mem_singleton.mp last
        have calm := (paced.calm earlier among).2
        omega
      calm := by
        intro time among
        change started + safetyNetPeriod ≤ time ∧ time ≤ rtc.now
        rcases List.mem_append.mp among with earlier | last
        · have calm := paced.calm time earlier
          omega
        · obtain rfl := List.mem_singleton.mp last
          omega }
  · exact paced

/-- A retry keeps the loop paced. -/
theorem Paced.retry (paced : Paced started loop) : Paced started (loop.retry rtc).1 :=
  { paced with
    noted := fun source since kept => by
      have kept : (loop.task.sourceKeyframePending.retain fun _ since =>
          rtc.now - since < keyframeRetrySpan).lookup source = some since := kept
      rw [Table.lookup_retain, Option.filter_eq_some_iff] at kept
      exact paced.noted source since kept.1
    fresh := fun source time retried => by
      rcases List.mem_append.mp retried with earlier | now
      · exact paced.fresh source time earlier
      · obtain ⟨asked, among, same⟩ := List.mem_map.mp now
        obtain ⟨rfl, rfl⟩ := Prod.mk.inj same
        obtain ⟨since, pending, young⟩ := (Option.any_eq_true _ _).mp
          (List.mem_filter.mp (List.mem_filter.mp among).1).2
        exact ⟨since, paced.noted _ since pending, by have := of_decide_eq_true young; omega⟩ }

/-- One turn keeps the pace. -/
theorem Paced.turn (paced : Paced started loop) (input : Rtc × LoopTurn) :
    Paced started (loop.turn input).1 := by
  obtain ⟨rtc, turn⟩ := input
  cases turn with
  | drained events =>
    have drained := paced.retask (loop.task.drainOutputs rtc events).1 [] (by
      rw [Task.drainOutputs_asked, List.append_nil]
      exact paced.noted)
    rw [List.append_nil] at drained
    exact drained.burst rtc
  | command cmd =>
    refine paced.retask (loop.task.handle rtc cmd).1 _ fun source since asked => ?_
    rcases Task.handle_asked rtc loop.task cmd source since asked with before | appeared
    · exact List.mem_append_left _ (paced.noted source since before)
    · exact List.mem_append_right _ appeared
  | idle => exact (paced.safetyNet rtc).retry rtc

end Pacing

/-- Over any run of a media task: a new connection is asked for keyframes at most five
times, each no earlier than its delay after the connection, and five times once five passes
were made two seconds after it; the safety net falls at least thirty seconds after the start
and after itself; and a source is asked in an idle pass only within three seconds of having
been found a line.

The invariant has when each timer last fired and when it is due again, and each pass of the
loop keeps it. -/
theorem timers_paced (pid : ParticipantId) (ownAudioPt ownVideoPt : Nat) (roomId : RoomId)
    (started : Nat) (answer : SdpAnswer) (inputs : List (Rtc × LoopTurn)) :
    let loop := ((start pid ownAudioPt ownVideoPt roomId started answer).run inputs).1
    loop.bursts.length ≤ pliBurstDelaysMs.length ∧
      min pliBurstDelaysMs.length loop.latePasses ≤ loop.bursts.length ∧
      (∀ index delay time : Nat, pliBurstDelaysMs[index]? = some delay →
        loop.bursts[index]? = some time →
          ∃ connected, loop.connectedAt = some connected ∧
            connected + delay * nanosPerMilli ≤ time) ∧
      (loop.safetyNets.Pairwise fun earlier later => earlier + safetyNetPeriod ≤ later) ∧
      (∀ time ∈ loop.safetyNets, started + safetyNetPeriod ≤ time) ∧
      ∀ source time, (source, time) ∈ loop.retries →
        ∃ since, (source, since) ∈ loop.shown ∧ time < since + keyframeRetrySpan := by
  intro loop
  have paced : Paced started loop := by
    refine traced_keeps_state (Paced started) inputs (fun _ input _ paced => paced.turn input) _ ?_
    exact {
      counted := rfl
      few := Nat.zero_le _
      prompt := Nat.min_le_right _ _
      unconnected := fun _ => rfl
      begun := fun _ absent => by cases absent
      delayed := fun _ absent => by cases absent
      since := Nat.le_refl _
      spaced := .nil
      calm := fun _ absent => by cases absent
      noted := fun source since absent => by
        change (Task.start pid ownAudioPt ownVideoPt roomId started
          answer).sourceKeyframePending.lookup source = some since at absent
        rw [Task.start_unasked] at absent
        cases absent
      fresh := fun _ _ absent => by cases absent }
  refine ⟨paced.counted ▸ paced.few, paced.counted ▸ paced.prompt, ?_, paced.spaced,
    fun time among => (paced.calm time among).1, paced.fresh⟩
  intro index delay time listed asked
  cases stored : loop.connectedAt with
  | none =>
    have silent : loop.bursts = [] :=
      List.eq_nil_of_length_eq_zero (paced.counted.trans (paced.unconnected stored))
    rw [silent] at asked
    cases asked
  | some connected =>
    exact ⟨connected, rfl, paced.delayed connected stored index delay time listed asked⟩

end MediaLoop

end Seameet
