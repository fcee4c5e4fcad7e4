import Seameet.Media.Task

/-!
# What one turn of a media task can do

The outcomes of forwarding a packet, with the guards of each, and the parts of
the state the other commands leave alone. Later laws about the task case on
these outcomes and never unfold the task's functions again.
-/

namespace Seameet

open Library

/-- The packet an output hands to the connection, if it does. -/
def Output.written : Output → Option RtpWrite
  | .rtp write => some write
  | _ => none

/-- The packets handed to the connection, in order. -/
def writes (outputs : List Output) : List RtpWrite := outputs.filterMap Output.written

/-- What two stretches write is what the first writes and then the second. -/
@[simp]
theorem writes_append (first second : List Output) :
    writes (first ++ second) = writes first ++ writes second :=
  List.filterMap_append

/-- Nothing writes nothing. -/
@[simp]
theorem writes_nil : writes [] = [] := rfl

/-- Whether an output neither hands a packet over nor drops one for want of a
stream. -/
def Output.inert : Output → Bool
  | .rtp _ | .rtpDropped _ => false
  | _ => true

/-- Outputs no sequence number was spent for. -/
def Inert (outputs : List Output) : Prop := ∀ output ∈ outputs, output.inert = true

/-- Nothing is inert. -/
theorem inert_nil : Inert [] := by simp [Inert]

/-- Inert outputs in a row are inert. -/
theorem Inert.append {first second : List Output} (earlier : Inert first) (later : Inert second) :
    Inert (first ++ second) :=
  List.forall_mem_append.mpr ⟨earlier, later⟩

/-- Inert outputs hand no packet over. -/
theorem Inert.writes {outputs : List Output} (inert : Inert outputs) : writes outputs = [] := by
  refine List.filterMap_eq_nil_iff.mpr fun output member => ?_
  have concerns := inert output member
  cases output <;> simp [Output.inert] at concerns <;> rfl

namespace Task

/-- What forwarding one packet can do. -/
inductive WriteOutcome (rtc : Rtc) (task : Task) (media : ForwardedMedia) :
    Task × List Output → Prop
  /-- The source has no slot and can have none. -/
  | refused (noSlot : (task.ensureSlot media.sourcePid media.isScreen).1 = none) :
      WriteOutcome rtc task media (task, [])
  /-- A screen packet of a source without screen line is dropped. -/
  | unlined (slot : SourceSlot) (slots : SourceSlots)
      (ensured : task.ensureSlot media.sourcePid media.isScreen = (some slot, slots))
      (missing : slot.line media.use = none) :
      WriteOutcome rtc task media ({ task with sourceSlots := slots }, [])
  /-- The packet takes the next number of its source's line. -/
  | sent (slot : SourceSlot) (slots : SourceSlots) (mid : Mid)
      (ensured : task.ensureSlot media.sourcePid media.isScreen = (some slot, slots))
      (lined : slot.line media.use = some mid) :
      WriteOutcome rtc task media
        ({ task with sourceSlots := slots.insert media.sourcePid (slot.advance media.use) },
          [if rtc.streamTx mid then
              .rtp { mid, pt := slot.pt media.use, seq := slot.txSeq media.use, packet := media }
            else
              .rtpDropped
                { mid, pt := slot.pt media.use, seq := slot.txSeq media.use, packet := media }])

/-- `writeForwardedRtp` does one of these three things. -/
theorem writeForwardedRtp_outcome (rtc : Rtc) (task : Task) (media : ForwardedMedia) :
    WriteOutcome rtc task media (task.writeForwardedRtp rtc media) := by
  unfold writeForwardedRtp
  cases ensured : task.ensureSlot media.sourcePid media.isScreen with
  | mk slot slots =>
    cases slot with
    | none => exact .refused (by rw [ensured])
    | some slot =>
      cases lined : slot.line media.use with
      | none => simpa [lined] using WriteOutcome.unlined slot slots ensured lined
      | some mid => simpa [lined] using (WriteOutcome.sent slot slots mid ensured lined : WriteOutcome rtc task media _)

/-- A write hands over at most the packet it was given. -/
theorem writeForwardedRtp_writes (rtc : Rtc) (task : Task) (media : ForwardedMedia) :
    (writes (task.writeForwardedRtp rtc media).2).map RtpWrite.packet = [] ∨
      (writes (task.writeForwardedRtp rtc media).2).map RtpWrite.packet = [media] := by
  have outcome := writeForwardedRtp_outcome rtc task media
  generalize task.writeForwardedRtp rtc media = result at outcome ⊢
  cases outcome with
  | refused => simp
  | unlined => simp
  | sent slot slots mid ensured lined =>
    cases rtc.streamTx mid <;> simp [writes, Output.written]

/-- Only the slot table changes when a packet is forwarded. -/
theorem writeForwardedRtp_frame (rtc : Rtc) (task : Task) (media : ForwardedMedia) :
    ∃ slots, (task.writeForwardedRtp rtc media).1 = { task with sourceSlots := slots } := by
  have outcome := writeForwardedRtp_outcome rtc task media
  generalize task.writeForwardedRtp rtc media = result at outcome ⊢
  cases outcome with
  | refused => exact ⟨task.sourceSlots, rfl⟩
  | unlined slot slots => exact ⟨slots, rfl⟩
  | sent slot slots mid => exact ⟨_, rfl⟩

/-- Keyframe requests are inert. -/
theorem requestOwn_inert (rtc : Rtc) (mid : Option Mid) : Inert (requestOwn rtc mid) := by
  cases mid with
  | none => exact inert_nil
  | some mid =>
    unfold requestOwn
    split <;> simp [Inert, Output.inert]

/-- Asking everybody for a key frame is inert. -/
theorem requestAllKeyframes_inert (rtc : Rtc) (task : Task) :
    Inert (task.requestAllKeyframes rtc) := by
  intro output member
  obtain ⟨peer, _, rfl⟩ := List.mem_map.mp member
  rfl

/-- Asking a peer for a key frame is inert. -/
theorem requestKeyframe_inert (rtc : Rtc) (peer : ParticipantId) :
    Inert (requestKeyframe rtc peer) := by
  unfold requestKeyframe
  split <;> simp [Inert, Output.inert]

/-- Asking the own line for a key frame writes no media. -/
@[simp]
theorem requestOwn_writes (rtc : Rtc) (mid : Option Mid) : writes (requestOwn rtc mid) = [] :=
  (requestOwn_inert rtc mid).writes

/-- Asking everybody for a key frame writes no media. -/
@[simp]
theorem requestAllKeyframes_writes (rtc : Rtc) (task : Task) :
    writes (task.requestAllKeyframes rtc) = [] :=
  (task.requestAllKeyframes_inert rtc).writes

/-- Asking a peer for a key frame writes no media. -/
@[simp]
theorem requestKeyframe_writes (rtc : Rtc) (peer : ParticipantId) :
    writes (requestKeyframe rtc peer) = [] :=
  (requestKeyframe_inert rtc peer).writes

section Announcement

variable (rtc : Rtc) (task : Task) (source : ParticipantId) (createdNew gainedScreenMid : Bool)

/-- Announcing a source only notes when its keyframe was asked for. -/
theorem announceSource_frame :
    ∃ pending, (task.announceSource rtc source createdNew gainedScreenMid).1 =
      { task with sourceKeyframePending := pending } := by
  unfold announceSource
  split
  · exact ⟨_, rfl⟩
  · exact ⟨task.sourceKeyframePending, rfl⟩

/-- Announcing a source is inert. -/
theorem announceSource_inert :
    Inert (task.announceSource rtc source createdNew gainedScreenMid).2 := by
  unfold announceSource
  split
  · refine (requestKeyframe_inert rtc source).append ?_
    cases (task.sourceSlots.lookup source).bind SourceSlot.screenMid with
    | none => exact inert_nil
    | some mid => cases gainedScreenMid <;> simp [Inert, Output.inert]
  · exact inert_nil

/-- Announcing a source writes no media. -/
@[simp]
theorem announceSource_writes :
    writes (task.announceSource rtc source createdNew gainedScreenMid).2 = [] :=
  (task.announceSource_inert rtc source createdNew gainedScreenMid).writes

end Announcement

/-- What a `Media` command can do. -/
inductive ForwardOutcome (rtc : Rtc) (task : Task) (media : ForwardedMedia) :
    Task × List Output → Prop
  /-- Audio of a muted peer is skipped. -/
  | muted (audio : media.isAudio = true) (silenced : media.sourcePid ∈ task.mutedPeers) :
      ForwardOutcome rtc task media (task, [])
  /-- The source can have no slot yet: its packet waits. -/
  | parked (heard : (media.isAudio && media.sourcePid ∈ task.mutedPeers) = false)
      (absent : task.sourceSlots.lookup media.sourcePid = none)
      (noSlot : (task.ensureSlot media.sourcePid media.isScreen).1 = none) :
      ForwardOutcome rtc task media (task.park media, [])
  /-- The source has a slot. -/
  | live (heard : (media.isAudio && media.sourcePid ∈ task.mutedPeers) = false)
      (slot : SourceSlot) (stored : task.sourceSlots.lookup media.sourcePid = some slot)
      (gained : Bool) :
      ForwardOutcome rtc task media
        (((task.writeForwardedRtp rtc media).1.announceSource rtc media.sourcePid false gained).1,
          (task.writeForwardedRtp rtc media).2 ++
            ((task.writeForwardedRtp rtc media).1.announceSource rtc media.sourcePid
              false gained).2)
  /-- The source's slot is created, then the packet is forwarded. -/
  | opened (heard : (media.isAudio && media.sourcePid ∈ task.mutedPeers) = false)
      (slot : SourceSlot) (slots : SourceSlots) (opening : Task)
      (absent : task.sourceSlots.lookup media.sourcePid = none)
      (ensured : task.ensureSlot media.sourcePid media.isScreen = (some slot, slots))
      (changed : opening = { task with sourceSlots := slots })
      (stored : slots.lookup media.sourcePid = some slot) (gained : Bool) :
      ForwardOutcome rtc task media
        (((opening.writeForwardedRtp rtc media).1.announceSource rtc media.sourcePid
            true gained).1,
          (opening.writeForwardedRtp rtc media).2 ++
            ((opening.writeForwardedRtp rtc media).1.announceSource rtc media.sourcePid
              true gained).2)

/-- The slot table an ensured slot is in, and that the result is its slot. -/
theorem ensureSlot_stored {task : Task} {source : ParticipantId} {mediaIsScreen : Bool}
    {slot : SourceSlot} {slots : SourceSlots}
    (ensured : task.ensureSlot source mediaIsScreen = (some slot, slots)) :
    slots.lookup source = some slot := by
  have outcome := getOrCreateSlot_outcome source task.sourceSlots task.lines task.ownAudioPt
    task.ownVideoPt task.midSeqWatermark mediaIsScreen
  have same : getOrCreateSlot source task.sourceSlots task.lines task.ownAudioPt task.ownVideoPt
    task.midSeqWatermark mediaIsScreen = (some slot, slots) := ensured
  rw [same] at outcome
  cases outcome with
  | kept => simp
  | gainedScreen => simp
  | created => simp

/-- A refused slot leaves the table as it was, and only an absent source is
refused. -/
theorem ensureSlot_refused {task : Task} {source : ParticipantId} {mediaIsScreen : Bool}
    (noSlot : (task.ensureSlot source mediaIsScreen).1 = none) :
    task.ensureSlot source mediaIsScreen = (none, task.sourceSlots) ∧
      task.sourceSlots.lookup source = none := by
  have outcome := getOrCreateSlot_outcome source task.sourceSlots task.lines task.ownAudioPt
    task.ownVideoPt task.midSeqWatermark mediaIsScreen
  change SlotOutcome _ _ _ _ _ _ _ (task.ensureSlot source mediaIsScreen) at outcome
  generalize ensured : task.ensureSlot source mediaIsScreen = result at outcome noSlot
  cases outcome with
  | kept => simp at noSlot
  | gainedScreen => simp at noSlot
  | created => simp at noSlot
  | refused absent => exact ⟨rfl, absent⟩

/-- `forward` does one of these four things. -/
theorem forward_outcome (rtc : Rtc) (task : Task) (media : ForwardedMedia) :
    ForwardOutcome rtc task media (task.forward rtc media) := by
  unfold forward
  by_cases skipped : (media.isAudio && media.sourcePid ∈ task.mutedPeers) = true
  · rw [if_pos skipped]
    simp only [Bool.and_eq_true, decide_eq_true_eq] at skipped
    exact .muted skipped.1 skipped.2
  · rw [if_neg skipped]
    have heard := Bool.eq_false_iff.mpr skipped
    cases stored : task.sourceSlots.lookup media.sourcePid with
    | some slot =>
      simpa [stored] using (ForwardOutcome.live heard slot stored _ : ForwardOutcome rtc task media _)
    | none =>
      cases ensured : task.ensureSlot media.sourcePid media.isScreen with
      | mk slot slots =>
        cases slot with
        | none =>
          have noSlot : (task.ensureSlot media.sourcePid media.isScreen).1 = none := by rw [ensured]
          have same : slots = task.sourceSlots := by
            have refused := (ensureSlot_refused noSlot).1
            rw [ensured] at refused
            exact (Prod.mk.inj refused).2
          subst same
          simpa [stored] using (ForwardOutcome.parked heard stored noSlot : ForwardOutcome rtc task media _)
        | some slot =>
          have present := ensureSlot_stored ensured
          simpa [stored, present] using
            (ForwardOutcome.opened heard slot slots _ stored ensured rfl present _ :
              ForwardOutcome rtc task media _)

/-- The reply to a renegotiation is inert. -/
theorem handleRenegotiation_inert (rtc : Rtc) (task : Task) (sdp : String) :
    Inert [(task.handleRenegotiation rtc sdp).2.2] := by
  unfold handleRenegotiation
  cases rtc.acceptOffer sdp <;> simp [Inert, Output.inert]

/-- The answer to a renegotiation is no media. -/
@[simp]
theorem handleRenegotiation_reply (rtc : Rtc) (task : Task) (sdp : String) :
    writes [(task.handleRenegotiation rtc sdp).2.2] = [] :=
  (task.handleRenegotiation_inert rtc sdp).writes

/-- A renegotiation hands over exactly what its flush hands over. -/
theorem renegotiate_writes (rtc : Rtc) (task : Task) (sdp : String) :
    writes (task.renegotiate rtc sdp).2 =
      writes (flush rtc (task.negotiated rtc sdp)
        (rtc.arrange (task.negotiated rtc sdp).pendingMedia.keys)).2 := by
  simp only [renegotiate, writes_append, handleRenegotiation_reply, requestOwn_writes,
    requestAllKeyframes_writes, List.nil_append, List.append_nil]

/-- A changed peer count is inert. -/
theorem peerCountChanged_inert (rtc : Rtc) (task : Task) (count : Nat) :
    Inert (task.peerCountChanged rtc count).2 := by
  refine Inert.append ?_ ?_
  · split <;> simp [Inert, Output.inert]
  · split
    · exact (requestOwn_inert rtc _).append (requestOwn_inert rtc _)
    · exact inert_nil

/-- A drained event is inert. -/
theorem drainEvent_inert (rtc : Rtc) (task : Task) (event : RtcEvent) :
    Inert (task.drainEvent rtc event).2 := by
  cases event with
  | rtpPacket packet =>
    simp only [drainEvent, receivePacket]
    split <;> simp [Inert, Output.inert]
  | egressBitrateEstimate bps =>
    simp only [drainEvent]
    split <;> simp [Inert, Output.inert]
  | keyframeRequest => exact task.requestAllKeyframes_inert rtc
  | _ => exact inert_nil

/-- A drained event moves no line and hands nothing over. -/
theorem drainEvent_quiet (rtc : Rtc) (task : Task) (event : RtcEvent) :
    (task.drainEvent rtc event).1.lines = task.lines ∧
      (task.drainEvent rtc event).1.sourceSlots = task.sourceSlots ∧
      (task.drainEvent rtc event).1.midSeqWatermark = task.midSeqWatermark ∧
      (task.drainEvent rtc event).1.pendingMedia = task.pendingMedia ∧
      writes (task.drainEvent rtc event).2 = [] := by
  have silent := (task.drainEvent_inert rtc event).writes
  cases event with
  | egressBitrateEstimate bps =>
    revert silent
    simp only [drainEvent]
    split <;> exact fun silent => ⟨rfl, rfl, rfl, rfl, silent⟩
  | _ => exact ⟨rfl, rfl, rfl, rfl, silent⟩

/-- Draining any events is inert. -/
theorem drainEvents_inert (rtc : Rtc) (task : Task) (events : List RtcEvent) :
    Inert (drainEvents rtc task events).2 :=
  traced_keeps (fun (_ : Task) (past : List Output) => Inert past) events
    (fun now _ event _ earlier => earlier.append (now.drainEvent_inert rtc event)) task []
    inert_nil

/-- Draining any events moves no line and hands nothing over. -/
theorem drainEvents_quiet (rtc : Rtc) (task : Task) (events : List RtcEvent) :
    (drainEvents rtc task events).1.lines = task.lines ∧
      (drainEvents rtc task events).1.sourceSlots = task.sourceSlots ∧
      (drainEvents rtc task events).1.midSeqWatermark = task.midSeqWatermark ∧
      (drainEvents rtc task events).1.pendingMedia = task.pendingMedia ∧
      writes (drainEvents rtc task events).2 = [] := by
  have kept := traced_keeps (fun (now : Task) (past : List Output) =>
      now.lines = task.lines ∧ now.sourceSlots = task.sourceSlots ∧
        now.midSeqWatermark = task.midSeqWatermark ∧ now.pendingMedia = task.pendingMedia ∧
        writes past = []) events
    (fun now past event _ ⟨lines, slots, watermarks, pending, silent⟩ => by
      obtain ⟨sameLines, sameSlots, sameWatermarks, samePending, quiet⟩ :=
        now.drainEvent_quiet rtc event
      exact ⟨sameLines.trans lines, sameSlots.trans slots, sameWatermarks.trans watermarks,
        samePending.trans pending, by rw [writes_append, silent, quiet]; rfl⟩)
    task [] ⟨rfl, rfl, rfl, rfl, rfl⟩
  exact kept

/-- The commands that concern neither the lines nor the packets on them. -/
def idle : PeerCmd → Bool
  | .media _ | .renegotiationOffer _ | .screenShareActive _ | .peerLeft _ |
    .sourceScreenStopped _ => false
  | _ => true

/-- An idle command is inert. -/
theorem handle_inert (rtc : Rtc) (task : Task) (cmd : PeerCmd) (unconcerned : idle cmd = true) :
    Inert (task.handle rtc cmd).2 := by
  cases cmd with
  | udpPacket data source =>
    simp only [handle]
    split <;> simp [Inert, Output.inert]
  | peerMuteChanged pid muted => cases muted <;> exact inert_nil
  | requestKeyframe => exact (requestOwn_inert rtc _).append (requestOwn_inert rtc _)
  | peerCountChanged count => exact task.peerCountChanged_inert rtc count
  | iceCandidate candidate => exact inert_nil
  | setMuted muted => exact inert_nil
  | _ => simp [idle] at unconcerned

/-- An idle command moves no line and hands nothing over. -/
theorem handle_idle (rtc : Rtc) (task : Task) (cmd : PeerCmd) (unconcerned : idle cmd = true) :
    (task.handle rtc cmd).1.lines = task.lines ∧
      (task.handle rtc cmd).1.sourceSlots = task.sourceSlots ∧
      (task.handle rtc cmd).1.midSeqWatermark = task.midSeqWatermark ∧
      (task.handle rtc cmd).1.pendingMedia = task.pendingMedia ∧
      writes (task.handle rtc cmd).2 = [] := by
  have silent := (task.handle_inert rtc cmd unconcerned).writes
  cases cmd with
  | udpPacket data source =>
    revert silent
    simp only [handle]
    split <;> exact fun silent => ⟨rfl, rfl, rfl, rfl, silent⟩
  | peerMuteChanged pid muted => cases muted <;> exact ⟨rfl, rfl, rfl, rfl, silent⟩
  | requestKeyframe | peerCountChanged | iceCandidate | setMuted =>
    exact ⟨rfl, rfl, rfl, rfl, silent⟩
  | _ => simp [idle] at unconcerned

/-- Starting to forward is inert. -/
theorem startMedia_inert (rtc : Rtc) (task : Task) : Inert (task.startMedia rtc).2 := by
  unfold startMedia
  split
  · exact (requestOwn_inert rtc _).append (task.requestAllKeyframes_inert rtc)
  · exact inert_nil

/-- Starting to forward only sets the flag and asks for keyframes. -/
theorem startMedia_quiet (rtc : Rtc) (task : Task) :
    ∃ started, (task.startMedia rtc).1 = { task with mediaStarted := started } ∧
      writes (task.startMedia rtc).2 = [] := by
  have silent := (task.startMedia_inert rtc).writes
  revert silent
  unfold startMedia
  split
  · exact fun silent => ⟨true, rfl, silent⟩
  · exact fun silent => ⟨task.mediaStarted, rfl, silent⟩

/-- The drain part of the loop is inert. -/
theorem drainOutputs_inert (rtc : Rtc) (task : Task) (events : List RtcEvent) :
    Inert (task.drainOutputs rtc events).2 :=
  (task.drainEvents_inert rtc events).append (startMedia_inert rtc _)

section EachWrite

variable (condition : Task → List Output → ForwardedMedia → Prop)

/-- The condition holds before every packet that flushing a source forwards. -/
def OnFlushed (rtc : Rtc) (task : Task) (past : List Output) (source : ParticipantId) : Prop :=
  match task.pendingMedia.lookup source with
  | none => True
  | some buffered =>
      Along (writeForwardedRtp rtc) condition
        { task with pendingMedia := task.pendingMedia.erase source } past
        (buffered.filter fun media => !isPendingMediaStale media.wallclock rtc.now)

/-- The condition holds before every packet a turn forwards. A `Media` command
asks for the slot twice, to create it and to forward; a renegotiation forwards
what was buffered. -/
def OnEachWrite (task : Task) (past : List Output) (input : Rtc × Turn) : Prop :=
  match input.2 with
  | .command (.media packet) =>
      (packet.isAudio && packet.sourcePid ∈ task.mutedPeers) = false →
        condition task past packet ∧
          condition { task with
            sourceSlots := (task.ensureSlot packet.sourcePid packet.isScreen).2 } past packet
  | .command (.renegotiationOffer sdp) =>
      Along (flushSource input.1) (OnFlushed condition input.1) (task.negotiated input.1 sdp) past
        (input.1.arrange (task.negotiated input.1 sdp).pendingMedia.keys)
  | _ => True

instance [∀ task past media, Decidable (condition task past media)] (rtc : Rtc) (task : Task)
    (past : List Output) (source : ParticipantId) :
    Decidable (OnFlushed condition rtc task past source) := by
  unfold OnFlushed
  split <;> infer_instance

instance [∀ task past media, Decidable (condition task past media)] (task : Task)
    (past : List Output) (input : Rtc × Turn) :
    Decidable (OnEachWrite condition task past input) := by
  unfold OnEachWrite
  split <;> infer_instance

variable {condition}

/-- A condition that always holds does so during every flush. -/
theorem OnFlushed.of_forall (met : ∀ task past media, condition task past media) (rtc : Rtc)
    (task : Task) (past : List Output) (sources : List ParticipantId) :
    Along (flushSource rtc) (OnFlushed condition rtc) task past sources := by
  refine Along.of_forall sources (fun task past source _ => ?_) task past
  unfold OnFlushed
  cases task.pendingMedia.lookup source with
  | none => trivial
  | some buffered => exact Along.of_forall _ (fun task past media _ => met task past media) _ _

/-- A law that survives dropping a buffer and inert outputs, and that forwarding a packet under the condition keeps, is kept by a flush. What
the law knows of all waiting packets is known of the forwarded ones. -/
theorem flush_keeps {rtc : Rtc} {task : Task} {past : List Output} {sources : List ParticipantId}
    (along : Along (flushSource rtc) (OnFlushed condition rtc) task past sources)
    (law : Task → List Output → Prop) (known : ForwardedMedia → Prop)
    (waiting : ∀ task past source buffered, law task past →
      task.pendingMedia.lookup source = some buffered → ∀ media ∈ buffered, known media)
    (dropped : ∀ task past source, law task past →
      law { task with pendingMedia := task.pendingMedia.erase source } past)
    (silent : ∀ task past outputs, Inert outputs → law task past → law task (past ++ outputs))
    (written : ∀ task past media, law task past → condition task past media → known media →
      law (task.writeForwardedRtp rtc media).1 (past ++ (task.writeForwardedRtp rtc media).2))
    (initial : law task past) :
    law (flush rtc task sources).1 (past ++ (flush rtc task sources).2) := by
  refine along.keeps law ?_ initial
  intro task past source standing flushed
  unfold OnFlushed at flushed
  unfold flushSource
  cases buffer : task.pendingMedia.lookup source with
  | none => simpa using standing
  | some buffered =>
    rw [buffer] at flushed
    have ready := flushed.imp_mem fun task past media member met =>
      (⟨met, waiting _ _ source buffered standing buffer media (List.mem_filter.mp member).1⟩ :
        condition task past media ∧ known media)
    have forwarded := ready.keeps law
      (fun task past media standing both => written task past media standing both.1 both.2)
      (dropped task past source standing)
    rw [← List.append_assoc]
    refine silent _ _ _ ?_ forwarded
    split
    · exact requestKeyframe_inert rtc source
    · exact inert_nil

end EachWrite

end Task

end Seameet
