import Seameet.Media.Order

/-!
# What a task keeps of a source

A media task keeps things of a participant whose packets it takes: a slot, a
screen line, waiting packets. A hold is one of these things together with the
packets that bring it about. A task comes to a hold only by taking such a packet;
whatever else it does, drain its connection, forward what waits of others, learn
new lines, it comes to no hold it did not have.

The locals no command but its own concerns, and the kinds of output each part of
the loop can have, are listed first.
-/

namespace Seameet

open Library

/-- Neither a text, nor a route, nor a packet for others. -/
def Output.plain : Output → Bool
  | .ws _ | .route _ | .fanOut _ => false
  | _ => true

namespace Task

section Outputs

variable (rtc : Rtc) (task : Task)

/-- Asking a peer for a key frame is plain. -/
theorem requestKeyframe_plain (peer : ParticipantId) :
    ∀ output ∈ requestKeyframe rtc peer, output.plain = true := by
  unfold requestKeyframe
  split <;> simp [Output.plain]

/-- Asking the own line for a key frame is plain. -/
theorem requestOwn_plain (mid : Option Mid) :
    ∀ output ∈ requestOwn rtc mid, output.plain = true := by
  cases mid with
  | none => simp [requestOwn]
  | some mid =>
    simp only [requestOwn]
    split <;> simp [Output.plain]

/-- Asking everybody for a key frame is plain. -/
theorem requestAllKeyframes_plain :
    ∀ output ∈ task.requestAllKeyframes rtc, output.plain = true := by
  intro output member
  obtain ⟨peer, _, rfl⟩ := List.mem_map.mp member
  rfl

/-- Writing forwarded media is plain. -/
theorem writeForwardedRtp_plain (media : ForwardedMedia) :
    ∀ output ∈ (task.writeForwardedRtp rtc media).2, output.plain = true := by
  have outcome := task.writeForwardedRtp_outcome rtc media
  generalize task.writeForwardedRtp rtc media = result at outcome ⊢
  cases outcome with
  | refused => simp
  | unlined => simp
  | sent slot slots mid ensured lined =>
    cases rtc.streamTx mid <;> simp [Output.plain]

/-- Forwarding what waits hands packets on and asks for keyframes, and changes only
the slots and what waits. -/
theorem flush_frame (sources : List ParticipantId) :
    (∃ slots pending, (flush rtc task sources).1 =
        { task with sourceSlots := slots, pendingMedia := pending }) ∧
      ∀ output ∈ (flush rtc task sources).2, output.plain = true := by
  have written : ∀ (packets : List ForwardedMedia) (task : Task),
      (∃ slots, (writeAll rtc task packets).1 = { task with sourceSlots := slots }) ∧
        ∀ output ∈ (writeAll rtc task packets).2, output.plain = true := by
    intro packets
    induction packets with
    | nil => exact fun task => ⟨⟨task.sourceSlots, rfl⟩, by simp [writeAll, traced]⟩
    | cons media rest inductionHypothesis =>
      intro task
      obtain ⟨first, framed⟩ := task.writeForwardedRtp_frame rtc media
      obtain ⟨⟨slots, same⟩, plain⟩ := inductionHypothesis (task.writeForwardedRtp rtc media).1
      refine ⟨⟨slots, ?_⟩, ?_⟩
      · change (writeAll rtc (task.writeForwardedRtp rtc media).1 rest).1 = _
        rw [same, framed]
      · intro output member
        rcases List.mem_append.mp member with now | later
        · exact task.writeForwardedRtp_plain rtc media output now
        · exact plain output later
  induction sources generalizing task with
  | nil => exact ⟨⟨task.sourceSlots, task.pendingMedia, rfl⟩, by simp [flush, traced]⟩
  | cons source rest inductionHypothesis =>
    have here : (∃ slots pending, (flushSource rtc task source).1 =
          { task with sourceSlots := slots, pendingMedia := pending }) ∧
        ∀ output ∈ (flushSource rtc task source).2, output.plain = true := by
      unfold flushSource
      cases task.pendingMedia.lookup source with
      | none => exact ⟨⟨task.sourceSlots, task.pendingMedia, rfl⟩, by simp⟩
      | some buffered =>
        obtain ⟨⟨slots, same⟩, plain⟩ := written
          (buffered.filter fun media => !isPendingMediaStale media.wallclock rtc.now)
          { task with pendingMedia := task.pendingMedia.erase source }
        refine ⟨⟨slots, _, same⟩, ?_⟩
        intro output member
        rcases List.mem_append.mp member with handed | keyframe
        · exact plain output handed
        · split at keyframe
          · exact requestKeyframe_plain rtc source output keyframe
          · simp at keyframe
    obtain ⟨⟨first, left, framed⟩, early⟩ := here
    obtain ⟨⟨slots, pending, same⟩, late⟩ := inductionHypothesis (flushSource rtc task source).1
    refine ⟨⟨slots, pending, ?_⟩, ?_⟩
    · change (flush rtc (flushSource rtc task source).1 rest).1 = _
      rw [same, framed]
    · intro output member
      rcases List.mem_append.mp member with now | later
      · exact early output now
      · exact late output later

/-- A renegotiation has plain outputs, and keeps who the task is and whether it is
muted. -/
theorem renegotiate_frame (sdp : String) :
    (task.renegotiate rtc sdp).1.pid = task.pid ∧
      (task.renegotiate rtc sdp).1.muted = task.muted ∧
      (task.renegotiate rtc sdp).1.lastRemotePeerCount = task.lastRemotePeerCount ∧
      ∀ output ∈ (task.renegotiate rtc sdp).2, output.plain = true := by
  obtain ⟨lines, learning, learned, _⟩ := task.negotiated_frame rtc sdp
  obtain ⟨⟨slots, pending, flushed⟩, plain⟩ := flush_frame rtc (task.negotiated rtc sdp)
    (rtc.arrange (task.negotiated rtc sdp).pendingMedia.keys)
  have same : (task.renegotiate rtc sdp).1 =
      { task.negotiated rtc sdp with sourceSlots := slots, pendingMedia := pending } := flushed
  refine ⟨by rw [same, learned], by rw [same, learned], by rw [same, learned], ?_⟩
  intro output member
  simp only [renegotiate, List.mem_append, List.mem_singleton] at member
  rcases member with ((rfl | handed) | own) | others
  · unfold handleRenegotiation
    cases rtc.acceptOffer sdp <;> rfl
  · exact plain output handed
  · exact requestOwn_plain rtc _ output own
  · exact requestAllKeyframes_plain rtc _ output others

/-- What is announced of a source: its screen line, if it has one. -/
theorem announceSource_outputs (source : ParticipantId) (createdNew gainedScreenMid : Bool)
    (output : Output)
    (member : output ∈ (task.announceSource rtc source createdNew gainedScreenMid).2) :
    output.plain = true ∨ ∃ mid, (task.sourceSlots.lookup source).bind SourceSlot.screenMid = some mid ∧
      output = .ws (.serialised (.screenShareRouted source mid.name task.roomId)) := by
  unfold announceSource at member
  split at member
  · rcases List.mem_append.mp member with keyframe | routed
    · exact .inl (requestKeyframe_plain rtc source output keyframe)
    · split at routed
      · rename_i mid lined
        split at routed
        · exact .inr ⟨mid, lined, List.mem_singleton.mp routed⟩
        · simp at routed
      · simp at routed
  · simp at member

/-- What a `Media` command puts out: plain outputs, and the line its source's
screen has afterwards. -/
theorem forward_outputs (media : ForwardedMedia) (output : Output)
    (member : output ∈ (task.forward rtc media).2) :
    output.plain = true ∨ ∃ mid,
      ((task.forward rtc media).1.sourceSlots.lookup media.sourcePid).bind SourceSlot.screenMid =
          some mid ∧
        output = .ws (.serialised (.screenShareRouted media.sourcePid mid.name task.roomId)) := by
  have announced : ∀ (opening : Task) (createdNew gained : Bool), opening.roomId = task.roomId →
      output ∈ (opening.writeForwardedRtp rtc media).2 ++
          ((opening.writeForwardedRtp rtc media).1.announceSource rtc media.sourcePid createdNew
            gained).2 →
        output.plain = true ∨ ∃ mid,
          (((opening.writeForwardedRtp rtc media).1.announceSource rtc media.sourcePid createdNew
            gained).1.sourceSlots.lookup media.sourcePid).bind SourceSlot.screenMid = some mid ∧
          output = .ws (.serialised (.screenShareRouted media.sourcePid mid.name task.roomId)) := by
    intro opening createdNew gained room member
    rcases List.mem_append.mp member with written | announcement
    · exact .inl (opening.writeForwardedRtp_plain rtc media output written)
    · obtain ⟨pending, framed⟩ := (opening.writeForwardedRtp rtc media).1.announceSource_frame rtc
        media.sourcePid createdNew gained
      obtain ⟨slots, same⟩ := opening.writeForwardedRtp_frame rtc media
      rcases announceSource_outputs rtc _ media.sourcePid createdNew gained output announcement with
        plain | ⟨mid, lined, routed⟩
      · exact .inl plain
      · refine .inr ⟨mid, ?_, ?_⟩
        · rw [framed]
          exact lined
        · rw [routed, same, room]
  have outcome := task.forward_outcome rtc media
  generalize task.forward rtc media = result at outcome member ⊢
  cases outcome with
  | muted => simp at member
  | parked => simp at member
  | live heard slot stored gained => exact announced task false gained rfl member
  | opened heard slot slots opening absent ensured changed stored gained =>
    exact announced opening true gained (by rw [changed]) member

/-- Forwarding a packet keeps who the task is, whether it is muted, and its count of
peers. -/
theorem forward_frame (media : ForwardedMedia) :
    (task.forward rtc media).1.pid = task.pid ∧ (task.forward rtc media).1.muted = task.muted ∧
      (task.forward rtc media).1.lastRemotePeerCount = task.lastRemotePeerCount := by
  have announced : ∀ (opening : Task) (createdNew gained : Bool), opening.pid = task.pid →
      opening.muted = task.muted → opening.lastRemotePeerCount = task.lastRemotePeerCount →
      let after := ((opening.writeForwardedRtp rtc media).1.announceSource rtc media.sourcePid
        createdNew gained).1
      after.pid = task.pid ∧ after.muted = task.muted ∧
        after.lastRemotePeerCount = task.lastRemotePeerCount := by
    intro opening createdNew gained samePid sameMuted sameCount
    obtain ⟨pending, framed⟩ := (opening.writeForwardedRtp rtc media).1.announceSource_frame rtc
      media.sourcePid createdNew gained
    obtain ⟨slots, same⟩ := opening.writeForwardedRtp_frame rtc media
    rw [framed, same]
    exact ⟨samePid, sameMuted, sameCount⟩
  have outcome := task.forward_outcome rtc media
  generalize task.forward rtc media = result at outcome ⊢
  cases outcome with
  | muted => exact ⟨rfl, rfl, rfl⟩
  | parked =>
    unfold park
    simp only
    split <;> exact ⟨rfl, rfl, rfl⟩
  | live heard slot stored gained => exact announced task false gained rfl rfl rfl
  | opened heard slot slots opening absent ensured changed stored gained =>
    exact announced opening true gained (by rw [changed]) (by rw [changed]) (by rw [changed])

/-- A command keeps who the task is, only `SetMuted` mutes it and only
`PeerCountChanged` changes its count of peers. -/
theorem handle_frame (cmd : PeerCmd) :
    (task.handle rtc cmd).1.pid = task.pid ∧
      (task.handle rtc cmd).1.muted =
        (match cmd with
        | .setMuted muted => muted
        | _ => task.muted) ∧
      (task.handle rtc cmd).1.lastRemotePeerCount =
        match cmd with
        | .peerCountChanged remotePeerCount => remotePeerCount
        | _ => task.lastRemotePeerCount := by
  cases cmd with
  | udpPacket data source =>
    simp only [handle]
    split <;> exact ⟨rfl, rfl, rfl⟩
  | media packet => exact task.forward_frame rtc packet
  | renegotiationOffer sdp =>
    obtain ⟨pid, muted, count, _⟩ := task.renegotiate_frame rtc sdp
    exact ⟨pid, muted, count⟩
  | screenShareActive active => cases active <;> exact ⟨rfl, rfl, rfl⟩
  | peerMuteChanged pid muted => cases muted <;> exact ⟨rfl, rfl, rfl⟩
  | iceCandidate | requestKeyframe | setMuted | peerCountChanged | peerLeft | sourceScreenStopped =>
    exact ⟨rfl, rfl, rfl⟩

/-- What a command puts out: plain outputs, a text, or the route a datagram of the
task's own connection establishes. -/
theorem handle_outputs (cmd : PeerCmd) (output : Output)
    (member : output ∈ (task.handle rtc cmd).2) :
    output.plain = true ∨
      (∃ data source, cmd = .udpPacket data source ∧ output = .route source ∧
        rtc.receives data = true ∧ task.iceConnected = true ∧ task.routeRegistered = false) ∨
      (∃ packet mid, cmd = .media packet ∧
        ((task.handle rtc cmd).1.sourceSlots.lookup packet.sourcePid).bind SourceSlot.screenMid =
            some mid ∧
        output = .ws (.serialised (.screenShareRouted packet.sourcePid mid.name task.roomId))) ∨
      ∃ deficit, output = .ws (.serialised (.requestRenegotiation task.roomId deficit)) := by
  cases cmd with
  | udpPacket data source =>
    simp only [handle] at member
    split at member
    · rename_i established
      simp only [Bool.and_eq_true, Bool.not_eq_true'] at established
      exact .inr (.inl ⟨data, source, rfl, List.mem_singleton.mp member, established.1.1,
        established.1.2, established.2⟩)
    · simp at member
  | media packet =>
    rcases task.forward_outputs rtc packet output member with plain | ⟨mid, lined, routed⟩
    · exact .inl plain
    · exact .inr (.inr (.inl ⟨packet, mid, rfl, lined, routed⟩))
  | requestKeyframe =>
    rcases List.mem_append.mp member with camera | screen
    · exact .inl (requestOwn_plain rtc _ output camera)
    · exact .inl (requestOwn_plain rtc _ output screen)
  | renegotiationOffer sdp => exact .inl ((task.renegotiate_frame rtc sdp).2.2.2 output member)
  | peerCountChanged count =>
    rcases List.mem_append.mp member with request | keyframes
    · split at request
      · exact .inr (.inr (.inr ⟨_, List.mem_singleton.mp request⟩))
      · simp at request
    · split at keyframes
      · rcases List.mem_append.mp keyframes with camera | screen
        · exact .inl (requestOwn_plain rtc _ output camera)
        · exact .inl (requestOwn_plain rtc _ output screen)
      · simp at keyframes
  | peerMuteChanged pid muted => cases muted <;> simp [handle] at member
  | iceCandidate | screenShareActive | setMuted | peerLeft | sourceScreenStopped =>
    simp [handle] at member

end Outputs

section Drain

variable (rtc : Rtc) (task : Task)

/-- A drained event keeps everything that decides what becomes of a packet. -/
structure SameHearing (before after : Task) : Prop where
  pid : after.pid = before.pid
  ownAudioPt : after.ownAudioPt = before.ownAudioPt
  muted : after.muted = before.muted
  lines : after.lines = before.lines

/-- Tasks of the same hearing make the same of a packet. -/
theorem SameHearing.receivePacket {before after : Task} (same : SameHearing before after)
    (packet : RtpPacket) : after.receivePacket rtc packet = before.receivePacket rtc packet := by
  simp only [Task.receivePacket, same.pid, same.ownAudioPt, same.muted, same.lines]

/-- An event of the media library changes nothing of what is heard. -/
theorem drainEvent_hearing (event : RtcEvent) :
    SameHearing task (task.drainEvent rtc event).1 := by
  cases event with
  | egressBitrateEstimate bps =>
    simp only [drainEvent]
    split <;> exact ⟨rfl, rfl, rfl, rfl⟩
  | _ => exact ⟨rfl, rfl, rfl, rfl⟩

/-- A drain keeps who the task is, whether it is muted, and its count of peers. -/
theorem drainOutputs_frame (events : List RtcEvent) :
    (task.drainOutputs rtc events).1.pid = task.pid ∧
      (task.drainOutputs rtc events).1.muted = task.muted ∧
      (task.drainOutputs rtc events).1.lastRemotePeerCount = task.lastRemotePeerCount := by
  have drained := @traced_keeps_state _ _ _ (drainEvent rtc)
    (fun now => now.pid = task.pid ∧ now.muted = task.muted ∧
      now.lastRemotePeerCount = task.lastRemotePeerCount) events
    (fun now event _ same => by
      cases event with
      | egressBitrateEstimate bps =>
        simp only [drainEvent]
        split <;> exact same
      | _ => exact same)
    task ⟨rfl, rfl, rfl⟩
  obtain ⟨listed, added, _⟩ := (drainEvents rtc task events).1.foldl_addMedia_frame
    (addedMedia events)
  obtain ⟨started, framed, _⟩ := ((addedMedia events).foldl addMedia
    (drainEvents rtc task events).1).startMedia_quiet rtc
  have after : (task.drainOutputs rtc events).1 =
      { (drainEvents rtc task events).1 with lines := listed, mediaStarted := started } := by
    simp only [drainOutputs]
    rw [framed, added]
  rw [after]
  exact drained

/-- What a drain puts out: plain outputs, an estimate, or what the task as it is
makes of a received packet. -/
theorem drainOutputs_outputs (events : List RtcEvent) (output : Output)
    (member : output ∈ (task.drainOutputs rtc events).2) :
    output.plain = true ∨ (∃ bps, output = .ws (.bweUpdate bps)) ∨
      ∃ packet, RtcEvent.rtpPacket packet ∈ events ∧ output ∈ task.receivePacket rtc packet := by
  rcases List.mem_append.mp member with drained | started
  · have kept := @traced_keeps _ _ _ (drainEvent rtc) (fun now past =>
        SameHearing task now ∧ ∀ output ∈ past, output.plain = true ∨
          (∃ bps, output = .ws (.bweUpdate bps)) ∨
          ∃ packet, RtcEvent.rtpPacket packet ∈ events ∧ output ∈ task.receivePacket rtc packet)
      events ?_ task [] ⟨⟨rfl, rfl, rfl, rfl⟩, by simp⟩
    · exact kept.2 output drained
    · intro now past event listed ⟨same, earlier⟩
      have next := now.drainEvent_hearing rtc event
      refine ⟨⟨next.pid.trans same.pid, next.ownAudioPt.trans same.ownAudioPt,
        next.muted.trans same.muted, next.lines.trans same.lines⟩, ?_⟩
      intro output member
      rcases List.mem_append.mp member with past | now'
      · exact earlier output past
      · cases event with
        | rtpPacket packet =>
          exact .inr (.inr ⟨packet, listed, same.receivePacket rtc packet ▸ now'⟩)
        | egressBitrateEstimate bps =>
          simp only [drainEvent] at now'
          split at now'
          · exact .inr (.inl ⟨bps, List.mem_singleton.mp now'⟩)
          · simp at now'
        | keyframeRequest => exact .inl (requestAllKeyframes_plain rtc now output now')
        | connected | iceRestarted | mediaAdded => simp [drainEvent] at now'
  · unfold startMedia at started
    split at started
    · rcases List.mem_append.mp started with own | others
      · exact .inl (requestOwn_plain rtc _ output own)
      · exact .inl (requestAllKeyframes_plain rtc _ output others)
    · simp at started

/-- A packet handed to the others is the task's own participant's, and audio only
when the task is not muted. -/
theorem receivePacket_fanOut (packet : RtpPacket) (media : ForwardedMedia)
    (member : Output.fanOut media ∈ task.receivePacket rtc packet) :
    media.sourcePid = task.pid ∧ (media.isAudio = true → task.muted = false) := by
  simp only [receivePacket] at member
  split at member
  · simp at member
  · rename_i heard
    cases List.mem_singleton.mp member
    refine ⟨rfl, fun audio => ?_⟩
    have own : (packet.payloadType == task.ownAudioPt) = true := audio
    simpa [own] using heard

end Drain

/-- A task starts for the participant it is named after, not muted, and counts no
peers. -/
theorem start_frame (pid : ParticipantId) (ownAudioPt ownVideoPt : Nat) (roomId : RoomId)
    (now : Nat) (answer : SdpAnswer) :
    (start pid ownAudioPt ownVideoPt roomId now answer).pid = pid ∧
      (start pid ownAudioPt ownVideoPt roomId now answer).muted = false ∧
      (start pid ownAudioPt ownVideoPt roomId now answer).lastRemotePeerCount = 0 := by
  have listing : ∀ (added : List (Mid × MediaKind)) (task : Task),
      let after := added.foldl (fun task line => (task.push line).adoptOwn line) task
      after.pid = task.pid ∧ after.muted = task.muted ∧
        after.lastRemotePeerCount = task.lastRemotePeerCount := by
    intro added
    induction added with
    | nil => exact fun task => ⟨rfl, rfl, rfl⟩
    | cons line rest inductionHypothesis =>
      intro task
      obtain ⟨lines, adopted, _⟩ := (task.push line).adoptOwn_outcome line
      rw [List.foldl_cons, adopted]
      exact inductionHypothesis _
  exact listing answer.mids _

section Own

variable (rtc : Rtc) (task : Task)

/-- Commands keep every waiting packet with its own source. -/
theorem handle_own (own : task.ParkedOwn) (cmd : PeerCmd) :
    (task.handle rtc cmd).1.ParkedOwn := by
  have kept : ∀ after : Task,
      (∀ other, after.parked other = task.parked other ∨ after.parked other = []) →
        after.ParkedOwn := by
    intro after fewer other media member
    rcases fewer other with same | gone
    · exact own other media (same ▸ member)
    · simp [gone] at member
  by_cases unconcerned : idle cmd = true
  · obtain ⟨_, _, _, buffers, _⟩ := task.handle_idle rtc cmd unconcerned
    exact kept _ fun other => .inl (congrArg (fun table => (table.lookup other).getD []) buffers)
  · cases cmd with
    | media packet => exact task.forward_own rtc own packet
    | renegotiationOffer sdp =>
      exact kept _ fun other => .inr ((task.renegotiate_order rtc own sdp).1 other)
    | screenShareActive active => cases active <;> exact kept _ fun _ => .inl rfl
    | peerLeft left =>
      refine kept _ fun other => ?_
      by_cases here : other = left
      · subst here
        exact .inr (by simp [handle, Task.peerLeft, parked])
      · exact .inl (by simp [handle, Task.peerLeft, parked, here])
    | sourceScreenStopped stopped => exact kept _ fun _ => .inl rfl
    | _ => simp [idle] at unconcerned

end Own

end Task

/-- Something a task may keep of a source: what shows it in the source's slot or
among its waiting packets, and which packets bring it about. -/
structure Hold where
  source : ParticipantId
  makes : ForwardedMedia → Bool
  shows : Option SourceSlot → Bool
  waits : Option (List ForwardedMedia) → Bool
  own : ∀ media, makes media = true → media.sourcePid = source
  shows_none : shows none = false
  waits_none : waits none = false
  /-- A number spent changes nothing. -/
  shows_advance : ∀ slot use, shows (some (SourceSlot.advance slot use)) = shows (some slot)
  /-- A screen line taken away adds nothing. -/
  shows_unscreened : ∀ slot : SourceSlot, shows (some slot) = false →
    shows (some { slot with screenMid := none }) = false
  /-- Asking for the source's slot on behalf of any other packet of it adds nothing. -/
  shows_ensured : ∀ (task : Task) (media : ForwardedMedia), makes media = false →
    media.sourcePid = source → shows (task.sourceSlots.lookup source) = false →
      shows ((task.ensureSlot source media.isScreen).2.lookup source) = false
  /-- No packet that brings it about waits unseen. -/
  waits_made : ∀ buffered, waits (some buffered) = false → ∀ media ∈ buffered, makes media = false
  /-- Any other packet of the source may wait. -/
  waits_parked : ∀ buffered media, makes media = false → media.sourcePid = source →
    waits buffered = false → waits (some (buffered.getD [] ++ [media])) = false

namespace Hold

variable (hold : Hold)

/-- A slot, or waiting packets. -/
def anything (source : ParticipantId) : Hold where
  source
  makes media := decide (media.sourcePid = source)
  shows := Option.isSome
  waits := Option.isSome
  own _ made := of_decide_eq_true made
  shows_none := rfl
  waits_none := rfl
  shows_advance _ _ := rfl
  shows_unscreened _ := id
  shows_ensured _ _ other same := absurd same (of_decide_eq_false other)
  waits_made _ none := Bool.noConfusion none
  waits_parked _ _ other same := absurd same (of_decide_eq_false other)

/-- Whether a slot has a screen line. -/
def hasScreen (slot : Option SourceSlot) : Bool := (slot.bind SourceSlot.screenMid).isSome

/-- Asking for a slot for a packet that is no screen packet gives it no screen line. -/
theorem ensureSlot_hasScreen (task : Task) (source : ParticipantId)
    (bare : hasScreen (task.sourceSlots.lookup source) = false) :
    hasScreen ((task.ensureSlot source false).2.lookup source) = false := by
  have outcome := getOrCreateSlot_outcome source task.sourceSlots task.lines task.ownAudioPt
    task.ownVideoPt task.midSeqWatermark false
  change SlotOutcome _ _ _ _ _ _ _ (task.ensureSlot source false) at outcome
  generalize task.ensureSlot source false = result at outcome ⊢
  cases outcome with
  | kept slot stored settled => simpa [stored] using bare
  | gainedScreen slot line stored screen => simp at screen
  | created => simp [hasScreen]
  | refused => exact bare

/-- A screen line, or a waiting screen packet. -/
def screen (source : ParticipantId) : Hold where
  source
  makes media := decide (media.sourcePid = source) && media.isScreen
  shows := hasScreen
  waits buffered := (buffered.getD []).any fun media =>
    decide (media.sourcePid = source) && media.isScreen
  own _ made := of_decide_eq_true (Bool.and_eq_true_iff.mp made).1
  shows_none := rfl
  waits_none := rfl
  shows_advance _ use := by cases use <;> rfl
  shows_unscreened _ _ := rfl
  shows_ensured task media other same bare := by
    have camera : media.isScreen = false := by simpa [same] using other
    rw [camera]
    exact ensureSlot_hasScreen task source bare
  waits_made buffered none media member := by
    simpa using List.any_eq_false.mp none media member
  waits_parked buffered media other same none := by
    simpa [List.any_append, other] using none

/-- Whether a task has it. -/
def on (task : Task) : Bool :=
  hold.shows (task.sourceSlots.lookup hold.source) || hold.waits (task.pendingMedia.lookup hold.source)

variable {hold} {task : Task} (rtc : Rtc)

/-- A hold is off exactly where the source neither shows a slot nor waits with media. -/
theorem on_eq_false : hold.on task = false ↔
    hold.shows (task.sourceSlots.lookup hold.source) = false ∧
      hold.waits (task.pendingMedia.lookup hold.source) = false :=
  Bool.or_eq_false_iff

/-- Asking for any source's slot on behalf of another packet adds nothing. -/
theorem ensure (media : ForwardedMedia) (other : hold.makes media = false)
    (none : hold.shows (task.sourceSlots.lookup hold.source) = false) :
    hold.shows ((task.ensureSlot media.sourcePid media.isScreen).2.lookup hold.source) = false := by
  by_cases here : media.sourcePid = hold.source
  · rw [here]
    exact hold.shows_ensured task media other here none
  · have outcome := getOrCreateSlot_outcome media.sourcePid task.sourceSlots task.lines
      task.ownAudioPt task.ownVideoPt task.midSeqWatermark media.isScreen
    change SlotOutcome _ _ _ _ _ _ _ (task.ensureSlot media.sourcePid media.isScreen) at outcome
    generalize task.ensureSlot media.sourcePid media.isScreen = result at outcome ⊢
    cases outcome with
    | refused => exact none
    | _ =>
      simp only [Table.lookup_insert_eq]
      rwa [if_neg (Ne.symm here)]

/-- Forwarding another packet adds nothing. -/
theorem write (media : ForwardedMedia) (other : hold.makes media = false)
    (none : hold.on task = false) : hold.on (task.writeForwardedRtp rtc media).1 = false := by
  obtain ⟨slotless, waitless⟩ := on_eq_false.mp none
  have ensured := hold.ensure media other slotless
  have outcome := task.writeForwardedRtp_outcome rtc media
  generalize task.writeForwardedRtp rtc media = result at outcome ⊢
  cases outcome with
  | refused => exact none
  | unlined slot slots stored missing =>
    rw [stored] at ensured
    exact on_eq_false.mpr ⟨ensured, waitless⟩
  | sent slot slots mid stored lined =>
    have present := Task.ensureSlot_stored stored
    rw [stored] at ensured
    refine on_eq_false.mpr ⟨?_, waitless⟩
    simp only [Table.lookup_insert_eq]
    split
    · rename_i here
      rw [hold.shows_advance, ← present, ← here]
      exact ensured
    · exact ensured

/-- Forwarding other packets in order adds nothing. -/
theorem writeAll (packets : List ForwardedMedia)
    (others : ∀ media ∈ packets, hold.makes media = false) (none : hold.on task = false) :
    hold.on (Task.writeAll rtc task packets).1 = false := by
  refine traced_keeps_state (fun now => hold.on now = false) packets ?_ task none
  exact fun now media member quiet => write rtc media (others media member) quiet

/-- Flushing any source adds nothing: what waits of the hold's own source brings
nothing about, and what waits of another is another's. -/
theorem flushSource (waiting : task.ParkedOwn) (source : ParticipantId)
    (none : hold.on task = false) : hold.on (Task.flushSource rtc task source).1 = false := by
  obtain ⟨slotless, waitless⟩ := on_eq_false.mp none
  unfold Task.flushSource
  cases buffer : task.pendingMedia.lookup source with
  | none => exact none
  | some buffered =>
    refine writeAll rtc _ ?_ (on_eq_false.mpr ⟨slotless, ?_⟩)
    · intro media member
      have listed := (List.mem_filter.mp member).1
      by_cases here : source = hold.source
      · rw [← here, buffer] at waitless
        exact hold.waits_made buffered waitless media listed
      · have theirs := waiting source media (by simpa [Task.parked, buffer] using listed)
        refine Bool.eq_false_iff.mpr fun made => here ?_
        rw [← theirs, hold.own media made]
    · simp only [Table.lookup_erase_eq]
      split
      · exact hold.waits_none
      · exact waitless

/-- Flushing sources in order adds nothing. -/
theorem flush (waiting : task.ParkedOwn) (sources : List ParticipantId)
    (none : hold.on task = false) : hold.on (Task.flush rtc task sources).1 = false := by
  refine (traced_keeps_state (fun now => now.ParkedOwn ∧ hold.on now = false) sources ?_ task
    ⟨waiting, none⟩).2
  rintro now source _ ⟨own, quiet⟩
  refine ⟨?_, flushSource rtc own source quiet⟩
  intro other media member
  rw [(now.flushSource_order rtc own source).1] at member
  split at member
  · simp at member
  · exact own other media member

/-- A renegotiation adds nothing. -/
theorem renegotiate (waiting : task.ParkedOwn) (sdp : String) (none : hold.on task = false) :
    hold.on (task.renegotiate rtc sdp).1 = false := by
  obtain ⟨lines, pending, framed, _⟩ := task.negotiated_frame rtc sdp
  have own : (task.negotiated rtc sdp).ParkedOwn := by
    rw [framed]
    exact waiting
  have quiet : hold.on (task.negotiated rtc sdp) = false := by
    rw [framed]
    exact none
  exact flush rtc own _ quiet

/-- Letting another packet wait adds nothing. -/
theorem park (media : ForwardedMedia) (other : hold.makes media = false)
    (none : hold.on task = false) : hold.on (task.park media) = false := by
  obtain ⟨slotless, waitless⟩ := on_eq_false.mp none
  unfold Task.park
  simp only
  split
  · refine on_eq_false.mpr ⟨slotless, ?_⟩
    simp only [Table.lookup_insert_eq]
    split
    · rename_i here
      rw [← here]
      exact hold.waits_parked _ media other here.symm waitless
    · exact waitless
  · exact none

/-- A `Media` command with another packet adds nothing. -/
theorem forward (media : ForwardedMedia) (other : hold.makes media = false)
    (none : hold.on task = false) : hold.on (task.forward rtc media).1 = false := by
  have announced : ∀ (opening : Task) (createdNew gained : Bool), hold.on opening = false →
      hold.on ((opening.writeForwardedRtp rtc media).1.announceSource rtc media.sourcePid createdNew
        gained).1 = false := by
    intro opening createdNew gained quiet
    obtain ⟨pending, framed⟩ := (opening.writeForwardedRtp rtc media).1.announceSource_frame rtc
      media.sourcePid createdNew gained
    rw [framed]
    exact write rtc media other quiet
  obtain ⟨slotless, waitless⟩ := on_eq_false.mp none
  have ensured := hold.ensure media other slotless
  have outcome := task.forward_outcome rtc media
  generalize task.forward rtc media = result at outcome ⊢
  cases outcome with
  | muted => exact none
  | parked => exact park media other none
  | live heard slot stored gained => exact announced task false gained none
  | opened heard slot slots opening absent opens changed stored gained =>
    refine announced opening true gained ?_
    rw [opens] at ensured
    rw [changed]
    exact on_eq_false.mpr ⟨ensured, waitless⟩

/-- A task comes to a hold by a packet that brings it about and by nothing else. -/
theorem handle (waiting : task.ParkedOwn) (cmd : PeerCmd)
    (other : ∀ media, cmd = .media media → hold.makes media = false)
    (none : hold.on task = false) : hold.on (task.handle rtc cmd).1 = false := by
  obtain ⟨slotless, waitless⟩ := on_eq_false.mp none
  by_cases unconcerned : Task.idle cmd = true
  · obtain ⟨_, slots, _, buffers, _⟩ := task.handle_idle rtc cmd unconcerned
    unfold on
    rw [slots, buffers]
    exact none
  · cases cmd with
    | media packet => exact forward rtc packet (other packet rfl) none
    | renegotiationOffer sdp => exact renegotiate rtc waiting sdp none
    | screenShareActive active => cases active <;> exact none
    | peerLeft left =>
      refine on_eq_false.mpr ?_
      simp only [Task.handle, Task.peerLeft, Table.lookup_erase_eq]
      split
      · exact ⟨hold.shows_none, hold.waits_none⟩
      · exact ⟨slotless, waitless⟩
    | sourceScreenStopped stopped =>
      refine on_eq_false.mpr ⟨?_, waitless⟩
      simp only [Task.handle, Task.sourceScreenStopped, Table.lookup_modify]
      split
      · rename_i here
        cases stored : task.sourceSlots.lookup stopped with
        | none => exact hold.shows_none
        | some slot =>
          rw [here, stored] at slotless
          exact hold.shows_unscreened slot slotless
      · exact slotless
    | _ => simp [Task.idle] at unconcerned

/-- A drain leaves holds as they are. -/
theorem drainOutputs (events : List RtcEvent) :
    hold.on (task.drainOutputs rtc events).1 = hold.on task := by
  obtain ⟨slots, _, buffers, _, _⟩ := task.drainOutputs_quiet rtc events
  unfold on
  rw [slots, buffers]

/-- A task starts without holds. -/
theorem start (pid : ParticipantId) (ownAudioPt ownVideoPt : Nat) (roomId : RoomId) (now : Nat)
    (answer : SdpAnswer) :
    hold.on (Task.start pid ownAudioPt ownVideoPt roomId now answer) = false := by
  obtain ⟨slots, buffers⟩ := Task.start_fresh pid ownAudioPt ownVideoPt roomId now answer
  refine on_eq_false.mpr ?_
  rw [slots, buffers]
  exact ⟨hold.shows_none, hold.waits_none⟩

/-- A departure ends every hold on the one who left. -/
theorem peerLeft : hold.on (task.peerLeft hold.source) = false := by
  refine on_eq_false.mpr ?_
  simp only [Task.peerLeft, AList.lookup_erase]
  exact ⟨hold.shows_none, hold.waits_none⟩

/-- A stop ends the hold on a screen line, unless screen packets wait. -/
theorem screenStopped (source : ParticipantId)
    (waitless : (task.parked source).any (screen source).makes = false) :
    (screen source).on (task.sourceScreenStopped source) = false := by
  refine on_eq_false.mpr ⟨?_, waitless⟩
  simp only [Task.sourceScreenStopped, Table.lookup_modify]
  have own : (screen source).source = source := rfl
  rw [if_pos own]
  cases task.sourceSlots.lookup source <;> rfl

end Hold

end Seameet
