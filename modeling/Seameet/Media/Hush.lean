import Seameet.Media.Waiting

/-!
# The silence of a muted peer

A receiver keeps the set of peers it was told are muted. A packet taken from the
queue is checked against the set before anything else happens to it. A packet
that waited is not: a renegotiation forwards what waits, audio included, whatever
became of its source since it was parked.

So the receiver is silent about a muted peer exactly as long as no offer is
processed while fresh audio of that peer waits that the flush has a line and a
stream for.
-/

namespace Seameet

open Library

/-- The audio packets of a peer handed to the connection, in order. -/
def audioOf (peer : ParticipantId) (outputs : List Output) : List ForwardedMedia :=
  (forwardedOf peer outputs).filter ForwardedMedia.isAudio

/-- The audio written over two stretches is that of the first and then of the second. -/
@[simp]
theorem audioOf_append (peer : ParticipantId) (first second : List Output) :
    audioOf peer (first ++ second) = audioOf peer first ++ audioOf peer second := by
  simp [audioOf]

/-- Where nothing is written no audio is. -/
theorem audioOf_quiet (peer : ParticipantId) {outputs : List Output} (silent : writes outputs = []) :
    audioOf peer outputs = [] := by
  rw [audioOf, forwardedOf_quiet peer silent, List.filter_nil]

namespace Task

/-- Whether a turn ends the mute of a peer. -/
def Turn.lifts (peer : ParticipantId) : Turn → Bool
  | .command (.peerMuteChanged pid muted) => pid = peer && !muted
  | .command (.peerLeft pid) => pid = peer
  | _ => false

/-- The audio line a source has, or would be given now. -/
def audioLine (task : Task) (source : ParticipantId) : Option Mid :=
  (task.ensureSlot source false).1.map SourceSlot.audioMid

/-- Whether an audio packet of the source would be handed over now: its line has
a stream. -/
def audible (rtc : Rtc) (task : Task) (source : ParticipantId) : Bool :=
  (task.audioLine source).any rtc.streamTx

/-- An offer finds no fresh audio of the peer waiting, or finds no line with a
stream for it when the flush comes to the peer. -/
def Hushed (peer : ParticipantId) (task : Task) (_ : List Output) (input : Rtc × Turn) : Prop :=
  match input.2 with
  | .command (.renegotiationOffer sdp) =>
      audible input.1 (task.atFlush input.1 sdp peer) peer = true →
        ∀ media ∈ task.freshParked input.1 peer, media.isAudio = false
  | _ => True

instance (peer : ParticipantId) (task : Task) (past : List Output) (input : Rtc × Turn) :
    Decidable (Hushed peer task past input) := by
  obtain ⟨rtc, taken⟩ := input
  cases taken with
  | drained events => exact isTrue trivial
  | command cmd =>
    cases cmd with
    | renegotiationOffer sdp =>
      exact inferInstanceAs (Decidable (_ → ∀ media ∈ task.freshParked rtc peer, _))
    | _ => exact isTrue trivial

variable (rtc : Rtc) (task : Task)

/-- Which packet asks for the slot does not matter to the audio line. -/
theorem audioLine_ensure (source : ParticipantId) (mediaIsScreen : Bool) :
    (task.ensureSlot source mediaIsScreen).1.map SourceSlot.audioMid = task.audioLine source := by
  unfold audioLine ensureSlot getOrCreateSlot
  cases stored : task.sourceSlots.lookup source with
  | none =>
    cases task.lines.freeAudio task.sourceSlots with
    | none => rfl
    | some audioLine => cases task.lines.freeVideo task.sourceSlots <;> rfl
  | some slot =>
    have same : ∀ screen, (updateScreen task.sourceSlots task.lines screen slot).audioMid =
        slot.audioMid := by
      intro screen
      unfold updateScreen
      split
      · split <;> rfl
      · rfl
    simp [same]

/-- A stored slot gives its own audio line. -/
theorem audioLine_stored {source : ParticipantId} {slot : SourceSlot}
    (stored : task.sourceSlots.lookup source = some slot) :
    task.audioLine source = some slot.audioMid := by
  simp [audioLine, ensureSlot, getOrCreateSlot, stored, updateScreen]

/-- Forwarding a packet keeps its source's audio line, and hands the packet over
as audio exactly when it is audio and the line has a stream. -/
theorem writeForwardedRtp_audio (media : ForwardedMedia) :
    (task.writeForwardedRtp rtc media).1.audioLine media.sourcePid =
        task.audioLine media.sourcePid ∧
      audioOf media.sourcePid (task.writeForwardedRtp rtc media).2 =
        if media.isAudio && audible rtc task media.sourcePid then [media] else [] := by
  have line := task.audioLine_ensure media.sourcePid media.isScreen
  have outcome := task.writeForwardedRtp_outcome rtc media
  generalize task.writeForwardedRtp rtc media = result at outcome ⊢
  cases outcome with
  | refused noSlot =>
    rw [noSlot, Option.map_none] at line
    simp [audible, ← line, audioOf, forwardedOf, packetsOf]
  | unlined slot slots ensured missing =>
    rw [ensured, Option.map_some] at line
    have silent : media.isAudio = false := by
      cases audio : media.isAudio with
      | false => rfl
      | true => simp [ForwardedMedia.use, audio, SourceSlot.line] at missing
    refine ⟨?_, by simp [silent, audioOf, forwardedOf, packetsOf]⟩
    rw [← line]
    exact audioLine_stored _ (ensureSlot_stored ensured)
  | sent slot slots mid ensured lined =>
    rw [ensured, Option.map_some] at line
    refine ⟨?_, ?_⟩
    · rw [← line, audioLine_stored _ (AList.lookup_insert _)]
      cases media.use <;> rfl
    · simp only [audible, ← line, Option.any_some]
      cases audio : media.isAudio with
      | false =>
        cases rtc.streamTx mid <;>
          simp [audioOf, forwardedOf, packetsOf, writes, Output.written, audio]
      | true =>
        have own : mid = slot.audioMid := by
          simpa [ForwardedMedia.use, audio, SourceSlot.line, eq_comm] using lined
        subst own
        cases rtc.streamTx slot.audioMid <;>
          simp [audioOf, forwardedOf, packetsOf, writes, Output.written, audio]

/-- Forwarding packets of one source in order hands over the audio packets among
them, if its audio line has a stream, and none if not. -/
theorem writeAll_audio (source : ParticipantId) (packets : List ForwardedMedia)
    (own : ∀ media ∈ packets, media.sourcePid = source) :
    audioOf source (writeAll rtc task packets).2 =
      packets.filter fun media => media.isAudio && audible rtc task source := by
  induction packets generalizing task with
  | nil => rfl
  | cons media rest inductionHypothesis =>
    obtain rfl := own media List.mem_cons_self
    obtain ⟨line, first⟩ := task.writeForwardedRtp_audio rtc media
    have still : audible rtc (task.writeForwardedRtp rtc media).1 media.sourcePid =
        audible rtc task media.sourcePid := by
      rw [audible, line, audible]
    have later := inductionHypothesis (task.writeForwardedRtp rtc media).1
      fun following member => own following (List.mem_cons_of_mem media member)
    change audioOf media.sourcePid ((task.writeForwardedRtp rtc media).2 ++
      (writeAll rtc (task.writeForwardedRtp rtc media).1 rest).2) = _
    rw [audioOf_append, first, later, still, List.filter_cons]
    split <;> simp

/-- Flushing a source hands over its fresh waiting audio packets, if its audio
line has a stream. -/
theorem flushSource_audio {task : Task} (own : task.ParkedOwn) (source : ParticipantId) :
    audioOf source (flushSource rtc task source).2 =
      (task.freshParked rtc source).filter fun media =>
        media.isAudio && audible rtc task source := by
  unfold flushSource
  cases buffer : task.pendingMedia.lookup source with
  | none => simp [freshParked, parked, buffer, audioOf_quiet source writes_nil]
  | some buffered =>
    have quiet : ∀ asks : Bool, audioOf source
        (if asks then requestKeyframe rtc source else []) = [] := by
      intro asks
      refine audioOf_quiet source ?_
      cases asks
      · rfl
      · exact requestKeyframe_writes rtc source
    have fresh : task.freshParked rtc source =
        buffered.filter fun media => !isPendingMediaStale media.wallclock rtc.now := by
      rw [freshParked, parked, buffer]
      rfl
    rw [audioOf_append, quiet, List.append_nil, fresh]
    refine writeAll_audio rtc { task with pendingMedia := task.pendingMedia.erase source } source _ ?_
    intro media member
    exact own source media (by simpa [parked, buffer] using (List.mem_filter.mp member).1)

/-- A renegotiation hands over no audio of a peer exactly when it finds the peer
hushed. -/
theorem renegotiate_audio {task : Task} (own : task.ParkedOwn) (sdp : String)
    (peer : ParticipantId) :
    audioOf peer (task.renegotiate rtc sdp).2 = [] ↔
      (audible rtc (task.atFlush rtc sdp peer) peer = true →
        ∀ media ∈ task.freshParked rtc peer, media.isAudio = false) := by
  obtain ⟨ownThere, fresh, _, _, handed, _⟩ := task.renegotiate_source rtc own sdp peer
  rw [audioOf, handed, ← audioOf, flushSource_audio rtc ownThere peer, fresh,
    List.filter_eq_nil_iff]
  simp only [Bool.and_eq_true, not_and, Bool.not_eq_true]
  constructor
  · intro silent heard media member
    by_contra audio
    simp [silent media member (by simpa using audio)] at heard
  · intro hushed media member audio
    by_contra heard
    rw [hushed (by simpa using heard) media member] at audio
    exact absurd audio (by simp)

/-- A `Media` command hands over no audio of a muted peer. -/
theorem forward_audio (media : ForwardedMedia) {peer : ParticipantId}
    (muted : peer ∈ task.mutedPeers) : audioOf peer (task.forward rtc media).2 = [] := by
  by_cases audio : media.sourcePid = peer ∧ media.isAudio = true
  · obtain ⟨rfl, sound⟩ := audio
    have skipped : task.forward rtc media = (task, []) := by simp [forward, sound, muted]
    rw [skipped]
    exact audioOf_quiet _ rfl
  · have sent : ∀ (origin : Task) (createdNew gained : Bool), audioOf peer
        ((origin.writeForwardedRtp rtc media).2 ++
          ((origin.writeForwardedRtp rtc media).1.announceSource rtc media.sourcePid createdNew
            gained).2) = [] := by
      intro origin createdNew gained
      rw [audioOf_append, audioOf_quiet peer (announceSource_writes ..), List.append_nil]
      obtain ⟨_, _, handed⟩ := origin.writeForwardedRtp_order rtc media
      rw [audioOf, List.filter_eq_nil_iff]
      intro written member
      have packet := (handed peer).mem member
      simp only [packetsOf, List.mem_filter, List.mem_singleton, decide_eq_true_eq] at packet
      obtain ⟨rfl, own⟩ := packet
      exact fun sound => audio ⟨own, sound⟩
    have outcome := task.forward_outcome rtc media
    generalize task.forward rtc media = result at outcome ⊢
    cases outcome with
    | muted audio silenced => exact audioOf_quiet peer rfl
    | parked heard absent noSlot => exact audioOf_quiet peer rfl
    | live heard slot stored gained => exact sent task false gained
    | opened heard slot slots opening absent ensured changed stored gained =>
      exact sent opening true gained

/-- A drain does not touch the mutes. -/
theorem drainOutputs_mutes (events : List RtcEvent) :
    (task.drainOutputs rtc events).1.mutedPeers = task.mutedPeers := by
  have drained : (drainEvents rtc task events).1.mutedPeers = task.mutedPeers := by
    refine traced_keeps_state (fun now => now.mutedPeers = task.mutedPeers) events ?_ task rfl
    intro now event _ same
    cases event with
    | egressBitrateEstimate bps =>
      simp only [drainEvent]
      split <;> exact same
    | _ => exact same
  obtain ⟨lines, listed, _⟩ := (drainEvents rtc task events).1.foldl_addMedia_frame
    (addedMedia events)
  obtain ⟨started, framed, _⟩ := ((addedMedia events).foldl addMedia
    (drainEvents rtc task events).1).startMedia_quiet rtc
  calc (task.drainOutputs rtc events).1.mutedPeers
      = (((addedMedia events).foldl addMedia (drainEvents rtc task events).1).startMedia
          rtc).1.mutedPeers := rfl
    _ = ((addedMedia events).foldl addMedia (drainEvents rtc task events).1).mutedPeers := by
        rw [framed]
    _ = (drainEvents rtc task events).1.mutedPeers := by rw [listed]
    _ = task.mutedPeers := drained

/-- A `Media` command does not touch the mutes. -/
theorem forward_mutes (media : ForwardedMedia) :
    (task.forward rtc media).1.mutedPeers = task.mutedPeers := by
  have sent : ∀ (origin : Task) (createdNew gained : Bool),
      ((origin.writeForwardedRtp rtc media).1.announceSource rtc media.sourcePid createdNew
        gained).1.mutedPeers = origin.mutedPeers := by
    intro origin createdNew gained
    obtain ⟨slots, written⟩ := origin.writeForwardedRtp_frame rtc media
    obtain ⟨pending, framed⟩ := (origin.writeForwardedRtp rtc media).1.announceSource_frame rtc
      media.sourcePid createdNew gained
    rw [framed, written]
  have outcome := task.forward_outcome rtc media
  generalize task.forward rtc media = result at outcome ⊢
  cases outcome with
  | muted audio silenced => rfl
  | parked heard absent noSlot =>
    simp only [park]
    split <;> rfl
  | live heard slot stored gained => exact sent task false gained
  | opened heard slot slots opening absent ensured changed stored gained =>
    rw [sent, changed]

/-- A renegotiation does not touch the mutes. -/
theorem renegotiate_mutes (sdp : String) :
    (task.renegotiate rtc sdp).1.mutedPeers = task.mutedPeers := by
  obtain ⟨lines, pending, framed, _⟩ := task.negotiated_frame rtc sdp
  obtain ⟨⟨slots, left, flushed⟩, _⟩ := flush_frame rtc (task.negotiated rtc sdp)
    (rtc.arrange (task.negotiated rtc sdp).pendingMedia.keys)
  calc (task.renegotiate rtc sdp).1.mutedPeers
      = (flush rtc (task.negotiated rtc sdp)
          (rtc.arrange (task.negotiated rtc sdp).pendingMedia.keys)).1.mutedPeers := rfl
    _ = (task.negotiated rtc sdp).mutedPeers := by rw [flushed]
    _ = task.mutedPeers := by rw [framed]

/-- A muted peer stays muted through every turn that does not end its mute. -/
theorem turn_muted {peer : ParticipantId} (muted : peer ∈ task.mutedPeers) (input : Rtc × Turn)
    (unlifted : input.2.lifts peer = false) : peer ∈ (task.turn input).1.mutedPeers := by
  obtain ⟨rtc, taken⟩ := input
  cases taken with
  | drained events => exact (task.drainOutputs_mutes rtc events) ▸ muted
  | command cmd =>
    cases cmd with
    | media packet => exact (task.forward_mutes rtc packet) ▸ muted
    | renegotiationOffer sdp => exact (task.renegotiate_mutes rtc sdp) ▸ muted
    | peerMuteChanged pid silenced =>
      cases silenced with
      | true => exact List.mem_insert_of_mem muted
      | false =>
        have other : pid ≠ peer := by simpa [Turn.lifts] using unlifted
        exact List.mem_filter.mpr ⟨muted, by simpa using other.symm⟩
    | peerLeft left =>
      have other : left ≠ peer := by simpa [Turn.lifts] using unlifted
      exact List.mem_filter.mpr ⟨muted, by simpa using other.symm⟩
    | udpPacket data source =>
      simp only [turn, handle]
      split <;> exact muted
    | screenShareActive active => cases active <;> exact muted
    | _ => exact muted

/-- Every turn keeps waiting packets with their own source. -/
theorem turn_own {task : Task} (own : task.ParkedOwn) (input : Rtc × Turn) :
    (task.turn input).1.ParkedOwn := by
  obtain ⟨rtc, taken⟩ := input
  cases taken with
  | drained events =>
    obtain ⟨_, _, buffers, _, _⟩ := task.drainOutputs_quiet rtc events
    intro source media member
    refine own source media ?_
    rwa [parked, ← buffers]
  | command cmd => exact task.handle_own rtc own cmd

/-- One turn is silent about a muted peer exactly when it finds the peer hushed. -/
theorem turn_audio {task : Task} (own : task.ParkedOwn) {peer : ParticipantId}
    (muted : peer ∈ task.mutedPeers) (past : List Output) (input : Rtc × Turn) :
    audioOf peer (task.turn input).2 = [] ↔ Hushed peer task past input := by
  obtain ⟨rtc, taken⟩ := input
  cases taken with
  | drained events =>
    obtain ⟨_, _, _, _, silent⟩ := task.drainOutputs_quiet rtc events
    exact iff_of_true (audioOf_quiet peer silent) trivial
  | command cmd =>
    have idle : Task.idle cmd = true → audioOf peer (task.handle rtc cmd).2 = [] := by
      intro unconcerned
      obtain ⟨_, _, _, _, silent⟩ := task.handle_idle rtc cmd unconcerned
      exact audioOf_quiet peer silent
    cases cmd with
    | media packet => exact iff_of_true (task.forward_audio rtc packet muted) trivial
    | renegotiationOffer sdp => exact renegotiate_audio rtc own sdp peer
    | screenShareActive active => exact iff_of_true (audioOf_quiet peer rfl) trivial
    | peerLeft left => exact iff_of_true (audioOf_quiet peer rfl) trivial
    | sourceScreenStopped source => exact iff_of_true (audioOf_quiet peer rfl) trivial
    | _ => exact iff_of_true (idle rfl) trivial

/-- Turns none of which ends the mute of a peer are silent about it exactly when
each finds it hushed. -/
theorem run_audio {task : Task} (own : task.ParkedOwn) {peer : ParticipantId}
    (muted : peer ∈ task.mutedPeers) (turns : List (Rtc × Turn))
    (unlifted : ∀ input ∈ turns, input.2.lifts peer = false) (past : List Output) :
    audioOf peer (run task turns).2 = [] ↔ Along turn (Hushed peer) task past turns := by
  induction turns generalizing task past with
  | nil => exact iff_of_true (audioOf_quiet peer rfl) trivial
  | cons input rest inductionHypothesis =>
    have later := inductionHypothesis (turn_own own input)
      (task.turn_muted muted input (unlifted input List.mem_cons_self))
      (fun following member => unlifted following (List.mem_cons_of_mem input member))
      (past ++ (task.turn input).2)
    change audioOf peer ((task.turn input).2 ++ (run (task.turn input).1 rest).2) = [] ↔ _ ∧ _
    rw [audioOf_append, List.append_eq_nil_iff, turn_audio own muted past input, later]

/-- Any run keeps waiting packets with their own source. -/
theorem run_own {task : Task} (own : task.ParkedOwn) (turns : List (Rtc × Turn)) :
    (run task turns).1.ParkedOwn :=
  traced_keeps_state (fun now => now.ParkedOwn) turns (fun _ input _ own => turn_own own input)
    task own

/-- From the turn that mutes a peer until one that ends its mute, no audio of the
peer is handed over exactly when every offer processed in between finds the peer
hushed.

A muted peer's packets are refused as they arrive, so that only those that waited may still
be written. They are flushed by an offer, and the condition looks at each of them. -/
theorem muted_peer_silent (pid : ParticipantId) (ownAudioPt ownVideoPt : Nat) (roomId : RoomId)
    (now : Nat) (answer : SdpAnswer) (before : List (Rtc × Turn)) (rtc : Rtc)
    (peer : ParticipantId) (during : List (Rtc × Turn))
    (unlifted : ∀ input ∈ during, input.2.lifts peer = false) :
    let muted := (run (start pid ownAudioPt ownVideoPt roomId now answer)
      (before ++ [(rtc, .command (.peerMuteChanged peer true))])).1
    audioOf peer (run muted during).2 = [] ↔ Along turn (Hushed peer) muted [] during := by
  intro muted
  obtain ⟨_, untouched⟩ := start_fresh pid ownAudioPt ownVideoPt roomId now answer
  have own : muted.ParkedOwn := by
    refine run_own ?_ _
    intro source media member
    simp [parked, untouched] at member
  have silenced : peer ∈ muted.mutedPeers := by
    simp only [muted, run, traced_append]
    exact List.mem_insert_self
  exact run_audio own silenced during unlifted []

/-- A task whose only pair to give serves another source skips what a muted peer
says, so an offer finds nothing of it waiting. -/
theorem muted_peer_silent_arrivals :
    let muted := (run (start ⟨0⟩ 111 96 "room" 0 onePair)
      ([(Rtc.plain (fun _ => none) 0, .command (.media (.picture ⟨1⟩ 0 false)))] ++
        [(Rtc.plain (fun _ => none) 0, .command (.peerMuteChanged ⟨2⟩ true))])).1
    let during : List (Rtc × Turn) :=
      [.media (.sound ⟨2⟩ 0), .renegotiationOffer "offer"].map fun cmd =>
        (Rtc.plain (fun _ => some anotherPair) 0, .command cmd)
    audioOf ⟨2⟩ (run muted during).2 = [] ↔ Along turn (Hushed ⟨2⟩) muted [] during :=
  muted_peer_silent ⟨0⟩ 111 96 "room" 0 onePair _ _ ⟨2⟩ _ (by decide)

/-- Audio that waited when its source was muted is forwarded by the next offer
that brings a pair of lines. -/
theorem parked_audio_unmuted :
    ¬ ∀ (pid : ParticipantId) (ownAudioPt ownVideoPt : Nat) (roomId : RoomId) (now : Nat)
      (answer : SdpAnswer) (before : List (Rtc × Turn)) (rtc : Rtc) (peer : ParticipantId)
      (during : List (Rtc × Turn)), (∀ input ∈ during, input.2.lifts peer = false) →
      audioOf peer (run (run (start pid ownAudioPt ownVideoPt roomId now answer)
        (before ++ [(rtc, .command (.peerMuteChanged peer true))])).1 during).2 = [] := by
  intro silent
  have none := silent ⟨0⟩ 111 96 "room" 0 onePair
    ([.media (.picture ⟨1⟩ 0 false), .media (.sound ⟨2⟩ 0)].map fun cmd =>
      (Rtc.plain (fun _ => none) 0, .command cmd))
    (Rtc.plain (fun _ => none) 0) ⟨2⟩
    [(Rtc.plain (fun _ => some anotherPair) 0, .command (.renegotiationOffer "offer"))] (by decide)
  revert none
  decide +kernel

end Task

end Seameet
