import Seameet.Client.Pool
import Seameet.Media.Assignment

/-!
# Browser and server on who is on which line

The media task gives a source the first free pair when its first packet comes;
the browser gives a peer the head of its pool when it is first listed. Nothing
is exchanged about the choice. Both lists start out equal, and the two sides
then take and return pairs in the order of their own events.

On the server side a slot always holds one of the offered pairs, so the first
free audio line and the first free video line belong to one pair. The sides
agree in every run in which, whenever one of them takes a pair for someone the
other side already has, the pair it is about to take is the one the other side
has.
-/

namespace Seameet

open Library

/-- One receiver: its browser and its media task. -/
structure Receiver where
  client : Client
  task : Task

namespace Receiver

/-- A listing reaches the browser, or the task takes a turn. -/
inductive Event where
  | roomStatus (participants : List ParticipantStatus)
  | turn (input : Rtc × Task.Turn)

/-- One event of a receiver. -/
def step (receiver : Receiver) : Event → Receiver × List (Output ⊕ SdpMessage)
  | .roomStatus participants =>
      let listed := receiver.client.reconcile participants
      ({ receiver with client := listed.1 }, listed.2.map .inr)
  | .turn input =>
      let taken := receiver.task.turn input
      ({ receiver with task := taken.1 }, taken.2.map .inl)

/-- A receiver after `ready`, with the task its offer was answered by. -/
def start (participantId : ParticipantId) (roomId : RoomId) (offered : Offered)
    (existingPeers : List ParticipantId) (displayNames : List (ParticipantId × String))
    (ownAudioPt ownVideoPt now : Nat) (sdp : String) : Receiver where
  client :=
    (Client.createOfferToServer participantId roomId offered existingPeers displayNames).1
  task :=
    Task.start participantId ownAudioPt ownVideoPt roomId now
      { sdp, mids := offered.lines, distinct := offered.distinct }

/-- A run of a receiver. -/
def run : Receiver → List Event → Receiver × List (Output ⊕ SdpMessage) := traced step

/-- Whoever has a slot and is shown is shown on the slot's camera pair. -/
def Agree (client : Client) (slots : SourceSlots) : Prop :=
  ∀ source slot peer, slots.lookup source = some slot →
    client.remotePeers.lookup source = some peer →
    slot.audioMid = peer.audioMid ∧ slot.videoMid = peer.videoMid

end Receiver

namespace Offered

variable (offered : Offered)

/-- The event brings no screen packet and no line that was not offered. -/
def Fixed : Receiver.Event → Prop
  | .turn (_, .command (.media packet)) => packet.isScreen = false
  | .turn (rtc, .command (.renegotiationOffer sdp)) =>
      ∀ answer ∈ rtc.acceptOffer sdp, ∀ line ∈ answer.mids, line.1 ∈ offered.lines.map Prod.fst
  | .turn (_, .drained events) =>
      ∀ line ∈ Task.addedMedia events, line.1 ∈ offered.lines.map Prod.fst
  | _ => True

/-- The first offered pair that no slot uses. -/
def firstFree (slots : SourceSlots) : Option TransceiverSlot :=
  offered.pool.find? fun pair => pair.audioMid ∉ usedMids slots

/-- If the packet makes the task take a pair for a source the browser shows, the
first free pair is the one the browser shows it on. -/
def Opening (client : Client) (task : Task) (_ : List Output) (media : ForwardedMedia) : Prop :=
  task.sourceSlots.lookup media.sourcePid = none →
    ∀ pair ∈ offered.firstFree task.sourceSlots,
      ∀ peer ∈ client.remotePeers.lookup media.sourcePid,
        pair.audioMid = peer.audioMid ∧ pair.videoMid = peer.videoMid

instance (client : Client) (task : Task) (past : List Output) (media : ForwardedMedia) :
    Decidable (offered.Opening client task past media) :=
  inferInstanceAs (Decidable (_ → ∀ pair ∈ _, ∀ peer ∈ _, _ ∧ _))

/-- If the browser takes a pair for a listed participant that has a slot, the
head of the pool is the slot's pair. -/
def Showing (slots : SourceSlots) (client : Client) (_ : List SdpMessage)
    (listed : ParticipantStatus) : Prop :=
  client.remotePeers.lookup listed.id = none →
    ∀ pair ∈ client.transceiverPool.head?, ∀ slot ∈ slots.lookup listed.id,
      slot.audioMid = pair.audioMid ∧ slot.videoMid = pair.videoMid

instance (slots : SourceSlots) (client : Client) (past : List SdpMessage)
    (listed : ParticipantStatus) : Decidable (Showing slots client past listed) :=
  inferInstanceAs (Decidable (_ → ∀ pair ∈ _, ∀ slot ∈ _, _ ∧ _))

/-- The condition on one event: each pair taken for someone the other side
already has is the other side's. -/
def Matching (receiver : Receiver) (_ : List (Output ⊕ SdpMessage)) : Receiver.Event → Prop
  | .roomStatus participants =>
      Along Client.track (Showing receiver.task.sourceSlots)
        (receiver.client.dropUnlisted participants) [] (receiver.client.remote participants)
  | .turn input => Task.OnEachWrite (offered.Opening receiver.client) receiver.task [] input

instance (receiver : Receiver) (past : List (Output ⊕ SdpMessage)) (event : Receiver.Event) :
    Decidable (offered.Matching receiver past event) := by
  unfold Matching
  split <;> infer_instance

variable {offered : Offered}

/-- The lines of the pool pairs are distinct and none is the browser's own. -/
theorem pool_distinct (offered : Offered) :
    (offered.ownAudio :: offered.ownVideo ::
      offered.pool.flatMap fun pair => [pair.audioMid, pair.videoMid]).Nodup := by
  have distinct := offered.distinct
  simpa [offeredLines, List.map_flatMap] using distinct

/-- A line of two pool pairs makes them the same pair. -/
theorem pair_unique {first second : TransceiverSlot} (firstIn : first ∈ offered.pool)
    (secondIn : second ∈ offered.pool) {mid : Mid}
    (ofFirst : mid ∈ [first.audioMid, first.videoMid])
    (ofSecond : mid ∈ [second.audioMid, second.videoMid]) : first = second := by
  have distinct := (List.nodup_cons.mp (List.nodup_cons.mp offered.pool_distinct).2).2
  obtain ⟨_, apart⟩ := List.nodup_flatMap.mp distinct
  have symmetric : Std.Symm (Function.onFun List.Disjoint fun pair : TransceiverSlot =>
      [pair.audioMid, pair.videoMid]) := ⟨fun _ _ disjoint _ inSecond inFirst =>
        disjoint inFirst inSecond⟩
  by_contra different
  exact apart.forall firstIn secondIn different ofFirst ofSecond

end Offered

/-- The task's side: the offered lines and no others, slots on offered pairs and
without screen line, and camera and audio packets only in the buffers. -/
structure Served (offered : Offered) (task : Task) : Prop where
  lines : task.lines =
    { allMids := offered.lines, ownAudioMid := some offered.ownAudio,
      ownVideoMid := some offered.ownVideo, ownScreenMid := none }
  assigned : WellAssigned task.lines task.sourceSlots
  paired : ∀ source slot, task.sourceSlots.lookup source = some slot →
    { audioMid := slot.audioMid, videoMid := slot.videoMid : TransceiverSlot } ∈ offered.pool ∧
      slot.screenMid = none
  camera : ∀ source buffered, task.pendingMedia.lookup source = some buffered →
    ∀ media ∈ buffered, media.isScreen = false

namespace Served

variable {offered : Offered} {task : Task}

/-- The lines of a pool pair are used together or not at all. -/
theorem used_pair (served : Served offered task) {pair : TransceiverSlot}
    (member : pair ∈ offered.pool) :
    pair.videoMid ∈ usedMids task.sourceSlots ↔ pair.audioMid ∈ usedMids task.sourceSlots := by
  have whole : ∀ mid ∈ [pair.audioMid, pair.videoMid], mid ∈ usedMids task.sourceSlots →
      ∃ source slot, task.sourceSlots.lookup source = some slot ∧
        slot.audioMid = pair.audioMid ∧ slot.videoMid = pair.videoMid := by
    intro mid ofPair used
    obtain ⟨source, slot, stored, holds⟩ := (mem_usedMids mid _).mp used
    obtain ⟨slotIn, bare⟩ := served.paired source slot stored
    have ofSlot : mid ∈ [slot.audioMid, slot.videoMid] := by
      rw [mem_slot_mids] at holds
      rcases holds with rfl | rfl | screen
      · simp
      · simp
      · simp [bare] at screen
    have same := Offered.pair_unique slotIn member ofSlot ofPair
    exact ⟨source, slot, stored, congrArg TransceiverSlot.audioMid same,
      congrArg TransceiverSlot.videoMid same⟩
  constructor
  · intro used
    obtain ⟨source, slot, stored, audio, _⟩ := whole pair.videoMid (by simp) used
    exact (mem_usedMids _ _).mpr ⟨source, slot, stored, by simp [SourceSlot.mids, audio]⟩
  · intro used
    obtain ⟨source, slot, stored, _, video⟩ := whole pair.audioMid (by simp) used
    exact (mem_usedMids _ _).mpr ⟨source, slot, stored, by simp [SourceSlot.mids, video]⟩

/-- The first free audio line is the one of the first free pair. -/
theorem freeAudio_pair (served : Served offered task) :
    task.lines.freeAudio task.sourceSlots =
      (offered.firstFree task.sourceSlots).map fun pair => (pair.audioMid, .audio) := by
  have apart : ∀ pair ∈ offered.pool, pair.audioMid ≠ offered.ownAudio := by
    rintro pair member same
    have absent := (List.nodup_cons.mp offered.pool_distinct).1
    exact absent (List.mem_cons_of_mem _ (List.mem_flatMap.mpr ⟨pair, member, by simp [same]⟩))
  rw [served.lines]
  simp only [Lines.freeAudio, Offered.lines, offeredLines, Offered.firstFree]
  rw [List.find?_cons_of_neg (by simp), List.find?_cons_of_neg (by simp)]
  generalize offered.pool = pool at apart
  induction pool with
  | nil => rfl
  | cons pair rest inductionHypothesis =>
    have later := inductionHypothesis fun other member => apart other (List.mem_cons_of_mem _ member)
    have own := apart pair List.mem_cons_self
    by_cases used : pair.audioMid ∈ usedMids task.sourceSlots
    · rw [List.find?_cons_of_neg (by simpa using used), ← later]
      simp [used]
    · rw [List.find?_cons_of_pos (by simpa using used)]
      simp [used, own]

/-- The first free video line is the one of the first free pair. -/
theorem freeVideo_pair (served : Served offered task) :
    task.lines.freeVideo task.sourceSlots =
      (offered.firstFree task.sourceSlots).map fun pair => (pair.videoMid, .video) := by
  have apart : ∀ pair ∈ offered.pool, pair.videoMid ≠ offered.ownVideo := by
    rintro pair member same
    have absent := (List.nodup_cons.mp (List.nodup_cons.mp offered.pool_distinct).2).1
    exact absent (List.mem_flatMap.mpr ⟨pair, member, by simp [same]⟩)
  have together := fun pair (member : pair ∈ offered.pool) => served.used_pair member
  rw [served.lines]
  simp only [Lines.freeVideo, Offered.lines, offeredLines, Offered.firstFree]
  rw [List.find?_cons_of_neg (by simp), List.find?_cons_of_neg (by simp)]
  generalize offered.pool = pool at apart together
  induction pool with
  | nil => rfl
  | cons pair rest inductionHypothesis =>
    have later := inductionHypothesis
      (fun other member => apart other (List.mem_cons_of_mem _ member))
      (fun other member => together other (List.mem_cons_of_mem _ member))
    have own := apart pair List.mem_cons_self
    have both := together pair List.mem_cons_self
    by_cases used : pair.audioMid ∈ usedMids task.sourceSlots
    · rw [List.find?_cons_of_neg (by simpa using used), ← later]
      simp [both.mpr used]
    · rw [List.find?_cons_of_pos (by simpa using used)]
      simp [both.not.mpr used, own]

/-- Asking for a slot for a camera or audio packet, when the browser's pair is
the one about to be taken. -/
theorem ensure (served : Served offered task) {client : Client} (past : List Output)
    (media : ForwardedMedia) (camera : media.isScreen = false)
    (opening : offered.Opening client task past media)
    (agree : Receiver.Agree client task.sourceSlots) :
    (∀ source slot,
      (task.ensureSlot media.sourcePid media.isScreen).2.lookup source = some slot →
      { audioMid := slot.audioMid, videoMid := slot.videoMid : TransceiverSlot } ∈ offered.pool ∧
        slot.screenMid = none) ∧
      Receiver.Agree client (task.ensureSlot media.sourcePid media.isScreen).2 := by
  have outcome := getOrCreateSlot_outcome media.sourcePid task.sourceSlots task.lines
    task.ownAudioPt task.ownVideoPt task.midSeqWatermark media.isScreen
  simp only [Task.ensureSlot]
  generalize getOrCreateSlot media.sourcePid task.sourceSlots task.lines task.ownAudioPt
    task.ownVideoPt task.midSeqWatermark media.isScreen = result at outcome ⊢
  cases outcome with
  | refused absent exhausted => exact ⟨served.paired, agree⟩
  | gainedScreen slot line stored screen bare free =>
    rw [camera] at screen
    simp at screen
  | kept slot stored settled =>
    have same : ∀ source, (task.sourceSlots.insert media.sourcePid slot).lookup source =
        task.sourceSlots.lookup source := by
      intro source
      rw [Table.lookup_insert_eq]
      split
      · rename_i here
        rw [here, stored]
      · rfl
    unfold Receiver.Agree
    simp only [same]
    exact ⟨served.paired, agree⟩
  | created audioLine videoLine absent freeAudio freeVideo =>
    obtain ⟨pair, first, rfl⟩ := Option.map_eq_some_iff.mp (served.freeAudio_pair ▸ freeAudio)
    have sameVideo : videoLine = (pair.videoMid, .video) := by
      rw [served.freeVideo_pair, first] at freeVideo
      exact (Option.some.inj freeVideo).symm
    subst sameVideo
    refine ⟨?_, ?_⟩
    · intro source slot stored
      rw [Table.lookup_insert_eq] at stored
      split at stored
      · obtain rfl := Option.some.inj stored
        exact ⟨List.mem_of_find?_eq_some first, rfl⟩
      · exact served.paired source slot stored
    · intro source slot peer stored shown
      rw [Table.lookup_insert_eq] at stored
      split at stored
      · rename_i here
        obtain rfl := Option.some.inj stored
        exact opening absent pair first peer (here ▸ shown)
      · exact agree source slot peer stored shown

/-- Forwarding a packet when the browser's pair is the one about to be taken. -/
theorem write (served : Served offered task) {client : Client} (past : List Output) (rtc : Rtc)
    (media : ForwardedMedia) (camera : media.isScreen = false)
    (opening : offered.Opening client task past media)
    (agree : Receiver.Agree client task.sourceSlots) :
    Served offered (task.writeForwardedRtp rtc media).1 ∧
      Receiver.Agree client (task.writeForwardedRtp rtc media).1.sourceSlots := by
  have standing : Forwarding task.sourceSlots task [] :=
    ⟨served.assigned, Extends.refl _, by simp⟩
  have assigned := (standing.write rtc media).assigned
  have frame := task.writeForwardedRtp_frame rtc media
  obtain ⟨paired, kept⟩ := served.ensure past media camera opening agree
  suffices slots : (∀ source slot,
      (task.writeForwardedRtp rtc media).1.sourceSlots.lookup source = some slot →
      { audioMid := slot.audioMid, videoMid := slot.videoMid : TransceiverSlot } ∈ offered.pool ∧
        slot.screenMid = none) ∧
      Receiver.Agree client (task.writeForwardedRtp rtc media).1.sourceSlots by
    obtain ⟨table, framed⟩ := frame
    refine ⟨⟨?_, assigned, slots.1, ?_⟩, slots.2⟩
    · rw [framed]
      exact served.lines
    · rw [framed]
      exact served.camera
  have outcome := task.writeForwardedRtp_outcome rtc media
  generalize task.writeForwardedRtp rtc media = result at outcome ⊢
  cases outcome with
  | refused noSlot => exact ⟨served.paired, agree⟩
  | unlined slot slots ensured missing =>
    rw [ensured] at paired kept
    exact ⟨paired, kept⟩
  | sent slot slots mid ensured lined =>
    rw [ensured] at paired kept
    have stored : slots.lookup media.sourcePid = some slot := Task.ensureSlot_stored ensured
    have advanced : ∀ source later,
        (slots.insert media.sourcePid (slot.advance media.use)).lookup source = some later →
        ∃ former, slots.lookup source = some former ∧ later.audioMid = former.audioMid ∧
          later.videoMid = former.videoMid ∧ later.screenMid = former.screenMid := by
      intro source later present
      rw [Table.lookup_insert_eq] at present
      split at present
      · rename_i here
        obtain rfl := Option.some.inj present
        exact ⟨slot, here ▸ stored, by cases media.use <;> exact ⟨rfl, rfl, rfl⟩⟩
      · exact ⟨later, present, rfl, rfl, rfl⟩
    refine ⟨?_, ?_⟩
    · intro source later present
      obtain ⟨former, before, audio, video, screen⟩ := advanced source later present
      rw [audio, video, screen]
      exact paired source former before
    · intro source later peer present shown
      obtain ⟨former, before, audio, video, _⟩ := advanced source later present
      rw [audio, video]
      exact kept source former peer before shown

/-- Steps that keep the lines and take no slot and no screen packet in. -/
theorem quiet (served : Served offered task) {after : Task} (lines : after.lines = task.lines)
    (fewer : ∀ source slot, after.sourceSlots.lookup source = some slot →
      ∃ former, task.sourceSlots.lookup source = some former ∧
        slot.audioMid = former.audioMid ∧ slot.videoMid = former.videoMid ∧
        (slot.screenMid = former.screenMid ∨ slot.screenMid = none))
    (assigned : WellAssigned after.lines after.sourceSlots)
    (camera : ∀ source buffered, after.pendingMedia.lookup source = some buffered →
      ∀ media ∈ buffered, media.isScreen = false) {client : Client}
    (agree : Receiver.Agree client task.sourceSlots) :
    Served offered after ∧ Receiver.Agree client after.sourceSlots := by
  refine ⟨⟨lines.trans served.lines, assigned, ?_, camera⟩, ?_⟩
  · intro source slot stored
    obtain ⟨former, before, audio, video, screen⟩ := fewer source slot stored
    obtain ⟨member, bare⟩ := served.paired source former before
    rw [audio, video]
    exact ⟨member, screen.elim (fun same => same.trans bare) id⟩
  · intro source slot peer stored shown
    obtain ⟨former, before, audio, video, _⟩ := fewer source slot stored
    rw [audio, video]
    exact agree source former peer before shown

/-- A `Media` command. -/
theorem forward (served : Served offered task) {client : Client} (rtc : Rtc)
    (media : ForwardedMedia) (camera : media.isScreen = false)
    (opening : (media.isAudio && media.sourcePid ∈ task.mutedPeers) = false →
      offered.Opening client task [] media ∧
        offered.Opening client { task with
          sourceSlots := (task.ensureSlot media.sourcePid media.isScreen).2 } [] media)
    (agree : Receiver.Agree client task.sourceSlots) :
    Served offered (task.forward rtc media).1 ∧
      Receiver.Agree client (task.forward rtc media).1.sourceSlots := by
  have announced : ∀ {origin : Task} (createdNew gained : Bool), Served offered origin →
      offered.Opening client origin [] media → Receiver.Agree client origin.sourceSlots →
      Served offered
        ((origin.writeForwardedRtp rtc media).1.announceSource rtc media.sourcePid
          createdNew gained).1 ∧
      Receiver.Agree client
        ((origin.writeForwardedRtp rtc media).1.announceSource rtc media.sourcePid
          createdNew gained).1.sourceSlots := by
    intro origin createdNew gained served opening agree
    obtain ⟨written, kept⟩ := served.write [] rtc media camera opening agree
    obtain ⟨pending, framed⟩ := (origin.writeForwardedRtp rtc media).1.announceSource_frame rtc
      media.sourcePid createdNew gained
    rw [framed]
    exact ⟨⟨written.lines, written.assigned, written.paired, written.camera⟩, kept⟩
  have outcome := task.forward_outcome rtc media
  generalize task.forward rtc media = result at outcome ⊢
  cases outcome with
  | muted audio silenced => exact ⟨served, agree⟩
  | parked heard absent noSlot =>
    by_cases room : ((task.pendingMedia.lookup media.sourcePid).getD []).length < mediaBufferCap
    · simp only [Task.park, room, ↓reduceIte]
      refine ⟨⟨served.lines, served.assigned, served.paired, ?_⟩, agree⟩
      intro source buffered waiting packet member
      rw [Table.lookup_insert_eq] at waiting
      split at waiting
      · obtain rfl := Option.some.inj waiting
        rcases List.mem_append.mp member with earlier | now
        · cases before : task.pendingMedia.lookup media.sourcePid with
          | none => simp [before] at earlier
          | some former =>
            rw [before] at earlier
            exact served.camera media.sourcePid former before packet earlier
        · rw [List.mem_singleton.mp now]
          exact camera
      · exact served.camera source buffered waiting packet member
    · simp only [Task.park, room, ↓reduceIte]
      exact ⟨served, agree⟩
  | live heard slot stored gained => exact announced false gained served (opening heard).1 agree
  | opened heard slot slots opened absent ensured changed stored gained =>
    obtain ⟨paired, kept⟩ := served.ensure [] media camera (opening heard).1 agree
    have assigned := (served.assigned.ensure media.sourcePid task.ownAudioPt task.ownVideoPt
      task.midSeqWatermark media.isScreen).1
    change WellAssigned task.lines (task.ensureSlot media.sourcePid media.isScreen).2 at assigned
    have again := (opening heard).2
    have same : (task.ensureSlot media.sourcePid media.isScreen).2 = slots := by rw [ensured]
    rw [same] at paired kept assigned again
    subst changed
    exact announced true gained ⟨served.lines, assigned, paired, served.camera⟩ again kept

/-- A renegotiation whose answer brings no new line. -/
theorem negotiated (served : Served offered task) (rtc : Rtc) (sdp : String)
    (fixed : ∀ answer ∈ rtc.acceptOffer sdp, ∀ line ∈ answer.mids,
      line.1 ∈ offered.lines.map Prod.fst) : task.negotiated rtc sdp = task := by
  have nothing : ∀ reported : List (Mid × MediaKind),
      (∀ line ∈ reported, line.1 ∈ offered.lines.map Prod.fst) →
      Task.freshMids task.lines.allMids reported = [] := by
    intro reported
    induction reported with
    | nil => exact fun _ => rfl
    | cons line rest inductionHypothesis =>
      intro known
      obtain ⟨listed, present, same⟩ := List.mem_map.mp (known line List.mem_cons_self)
      have found : task.lines.allMids.any (·.1 = line.1) = true := by
        rw [served.lines]
        exact List.any_eq_true.mpr ⟨listed, present, by simpa using same⟩
      rw [Task.freshMids, if_pos found]
      exact inductionHypothesis fun other member => known other (List.mem_cons_of_mem _ member)
  unfold Task.negotiated Task.handleRenegotiation
  cases accepted : rtc.acceptOffer sdp with
  | none => rfl
  | some answer =>
    have none := nothing answer.mids (fixed answer accepted)
    simp only [none, List.foldl_nil]

/-- Announced lines that are listed already change nothing. -/
theorem listed {task : Task} (lines : task.lines.allMids = offered.lines)
    (added : List (Mid × MediaKind))
    (fixed : ∀ line ∈ added, line.1 ∈ offered.lines.map Prod.fst) :
    added.foldl Task.addMedia task = task := by
  induction added with
  | nil => rfl
  | cons line rest inductionHypothesis =>
    obtain ⟨known, present, same⟩ := List.mem_map.mp (fixed line List.mem_cons_self)
    have found : task.lines.allMids.any (·.1 = line.1) = true := by
      rw [lines]
      exact List.any_eq_true.mpr ⟨known, present, by simpa using same⟩
    rw [List.foldl_cons, Task.addMedia, if_pos found]
    exact inductionHypothesis fun other member => fixed other (List.mem_cons_of_mem _ member)

/-- A renegotiation under the condition. -/
theorem renegotiate (served : Served offered task) {client : Client} (rtc : Rtc) (sdp : String)
    (fixed : ∀ answer ∈ rtc.acceptOffer sdp, ∀ line ∈ answer.mids,
      line.1 ∈ offered.lines.map Prod.fst)
    (opening : Task.OnEachWrite (offered.Opening client) task []
      (rtc, .command (.renegotiationOffer sdp)))
    (agree : Receiver.Agree client task.sourceSlots) :
    Served offered (task.renegotiate rtc sdp).1 ∧
      Receiver.Agree client (task.renegotiate rtc sdp).1.sourceSlots := by
  have same := served.negotiated rtc sdp fixed
  have along : Along (Task.flushSource rtc) (Task.OnFlushed (offered.Opening client) rtc)
      (task.negotiated rtc sdp) [] (rtc.arrange (task.negotiated rtc sdp).pendingMedia.keys) :=
    opening
  let law : Task → List Output → Prop := fun task _ =>
    Served offered task ∧ Receiver.Agree client task.sourceSlots
  refine Task.flush_keeps along law (fun media => media.isScreen = false) ?_ ?_ ?_ ?_ ?_
  · intro task past source buffered standing waiting
    exact standing.1.camera source buffered waiting
  · intro task past source standing
    refine ⟨⟨standing.1.lines, standing.1.assigned, standing.1.paired, ?_⟩, standing.2⟩
    intro other buffered waiting
    rw [Table.lookup_erase_eq] at waiting
    split at waiting
    · simp at waiting
    · exact standing.1.camera other buffered waiting
  · exact fun task past outputs _ standing => standing
  · intro task past media standing opening camera
    exact standing.1.write past rtc media camera opening standing.2
  · rw [same]
    exact ⟨served, agree⟩

/-- Every turn of the task, with fixed lines, no screen share and the browser's
pairs the ones about to be taken. -/
theorem turn (served : Served offered task) {client : Client} (input : Rtc × Task.Turn)
    (fixed : offered.Fixed (.turn input))
    (opening : Task.OnEachWrite (offered.Opening client) task [] input)
    (agree : Receiver.Agree client task.sourceSlots) :
    Served offered (task.turn input).1 ∧ Receiver.Agree client (task.turn input).1.sourceSlots := by
  have assigned := (task.turn_turned served.assigned input).assigned
  obtain ⟨rtc, taken⟩ := input
  have unchanged : ∀ {after : Task}, after.sourceSlots = task.sourceSlots →
      ∀ source slot, after.sourceSlots.lookup source = some slot →
        ∃ former, task.sourceSlots.lookup source = some former ∧
          slot.audioMid = former.audioMid ∧ slot.videoMid = former.videoMid ∧
          (slot.screenMid = former.screenMid ∨ slot.screenMid = none) :=
    fun slots source slot stored => ⟨slot, slots ▸ stored, rfl, rfl, Or.inl rfl⟩
  cases taken with
  | drained events =>
    obtain ⟨slots, _, buffers, _, _⟩ := task.drainOutputs_quiet rtc events
    have lines : (task.turn (rtc, .drained events)).1.lines = task.lines := by
      obtain ⟨drainedLines, _⟩ := task.drainEvents_quiet rtc events
      obtain ⟨started, framed, _⟩ := ((Task.addedMedia events).foldl Task.addMedia
        (Task.drainEvents rtc task events).1).startMedia_quiet rtc
      simp only [Task.turn, Task.drainOutputs, framed]
      rw [listed (by rw [drainedLines, served.lines]) _ fixed]
      exact drainedLines
    refine served.quiet lines (unchanged slots) assigned ?_ agree
    intro source buffered waiting
    exact served.camera source buffered (buffers ▸ waiting)
  | command cmd =>
    have idle : Task.idle cmd = true →
        Served offered (task.handle rtc cmd).1 ∧
          Receiver.Agree client (task.handle rtc cmd).1.sourceSlots := by
      intro unconcerned
      obtain ⟨lines, slots, _, buffers, _⟩ := task.handle_idle rtc cmd unconcerned
      refine served.quiet lines (unchanged slots) assigned ?_ agree
      intro source buffered waiting
      exact served.camera source buffered (buffers ▸ waiting)
    cases cmd with
    | media packet => exact served.forward rtc packet fixed opening agree
    | renegotiationOffer sdp => exact served.renegotiate rtc sdp fixed opening agree
    | screenShareActive active =>
      refine served.quiet ?_ ?_ assigned ?_ agree
      · cases active with
        | true => rfl
        | false =>
          change { task.lines with ownScreenMid := none } = task.lines
          rw [served.lines]
      · cases active <;> exact unchanged rfl
      · cases active <;> exact served.camera
    | peerLeft left =>
      refine served.quiet ?_ ?_ assigned ?_ agree
      · rfl
      · intro source slot stored
        simp only [Task.turn, Task.handle, Task.peerLeft, Table.lookup_erase_eq] at stored
        split at stored
        · simp at stored
        · exact ⟨slot, stored, rfl, rfl, Or.inl rfl⟩
      · intro source buffered waiting
        simp only [Task.turn, Task.handle, Task.peerLeft, Table.lookup_erase_eq] at waiting
        split at waiting
        · simp at waiting
        · exact served.camera source buffered waiting
    | sourceScreenStopped stopped =>
      refine served.quiet ?_ ?_ assigned served.camera agree
      · rfl
      · intro source slot stored
        simp only [Task.turn, Task.handle, Task.sourceScreenStopped, Table.lookup_modify] at stored
        split at stored
        · rename_i here
          obtain ⟨former, present, rfl⟩ := Option.map_eq_some_iff.mp stored
          exact ⟨former, here ▸ present, rfl, rfl, Or.inr rfl⟩
        · exact ⟨slot, stored, rfl, rfl, Or.inl rfl⟩
    | _ => exact idle rfl

end Served

namespace Client

/-- Updating flags changes no line. -/
theorem updateFlags_lines (client : Client) (participants : List ParticipantStatus)
    {source : ParticipantId} {peer : RemotePeer}
    (shown : (participants.foldl updateFlags client).remotePeers.lookup source = some peer) :
    ∃ former, client.remotePeers.lookup source = some former ∧
      peer.audioMid = former.audioMid ∧ peer.videoMid = former.videoMid := by
  induction participants generalizing client with
  | nil => exact ⟨peer, shown, rfl, rfl⟩
  | cons listed rest inductionHypothesis =>
    obtain ⟨later, updated, audio, video⟩ := inductionHypothesis (client.updateFlags listed) shown
    simp only [updateFlags, Table.lookup_modify] at updated
    split at updated
    · rename_i here
      obtain ⟨former, present, rfl⟩ := Option.map_eq_some_iff.mp updated
      exact ⟨former, here ▸ present, audio, video⟩
    · exact ⟨later, updated, audio, video⟩

/-- Dropping peers shows nobody anew. -/
theorem dropUnlisted_shown (client : Client) (participants : List ParticipantStatus)
    {source : ParticipantId} {peer : RemotePeer}
    (shown : (client.dropUnlisted participants).remotePeers.lookup source = some peer) :
    client.remotePeers.lookup source = some peer := by
  have dropping : ∀ (dropped : List ParticipantId) (client : Client),
      (dropped.foldl removeRemotePeer client).remotePeers.lookup source = some peer →
      client.remotePeers.lookup source = some peer := by
    intro dropped
    induction dropped with
    | nil => exact fun _ shown => shown
    | cons peerId rest inductionHypothesis =>
      intro client shown
      have earlier := inductionHypothesis (client.removeRemotePeer peerId) shown
      unfold removeRemotePeer at earlier
      split at earlier
      · exact earlier
      · simp only [Table.lookup_erase_eq] at earlier
        split at earlier
        · simp at earlier
        · exact earlier
  exact dropping _ client shown

/-- Showing listed participants on the pairs their slots have keeps agreement. -/
theorem track_agree (client : Client) (slots : SourceSlots) (listed : ParticipantStatus)
    (past : List SdpMessage) (agree : Receiver.Agree client slots)
    (showing : Offered.Showing slots client past listed) :
    Receiver.Agree (client.track listed).1 slots := by
  unfold track
  cases present : client.remotePeers.lookup listed.id with
  | some former => simpa using agree
  | none =>
    cases pool : client.transceiverPool with
    | nil => simpa [addRemotePeer, present, pool] using agree
    | cons pair rest =>
      simp only [Option.isSome_none, Bool.false_eq_true, ↓reduceIte, addRemotePeer, present, pool]
      intro source slot peer stored shown
      simp only [Table.lookup_insert_eq] at shown
      split at shown
      · rename_i here
        obtain rfl := Option.some.inj shown
        exact showing present pair (by simp [pool]) slot (here ▸ stored)
      · exact agree source slot peer stored shown

/-- A listing under the condition keeps agreement. -/
theorem reconcile_agree (client : Client) (slots : SourceSlots)
    (participants : List ParticipantStatus)
    (showing : Along track (Offered.Showing slots) (client.dropUnlisted participants) []
      (client.remote participants)) (agree : Receiver.Agree client slots) :
    Receiver.Agree (client.reconcile participants).1 slots := by
  have dropped : Receiver.Agree (client.dropUnlisted participants) slots :=
    fun source slot peer stored shown =>
      agree source slot peer stored (client.dropUnlisted_shown participants shown)
  have tracked := showing.keeps (fun client _ => Receiver.Agree client slots)
    (fun client past listed agree showing => client.track_agree slots listed past agree showing)
    dropped
  intro source slot peer stored shown
  obtain ⟨former, before, audio, video⟩ := updateFlags_lines _ _ shown
  rw [audio, video]
  exact tracked source slot former stored before

end Client

/-- The task an offer is answered by starts on the offered lines, without slots. -/
theorem Served.start (participantId : ParticipantId) (roomId : RoomId) (offered : Offered)
    (ownAudioPt ownVideoPt now : Nat) (sdp : String) :
    Served offered (Task.start participantId ownAudioPt ownVideoPt roomId now
      { sdp, mids := offered.lines, distinct := offered.distinct }) := by
  have listing : ∀ (added : List (Mid × MediaKind)) (task : Task),
      task.lines.ownAudioMid.isSome → task.lines.ownVideoMid.isSome →
      (added.foldl (fun task line => (task.push line).adoptOwn line) task).lines =
        { task.lines with allMids := task.lines.allMids ++ added } := by
    intro added
    induction added with
    | nil => simp
    | cons line rest inductionHypothesis =>
      intro task audio video
      have kept : (task.push line).adoptOwn line = task.push line := by
        unfold Task.adoptOwn
        cases line.2 with
        | audio =>
          have owned : (task.push line).lines.ownAudioMid.isNone = false := by
            simpa [Task.push] using audio
          simp [owned]
        | video =>
          have owned : (task.push line).lines.ownVideoMid.isNone = false := by
            simpa [Task.push] using video
          simp [owned]
      rw [List.foldl_cons, kept, inductionHypothesis (task.push line) audio video]
      simp [Task.push]
  obtain ⟨slots, buffers⟩ := Task.start_fresh participantId ownAudioPt ownVideoPt roomId now
    { sdp, mids := offered.lines, distinct := offered.distinct }
  refine ⟨?_, Task.start_assigned .., ?_, ?_⟩
  · refine (listing (offered.pool.flatMap fun slot =>
      [(slot.audioMid, .audio), (slot.videoMid, .video)]) _ ?_ ?_).trans ?_ <;> rfl
  · intro source slot stored
    simp [slots] at stored
  · intro source buffered waiting
    simp [buffers] at waiting

namespace Receiver

/-- An offer with two pairs besides the browser's own. -/
def twoPairOffer : Offered where
  ownAudio := ⟨"0"⟩
  ownVideo := ⟨"1"⟩
  pool := [⟨⟨"2"⟩, ⟨"3"⟩⟩, ⟨⟨"4"⟩, ⟨"5"⟩⟩]
  distinct := by decide

end Receiver

end Seameet
