import Seameet.Engine.Chat
import Seameet.Engine.Service

/-!
# The texts of the server

Texts reach the sinks from three layers. The dispatch and the hooks place messages they
serialise; the dispatch forwards clients' texts as they arrived, and stores chat to hand
it to later members; a media task also builds a JSON object of its own, the bitrate
notice. For every section and every step, what it places and stores is a message or a
text that is listed, and a notice is placed by one kind of drain only.
-/

namespace Seameet

open Library

/-- Texts listed before are listed after. -/
theorem Frame.Says.mono {raws more : List String} {frame : Frame} (said : frame.Says raws)
    (listed : ∀ raw ∈ raws, raw ∈ more) : frame.Says more := by
  cases frame with
  | serialised => trivial
  | relayed raw => exact listed raw said
  | bweUpdate => exact said

/-- Every stored chat text is listed. -/
def SignalingState.Stored (raws : List String) (state : SignalingState) : Prop :=
  ∀ roomId texts, state.history roomId = some texts → ∀ raw ∈ texts, raw ∈ raws

section Texts

variable {raws : List String}

/-- So is what the other peers of a map are told. -/
theorem textOthers_spoken (peers : Peers) (exclude : ParticipantId) (message : SdpMessage) :
    ∀ text ∈ peers.textOthers exclude message, text.2.Says raws := by
  intro text placed
  obtain ⟨_, _, rfl⟩ := List.mem_map.mp placed
  trivial

/-- One serialised message. -/
theorem serialised_spoken (sink : WsSink) (message : SdpMessage) :
    ∀ text ∈ [((sink, .serialised message) : Sent)], text.2.Says raws := by
  intro text placed
  cases List.mem_singleton.mp placed
  trivial

/-- No text at all. -/
theorem nothing_spoken : ∀ text ∈ ([] : List Sent), text.2.Says raws := by
  intro text placed
  cases placed

end Texts

namespace SignalingState

variable {raws : List String} {state after : SignalingState}

/-- Whatever keeps each history or drops it keeps the stored texts listed. -/
theorem Stored.kept (stored : state.Stored raws)
    (kept : ∀ roomId, after.history roomId = state.history roomId ∨ after.history roomId = none) :
    after.Stored raws := by
  intro roomId texts recalled
  rcases kept roomId with same | gone
  · exact stored roomId texts (same.symm.trans recalled)
  · rw [gone] at recalled
    cases recalled

/-- Only the text that is dispatched is stored with those before. -/
theorem Stored.dispatch (stored : state.Stored raws) {message : SdpMessage} {raw : String}
    (listed : raw ∈ raws) (notJoin : message.joinRequest = none) (pid : ParticipantId) (id : WsSink)
    (closed : WsSink → Bool) (maxChatHistory maxRoomMembers : Nat) :
    (state.dispatch message raw pid id closed maxChatHistory maxRoomMembers).1.Stored raws := by
  intro roomId texts recalled
  by_cases chat : message.chatRoom = some roomId
  · obtain ⟨sender, name, content, timestamp, encrypted, keyId, rfl⟩ :
        ∃ sender name content timestamp encrypted keyId,
          message = .chatMessage sender roomId name content timestamp encrypted keyId := by
      cases message <;> simp only [SdpMessage.chatRoom, reduceCtorEq, Option.some.injEq] at chat
      exact ⟨_, _, _, _, _, _, by rw [chat]⟩
    simp only [SignalingState.dispatch, history, updateRoom, Table.lookup_modify, ↓reduceIte,
      Option.map_map, Option.map_eq_some_iff, Function.comp_apply] at recalled
    obtain ⟨room, found, rfl⟩ := recalled
    intro kept member
    rcases List.mem_append.mp member with old | new
    · apply stored roomId room.chatHistory (by rw [history, found, Option.map_some])
      split at old
      · exact List.mem_of_mem_tail old
      · exact old
    · exact List.mem_singleton.mp new ▸ listed
  · rcases Connection.dispatch_history state raw notJoin pid closed maxChatHistory maxRoomMembers
        roomId chat with same | gone
    · exact stored roomId texts (same.symm.trans recalled)
    · rw [gone] at recalled
      cases recalled

end SignalingState

/-- What a section of a task places and stores is of the protocol. -/
structure Turn.Says (raws : List String) (turn : Turn) : Prop where
  placed : ∀ text ∈ turn.sent, text.2.Says raws
  stored : turn.signaling.Stored raws

namespace Connection

variable {config : Config} {world : World} {id : WsSink} {connection : Connection}
  {raws : List String}

/-- Reading a text answers with errors only. -/
theorem receive_spoken (stored : world.signaling.Stored raws) (raw : String)
    (parsed : Option SdpMessage) (auth : Except String Unit) (rateOk : Bool) :
    (connection.receive config world id raw parsed auth rateOk).Says raws := by
  cases parsed with
  | none => exact ⟨nothing_spoken, stored⟩
  | some message =>
    simp only [receive]
    split
    · simp only [receiveNext]
      split <;> exact ⟨nothing_spoken, stored⟩
    · split
      · simp only [receiveFirst]
        split
        · split
          · exact ⟨nothing_spoken, stored⟩
          · split
            · exact ⟨serialised_spoken id _, stored⟩
            · exact ⟨nothing_spoken, stored⟩
        · exact ⟨serialised_spoken id _, stored⟩
      · exact ⟨nothing_spoken, stored⟩

/-- The chat handed to a new member was stored. -/
theorem joinSection_spoken (stored : world.signaling.Stored raws) (pid : ParticipantId)
    (first : Bool) (request : JoinRequest) (stage : JoinStage) :
    (connection.joinSection config world id pid first request stage).Says raws := by
  have pruned : (world.pruned request.roomId).Stored raws :=
    stored.kept fun roomId => .inl (world.signaling.history_pruneStale request.roomId roomId _)
  cases stage with
  | prune => exact ⟨nothing_spoken, pruned⟩
  | notifyPruned | notifyRejoin | ensureRoom | storeSession | announceCount =>
    exact ⟨nothing_spoken, stored⟩
  | dispatch =>
    cases admitted : admits config world request.roomId with
    | false =>
      obtain ⟨signaling, _⟩ :=
        connection.joinSection_refused config world id pid first request admitted
      refine ⟨?_, signaling ▸ pruned⟩
      rw [joinSection_full pid first request admitted]
      exact serialised_spoken id _
    | true =>
      obtain ⟨signaling, _⟩ :=
        connection.joinSection_admitted config world id pid first request admitted
      have kept : (connection.joinSection config world id pid first request
          .dispatch).signaling.Stored raws := by
        intro roomId texts recalled
        rw [signaling, SignalingState.history_join] at recalled
        split at recalled
        · cases Option.some.inj recalled
          intro raw member
          cases known : (world.pruned request.roomId).history request.roomId with
          | none => simp [known] at member
          | some texts =>
            exact pruned request.roomId texts known raw (by simpa [known] using member)
        · exact pruned roomId texts recalled
      refine ⟨?_, kept⟩
      have texts : (connection.joinSection config world id pid first request .dispatch).sent =
          ((world.pruned request.roomId).seatMember request.participant request.roomId
            request.displayName id).2 := by
        have vacant : (world.pruned request.roomId).full request.roomId config.maxRoomMembers =
            false := by
          simpa [admits] using admitted
        rw [World.pruned] at vacant
        simp only [joinSection, JoinRequest.message, SignalingState.dispatch,
          SignalingState.dispatchJoin, vacant, Bool.false_eq_true, ↓reduceIte]
        rfl
      rw [texts]
      intro text placed
      rcases List.mem_append.mp placed with ready | chat
      · rcases List.mem_cons.mp ready with rfl | status
        · trivial
        · exact status_spoken _ _ text status
      · obtain ⟨raw, member, rfl⟩ := List.mem_map.mp chat
        rw [signaling] at kept
        have recalled : raw ∈ ((((world.pruned request.roomId).join request.participant
            request.roomId id request.displayName).2.history request.roomId).getD []) := member
        cases known : ((world.pruned request.roomId).join request.participant request.roomId id
            request.displayName).2.history request.roomId with
        | none =>
          rw [known] at recalled
          cases recalled
        | some texts =>
          rw [known] at recalled
          exact kept request.roomId texts known raw recalled

/-- A section of another message's handler, whose text is listed. -/
theorem hookSection_spoken (stored : world.signaling.Stored raws) (pid : ParticipantId)
    (handled : Handled) (listed : handled.raw ∈ raws) (answer : Option String) (stage : HookStage) :
    (connection.hookSection config world id pid handled answer stage).Says raws := by
  cases stage with
  | dispatch =>
    exact ⟨dispatch_spoken _ listed handled.notJoin pid id _ _ _,
      stored.dispatch listed handled.notJoin pid id _ _ _⟩
  | mediaState =>
    simp only [hookSection]
    split
    · rename_i roomId change changed
      obtain ⟨flag, rfl⟩ := SfuServer.mediaChange_flag changed
      refine ⟨status_spoken _ roomId, stored.kept fun tested => .inl ?_⟩
      exact world.signaling.history_updateRoom roomId tested _ fun _ => rfl
    · exact ⟨nothing_spoken, stored⟩
  | act peers =>
    refine ⟨?_, stored⟩
    simp only [hookSection]
    cases message : handled.message with
    | screenShareStarted | screenShareStopped | videoConfigChanged =>
      exact textOthers_spoken _ pid _
    | _ => exact nothing_spoken
  | awaitReply =>
    simp only [hookSection]
    split
    · refine ⟨?_, stored⟩
      dsimp only
      split
      · exact nothing_spoken
      · exact serialised_spoken id _
    · exact ⟨nothing_spoken, stored⟩
  | negotiate peers =>
    simp only [hookSection]
    split
    · exact ⟨serialised_spoken id _, stored⟩
    · exact ⟨nothing_spoken, stored⟩
  | session hasMedia | room hasMedia roomId | renegotiate peers | candidate =>
    simp only [hookSection]
    split <;> exact ⟨nothing_spoken, stored⟩
  | mediaTask | register | registerAll | markMediaTask | spawn => exact ⟨nothing_spoken, stored⟩

/-- The cleanup announces statuses and the end of screen shares. -/
theorem leaveSection_spoken (stored : world.signaling.Stored raws) (pid : ParticipantId)
    (stage : LeaveStage) : (connection.leaveSection config world id pid stage).Says raws := by
  have kept : (connection.leaveSection config world id pid stage).signaling.Stored raws := by
    rw [(connection.leaveSection_frame config world id pid stage).2]
    cases stage with
    | disconnect => exact stored.kept fun roomId => world.signaling.history_leaveAll roomId pid _
    | _ => exact stored
  refine ⟨?_, kept⟩
  cases stage with
  | announce pending affected =>
    cases pending with
    | cons head pending => exact status_spoken _ head.1
    | nil =>
      simp only [leaveSection]
      split <;> exact nothing_spoken
  | stopScreen peers roomId gone rest => exact textOthers_spoken _ pid _
  | checkStale | lookup =>
    simp only [leaveSection]
    split <;> exact nothing_spoken
  | disconnect | routes | allPeers | dropPeer | dropRoom | dropSession => exact nothing_spoken

/-- What a connection's task is acting on: a text, and what it was read as. -/
def acting (connection : Connection) : List (String × SdpMessage) :=
  match connection.point with
  | .handling handled _ => [(handled.raw, handled.message)]
  | _ => []

/-- Every section, when the text it acts on is listed. -/
theorem advance_spoken (stored : world.signaling.Stored raws) {answer : Option String} {turn : Turn}
    (taken : connection.advance config world id answer = some turn)
    (listed : ∀ pair ∈ connection.acting, pair.1 ∈ raws) : turn.Says raws := by
  unfold advance at taken
  split at taken <;> cases taken
  · unfold precheckSection
    split
    · exact ⟨serialised_spoken id _, stored⟩
    · exact ⟨nothing_spoken, stored⟩
  · exact ⟨nothing_spoken, stored⟩
  · exact joinSection_spoken stored _ _ _ _
  · rename_i handled stage pid point bound
    have acted : (handled.raw, handled.message) ∈ connection.acting := by simp [acting, point]
    exact hookSection_spoken stored pid handled (listed _ acted) answer stage
  · exact leaveSection_spoken stored _ _

end Connection

namespace World

variable {config : Config} {world after : World} {raws : List String}

/-- What an event of the engine acts on. -/
def acts (world : World) : Event → List (String × SdpMessage)
  | .advance id _ => ((world.connections.lookup id).map Connection.acting).getD []
  | _ => []

/-- A step places texts of the protocol, when the text it acts on is listed, and
stores no other. -/
theorem step_spoken (event : Event) (stored : world.signaling.Stored raws)
    (listed : ∀ pair ∈ world.acts event, pair.1 ∈ raws)
    (stepped : world.step config event = some after) :
    after.signaling.Stored raws ∧
      ∃ placed, after.sent = world.sent ++ placed ∧ ∀ text ∈ placed, text.2.Says raws := by
  have committed : ∀ (id : WsSink) {turn : Turn}, turn.Says raws →
      (world.commit id turn).signaling.Stored raws ∧ ∃ placed,
        (world.commit id turn).sent = world.sent ++ placed ∧ ∀ text ∈ placed, text.2.Says raws :=
    fun id turn spoken => ⟨spoken.stored, turn.sent, rfl, spoken.placed⟩
  cases stepped_of_step event stepped with
  | connected | shut | mediaEnded | routed =>
    exact ⟨stored, [], (List.append_nil _).symm, nothing_spoken⟩
  | heard id raw parsed auth rateOk =>
    exact committed id (Connection.receive_spoken stored raw parsed auth rateOk)
  | finished _ id connection sent present idle texts =>
    refine committed id ⟨?_, stored⟩
    rcases texts with rfl | rfl
    · exact nothing_spoken
    · exact serialised_spoken id _
  | advanced id answer connection turn present taken =>
    refine committed id (Connection.advance_spoken stored taken ?_)
    simpa [acts, present] using listed

end World

namespace Task

variable (rtc : Rtc) (task : Task)

/-- A drain in which a bitrate estimate is reported once the last notice is two
seconds old. -/
def notifies (events : List RtcEvent) : Prop :=
  2 * 1000000000 ≤ rtc.now - task.lastBweNotify ∧
    ∃ bps, RtcEvent.egressBitrateEstimate bps ∈ events

/-- These drains are the ones that put a notice out. The induction is on the events
and the first estimate that is due decides. -/
theorem drainEvents_notice (events : List RtcEvent) :
    (∃ bps, Output.ws (.bweUpdate bps) ∈ (drainEvents rtc task events).2) ↔
      task.notifies rtc events := by
  induction events generalizing task with
  | nil => simp [drainEvents, traced, notifies]
  | cons event rest inductionHypothesis =>
    have outputs : (drainEvents rtc task (event :: rest)).2 =
        (task.drainEvent rtc event).2 ++ (drainEvents rtc (task.drainEvent rtc event).1 rest).2 :=
      rfl
    simp only [outputs, List.mem_append, exists_or, inductionHypothesis]
    cases event with
    | egressBitrateEstimate bps =>
      by_cases due : 2 * 1000000000 ≤ rtc.now - task.lastBweNotify
      · simp [drainEvent, due, notifies]
      · simp [drainEvent, due, notifies]
    | rtpPacket packet =>
      simp only [drainEvent, receivePacket]
      split <;> simp [notifies]
    | keyframeRequest => simp [drainEvent, requestAllKeyframes, notifies]
    | connected | iceRestarted | mediaAdded => simp [drainEvent, notifies]

/-- Starting to forward puts no notice out. -/
theorem drainOutputs_notice (events : List RtcEvent) :
    (∃ bps, Output.ws (.bweUpdate bps) ∈ (task.drainOutputs rtc events).2) ↔
      task.notifies rtc events := by
  rw [← drainEvents_notice]
  constructor
  · rintro ⟨bps, member⟩
    rcases List.mem_append.mp member with drained | started
    · exact ⟨bps, drained⟩
    · unfold startMedia at started
      split at started
      · rcases List.mem_append.mp started with own | others
        · exact absurd (requestOwn_plain rtc _ _ own) (by simp [Output.plain])
        · exact absurd (requestAllKeyframes_plain rtc _ _ others) (by simp [Output.plain])
      · cases started
  · rintro ⟨bps, member⟩
    exact ⟨bps, List.mem_append_left _ member⟩

end Task

/-- The text an output places on its task's sink. -/
def Output.frame : Output → Option Frame
  | .ws frame => some frame
  | _ => none

namespace Service

variable {config : Config} {service after : Service} {raws : List String}

/-- What an event acts on. -/
def acts (service : Service) : ServiceEvent → List (String × SdpMessage)
  | .engine event _ => service.world.acts event
  | _ => []

/-- A media task drains a bitrate estimate once its last notice is two seconds old. -/
def Notifies (service : Service) : ServiceEvent → Prop
  | .drains channel rtc events => ∃ process, service.processes.lookup channel = some process ∧
      process.task.notifies rtc events
  | _ => False

/-- A media task places its texts in order on its own sink. -/
theorem performAll_sent (media : MediaTask) (service : Service) (outputs : List Output) :
    (performAll media service outputs).world.sent =
      service.world.sent ++
        (outputs.filterMap Output.frame).map fun frame => (media.wsTx, frame) := by
  induction outputs generalizing service with
  | nil => simp [performAll]
  | cons output rest inductionHypothesis =>
    change (performAll media (perform media service output) rest).world.sent = _
    rw [inductionHypothesis]
    cases output <;> simp [perform, send, Output.frame, List.filterMap_cons]

/-- A step places texts of the protocol and bitrate notices, and notices only when a
media task drains an estimate that is due. -/
theorem step_spoken (event : ServiceEvent) (stored : service.world.signaling.Stored raws)
    (listed : ∀ pair ∈ service.acts event, pair.1 ∈ raws)
    (stepped : service.step config event = some after) :
    after.world.signaling.Stored raws ∧
      ∃ placed, after.world.sent = service.world.sent ++ placed ∧
        (∀ text ∈ placed, text.2.Says raws ∨ ∃ bps, text.2 = .bweUpdate bps) ∧
        ((∃ text ∈ placed, ∃ bps, text.2 = .bweUpdate bps) ↔ service.Notifies event) := by
  have silent : ∀ {placed : List Sent}, (∀ text ∈ placed, text.2.Says raws) →
      (∀ text ∈ placed, text.2.Says raws ∨ ∃ bps, text.2 = .bweUpdate bps) ∧
        ((∃ text ∈ placed, ∃ bps, text.2 = .bweUpdate bps) ↔ False) := by
    intro placed spoken
    refine ⟨fun text member => .inl (spoken text member), iff_of_false ?_ not_false⟩
    rintro ⟨text, member, bps, same⟩
    have said := spoken text member
    rw [same] at said
    exact said
  have unchanged : ∀ {later : World}, later.signaling = service.world.signaling →
      later.sent = service.world.sent → later.signaling.Stored raws ∧
        ∃ placed, later.sent = service.world.sent ++ placed ∧
          (∀ text ∈ placed, text.2.Says raws ∨ ∃ bps, text.2 = .bweUpdate bps) ∧
          ((∃ text ∈ placed, ∃ bps, text.2 = .bweUpdate bps) ↔ False) := by
    intro later signaling sent
    exact ⟨signaling ▸ stored, [], by rw [sent, List.append_nil], silent nothing_spoken⟩
  cases event with
  | engine event launch =>
    simp only [step] at stepped
    split at stepped
    · cases stepped
    · obtain ⟨world, moved, rfl⟩ := Option.map_eq_some_iff.mp stepped
      obtain ⟨kept, placed, sent, spoken⟩ := service.world.step_spoken event stored listed moved
      exact ⟨kept, placed, sent, silent spoken⟩
  | takes channel rtc =>
    simp only [step] at stepped
    split at stepped
    · rename_i process cmd rest present waiting
      cases stepped
      have performed := performAll_spec process.media
        { service with
          processes := service.processes.insert channel
            { process with task := (process.task.handle (service.told process rtc) cmd).1 }
          queues := service.queues.insert channel rest }
        (process.task.handle (service.told process rtc) cmd).2
      obtain ⟨posted, performed⟩ := performed
      refine ⟨?_, _, performAll_sent _ _ _, silent ?_⟩
      · exact performed.signaling ▸ stored
      · intro text placed
        obtain ⟨frame, member, rfl⟩ := List.mem_map.mp placed
        obtain ⟨output, put, framed⟩ := List.mem_filterMap.mp member
        rcases process.task.handle_outputs (service.told process rtc) cmd output put with
          plain | ⟨_, _, _, rfl, _⟩ | ⟨_, _, _, _, rfl⟩ | ⟨_, rfl⟩
        · cases output <;> simp [Output.frame, Output.plain] at framed plain
        · cases framed
        · cases framed
          trivial
        · cases framed
          trivial
    · cases stepped
  | drains channel rtc events =>
    obtain ⟨process, present, rfl⟩ := Option.map_eq_some_iff.mp stepped
    obtain ⟨posted, performed⟩ := performAll_spec process.media
      { service with
        processes := service.processes.insert channel
          { process with
            task := (process.task.drainOutputs (service.told process rtc) events).1 } }
      (process.task.drainOutputs (service.told process rtc) events).2
    refine ⟨performed.signaling ▸ stored, _, performAll_sent _ _ _, ?_, ?_⟩
    · intro text placed
      obtain ⟨frame, member, rfl⟩ := List.mem_map.mp placed
      obtain ⟨output, put, framed⟩ := List.mem_filterMap.mp member
      rcases process.task.drainOutputs_outputs (service.told process rtc) events output put with
        plain | ⟨bps, rfl⟩ | ⟨packet, _, received⟩
      · cases output <;> simp [Output.frame, Output.plain] at framed plain
      · cases framed
        exact .inr ⟨bps, rfl⟩
      · simp only [Task.receivePacket] at received
        split at received
        · cases received
        · cases List.mem_singleton.mp received
          cases framed
    · have due := process.task.drainOutputs_notice (service.told process rtc) events
      constructor
      · rintro ⟨text, placed, bps, same⟩
        obtain ⟨frame, member, rfl⟩ := List.mem_map.mp placed
        obtain ⟨output, put, framed⟩ := List.mem_filterMap.mp member
        refine ⟨process, present, due.mp ⟨bps, ?_⟩⟩
        cases output with
        | ws frame' =>
          cases framed
          exact (show frame = .bweUpdate bps from same) ▸ put
        | _ => cases framed
      · rintro ⟨other, running, notifies⟩
        cases running.symm.trans present
        obtain ⟨bps, put⟩ := due.mpr notifies
        exact ⟨(process.media.wsTx, .bweUpdate bps),
          List.mem_map.mpr ⟨_, List.mem_filterMap.mpr ⟨_, put, rfl⟩, rfl⟩, bps, rfl⟩
  | ends channel =>
    obtain ⟨process, _, rfl⟩ := Option.map_eq_some_iff.mp stepped
    exact unchanged rfl rfl
  | arrives data source =>
    simp only [step] at stepped
    split at stepped
    · cases stepped
    · cases stepped
      exact unchanged rfl rfl
  | reads =>
    obtain ⟨_, _, rfl⟩ := Option.map_eq_some_iff.mp stepped
    exact unchanged rfl rfl

/-- Every step keeps the messages in handling to their texts. -/
theorem reading_step {parse : String → Option SdpMessage} (event : ServiceEvent)
    (reading : service.world.Reading parse)
    (read : ∀ engineEvent launch, event = .engine engineEvent launch → engineEvent.readBy parse)
    (stepped : service.step config event = some after) : after.world.Reading parse := by
  have kept : ∀ {later : Service}, later.world.connections = service.world.connections →
      later.world.Reading parse := by
    intro later same id connection present
    exact reading id connection (same ▸ present)
  cases event with
  | engine event launch =>
    simp only [step] at stepped
    split at stepped
    · cases stepped
    · obtain ⟨world, moved, rfl⟩ := Option.map_eq_some_iff.mp stepped
      exact World.reading_step event reading (read event launch rfl) moved
  | takes channel rtc =>
    cases step_taken stepped with
    | took _ _ process cmd rest posted _ present waiting performed =>
      exact kept performed.connections
  | drains channel rtc events =>
    cases step_taken stepped with
    | drained _ _ _ process posted _ present performed => exact kept performed.connections
  | ends channel =>
    cases step_taken stepped
    exact kept rfl
  | arrives data source =>
    cases step_taken stepped
    exact kept rfl
  | reads =>
    cases step_taken stepped
    exact kept rfl

end Service

end Seameet
