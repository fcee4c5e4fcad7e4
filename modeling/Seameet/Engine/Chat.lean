import Seameet.Engine.History

/-!
# Chat

Whoever joins a room is given what was accepted before, as far as the history
reaches back, and every message accepted after, in the order in which the
messages took the lock. What a room has accepted since it was made is observed
along a run, and every text is read as it parses.
-/

namespace Seameet

open Library

/-- The chat message of a room that a step accepts. -/
def World.accepts (world : World) (roomId : RoomId) : Event → List String
  | .advance id _ =>
      ((world.connections.lookup id).map fun connection =>
        world.signaling.acceptedAt roomId connection.point).getD []
  | _ => []

/-- Only a section of a task accepts a message. -/
theorem World.accepts_still (world : World) (roomId : RoomId) {event : Event}
    (still : ∀ id answer, event ≠ .advance id answer) : world.accepts roomId event = [] := by
  cases event with
  | advance id answer => exact absurd rfl (still id answer)
  | connect | receive | hangUp | deadline | writerEnds | mediaEnds | routed => rfl

/-- A text is read as it parses. -/
def Event.readBy (parse : String → Option SdpMessage) : Event → Prop
  | .receive _ raw parsed _ _ => parsed = parse raw
  | _ => True

instance (parse : String → Option SdpMessage) : DecidablePred (Event.readBy parse) := fun event => by
  cases event <;> unfold Event.readBy <;> infer_instance

/-- The server with what each of its rooms has accepted since it was made. -/
structure Observed where
  world : World
  accepted : RoomId → List String

namespace Observed

/-- A server without rooms. -/
def new (e2eeRequired : Bool) : Observed := { world := .new e2eeRequired, accepted := fun _ => [] }

/-- A step of the server; a room that is gone is forgotten. -/
def step (config : Config) (observed : Observed) (event : Event) : Option Observed :=
  (observed.world.step config event).map fun world =>
    { world
      accepted := fun roomId =>
        if world.signaling.hasRoom roomId then
          observed.accepted roomId ++ observed.world.accepts roomId event
        else [] }

/-- Every text is read as it parses. -/
def reading (parse : String → Option SdpMessage) (_ : Observed) (event : Event) : Prop :=
  event.readBy parse

instance (parse : String → Option SdpMessage) : DecidableRel (reading parse) := fun _ event =>
  inferInstanceAs (Decidable (event.readBy parse))

end Observed

namespace World

/-- Every message in handling is what its text parses as. -/
def Reading (parse : String → Option SdpMessage) (world : World) : Prop :=
  ∀ id connection, world.connections.lookup id = some connection → connection.point.Reads parse

/-- Whoever is seated was admitted on the connection of its seat. -/
def Admitted (world : World) : Prop :=
  ∀ roomId participant sink, world.signaling.seat roomId participant = some sink →
    .joined sink participant roomId ∈ world.deeds

/-- No connection has joined a room under two participant ids. -/
def OneIdentity (world : World) : Prop :=
  ∀ sink roomId first second, .joined sink first roomId ∈ world.deeds →
    .joined sink second roomId ∈ world.deeds → first = second

variable {parse : String → Option SdpMessage} {config : Config} {world after : World}

/-- Every step keeps the messages in handling to their texts. -/
theorem reading_step (event : Event) (reading : world.Reading parse) (read : event.readBy parse)
    (stepped : world.step config event = some after) : after.Reading parse := by
  have committed : ∀ {id : WsSink} {turn : Turn}, turn.connection.point.Reads parse →
      (world.commit id turn).Reading parse := by
    intro id turn reads tested connection present
    rw [lookup_commit] at present
    split at present
    · cases present
      exact reads
    · exact reading tested connection present
  cases stepped_of_step event stepped with
  | connected =>
    intro id connection present
    rw [Table.lookup_insert_eq] at present
    split at present
    · cases present
      trivial
    · exact reading id connection present
  | heard id raw parsed auth rateOk connection present idle =>
    apply committed
    rcases connection.receive_point idle raw parsed auth rateOk with
      same | ⟨_, ended | ⟨request, on⟩⟩ | ⟨message, pid, known, _, started⟩
    · rw [same]
      trivial
    · rw [ended]
      trivial
    · rw [on]
      trivial
    · rw [started]
      cases join : message.joinRequest with
      | some request =>
        rw [config.start_join message raw join]
        trivial
      | none =>
        rw [config.start_handling message raw join]
        exact read.symm.trans known
  | finished _ id connection sent present idle =>
    apply committed
    change connection.finish.point.Reads parse
    unfold Connection.finish
    split <;> trivial
  | advanced id answer connection turn present taken =>
    apply committed
    have reads := reading id connection present
    unfold Connection.advance at taken
    split at taken <;> cases taken
    · unfold Connection.precheckSection
      split <;> trivial
    · trivial
    · rename_i first request stage pid point bound
      cases stage <;> trivial
    · rename_i handled stage pid point bound
      obtain ⟨next, moved, whither⟩ :=
        @Connection.hookSection_goto config world id connection pid handled answer stage
      rw [moved]
      rcases whither with rfl | ⟨later, rfl, _⟩
      · trivial
      · rwa [point] at reads
    · rename_i stage pid point bound
      rcases connection.leaveSection_point config world id pid stage with ended | ⟨next, on⟩
      · rw [ended]
        trivial
      · rw [on]
        trivial
  | shut | mediaEnded | routed => exact reading

/-- What is recorded stays on record. -/
theorem deeds_step (event : Event) (stepped : world.step config event = some after) {deed : Deed}
    (past : deed ∈ world.deeds) : deed ∈ after.deeds := by
  cases stepped_of_step event stepped with
  | connected | shut | mediaEnded | routed => exact past
  | heard id | finished _ id | advanced id => exact world.mem_deeds_commit id _ past

/-- Every step keeps the seats with those admitted. -/
theorem admitted_step (event : Event) (admitted : world.Admitted)
    (stepped : world.step config event = some after) : after.Admitted := by
  have committed : ∀ {id : WsSink} {turn : Turn},
      (∀ roomId participant sink, turn.signaling.seat roomId participant = some sink →
        world.signaling.seat roomId participant = some sink ∨
          turn.deed = some (.joined sink participant roomId)) → (world.commit id turn).Admitted := by
    intro id turn each roomId participant sink seated
    rcases each roomId participant sink seated with before | now
    · exact world.mem_deeds_commit id turn (admitted roomId participant sink before)
    · change _ ∈ turn.deed.toList ++ world.deeds
      rw [now]
      exact List.mem_cons_self
  have kept : ∀ {id : WsSink} {turn : Turn}, turn.signaling = world.signaling →
      (world.commit id turn).Admitted := by
    intro id turn signaling
    apply committed
    intro roomId participant sink seated
    rw [signaling] at seated
    exact .inl seated
  cases world.step_outcome config after event stepped with
  | connected | writerEnded | mediaEnded | routed => exact admitted
  | arrived _ id connection turn present arrival =>
    cases arrival with
    | works _ _ _ _ _ signaling | accepts _ _ _ _ _ signaling | ends _ _ _ _ signaling
    | hangsUp _ _ _ _ _ signaling => exact kept signaling
    | joins => exact kept rfl
  | advanced id _ connection turn present taken =>
    cases taken with
    | works _ _ _ _ _ signaling =>
      apply committed
      intro roomId participant sink seated
      rw [signaling.seat] at seated
      exact .inl seated
    | registers request => exact committed fun _ _ _ seated => .inl seated
    | joins pid first request stage =>
      apply committed
      intro roomId participant sink seated
      cases stage with
      | prune => exact .inl (world.seat_of_pruned seated)
      | dispatch =>
        cases admits : Connection.admits config world request.roomId with
        | true =>
          obtain ⟨signaling, deed⟩ :=
            connection.joinSection_admitted config world id pid first request admits
          rw [signaling, SignalingState.seat_join] at seated
          split at seated
          · rename_i here
            right
            rw [deed, here.1, here.2, Option.some.inj seated]
          · exact .inl (world.seat_of_pruned seated)
        | false =>
          rw [(connection.joinSection_refused config world id pid first request admits).1] at seated
          exact .inl (world.seat_of_pruned seated)
      | notifyPruned | notifyRejoin | ensureRoom | storeSession | announceCount => exact .inl seated
    | parts _ participant roomId _ _ _ _ signaling =>
      apply committed
      intro tested other sink seated
      rw [signaling, SignalingState.seat_leave] at seated
      split at seated
      · simp at seated
      · exact .inl seated
    | offers _ _ _ _ _ _ _ _ signaling => exact kept signaling
    | leaves pid stage =>
      apply committed
      intro roomId participant sink seated
      rw [(connection.leaveSection_frame config world id pid stage).2] at seated
      cases stage with
      | disconnect => exact .inl (world.signaling.seat_of_disconnect pid participant roomId seated)
      | _ => exact .inl seated

end World

/-- What a room stores and what it has accepted agree. -/
structure Recalls (parse : String → Option SdpMessage) (config : Config) (roomId : RoomId)
    (history : Option (List String)) (accepted : List String) : Prop where
  stored : ∀ texts, history = some texts → texts = keepLast config.maxChatHistory accepted
  unmade : history = none → accepted = []
  chat : ∀ raw ∈ accepted, chatRoomOf parse raw = some roomId

/-- Every room recalls what it has accepted. -/
def Observed.Faithful (parse : String → Option SdpMessage) (config : Config)
    (observed : Observed) : Prop :=
  ∀ roomId, Recalls parse config roomId (observed.world.signaling.history roomId)
    (observed.accepted roomId)

namespace Observed

variable {parse : String → Option SdpMessage} {config : Config} {observed after : Observed}

/-- What a step does to the chat of every room. -/
inductive Chatted (parse : String → Option SdpMessage) (config : Config) (observed : Observed) :
    Observed → Prop
  /-- A section of a connection's task. -/
  | turned (id : WsSink) (turn : Turn) (after : Observed)
      (world : after.world = observed.world.commit id turn)
      (each : ∀ roomId, ∃ accepted,
        Chatting parse config observed.world id accepted turn roomId ∧
        after.accepted roomId = if turn.signaling.hasRoom roomId then
          observed.accepted roomId ++ accepted else []) :
      Chatted parse config observed after
  /-- The chat is no part of the step. -/
  | aside (after : Observed) (signaling : after.world.signaling = observed.world.signaling)
      (sent : after.world.sent = observed.world.sent)
      (deeds : after.world.deeds = observed.world.deeds)
      (accepted : ∀ roomId, after.accepted roomId = if observed.world.signaling.hasRoom roomId then
        observed.accepted roomId else []) :
      Chatted parse config observed after

/-- What a room stores was accepted. -/
theorem Faithful.stored (faithful : observed.Faithful parse config) (roomId : RoomId) :
    ∀ raw ∈ (observed.world.signaling.history roomId).getD [],
      chatRoomOf parse raw = some roomId := by
  intro raw listed
  cases history : observed.world.signaling.history roomId with
  | none => simp [history] at listed
  | some texts =>
    rw [history, Option.getD_some, (faithful roomId).stored texts history, keepLast] at listed
    apply (faithful roomId).chat raw
    split at listed
    · exact listed
    · exact List.mem_of_mem_drop listed

/-- Every step is one of these. -/
theorem step_chatted (faithful : observed.Faithful parse config)
    (reading : observed.world.Reading parse) (event : Event)
    (stepped : observed.step config event = some after) : Chatted parse config observed after := by
  obtain ⟨world, moved, rfl⟩ := Option.map_eq_some_iff.mp stepped
  have aside : ∀ {world : World}, world.signaling = observed.world.signaling →
      world.sent = observed.world.sent → world.deeds = observed.world.deeds →
      (∀ id answer, event ≠ .advance id answer) →
        Chatted parse config observed
          { world
            accepted := fun roomId =>
              if world.signaling.hasRoom roomId then
                observed.accepted roomId ++ observed.world.accepts roomId event
              else [] } := by
    intro world signaling sent deeds still
    refine .aside _ signaling sent deeds ?_
    intro roomId
    change (if world.signaling.hasRoom roomId then
      observed.accepted roomId ++ observed.world.accepts roomId event else []) = _
    rw [observed.world.accepts_still roomId still, List.append_nil, signaling]
  have texts : ∀ {id : WsSink} {turn : Turn},
      turn.signaling = observed.world.signaling → (∀ text ∈ turn.sent, text.2.ofHooks = true) →
      (∀ sink participant roomId, turn.deed ≠ some (.joined sink participant roomId)) →
      (∀ id answer, event ≠ .advance id answer) → ∀ roomId, ∃ accepted,
        Chatting parse config observed.world id accepted turn roomId ∧
        (if turn.signaling.hasRoom roomId then
          observed.accepted roomId ++ observed.world.accepts roomId event else []) =
        if turn.signaling.hasRoom roomId then observed.accepted roomId ++ accepted else [] := by
    intro id turn signaling hooks unjoined still roomId
    refine ⟨[], .quiet rfl (.inl (by rw [signaling])) (fun sink => chats_ofHooks roomId sink hooks)
      fun sink participant => unjoined sink participant roomId, ?_⟩
    rw [observed.world.accepts_still roomId still]
  cases World.stepped_of_step event moved with
  | connected => exact aside rfl rfl rfl (by simp)
  | heard id raw parsed auth rateOk connection present idle =>
    obtain ⟨signaling, hooks, unjoined⟩ :=
      @Connection.receive_texts config observed.world id connection raw parsed auth rateOk
    exact .turned id _ _ rfl (texts signaling hooks unjoined (by simp))
  | finished _ id connection sent present idle errors still =>
    refine .turned id _ _ rfl (texts rfl ?_ ?_ still)
    · rcases errors with rfl | rfl <;> simp [Frame.ofHooks]
    · exact fun _ _ _ deed => by cases deed
  | advanced id answer connection turn present taken =>
    refine .turned id turn _ rfl fun roomId => ⟨_, ?_, rfl⟩
    have accepts : observed.world.accepts roomId (.advance id answer) =
        observed.world.signaling.acceptedAt roomId connection.point := by
      rw [World.accepts, present, Option.map_some, Option.getD_some]
    rw [accepts]
    have reads := reading id connection present
    unfold Connection.advance at taken
    split at taken <;> cases taken
    · rename_i request point bound
      rw [point]
      unfold Connection.precheckSection
      split
      · refine .quiet rfl (.inl rfl) (fun sink => chats_ofHooks roomId sink ?_) ?_
        · simp [SignalingState.roomIsFull, Frame.ofHooks]
        · exact fun _ _ deed => by cases deed
      · exact .quiet rfl (.inl rfl) (fun _ => rfl) fun _ _ deed => by cases deed
    · rename_i request point bound
      rw [point]
      exact .quiet rfl (.inl rfl) (fun _ => rfl) fun _ _ deed => by cases deed
    · rename_i first request stage pid point bound
      rw [point]
      exact Connection.joinSection_chatting pid first request stage roomId faithful.stored
    · rename_i handled stage pid point bound
      rw [point] at reads ⊢
      exact Connection.hookSection_chatting pid handled answer stage reads roomId
    · rename_i stage pid point bound
      rw [point]
      exact Connection.leaveSection_chatting pid stage roomId
  | shut | mediaEnded | routed => exact aside rfl rfl rfl (by simp)

/-- A section of a task keeps a room's history with what the room accepts. -/
theorem recalls_turned {id : WsSink} {accepted : List String} {turn : Turn} {roomId : RoomId}
    (recalls : Recalls parse config roomId (observed.world.signaling.history roomId)
      (observed.accepted roomId))
    (chatting : Chatting parse config observed.world id accepted turn roomId) :
    Recalls parse config roomId (turn.signaling.history roomId)
      (if turn.signaling.hasRoom roomId then observed.accepted roomId ++ accepted else []) := by
  rw [SignalingState.hasRoom_eq_history]
  cases chatting with
  | quiet nothing history =>
    rw [nothing, List.append_nil]
    rcases history with same | gone
    · rw [same]
      cases before : observed.world.signaling.history roomId with
      | none => exact ⟨by simp, by simp, by simp⟩
      | some texts => rwa [before] at recalls
    · rw [gone]
      exact ⟨by simp, by simp, by simp⟩
  | handed nothing participant deed seated history =>
    rw [nothing, List.append_nil, history, Option.isSome_some, if_pos rfl]
    refine ⟨?_, by simp, recalls.chat⟩
    intro texts same
    cases before : observed.world.signaling.history roomId with
    | none =>
      rw [before, Option.getD_none] at same
      rw [recalls.unmade before, ← Option.some.inj same]
      simp [keepLast]
    | some earlier =>
      rw [before, Option.getD_some] at same
      rw [← Option.some.inj same]
      exact recalls.stored earlier before
  | taken raw one chat room stored history =>
    rw [one, history, Option.isSome_some, if_pos rfl]
    refine ⟨?_, by simp, ?_⟩
    · intro texts same
      rw [← Option.some.inj same]
      refine history_pushed (recalls.stored _ ?_) raw
      rw [SignalingState.history, stored, Option.map_some]
    · intro text listed
      rcases List.mem_append.mp listed with before | now
      · exact recalls.chat text before
      · rwa [List.mem_singleton.mp now]

/-- Every step keeps the history with what is accepted. -/
theorem faithful_step (faithful : observed.Faithful parse config)
    (reading : observed.world.Reading parse) (event : Event)
    (stepped : observed.step config event = some after) : after.Faithful parse config := by
  cases step_chatted faithful reading event stepped with
  | turned id turn _ world each =>
    intro roomId
    obtain ⟨accepted, chatting, now⟩ := each roomId
    rw [now, world]
    exact recalls_turned (faithful roomId) chatting
  | aside _ signaling sent deeds accepted =>
    intro roomId
    have recalls := faithful roomId
    rw [signaling, accepted, SignalingState.hasRoom_eq_history]
    cases before : observed.world.signaling.history roomId with
    | none => exact ⟨by simp, by simp, by simp⟩
    | some texts => rwa [before] at recalls

/-- What is known of every state of a run whose texts are read as they parse. -/
structure Sound (parse : String → Option SdpMessage) (config : Config) (observed : Observed) :
    Prop where
  faithful : observed.Faithful parse config
  reading : observed.world.Reading parse
  admitted : observed.world.Admitted

/-- Every step keeps it so. -/
theorem Sound.step (sound : observed.Sound parse config) (event : Event)
    (read : event.readBy parse) (stepped : observed.step config event = some after) :
    after.Sound parse config := by
  have faithful := faithful_step sound.faithful sound.reading event stepped
  obtain ⟨world, moved, rfl⟩ := Option.map_eq_some_iff.mp stepped
  exact ⟨faithful, World.reading_step event sound.reading read moved,
    World.admitted_step event sound.admitted moved⟩

/-- In every state of a run it is so. -/
theorem sound_of_reaches {e2eeRequired : Bool}
    (reached : Reaches (step config) (reading parse) (new e2eeRequired) observed) :
    observed.Sound parse config := by
  apply reached.invariant (Sound parse config)
  · refine ⟨fun roomId => ⟨?_, fun _ => rfl, by simp [new]⟩, ?_, ?_⟩
    · intro texts stored
      simp [new, World.new, SignalingState.new, SignalingState.history] at stored
    · intro id connection present
      simp [new, World.new] at present
    · intro roomId participant sink seated
      simp [new, World.new, SignalingState.new, SignalingState.seat, SignalingState.member] at seated
  · exact fun _ event _ sound read stepped => sound.step event read stepped

/-- How often a participant has joined a room. -/
def joins (observed : Observed) (participant : ParticipantId) (roomId : RoomId) : Nat :=
  observed.world.deeds.countP fun deed =>
    match deed with
    | .joined _ other room => decide (other = participant ∧ room = roomId)
    | _ => false

/-- Every text is read as it parses, and the participant stays in the room on the
sink: it neither leaves it, nor is pruned, nor joins it again. -/
def staying (parse : String → Option SdpMessage) (config : Config) (sink : WsSink)
    (participant : ParticipantId) (roomId : RoomId) (observed : Observed) (event : Event) : Prop :=
  event.readBy parse ∧
    match observed.step config event with
    | some after => after.world.signaling.seat roomId participant = some sink ∧
        after.joins participant roomId = observed.joins participant roomId
    | none => True

instance (parse : String → Option SdpMessage) (config : Config) (sink : WsSink)
    (participant : ParticipantId) (roomId : RoomId) :
    DecidableRel (staying parse config sink participant roomId) := fun observed event => by
  unfold staying
  cases observed.step config event <;> infer_instance

/-- Since it joined, a member has been handed the history and every message accepted. -/
structure Told (parse : String → Option SdpMessage) (config : Config) (sink : WsSink)
    (participant : ParticipantId) (roomId : RoomId) (before observed : Observed) : Prop where
  sound : observed.Sound parse config
  seated : observed.world.signaling.seat roomId participant = some sink
  told : ∃ later placed, observed.accepted roomId = before.accepted roomId ++ later ∧
    observed.world.sent = before.world.sent ++ placed ∧
    chats parse roomId sink placed =
      keepLast config.maxChatHistory (before.accepted roomId) ++ later

/-- Who is seated in a room is a member of it. -/
theorem hasRoom_of_seat {state : SignalingState} {roomId : RoomId} {participant : ParticipantId}
    {sink : WsSink} (seated : state.seat roomId participant = some sink) :
    state.hasRoom roomId = true := by
  obtain ⟨member, found, _⟩ := Option.map_eq_some_iff.mp seated
  obtain ⟨room, stored, _⟩ := Option.bind_eq_some_iff.mp found
  rw [SignalingState.hasRoom, stored, Option.isSome_some]

/-- A member that joins is handed the history. -/
theorem told_start {sink : WsSink} {participant : ParticipantId} {roomId : RoomId} {event : Event}
    (sound : observed.Sound parse config) (read : event.readBy parse)
    (stepped : observed.step config event = some after)
    (joined : after.world.deeds = .joined sink participant roomId :: observed.world.deeds) :
    Told parse config sink participant roomId observed after := by
  have next := sound.step event read stepped
  cases step_chatted sound.faithful sound.reading event stepped with
  | aside _ signaling sent deeds accepted =>
    rw [deeds] at joined
    exact absurd joined (List.cons_ne_self _ _).symm
  | turned id turn _ world each =>
    have deed : turn.deed = some (.joined sink participant roomId) := by
      rw [world] at joined
      change turn.deed.toList ++ observed.world.deeds = _ at joined
      cases found : turn.deed with
      | none =>
        rw [found] at joined
        exact absurd joined (List.cons_ne_self _ _).symm
      | some deed =>
        rw [found] at joined
        exact congrArg some (List.cons.inj joined).1
    obtain ⟨accepted, chatting, now⟩ := each roomId
    cases chatting with
    | quiet _ _ _ unjoined => exact absurd deed (unjoined sink participant)
    | taken _ _ _ _ _ _ _ unjoined => exact absurd deed (unjoined sink participant)
    | handed nothing other named seated history told =>
      cases named.symm.trans deed
      refine ⟨next, by rw [world]; exact seated, [], turn.sent, ?_, by rw [world]; rfl, ?_⟩
      · rw [now, nothing, SignalingState.hasRoom_eq_history, history, Option.isSome_some, if_pos rfl]
      · rw [told, if_pos rfl, List.append_nil]
        cases before : observed.world.signaling.history roomId with
        | none =>
          rw [(sound.faithful roomId).unmade before]
          simp [keepLast]
        | some texts => exact (sound.faithful roomId).stored texts before

/-- A member that stays is told every message as it is accepted, once. -/
theorem told_step {before : Observed} {sink : WsSink} {participant : ParticipantId}
    {roomId : RoomId} {event : Event}
    (told : Told parse config sink participant roomId before observed)
    (stays : staying parse config sink participant roomId observed event)
    (stepped : observed.step config event = some after) (oneIdentity : after.world.OneIdentity) :
    Told parse config sink participant roomId before after := by
  obtain ⟨later, placed, accepted, sent, chat⟩ := told.told
  obtain ⟨read, stays⟩ := stays
  rw [stepped] at stays
  obtain ⟨seated, again⟩ := stays
  have next := told.sound.step event read stepped
  have present := hasRoom_of_seat seated
  cases step_chatted told.sound.faithful told.sound.reading event stepped with
  | aside _ signaling same deeds now =>
    rw [signaling] at present
    refine ⟨next, seated, later, placed, ?_, same.trans sent, chat⟩
    rw [now, if_pos present, accepted]
  | turned id turn _ world each =>
    have signaling : after.world.signaling = turn.signaling := by rw [world]; rfl
    have more : after.world.sent = before.world.sent ++ (placed ++ turn.sent) := by
      rw [world, ← List.append_assoc, ← sent]
      rfl
    obtain ⟨taken, chatting, now⟩ := each roomId
    rw [signaling] at present
    rw [if_pos present, accepted] at now
    -- A message that is placed as often as it is accepted.
    have told_more : chats parse roomId sink turn.sent = taken →
        Told parse config sink participant roomId before after := by
      intro same
      refine ⟨next, seated, later ++ taken, placed ++ turn.sent, ?_, more, ?_⟩
      · rw [now, List.append_assoc]
      · rw [chats_append, chat, same, List.append_assoc]
    cases chatting with
    | quiet nothing history silent => exact told_more (by rw [silent, nothing])
    | handed nothing other deed _ history handed =>
      have apart : sink ≠ id := by
        rintro rfl
        have deeds : after.world.deeds = .joined sink other roomId :: observed.world.deeds := by
          rw [world]
          change turn.deed.toList ++ _ = _
          rw [deed]
          rfl
        have own : other = participant := by
          apply oneIdentity sink roomId
          · rw [deeds]
            exact List.mem_cons_self
          · exact next.admitted roomId participant sink seated
        rw [joins, deeds, List.countP_cons, own] at again
        simp [joins] at again
      exact told_more (by rw [handed, if_neg apart, nothing])
    | taken raw one_ chat_ room stored history broadcast =>
      obtain ⟨member, found, rfl⟩ := Option.map_eq_some_iff.mp told.seated
      rw [SignalingState.member, stored, Option.bind_some] at found
      refine told_more ?_
      rw [broadcast, SignalingState.members_of_sink found, one_]
      · rfl
      · intro other present stands same
        have there : observed.world.signaling.seat roomId other = some member.sink := by
          rw [SignalingState.seat, SignalingState.member, stored, Option.bind_some, stands,
            Option.map_some, same]
        apply oneIdentity member.sink roomId
        · rw [world]
          exact World.mem_deeds_commit _ id turn (told.sound.admitted roomId other _ there)
        · exact next.admitted roomId participant _ seated

/-- From an admitted `Join` on, as long as the participant stays in the room on the
sink, the chat of the room on that sink is the end of what the room had accepted
before, as far as the history reaches back, and everything it has accepted since, in
order.

It is shown by induction on the stay. Each step that accepts a message for the room places
it on every member's sink, and no other step places a chat text of the room there. -/
theorem chat_delivered_once (config : Config) (parse : String → Option SdpMessage)
    (e2eeRequired : Bool) {before joined now : Observed} {event : Event} {sink : WsSink}
    {participant : ParticipantId} {roomId : RoomId}
    (reached : Reaches (Observed.step config) (Observed.reading parse) (.new e2eeRequired) before)
    (read : event.readBy parse) (stepped : before.step config event = some joined)
    (admitted : joined.world.deeds = .joined sink participant roomId :: before.world.deeds)
    (stayed : Reaches (Observed.step config)
      (Observed.staying parse config sink participant roomId) joined now)
    (oneIdentity : now.world.OneIdentity) :
    ∃ later placed, now.accepted roomId = before.accepted roomId ++ later ∧
      now.world.sent = before.world.sent ++ placed ∧
      chats parse roomId sink placed =
        keepLast config.maxChatHistory (before.accepted roomId) ++ later := by
  have told : Told parse config sink participant roomId before now := by
    induction stayed with
    | start => exact told_start (sound_of_reaches reached) read stepped admitted
    | next earlier admits moved inductionHypothesis =>
      obtain ⟨world, engine, rfl⟩ := Option.map_eq_some_iff.mp moved
      have sooner := inductionHypothesis fun target room first second one two =>
        oneIdentity target room first second (World.deeds_step _ engine one)
          (World.deeds_step _ engine two)
      exact told_step sooner admits moved oneIdentity
  exact told.told

/-- A room whose history has a place for one message: the second member is handed
the last message before its `Join` and told the one after. -/
theorem chat_delivered_once_pair :
    let config := { Config.sfuDefault with maxChatHistory := 1 }
    let chat : String → SdpMessage := fun raw => .chatMessage ⟨1⟩ "a" none raw 0 false none
    let parse : String → Option SdpMessage := fun raw =>
      if raw = "first" then some (.join ⟨1⟩ "a" none none)
      else if raw = "second" then some (.join ⟨2⟩ "a" none none)
      else some (chat raw)
    let hears : WsSink → String → Event := fun id raw => .receive id raw (parse raw) (.ok ()) true
    let speaks : String → List Event := fun raw => [hears 1 raw, .advance 1 none]
    let before := (walk (step config) (reading parse) (new false)
      ([.connect, .connect, hears 1 "first"] ++ Event.sections 1 9 ++ speaks "one" ++ speaks "two" ++
        [hears 2 "second"] ++ Event.sections 2 8)).getD (new false)
    let joined := (before.step config (.advance 2 none)).getD before
    let now := (walk (step config) (staying parse config 2 ⟨2⟩ "a") joined (speaks "three")).getD joined
    before.accepted "a" = ["one", "two"] ∧ now.accepted "a" = ["one", "two", "three"] ∧
      ∃ later placed, now.accepted "a" = before.accepted "a" ++ later ∧
        now.world.sent = before.world.sent ++ placed ∧
        chats parse "a" 2 placed = keepLast 1 (before.accepted "a") ++ later := by
  intro config chat parse hears speaks before joined now
  have reached : Reaches (step config) (reading parse) (new false) before :=
    walk_reaches_end _ _ _ _ (by decide +kernel)
  have stepped : (before.step config (.advance 2 none)).isSome = true := by decide +kernel
  have stayed : Reaches (step config) (staying parse config 2 ⟨2⟩ "a") joined now :=
    walk_reaches_end _ _ _ _ (by decide +kernel)
  have deeds : joined.world.deeds = .joined 2 ⟨2⟩ "a" :: before.world.deeds := by decide +kernel
  have all : now.world.deeds = [.joined 2 ⟨2⟩ "a", .registered 2 ⟨2⟩, .authenticated 2 ⟨2⟩ "a",
      .joined 1 ⟨1⟩ "a", .registered 1 ⟨1⟩, .authenticated 1 ⟨1⟩ "a"] := by decide +kernel
  have oneIdentity : now.world.OneIdentity := by
    intro sink roomId first second one two
    rw [all] at one two
    simp only [List.mem_cons, Deed.joined.injEq, reduceCtorEq, List.not_mem_nil, or_false,
      false_or] at one two
    rcases one with ⟨rfl, rfl, _⟩ | ⟨rfl, rfl, _⟩ <;> rcases two with ⟨_, rfl, _⟩ | ⟨_, rfl, _⟩ <;>
      simp_all
  have moved : before.step config (.advance 2 none) = some joined := by
    obtain ⟨after, same⟩ := Option.isSome_iff_exists.mp stepped
    simp only [joined, same, Option.getD_some]
  have read : (Event.advance 2 none).readBy parse := trivial
  exact ⟨by decide +kernel, by decide +kernel,
    chat_delivered_once config parse false reached read moved deeds stayed oneIdentity⟩

end Observed

end Seameet
