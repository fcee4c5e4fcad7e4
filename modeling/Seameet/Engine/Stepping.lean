import Seameet.Engine.Outcome

/-!
# Steps, one connection at a time

A step is something that arrives at the top of one connection's loop, the next
section of one connection's task, or none of the connections' business. Here
each step is said to be one of these, with what it leaves of the connection, so
that later results read off the section alone.

A message other than `Join` keeps to its handler: those the hooks leave to the
engine stand at the dispatch from the start, and no other ever gets there.
-/

namespace Seameet

open Library

/-- A step with what it is made of. -/
inductive Stepped (config : Config) (world : World) : Event → World → Prop
  | connected :
      Stepped config world .connect { world with
        connections := world.connections.insert world.nextConnection
          { participantId := none, e2eeDeadline := false, point := .idle }
        nextConnection := world.nextConnection + 1 }
  /-- A text is read at the top of a loop. -/
  | heard (id : WsSink) (raw : String) (parsed : Option SdpMessage) (auth : Except String Unit)
      (rateOk : Bool) (connection : Connection)
      (present : world.connections.lookup id = some connection) (idle : connection.point = .idle) :
      Stepped config world (.receive id raw parsed auth rateOk)
        (world.commit id (connection.receive config world id raw parsed auth rateOk))
  /-- A loop ends, with the error of the deadline or without. -/
  | finished (event : Event) (id : WsSink) (connection : Connection) (sent : List Sent)
      (present : world.connections.lookup id = some connection) (idle : connection.point = .idle)
      (texts : sent = [] ∨ sent = [(id, .serialised (.error 403 "e2ee_required"))])
      (still : ∀ id answer, event ≠ .advance id answer) :
      Stepped config world event (world.commit id { world.turn connection.finish with sent })
  | advanced (id : WsSink) (answer : Option String) (connection : Connection) (turn : Turn)
      (present : world.connections.lookup id = some connection)
      (taken : connection.advance config world id answer = some turn) :
      Stepped config world (.advance id answer) (world.commit id turn)
  /-- A sink is closed. -/
  | shut (id : WsSink) :
      Stepped config world (.writerEnds id) { world with closed := id :: world.closed }
  | mediaEnded (task : MediaTask) (running : task ∈ world.sfu.mediaTasks) :
      Stepped config world (.mediaEnds task) { world with sfu := world.sfu.endMediaTask task }
  /-- A media task is reached from an address. -/
  | routed (source : SocketAddr) (task : MediaTask) :
      Stepped config world (.routed source task)
        { world with sfu := world.sfu.addRoute source task.pid }

/-- A text the server builds that is no room's status. -/
def Frame.ofHooks : Frame → Bool
  | .serialised (.roomStatus _ _ _) => false
  | .serialised _ | .bweUpdate _ => true
  | .relayed _ => false

namespace World

variable {config : Config} {world after : World}

/-- A connection acts at the top of its loop only. -/
theorem whenIdle_eq_some {connection : Connection} {offered turn : Turn}
    (taken : whenIdle connection offered = some turn) :
    connection.point = .idle ∧ turn = offered := by
  unfold whenIdle at taken
  split at taken
  · rename_i idle
    exact ⟨idle, (Option.some.inj taken).symm⟩
  · simp at taken

/-- Every step is one of the listed ones. -/
theorem stepped_of_step (event : Event) (stepped : world.step config event = some after) :
    Stepped config world event after := by
  have split : ∀ {id : WsSink} {next : Connection → Option Turn},
      world.turned id next = some after → ∃ connection turn,
        world.connections.lookup id = some connection ∧ next connection = some turn ∧
          world.commit id turn = after := by
    intro id next taken
    simpa only [turned, Option.bind_eq_some_iff, Option.map_eq_some_iff, exists_and_left]
      using taken
  cases event with
  | connect => exact Option.some.inj stepped ▸ .connected
  | receive id raw parsed auth rateOk =>
    obtain ⟨connection, turn, present, taken, rfl⟩ := split stepped
    obtain ⟨idle, rfl⟩ := whenIdle_eq_some taken
    exact .heard id raw parsed auth rateOk connection present idle
  | advance id answer =>
    obtain ⟨connection, turn, present, taken, rfl⟩ := split stepped
    exact .advanced id answer connection turn present taken
  | hangUp id =>
    obtain ⟨connection, turn, present, taken, rfl⟩ := split stepped
    obtain ⟨idle, rfl⟩ := whenIdle_eq_some taken
    exact .finished _ id connection [] present idle (.inl rfl) (by simp)
  | deadline id =>
    obtain ⟨connection, turn, present, taken, rfl⟩ := split stepped
    split at taken
    · obtain ⟨idle, rfl⟩ := whenIdle_eq_some taken
      exact .finished _ id connection _ present idle (.inr rfl) (by simp)
    · simp at taken
  | writerEnds id =>
    obtain ⟨connection, _, rfl⟩ := Option.map_eq_some_iff.mp stepped
    exact .shut id
  | mediaEnds task =>
    simp only [step, Option.ite_none_right_eq_some, Option.some.injEq] at stepped
    exact stepped.2 ▸ .mediaEnded task stepped.1
  | routed source task =>
    simp only [step, Option.ite_none_right_eq_some, Option.some.injEq] at stepped
    exact stepped.2 ▸ .routed source task

end World

namespace Connection

variable {config : Config} {world : World} {id : WsSink} {connection : Connection}

/-- The end of a loop leaves no open connection, bound as before. -/
theorem finish_closes :
    connection.finish.point.isOpen = false ∧
      connection.finish.participantId = connection.participantId := by
  unfold finish
  split <;> exact ⟨rfl, rfl⟩

/-- Where a handler of another message goes on to: the top of the loop or a later
section of its own, which is not the dispatch. -/
theorem hookSection_goto (pid : ParticipantId) (handled : Handled) (answer : Option String)
    (stage : HookStage) :
    ∃ point, (connection.hookSection config world id pid handled answer stage).connection =
        connection.goto point ∧
      (point = .idle ∨ ∃ next, point = .handling handled next ∧ next ≠ .dispatch) := by
  have past : afterRoom pid handled = .idle ∨
      ∃ next, afterRoom pid handled = .handling handled next ∧ next ≠ .dispatch := by
    unfold afterRoom
    split
    · exact .inr ⟨_, rfl, by simp⟩
    · exact .inl rfl
  have on : ∀ next : HookStage, next ≠ .dispatch → Point.handling handled next = .idle ∨
      ∃ later, Point.handling handled next = .handling handled later ∧ later ≠ .dispatch :=
    fun next apart => .inr ⟨next, rfl, apart⟩
  cases stage with
  | mediaTask => exact ⟨_, rfl, on _ (by simp)⟩
  | session hasMedia =>
    simp only [hookSection]
    split
    · exact ⟨_, rfl, on _ (by simp)⟩
    · exact ⟨_, rfl, past⟩
  | room hasMedia roomId =>
    simp only [hookSection]
    split
    · exact ⟨_, rfl, past⟩
    · refine ⟨_, rfl, on _ ?_⟩
      split <;> simp
    · exact ⟨_, rfl, on _ (by simp)⟩
  | act peers => exact ⟨_, rfl, past⟩
  | mediaState =>
    simp only [hookSection]
    split <;> exact ⟨_, rfl, .inl rfl⟩
  | renegotiate peers | negotiate peers =>
    simp only [hookSection]
    split
    · exact ⟨_, rfl, on _ (by simp)⟩
    · exact ⟨_, rfl, .inl rfl⟩
  | awaitReply | candidate =>
    simp only [hookSection]
    split <;> exact ⟨_, rfl, .inl rfl⟩
  | register peers peer | registerAll peers peer | markMediaTask peers peer =>
    exact ⟨_, rfl, on _ (by simp)⟩
  | spawn peers peer | dispatch => exact ⟨_, rfl, .inl rfl⟩

/-- What reading a text leaves of a connection's point. -/
theorem receive_point (idle : connection.point = .idle) (raw : String)
    (parsed : Option SdpMessage) (auth : Except String Unit) (rateOk : Bool) :
    let after := (connection.receive config world id raw parsed auth rateOk).connection
    after.point = .idle ∨
      (connection.participantId = none ∧
        (after.point = .ended ∨ ∃ request, after.point = .precheck request)) ∨
      ∃ message pid, parsed = some message ∧ connection.participantId = some pid ∧
        after.point = config.start message raw := by
  intro after
  unfold after
  cases parsed with
  | none => exact .inl idle
  | some message =>
    simp only [receive]
    cases bound : connection.participantId with
    | none =>
      cases message.joinRequest with
      | none => exact .inl idle
      | some request =>
        simp only [receiveFirst]
        split
        · split
          · exact .inr (.inl ⟨trivial, .inl rfl⟩)
          · split
            · exact .inr (.inl ⟨trivial, .inl rfl⟩)
            · exact .inr (.inl ⟨trivial, .inr ⟨_, rfl⟩⟩)
        · exact .inl idle
    | some pid =>
      simp only [receiveNext]
      split
      · exact .inr (.inr ⟨message, pid, rfl, rfl, rfl⟩)
      · left
        split <;> exact idle

/-- What a section of another message's handler does to the signaling state: it
leaves it alone, changes a flag of the sender and announces it, or dispatches the
message. -/
theorem hookSection_effect (pid : ParticipantId) (handled : Handled) (answer : Option String)
    (stage : HookStage) :
    let turn := connection.hookSection config world id pid handled answer stage
    (turn.signaling = world.signaling ∧ turn.deed = none ∧
        ∀ sent ∈ turn.sent, sent.2.ofHooks = true) ∨
      (stage = .mediaState ∧ turn.deed = none ∧ ∃ roomId change,
        SfuServer.mediaChange pid handled.message = some (roomId, change) ∧
          turn.signaling = (world.signaling.announce roomId change).1 ∧
          turn.sent = (world.signaling.announce roomId change).2) ∨
      stage = .dispatch := by
  intro turn
  unfold turn
  have silent : ∀ sent ∈ ([] : List Sent), sent.2.ofHooks = true := by simp
  cases stage with
  | dispatch => exact .inr (.inr rfl)
  | mediaState =>
    simp only [hookSection]
    split
    · rename_i roomId change changed
      exact .inr (.inl ⟨trivial, rfl, roomId, change, changed, rfl, rfl⟩)
    · exact .inl ⟨rfl, rfl, silent⟩
  | act peers =>
    refine .inl ⟨rfl, rfl, ?_⟩
    intro sent placed
    simp only [hookSection] at placed
    cases message : handled.message <;>
      simp only [message, SfuServer.act, Peers.textOthers, List.not_mem_nil, List.mem_map]
        at placed <;> obtain ⟨_, _, rfl⟩ := placed <;> rfl
  | awaitReply =>
    simp only [hookSection]
    split
    · refine .inl ⟨rfl, rfl, ?_⟩
      intro sent placed
      split at placed
      · exact silent sent placed
      · cases List.mem_singleton.mp placed
        rfl
    · exact .inl ⟨rfl, rfl, silent⟩
  | negotiate peers =>
    simp only [hookSection]
    split
    · refine .inl ⟨rfl, rfl, ?_⟩
      intro sent placed
      cases List.mem_singleton.mp placed
      rfl
    · exact .inl ⟨rfl, rfl, silent⟩
  | session hasMedia | room hasMedia roomId | renegotiate peers | candidate =>
    simp only [hookSection]
    split <;> exact .inl ⟨rfl, rfl, silent⟩
  | mediaTask | register | registerAll | markMediaTask | spawn => exact .inl ⟨rfl, rfl, silent⟩

/-- Reading a text leaves the signaling state alone and places errors only; nobody
joins by it. -/
theorem receive_texts (raw : String) (parsed : Option SdpMessage) (auth : Except String Unit)
    (rateOk : Bool) :
    let turn := connection.receive config world id raw parsed auth rateOk
    turn.signaling = world.signaling ∧ (∀ sent ∈ turn.sent, sent.2.ofHooks = true) ∧
      ∀ sink participant roomId, turn.deed ≠ some (.joined sink participant roomId) := by
  have silent : ∀ sent ∈ ([] : List Sent), sent.2.ofHooks = true := by simp
  have error : ∀ code reason, ∀ sent ∈ [(id, Frame.serialised (.error code reason))],
      sent.2.ofHooks = true := by
    intro code reason sent placed
    cases List.mem_singleton.mp placed
    rfl
  cases parsed with
  | none => exact ⟨rfl, silent, fun _ _ _ deed => by cases deed⟩
  | some message =>
    simp only [receive]
    split
    · simp only [receiveNext]
      split <;> exact ⟨rfl, silent, fun _ _ _ deed => by cases deed⟩
    · split
      · simp only [receiveFirst]
        split
        · split
          · exact ⟨rfl, silent, fun _ _ _ deed => by cases deed⟩
          · split
            · exact ⟨rfl, error _ _, fun _ _ _ deed => by cases deed⟩
            · exact ⟨rfl, silent, fun _ _ _ deed => by cases deed⟩
        · exact ⟨rfl, error _ _, fun _ _ _ deed => by cases deed⟩
      · exact ⟨rfl, silent, fun _ _ _ deed => by cases deed⟩

section Join

variable (pid : ParticipantId) (first : Bool) (request : JoinRequest)

/-- The dispatch of an admitted `Join` tells the new member of the others, announces
the room and hands the new member the chat. -/
theorem joinSection_seated (admitted : admits config world request.roomId = true) :
    let turn := connection.joinSection config world id pid first request .dispatch
    ∃ ready, ready.ofHooks = true ∧
      turn.sent = [(id, ready)] ++ broadcastRoomStatus turn.signaling request.roomId ++
        (((turn.signaling.rooms.lookup request.roomId).map Room.chatHistory).getD []).map
          fun raw => (id, .relayed raw) := by
  have vacant : (world.pruned request.roomId).full request.roomId config.maxRoomMembers = false := by
    simpa [admits] using admitted
  rw [World.pruned] at vacant
  simp only [joinSection, JoinRequest.message, SignalingState.dispatch,
    SignalingState.dispatchJoin, vacant, Bool.false_eq_true, ↓reduceIte]
  exact ⟨_, rfl, rfl⟩

/-- A refused `Join` is answered with an error. -/
theorem joinSection_full (refused : admits config world request.roomId = false) :
    (connection.joinSection config world id pid first request .dispatch).sent =
      [(id, SignalingState.roomIsFull)] := by
  have full : (world.pruned request.roomId).full request.roomId config.maxRoomMembers = true := by
    simpa [admits] using refused
  rw [World.pruned] at full
  simp only [joinSection, JoinRequest.message, SignalingState.dispatch,
    SignalingState.dispatchJoin, full, ↓reduceIte]

end Join

/-- The cleanup announces the rooms left one after the other, and otherwise places
texts of the hooks. -/
theorem leaveSection_texts (pid : ParticipantId) (stage : LeaveStage) :
    (∃ roomId gone pending affected, stage = .announce ((roomId, gone) :: pending) affected ∧
        (connection.leaveSection config world id pid stage).connection =
          connection.goto (.leaving (.announce pending affected)) ∧
        (connection.leaveSection config world id pid stage).sent =
          broadcastRoomStatus world.signaling roomId) ∨
      ∀ sent ∈ (connection.leaveSection config world id pid stage).sent,
        sent.2.ofHooks = true := by
  have silent : ∀ sent ∈ ([] : List Sent), sent.2.ofHooks = true := by simp
  cases stage with
  | announce pending affected =>
    cases pending with
    | cons head pending => exact .inl ⟨head.1, head.2, pending, affected, rfl, rfl, rfl⟩
    | nil =>
      simp only [leaveSection]
      split <;> exact .inr silent
  | stopScreen peers roomId gone rest =>
    right
    intro sent placed
    simp only [leaveSection, SfuServer.stopScreen, Peers.textOthers, List.mem_map] at placed
    obtain ⟨_, _, rfl⟩ := placed
    rfl
  | checkStale | lookup =>
    simp only [leaveSection]
    split <;> exact .inr silent
  | disconnect | routes | allPeers | dropPeer | dropRoom | dropSession => exact .inr silent

end Connection

/-- A handler stands at the dispatch only if its message is left to the engine,
and then from the start. -/
def Point.Fits (config : Config) : Point → Prop
  | .handling handled stage => stage = .dispatch ↔ config.hookStart handled.message = .dispatch
  | _ => True

namespace World

/-- Every connection's point fits its message. -/
def Fitting (config : Config) (world : World) : Prop :=
  ∀ id connection, world.connections.lookup id = some connection → connection.point.Fits config

variable {config : Config} {world after : World}

/-- A handler starts where it fits. -/
theorem start_fits (message : SdpMessage) (raw : String) :
    (config.start message raw).Fits config := by
  cases join : message.joinRequest with
  | some request =>
    rw [config.start_join message raw join]
    trivial
  | none =>
    rw [config.start_handling message raw join]
    exact Iff.rfl

/-- A section of a connection that fits leaves one that fits. -/
theorem advance_fits {id : WsSink} {answer : Option String} {connection : Connection} {turn : Turn}
    (fits : connection.point.Fits config)
    (taken : connection.advance config world id answer = some turn) :
    turn.connection.point.Fits config := by
  unfold Connection.advance at taken
  split at taken <;> cases taken
  · unfold Connection.precheckSection
    split <;> trivial
  · trivial
  · rename_i first request stage pid point bound
    cases stage <;> trivial
  · rename_i handled stage pid point bound
    obtain ⟨next, moved, whither⟩ :=
      @Connection.hookSection_goto config world id connection pid handled answer stage
    rw [moved]
    rcases whither with rfl | ⟨later, rfl, apart⟩
    · trivial
    · rw [point] at fits
      refine ⟨fun same => absurd same apart, ?_⟩
      intro left
      have stood := fits.mpr left
      subst stood
      have ends := congrArg Connection.point moved
      simp [Connection.hookSection, World.turn, Connection.goto] at ends
  · rename_i stage pid point bound
    rcases connection.leaveSection_point config world id pid stage with ended | ⟨next, on⟩
    · rw [ended]
      trivial
    · rw [on]
      trivial

/-- Every step keeps the points fitting. -/
theorem fitting_step (event : Event) (fitting : world.Fitting config)
    (stepped : world.step config event = some after) : after.Fitting config := by
  have committed : ∀ {id : WsSink} {turn : Turn}, turn.connection.point.Fits config →
      (world.commit id turn).Fitting config := by
    intro id turn fits tested connection present
    rw [lookup_commit] at present
    split at present
    · cases present
      exact fits
    · exact fitting tested connection present
  cases stepped_of_step event stepped with
  | connected =>
    intro id connection present
    rw [Table.lookup_insert_eq] at present
    split at present
    · cases present
      trivial
    · exact fitting id connection present
  | heard id raw parsed auth rateOk connection present idle =>
    apply committed
    rcases connection.receive_point idle raw parsed auth rateOk with
      same | ⟨_, ended | ⟨request, on⟩⟩ | ⟨message, pid, _, _, started⟩
    · rw [same]
      trivial
    · rw [ended]
      trivial
    · rw [on]
      trivial
    · rw [started]
      exact start_fits message raw
  | finished _ id connection sent present idle =>
    apply committed
    change connection.finish.point.Fits config
    unfold Connection.finish
    split <;> trivial
  | advanced id answer connection turn present taken =>
    exact committed (advance_fits (fitting id connection present) taken)
  | shut | mediaEnded | routed => exact fitting

/-- In every state reached the points fit. -/
theorem fitting_of_reaches {admitted : World → Event → Prop} {e2eeRequired : Bool}
    (reached : Reaches (step config) admitted (new e2eeRequired) world) : world.Fitting config :=
  reached.invariant (Fitting config) (fun _ _ present => by simp [new] at present)
    fun _ event _ fitting _ stepped => fitting_step event fitting stepped

end World

end Seameet
