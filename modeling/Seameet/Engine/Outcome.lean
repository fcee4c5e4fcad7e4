import Seameet.Library.Runs
import Seameet.Engine.World

/-!
# What a step of the engine can do

Most sections of a handler only read, or change flags and texts. The relations
here say once, for every step, what it does to the seats, to the media server's
rooms, maps and sessions, and to the point of the one connection it belongs to;
every invariant of the engine is proved from them, without looking into the
step again.
-/

namespace Seameet

open Library

/-- Rooms, maps and the rooms of sessions are the same in both servers. -/
structure SfuServer.SameRegistry (before after : SfuServer) : Prop where
  rooms : after.rooms = before.rooms
  inMap : ∀ peers pid, after.inMap peers pid = before.inMap peers pid
  currentRoom : ∀ pid, after.currentRoom pid = before.currentRoom pid

/-- Nothing changes. -/
theorem SfuServer.SameRegistry.refl (server : SfuServer) : SameRegistry server server :=
  ⟨rfl, fun _ _ => rfl, fun _ => rfl⟩

/-- Marking a media task keeps the session's room. -/
theorem SfuServer.markMediaTask_sameRegistry (server : SfuServer) (pid : ParticipantId) :
    SameRegistry server (server.markMediaTask pid) := by
  refine ⟨rfl, fun _ _ => rfl, ?_⟩
  intro other
  simp only [currentRoom, markMediaTask, Table.lookup_modify]
  by_cases same : other = pid
  · subst same
    cases server.sessions.lookup other <;> simp
  · simp [same]

/-- A dispatch of anything but `Join` and `Leave` seats and unseats nobody. -/
theorem SignalingState.dispatch_sameSeats (state : SignalingState) (message : SdpMessage)
    (raw : String) (pid : ParticipantId) (selfTx : WsSink) (closed : WsSink → Bool)
    (maxChatHistory maxRoomMembers : Nat) (other : message.changesMembership = false) :
    SameSeats state
      (state.dispatch message raw pid selfTx closed maxChatHistory maxRoomMembers).1 := by
  cases named : message.roomId with
  | some roomId =>
    exact (state.dispatch_keeps message raw pid selfTx closed maxChatHistory maxRoomMembers roomId
      named other).sameSeats
  | none =>
    cases message with
    | error => exact .refl state
    | _ => simp [SdpMessage.roomId] at named

namespace Point

/-- A point no invariant counts on: the connection is neither joining nor
leaving. -/
def calm : Point → Bool
  | .idle | .precheck _ | .register _ | .handling _ _ => true
  | .joining _ _ _ | .leaving _ | .ended => false

/-- The connection's loop is still running. -/
def isOpen : Point → Bool
  | .leaving _ | .ended => false
  | _ => true

/-- No handler of the connection is mid-way. -/
def atRest : Point → Bool
  | .idle | .ended => true
  | _ => false

/-- The request of a first `Join` under way. -/
def firstRequest : Point → Option JoinRequest
  | .precheck request | .register request | .joining true request _ => some request
  | _ => none

end Point

/-- The handler has made sure of the room. -/
def JoinStage.ensured : JoinStage → Bool
  | .storeSession | .announceCount | .dispatch => true
  | _ => false

namespace World

/-- Every connection counts. -/
def everyone : WsSink → Connection → Bool := fun _ _ => true

/-- Every connection but one counts. -/
def others (id : WsSink) : WsSink → Connection → Bool := fun other _ => decide (other ≠ id)

end World

/-- What a connection at the top of its loop does when a text arrives, the
transport ends or the deadline fires. -/
inductive Arrival (config : Config) (world : World) (id : WsSink) (connection : Connection) :
    Turn → Prop
  /-- It stays calm. -/
  | works (turn : Turn) (idle : connection.point = .idle)
      (calm : turn.connection.point.calm = true) (first : turn.connection.point.firstRequest = none)
      (same : turn.connection.participantId = connection.participantId)
      (signaling : turn.signaling = world.signaling) (sfu : turn.sfu = world.sfu)
      (deed : turn.deed = none) :
      Arrival config world id connection turn
  /-- A first `Join` is authenticated. -/
  | accepts (request : JoinRequest) (turn : Turn) (idle : connection.point = .idle)
      (unbound : connection.participantId = none)
      (moved : turn.connection = connection.goto (.precheck request))
      (signaling : turn.signaling = world.signaling) (sfu : turn.sfu = world.sfu)
      (deed : turn.deed = some (.authenticated id request.participant request.roomId)) :
      Arrival config world id connection turn
  /-- A connection that is not bound ends. -/
  | ends (turn : Turn) (idle : connection.point = .idle)
      (unbound : connection.participantId = none)
      (moved : turn.connection = connection.goto .ended)
      (signaling : turn.signaling = world.signaling) (sfu : turn.sfu = world.sfu)
      (deed : turn.deed = none) :
      Arrival config world id connection turn
  /-- A later `Join` starts its way through the hook. -/
  | joins (request : JoinRequest) (pid : ParticipantId) (idle : connection.point = .idle)
      (bound : connection.participantId = some pid) :
      Arrival config world id connection
        (world.turn (connection.goto (.joining false request config.joinStart)))
  /-- A bound connection ends. -/
  | hangsUp (turn : Turn) (pid : ParticipantId) (idle : connection.point = .idle)
      (bound : connection.participantId = some pid)
      (moved : turn.connection = connection.goto (.leaving .checkStale))
      (signaling : turn.signaling = world.signaling) (sfu : turn.sfu = world.sfu)
      (deed : turn.deed = none) :
      Arrival config world id connection turn

/-- What the next section of a connection's task does. -/
inductive Section (config : Config) (world : World) (id : WsSink) (connection : Connection) :
    Turn → Prop
  /-- The handler goes on or ends without seating or registering anybody. -/
  | works (turn : Turn) (calm : connection.point.calm = true)
      (calmAfter : turn.connection.point.calm = true)
      (first : ∀ request, turn.connection.point.firstRequest = some request →
        connection.point.firstRequest = some request)
      (same : turn.connection.participantId = connection.participantId)
      (signaling : world.signaling.SameSeats turn.signaling)
      (sfu : world.sfu.SameRegistry turn.sfu) (deed : turn.deed = none) :
      Section config world id connection turn
  /-- The connection is bound and its generation put on record. -/
  | registers (request : JoinRequest) (point : connection.point = .register request)
      (unbound : connection.participantId = none) :
      Section config world id connection (connection.registerSection config world id request)
  /-- A section of a `Join` handler. -/
  | joins (pid : ParticipantId) (first : Bool) (request : JoinRequest) (stage : JoinStage)
      (point : connection.point = .joining first request stage)
      (bound : connection.participantId = some pid) :
      Section config world id connection
        (connection.joinSection config world id pid first request stage)
  /-- A `Leave` is dispatched. -/
  | parts (handled : Handled) (participant : ParticipantId) (roomId : RoomId) (turn : Turn)
      (point : connection.point = .handling handled .dispatch)
      (message : handled.message = .leave participant roomId)
      (moved : turn.connection = connection.goto .idle)
      (signaling : turn.signaling = (world.signaling.leave participant roomId).2)
      (sfu : turn.sfu = world.sfu) (deed : turn.deed = some (.left participant roomId)) :
      Section config world id connection turn
  /-- The sender of an offer is entered into a map. -/
  | offers (pid : ParticipantId) (handled : Handled) (peers : PeersRef) (peer : SfuPeer)
      (turn : Turn) (point : connection.point = .handling handled (.register peers peer))
      (bound : connection.participantId = some pid)
      (moved : turn.connection = connection.goto (.handling handled (.registerAll peers peer)))
      (signaling : turn.signaling = world.signaling)
      (sfu : turn.sfu = world.sfu.register peers pid peer) (deed : turn.deed = none) :
      Section config world id connection turn
  /-- A section of the cleanup. -/
  | leaves (pid : ParticipantId) (stage : LeaveStage)
      (point : connection.point = .leaving stage)
      (bound : connection.participantId = some pid) :
      Section config world id connection (connection.leaveSection config world id pid stage)

/-- What a step of the server does. -/
inductive Outcome (config : Config) (world : World) : Event → World → Prop
  | connected :
      Outcome config world .connect { world with
        connections := world.connections.insert world.nextConnection
          { participantId := none, e2eeDeadline := false, point := .idle }
        nextConnection := world.nextConnection + 1 }
  | arrived (event : Event) (id : WsSink) (connection : Connection) (turn : Turn)
      (present : world.connections.lookup id = some connection)
      (arrival : Arrival config world id connection turn) :
      Outcome config world event (world.commit id turn)
  | advanced (id : WsSink) (answer : Option String) (connection : Connection) (turn : Turn)
      (present : world.connections.lookup id = some connection)
      (taken : Section config world id connection turn) :
      Outcome config world (.advance id answer) (world.commit id turn)
  | writerEnded (id : WsSink) :
      Outcome config world (.writerEnds id) { world with closed := id :: world.closed }
  | mediaEnded (task : MediaTask) :
      Outcome config world (.mediaEnds task)
        { world with sfu := world.sfu.endMediaTask task }
  | routed (source : SocketAddr) (task : MediaTask) :
      Outcome config world (.routed source task)
        { world with sfu := world.sfu.addRoute source task.pid }

namespace Config

variable (config : Config) (message : SdpMessage) (raw : String)

/-- A later `Join` starts a `Join` handler. -/
theorem start_join {request : JoinRequest} (join : message.joinRequest = some request) :
    config.start message raw = .joining false request config.joinStart := by
  unfold start
  split
  · rename_i same
    rw [join] at same
    exact Option.some.inj same ▸ rfl
  · rename_i other
    simp [join] at other

/-- Any other message starts a handler of its own. -/
theorem start_handling (notJoin : message.joinRequest = none) :
    config.start message raw = .handling { message, raw, notJoin } (config.hookStart message) := by
  unfold start
  split
  · rename_i join
    simp [notJoin] at join
  · rfl

end Config

namespace Connection

variable (config : Config) (world : World) (id : WsSink) (connection : Connection)

/-- A text arriving on a bound connection. -/
theorem receiveNext_arrival (pid : ParticipantId) (idle : connection.point = .idle)
    (bound : connection.participantId = some pid) (message : SdpMessage) (raw : String)
    (rateOk : Bool) :
    Arrival config world id connection
      (connection.receiveNext config world message raw rateOk) := by
  unfold receiveNext
  extract_lets heard
  have same : heard.participantId = connection.participantId := by
    unfold heard
    split <;> rfl
  have stays : heard.point = .idle := by
    unfold heard
    split <;> exact idle
  split
  · cases join : message.joinRequest with
    | some request =>
      have unarmed : heard = connection := by
        unfold heard
        split
        · simp [SdpMessage.joinRequest] at join
        · rfl
      rw [config.start_join message raw join, unarmed]
      exact .joins request pid idle bound
    | none =>
      rw [config.start_handling message raw join]
      exact .works _ idle rfl rfl same rfl rfl rfl
  · exact .works _ idle (by simp [World.turn, stays, Point.calm])
      (by simp [World.turn, stays, Point.firstRequest]) same rfl rfl rfl

/-- The first `Join` arriving on a connection. -/
theorem receiveFirst_arrival (idle : connection.point = .idle)
    (unbound : connection.participantId = none) (request : JoinRequest)
    (auth : Except String Unit) :
    Arrival config world id connection
      (connection.receiveFirst config world id request auth) := by
  unfold receiveFirst
  split
  · split
    · exact .ends _ idle unbound rfl rfl rfl rfl
    · split
      · exact .ends _ idle unbound rfl rfl rfl rfl
      · apply Arrival.accepts _ _ idle unbound <;> rfl
  · exact .works _ idle (by simp [World.turn, idle, Point.calm])
      (by simp [World.turn, idle, Point.firstRequest]) rfl rfl rfl rfl

/-- Any text arriving. -/
theorem receive_arrival (idle : connection.point = .idle) (raw : String)
    (parsed : Option SdpMessage) (auth : Except String Unit) (rateOk : Bool) :
    Arrival config world id connection
      (connection.receive config world id raw parsed auth rateOk) := by
  have stays : Arrival config world id connection (world.turn connection) :=
    .works _ idle (by simp [World.turn, idle, Point.calm])
      (by simp [World.turn, idle, Point.firstRequest]) rfl rfl rfl rfl
  cases parsed with
  | none => exact stays
  | some message =>
    simp only [receive]
    cases bound : connection.participantId with
    | some pid =>
      exact connection.receiveNext_arrival config world id pid idle bound message raw rateOk
    | none =>
      cases message.joinRequest with
      | some request => exact connection.receiveFirst_arrival config world id idle bound request auth
      | none => exact stays

/-- The end of a connection, whatever text it leaves. -/
theorem finish_arrival (idle : connection.point = .idle) (turn : Turn)
    (moved : turn.connection = connection.finish) (signaling : turn.signaling = world.signaling)
    (sfu : turn.sfu = world.sfu) (deed : turn.deed = none) :
    Arrival config world id connection turn := by
  cases bound : connection.participantId with
  | some pid =>
    rw [finish, bound] at moved
    exact .hangsUp turn pid idle bound moved signaling sfu deed
  | none =>
    rw [finish, bound] at moved
    exact .ends turn idle bound moved signaling sfu deed

/-- A section that leaves everything but the point, the texts and the commands. -/
theorem works_goto (calm : connection.point.calm = true) (turn : Turn) (next : Point)
    (calmAfter : next.calm = true) (first : next.firstRequest = none)
    (moved : turn.connection = connection.goto next)
    (signaling : world.signaling.SameSeats turn.signaling)
    (sfu : world.sfu.SameRegistry turn.sfu) (deed : turn.deed = none) :
    Section config world id connection turn := by
  apply Section.works turn calm
  · rwa [moved]
  · intro request started
    rw [moved] at started
    exact absurd started (by simp [goto, first])
  · rw [moved]
    rfl
  · exact signaling
  · exact sfu
  · exact deed

/-- Where a handler goes from a room's map is a calm point. -/
theorem afterRoom_calm (pid : ParticipantId) (handled : Handled) :
    (afterRoom pid handled).calm = true ∧ (afterRoom pid handled).firstRequest = none := by
  unfold afterRoom
  split <;> exact ⟨rfl, rfl⟩

/-- A section of the handler of a message other than `Join`. -/
theorem hookSection_section (pid : ParticipantId) (handled : Handled) (stage : HookStage)
    (point : connection.point = .handling handled stage)
    (bound : connection.participantId = some pid) (answer : Option String) :
    Section config world id connection
      (connection.hookSection config world id pid handled answer stage) := by
  have calm : connection.point.calm = true := by rw [point]; rfl
  have works := works_goto config world id connection calm
  have seats := SignalingState.SameSeats.refl world.signaling
  have registry := SfuServer.SameRegistry.refl world.sfu
  obtain ⟨after, fresh⟩ := afterRoom_calm pid handled
  cases stage with
  | mediaTask => exact works _ _ rfl rfl rfl seats registry rfl
  | session hasMedia =>
    simp only [hookSection]
    split
    · exact works _ _ rfl rfl rfl seats registry rfl
    · exact works _ _ after fresh rfl seats registry rfl
  | room hasMedia roomId =>
    simp only [hookSection]
    split
    · exact works _ _ after fresh rfl seats registry rfl
    · exact works _ _ rfl rfl rfl seats registry rfl
    · exact works _ _ rfl rfl rfl seats registry rfl
  | act peers => exact works _ _ after fresh rfl seats registry rfl
  | mediaState =>
    simp only [hookSection]
    split
    · rename_i roomId change changed
      refine works _ _ rfl rfl rfl ?_ registry rfl
      obtain ⟨flag, rfl⟩ := SfuServer.mediaChange_flag changed
      have confined : SignalingState.Confined roomId pid "" 0 world.signaling _ :=
        .setMedia world.signaling flag
      exact confined.sameSeats
    · exact works _ _ rfl rfl rfl seats registry rfl
  | renegotiate peers =>
    simp only [hookSection]
    split
    · exact works _ _ rfl rfl rfl seats registry rfl
    · exact works _ _ rfl rfl rfl seats registry rfl
  | awaitReply =>
    simp only [hookSection]
    split
    · exact works _ _ rfl rfl rfl seats registry rfl
    · exact works _ _ rfl rfl rfl seats registry rfl
  | negotiate peers =>
    simp only [hookSection]
    split
    · exact works _ _ rfl rfl rfl seats ⟨rfl, fun _ _ => rfl, fun _ => rfl⟩ rfl
    · exact works _ _ rfl rfl rfl seats registry rfl
  | register peers peer => exact .offers pid handled peers peer _ point bound rfl rfl rfl rfl
  | registerAll peers peer =>
    exact works _ _ rfl rfl rfl seats ⟨rfl, fun _ _ => rfl, fun _ => rfl⟩ rfl
  | markMediaTask peers peer =>
    exact works _ _ rfl rfl rfl seats (world.sfu.markMediaTask_sameRegistry pid) rfl
  | spawn peers peer =>
    exact works _ _ rfl rfl rfl seats ⟨rfl, fun _ _ => rfl, fun _ => rfl⟩ rfl
  | candidate =>
    simp only [hookSection]
    split
    · exact works _ _ rfl rfl rfl seats registry rfl
    · exact works _ _ rfl rfl rfl seats registry rfl
  | dispatch =>
    cases departs : handled.message.changesMembership with
    | false =>
      refine works _ _ rfl rfl rfl ?_ registry ?_
      · exact world.signaling.dispatch_sameSeats handled.message handled.raw pid id
          world.isClosed config.maxChatHistory config.maxRoomMembers departs
      · cases message : handled.message <;> rw [message] at departs <;>
          simp [SdpMessage.changesMembership, hookSection, message] at departs ⊢
    | true =>
      cases message : handled.message with
      | leave participant roomId =>
        apply Section.parts handled participant roomId _ point message <;>
          simp [hookSection, message, SignalingState.dispatch, SignalingState.dispatchLeave,
            World.turn]
      | join =>
        have notJoin := handled.notJoin
        simp [message, SdpMessage.joinRequest] at notJoin
      | _ => simp [message, SdpMessage.changesMembership] at departs

/-- The next section of a connection's task. -/
theorem advance_section (answer : Option String) (turn : Turn)
    (advanced : connection.advance config world id answer = some turn) :
    Section config world id connection turn := by
  unfold advance at advanced
  split at advanced <;> cases advanced
  · rename_i request point unbound
    have calm : connection.point.calm = true := by rw [point]; rfl
    unfold precheckSection
    split
    · exact works_goto config world id connection calm _ _ rfl rfl rfl (.refl _) (.refl _) rfl
    · apply Section.works _ calm rfl
      · intro started same
        rw [point]
        exact same
      · rfl
      · exact .refl _
      · exact .refl _
      · rfl
  · rename_i request point unbound
    exact .registers request point unbound
  · rename_i first request stage pid point bound
    exact .joins pid first request stage point bound
  · rename_i handled stage pid point bound
    exact connection.hookSection_section config world id pid handled stage point bound answer
  · rename_i stage pid point bound
    exact .leaves pid stage point bound

section Join

variable (pid : ParticipantId) (first : Bool) (request : JoinRequest)

/-- Dispatching an admitted `Join` seats the participant it names. -/
theorem joinSection_admitted (admitted : admits config world request.roomId = true) :
    (connection.joinSection config world id pid first request .dispatch).signaling =
        ((world.pruned request.roomId).join request.participant request.roomId id
          request.displayName).2 ∧
      (connection.joinSection config world id pid first request .dispatch).deed =
        some (.joined id request.participant request.roomId) := by
  have vacant : (world.pruned request.roomId).full request.roomId config.maxRoomMembers = false := by
    simpa [admits] using admitted
  constructor
  · simp only [joinSection, JoinRequest.message, SignalingState.dispatch,
      SignalingState.dispatchJoin]
    rw [World.pruned] at vacant ⊢
    rw [if_neg (by simp [vacant])]
    rfl
  · simp [joinSection, admitted]

/-- Dispatching a refused `Join` only removes closed members; the room exists. -/
theorem joinSection_refused (refused : admits config world request.roomId = false) :
    (connection.joinSection config world id pid first request .dispatch).signaling =
        world.pruned request.roomId ∧
      (connection.joinSection config world id pid first request .dispatch).deed = none ∧
      world.signaling.hasRoom request.roomId = true := by
  have full : (world.pruned request.roomId).full request.roomId config.maxRoomMembers = true := by
    simpa [admits] using refused
  refine ⟨?_, by simp [joinSection, refused], ?_⟩
  · simp only [joinSection, JoinRequest.message, SignalingState.dispatch,
      SignalingState.dispatchJoin]
    rw [World.pruned] at full ⊢
    rw [if_pos full]
  · have kept := world.signaling.hasRoom_updateRoom request.roomId request.roomId
      fun room => (room.pruneStale world.isClosed).2
    rw [← kept, SignalingState.hasRoom]
    rw [SignalingState.full] at full
    cases stored : (world.pruned request.roomId).rooms.lookup request.roomId with
    | none => simp [stored] at full
    | some room =>
      rw [World.pruned, SignalingState.pruneStale] at stored
      rw [stored]
      rfl

/-- A section of a first `Join` handler stays with its request. -/
theorem joinSection_firstRequest (stage : JoinStage)
    (point : connection.point = .joining first request stage) (started : JoinRequest)
    (later : (connection.joinSection config world id pid first request
      stage).connection.point.firstRequest = some started) :
    connection.point.firstRequest = some started := by
  rw [point]
  cases first with
  | false => cases stage <;> exact later
  | true =>
    cases stage with
    | dispatch => simp [joinSection, World.turn, Point.firstRequest] at later
    | _ => exact later

end Join

section Leave

variable (pid : ParticipantId)

/-- A section of the cleanup stays in the cleanup or ends the task. -/
theorem leaveSection_point (stage : LeaveStage) :
    (connection.leaveSection config world id pid stage).connection = connection.goto .ended ∨
      ∃ next, (connection.leaveSection config world id pid stage).connection =
        connection.goto (.leaving next) := by
  cases stage with
  | checkStale =>
    simp only [leaveSection]
    split
    · exact .inr ⟨_, rfl⟩
    · exact .inl rfl
  | announce pending affected =>
    cases pending with
    | cons head pending => exact .inr ⟨_, rfl⟩
    | nil =>
      simp only [leaveSection]
      split
      · exact .inl rfl
      · exact .inr ⟨_, rfl⟩
  | lookup roomId gone rest =>
    simp only [leaveSection]
    split <;> exact .inr ⟨_, rfl⟩
  | dropSession => exact .inl rfl
  | disconnect | routes | allPeers | stopScreen | dropPeer | dropRoom => exact .inr ⟨_, rfl⟩

/-- Only the disconnect changes the signaling state, and no section leaves a deed. -/
theorem leaveSection_frame (stage : LeaveStage) :
    (connection.leaveSection config world id pid stage).deed = none ∧
      (connection.leaveSection config world id pid stage).signaling =
        match stage with
        | .disconnect => (world.signaling.disconnect pid).2
        | _ => world.signaling := by
  cases stage with
  | checkStale =>
    simp only [leaveSection]
    split <;> exact ⟨rfl, rfl⟩
  | announce pending affected =>
    cases pending with
    | cons head pending => exact ⟨rfl, rfl⟩
    | nil =>
      simp only [leaveSection]
      split <;> exact ⟨rfl, rfl⟩
  | lookup roomId gone rest =>
    simp only [leaveSection]
    split <;> exact ⟨rfl, rfl⟩
  | _ => exact ⟨rfl, rfl⟩

/-- Only its last section drops a session, and that is the participant's own. -/
theorem leaveSection_currentRoom (stage : LeaveStage) (other : ParticipantId)
    (apart : stage = .dropSession → other ≠ pid) :
    (connection.leaveSection config world id pid stage).sfu.currentRoom other =
      world.sfu.currentRoom other := by
  cases stage with
  | checkStale | lookup =>
    simp only [leaveSection]
    split <;> rfl
  | announce pending affected =>
    cases pending with
    | cons head pending => rfl
    | nil =>
      simp only [leaveSection]
      split <;> rfl
  | dropSession => simp [leaveSection, SfuServer.currentRoom, SfuServer.dropSession, apart rfl]
  | disconnect | routes | allPeers | stopScreen | dropPeer | dropRoom => rfl

/-- Only the dropping of a room takes a room's map away, and that room's only. -/
theorem leaveSection_roomPeers (stage : LeaveStage) (roomId : RoomId)
    (apart : ∀ next rest, stage = .dropRoom next rest → roomId ≠ next) :
    (connection.leaveSection config world id pid stage).sfu.roomPeers roomId =
      world.sfu.roomPeers roomId := by
  cases stage with
  | checkStale | lookup =>
    simp only [leaveSection]
    split <;> rfl
  | announce pending affected =>
    cases pending with
    | cons head pending => rfl
    | nil =>
      simp only [leaveSection]
      split <;> rfl
  | dropRoom next rest => exact AList.lookup_erase_ne (apart next rest rfl)
  | disconnect | routes | allPeers | stopScreen | dropPeer | dropSession => rfl

/-- The cleanup seats nobody and starts no `Join`. -/
theorem leaveSection_seats (stage : LeaveStage) :
    (∀ roomId participant sink,
      (connection.leaveSection config world id pid stage).signaling.seat roomId participant =
          some sink →
        world.signaling.seat roomId participant = some sink) ∧
      (connection.leaveSection config world id pid stage).connection.point.firstRequest = none := by
  constructor
  · intro roomId participant sink seated
    rw [(connection.leaveSection_frame config world id pid stage).2] at seated
    split at seated
    · exact SignalingState.seat_of_disconnect _ _ _ _ seated
    · exact seated
  · rcases connection.leaveSection_point config world id pid stage with ended | ⟨next, on⟩
    · rw [ended]
      rfl
    · rw [on]
      rfl

end Leave

end Connection

namespace World

variable (config : Config) (world after : World)

/-- What a connection at the top of its loop does is an arrival. -/
theorem whenIdle_arrival {id : WsSink} {connection : Connection} {offered turn : Turn}
    (taken : whenIdle connection offered = some turn)
    (arrives : connection.point = .idle → Arrival config world id connection offered) :
    Arrival config world id connection turn := by
  unfold whenIdle at taken
  split at taken
  · rename_i idle
    exact Option.some.inj taken ▸ arrives idle
  · simp at taken

/-- Every step has one of the listed outcomes. -/
theorem step_outcome (event : Event) (stepped : world.step config event = some after) :
    Outcome config world event after := by
  have split : ∀ {id : WsSink} {next : Connection → Option Turn},
      world.turned id next = some after → ∃ connection turn,
        world.connections.lookup id = some connection ∧ next connection = some turn ∧
          world.commit id turn = after := by
    intro id next taken
    simpa only [turned, Option.bind_eq_some_iff, Option.map_eq_some_iff, exists_and_left]
      using taken
  cases event with
  | connect => exact Option.some.inj stepped ▸ .connected
  | receive id raw parsed auth rateOk =>
    obtain ⟨connection, turn, present, taken, rfl⟩ := split stepped
    exact .arrived _ id connection turn present (whenIdle_arrival config world taken
      fun idle => connection.receive_arrival config world id idle raw parsed auth rateOk)
  | advance id answer =>
    obtain ⟨connection, turn, present, taken, rfl⟩ := split stepped
    exact .advanced id answer connection turn present
      (connection.advance_section config world id answer turn taken)
  | hangUp id =>
    obtain ⟨connection, turn, present, taken, rfl⟩ := split stepped
    exact .arrived _ id connection turn present (whenIdle_arrival config world taken
      fun idle => connection.finish_arrival config world id idle _ rfl rfl rfl rfl)
  | deadline id =>
    obtain ⟨connection, turn, present, taken, rfl⟩ := split stepped
    split at taken
    · exact .arrived _ id connection turn present (whenIdle_arrival config world taken
        fun idle => connection.finish_arrival config world id idle _ rfl rfl rfl rfl)
    · simp at taken
  | writerEnds id =>
    obtain ⟨connection, _, rfl⟩ := Option.map_eq_some_iff.mp stepped
    exact .writerEnded id
  | mediaEnds task =>
    simp only [step, Option.ite_none_right_eq_some, Option.some.injEq] at stepped
    exact stepped.2 ▸ .mediaEnded task
  | routed source task =>
    simp only [step, Option.ite_none_right_eq_some, Option.some.injEq] at stepped
    exact stepped.2 ▸ .routed source task

/-- Reading a connection after a section. -/
theorem lookup_commit (id tested : WsSink) (turn : Turn) :
    (world.commit id turn).connections.lookup tested =
      if tested = id then some turn.connection else world.connections.lookup tested :=
  Table.lookup_insert_eq id tested turn.connection world.connections

/-- A pruning seats nobody. -/
theorem seat_of_pruned {roomId tested : RoomId} {participant : ParticipantId} {sink : WsSink}
    (seated : (world.pruned roomId).seat tested participant = some sink) :
    world.signaling.seat tested participant = some sink := by
  rw [pruned, SignalingState.seat_pruneStale] at seated
  split at seated
  · rename_i same
    rw [same]
    exact (Option.filter_eq_some_iff.mp seated).1
  · exact seated

/-- No connection has a name that is yet to be given. -/
def Fresh (world : World) : Prop :=
  ∀ id, world.nextConnection ≤ id → world.connections.lookup id = none

/-- Every step keeps the names that are yet to be given. -/
theorem Fresh.step {config : Config} {world after : World} (fresh : world.Fresh) (event : Event)
    (stepped : world.step config event = some after) : after.Fresh := by
  have committed : ∀ {id : WsSink} {connection : Connection} (turn : Turn),
      world.connections.lookup id = some connection → (world.commit id turn).Fresh := by
    intro id connection turn present tested beyond
    have absent := fresh tested beyond
    rw [lookup_commit, if_neg, absent]
    rintro rfl
    simp [present] at absent
  cases world.step_outcome config after event stepped with
  | connected =>
    intro id beyond
    have beyond : world.nextConnection + 1 ≤ id := beyond
    rw [Table.lookup_insert_eq, if_neg (Nat.ne_of_gt beyond)]
    exact fresh id (Nat.le_of_succ_le beyond)
  | arrived _ id connection turn present => exact committed turn present
  | advanced id _ connection turn present => exact committed turn present
  | writerEnded | mediaEnded | routed => exact fresh

/-- The names yet to be given are free in every state reached. -/
theorem fresh_of_reaches {config : Config} {admitted : World → Event → Prop} {e2eeRequired : Bool}
    {world : World}
    (reached : Library.Reaches (step config) admitted (new e2eeRequired) world) : world.Fresh :=
  reached.invariant Fresh (fun _ _ => rfl) fun _ event _ fresh _ stepped => fresh.step event stepped

/-- Every connection that has joined is bound. -/
def Recorded (world : World) : Prop :=
  ∀ id participant roomId, Deed.joined id participant roomId ∈ world.deeds →
    ∃ connection, world.connections.lookup id = some connection ∧ connection.participantId ≠ none

/-- A section keeps a bound connection bound, and only a bound one joins. -/
def Binds (id : WsSink) (connection : Connection) (turn : Turn) : Prop :=
  (connection.participantId ≠ none → turn.connection.participantId ≠ none) ∧
    ∀ other participant roomId, turn.deed = some (.joined other participant roomId) →
      other = id ∧ turn.connection.participantId ≠ none

/-- What happens at the top of a loop joins nobody. -/
theorem arrival_binds {config : Config} {world : World} {id : WsSink} {connection : Connection}
    {turn : Turn} (arrival : Arrival config world id connection turn) :
    Binds id connection turn := by
  cases arrival with
  | works _ idle calm first same signaling sfu deed => exact ⟨by simp [same], by simp [deed]⟩
  | accepts _ _ idle unbound moved signaling sfu deed => exact ⟨by simp [unbound], by simp [deed]⟩
  | ends _ idle unbound moved signaling sfu deed => exact ⟨by simp [unbound], by simp [deed]⟩
  | joins request pid idle bound => exact ⟨fun bound => bound, by simp [World.turn]⟩
  | hangsUp _ pid idle bound moved signaling sfu deed =>
    exact ⟨by simp [moved, Connection.goto], by simp [deed]⟩

/-- A section joins only on its own connection, and that is bound. -/
theorem section_binds {config : Config} {world : World} {id : WsSink} {connection : Connection}
    {turn : Turn} (taken : Section config world id connection turn) :
    Binds id connection turn := by
  cases taken with
  | works _ calm calmAfter first same signaling sfu deed => exact ⟨by simp [same], by simp [deed]⟩
  | registers request point unbound =>
    exact ⟨by simp [unbound], by simp [Connection.registerSection]⟩
  | joins pid first request stage point bound =>
    have binds : (connection.joinSection config world id pid first request
        stage).connection.participantId ≠ none := by
      cases stage <;> simp [Connection.joinSection, World.turn, Connection.goto, bound]
    refine ⟨fun _ => binds, ?_⟩
    intro other participant roomId joined
    refine ⟨?_, binds⟩
    cases stage with
    | dispatch =>
      simp only [Connection.joinSection, Option.ite_none_right_eq_some, Option.some.injEq,
        Deed.joined.injEq] at joined
      exact joined.2.1.symm
    | _ => simp [Connection.joinSection, World.turn] at joined
  | parts handled participant roomId _ point message moved signaling sfu deed =>
    exact ⟨by simp [moved, Connection.goto], by simp [deed]⟩
  | offers pid handled peers peer _ point bound moved signaling sfu deed =>
    exact ⟨by simp [moved, Connection.goto], by simp [deed]⟩
  | leaves pid stage point bound =>
    refine ⟨fun _ => ?_, by simp [(connection.leaveSection_frame config world id pid stage).1]⟩
    rcases connection.leaveSection_point config world id pid stage with ended | ⟨next, on⟩
    · simp [ended, Connection.goto, bound]
    · simp [on, Connection.goto, bound]

/-- Every step keeps the connections that have joined bound. -/
theorem Recorded.step {config : Config} {world after : World} (recorded : world.Recorded)
    (fresh : world.Fresh) (event : Event) (stepped : world.step config event = some after) :
    after.Recorded := by
  have committed : ∀ {id : WsSink} {connection : Connection} {turn : Turn},
      world.connections.lookup id = some connection → Binds id connection turn →
        (world.commit id turn).Recorded := by
    intro id connection turn present binds tested participant roomId joined
    rw [lookup_commit]
    rcases List.mem_append.mp joined with now | past
    · obtain ⟨rfl, bound⟩ := binds.2 tested participant roomId (Option.mem_toList.mp now)
      exact ⟨turn.connection, by simp, bound⟩
    · obtain ⟨earlier, found, bound⟩ := recorded tested participant roomId past
      by_cases same : tested = id
      · subst same
        rw [present] at found
        cases found
        exact ⟨turn.connection, by simp, binds.1 bound⟩
      · exact ⟨earlier, by rwa [if_neg same], bound⟩
  cases world.step_outcome config after event stepped with
  | connected =>
    intro id participant roomId joined
    obtain ⟨connection, present, bound⟩ := recorded id participant roomId joined
    refine ⟨connection, ?_, bound⟩
    rw [Table.lookup_insert_eq, if_neg]
    · exact present
    · rintro rfl
      simp [fresh world.nextConnection (Nat.le_refl _)] at present
  | arrived _ id connection turn present arrival => exact committed present (arrival_binds arrival)
  | advanced id _ connection turn present taken => exact committed present (section_binds taken)
  | writerEnded | mediaEnded | routed => exact recorded

/-- In every state reached the connections that have joined are bound. -/
theorem recorded_of_reaches {config : Config} {admitted : World → Event → Prop}
    {e2eeRequired : Bool} {world : World}
    (reached : Library.Reaches (step config) admitted (new e2eeRequired) world) :
    world.Recorded :=
  reached.invariant_with Fresh Recorded (fun _ => fresh_of_reaches)
    (fun _ _ _ joined => by simp [new] at joined)
    fun _ event _ fresh recorded _ stepped => recorded.step fresh event stepped

/-- Deeds are only added. -/
theorem mem_deeds_commit {deed : Deed} (id : WsSink) (turn : Turn) (past : deed ∈ world.deeds) :
    deed ∈ (world.commit id turn).deeds :=
  List.mem_append_right _ past

end World

end Seameet
