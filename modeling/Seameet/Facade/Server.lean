import Seameet.Library.Runs
import Seameet.Engine.World

/-!
# The server of the facade

A `SeaMeetServer` runs the engine with hooks of its own around the media server's, and
tells a stream of events what happens. Its `on_message` reads whether the room of a
`Join` exists, runs the inner hook, and sends the events of the message; the engine
dispatches the message afterwards. Its `on_disconnect` runs the inner hook after the
engine has taken the participant out of its rooms, and sends the events of the
departure last. Refusals of the authentication and of the rate check are told at once.

Between two locks, and between two events, any other connection's task may run. So a
call of the wrapper has a point of its own beside the engine's, and the engine's task
goes on only where the wrapper lets it.
-/

namespace Seameet.Facade

open Library

/-- Events the server emits during its lifetime. -/
inductive ServerEvent where
  | peerConnected (participant : ParticipantId) (roomId : RoomId)
  | peerDisconnected (participant : ParticipantId) (rooms : List RoomId)
  | roomCreated (roomId : RoomId)
  | roomDestroyed (roomId : RoomId)
  | authRejected (participant : ParticipantId) (roomId : RoomId) (reason : String)
  | rateLimited (participant : ParticipantId)
  | messageReceived (participant : ParticipantId) (messageType : String)
deriving DecidableEq

/-- A call of the wrapper's `on_message` or `on_disconnect`. -/
inductive HookCall where
  /-- Whether the room of a `Join` exists is still to be read. -/
  | snapshot (pid : ParticipantId) (request : JoinRequest)
  /-- The inner `on_message` runs. -/
  | innerMessage (pid : ParticipantId) (sdp : SdpMessage) (preRoomExists : Bool)
  /-- The inner `on_disconnect` runs. -/
  | innerDisconnect (pid : ParticipantId) (affectedRooms : Affected)
  /-- The inner hook has returned, and these events are still to be sent. The room
  whose creation is among the call's events stays on record. -/
  | sending (created : Option RoomId) (pending : List ServerEvent)
deriving DecidableEq

namespace HookCall

/-- The start of `on_message`. Only a `Join` makes it read the state. -/
def onMessage (pid : ParticipantId) (sdp : SdpMessage) : HookCall :=
  match sdp.joinRequest with
  | some request => .snapshot pid request
  | none => .innerMessage pid sdp false

/-- The room a message's events announce. -/
def createdRoom (sdp : SdpMessage) (preRoomExists : Bool) : Option RoomId :=
  if preRoomExists then none else sdp.joinRequest.map JoinRequest.roomId

/-- The events of a message. -/
def messageEvents (pid : ParticipantId) (sdp : SdpMessage) (preRoomExists : Bool) :
    List ServerEvent :=
  (match sdp.joinRequest with
    | some request =>
        (if preRoomExists then [] else [.roomCreated request.roomId]) ++
          [.peerConnected pid request.roomId]
    | none => []) ++
    [.messageReceived pid sdp.kind]

/-- The rooms of a departure that are gone. -/
def emptiedRooms (affectedRooms : Affected) : List RoomId :=
  (affectedRooms.filter Prod.snd).map Prod.fst

/-- The events of a departure. -/
def disconnectEvents (pid : ParticipantId) (affectedRooms : Affected) : List ServerEvent :=
  .peerDisconnected pid (affectedRooms.map Prod.fst) ::
    (emptiedRooms affectedRooms).map .roomDestroyed

end HookCall

/-- The engine runs with the wrapper's calls beside it. A connection's last call stays
on record when it has returned. -/
structure SeaMeetServer where
  world : World
  calls : Table WsSink HookCall
  events : List ServerEvent

/-- What happens next. -/
inductive ServerStep where
  | engine (event : Event)
  /-- The wrapper reads whether a room exists. -/
  | snapshot (id : WsSink)
  /-- The inner hook returns. -/
  | returns (id : WsSink)
  /-- The next event of a call is sent. -/
  | sends (id : WsSink)

/-- The message a task handles. -/
def handledMessage : Point → Option SdpMessage
  | .joining _ request _ => some request.message
  | .handling handled _ => some handled.message
  | _ => none

/-- The inner `on_message` is done: the message is at its dispatch, or suppressed. -/
def hookReturned : Point → Bool
  | .idle | .joining _ _ .dispatch | .handling _ .dispatch => true
  | _ => false

namespace HookCall

/-- Whether the engine's task waits for the wrapper. -/
def holds (point : Point) : HookCall → Bool
  | .snapshot _ _ => true
  | .innerMessage _ _ _ => hookReturned point
  | .innerDisconnect _ _ => false
  | .sending _ pending => !pending.isEmpty

/-- The call a step of the engine's task makes, if it makes one. -/
def calledBy (before after : Seameet.Connection) : Option HookCall :=
  match before.point with
  | .idle | .register _ =>
      after.participantId.bind fun pid => (handledMessage after.point).map (onMessage pid)
  | .leaving (.announce [] affected) =>
      after.participantId.map fun pid => .innerDisconnect pid affected
  | _ => none

end HookCall

/-- The connection whose task an event moves on. -/
def eventConnection : Event → Option WsSink
  | .receive id _ _ _ _ | .advance id _ | .hangUp id | .deadline id => some id
  | .connect | .writerEnds _ | .mediaEnds _ | .routed _ _ => none

/-- What the wrappers of the authentication and of the rate check send. -/
def checkEvents (config : Config) (connection : Seameet.Connection) : Event → List ServerEvent
  | .receive _ _ (some message) auth rateOk =>
      match connection.participantId, message.joinRequest, auth with
      | some pid, _, _ => if rateOk then [] else [.rateLimited pid]
      | none, some request, .error reason =>
          if validRoomId config request.roomId &&
              (sanitizeDisplayName config request.displayName).isSome then
            [.authRejected request.participant request.roomId reason]
          else []
      | none, _, _ => []
  | _ => []

namespace SeaMeetServer

/-- A server nobody has connected to. -/
def new (e2eeRequired : Bool) : SeaMeetServer :=
  { world := .new e2eeRequired, calls := ∅, events := [] }

/-- A call goes on. -/
def proceed (server : SeaMeetServer) (id : WsSink) (call : HookCall) : SeaMeetServer :=
  { server with calls := server.calls.insert id call }

/-- Whether the wrapper lets an event happen. -/
def lets (server : SeaMeetServer) (event : Event) : Bool :=
  match eventConnection event with
  | some id =>
      match server.world.connections.lookup id, server.calls.lookup id with
      | some connection, some call => !call.holds connection.point
      | _, _ => true
  | none => true

/-- What the wrapper makes of a step of the engine. -/
def follow (config : Config) (server : SeaMeetServer) (event : Event) (after : World) :
    SeaMeetServer :=
  let moved : Option (WsSink × Seameet.Connection × Seameet.Connection) :=
    (eventConnection event).bind fun id =>
      (server.world.connections.lookup id).bind fun earlier =>
        (after.connections.lookup id).map fun later => (id, earlier, later)
  match moved with
  | none => { server with world := after }
  | some (id, earlier, later) =>
      { world := after
        calls :=
          match HookCall.calledBy earlier later with
          | some call => server.calls.insert id call
          | none => server.calls
        events := server.events ++ checkEvents config earlier event }

/-- One step of the server. -/
def step (config : Config) (server : SeaMeetServer) : ServerStep → Option SeaMeetServer
  | .engine event =>
      if server.lets event then
        (server.world.step config event).map (server.follow config event)
      else none
  | .snapshot id =>
      match server.calls.lookup id with
      | some (.snapshot pid request) =>
          some (server.proceed id
            (.innerMessage pid request.message (server.world.signaling.hasRoom request.roomId)))
      | _ => none
  | .returns id =>
      (server.world.connections.lookup id).bind fun connection =>
        match server.calls.lookup id, connection.point with
        | some (.innerMessage pid sdp preRoomExists), point =>
            if hookReturned point then
              some (server.proceed id (.sending (HookCall.createdRoom sdp preRoomExists)
                (HookCall.messageEvents pid sdp preRoomExists)))
            else none
        | some (.innerDisconnect pid affectedRooms), .ended =>
            some (server.proceed id (.sending none (HookCall.disconnectEvents pid affectedRooms)))
        | _, _ => none
  | .sends id =>
      match server.calls.lookup id with
      | some (.sending created (event :: pending)) =>
          some { server.proceed id (.sending created pending) with
            events := server.events ++ [event] }
      | _ => none

/-- No handler is mid-way, neither the engine's nor the wrapper's. -/
def Quiet (server : SeaMeetServer) : Prop :=
  (∀ id connection, server.world.connections.lookup id = some connection →
      connection.point = .idle ∨ connection.point = .ended) ∧
    ∀ id call, server.calls.lookup id = some call → ∃ created, call = .sending created []

/-- What an event says of a room: its creation, its destruction or nothing. -/
def lifeEvent (roomId : RoomId) : ServerEvent → Option Bool
  | .roomCreated created => if created = roomId then some true else none
  | .roomDestroyed destroyed => if destroyed = roomId then some false else none
  | .peerConnected _ _ | .peerDisconnected _ _ | .authRejected _ _ _ | .rateLimited _
  | .messageReceived _ _ => none

/-- The creations and destructions of a room, in the order they were sent. -/
def roomLife (server : SeaMeetServer) (roomId : RoomId) : List Bool :=
  server.events.filterMap (lifeEvent roomId)

end SeaMeetServer

end Seameet.Facade
