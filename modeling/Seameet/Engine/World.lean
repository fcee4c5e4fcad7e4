import Seameet.Signaling.Dispatch
import Seameet.Sfu.Server

/-!
# The engine

Any number of connections run through the engine at once, each in a task of its
own that takes messages one at a time: read, hooks, dispatch, and the cleanup
when the connection ends. Between two acquisitions of a lock any other task may
run, so a handler is a sequence of sections, one for each acquisition, and the
point of a connection says which section comes next and what the handler still
holds from the sections before.

What the environment decides is part of an event: what a text parses as, what
the authentication hook and the rate check answer, whether an offer is accepted
and with what answer, when a connection ends, when the task that writes to it
stops (which closes its sink) and when a media task ends.

The hooks are those of the source: none, or the media server's. The deeds are
not in the program: they record, newest first, what later claims refer to.
-/

namespace Seameet

open Library

/-- The hooks a server runs with. -/
inductive Hooks where
  | noop
  | sfu
deriving DecidableEq

/-- What the hooks answer to the engine's questions about limits. -/
structure Config where
  hooks : Hooks
  requireE2ee : Bool
  maxRoomMembers : Nat
  maxChatHistory : Nat
  maxRoomIdLen : Nat
  maxDisplayNameLen : Nat

/-- The media server's hooks with the default limits. -/
def Config.sfuDefault : Config :=
  { hooks := .sfu, requireE2ee := false, maxRoomMembers := 25, maxChatHistory := 1000,
    maxRoomIdLen := 64, maxDisplayNameLen := 64 }

section Admission

/-- A control character, in Unicode's general category. -/
def isControl (char : Char) : Bool :=
  char.toNat < 32 || (127 ≤ char.toNat && char.toNat ≤ 159)

/-- The length of a text in bytes. -/
def byteLen : List Char → Nat
  | [] => 0
  | char :: rest => char.utf8Size + byteLen rest

/-- A room identifier a first `Join` may carry. -/
def validRoomId (config : Config) (roomId : RoomId) : Bool :=
  byteLen roomId.toList ≤ config.maxRoomIdLen && !roomId.toList.isEmpty &&
    !roomId.toList.any isControl

/-- The room identifier of a later message, which may hold control characters. -/
def acceptedRoomId (config : Config) (roomId : RoomId) : Bool :=
  byteLen roomId.toList ≤ config.maxRoomIdLen && !roomId.toList.isEmpty

/-- The first bytes of a text; none where the cut falls inside a character. -/
def cutBytes : Nat → List Char → Option (List Char)
  | 0, _ => some []
  | _ + 1, [] => none
  | count + 1, char :: rest =>
      if char.utf8Size ≤ count + 1 then
        (cutBytes (count + 1 - char.utf8Size) rest).map (char :: ·)
      else none

/-- A display name without control characters, cut to the limit; none when the
cut panics. -/
def sanitizeName (config : Config) (name : String) : Option String :=
  let cleaned := name.toList.filter fun char => !isControl char
  if config.maxDisplayNameLen < byteLen cleaned then
    (cutBytes config.maxDisplayNameLen cleaned).map String.ofList
  else some (String.ofList cleaned)

/-- The sanitised display name of a `Join`, which may have none. -/
def sanitizeDisplayName (config : Config) : Option String → Option (Option String)
  | some name => (sanitizeName config name).map some
  | none => some none

end Admission

/-- A `Join` on its way through the hook and the dispatch. -/
structure JoinRequest where
  participant : ParticipantId
  roomId : RoomId
  displayName : Option String
  token : Option String
deriving DecidableEq

/-- The request of a `Join`, none for other messages. -/
def SdpMessage.joinRequest : SdpMessage → Option JoinRequest
  | .join participant roomId displayName token => some { participant, roomId, displayName, token }
  | _ => none

/-- The message a request is dispatched as. -/
def JoinRequest.message (request : JoinRequest) : SdpMessage :=
  .join request.participant request.roomId request.displayName request.token

/-- The sections of a `Join` handler. -/
inductive JoinStage where
  | prune
  | notifyPruned (pruned : List ParticipantId)
  | notifyRejoin (pruned : List ParticipantId)
  | ensureRoom
  | storeSession
  | announceCount
  | dispatch

/-- The sections of the handler of any other message. -/
inductive HookStage where
  /-- An offer's first lock: has the sender a media task. -/
  | mediaTask
  /-- `room_peers_for`, first lock. -/
  | session (hasMedia : Bool)
  /-- `room_peers_for`, second lock. -/
  | room (hasMedia : Bool) (roomId : RoomId)
  | act (peers : PeersRef)
  | mediaState
  | renegotiate (peers : PeersRef)
  | awaitReply
  | negotiate (peers : PeersRef)
  | register (peers : PeersRef) (peer : SfuPeer)
  | registerAll (peers : PeersRef) (peer : SfuPeer)
  | markMediaTask (peers : PeersRef) (peer : SfuPeer)
  | spawn (peers : PeersRef) (peer : SfuPeer)
  | candidate
  | dispatch

/-- The rooms a disconnect affects, each with whether it is gone. -/
abbrev Affected := List (RoomId × Bool)

/-- The sections of the cleanup after a connection. -/
inductive LeaveStage where
  | checkStale
  | disconnect
  /-- The status broadcasts still to be made, and all affected rooms. -/
  | announce (pending affected : Affected)
  | routes (affected : Affected)
  | allPeers (affected : Affected)
  | lookup (roomId : RoomId) (gone : Bool) (rest : Affected)
  | stopScreen (peers : PeersRef) (roomId : RoomId) (gone : Bool) (rest : Affected)
  | dropPeer (peers : PeersRef) (roomId : RoomId) (gone : Bool) (rest : Affected)
  | dropRoom (roomId : RoomId) (rest : Affected)
  | dropSession

/-- A message other than `Join` in handling, with the text it came as. -/
structure Handled where
  message : SdpMessage
  raw : String
  notJoin : message.joinRequest = none

/-- Where a connection's task stands. -/
inductive Point where
  /-- At the top of the loop. -/
  | idle
  /-- An authenticated first `Join`, before the capacity check. -/
  | precheck (request : JoinRequest)
  /-- An authenticated first `Join`, before its generation is on record. -/
  | register (request : JoinRequest)
  /-- A `Join`, the connection's first or a later one. -/
  | joining (first : Bool) (request : JoinRequest) (stage : JoinStage)
  | handling (handled : Handled) (stage : HookStage)
  | leaving (stage : LeaveStage)
  | ended

/-- A connection's task. -/
structure Connection where
  participantId : Option ParticipantId
  /-- Whether the deadline for the public key is armed. -/
  e2eeDeadline : Bool
  point : Point

/-- What is recorded of a run. -/
inductive Deed where
  /-- `on_authenticate` accepted a participant for a room on a connection. -/
  | authenticated (connection : WsSink) (participant : ParticipantId) (roomId : RoomId)
  /-- A connection's generation was put on record for a participant. -/
  | registered (connection : WsSink) (participant : ParticipantId)
  /-- A `Join` was admitted. -/
  | joined (connection : WsSink) (participant : ParticipantId) (roomId : RoomId)
  /-- A `Leave` was dispatched. -/
  | left (participant : ParticipantId) (roomId : RoomId)
deriving DecidableEq

/-- The whole server. A connection is named by its generation, and so is its
sink. -/
structure World where
  signaling : SignalingState
  sfu : SfuServer
  connections : Table WsSink Connection
  /-- The sinks whose receiving half is dropped. -/
  closed : List WsSink
  nextConnection : WsSink
  sent : List Sent
  commands : List Command
  deeds : List Deed

/-- What one section of one connection's task leaves. -/
structure Turn where
  connection : Connection
  signaling : SignalingState
  sfu : SfuServer
  sent : List Sent
  commands : List Command
  deed : Option Deed

namespace World

/-- A server nobody has connected to. -/
def new (e2eeRequired : Bool) : World :=
  { signaling := .new e2eeRequired, sfu := .new, connections := ∅, closed := [],
    nextConnection := 1, sent := [], commands := [], deeds := [] }

/-- Whether a sink is closed. -/
def isClosed (world : World) (sink : WsSink) : Bool := decide (sink ∈ world.closed)

/-- The signaling state once a room is rid of its closed members. -/
def pruned (world : World) (roomId : RoomId) : SignalingState :=
  (world.signaling.pruneStale roomId world.isClosed).2

/-- A section that only moves the connection on. -/
def turn (world : World) (connection : Connection) : Turn :=
  { connection, signaling := world.signaling, sfu := world.sfu, sent := [], commands := [],
    deed := none }

/-- Take over what a section of a connection leaves. -/
def commit (world : World) (id : WsSink) (turn : Turn) : World :=
  { world with
    signaling := turn.signaling
    sfu := turn.sfu
    connections := world.connections.insert id turn.connection
    sent := world.sent ++ turn.sent
    commands := world.commands ++ turn.commands
    deeds := turn.deed.toList ++ world.deeds }

end World

/-- The task moves to another point. -/
def Connection.goto (connection : Connection) (point : Point) : Connection :=
  { connection with point }

/-- Where a `Join` handler starts. -/
def Config.joinStart (config : Config) : JoinStage :=
  match config.hooks with
  | .noop => .dispatch
  | .sfu => .prune

/-- Where the handler of another message starts. -/
def Config.hookStart (config : Config) (message : SdpMessage) : HookStage :=
  match config.hooks with
  | .noop => .dispatch
  | .sfu =>
      match message with
      | .offer _ _ _ _ => .mediaTask
      | .iceCandidate _ _ _ _ _ _ => .candidate
      | .requestKeyframe _ _ _ | .screenShareStarted _ _ _ | .screenShareStopped _ _ _
      | .muteAudio _ _ | .unmuteAudio _ _ | .videoConfigChanged _ _ _ _ _ => .session false
      | .muteVideo _ _ | .unmuteVideo _ _ => .mediaState
      | _ => .dispatch

/-- Where the handler of a message on a bound connection starts. -/
def Config.start (config : Config) (message : SdpMessage) (raw : String) : Point :=
  match notJoin : message.joinRequest with
  | some request => .joining false request config.joinStart
  | none => .handling { message, raw, notJoin } (config.hookStart message)

namespace Connection

/-- The first `Join` of a connection. A name whose cut panics ends the task, and
so does a refusal of the authentication hook; neither cleans up. -/
def receiveFirst (config : Config) (world : World) (id : WsSink) (connection : Connection)
    (request : JoinRequest) (auth : Except String Unit) : Turn :=
  if validRoomId config request.roomId then
    match sanitizeDisplayName config request.displayName with
    | none => world.turn (connection.goto .ended)
    | some displayName =>
        match auth with
        | .error reason =>
            { world.turn (connection.goto .ended) with
              sent := [(id, .serialised (.error 401 reason))] }
        | .ok _ =>
            { world.turn (connection.goto (.precheck { request with displayName, token := none })) with
              deed := some (.authenticated id request.participant request.roomId) }
  else
    { world.turn connection with
      sent := [(id, .serialised (.error 400
        s!"invalid room_id (max {config.maxRoomIdLen} chars, no control chars)"))] }

/-- A message on a bound connection. Any `e2ee_public_key` disarms the deadline,
even one that the rate check then drops. -/
def receiveNext (config : Config) (world : World) (connection : Connection)
    (message : SdpMessage) (raw : String) (rateOk : Bool) : Turn :=
  let heard : Connection :=
    match message with
    | .e2eePublicKey _ _ _ => { connection with e2eeDeadline := false }
    | _ => connection
  if rateOk && (message.roomId.map (acceptedRoomId config)).getD true then
    world.turn (heard.goto (config.start message raw))
  else world.turn heard

/-- A text arrives at the top of the loop. A text that does not parse is dropped,
and before the first `Join` so is every other message. -/
def receive (config : Config) (world : World) (id : WsSink) (connection : Connection)
    (raw : String) (parsed : Option SdpMessage) (auth : Except String Unit) (rateOk : Bool) :
    Turn :=
  match parsed with
  | none => world.turn connection
  | some message =>
      match connection.participantId with
      | some _ => connection.receiveNext config world message raw rateOk
      | none =>
          match message.joinRequest with
          | some request => connection.receiveFirst config world id request auth
          | none => world.turn connection

/-- After the loop: a connection that is bound to a participant cleans up. -/
def finish (connection : Connection) : Connection :=
  match connection.participantId with
  | some _ => connection.goto (.leaving .checkStale)
  | none => connection.goto .ended

/-- The capacity check of a first `Join`. -/
def precheckSection (config : Config) (world : World) (id : WsSink) (connection : Connection)
    (request : JoinRequest) : Turn :=
  if world.signaling.full request.roomId config.maxRoomMembers then
    { world.turn (connection.goto .idle) with sent := [(id, SignalingState.roomIsFull)] }
  else world.turn (connection.goto (.register request))

/-- The connection is bound and its generation put on record. -/
def registerSection (config : Config) (world : World) (id : WsSink) (connection : Connection)
    (request : JoinRequest) : Turn :=
  { world.turn
      { connection with
        participantId := some request.participant
        point := .joining true request config.joinStart } with
    signaling := world.signaling.setConnectionGen request.participant id
    deed := some (.registered id request.participant) }

/-- Whether a `Join` is admitted: once the closed members are gone, there is a
place. -/
def admits (config : Config) (world : World) (roomId : RoomId) : Bool :=
  !(world.pruned roomId).full roomId config.maxRoomMembers

/-- One section of a `Join` handler: the media server's hook, then the dispatch.
The session is stored for the participant the connection is bound to, the
membership made for the one the message names. -/
def joinSection (config : Config) (world : World) (id : WsSink) (connection : Connection)
    (pid : ParticipantId) (first : Bool) (request : JoinRequest) : JoinStage → Turn
  | .prune =>
      let (pruned, signaling) := world.signaling.pruneStale request.roomId world.isClosed
      { world.turn (connection.goto (.joining first request (.notifyPruned pruned))) with signaling }
  | .notifyPruned pruned =>
      { world.turn (connection.goto (.joining first request (.notifyRejoin pruned))) with
        commands :=
          if pruned.isEmpty then [] else world.sfu.notifyPruned request.roomId pruned }
  | .notifyRejoin pruned =>
      { world.turn (connection.goto (.joining first request .ensureRoom)) with
        commands := if pid ∈ pruned then [] else world.sfu.notifyRejoin request.roomId pid }
  | .ensureRoom =>
      { world.turn (connection.goto (.joining first request .storeSession)) with
        sfu := world.sfu.ensureRoom request.roomId }
  | .storeSession =>
      { world.turn (connection.goto (.joining first request .announceCount)) with
        sfu := world.sfu.storeSession pid request.roomId }
  | .announceCount =>
      { world.turn (connection.goto (.joining first request .dispatch)) with
        commands := world.sfu.announceCount request.roomId }
  | .dispatch =>
      let (signaling, sent) := world.signaling.dispatch request.message "" pid id world.isClosed
        config.maxChatHistory config.maxRoomMembers
      { world.turn
          { connection with
            point := .idle
            e2eeDeadline := connection.e2eeDeadline || (first && config.requireE2ee) } with
        signaling, sent
        deed :=
          if admits config world request.roomId then
            some (.joined id request.participant request.roomId)
          else none }

/-- Once the room's map is done with, or there is none, the handlers that change
a flag of the sender go on to it. -/
def afterRoom (pid : ParticipantId) (handled : Handled) : Point :=
  if (SfuServer.mediaChange pid handled.message).isSome then .handling handled .mediaState
  else .idle

/-- The answer to an offer, on the sender's own sink. -/
def answerTo (id : WsSink) (pid : ParticipantId) (sdp : String) : Sent :=
  (id, .serialised (.answer pid pid "sfu" sdp))

/-- One section of the handler of any other message. The answer is what the
peer-connection library or the media task replies to an offer. -/
def hookSection (config : Config) (world : World) (id : WsSink) (connection : Connection)
    (pid : ParticipantId) (handled : Handled) (answer : Option String) : HookStage → Turn
  | .mediaTask =>
      world.turn (connection.goto (.handling handled (.session (world.sfu.hasMedia pid))))
  | .session hasMedia =>
      match world.sfu.currentRoom pid with
      | some roomId => world.turn (connection.goto (.handling handled (.room hasMedia roomId)))
      | none => world.turn (connection.goto (afterRoom pid handled))
  | .room hasMedia roomId =>
      match world.sfu.roomPeers roomId, handled.message with
      | none, _ => world.turn (connection.goto (afterRoom pid handled))
      | some peers, .offer _ _ _ _ =>
          world.turn (connection.goto
            (.handling handled (if hasMedia then .renegotiate peers else .negotiate peers)))
      | some peers, _ => world.turn (connection.goto (.handling handled (.act peers)))
  | .act peers =>
      let (sent, commands) := SfuServer.act (world.sfu.peersOf peers) pid handled.message
      { world.turn (connection.goto (afterRoom pid handled)) with sent, commands }
  | .mediaState =>
      match SfuServer.mediaChange pid handled.message with
      | some (roomId, change) =>
          let (signaling, sent) := world.signaling.announce roomId change
          { world.turn (connection.goto .idle) with signaling, sent }
      | none => world.turn (connection.goto .idle)
  | .renegotiate peers =>
      match (world.sfu.peersOf peers).lookup pid, handled.message with
      | some _, .offer _ _ _ sdp =>
          { world.turn (connection.goto (.handling handled .awaitReply)) with
            commands := (world.sfu.peersOf peers).tellOne pid (.renegotiationOffer sdp) }
      | _, _ => world.turn (connection.goto .idle)
  | .awaitReply =>
      match answer with
      | some sdp =>
          { world.turn (connection.goto .idle) with
            sent := if sdp.isEmpty then [] else [answerTo id pid sdp] }
      | none => world.turn (connection.goto .idle)
  | .negotiate peers =>
      match answer with
      | some sdp =>
          let peer : SfuPeer := { wsTx := id, gen := world.sfu.nextPeerGen }
          { world.turn (connection.goto (.handling handled (.register peers peer))) with
            sent := [answerTo id pid sdp]
            sfu := { world.sfu with nextPeerGen := world.sfu.nextPeerGen + 1 } }
      | none => world.turn (connection.goto .idle)
  | .register peers peer =>
      { world.turn (connection.goto (.handling handled (.registerAll peers peer))) with
        sfu := world.sfu.register peers pid peer }
  | .registerAll peers peer =>
      { world.turn (connection.goto (.handling handled (.markMediaTask peers peer))) with
        sfu := world.sfu.registerAll pid peer }
  | .markMediaTask peers peer =>
      { world.turn (connection.goto (.handling handled (.spawn peers peer))) with
        sfu := world.sfu.markMediaTask pid }
  | .spawn peers peer =>
      { world.turn (connection.goto .idle) with sfu := world.sfu.spawn pid peers peer }
  | .candidate =>
      match handled.message with
      | .iceCandidate _ _ _ candidate _ _ =>
          { world.turn (connection.goto .idle) with
            commands := world.sfu.allPeers.tellOne pid (.iceCandidate candidate) }
      | _ => world.turn (connection.goto .idle)
  | .dispatch =>
      let (signaling, sent) := world.signaling.dispatch handled.message handled.raw pid id
        world.isClosed config.maxChatHistory config.maxRoomMembers
      { world.turn (connection.goto .idle) with
        signaling, sent
        deed :=
          match handled.message with
          | .leave participant roomId => some (.left participant roomId)
          | _ => none }

/-- The section of `on_disconnect` that follows when the rest of the affected
rooms remains. -/
def roomsLeft : Affected → LeaveStage
  | [] => .dropSession
  | (roomId, gone) :: rest => .lookup roomId gone rest

/-- What follows when a room's map is done with. -/
def afterPeers (roomId : RoomId) (gone : Bool) (rest : Affected) : LeaveStage :=
  if gone then .dropRoom roomId rest else roomsLeft rest

/-- One section of the cleanup. -/
def leaveSection (config : Config) (world : World) (id : WsSink) (connection : Connection)
    (pid : ParticipantId) : LeaveStage → Turn
  | .checkStale =>
      if world.signaling.connectionGen pid = some id then
        world.turn (connection.goto (.leaving .disconnect))
      else world.turn (connection.goto .ended)
  | .disconnect =>
      let (affected, signaling) := world.signaling.disconnect pid
      { world.turn (connection.goto (.leaving (.announce affected affected))) with signaling }
  | .announce ((roomId, _) :: pending) affected =>
      { world.turn (connection.goto (.leaving (.announce pending affected))) with
        sent := broadcastRoomStatus world.signaling roomId }
  | .announce [] affected =>
      match config.hooks with
      | .noop => world.turn (connection.goto .ended)
      | .sfu => world.turn (connection.goto (.leaving (.routes affected)))
  | .routes affected =>
      { world.turn (connection.goto (.leaving (.allPeers affected))) with
        sfu := world.sfu.dropRoutes pid }
  | .allPeers affected =>
      { world.turn (connection.goto (.leaving (roomsLeft affected))) with
        sfu := world.sfu.dropFromAll pid }
  | .lookup roomId gone rest =>
      match world.sfu.roomPeers roomId with
      | some peers => world.turn (connection.goto (.leaving (.stopScreen peers roomId gone rest)))
      | none => world.turn (connection.goto (.leaving (afterPeers roomId gone rest)))
  | .stopScreen peers roomId gone rest =>
      let (sent, commands) := world.sfu.stopScreen peers pid roomId
      { world.turn (connection.goto (.leaving (.dropPeer peers roomId gone rest))) with
        sent, commands }
  | .dropPeer peers roomId gone rest =>
      { world.turn (connection.goto (.leaving (afterPeers roomId gone rest))) with
        sfu := world.sfu.dropPeer peers pid }
  | .dropRoom roomId rest =>
      { world.turn (connection.goto (.leaving (roomsLeft rest))) with
        sfu := world.sfu.dropRoom roomId }
  | .dropSession =>
      { world.turn (connection.goto .ended) with sfu := world.sfu.dropSession pid }

/-- The next section of a connection's task, if it is between two. -/
def advance (config : Config) (world : World) (id : WsSink) (connection : Connection)
    (answer : Option String) : Option Turn :=
  match connection.point, connection.participantId with
  | .precheck request, none => some (connection.precheckSection config world id request)
  | .register request, none => some (connection.registerSection config world id request)
  | .joining first request stage, some pid =>
      some (connection.joinSection config world id pid first request stage)
  | .handling handled stage, some pid =>
      some (connection.hookSection config world id pid handled answer stage)
  | .leaving stage, some pid => some (connection.leaveSection config world id pid stage)
  | _, _ => none

end Connection

/-- What happens next. -/
inductive Event where
  | connect
  /-- A text arrives; what it parses as, and what the authentication hook and the
  rate check answer if they are asked. -/
  | receive (id : WsSink) (raw : String) (parsed : Option SdpMessage) (auth : Except String Unit)
      (rateOk : Bool)
  /-- The next section of a connection's task; the answer to its offer, if it waits
  for one. -/
  | advance (id : WsSink) (answer : Option String)
  /-- The transport reports the end of a connection. -/
  | hangUp (id : WsSink)
  /-- The deadline for the public key fires. -/
  | deadline (id : WsSink)
  /-- The receiving half of a connection's sink is dropped: the writer failed, or it
  was aborted after the end of the connection. -/
  | writerEnds (id : WsSink)
  | mediaEnds (task : MediaTask)
  /-- A media task's connection is reached from an address. -/
  | routed (source : SocketAddr) (task : MediaTask)

namespace World

/-- Where a connection's task stands, and for whom. -/
def task (world : World) (id : WsSink) : Option (Point × Option ParticipantId) :=
  (world.connections.lookup id).map fun connection => (connection.point, connection.participantId)

/-- A section of one connection's task. -/
def turned (world : World) (id : WsSink) (next : Connection → Option Turn) : Option World :=
  (world.connections.lookup id).bind fun connection =>
    (next connection).map (world.commit id)

/-- What a connection does at the top of its loop. -/
def whenIdle (connection : Connection) (turn : Turn) : Option Turn :=
  match connection.point with
  | .idle => some turn
  | _ => none

/-- One step of the server; none when the event cannot happen. -/
def step (config : Config) (world : World) : Event → Option World
  | .connect =>
      some { world with
        connections := world.connections.insert world.nextConnection
          { participantId := none, e2eeDeadline := false, point := .idle }
        nextConnection := world.nextConnection + 1 }
  | .receive id raw parsed auth rateOk =>
      world.turned id fun connection =>
        whenIdle connection (connection.receive config world id raw parsed auth rateOk)
  | .advance id answer =>
      world.turned id fun connection => connection.advance config world id answer
  | .hangUp id =>
      world.turned id fun connection => whenIdle connection (world.turn connection.finish)
  | .deadline id =>
      world.turned id fun connection =>
        if connection.e2eeDeadline then
          whenIdle connection
            { world.turn connection.finish with
              sent := [(id, .serialised (.error 403 "e2ee_required"))] }
        else none
  | .writerEnds id =>
      (world.connections.lookup id).map fun _ => { world with closed := id :: world.closed }
  | .mediaEnds task =>
      if task ∈ world.sfu.mediaTasks then some { world with sfu := world.sfu.endMediaTask task }
      else none
  | .routed source task =>
      if task ∈ world.sfu.mediaTasks then some { world with sfu := world.sfu.addRoute source task.pid }
      else none

end World

namespace Event

/-- A `Join` arrives, and the authentication hook would accept it. -/
def join (id : WsSink) (participant : ParticipantId) (roomId : RoomId) : Event :=
  .receive id "" (some (.join participant roomId none none)) (.ok ()) true

/-- Sections of one connection's task in a row. -/
def sections (id : WsSink) (count : Nat) : List Event :=
  List.replicate count (.advance id none)

/-- A first `Join` from its arrival to the end of its dispatch, uninterrupted. -/
def firstJoin (id : WsSink) (participant : ParticipantId) (roomId : RoomId) : List Event :=
  .join id participant roomId :: sections id 9

/-- A later `Join` from its arrival to the end of its dispatch, uninterrupted. -/
def laterJoin (id : WsSink) (participant : ParticipantId) (roomId : RoomId) : List Event :=
  .join id participant roomId :: sections id 7

end Event

end Seameet
