import Seameet.Library.Table
import Seameet.Media.Task
import Seameet.Signaling.State

/-!
# The media server's tables

The media server keeps, next to the signaling state, a map of registered peers
for each room, one map of all peers, the addresses packets are routed by, and a
session for each participant. The map of a room is shared: a handler that has
looked it up goes on using it even after the room is dropped or made anew, so
each map ever made has a reference of its own and the room names the reference.

Each definition here is what one section of the server's hooks does under the
locks it holds; the order of the sections is the engine's matter. Commands go
to a media task through its peer's channel and are listed with that peer.
-/

namespace Seameet

open Library

/-- The identity of a shared map of registered peers. -/
abbrev PeersRef := Nat

/-- A registered peer: where its texts go and which media task serves it. -/
structure SfuPeer where
  wsTx : WsSink
  gen : Nat
deriving DecidableEq

/-- A map of registered peers. -/
abbrev Peers := Table ParticipantId SfuPeer

/-- Per-connection state keyed by participant. -/
structure PeerSession where
  hasMediaTask : Bool
  currentRoomId : Option RoomId
deriving DecidableEq

/-- A command queued for a media task. -/
structure Command where
  peer : ParticipantId
  gen : Nat
  cmd : PeerCmd
deriving DecidableEq

/-- A spawned media task, with what it was started with. -/
structure MediaTask where
  pid : ParticipantId
  peers : PeersRef
  wsTx : WsSink
  roomId : RoomId
  gen : Nat
deriving DecidableEq

/-- The media server. -/
structure SfuServer where
  rooms : Table RoomId PeersRef
  /-- The contents of every map of peers made so far. -/
  maps : Table PeersRef Peers
  /-- The reference of the next map. -/
  nextRef : PeersRef
  allPeers : Peers
  routes : Table SocketAddr ParticipantId
  sessions : Table ParticipantId PeerSession
  nextPeerGen : Nat
  mediaTasks : List MediaTask

namespace Peers

/-- A command for every peer that passes the test. -/
def tell (peers : Peers) (addressed : ParticipantId → Bool) (cmd : PeerCmd) : List Command :=
  (peers.entries.filter fun entry => addressed entry.1).map fun entry =>
    { peer := entry.1, gen := entry.2.gen, cmd }

/-- A command for one peer, if it is registered. -/
def tellOne (peers : Peers) (target : ParticipantId) (cmd : PeerCmd) : List Command :=
  ((peers.lookup target).map fun peer => { peer := target, gen := peer.gen, cmd }).toList

/-- A message on the sinks of all peers but one. -/
def textOthers (peers : Peers) (exclude : ParticipantId) (message : SdpMessage) : List Sent :=
  (peers.entries.filter fun entry => entry.1 ≠ exclude).map fun entry =>
    (entry.2.wsTx, .serialised message)

end Peers

namespace SfuServer

/-- A server that has served nobody. -/
def new : SfuServer :=
  { rooms := ∅, maps := ∅, nextRef := 0, allPeers := ∅, routes := ∅, sessions := ∅,
    nextPeerGen := 1, mediaTasks := [] }

/-- The contents of a map. -/
def peersOf (server : SfuServer) (peers : PeersRef) : Peers := (server.maps.lookup peers).getD ∅

/-- First lock of `room_peers_for`: the room of the participant's session. -/
def currentRoom (server : SfuServer) (pid : ParticipantId) : Option RoomId :=
  (server.sessions.lookup pid).bind PeerSession.currentRoomId

/-- Second lock of `room_peers_for`: the room's map. -/
def roomPeers (server : SfuServer) (roomId : RoomId) : Option PeersRef := server.rooms.lookup roomId

/-- `room_peers_for`, when nothing comes between its two locks. -/
def roomPeersFor (server : SfuServer) (pid : ParticipantId) : Option PeersRef :=
  (server.currentRoom pid).bind server.roomPeers

/-- The contents of a room's map, none when the room has none. -/
def peersIn (server : SfuServer) (roomId : RoomId) : Option Peers :=
  (server.roomPeers roomId).map server.peersOf

section Join

/-- Tell the room's media tasks of each pruned member. -/
def notifyPruned (server : SfuServer) (roomId : RoomId) (pruned : List ParticipantId) :
    List Command :=
  match server.peersIn roomId with
  | some peers => pruned.flatMap fun stale => peers.tell (· ≠ stale) (.peerLeft stale)
  | none => []

/-- Tell the other media tasks of the room that a registered peer joins again. -/
def notifyRejoin (server : SfuServer) (roomId : RoomId) (pid : ParticipantId) : List Command :=
  match server.peersIn roomId with
  | some peers => if (peers.lookup pid).isSome then peers.tell (· ≠ pid) (.peerLeft pid) else []
  | none => []

/-- Make the room's map unless there is one. -/
def ensureRoom (server : SfuServer) (roomId : RoomId) : SfuServer :=
  match server.rooms.lookup roomId with
  | some _ => server
  | none =>
      { server with
        rooms := server.rooms.insert roomId server.nextRef
        maps := server.maps.insert server.nextRef ∅
        nextRef := server.nextRef + 1 }

/-- Store a fresh session. -/
def storeSession (server : SfuServer) (pid : ParticipantId) (roomId : RoomId) : SfuServer :=
  { server with
    sessions := server.sessions.insert pid { hasMediaTask := false, currentRoomId := some roomId } }

/-- Tell every media task of the room how many peers are registered. -/
def announceCount (server : SfuServer) (roomId : RoomId) : List Command :=
  match server.peersIn roomId with
  | some peers => peers.tell (fun _ => true) (.peerCountChanged peers.entries.length)
  | none => []

end Join

section Offer

/-- Whether the participant's session has a media task. -/
def hasMedia (server : SfuServer) (pid : ParticipantId) : Bool :=
  ((server.sessions.lookup pid).map PeerSession.hasMediaTask).getD false

/-- Enter a peer into a map. -/
def register (server : SfuServer) (peers : PeersRef) (pid : ParticipantId) (peer : SfuPeer) :
    SfuServer :=
  { server with maps := server.maps.insert peers ((server.peersOf peers).insert pid peer) }

/-- Enter a peer into the map of all peers. -/
def registerAll (server : SfuServer) (pid : ParticipantId) (peer : SfuPeer) : SfuServer :=
  { server with allPeers := server.allPeers.insert pid peer }

/-- Note in the session, if there is one, that a media task serves it. -/
def markMediaTask (server : SfuServer) (pid : ParticipantId) : SfuServer :=
  { server with
    sessions := server.sessions.modify pid fun session => { session with hasMediaTask := true } }

/-- Start the media task, for the room the session names. -/
def spawn (server : SfuServer) (pid : ParticipantId) (peers : PeersRef) (peer : SfuPeer) :
    SfuServer :=
  let roomId := (server.currentRoom pid).getD ""
  { server with
    mediaTasks := server.mediaTasks ++ [{ pid, peers, wsTx := peer.wsTx, roomId, gen := peer.gen }] }

end Offer

/-- What a handler of the sender's room does with the room's map: the commands
and texts it places. The commands go by the participant the message names, the
texts to everybody but the sender. -/
def act (peers : Peers) (pid : ParticipantId) : SdpMessage → List Sent × List Command
  | .requestKeyframe _ target _ => ([], peers.tellOne target .requestKeyframe)
  | .screenShareStarted sender roomId trackId =>
      (peers.textOthers pid (.screenShareStarted sender roomId trackId),
        peers.tellOne sender (.screenShareActive true))
  | .screenShareStopped sender roomId trackId =>
      (peers.textOthers pid (.screenShareStopped sender roomId trackId),
        peers.tellOne sender (.screenShareActive false) ++
          peers.tell (· ≠ pid) (.sourceScreenStopped sender))
  | .muteAudio sender _ =>
      ([], peers.tellOne sender (.setMuted true) ++
        peers.tell (· ≠ sender) (.peerMuteChanged sender true))
  | .unmuteAudio sender _ =>
      ([], peers.tellOne sender (.setMuted false) ++
        peers.tell (· ≠ sender) (.peerMuteChanged sender false))
  | .videoConfigChanged sender roomId width height fps =>
      (peers.textOthers pid (.videoConfigChanged sender roomId width height fps), [])
  | _ => ([], [])

/-- The room and the sender's flag a handler changes in the signaling state. -/
def mediaChange (pid : ParticipantId) : SdpMessage → Option (RoomId × (Room → Room))
  | .screenShareStarted _ roomId _ => some (roomId, fun room => room.setScreenSharing pid true)
  | .screenShareStopped _ roomId _ => some (roomId, fun room => room.setScreenSharing pid false)
  | .muteAudio _ roomId => some (roomId, fun room => room.setAudioMuted pid true)
  | .unmuteAudio _ roomId => some (roomId, fun room => room.setAudioMuted pid false)
  | .muteVideo _ roomId => some (roomId, fun room => room.setVideoMuted pid true)
  | .unmuteVideo _ roomId => some (roomId, fun room => room.setVideoMuted pid false)
  | _ => none

/-- The flag is one of the sender's own. -/
theorem mediaChange_flag {pid : ParticipantId} {message : SdpMessage} {roomId : RoomId}
    {change : Room → Room} (changed : mediaChange pid message = some (roomId, change)) :
    ∃ flag, change = fun room => room.setMedia pid flag := by
  cases message <;> simp only [mediaChange, reduceCtorEq, Option.some.injEq, Prod.mk.injEq]
    at changed <;> exact ⟨_, changed.2.symm⟩

section Disconnect

/-- Drop the routes that lead to a participant. -/
def dropRoutes (server : SfuServer) (pid : ParticipantId) : SfuServer :=
  { server with routes := server.routes.retain fun _ owner => owner ≠ pid }

/-- Drop a participant from the map of all peers. -/
def dropFromAll (server : SfuServer) (pid : ParticipantId) : SfuServer :=
  { server with allPeers := server.allPeers.erase pid }

/-- Tell the other peers of a map, and their media tasks, of a departure. -/
def stopScreen (server : SfuServer) (peers : PeersRef) (pid : ParticipantId) (roomId : RoomId) :
    List Sent × List Command :=
  ((server.peersOf peers).textOthers pid (.screenShareStopped pid roomId 0),
    (server.peersOf peers).tell (· ≠ pid) (.peerLeft pid))

/-- Drop a participant from a map. -/
def dropPeer (server : SfuServer) (peers : PeersRef) (pid : ParticipantId) : SfuServer :=
  { server with maps := server.maps.insert peers ((server.peersOf peers).erase pid) }

/-- Drop a room. -/
def dropRoom (server : SfuServer) (roomId : RoomId) : SfuServer :=
  { server with rooms := server.rooms.erase roomId }

/-- Drop a session. -/
def dropSession (server : SfuServer) (pid : ParticipantId) : SfuServer :=
  { server with sessions := server.sessions.erase pid }

end Disconnect

/-- End of a media task: its entry goes from its map unless a later task has
replaced it. -/
def endMediaTask (server : SfuServer) (task : MediaTask) : SfuServer :=
  let ended := { server with mediaTasks := server.mediaTasks.erase task }
  match (server.peersOf task.peers).lookup task.pid with
  | some peer => if peer.gen = task.gen then ended.dropPeer task.peers task.pid else ended
  | none => ended

/-- A media task's connection is reached from an address. -/
def addRoute (server : SfuServer) (source : SocketAddr) (pid : ParticipantId) : SfuServer :=
  { server with routes := server.routes.insert source pid }

/-- Whether a participant is in a map. -/
def inMap (server : SfuServer) (peers : PeersRef) (pid : ParticipantId) : Bool :=
  ((server.peersOf peers).lookup pid).isSome

/-- Whether a participant is in the present map of a room. -/
def registered (server : SfuServer) (roomId : RoomId) (pid : ParticipantId) : Bool :=
  match server.roomPeers roomId with
  | some peers => server.inMap peers pid
  | none => false

/-- Every participant registered in a room passes the test. -/
def everyRegistered (server : SfuServer) (roomId : RoomId) (test : ParticipantId → Bool) : Bool :=
  match server.peersIn roomId with
  | some peers => peers.keys.all test
  | none => true

/-- Every room a participant is registered in passes the test. -/
def everyRoomOf (server : SfuServer) (pid : ParticipantId) (test : RoomId → Bool) : Bool :=
  server.rooms.keys.all fun roomId => !server.registered roomId pid || test roomId

variable (server : SfuServer) (peers tested : PeersRef) (pid other : ParticipantId)
variable (roomId : RoomId)

/-- Being registered in a room is being in the map the room names. -/
theorem registered_iff : server.registered roomId pid = true ↔
    ∃ peers, server.roomPeers roomId = some peers ∧ server.inMap peers pid = true := by
  unfold registered
  cases server.roomPeers roomId <;> simp

/-- A test of every participant registered in a room. -/
theorem everyRegistered_iff (test : ParticipantId → Bool) :
    server.everyRegistered roomId test = true ↔
      ∀ pid, server.registered roomId pid = true → test pid = true := by
  unfold everyRegistered registered peersIn
  cases server.roomPeers roomId with
  | none => simp
  | some peers =>
    simp only [Option.map_some, List.all_eq_true, inMap, Option.isSome_iff_exists]
    constructor
    · intro each pid stored
      exact each pid ((Table.mem_keys pid _).mpr stored)
    · intro each pid present
      exact each pid ((Table.mem_keys pid _).mp present)

/-- A test of every room a participant is registered in. -/
theorem everyRoomOf_iff (test : RoomId → Bool) :
    server.everyRoomOf pid test = true ↔
      ∀ roomId, server.registered roomId pid = true → test roomId = true := by
  unfold everyRoomOf
  rw [List.all_eq_true]
  constructor
  · intro each roomId present
    obtain ⟨peers, named, _⟩ := (server.registered_iff pid roomId).mp present
    have tested := each roomId ((Table.mem_keys roomId _).mpr ⟨peers, named⟩)
    simpa [present] using tested
  · intro each roomId _
    cases present : server.registered roomId pid with
    | false => rfl
    | true => simpa using each roomId present

/-- Reading a map once a peer is entered. -/
theorem lookup_register (peer : SfuPeer) :
    ((server.register peers pid peer).peersOf tested).lookup other =
      if tested = peers ∧ other = pid then some peer else (server.peersOf tested).lookup other := by
  simp only [peersOf, register, Table.lookup_insert_eq]
  by_cases same : tested = peers
  · subst same
    rw [if_pos rfl, Option.getD_some, Table.lookup_insert_eq]
    simp
  · rw [if_neg same, if_neg fun both => same both.1]

/-- Who is in which map once a peer is entered. -/
theorem inMap_register (peer : SfuPeer) :
    (server.register peers pid peer).inMap tested other =
      (decide (tested = peers ∧ other = pid) || server.inMap tested other) := by
  rw [inMap, lookup_register]
  by_cases mine : tested = peers ∧ other = pid <;> simp [mine, inMap]

/-- Who is in which map once a peer is dropped. -/
theorem inMap_dropPeer :
    (server.dropPeer peers pid).inMap tested other =
      (!decide (tested = peers ∧ other = pid) && server.inMap tested other) := by
  simp only [inMap, peersOf, dropPeer, Table.lookup_insert_eq]
  by_cases same : tested = peers
  · subst same
    by_cases own : other = pid <;> simp [own, Table.lookup_erase_eq]
  · simp [same]

/-- Making a room's map registers nobody, and a room anybody is registered in
keeps its map. -/
theorem registered_of_ensureRoom {room : RoomId}
    (present : (server.ensureRoom roomId).registered room pid = true) :
    server.registered room pid = true ∧
      (server.ensureRoom roomId).roomPeers room = server.roomPeers room := by
  unfold ensureRoom at present ⊢
  cases stored : server.rooms.lookup roomId with
  | some peers =>
    rw [stored] at present
    exact ⟨present, rfl⟩
  | none =>
    rw [stored] at present
    simp only [registered_iff, roomPeers, inMap, peersOf, Table.lookup_insert_eq] at present ⊢
    obtain ⟨peers, named, entered⟩ := present
    by_cases own : peers = server.nextRef
    · simp [own] at entered
    · rw [if_neg own] at entered
      by_cases same : room = roomId
      · rw [if_pos same] at named
        exact absurd (Option.some.inj named).symm own
      · rw [if_neg same] at named
        exact ⟨⟨peers, named, entered⟩, by rw [if_neg same]⟩

/-- The rooms once a room's map is made sure of. -/
theorem roomPeers_ensureRoom {room : RoomId} :
    ((server.ensureRoom roomId).roomPeers room).isSome =
      (decide (room = roomId) || (server.roomPeers room).isSome) := by
  unfold ensureRoom roomPeers
  cases stored : server.rooms.lookup roomId with
  | some peers =>
    by_cases same : room = roomId
    · subst same
      simp [stored]
    · simp [same]
  | none =>
    simp only [Table.lookup_insert_eq]
    by_cases same : room = roomId <;> simp [same]

/-- Making a room's map keeps the rooms of all sessions. -/
theorem currentRoom_ensureRoom :
    (server.ensureRoom roomId).currentRoom pid = server.currentRoom pid := by
  unfold ensureRoom
  split <;> rfl

/-- Storing a session keeps the rooms of the others. -/
theorem currentRoom_storeSession_ne (apart : other ≠ pid) :
    (server.storeSession pid roomId).currentRoom other = server.currentRoom other := by
  simp only [currentRoom, storeSession, Table.lookup_insert_eq, if_neg apart]

/-- The end of a media task registers nobody and leaves rooms and sessions. -/
theorem endMediaTask_frame (task : MediaTask) :
    (server.endMediaTask task).rooms = server.rooms ∧
      (server.endMediaTask task).sessions = server.sessions ∧
      ((server.endMediaTask task).inMap peers pid = true → server.inMap peers pid = true) := by
  unfold endMediaTask
  extract_lets ended
  split
  · split
    · refine ⟨rfl, rfl, ?_⟩
      rw [inMap_dropPeer]
      intro present
      simp only [Bool.and_eq_true] at present
      exact present.2
    · exact ⟨rfl, rfl, fun present => present⟩
  · exact ⟨rfl, rfl, fun present => present⟩

/-- The end of a media task takes one media task off the list. -/
theorem mediaTasks_endMediaTask (task : MediaTask) :
    (server.endMediaTask task).mediaTasks = server.mediaTasks.erase task ∧
      (server.endMediaTask task).nextPeerGen = server.nextPeerGen := by
  unfold endMediaTask
  extract_lets ended
  split
  · split <;> exact ⟨rfl, rfl⟩
  · exact ⟨rfl, rfl⟩

/-- The end of a media task takes its own entry along and leaves all others. -/
theorem lookup_endMediaTask (task : MediaTask) (peer : SfuPeer) :
    ((server.endMediaTask task).peersOf peers).lookup pid = some peer ↔
      (server.peersOf peers).lookup pid = some peer ∧
        ¬(peers = task.peers ∧ pid = task.pid ∧ peer.gen = task.gen) := by
  have same : ∀ ref, (server.peersOf ref) = ((({ server with
      mediaTasks := server.mediaTasks.erase task }) : SfuServer).peersOf ref) := fun _ => rfl
  unfold endMediaTask
  extract_lets ended
  cases stored : (server.peersOf task.peers).lookup task.pid with
  | none =>
    refine ⟨fun present => ⟨present, ?_⟩, And.left⟩
    rintro ⟨rfl, rfl, _⟩
    exact absurd (stored.symm.trans present) (by simp)
  | some entry =>
    by_cases own : entry.gen = task.gen
    · simp only [own, ↓reduceIte]
      simp only [dropPeer, peersOf, Table.lookup_insert_eq]
      by_cases map : peers = task.peers
      · rw [if_pos map, Option.getD_some, Table.lookup_erase_eq, map]
        by_cases here : pid = task.pid
        · rw [if_pos here]
          constructor
          · exact fun impossible => absurd impossible (by simp)
          · rintro ⟨present, apart⟩
            rw [here] at present
            cases stored.symm.trans present
            exact absurd ⟨rfl, here, own⟩ apart
        · rw [if_neg here]
          exact ⟨fun present => ⟨present, fun all => here all.2.1⟩, And.left⟩
      · rw [if_neg map]
        exact ⟨fun present => ⟨present, fun all => map all.1⟩, And.left⟩
    · simp only [own, ↓reduceIte]
      refine ⟨fun present => ⟨present, ?_⟩, And.left⟩
      rintro ⟨rfl, rfl, gen⟩
      cases stored.symm.trans present
      exact own gen

end SfuServer

end Seameet
