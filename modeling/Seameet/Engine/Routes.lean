import Seameet.Engine.Service

/-!
# The route table

A datagram from an address without route goes to every media task, and a task that
is connected and has no route takes the first such datagram for its own: whether
its connection accepts it is not asked. So an address is routed wrongly when a
connected task meets another participant's datagram first, and a participant that
has left is routed when its task still takes a datagram. In runs where a task
registers a route only for its own participant's address and while the participant
is registered, and no cleanup of it stands between the two maps, every route leads
to the owner of its address and to somebody who is still there.
-/

namespace Seameet

open Library

/-- A cleanup of the participant has dropped its routes and not yet its entry among
all peers. -/
def Connection.unrouted (pid : ParticipantId) (connection : Connection) : Bool :=
  match connection.point with
  | .leaving (.allPeers _) => connection.participantId = some pid
  | _ => false

namespace Service

/-- A participant is among all peers and stays there for the present cleanups. -/
def reachable (service : Service) (pid : ParticipantId) : Bool :=
  (service.world.sfu.allPeers.lookup pid).isSome &&
    service.world.connections.values.all fun connection => !connection.unrouted pid

/-- If the step registers a route, the address is the participant's, and the
participant is reachable. -/
def routesOwn (owner : SocketAddr → ParticipantId) (service : Service) : ServiceEvent → Bool
  | .takes channel rtc =>
      match service.processes.lookup channel, service.queueOf channel with
      | some process, .udpPacket data source :: _ =>
          !(rtc.receives data && process.task.iceConnected && !process.task.routeRegistered) ||
            (decide (owner source = process.media.pid) && service.reachable process.media.pid)
      | _, _ => true
  | _ => true

/-- Every route leads to the owner of its address, who is among all peers, and a
cleanup that is about to leave them has no route left. -/
structure Routed (owner : SocketAddr → ParticipantId) (service : Service) : Prop where
  owned : ∀ source pid, service.world.sfu.routes.lookup source = some pid → owner source = pid
  present : ∀ source pid, service.world.sfu.routes.lookup source = some pid →
    (service.world.sfu.allPeers.lookup pid).isSome = true
  dropped : ∀ id connection pid, service.world.connections.lookup id = some connection →
    connection.unrouted pid = true → ∀ source, service.world.sfu.routes.lookup source ≠ some pid

variable {config : Config} {owner : SocketAddr → ParticipantId} {service after : Service}
  {event : ServiceEvent}

/-- What arrives at the top of a loop leaves no cleanup between the two maps. -/
theorem unrouted_arrival {world : World} {id : WsSink} {connection : Connection} {turn : Turn}
    (arrival : Arrival config world id connection turn) (pid : ParticipantId) :
    turn.connection.unrouted pid = false := by
  unfold Connection.unrouted
  cases arrival with
  | works _ idle calm first same signaling sfu deed =>
    split
    · rename_i point
      simp [point, Point.calm] at calm
    · rfl
  | accepts request _ idle unbound moved signaling sfu deed => rw [moved]; rfl
  | ends _ idle unbound moved signaling sfu deed => rw [moved]; rfl
  | joins request pid idle bound => rfl
  | hangsUp _ pid idle bound moved signaling sfu deed => rw [moved]; rfl

/-- The cleanup of the rooms is past the two maps. -/
theorem not_unrouted_roomsLeft {connection : Connection} {pid : ParticipantId} {rest : Affected} :
    ¬(connection.goto (.leaving (Connection.roomsLeft rest))).unrouted pid = true := by
  cases rest <;> simp [Connection.roomsLeft, Connection.goto, Connection.unrouted]

/-- A connection that has told the peers it left is not waiting for its route. -/
theorem not_unrouted_afterPeers {connection : Connection} {pid : ParticipantId} {roomId : RoomId}
    {gone : Bool} {rest : Affected} :
    ¬(connection.goto (.leaving (Connection.afterPeers roomId gone rest))).unrouted pid = true := by
  cases gone with
  | false => exact not_unrouted_roomsLeft
  | true => simp [Connection.afterPeers, Connection.goto, Connection.unrouted]

/-- A section that comes to stand between the two maps has dropped the routes. -/
theorem unrouted_advance {world : World} {id : WsSink} {connection : Connection} {turn : Turn}
    {answer : Option String} (taken : connection.advance config world id answer = some turn)
    (pid : ParticipantId) (unrouted : turn.connection.unrouted pid = true) :
    turn.sfu = world.sfu.dropRoutes pid := by
  cases connection.advance_section config world id answer turn taken with
  | works _ calm calmAfter first same signaling sfu deed =>
    unfold Connection.unrouted at unrouted
    split at unrouted
    · rename_i point
      simp [point, Point.calm] at calmAfter
    · simp at unrouted
  | registers request point unbound => cases unrouted
  | joins own first request stage point bound => cases stage <;> cases unrouted
  | parts handled participant roomId _ point message moved signaling sfu deed =>
    rw [moved] at unrouted
    cases unrouted
  | offers own handled peers peer _ point bound moved signaling sfu deed =>
    rw [moved] at unrouted
    cases unrouted
  | leaves own stage point bound =>
    cases stage with
    | routes affected =>
      have same : own = pid := by
        simpa [Connection.unrouted, Connection.leaveSection, World.turn, Connection.goto, bound]
          using unrouted
      subst same
      rfl
    | allPeers affected | dropRoom roomId affected =>
      exact absurd unrouted not_unrouted_roomsLeft
    | dropPeer peers roomId gone rest => exact absurd unrouted not_unrouted_afterPeers
    | checkStale =>
      simp only [Connection.leaveSection] at unrouted
      split at unrouted <;> cases unrouted
    | lookup roomId gone rest =>
      simp only [Connection.leaveSection] at unrouted
      split at unrouted
      · cases unrouted
      · exact absurd unrouted not_unrouted_afterPeers
    | announce pending affected =>
      cases pending with
      | cons head pending => cases unrouted
      | nil =>
        simp only [Connection.leaveSection] at unrouted
        split at unrouted <;> cases unrouted
    | disconnect | stopScreen | dropSession => cases unrouted

/-- A section only takes routes away. -/
theorem routes_tables {world : World} {connection : Connection} {server : SfuServer}
    (tables : Connection.Tables world connection server) (source : SocketAddr) (pid : ParticipantId)
    (stored : server.routes.lookup source = some pid) :
    world.sfu.routes.lookup source = some pid := by
  cases tables with
  | same _ routes => rwa [routes] at stored
  | registers | spawns | drops => exact stored
  | unroutes =>
    rw [SfuServer.dropRoutes, Table.lookup_retain, Option.filter_eq_some_iff] at stored
    exact stored.1

/-- A section takes only a participant whose routes it has dropped out of the map of
all peers. -/
theorem allPeers_tables {world : World} {connection : Connection} {server : SfuServer}
    (tables : Connection.Tables world connection server) (pid : ParticipantId)
    (there : (world.sfu.allPeers.lookup pid).isSome = true) :
    (server.allPeers.lookup pid).isSome = true ∨ connection.unrouted pid = true := by
  cases tables with
  | same _ _ allPeers => exact .inl (allPeers.symm ▸ there)
  | registers own peer =>
    rw [SfuServer.registerAll, Table.lookup_insert_eq]
    split
    · exact .inl rfl
    · exact .inl there
  | spawns | unroutes => exact .inl there
  | drops own affected bound point =>
    rw [SfuServer.dropFromAll, Table.lookup_erase_eq]
    split
    · rename_i here
      exact .inr (by simp [Connection.unrouted, point, bound, here])
    · exact .inl there

/-- A task that ends leaves the routes and the map of all peers alone. -/
theorem endMediaTask_tables (server : SfuServer) (media : MediaTask) :
    (server.endMediaTask media).routes = server.routes ∧
      (server.endMediaTask media).allPeers = server.allPeers := by
  unfold SfuServer.endMediaTask
  split
  · split <;> exact ⟨rfl, rfl⟩
  · exact ⟨rfl, rfl⟩

namespace Routed

/-- A step that adds no route, takes only unrouted participants out of the map of all
peers and leaves no route to those whose cleanup comes to stand between the two. -/
theorem keep (routed : Routed owner service)
    (fewer : ∀ source pid, after.world.sfu.routes.lookup source = some pid →
      service.world.sfu.routes.lookup source = some pid)
    (kept : ∀ pid, (service.world.sfu.allPeers.lookup pid).isSome = true →
      (after.world.sfu.allPeers.lookup pid).isSome = true ∨
        ∃ id connection, service.world.connections.lookup id = some connection ∧
          connection.unrouted pid = true)
    (standing : ∀ id connection pid, after.world.connections.lookup id = some connection →
      connection.unrouted pid = true →
        service.world.connections.lookup id = some connection ∨
        ∀ source, after.world.sfu.routes.lookup source ≠ some pid) : Routed owner after where
  owned source pid stored := routed.owned source pid (fewer source pid stored)
  present := by
    intro source pid stored
    have earlier := fewer source pid stored
    rcases kept pid (routed.present source pid earlier) with there | ⟨id, connection, found, unrouted⟩
    · exact there
    · exact absurd earlier (routed.dropped id connection pid found unrouted source)
  dropped := by
    intro id connection pid present unrouted
    rcases standing id connection pid present unrouted with found | none
    · exact fun source stored =>
        routed.dropped id connection pid found unrouted source (fewer source pid stored)
    · exact none

/-- Steps that touch neither the connections nor the two maps. -/
theorem untouched (routed : Routed owner service)
    (connections : after.world.connections = service.world.connections)
    (routes : after.world.sfu.routes = service.world.sfu.routes)
    (allPeers : after.world.sfu.allPeers = service.world.sfu.allPeers) : Routed owner after :=
  routed.keep (fun _ _ stored => routes ▸ stored) (fun _ there => .inl (allPeers ▸ there))
    fun _ _ _ present _ => .inl (connections ▸ present)

/-- A section of a handler. -/
theorem advanced (routed : Routed owner service) {id : WsSink} {connection : Connection}
    {turn : Turn} {answer : Option String}
    (found : service.world.connections.lookup id = some connection)
    (taken : connection.advance config service.world id answer = some turn)
    (world : after.world = service.world.commit id turn) : Routed owner after := by
  have sfu : after.world.sfu = turn.sfu := by rw [world]; rfl
  have tables := Connection.advance_tables taken
  refine routed.keep ?_ ?_ ?_
  · intro source pid stored
    rw [sfu] at stored
    exact routes_tables tables source pid stored
  · intro pid there
    rw [sfu]
    rcases allPeers_tables tables pid there with still | unrouted
    · exact .inl still
    · exact .inr ⟨id, connection, found, unrouted⟩
  · intro tested now pid present unrouted
    rw [world, World.lookup_commit] at present
    split at present
    · cases present
      refine .inr fun source stored => ?_
      rw [sfu, unrouted_advance taken pid unrouted, SfuServer.dropRoutes, Table.lookup_retain,
        Option.filter_eq_some_iff] at stored
      simp at stored
    · exact .inl present

/-- A media task takes a command: a route it registers is its own participant's, who
is reachable. -/
theorem took (routed : Routed owner service) {channel : Channel} {rtc : Rtc} {process : Process}
    {cmd : PeerCmd} {rest : List PeerCmd} {posted : List Command} {turned : Service}
    (admits : service.routesOwn owner (.takes channel rtc) = true)
    (present : service.processes.lookup channel = some process)
    (waiting : service.queueOf channel = cmd :: rest)
    (performed : Performed process.media
      (process.task.handle (service.told process rtc) cmd).2 posted turned after)
    (world : turned.world = service.world) : Routed owner after := by
  have allPeers : after.world.sfu.allPeers = service.world.sfu.allPeers := by
    rw [performed.sfu, world]
  have connections : after.world.connections = service.world.connections := by
    rw [performed.connections, world]
  -- The guard speaks of a route only where the command is a datagram.
  have fresh : ∀ source, Output.route source ∈
      (process.task.handle (service.told process rtc) cmd).2 →
        owner source = process.media.pid ∧ service.reachable process.media.pid = true := by
    intro source registered
    rcases process.task.handle_outputs _ cmd _ registered with plain |
      ⟨data, from', rfl, named, receives, connected, unregistered⟩ | ⟨_, _, _, _, text⟩ | ⟨_, text⟩
    · cases plain
    · cases named
      simp only [routesOwn, present, waiting] at admits
      have receives : rtc.receives data = true := receives
      simpa [receives, connected, unregistered] using admits
    · cases text
    · cases text
  refine ⟨?_, ?_, ?_⟩
  · intro source pid stored
    rcases performed.routes source pid stored with earlier | ⟨registered, rfl⟩
    · exact routed.owned source pid (world ▸ earlier)
    · exact (fresh source registered).1
  · intro source pid stored
    rw [allPeers]
    rcases performed.routes source pid stored with earlier | ⟨registered, rfl⟩
    · exact routed.present source pid (world ▸ earlier)
    · exact (Bool.and_eq_true_iff.mp (fresh source registered).2).1
  · intro id connection pid found unrouted source stored
    rw [connections] at found
    rcases performed.routes source pid stored with earlier | ⟨registered, rfl⟩
    · exact routed.dropped id connection pid found unrouted source (world ▸ earlier)
    · have settled := (Bool.and_eq_true_iff.mp (fresh source registered).2).2
      have past := List.all_eq_true.mp settled connection ((Table.mem_values _ _).mpr ⟨id, found⟩)
      simp [unrouted] at past

/-- Every admitted step keeps the table right. -/
theorem step (routed : Routed owner service)
    (admits : service.routesOwn owner event = true)
    (stepped : service.step config event = some after) : Routed owner after := by
  cases step_taken stepped with
  | still engineEvent launch world moved own still commands sfu signaling =>
    refine routed.keep (fun _ _ stored => sfu ▸ stored) (fun _ there => .inl (sfu.symm ▸ there)) ?_
    intro id connection pid present unrouted
    rcases World.connection_still moved own still present with
      earlier | ⟨_, idle⟩ | ⟨earlier, turn, _, arrival, rfl⟩
    · exact .inl earlier
    · simp [Connection.unrouted, idle] at unrouted
    · simp [unrouted_arrival arrival pid] at unrouted
  | advanced id answer launch connection turn entered present taken enters =>
    exact routed.advanced present taken rfl
  | took channel rtc process cmd rest posted _ present waiting performed =>
    exact routed.took admits present waiting performed rfl
  | drained channel rtc events process posted _ present performed =>
    refine routed.keep ?_ ?_ ?_
    · intro source pid stored
      rcases performed.routes source pid stored with earlier | ⟨registered, _⟩
      · exact earlier
      · rcases process.task.drainOutputs_outputs _ events _ registered with
          plain | ⟨_, text⟩ | ⟨packet, _, received⟩
        · cases plain
        · cases text
        · simp only [Task.receivePacket] at received
          split at received <;> simp at received
    · intro pid there
      rw [performed.sfu]
      exact .inl there
    · intro id connection pid present unrouted
      rw [performed.connections] at present
      exact .inl present
  | endsTask channel process present =>
    obtain ⟨routes, allPeers⟩ := endMediaTask_tables service.world.sfu process.media
    exact routed.untouched rfl routes allPeers
  | arrived | read => exact routed.untouched rfl rfl rfl

end Routed

/-- In every run in which a task registers a route only for its own participant's
address, while the participant is among all peers and no cleanup has already dropped
its routes, every route leads to the owner of its address, who is among all peers.

The invariant also says that a cleanup about to leave the peers has dropped its routes. Only
the registration of a route has to be looked at, and the condition is about it. -/
theorem routes_lead_home (config : Config) (e2eeRequired : Bool)
    (owner : SocketAddr → ParticipantId) {service : Service}
    (reached : Reaches (Service.step config)
      (fun service event => service.routesOwn owner event = true) (new e2eeRequired) service) :
    ∀ source pid, service.world.sfu.routes.lookup source = some pid →
      owner source = pid ∧ ∃ peer, service.world.sfu.allPeers.lookup pid = some peer := by
  have routed : Routed owner service := by
    refine reached.invariant (Routed owner) ?_ ?_
    · exact ⟨fun _ _ stored => by simp [new, World.new, SfuServer.new] at stored,
        fun _ _ stored => by simp [new, World.new, SfuServer.new] at stored,
        fun _ _ _ stored => by simp [new, World.new] at stored⟩
    · exact fun _ _ _ routed admits stepped => routed.step admits stepped
  intro source pid stored
  exact ⟨routed.owned source pid stored,
    Option.isSome_iff_exists.mp (routed.present source pid stored)⟩

/-- The participant a port is numbered after owns its addresses. -/
def portOwner (source : SocketAddr) : ParticipantId := ⟨source.port⟩

/-- A participant enters, its task's connection is up, and a datagram from its own
address is taken. -/
def routedRun : List ServiceEvent :=
  ServiceEvent.enters 1 ⟨1⟩ "a" ++
    [.drains ⟨⟨1⟩, 1⟩ (Rtc.plain (fun _ => none) 0) [.connected], .arrives [] ⟨"one", 1⟩, .reads] ++
    ServiceEvent.takesAll ⟨⟨1⟩, 1⟩ 1

/-- After that run the address is routed to its owner. -/
theorem routes_lead_home_once :
    let service := (walk (Service.step .sfuDefault)
      (fun service event => service.routesOwn portOwner event = true) (new false) routedRun).getD
        (new false)
    service.world.sfu.routes.lookup ⟨"one", 1⟩ = some ⟨1⟩ ∧ portOwner ⟨"one", 1⟩ = ⟨1⟩ ∧
      ∃ peer, service.world.sfu.allPeers.lookup ⟨1⟩ = some peer := by
  intro service
  have stored : service.world.sfu.routes.lookup ⟨"one", 1⟩ = some ⟨1⟩ := by decide +kernel
  have reached : Reaches (Service.step .sfuDefault)
      (fun service event => service.routesOwn portOwner event = true) (new false) service :=
    walk_reaches_end _ _ _ _ (by decide +kernel)
  exact ⟨stored, routes_lead_home .sfuDefault false portOwner reached _ _ stored⟩

/-- The first datagram of a second participant reaches the connected task of the
first one, which has no route yet, and the second one's address is routed to the
first. And a participant's own datagram is taken after its cleanup: its address is
routed to it although it has left. -/
theorem datagram_misrouted :
    (∃ service, Reaches (Service.step .sfuDefault) always (new false) service ∧
      service.world.sfu.routes.lookup ⟨"two", 2⟩ = some ⟨1⟩ ∧ portOwner ⟨"two", 2⟩ = ⟨2⟩) ∧
    ∃ service, Reaches (Service.step .sfuDefault) always (new false) service ∧ service.Quiet ∧
      service.world.sfu.routes.lookup ⟨"one", 1⟩ = some ⟨1⟩ ∧
      service.world.sfu.allPeers.lookup ⟨1⟩ = none := by
  let connected : ServiceEvent := .drains ⟨⟨1⟩, 1⟩ (Rtc.plain (fun _ => none) 0) [.connected]
  let crossed := ServiceEvent.enters 1 ⟨1⟩ "a" ++ ServiceEvent.enters 2 ⟨2⟩ "a" ++
    [connected, .arrives [] ⟨"two", 2⟩, .reads] ++ ServiceEvent.takesAll ⟨⟨1⟩, 1⟩ 2
  let late := ServiceEvent.enters 1 ⟨1⟩ "a" ++ [connected, .arrives [] ⟨"one", 1⟩, .reads] ++
    ServiceEvent.departs 1 11 ++ ServiceEvent.takesAll ⟨⟨1⟩, 1⟩ 1
  refine ⟨⟨(walk (Service.step .sfuDefault) always (new false) crossed).getD (new false),
    walk_reaches_end _ _ _ _ (by decide +kernel), ?_, rfl⟩,
    ⟨(walk (Service.step .sfuDefault) always (new false) late).getD (new false),
    walk_reaches_end _ _ _ _ (by decide +kernel), ?_, ?_, ?_⟩⟩ <;> decide +kernel

end Service

end Seameet
