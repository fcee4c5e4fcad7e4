import Seameet.Library.Tenure
import Seameet.Engine.Generations
import Seameet.Engine.Registration

/-!
# The generation guard

Every accepted offer enters a peer under a generation of its own and starts a
media task with it; a media task that ends takes its participant out of the map
if the entry still carries its generation. The entries one participant has had
in one map are the successive holders of a place, and the generations their
tokens.

The history of a place is recorded next to the server: the entry of each peer as
it is made, and the end of each media task. In runs in which no cleanup takes a
participant out of a map, the map is what the history says, and the history is
orderly because nobody else ever carries a generation.
-/

namespace Seameet

open Library

/-- A participant's entry in a shared map. -/
structure Place where
  peers : PeersRef
  pid : ParticipantId
deriving DecidableEq

/-- The map a handler is about to enter a peer into. -/
def Point.target : Point → Option PeersRef
  | .handling _ (.negotiate peers) | .handling _ (.register peers _) => some peers
  | _ => none

namespace World

/-- The entry a step makes, or the media task it ends. -/
def change (world : World) : Event → Option (Place × Tenure Nat)
  | .advance id _ =>
      match world.task id with
      | some (.handling _ (.register peers peer), some pid) =>
          some ({ peers, pid }, .takes peer.gen)
      | _ => none
  | .mediaEnds task => some ({ peers := task.peers, pid := task.pid }, .leaves task.gen)
  | _ => none

/-- The step is the section of `on_disconnect` that takes a participant out of a
map. -/
def dropsPeer (world : World) : Event → Bool
  | .advance id _ =>
      match world.task id with
      | some (.leaving (.dropPeer _ _ _ _), _) => true
      | _ => false
  | _ => false

end World

/-- The server with the history of all places. -/
structure Chronicle where
  world : World
  changes : List (Place × Tenure Nat)

namespace Chronicle

/-- A server nobody has connected to. -/
def new (e2eeRequired : Bool) : Chronicle := { world := .new e2eeRequired, changes := [] }

/-- One step of the server, with what it does to a place. -/
def step (config : Config) (chronicle : Chronicle) (event : Event) : Option Chronicle :=
  (chronicle.world.step config event).map fun after =>
    { world := after, changes := chronicle.changes ++ (chronicle.world.change event).toList }

/-- The changes of one place, in order. -/
def history (chronicle : Chronicle) (place : Place) : List (Tenure Nat) :=
  (chronicle.changes.filter fun entry => entry.1 = place).map Prod.snd

/-- No cleanup takes a participant out of a map. -/
def Undropped (chronicle : Chronicle) (event : Event) : Prop :=
  chronicle.world.dropsPeer event = false

instance (chronicle : Chronicle) (event : Event) : Decidable (chronicle.Undropped event) :=
  inferInstanceAs (Decidable (_ = false))

end Chronicle

/-- The place of a media task's entry. -/
def MediaTask.place (task : MediaTask) : Place := { peers := task.peers, pid := task.pid }

namespace SfuServer

/-- The peer entered at a place. -/
def entry (server : SfuServer) (place : Place) : Option SfuPeer :=
  (server.peersOf place.peers).lookup place.pid

/-- The generation entered at a place. -/
def generation (server : SfuServer) (place : Place) : Option Nat :=
  (server.entry place).map SfuPeer.gen

variable (server : SfuServer) (place : Place)

/-- The entries once a peer is entered. -/
theorem entry_register (peers : PeersRef) (pid : ParticipantId) (peer : SfuPeer) :
    (server.register peers pid peer).entry place =
      if ({ peers, pid } : Place) = place then some peer else server.entry place := by
  rw [entry, lookup_register]
  exact if_congr (by rw [← Place.mk.injEq]; exact eq_comm) rfl rfl

/-- The end of a media task leaves every entry but its own. -/
theorem entry_endMediaTask (task : MediaTask) (peer : SfuPeer) :
    (server.endMediaTask task).entry place = some peer ↔
      server.entry place = some peer ∧ ¬(place = task.place ∧ peer.gen = task.gen) := by
  obtain ⟨peers, pid⟩ := place
  simp only [entry, server.lookup_endMediaTask peers pid task peer, MediaTask.place,
    Place.mk.injEq, and_assoc]

/-- The end of a media task gives up its generation at its place. -/
theorem generation_endMediaTask (task : MediaTask) :
    (server.endMediaTask task).generation place =
      if task.place = place then Tenure.apply (server.generation place) (.leaves task.gen)
      else server.generation place := by
  apply Option.ext
  intro gen
  simp only [generation, Option.map_eq_some_iff, entry_endMediaTask]
  cases stored : server.entry place with
  | none => by_cases here : task.place = place <;> simp [here, Tenure.apply]
  | some peer =>
    by_cases here : task.place = place
    · by_cases own : peer.gen = task.gen
      · simp [here, own, Tenure.apply]
      · simp [here, own, Tenure.apply]
    · simp [Ne.symm here, here]

/-- Every map a room names has been made, and the others are empty. -/
structure Made : Prop where
  rooms : ∀ roomId peers, server.roomPeers roomId = some peers → peers < server.nextRef
  unmade : ∀ place : Place, server.nextRef ≤ place.peers → server.entry place = none

variable {server}

/-- A room's map is made without entries. -/
theorem Made.ensureRoom (made : server.Made) (roomId : RoomId) :
    (server.ensureRoom roomId).Made ∧ server.nextRef ≤ (server.ensureRoom roomId).nextRef ∧
      ∀ place, (server.ensureRoom roomId).entry place = server.entry place := by
  unfold SfuServer.ensureRoom
  cases stored : server.rooms.lookup roomId with
  | some peers => exact ⟨made, Nat.le_refl _, fun _ => rfl⟩
  | none =>
    have same : ∀ place, SfuServer.entry
        { server with
          rooms := server.rooms.insert roomId server.nextRef
          maps := server.maps.insert server.nextRef ∅
          nextRef := server.nextRef + 1 } place = server.entry place := by
      intro place
      simp only [entry, peersOf, Table.lookup_insert_eq]
      split
      · rename_i new
        exact (made.unmade place (Nat.le_of_eq new.symm)).symm
      · rfl
    refine ⟨⟨?_, ?_⟩, Nat.le_succ _, same⟩
    · intro room peers named
      rw [roomPeers, Table.lookup_insert_eq] at named
      split at named
      · exact Option.some.inj named ▸ Nat.lt_succ_self _
      · exact Nat.lt_succ_of_lt (made.rooms room peers named)
    · intro place beyond
      rw [same]
      exact made.unmade place (Nat.le_of_succ_le beyond)

/-- The end of a media task makes no map. -/
theorem Made.endMediaTask (made : server.Made) (task : MediaTask) :
    (server.endMediaTask task).Made ∧ (server.endMediaTask task).nextRef = server.nextRef := by
  have nextRef : (server.endMediaTask task).nextRef = server.nextRef := by
    unfold SfuServer.endMediaTask
    extract_lets ended
    split
    · split <;> rfl
    · rfl
  refine ⟨⟨?_, ?_⟩, nextRef⟩
  · intro roomId peers named
    rw [roomPeers, (server.endMediaTask_frame 0 ⟨0⟩ task).1] at named
    exact nextRef ▸ made.rooms roomId peers named
  · intro place beyond
    rw [Option.eq_none_iff_forall_ne_some]
    intro peer stored
    have before := ((server.entry_endMediaTask place task peer).mp stored).1
    rw [made.unmade place (nextRef ▸ beyond)] at before
    cases before

end SfuServer

/-- A point about to enter a peer is the section that does. -/
theorem Point.register_of_entering {point : Point} {peers : PeersRef} {peer : SfuPeer}
    (entering : point.entering = true) (serving : point.serving = some (peers, peer)) :
    ∃ handled, point = .handling handled (.register peers peer) := by
  unfold Point.entering at entering
  split at entering
  · cases serving
    exact ⟨_, rfl⟩
  · cases entering

/-- A point that serves nobody enters nobody. -/
theorem Point.quiet_of_free {point : Point} (free : point.serving = none) :
    point.entering = false := by
  unfold Point.entering
  split
  · cases free
  · rfl

/-- What a section of a task does to the rooms' maps. -/
inductive Mapping (world : World) (connection : Connection) (turn : Turn) : Prop
  /-- The maps stay as they are; a room may be dropped, and a room's map chosen. -/
  | keeps (quiet : connection.point.entering = false)
      (rooms : ∀ roomId peers, turn.sfu.roomPeers roomId = some peers →
        world.sfu.roomPeers roomId = some peers)
      (maps : turn.sfu.maps = world.sfu.maps) (nextRef : turn.sfu.nextRef = world.sfu.nextRef)
      (target : ∀ peers, turn.connection.point.target = some peers →
        connection.point.target = some peers ∨ ∃ roomId, world.sfu.roomPeers roomId = some peers)
  /-- A room gets a map. -/
  | makes (roomId : RoomId) (quiet : connection.point.entering = false)
      (sfu : turn.sfu = world.sfu.ensureRoom roomId)
      (target : turn.connection.point.target = none)
  /-- A peer is entered. -/
  | enters (handled : Handled) (peers : PeersRef) (peer : SfuPeer) (pid : ParticipantId)
      (point : connection.point = .handling handled (.register peers peer))
      (bound : connection.participantId = some pid)
      (sfu : turn.sfu = world.sfu.register peers pid peer)
      (target : turn.connection.point.target = none)
  /-- A participant is taken out. -/
  | drops (peers : PeersRef) (roomId : RoomId) (gone : Bool) (rest : Affected)
      (point : connection.point = .leaving (.dropPeer peers roomId gone rest))

namespace Connection

variable {config : Config} {world : World} {id : WsSink} {connection : Connection}

/-- A message's handler starts without a map. -/
theorem start_target (message : SdpMessage) (raw : String) :
    (config.start message raw).target = none := by
  cases join : message.joinRequest with
  | some request => rw [config.start_join message raw join]; rfl
  | none =>
    rw [config.start_handling message raw join]
    unfold Config.hookStart
    cases config.hooks with
    | noop => rfl
    | sfu => cases message <;> rfl

/-- A section that leaves rooms and maps alone and goes on without a map. -/
theorem mapping_aside {turn : Turn} (quiet : connection.point.entering = false)
    (rooms : turn.sfu.rooms = world.sfu.rooms) (maps : turn.sfu.maps = world.sfu.maps)
    (nextRef : turn.sfu.nextRef = world.sfu.nextRef)
    (target : turn.connection.point.target = none) : Mapping world connection turn := by
  refine .keeps quiet ?_ maps nextRef ?_
  · intro roomId peers stored
    rwa [SfuServer.roomPeers, rooms] at stored
  · intro peers held
    rw [target] at held
    cases held

/-- A section of another message's handler. -/
theorem hookSection_mapping (pid : ParticipantId) (bound : connection.participantId = some pid)
    (handled : Handled) (answer : Option String) (stage : HookStage)
    (point : connection.point = .handling handled stage) :
    Mapping world connection (connection.hookSection config world id pid handled answer stage) := by
  have past : (afterRoom pid handled).target = none := by
    unfold afterRoom
    split <;> rfl
  cases stage with
  | register peers peer => exact .enters handled peers peer pid point bound rfl rfl
  | negotiate peers =>
    simp only [hookSection]
    split
    · exact .keeps (by rw [point]; rfl) (fun _ _ stored => stored) rfl rfl
        fun _ held => .inl (by rw [point]; exact held)
    · exact mapping_aside (by rw [point]; rfl) rfl rfl rfl rfl
  | session hasMedia =>
    simp only [hookSection]
    split
    · exact mapping_aside (by rw [point]; rfl) rfl rfl rfl rfl
    · exact mapping_aside (by rw [point]; rfl) rfl rfl rfl past
  | room hasMedia roomId =>
    simp only [hookSection]
    split
    · exact mapping_aside (by rw [point]; rfl) rfl rfl rfl past
    · rename_i named offer
      refine .keeps (by rw [point]; rfl) (fun _ _ stored => stored) rfl rfl fun peers held => ?_
      cases hasMedia with
      | true => cases held
      | false =>
        cases held
        exact .inr ⟨roomId, named⟩
    · exact mapping_aside (by rw [point]; rfl) rfl rfl rfl rfl
  | act peers => exact mapping_aside (by rw [point]; rfl) rfl rfl rfl past
  | mediaState | renegotiate | awaitReply | candidate =>
    simp only [hookSection]
    split <;> exact mapping_aside (by rw [point]; rfl) rfl rfl rfl rfl
  | _ => exact mapping_aside (by rw [point]; rfl) rfl rfl rfl rfl

/-- A section of the cleanup. -/
theorem leaveSection_mapping (pid : ParticipantId) (stage : LeaveStage)
    (point : connection.point = .leaving stage) :
    Mapping world connection (connection.leaveSection config world id pid stage) := by
  have quiet : connection.point.entering = false := by rw [point]; rfl
  have target : (connection.leaveSection config world id pid
      stage).connection.point.target = none := by
    rcases connection.leaveSection_point config world id pid stage with ended | ⟨next, on⟩
    · rw [ended]
      rfl
    · rw [on]
      rfl
  cases stage with
  | dropPeer peers roomId gone rest => exact .drops peers roomId gone rest point
  | dropRoom roomId rest =>
    refine .keeps quiet ?_ rfl rfl fun peers held => ?_
    · intro other peers stored
      simp only [leaveSection, SfuServer.dropRoom, SfuServer.roomPeers, Table.lookup_erase_eq]
        at stored
      split at stored
      · cases stored
      · exact stored
    · rw [target] at held
      cases held
  | checkStale | lookup =>
    simp only [leaveSection]
    split <;> exact mapping_aside quiet rfl rfl rfl rfl
  | announce pending affected =>
    cases pending with
    | cons head pending => exact mapping_aside quiet rfl rfl rfl target
    | nil =>
      simp only [leaveSection]
      split <;> exact mapping_aside quiet rfl rfl rfl rfl
  | _ => exact mapping_aside quiet rfl rfl rfl target

/-- Every section of a task. -/
theorem advance_mapping {answer : Option String} {turn : Turn}
    (taken : connection.advance config world id answer = some turn) :
    Mapping world connection turn := by
  unfold advance at taken
  split at taken <;> cases taken
  · rename_i request point bound
    unfold precheckSection
    split <;> exact mapping_aside (by rw [point]; rfl) rfl rfl rfl rfl
  · rename_i request point bound
    exact mapping_aside (by rw [point]; rfl) rfl rfl rfl rfl
  · rename_i first request stage pid point bound
    cases stage with
    | ensureRoom => exact .makes request.roomId (by rw [point]; rfl) rfl rfl
    | _ => exact mapping_aside (by rw [point]; rfl) rfl rfl rfl rfl
  · rename_i handled stage pid point bound
    exact hookSection_mapping pid bound handled answer stage point
  · rename_i stage pid point bound
    exact leaveSection_mapping pid stage point

end Connection

namespace World

variable {world : World} {id : WsSink} {connection : Connection} {answer : Option String}

/-- A section that enters nobody changes no place. -/
theorem change_quiet (present : world.connections.lookup id = some connection)
    (quiet : connection.point.entering = false) : world.change (.advance id answer) = none := by
  simp only [change, task, present, Option.map_some]
  split
  · rename_i stands
    simp only [Option.some.injEq, Prod.mk.injEq] at stands
    rw [stands.1] at quiet
    cases quiet
  · rfl

/-- The section that enters a peer makes its entry. -/
theorem change_enters (present : world.connections.lookup id = some connection)
    {handled : Handled} {peers : PeersRef} {peer : SfuPeer} {pid : ParticipantId}
    (point : connection.point = .handling handled (.register peers peer))
    (bound : connection.participantId = some pid) :
    world.change (.advance id answer) = some ({ peers, pid }, .takes peer.gen) := by
  simp only [change, task, present, Option.map_some, point, bound]

/-- Only sections of a task and ends of media tasks change a place. -/
theorem change_aside (event : Event) (still : ∀ id answer, event ≠ .advance id answer)
    (goesOn : ∀ task, event ≠ .mediaEnds task) : world.change event = none := by
  cases event with
  | advance id answer => exact absurd rfl (still id answer)
  | mediaEnds task => exact absurd rfl (goesOn task)
  | _ => rfl

end World

namespace Chronicle

variable {config : Config} {chronicle after : Chronicle}

/-- The server's part of a step. -/
theorem step_eq_some {event : Event} (stepped : chronicle.step config event = some after) :
    ∃ world, chronicle.world.step config event = some world ∧
      after = { world, changes := chronicle.changes ++ (chronicle.world.change event).toList } := by
  obtain ⟨world, taken, rfl⟩ := Option.map_eq_some_iff.mp stepped
  exact ⟨world, taken, rfl⟩

/-- The server of a run recorded is the server of a run. -/
theorem world_reaches {e2eeRequired : Bool}
    (reached : Reaches (step config) Undropped (new e2eeRequired) chronicle) :
    Reaches (World.step config) always (.new e2eeRequired) chronicle.world := by
  induction reached with
  | start => exact .start
  | next _ _ stepped inductionHypothesis =>
    obtain ⟨world, taken, rfl⟩ := step_eq_some stepped
    exact .next inductionHypothesis trivial taken

/-- The histories when nothing changes. -/
theorem history_aside (world : World) (place : Place) :
    Chronicle.history { world, changes := chronicle.changes ++ (none : Option (Place × _)).toList }
      place = chronicle.history place := by
  simp [history]

/-- The histories after a change. -/
theorem history_changed (world : World) (changed place : Place) (change : Tenure Nat) :
    Chronicle.history { world, changes := chronicle.changes ++ (some (changed, change)).toList }
      place =
        if changed = place then chronicle.history place ++ [change] else chronicle.history place := by
  by_cases same : changed = place <;> simp [history, same]

/-- A step with what it does to the places. -/
inductive Recording (config : Config) (chronicle : Chronicle) : Event → Chronicle → Prop
  /-- Maps and media tasks stay, and handlers move to points without a map only. -/
  | aside (event : Event) (world : World)
      (rooms : world.sfu.rooms = chronicle.world.sfu.rooms)
      (maps : world.sfu.maps = chronicle.world.sfu.maps)
      (nextRef : world.sfu.nextRef = chronicle.world.sfu.nextRef)
      (mediaTasks : world.sfu.mediaTasks = chronicle.world.sfu.mediaTasks)
      (nextPeerGen : world.sfu.nextPeerGen = chronicle.world.sfu.nextPeerGen)
      (connections : ∀ id connection, world.connections.lookup id = some connection →
        chronicle.world.connections.lookup id = some connection ∨
          connection.point.target = none ∧ connection.point.serving = none) :
      Recording config chronicle event
        { world, changes := chronicle.changes ++ (none : Option (Place × _)).toList }
  /-- A section of a task. -/
  | advanced (id : WsSink) (answer : Option String) (connection : Connection) (turn : Turn)
      (present : chronicle.world.connections.lookup id = some connection)
      (taken : connection.advance config chronicle.world id answer = some turn) :
      Recording config chronicle (.advance id answer)
        { world := chronicle.world.commit id turn,
          changes := chronicle.changes ++ (chronicle.world.change (.advance id answer)).toList }
  /-- The end of a media task. -/
  | ended (task : MediaTask) (running : task ∈ chronicle.world.sfu.mediaTasks) :
      Recording config chronicle (.mediaEnds task)
        { world := { chronicle.world with sfu := chronicle.world.sfu.endMediaTask task },
          changes := chronicle.changes ++
            (some (task.place, Tenure.leaves task.gen) : Option (Place × _)).toList }

/-- Every step is one of the listed ones. -/
theorem recording_of_step (event : Event) (stepped : chronicle.step config event = some after) :
    Recording config chronicle event after := by
  obtain ⟨world, taken, rfl⟩ := Option.map_eq_some_iff.mp stepped
  by_cases ends : ∃ task, event = .mediaEnds task
  · obtain ⟨task, rfl⟩ := ends
    simp only [World.step, Option.ite_none_right_eq_some, Option.some.injEq] at taken
    rw [← taken.2]
    exact .ended task taken.1
  have goesOn : ∀ task, event ≠ .mediaEnds task := fun task same => ends ⟨task, same⟩
  -- A connection that acts at the top of its loop.
  have looped : ∀ (event : Event) {id : WsSink} {connection : Connection} {turn : Turn},
      chronicle.world.connections.lookup id = some connection →
      turn.sfu = chronicle.world.sfu → turn.connection.point.target = none →
      turn.connection.point.serving = none →
      Recording config chronicle event
        { world := chronicle.world.commit id turn,
          changes := chronicle.changes ++ (none : Option (Place × _)).toList } := by
    intro event id connection turn present sfu target free
    have kept : (chronicle.world.commit id turn).sfu = chronicle.world.sfu := sfu
    refine .aside event _ (by rw [kept]) (by rw [kept]) (by rw [kept]) (by rw [kept])
      (by rw [kept]) ?_
    intro other found known
    rw [World.lookup_commit] at known
    split at known
    · cases known
      exact .inr ⟨target, free⟩
    · exact .inl known
  cases World.stepped_of_step event taken with
  | connected =>
    refine .aside _ _ rfl rfl rfl rfl rfl ?_
    intro id connection known
    rw [Table.lookup_insert_eq] at known
    split at known
    · cases known
      exact .inr ⟨rfl, rfl⟩
    · exact .inl known
  | heard id raw parsed auth rateOk connection present idle =>
    have still := (@Connection.receive_still config chronicle.world id connection raw parsed auth
      rateOk).2.1
    rcases connection.receive_point idle raw parsed auth rateOk with
      same | ⟨_, closed | ⟨request, on⟩⟩ | ⟨message, pid, _, _, started⟩
    · exact looped _ present still (by rw [same]; rfl) (by rw [same]; rfl)
    · exact looped _ present still (by rw [closed]; rfl) (by rw [closed]; rfl)
    · exact looped _ present still (by rw [on]; rfl) (by rw [on]; rfl)
    · refine looped _ present still ?_ ?_
      · rw [started]
        exact Connection.start_target message raw
      · rw [started]
        exact Connection.start_serving message raw
  | finished _ id connection sent present idle _ still =>
    rw [World.change_aside event still goesOn]
    refine looped event present rfl ?_ ?_
    · change connection.finish.point.target = none
      unfold Connection.finish
      split <;> rfl
    · change connection.finish.point.serving = none
      unfold Connection.finish
      split <;> rfl
  | advanced id answer connection turn present moved =>
    exact .advanced id answer connection turn present moved
  | mediaEnded task => exact absurd rfl (goesOn task)
  | shut | routed => exact .aside _ _ rfl rfl rfl rfl rfl fun _ _ known => .inl known

/-- The maps are what the history says, and every map that is named has been
made. -/
structure Mapped (chronicle : Chronicle) : Prop where
  made : chronicle.world.sfu.Made
  targets : ∀ id connection peers, chronicle.world.connections.lookup id = some connection →
    connection.point.target = some peers → peers < chronicle.world.sfu.nextRef
  entries : ∀ place,
    chronicle.world.sfu.generation place = Tenure.held (chronicle.history place)

namespace Mapped

variable {id : WsSink} {connection : Connection} {answer : Option String} {turn : Turn}

/-- The maps named by the handlers once a section is over. -/
theorem targets_commit (mapped : chronicle.Mapped)
    (grows : chronicle.world.sfu.nextRef ≤ turn.sfu.nextRef)
    (own : ∀ peers, turn.connection.point.target = some peers → peers < turn.sfu.nextRef) :
    ∀ other found peers, (chronicle.world.commit id turn).connections.lookup other = some found →
      found.point.target = some peers → peers < turn.sfu.nextRef := by
  intro other found peers known held
  rw [World.lookup_commit] at known
  split at known
  · cases known
    exact own peers held
  · exact Nat.lt_of_lt_of_le (mapped.targets other found peers known held) grows

/-- A section that takes nobody out of a map leaves what the history says. -/
theorem turned (mapped : chronicle.Mapped)
    (present : chronicle.world.connections.lookup id = some connection)
    (mapping : Mapping chronicle.world connection turn)
    (undropped : chronicle.Undropped (.advance id answer)) :
    Chronicle.Mapped { world := chronicle.world.commit id turn,
                       changes := chronicle.changes ++
                         (chronicle.world.change (.advance id answer)).toList } := by
  cases mapping with
  | keeps quiet rooms maps nextRef target =>
    rw [World.change_quiet present quiet]
    have entries : ∀ place, turn.sfu.entry place = chronicle.world.sfu.entry place := by
      intro place
      rw [SfuServer.entry, SfuServer.peersOf, maps]
      rfl
    refine ⟨⟨?_, ?_⟩, mapped.targets_commit (Nat.le_of_eq nextRef.symm) ?_, ?_⟩
    · intro roomId peers stored
      exact nextRef ▸ mapped.made.rooms roomId peers (rooms roomId peers stored)
    · intro place beyond
      exact (entries place).trans (mapped.made.unmade place (nextRef ▸ beyond))
    · intro peers held
      rw [nextRef]
      rcases target peers held with before | ⟨roomId, stored⟩
      · exact mapped.targets id connection peers present before
      · exact mapped.made.rooms roomId peers stored
    · intro place
      rw [history_aside, ← mapped.entries, SfuServer.generation, SfuServer.generation, ← entries]
      rfl
  | makes roomId quiet sfu target =>
    rw [World.change_quiet present quiet]
    obtain ⟨made, grows, entries⟩ := mapped.made.ensureRoom roomId
    rw [← sfu] at made grows entries
    refine ⟨made, mapped.targets_commit grows ?_, ?_⟩
    · intro peers held
      rw [target] at held
      cases held
    · intro place
      rw [history_aside, ← mapped.entries, SfuServer.generation, SfuServer.generation, ← entries]
      rfl
  | enters handled peers peer pid point bound sfu target =>
    rw [World.change_enters present point bound]
    have below := mapped.targets id connection peers present (by rw [point]; rfl)
    have nextRef : turn.sfu.nextRef = chronicle.world.sfu.nextRef := by rw [sfu]; rfl
    have entries : ∀ place, turn.sfu.entry place =
        if ({ peers, pid } : Place) = place then some peer else chronicle.world.sfu.entry place := by
      intro place
      rw [sfu, SfuServer.entry_register]
    refine ⟨⟨?_, ?_⟩, mapped.targets_commit (Nat.le_of_eq nextRef.symm) ?_, ?_⟩
    · intro roomId other stored
      change turn.sfu.roomPeers roomId = some other at stored
      rw [sfu] at stored
      exact nextRef ▸ mapped.made.rooms roomId other stored
    · intro place beyond
      change turn.sfu.nextRef ≤ place.peers at beyond
      change turn.sfu.entry place = none
      rw [nextRef] at beyond
      rw [entries, if_neg]
      · exact mapped.made.unmade place beyond
      · rintro rfl
        exact Nat.not_le_of_lt below beyond
    · intro other held
      rw [target] at held
      cases held
    · intro place
      change (turn.sfu.entry place).map SfuPeer.gen = _
      rw [history_changed, entries]
      split
      · rw [Tenure.held_append_one]
        rfl
      · exact mapped.entries place
  | drops peers roomId gone rest point =>
    simp only [Undropped, World.dropsPeer, World.task, present, Option.map_some, point] at undropped
    cases undropped

/-- A media task that ends gives up its generation at its place. -/
theorem ended (mapped : chronicle.Mapped) (task : MediaTask) :
    Chronicle.Mapped
      { world := { chronicle.world with sfu := chronicle.world.sfu.endMediaTask task },
        changes := chronicle.changes ++
          (some (task.place, Tenure.leaves task.gen) : Option (Place × _)).toList } := by
  obtain ⟨made, nextRef⟩ := mapped.made.endMediaTask task
  refine ⟨made, ?_, ?_⟩
  · intro id connection peers known held
    exact nextRef ▸ mapped.targets id connection peers known held
  · intro place
    change (chronicle.world.sfu.endMediaTask task).generation place = _
    rw [SfuServer.generation_endMediaTask, history_changed]
    split
    · rw [Tenure.held_append_one, mapped.entries]
    · exact mapped.entries place

/-- Every step that takes nobody out of a map leaves what the history says. -/
theorem step (mapped : chronicle.Mapped) (event : Event) (undropped : chronicle.Undropped event)
    (stepped : chronicle.step config event = some after) : after.Mapped := by
  cases recording_of_step event stepped with
  | aside _ world rooms maps nextRef _ _ connections =>
    have entries : ∀ place, world.sfu.entry place = chronicle.world.sfu.entry place := by
      intro place
      rw [SfuServer.entry, SfuServer.peersOf, maps]
      rfl
    refine ⟨⟨?_, ?_⟩, ?_, ?_⟩
    · intro roomId peers stored
      rw [SfuServer.roomPeers, rooms] at stored
      exact nextRef ▸ mapped.made.rooms roomId peers stored
    · intro place beyond
      exact (entries place).trans (mapped.made.unmade place (nextRef ▸ beyond))
    · intro id connection peers known held
      rcases connections id connection known with before | ⟨target, _⟩
      · exact nextRef ▸ mapped.targets id connection peers before held
      · rw [target] at held
        cases held
    · intro place
      rw [history_aside, ← mapped.entries, SfuServer.generation, SfuServer.generation, ← entries]
  | advanced id answer connection turn present taken =>
    exact mapped.turned present (Connection.advance_mapping taken) undropped
  | ended task => exact mapped.ended task

end Mapped

/-- In every state reached the maps are what the history says. -/
theorem mapped_of_reaches {e2eeRequired : Bool}
    (reached : Reaches (step config) Undropped (new e2eeRequired) chronicle) : chronicle.Mapped := by
  refine reached.invariant Mapped ⟨⟨?_, ?_⟩, ?_, fun _ => rfl⟩
    fun _ event _ mapped undropped stepped => mapped.step event undropped stepped
  · intro roomId peers named
    cases named
  · intro place _
    rfl
  · intro id connection peers known
    cases known

/-- Everybody who serves has its entry on record, or is about to make it. -/
structure Recorded (chronicle : Chronicle) : Prop where
  below : ∀ place gen, .takes gen ∈ chronicle.history place →
    gen < chronicle.world.sfu.nextPeerGen
  entering : ∀ id connection peers peer,
    chronicle.world.connections.lookup id = some connection →
    connection.point.serving = some (peers, peer) → connection.point.entering = true →
      ∀ place, .takes peer.gen ∉ chronicle.history place
  entered : ∀ id connection pid peers peer,
    chronicle.world.connections.lookup id = some connection →
    connection.participantId = some pid → connection.point.serving = some (peers, peer) →
      connection.point.entering = false → .takes peer.gen ∈ chronicle.history { peers, pid }
  running : ∀ task ∈ chronicle.world.sfu.mediaTasks,
    .takes task.gen ∈ chronicle.history task.place
  orderly : ∀ place, Tenure.Orderly (chronicle.history place)

namespace Recorded

variable {id : WsSink} {connection : Connection} {answer : Option String} {turn : Turn}
variable {owner : Nat → ParticipantId × PeersRef}

/-- A section that makes no entry. -/
theorem unchanged (recorded : chronicle.Recorded)
    (grows : chronicle.world.sfu.nextPeerGen ≤ turn.sfu.nextPeerGen)
    (entering : ∀ peers peer, turn.connection.point.serving = some (peers, peer) →
      turn.connection.point.entering = true → ∀ place, .takes peer.gen ∉ chronicle.history place)
    (entered : ∀ pid peers peer, turn.connection.participantId = some pid →
      turn.connection.point.serving = some (peers, peer) →
      turn.connection.point.entering = false → .takes peer.gen ∈ chronicle.history { peers, pid })
    (running : ∀ task ∈ turn.sfu.mediaTasks, .takes task.gen ∈ chronicle.history task.place) :
    Chronicle.Recorded
      { world := chronicle.world.commit id turn,
        changes := chronicle.changes ++ (none : Option (Place × _)).toList } := by
  refine ⟨?_, ?_, ?_, ?_, ?_⟩
  · intro place gen listed
    rw [history_aside] at listed
    exact Nat.lt_of_lt_of_le (recorded.below place gen listed) grows
  · intro other found peers peer known holds first place
    rw [history_aside]
    change (chronicle.world.commit id turn).connections.lookup other = some found at known
    rw [World.lookup_commit] at known
    split at known
    · cases known
      exact entering peers peer holds first place
    · exact recorded.entering other found peers peer known holds first place
  · intro other found pid peers peer known bound holds past
    rw [history_aside]
    change (chronicle.world.commit id turn).connections.lookup other = some found at known
    rw [World.lookup_commit] at known
    split at known
    · cases known
      exact entered pid peers peer bound holds past
    · exact recorded.entered other found pid peers peer known bound holds past
  · intro task listed
    rw [history_aside]
    exact running task listed
  · intro place
    rw [history_aside]
    exact recorded.orderly place

/-- The section that makes an entry. -/
theorem enters (recorded : chronicle.Recorded) (lineage : chronicle.world.Lineage owner)
    {pid : ParticipantId} {peers : PeersRef} {peer : SfuPeer}
    (present : chronicle.world.connections.lookup id = some connection)
    (bound : connection.participantId = some pid)
    (same : turn.connection.participantId = connection.participantId)
    (held : connection.point.serving = some (peers, peer))
    (first : connection.point.entering = true)
    (serving : turn.connection.point.serving = some (peers, peer))
    (past : turn.connection.point.entering = false)
    (sfu : turn.sfu = chronicle.world.sfu.register peers pid peer) :
    Chronicle.Recorded
      { world := chronicle.world.commit id turn,
        changes := chronicle.changes ++
          (some ({ peers, pid }, Tenure.takes peer.gen) : Option (Place × _)).toList } := by
  have fresh := recorded.entering id connection peers peer present held first
  have below : peer.gen < chronicle.world.sfu.nextPeerGen :=
    (lineage.serving id connection peers peer present held).2.1
  have more : ∀ place gen, .takes gen ∈ chronicle.history place → .takes gen ∈
      Chronicle.history
        { world := chronicle.world.commit id turn,
          changes := chronicle.changes ++
            (some ({ peers, pid }, Tenure.takes peer.gen) : Option (Place × _)).toList } place := by
    intro place gen listed
    rw [history_changed]
    split
    · exact List.mem_append_left _ listed
    · exact listed
  have fewer : ∀ place gen, .takes gen ∈ Chronicle.history
        { world := chronicle.world.commit id turn,
          changes := chronicle.changes ++
            (some ({ peers, pid }, Tenure.takes peer.gen) : Option (Place × _)).toList } place →
      .takes gen ∈ chronicle.history place ∨ gen = peer.gen := by
    intro place gen listed
    rw [history_changed] at listed
    split at listed
    · rcases List.mem_append.mp listed with earlier | now
      · exact .inl earlier
      · exact .inr (by simpa using now)
    · exact .inl listed
  refine ⟨?_, ?_, ?_, ?_, ?_⟩
  · intro place gen listed
    change gen < turn.sfu.nextPeerGen
    rw [sfu]
    rcases fewer place gen listed with earlier | rfl
    · exact recorded.below place gen earlier
    · exact below
  · intro other found tested member known holds entering place listed
    change (chronicle.world.commit id turn).connections.lookup other = some found at known
    rw [World.lookup_commit] at known
    split at known
    · cases known
      rw [past] at entering
      cases entering
    · rename_i apart
      rcases fewer place member.gen listed with earlier | own
      · exact recorded.entering other found tested member known holds entering place earlier
      · exact apart (lineage.alone other id found connection _ _ known present holds held own)
  · intro other found participant tested member known binding holds entered
    change (chronicle.world.commit id turn).connections.lookup other = some found at known
    rw [World.lookup_commit] at known
    split at known
    · cases known
      cases serving.symm.trans holds
      rw [same, bound] at binding
      cases binding
      rw [history_changed, if_pos rfl]
      exact List.mem_append_right _ (List.mem_singleton_self _)
    · exact more _ _ (recorded.entered other found participant tested member known binding holds
        entered)
  · intro task listed
    change task ∈ turn.sfu.mediaTasks at listed
    rw [sfu] at listed
    exact more _ _ (recorded.running task listed)
  · intro place
    rw [history_changed]
    split
    · refine .takes (recorded.orderly place) ?_
      rw [Tenure.mem_taken]
      exact fresh place
    · exact recorded.orderly place

/-- A section keeps the record. -/
theorem turned (recorded : chronicle.Recorded) (lineage : chronicle.world.Lineage owner)
    (present : chronicle.world.connections.lookup id = some connection)
    (peering : Peering chronicle.world connection turn) :
    Chronicle.Recorded { world := chronicle.world.commit id turn,
                         changes := chronicle.changes ++
                           (chronicle.world.change (.advance id answer)).toList } := by
  cases peering with
  | fewer free freeAfter entries mediaTasks nextPeerGen =>
    rw [World.change_quiet present (Point.quiet_of_free free)]
    refine recorded.unchanged (Nat.le_of_eq nextPeerGen.symm) ?_ ?_ (mediaTasks ▸ recorded.running)
    · intro peers peer holds
      rw [freeAfter] at holds
      cases holds
    · intro pid peers peer _ holds
      rw [freeAfter] at holds
      cases holds
  | accepts pid peers peer free bound serving entering gen entries mediaTasks nextPeerGen =>
    rw [World.change_quiet present (Point.quiet_of_free free)]
    refine recorded.unchanged (by omega) ?_ ?_ (mediaTasks ▸ recorded.running)
    · intro held other holds _ place listed
      cases serving.symm.trans holds
      have := recorded.below place peer.gen listed
      omega
    · intro participant held other _ _ past
      rw [entering] at past
      cases past
  | enters pid peers peer bound same held entering serving entered sfu =>
    obtain ⟨handled, point⟩ := Point.register_of_entering entering held
    rw [World.change_enters present point bound]
    exact recorded.enters lineage present bound same held entering serving entered sfu
  | keeps peers peer same held entered serving enteredAfter entries mediaTasks nextPeerGen =>
    rw [World.change_quiet present entered]
    refine recorded.unchanged (Nat.le_of_eq nextPeerGen.symm) ?_ ?_ (mediaTasks ▸ recorded.running)
    · intro tested other _ entering
      rw [enteredAfter] at entering
      cases entering
    · intro pid tested other bound holds _
      cases serving.symm.trans holds
      exact recorded.entered id connection pid peers peer present (same ▸ bound) held entered
  | starts pid peers peer bound held entered freeAfter sfu =>
    rw [World.change_quiet present entered]
    refine recorded.unchanged (by rw [sfu]; exact Nat.le_refl _) ?_ ?_ ?_
    · intro tested other holds
      rw [freeAfter] at holds
      cases holds
    · intro participant tested other _ holds
      rw [freeAfter] at holds
      cases holds
    · intro task listed
      rw [sfu] at listed
      rcases List.mem_append.mp listed with before | started
      · exact recorded.running task before
      · cases List.mem_singleton.mp started
        exact recorded.entered id connection pid peers peer present bound held entered

/-- The end of a media task. -/
theorem ended (recorded : chronicle.Recorded) {task : MediaTask}
    (running : task ∈ chronicle.world.sfu.mediaTasks) :
    Chronicle.Recorded
      { world := { chronicle.world with sfu := chronicle.world.sfu.endMediaTask task },
        changes := chronicle.changes ++
          (some (task.place, Tenure.leaves task.gen) : Option (Place × _)).toList } := by
  obtain ⟨mediaTasks, nextPeerGen⟩ := chronicle.world.sfu.mediaTasks_endMediaTask task
  have same : ∀ place gen, .takes gen ∈ Chronicle.history
        { world := { chronicle.world with sfu := chronicle.world.sfu.endMediaTask task },
          changes := chronicle.changes ++
            (some (task.place, Tenure.leaves task.gen) : Option (Place × _)).toList } place ↔
      .takes gen ∈ chronicle.history place := by
    intro place gen
    rw [history_changed]
    split
    · simp
    · rfl
  refine ⟨?_, ?_, ?_, ?_, ?_⟩
  · intro place gen listed
    exact nextPeerGen ▸ recorded.below place gen ((same place gen).mp listed)
  · intro id connection peers peer known holds entering place
    rw [same]
    exact recorded.entering id connection peers peer known holds entering place
  · intro id connection pid peers peer known bound holds entered
    rw [same]
    exact recorded.entered id connection pid peers peer known bound holds entered
  · intro other listed
    rw [same]
    exact recorded.running other (List.mem_of_mem_erase (mediaTasks ▸ listed))
  · intro place
    rw [history_changed]
    split
    · rename_i here
      refine .leaves (recorded.orderly place) ?_
      rw [Tenure.mem_taken, ← here]
      exact recorded.running task running
    · exact recorded.orderly place

/-- Every step keeps the record. -/
theorem step (recorded : chronicle.Recorded) (lineage : chronicle.world.Lineage owner)
    (event : Event) (stepped : chronicle.step config event = some after) : after.Recorded := by
  cases recording_of_step event stepped with
  | aside _ world _ _ _ mediaTasks nextPeerGen connections =>
    have before : ∀ {id connection held}, world.connections.lookup id = some connection →
        connection.point.serving = some held →
          chronicle.world.connections.lookup id = some connection := by
      intro id connection held known holds
      rcases connections id connection known with before | ⟨_, free⟩
      · exact before
      · rw [free] at holds
        cases holds
    refine ⟨?_, ?_, ?_, ?_, ?_⟩
    · intro place gen listed
      rw [history_aside] at listed
      exact nextPeerGen ▸ recorded.below place gen listed
    · intro id connection peers peer known holds entering place
      rw [history_aside]
      exact recorded.entering id connection peers peer (before known holds) holds entering place
    · intro id connection pid peers peer known bound holds entered
      rw [history_aside]
      exact recorded.entered id connection pid peers peer (before known holds) bound holds entered
    · intro task listed
      rw [history_aside]
      exact recorded.running task (mediaTasks ▸ listed)
    · intro place
      rw [history_aside]
      exact recorded.orderly place
  | advanced id answer connection turn present taken =>
    exact recorded.turned lineage present (Connection.advance_peering taken)
  | ended task running => exact recorded.ended running

end Recorded

/-- In every state reached those who serve have their entries on record. -/
theorem recorded_of_reaches {e2eeRequired : Bool}
    (reached : Reaches (step config) Undropped (new e2eeRequired) chronicle) :
    chronicle.Recorded := by
  apply reached.invariant_with (fun chronicle => ∃ owner, chronicle.world.Lineage owner) Recorded
  · exact fun _ reached => World.lineage_of_reaches (world_reaches reached)
  · refine ⟨?_, ?_, ?_, ?_, fun _ => .nil⟩
    · intro place gen listed
      cases listed
    · intro id connection peers peer known
      cases known
    · intro id connection pid peers peer known
      cases known
    · intro task running
      cases running
  · rintro before event after ⟨owner, lineage⟩ recorded _ stepped
    exact recorded.step lineage event stepped

/-- A participant is in a map exactly if the media task of its latest entry has
not ended. -/
theorem inMap_iff {e2eeRequired : Bool}
    (reached : Reaches (step config) Undropped (new e2eeRequired) chronicle) (place : Place) :
    chronicle.world.sfu.inMap place.peers place.pid = true ↔
      ∃ gen, Tenure.latest (chronicle.history place) = some gen ∧
        .leaves gen ∉ chronicle.history place := by
  have entered : chronicle.world.sfu.inMap place.peers place.pid =
      (chronicle.world.sfu.generation place).isSome := by
    simp [SfuServer.inMap, SfuServer.generation, SfuServer.entry]
  rw [entered, (mapped_of_reaches reached).entries,
    ((recorded_of_reaches reached).orderly place).held_eq, Option.isSome_iff_exists]
  simp only [Option.filter_eq_some_iff, decide_eq_true_eq]

/-- The history of a place, split where an entry of its own was made. -/
theorem history_split {earlier later : List (Place × Tenure Nat)} {place : Place} {gen : Nat}
    (changes : chronicle.changes = earlier ++ (place, .takes gen) :: later) :
    ∃ before, chronicle.history place = before ++
      .takes gen :: (later.filter fun entry => entry.1 = place).map Prod.snd := by
  refine ⟨(earlier.filter fun entry => entry.1 = place).map Prod.snd, ?_⟩
  simp [history, changes]

/-- The end of a media task leaves every entry made after its own. -/
theorem keeps_later {e2eeRequired : Bool}
    (reached : Reaches (step config) Undropped (new e2eeRequired) chronicle) (task : MediaTask)
    (stepped : chronicle.step config (.mediaEnds task) = some after)
    {earlier later : List (Place × Tenure Nat)}
    (changes : chronicle.changes = earlier ++ (task.place, .takes task.gen) :: later)
    {place : Place} {peer : SfuPeer} (follows : (place, .takes peer.gen) ∈ later)
    (entered : chronicle.world.sfu.entry place = some peer) :
    after.world.sfu.entry place = some peer := by
  have ended : after.world.sfu = chronicle.world.sfu.endMediaTask task := by
    obtain ⟨world, taken, rfl⟩ := step_eq_some stepped
    simp only [World.step, Option.ite_none_right_eq_some, Option.some.injEq] at taken
    rw [← taken.2]
  rw [ended, SfuServer.entry_endMediaTask]
  refine ⟨entered, ?_⟩
  rintro ⟨rfl, own⟩
  obtain ⟨before, split⟩ := history_split changes
  have orderly := (recorded_of_reaches reached).orderly task.place
  rw [split] at orderly
  have retaken : peer.gen ∈
      Tenure.taken ((later.filter fun entry => entry.1 = task.place).map Prod.snd) := by
    rw [Tenure.mem_taken]
    exact List.mem_map.mpr ⟨_, List.mem_filter.mpr ⟨follows, by simp⟩, rfl⟩
  have kept := orderly.keeps_later retaken
  simp [Tenure.apply, own] at kept

end Chronicle

/-- A media task that ends removes no entry made after its own, and a participant
is in a map exactly if the media task of its latest entry there has not ended.

The chronicle lists the entries in the order they were made. A task ends only its own, and
one that was made later is not taken away by it. -/
theorem replacement_protected (config : Config) (e2eeRequired : Bool) (chronicle : Chronicle)
    (reached : Reaches (Chronicle.step config) Chronicle.Undropped (.new e2eeRequired) chronicle) :
    (∀ task after, chronicle.step config (.mediaEnds task) = some after →
        (task.place, .takes task.gen) ∈ chronicle.changes ∧
          ∀ earlier later, chronicle.changes = earlier ++ (task.place, .takes task.gen) :: later →
            ∀ place peer, (place, .takes peer.gen) ∈ later →
              chronicle.world.sfu.entry place = some peer →
                after.world.sfu.entry place = some peer) ∧
      ∀ place : Place, chronicle.world.sfu.inMap place.peers place.pid = true ↔
        ∃ gen, Tenure.latest (chronicle.history place) = some gen ∧
          .leaves gen ∉ chronicle.history place := by
  refine ⟨?_, Chronicle.inMap_iff reached⟩
  intro task after stepped
  constructor
  · obtain ⟨world, taken, _⟩ := Chronicle.step_eq_some stepped
    simp only [World.step, Option.ite_none_right_eq_some] at taken
    have listed := (Chronicle.recorded_of_reaches reached).running task taken.1
    obtain ⟨⟨place, change⟩, member, same⟩ := List.mem_map.mp listed
    obtain ⟨member, here⟩ := List.mem_filter.mp member
    cases same
    cases of_decide_eq_true here
    exact member
  · intro earlier later changes place peer follows entered
    exact Chronicle.keeps_later reached task stepped changes follows entered

/-- A participant's two connections, each with an accepted offer. -/
def takeover : List Event :=
  .connect :: Event.firstJoin 1 ⟨1⟩ "a" ++ Event.offer 1 ⟨1⟩ "a" ++
    .connect :: Event.firstJoin 2 ⟨1⟩ "a" ++ Event.offer 2 ⟨1⟩ "a"

/-- The server after them. -/
def takenOver : Chronicle :=
  (walk (Chronicle.step .sfuDefault) Chronicle.Undropped (.new false) takeover).getD (.new false)

/-- The media task of the first connection. -/
def takenOverTask : MediaTask :=
  { pid := ⟨1⟩, peers := 0, wsTx := 1, roomId := "a", gen := 1 }

/-- When the first media task ends, the entry of the second stays, and the
participant stays in the map. -/
theorem replacement_protected_takeover :
    let after := (takenOver.step .sfuDefault (.mediaEnds takenOverTask)).getD takenOver
    takenOver.changes = [(⟨0, ⟨1⟩⟩, .takes 1), (⟨0, ⟨1⟩⟩, .takes 2)] ∧
      after.world.sfu.entry ⟨0, ⟨1⟩⟩ = some { wsTx := 2, gen := 2 } ∧
      (takenOver.world.sfu.inMap 0 ⟨1⟩ = true ↔
        ∃ gen, Tenure.latest (takenOver.history ⟨0, ⟨1⟩⟩) = some gen ∧
          .leaves gen ∉ takenOver.history ⟨0, ⟨1⟩⟩) := by
  have reached := walk_reaches_end (Chronicle.step .sfuDefault) Chronicle.Undropped (.new false)
    takeover (by decide +kernel)
  have stepped : takenOver.step .sfuDefault (.mediaEnds takenOverTask) =
      some ((takenOver.step .sfuDefault (.mediaEnds takenOverTask)).getD takenOver) :=
    Option.eq_some_of_isSome (by decide +kernel)
  have changes : takenOver.changes = [(⟨0, ⟨1⟩⟩, .takes 1), (⟨0, ⟨1⟩⟩, .takes 2)] := by
    decide +kernel
  obtain ⟨ends, places⟩ := replacement_protected .sfuDefault false takenOver reached
  refine ⟨changes, ?_, places ⟨0, ⟨1⟩⟩⟩
  exact (ends takenOverTask _ stepped).2 [] [(⟨0, ⟨1⟩⟩, .takes 2)] changes ⟨0, ⟨1⟩⟩
    { wsTx := 2, gen := 2 } (by decide) (by decide +kernel)

end Seameet
