import Seameet.Library.Ledger
import Seameet.Facade.Calls

/-!
# The events of a room's life

The wrapper announces a room before the engine makes it, and its end after the engine
has removed it, and what it says rests on a look at the state that may be out of date
by then. Read as a ledger, the announced creations that are still to be dispatched and
the removals that are still to be reported are in hand of the connections between, and
every step of the server is a move of one connection.

An explicit `Leave` removes a room without a word. So the events mirror the rooms in
the runs in which every move finds the ledger as it expects it.
-/

namespace Seameet.Facade

open Library

/-- The room whose creation is on record with a call. -/
def HookCall.created : HookCall → Option RoomId
  | .sending created _ => created
  | .snapshot _ _ | .innerMessage _ _ _ | .innerDisconnect _ _ => none

namespace SeaMeetServer

/-- What the connections have in hand, beside the rooms and their records. -/
def ledger (server : SeaMeetServer) : Ledger WsSink RoomId :=
  { present := server.world.signaling.hasRoom
    opening := fun id =>
      (server.world.connections.lookup id).bind fun connection =>
        creation connection.point (server.calls.lookup id)
    closing := fun id =>
      ((server.world.connections.lookup id).map fun connection =>
        destructions connection.point (server.calls.lookup id)).getD []
    record := server.roomLife }

/-- What holds in every run of orderly steps. -/
structure Consistent (server : SeaMeetServer) : Prop where
  fresh : server.world.Fresh
  known : ∀ id, server.world.connections.lookup id = none → server.calls.lookup id = none
  tidy : server.world.signaling.TidyLists
  fits : ∀ id connection, server.world.connections.lookup id = some connection →
    CallFits connection.point (server.calls.lookup id)
  mirrored : server.ledger.Mirrored

variable {config : Config} {server after : SeaMeetServer} {id : WsSink} {connection : Seameet.Connection}

/-- What a connection has announced and is still to dispatch. -/
theorem opening_of (present : server.world.connections.lookup id = some connection) :
    server.ledger.opening id = creation connection.point (server.calls.lookup id) := by
  simp [ledger, present]

/-- What a connection has emptied and is still to report. -/
theorem closing_of (present : server.world.connections.lookup id = some connection) :
    server.ledger.closing id = destructions connection.point (server.calls.lookup id) := by
  simp [ledger, present]

section Proceed

variable {call : HookCall}

/-- A call that goes on moves one connection. -/
theorem proceed_only (world : after.world = server.world)
    (calls : after.calls = server.calls.insert id call) :
    Ledger.Only id server.ledger after.ledger := by
  constructor <;> intro other apart <;>
    simp [ledger, world, calls, Table.lookup_insert_eq, apart]

/-- A call that goes on keeps the rest in order. -/
theorem Consistent.proceed (consistent : server.Consistent)
    (present : server.world.connections.lookup id = some connection)
    (world : after.world = server.world) (calls : after.calls = server.calls.insert id call)
    (fits : CallFits connection.point (some call)) (mirrored : after.ledger.Mirrored) :
    after.Consistent := by
  constructor
  · rw [world]
    exact consistent.fresh
  · intro tested absent
    rw [world] at absent
    rw [calls, Table.lookup_insert_eq, if_neg, consistent.known tested absent]
    rintro rfl
    rw [present] at absent
    cases absent
  · rw [world]
    exact consistent.tidy
  · intro tested other found
    rw [world] at found
    rw [calls, Table.lookup_insert_eq]
    by_cases same : tested = id
    · subst same
      rw [present] at found
      cases found
      rwa [if_pos rfl]
    · rw [if_neg same]
      exact consistent.fits tested other found
  · exact mirrored

/-- A call that goes on without a word on any room. -/
theorem Consistent.quietly (consistent : server.Consistent)
    (present : server.world.connections.lookup id = some connection)
    (fits : CallFits connection.point (some call))
    (opening : creation connection.point (some call) =
      creation connection.point (server.calls.lookup id))
    (closing : destructions connection.point (some call) =
      destructions connection.point (server.calls.lookup id))
    (world : after.world = server.world) (calls : after.calls = server.calls.insert id call)
    (record : ∀ roomId, after.roomLife roomId = server.roomLife roomId) : after.Consistent := by
  have only := proceed_only world calls
  have there : after.world.connections.lookup id = some connection := by rw [world, present]
  have now : after.calls.lookup id = some call := by rw [calls, AList.lookup_insert]
  apply consistent.proceed present world calls fits
  apply consistent.mirrored.keep
  · intro roomId
    exact congrArg (fun world => world.signaling.hasRoom roomId) world
  · intro tested
    by_cases same : tested = id
    · rw [same, opening_of there, now, opening, opening_of present]
    · exact only.opening tested same
  · intro tested
    by_cases same : tested = id
    · rw [same, closing_of there, now, closing, closing_of present]
    · exact only.closing tested same
  · exact record

end Proceed

section Follow

variable {event : Event} {turn : Turn}

/-- The call of a connection after a section of its task. -/
def callAfter (server : SeaMeetServer) (id : WsSink) (before later : Seameet.Connection) :
    Option HookCall :=
  (HookCall.calledBy before later).or (server.calls.lookup id)

/-- A section that makes no call leaves the last one. -/
theorem callAfter_same {later : Seameet.Connection} (none : HookCall.calledBy connection later = none) :
    server.callAfter id connection later = server.calls.lookup id := by
  rw [callAfter, none, Option.none_or]

/-- What the wrapper makes of a section of a connection's task. -/
theorem follow_commit (config : Config) (event : Event) (turn : Turn)
    (own : eventConnection event = some id)
    (present : server.world.connections.lookup id = some connection) :
    let after := server.follow config event (server.world.commit id turn)
    after.world = server.world.commit id turn ∧
      (∀ tested, after.calls.lookup tested =
        if tested = id then server.callAfter id connection turn.connection
        else server.calls.lookup tested) ∧
      ∀ roomId, after.roomLife roomId = server.roomLife roomId := by
  intro after
  have silent := checkEvents_life config connection event
  have moved : after = server.follow config event (server.world.commit id turn) := rfl
  simp only [follow, own, present, World.lookup_commit, ↓reduceIte, Option.map_some,
    Option.bind_some] at moved
  rw [moved]
  refine ⟨rfl, ?_, ?_⟩
  · intro tested
    unfold callAfter
    cases HookCall.calledBy connection turn.connection with
    | none =>
      by_cases same : tested = id
      · rw [if_pos same, same]
        rfl
      · rw [if_neg same]
    | some call => exact Table.lookup_insert_eq id tested call server.calls
  · intro roomId
    simp [roomLife, List.filterMap_append, silent]

/-- A section of a connection's task moves one connection of the ledger. -/
theorem follow_ledger (config : Config) (event : Event) (turn : Turn)
    (own : eventConnection event = some id)
    (present : server.world.connections.lookup id = some connection) :
    let after := (server.follow config event (server.world.commit id turn)).ledger
    Ledger.Only id server.ledger after ∧
      (∀ roomId, after.present roomId = turn.signaling.hasRoom roomId) ∧
      after.opening id =
        creation turn.connection.point (server.callAfter id connection turn.connection) ∧
      after.closing id =
        destructions turn.connection.point (server.callAfter id connection turn.connection) ∧
      ∀ roomId, after.record roomId = server.ledger.record roomId := by
  obtain ⟨world, calls, record⟩ := follow_commit config event turn own present
  refine ⟨?_, ?_, ?_, ?_, record⟩
  · constructor <;> intro other apart <;>
      simp [ledger, world, calls, World.lookup_commit, apart]
  · intro roomId
    rw [ledger, world]
    rfl
  · simp [ledger, world, calls, World.lookup_commit]
  · simp [ledger, world, calls, World.lookup_commit]

/-- A section after which the connection has the same in hand. -/
theorem follow_hand (config : Config) (event : Event) (turn : Turn)
    (own : eventConnection event = some id)
    (present : server.world.connections.lookup id = some connection)
    (opening : creation turn.connection.point (server.callAfter id connection turn.connection) =
      creation connection.point (server.calls.lookup id))
    (closing : destructions turn.connection.point
        (server.callAfter id connection turn.connection) =
      destructions connection.point (server.calls.lookup id)) :
    let after := (server.follow config event (server.world.commit id turn)).ledger
    (∀ tested, after.opening tested = server.ledger.opening tested) ∧
      ∀ tested, after.closing tested = server.ledger.closing tested := by
  obtain ⟨only, _, opens, closes, _⟩ :=
    follow_ledger config event turn own present
  constructor <;> intro tested <;> by_cases same : tested = id
  · rw [same, opens, opening, opening_of present]
  · exact only.opening tested same
  · rw [same, closes, closing, closing_of present]
  · exact only.closing tested same

/-- A section of a connection's task keeps the rest in order. -/
theorem Consistent.turned (consistent : server.Consistent)
    (own : eventConnection event = some id)
    (present : server.world.connections.lookup id = some connection)
    (tidy : turn.signaling.TidyLists)
    (fits : CallFits turn.connection.point (server.callAfter id connection turn.connection))
    (mirrored : (server.follow config event (server.world.commit id turn)).ledger.Mirrored) :
    (server.follow config event (server.world.commit id turn)).Consistent := by
  obtain ⟨world, calls, _⟩ := follow_commit config event turn own present
  constructor
  · rw [world]
    exact consistent.fresh.commit turn present
  · intro tested absent
    rw [world, World.lookup_commit] at absent
    by_cases same : tested = id
    · rw [if_pos same] at absent
      cases absent
    · rw [if_neg same] at absent
      rw [calls, if_neg same, consistent.known tested absent]
  · rw [world]
    exact tidy
  · intro tested other found
    rw [world, World.lookup_commit] at found
    rw [calls]
    by_cases same : tested = id
    · rw [if_pos same] at found
      cases found
      rwa [if_pos same]
    · rw [if_neg same] at found
      rw [if_neg same]
      exact consistent.fits tested other found
  · exact mirrored

/-- A section that makes and removes no room, and announces and reports none. -/
theorem Consistent.calmly (consistent : server.Consistent)
    (own : eventConnection event = some id)
    (present : server.world.connections.lookup id = some connection)
    (connections : turn.signaling.connections = server.world.signaling.connections)
    (rooms : ∀ roomId, turn.signaling.hasRoom roomId = server.world.signaling.hasRoom roomId)
    (fits : CallFits turn.connection.point (server.callAfter id connection turn.connection))
    (opening : creation turn.connection.point (server.callAfter id connection turn.connection) =
      creation connection.point (server.calls.lookup id))
    (closing : destructions turn.connection.point
        (server.callAfter id connection turn.connection) =
      destructions connection.point (server.calls.lookup id)) :
    (server.follow config event (server.world.commit id turn)).Consistent := by
  obtain ⟨_, there, _, _, record⟩ :=
    follow_ledger config event turn own present
  obtain ⟨opens, closes⟩ :=
    follow_hand config event turn own present opening closing
  apply consistent.turned own present (consistent.tidy.of_connections connections) fits
  exact consistent.mirrored.keep (fun roomId => (there roomId).trans (rooms roomId)) opens closes
    record

end Follow

/-- A creation of the room has been announced and is still to be dispatched. -/
def Announced (server : SeaMeetServer) (roomId : RoomId) : Prop := server.ledger.Underway roomId

/-- A disconnect has emptied the room, and its destruction is still to be sent. -/
def Unreported (server : SeaMeetServer) (roomId : RoomId) : Prop := server.ledger.Due roomId

/-- A `Leave` empties a room only while a creation of it is announced. -/
def OrderlyDispatch (server : SeaMeetServer) : SdpMessage → Prop
  | .leave participant roomId =>
      server.world.signaling.soleMember participant roomId = true → server.Announced roomId
  | _ => True

/-- A `Join` brings its room to life only once a creation is announced and no
destruction of it is unreported, and a disconnect finds all rooms the index lists. -/
def OrderlyAt (server : SeaMeetServer) : Point → Option ParticipantId → Prop
  | .joining _ request .dispatch, _ =>
      server.world.signaling.hasRoom request.roomId = true ∨
        (server.Announced request.roomId ∧ ¬ server.Unreported request.roomId)
  | .handling handled .dispatch, _ => server.OrderlyDispatch handled.message
  | .leaving .disconnect, some pid =>
      ∀ roomId, server.world.signaling.listed pid roomId →
        server.world.signaling.hasRoom roomId = true
  | _, _ => True

/-- A creation is announced only of a room that is not there, with no other creation
announced and no destruction unreported; a destruction is told only while no creation
is announced. -/
def OrderlySend (server : SeaMeetServer) : HookCall → Prop
  | .sending _ (.roomCreated roomId :: _) =>
      server.world.signaling.hasRoom roomId = false ∧ ¬ server.Announced roomId ∧
        ¬ server.Unreported roomId
  | .sending _ (.roomDestroyed roomId :: _) => ¬ server.Announced roomId
  | _ => True

/-- What is asked of a step. -/
def Orderly (server : SeaMeetServer) : ServerStep → Prop
  | .engine (.advance id _) =>
      ∀ connection ∈ server.world.connections.lookup id,
        server.OrderlyAt connection.point connection.participantId
  | .sends id => ∀ call ∈ server.calls.lookup id, server.OrderlySend call
  | _ => True

namespace Consistent

section Engine

variable {answer : Option String} {turn : Turn}

/-- The task is let go on. -/
theorem free_of_lets {event : Event} (own : eventConnection event = some id)
    (present : server.world.connections.lookup id = some connection)
    (let_on : server.lets event = true) :
    ∀ call, server.calls.lookup id = some call → call.holds connection.point = false := by
  intro call found
  simpa [lets, own, present, found] using let_on

/-- A `Join` handler before its dispatch. -/
theorem join_on (consistent : server.Consistent) {pid : ParticipantId} {first : Bool}
    {request : JoinRequest} {stage : JoinStage} (before : stage ≠ .dispatch)
    (present : server.world.connections.lookup id = some connection)
    (point : connection.point = .joining first request stage)
    (free : ∀ call, server.calls.lookup id = some call → call.holds connection.point = false) :
    (server.follow config (.advance id answer) (server.world.commit id
      (connection.joinSection config server.world id pid first request stage))).Consistent := by
  have fits := consistent.fits id connection present
  obtain ⟨next, moved, connections, rooms⟩ : ∃ next,
      (connection.joinSection config server.world id pid first request stage).connection =
          connection.goto (.joining first request next) ∧
        (connection.joinSection config server.world id pid first request
            stage).signaling.connections = server.world.signaling.connections ∧
        ∀ roomId, (connection.joinSection config server.world id pid first request
          stage).signaling.hasRoom roomId = server.world.signaling.hasRoom roomId := by
    cases stage with
    | dispatch => exact absurd rfl before
    | prune =>
      exact ⟨_, rfl, rfl, fun roomId =>
        server.world.signaling.hasRoom_updateRoom request.roomId roomId _⟩
    | _ => exact ⟨_, rfl, rfl, fun _ => rfl⟩
  have same : server.callAfter id connection
      (connection.joinSection config server.world id pid first request stage).connection =
        server.calls.lookup id := callAfter_same (by rw [HookCall.calledBy, point])
  have inside : hookReturned connection.point = false := by
    rw [point]
    cases stage with
    | dispatch => exact absurd rfl before
    | _ => rfl
  obtain ⟨own, preRoomExists, call⟩ := inside_of_fits fits free (by rw [point]; rfl) inside
  apply consistent.calmly rfl present connections rooms
  · rw [same, moved, call]
    exact .inl rfl
  · rw [same, call]
    rfl
  · rw [same, moved, call, point]
    rfl

/-- A `Join` is dispatched. -/
theorem join_dispatch (consistent : server.Consistent) {pid : ParticipantId} {first : Bool}
    {request : JoinRequest} (present : server.world.connections.lookup id = some connection)
    (point : connection.point = .joining first request .dispatch)
    (free : ∀ call, server.calls.lookup id = some call → call.holds connection.point = false)
    (orderly : server.world.signaling.hasRoom request.roomId = true ∨
      (server.Announced request.roomId ∧ ¬ server.Unreported request.roomId)) :
    (server.follow config (.advance id answer) (server.world.commit id
      (connection.joinSection config server.world id pid first request .dispatch))).Consistent := by
  have fits := consistent.fits id connection present
  have idle : NoCall (server.calls.lookup id) :=
    .of_fits fits free (by simp [point, hookReturned]) (by rw [point]; rfl) (by simp [point])
  have rooms := connection.joinSection_rooms config server.world id pid first request
    consistent.tidy
  have same : server.callAfter id connection
      (connection.joinSection config server.world id pid first request .dispatch).connection =
        server.calls.lookup id := callAfter_same (by rw [HookCall.calledBy, point])
  obtain ⟨only, there, opening, closing, record⟩ :=
    follow_ledger config (.advance id answer)
      (connection.joinSection config server.world id pid first request .dispatch) rfl present
  rw [same] at opening closing
  apply consistent.turned rfl present rooms.1
  · rw [same]
    exact idle.fits rfl rfl
  · refine consistent.mirrored.appear only ?_ ?_ ?_ ?_ ?_ record orderly
    · rw [opening_of present]
      rcases idle with none | ⟨created, last⟩
      · rw [none]
        exact .inl rfl
      · rw [last] at fits ⊢
        cases created with
        | none => exact .inl rfl
        | some roomId =>
          obtain rfl := fits.room first request point roomId rfl
          right
          simp [creation, dispatchesJoin, point]
    · rw [opening]
      exact creation_eq_none rfl _
    · have settled : destructions connection.point (server.calls.lookup id) = [] :=
        idle.destructions_eq (by simp [point])
      rw [closing, closing_of present, settled]
      exact idle.destructions_eq fun _ _ impossible => by cases impossible
    · rw [there, rooms.2]
      simp
    · intro roomId apart
      rw [there, rooms.2]
      simp [apart, ledger]

/-- A `Leave` is dispatched. -/
theorem part (consistent : server.Consistent) {participant : ParticipantId} {roomId : RoomId}
    (present : server.world.connections.lookup id = some connection)
    (left : turn.signaling = (server.world.signaling.leave participant roomId).2)
    (fits : CallFits turn.connection.point (server.callAfter id connection turn.connection))
    (opening : creation turn.connection.point (server.callAfter id connection turn.connection) =
      creation connection.point (server.calls.lookup id))
    (closing : destructions turn.connection.point
        (server.callAfter id connection turn.connection) =
      destructions connection.point (server.calls.lookup id))
    (orderly : server.OrderlyDispatch (.leave participant roomId)) :
    (server.follow config (.advance id answer) (server.world.commit id turn)).Consistent := by
  have tidy := consistent.tidy.leave participant roomId
  rw [← left] at tidy
  obtain ⟨_, there, _, _, record⟩ :=
    follow_ledger config (.advance id answer) turn rfl present
  obtain ⟨opens, closes⟩ :=
    follow_hand config (.advance id answer) turn rfl present opening closing
  rw [left] at there
  apply consistent.turned rfl present tidy fits
  cases gone : (server.world.signaling.leave participant roomId).2.hasRoom roomId with
  | true =>
    refine consistent.mirrored.keep ?_ opens closes record
    intro tested
    rw [there]
    by_cases same : tested = roomId
    · subst same
      have stood := server.world.signaling.hasRoom_of_leave participant tested tested gone
      exact gone.trans stood.symm
    · rw [SignalingState.hasRoom_leave, if_neg same]
      rfl
  | false =>
    refine consistent.mirrored.vanish opens closes ((there roomId).trans gone) ?_ record ?_
    · intro tested apart
      rw [there, SignalingState.hasRoom_leave, if_neg apart]
      rfl
    · intro stood
      exact orderly (server.world.signaling.sole_of_leave participant roomId stood gone)

/-- A section of another message's handler. -/
theorem handle (consistent : server.Consistent) {pid : ParticipantId} {handled : Handled}
    {stage : HookStage} (present : server.world.connections.lookup id = some connection)
    (point : connection.point = .handling handled stage)
    (free : ∀ call, server.calls.lookup id = some call → call.holds connection.point = false)
    (orderly : stage = .dispatch → server.OrderlyDispatch handled.message) :
    (server.follow config (.advance id answer) (server.world.commit id
      (connection.hookSection config server.world id pid handled answer stage))).Consistent := by
  have fits := consistent.fits id connection present
  have same : server.callAfter id connection
      (connection.hookSection config server.world id pid handled answer stage).connection =
        server.calls.lookup id := callAfter_same (by rw [HookCall.calledBy, point])
  obtain ⟨next, moved, onward⟩ :=
    @Seameet.Connection.hookSection_goto config server.world id connection pid handled answer stage
  have rooms := connection.hookSection_rooms config server.world id pid handled answer
    stage
  by_cases last : stage = .dispatch
  · subst last
    have idle : NoCall (server.calls.lookup id) :=
      .of_fits fits free (by simp [point, hookReturned]) (by rw [point]; rfl) (by simp [point])
    obtain rfl : next = .idle := (congrArg Seameet.Connection.point moved).symm
    have fitting : CallFits (connection.goto .idle).point (server.calls.lookup id) :=
      idle.fits rfl rfl
    have opening : creation (connection.goto .idle).point (server.calls.lookup id) =
        creation connection.point (server.calls.lookup id) :=
      (creation_eq_none rfl _).trans (creation_eq_none (by rw [point]; rfl) _).symm
    have closing : destructions (connection.goto .idle).point (server.calls.lookup id) =
        destructions connection.point (server.calls.lookup id) :=
      (idle.destructions_eq fun _ _ impossible => by cases impossible).trans
        (idle.destructions_eq (by simp [point])).symm
    rw [← moved] at fitting opening closing
    rcases rooms with ⟨connections, rooms⟩ | ⟨_, participant, roomId, message, left⟩
    · apply consistent.calmly rfl present connections rooms <;> rwa [same]
    · have careful := orderly rfl
      rw [message] at careful
      apply consistent.part present left _ _ _ careful <;> rwa [same]
  · have inside : hookReturned connection.point = false := by
      rw [point]
      cases stage with
      | dispatch => exact absurd rfl last
      | _ => rfl
    obtain ⟨own, preRoomExists, call⟩ := inside_of_fits fits free (by rw [point]; rfl) inside
    rcases rooms with ⟨connections, rooms⟩ | ⟨impossible, _⟩
    · apply consistent.calmly rfl present connections rooms
      · rw [same, moved, call]
        rcases onward with rfl | ⟨later, rfl, _⟩
        · exact .inr ⟨rfl, handled.notJoin⟩
        · exact .inl rfl
      · rw [same, call]
        rfl
      · rw [same, moved, call, point]
        rcases onward with rfl | ⟨later, rfl, _⟩ <;> rfl
    · exact absurd impossible last

/-- A participant is taken out of its rooms. -/
theorem disconnect (consistent : server.Consistent) {pid : ParticipantId}
    (present : server.world.connections.lookup id = some connection)
    (point : connection.point = .leaving .disconnect)
    (free : ∀ call, server.calls.lookup id = some call → call.holds connection.point = false)
    (orderly : ∀ roomId, server.world.signaling.listed pid roomId →
      server.world.signaling.hasRoom roomId = true) :
    (server.follow config (.advance id answer) (server.world.commit id
      (connection.leaveSection config server.world id pid .disconnect))).Consistent := by
  have fits := consistent.fits id connection present
  have same : server.callAfter id connection
      (connection.leaveSection config server.world id pid .disconnect).connection =
        server.calls.lookup id := callAfter_same (by rw [HookCall.calledBy, point])
  have idle : NoCall (server.calls.lookup id) :=
    .of_fits fits free (by simp [point, handledMessage]) (by rw [point]; rfl) (by simp [point])
  have settled : destructions connection.point (server.calls.lookup id) = [] :=
    idle.destructions_eq (by simp [point])
  obtain ⟨only, there, opening, closing, record⟩ :=
    follow_ledger config (.advance id answer)
      (connection.leaveSection config server.world id pid .disconnect) rfl present
  have rooms := fun roomId =>
    server.world.signaling.rooms_disconnect pid roomId consistent.tidy
  have emptied : ∀ roomId, roomId ∈ HookCall.emptiedRooms (server.world.signaling.disconnect pid).1 ↔
      (roomId, true) ∈ (server.world.signaling.disconnect pid).1 := by
    intro roomId
    simp [HookCall.emptiedRooms]
  rw [same] at opening
  apply consistent.turned rfl present (consistent.tidy.disconnect pid)
  · rw [same]
    exact idle.fits rfl rfl
  · refine consistent.mirrored.depart only ?_ ?_ ?_ ?_ ?_ ?_ record
    · have hushed : creation connection.point (server.calls.lookup id) = none :=
        creation_eq_none (by rw [point]; rfl) _
      rw [opening, opening_of present, hushed]
      exact creation_eq_none rfl _
    · rw [closing_of present, settled]
    · rw [closing]
      exact (List.filter_sublist.map _).nodup (rooms "").2.2
    · intro roomId reported
      rw [closing] at reported
      have listed := (server.world.signaling.affected_disconnect pid roomId).mp
        (List.mem_map_of_mem ((emptied roomId).mp reported))
      exact orderly roomId listed
    · intro roomId reported
      rw [closing] at reported
      exact (there roomId).trans ((rooms roomId).1 true ((emptied roomId).mp reported))
    · intro roomId kept
      rw [closing] at kept
      rw [there]
      change (server.world.signaling.disconnect pid).2.hasRoom roomId =
        server.world.signaling.hasRoom roomId
      cases after : (server.world.signaling.disconnect pid).2.hasRoom roomId with
      | true => exact ((rooms roomId).2.1 after).symm
      | false =>
        cases stood : server.world.signaling.hasRoom roomId with
        | false => rfl
        | true =>
          have gone := server.world.signaling.gone_disconnect pid roomId stood after
          exact absurd ((emptied roomId).mpr gone) kept

/-- A section of the cleanup that leaves the signaling state alone. -/
theorem clean_calmly (consistent : server.Consistent) {pid : ParticipantId} {stage : LeaveStage}
    (present : server.world.connections.lookup id = some connection)
    (point : connection.point = .leaving stage) (apart : stage ≠ .disconnect)
    (fits : CallFits (connection.leaveSection config server.world id pid stage).connection.point
      (server.callAfter id connection
        (connection.leaveSection config server.world id pid stage).connection))
    (closing : destructions
        (connection.leaveSection config server.world id pid stage).connection.point
        (server.callAfter id connection
          (connection.leaveSection config server.world id pid stage).connection) =
      destructions connection.point (server.calls.lookup id)) :
    (server.follow config (.advance id answer) (server.world.commit id
      (connection.leaveSection config server.world id pid stage))).Consistent := by
  have signaling : (connection.leaveSection config server.world id pid stage).signaling =
      server.world.signaling := by
    rw [(connection.leaveSection_frame config server.world id pid stage).2]
    split
    · exact absurd rfl apart
    · rfl
  have later : dispatchesJoin
      (connection.leaveSection config server.world id pid stage).connection.point = false := by
    rcases connection.leaveSection_point config server.world id pid stage with ended | ⟨_, on⟩
    · rw [ended]
      rfl
    · rw [on]
      rfl
  apply consistent.calmly rfl present (by rw [signaling]) (fun roomId => by rw [signaling]) fits
  · rw [creation_eq_none later, creation_eq_none (by rw [point]; rfl)]
  · exact closing

/-- The hooks' part of the cleanup. -/
theorem clean_late (consistent : server.Consistent) {pid : ParticipantId} {stage : LeaveStage}
    (present : server.world.connections.lookup id = some connection)
    (point : connection.point = .leaving stage) (late : pastEngine (.leaving stage) = true) :
    (server.follow config (.advance id answer) (server.world.commit id
      (connection.leaveSection config server.world id pid stage))).Consistent := by
  have after := leaveSection_late config server.world id connection pid stage late
  obtain ⟨own, affected, call⟩ :=
    late_of_fits (consistent.fits id connection present) (by rw [point, late])
  have same : server.callAfter id connection
      (connection.leaveSection config server.world id pid stage).connection =
        some (.innerDisconnect own affected) := by
    rw [← call]
    apply callAfter_same
    rw [HookCall.calledBy, point]
    cases stage with
    | announce => cases late
    | _ => rfl
  apply consistent.clean_calmly present point
  · rintro rfl
    cases late
  · rw [same]
    exact after
  · rw [same, call, destructions_late after, destructions_late (.inl (by rw [point, late]))]

/-- The engine tells the rooms, one after the other, and then calls the hooks. -/
theorem clean_announce (consistent : server.Consistent) {pid : ParticipantId}
    {pending affected : Affected}
    (present : server.world.connections.lookup id = some connection)
    (point : connection.point = .leaving (.announce pending affected))
    (bound : connection.participantId = some pid) (idle : NoCall (server.calls.lookup id)) :
    (server.follow config (.advance id answer) (server.world.commit id (connection.leaveSection
      config server.world id pid (.announce pending affected)))).Consistent := by
  cases pending with
  | cons head pending =>
    have same : server.callAfter id connection (connection.leaveSection config server.world
        id pid (.announce (head :: pending) affected)).connection =
          server.calls.lookup id := callAfter_same (by rw [HookCall.calledBy, point])
    apply consistent.clean_calmly present point (by simp)
    · rw [same]
      exact idle.fits rfl rfl
    · rw [point]
      rfl
  | nil =>
    obtain ⟨next, moved, onward⟩ : ∃ next, (connection.leaveSection config server.world id pid
        (.announce [] affected)).connection = connection.goto next ∧
          (pastEngine next = true ∨ next = .ended) := by
      simp only [Seameet.Connection.leaveSection]
      split
      · exact ⟨_, rfl, .inr rfl⟩
      · exact ⟨_, rfl, .inl rfl⟩
    have called : server.callAfter id connection (connection.leaveSection config server.world id
        pid (.announce [] affected)).connection = some (.innerDisconnect pid affected) := by
      rw [callAfter, HookCall.calledBy, point, moved]
      simp [Seameet.Connection.goto, bound]
    apply consistent.clean_calmly present point (by simp)
    · rw [called, moved]
      exact onward
    · rw [called, moved, point]
      exact destructions_late onward pid affected

/-- The cleanup finds out whether the participant has reconnected. -/
theorem clean_stale (consistent : server.Consistent) {pid : ParticipantId}
    (present : server.world.connections.lookup id = some connection)
    (point : connection.point = .leaving .checkStale) (idle : NoCall (server.calls.lookup id)) :
    (server.follow config (.advance id answer) (server.world.commit id
      (connection.leaveSection config server.world id pid .checkStale))).Consistent := by
  have same : server.callAfter id connection
      (connection.leaveSection config server.world id pid .checkStale).connection =
        server.calls.lookup id := callAfter_same (by rw [HookCall.calledBy, point])
  have settled : destructions connection.point (server.calls.lookup id) = [] :=
    idle.destructions_eq (by simp [point])
  obtain ⟨next, moved, onward⟩ : ∃ next,
      (connection.leaveSection config server.world id pid .checkStale).connection =
          connection.goto next ∧ (next = .leaving .disconnect ∨ next = .ended) := by
    simp only [Seameet.Connection.leaveSection]
    split
    · exact ⟨_, rfl, .inl rfl⟩
    · exact ⟨_, rfl, .inr rfl⟩
  apply consistent.clean_calmly present point (by simp)
  · rw [same, moved]
    rcases onward with rfl | rfl <;> exact idle.fits rfl rfl
  · rw [same, moved, settled]
    rcases onward with rfl | rfl <;>
      exact idle.destructions_eq fun _ _ impossible => by cases impossible

/-- A section of the cleanup. -/
theorem clean (consistent : server.Consistent) {pid : ParticipantId} {stage : LeaveStage}
    (present : server.world.connections.lookup id = some connection)
    (point : connection.point = .leaving stage) (bound : connection.participantId = some pid)
    (free : ∀ call, server.calls.lookup id = some call → call.holds connection.point = false)
    (orderly : server.OrderlyAt connection.point connection.participantId) :
    (server.follow config (.advance id answer) (server.world.commit id
      (connection.leaveSection config server.world id pid stage))).Consistent := by
  cases late : pastEngine (.leaving stage) with
  | true => exact consistent.clean_late present point late
  | false =>
    have idle : NoCall (server.calls.lookup id) :=
      .of_fits (consistent.fits id connection present) free (by simp [point, handledMessage])
        (by rw [point, late]) (by simp [point])
    cases stage with
    | disconnect =>
      rw [point, bound] at orderly
      exact consistent.disconnect present point free orderly
    | checkStale => exact consistent.clean_stale present point idle
    | announce pending affected => exact consistent.clean_announce present point bound idle
    | _ => cases late

section Arrive

variable {event : Event}

/-- A task moves on outside a handler. -/
theorem rest (consistent : server.Consistent) (own : eventConnection event = some id)
    (present : server.world.connections.lookup id = some connection)
    (idle : NoCall (server.calls.lookup id)) (before : dispatchesJoin connection.point = false)
    (early : ∀ pending affected, connection.point ≠ .leaving (.announce pending affected))
    (connections : turn.signaling.connections = server.world.signaling.connections)
    (rooms : ∀ roomId, turn.signaling.hasRoom roomId = server.world.signaling.hasRoom roomId)
    (unhandled : handledMessage turn.connection.point = none)
    (engine : pastEngine turn.connection.point = false)
    (apart : ∀ pending affected, turn.connection.point ≠ .leaving (.announce pending affected))
    (none : HookCall.calledBy connection turn.connection = none) :
    (server.follow config event (server.world.commit id turn)).Consistent := by
  have same : server.callAfter id connection turn.connection = server.calls.lookup id :=
    callAfter_same none
  have later : dispatchesJoin turn.connection.point = false := by
    cases point : turn.connection.point with
    | joining =>
      rw [point] at unhandled
      cases unhandled
    | _ => rfl
  apply consistent.calmly own present connections rooms <;> rw [same]
  · exact idle.fits unhandled engine
  · rw [creation_eq_none later, creation_eq_none before]
  · rw [idle.destructions_eq apart, idle.destructions_eq early]

/-- A task starts a handler, and with it the wrapper's `on_message`. -/
theorem start (consistent : server.Consistent) (own : eventConnection event = some id)
    (present : server.world.connections.lookup id = some connection)
    (idle : NoCall (server.calls.lookup id)) (before : dispatchesJoin connection.point = false)
    (early : ∀ pending affected, connection.point ≠ .leaving (.announce pending affected))
    (connections : turn.signaling.connections = server.world.signaling.connections)
    (rooms : ∀ roomId, turn.signaling.hasRoom roomId = server.world.signaling.hasRoom roomId)
    {pid : ParticipantId} {sdp : SdpMessage} (bound : turn.connection.participantId = some pid)
    (handled : handledMessage turn.connection.point = some sdp)
    (calls : connection.point = .idle ∨ ∃ request, connection.point = .register request)
    (begins : (∃ first request stage, turn.connection.point = .joining first request stage) ∨
      sdp.joinRequest = none) :
    (server.follow config event (server.world.commit id turn)).Consistent := by
  have called : server.callAfter id connection turn.connection =
      some (HookCall.onMessage pid sdp) := by
    rw [callAfter, HookCall.calledBy]
    rcases calls with point | ⟨request, point⟩ <;> simp [point, bound, handled]
  have settled : destructions connection.point (server.calls.lookup id) = [] :=
    idle.destructions_eq early
  apply consistent.calmly own present connections rooms <;> rw [called]
  · unfold HookCall.onMessage
    split
    · rename_i request joins
      rcases begins with ⟨first, begun, stage, point⟩ | none
      · rw [point] at handled
        cases handled
        cases joins
        exact ⟨first, stage, point⟩
      · rw [none] at joins
        cases joins
    · exact .inl handled
  · rw [creation_eq_none before]
    unfold HookCall.onMessage
    split <;> rfl
  · rw [settled]
    unfold HookCall.onMessage
    cases point : turn.connection.point with
    | leaving stage =>
      rw [point] at handled
      cases handled
    | _ => split <;> rfl

end Arrive

/-- A connection appears. -/
theorem connect (consistent : server.Consistent) :
    ({ server with
        world := { server.world with
          connections := server.world.connections.insert server.world.nextConnection
            { participantId := none, e2eeDeadline := false, point := .idle }
          nextConnection := server.world.nextConnection + 1 } } : SeaMeetServer).Consistent := by
  have unused := consistent.fresh server.world.nextConnection (Nat.le_refl _)
  have silent := consistent.known server.world.nextConnection unused
  constructor
  · intro tested beyond
    have beyond : server.world.nextConnection + 1 ≤ tested := beyond
    rw [Table.lookup_insert_eq, if_neg (Nat.ne_of_gt beyond)]
    exact consistent.fresh tested (Nat.le_of_succ_le beyond)
  · intro tested absent
    rw [Table.lookup_insert_eq] at absent
    split at absent
    · cases absent
    · exact consistent.known tested absent
  · exact consistent.tidy
  · intro tested connection found
    rw [Table.lookup_insert_eq] at found
    split at found
    · rename_i new
      cases found
      rw [new, silent]
      exact ⟨rfl, rfl⟩
    · exact consistent.fits tested connection found
  · refine consistent.mirrored.keep (fun _ => rfl) ?_ ?_ fun _ => rfl
    · intro tested
      simp only [ledger, Table.lookup_insert_eq]
      by_cases new : tested = server.world.nextConnection
      · subst new
        simp [unused, silent, creation]
      · rw [if_neg new]
    · intro tested
      simp only [ledger, Table.lookup_insert_eq]
      by_cases new : tested = server.world.nextConnection
      · subst new
        simp [unused, silent, destructions]
      · rw [if_neg new]

/-- A section of a connection's task. -/
theorem advance (consistent : server.Consistent)
    (present : server.world.connections.lookup id = some connection)
    (free : ∀ call, server.calls.lookup id = some call → call.holds connection.point = false)
    (orderly : server.OrderlyAt connection.point connection.participantId)
    (taken : connection.advance config server.world id answer = some turn) :
    (server.follow config (.advance id answer) (server.world.commit id turn)).Consistent := by
  have fits := consistent.fits id connection present
  unfold Seameet.Connection.advance at taken
  split at taken <;> cases taken
  · rename_i request point unbound
    have idle : NoCall (server.calls.lookup id) :=
      .of_fits fits free (by simp [point, handledMessage]) (by rw [point]; rfl) (by simp [point])
    obtain ⟨next, moved, onward⟩ : ∃ next,
        (connection.precheckSection config server.world id request).connection =
            connection.goto next ∧ (next = .idle ∨ next = .register request) := by
      simp only [Seameet.Connection.precheckSection]
      split
      · exact ⟨_, rfl, .inl rfl⟩
      · exact ⟨_, rfl, .inr rfl⟩
    have signaling : (connection.precheckSection config server.world id request).signaling =
        server.world.signaling := by
      simp only [Seameet.Connection.precheckSection]
      split <;> rfl
    apply consistent.rest rfl present idle (by rw [point]; rfl) (by simp [point])
      (by rw [signaling]) (fun roomId => by rw [signaling])
    · rw [moved]
      rcases onward with rfl | rfl <;> rfl
    · rw [moved]
      rcases onward with rfl | rfl <;> rfl
    · rw [moved]
      rcases onward with rfl | rfl <;> exact fun _ _ impossible => by cases impossible
    · rw [HookCall.calledBy, point]
  · rename_i request point unbound
    have idle : NoCall (server.calls.lookup id) :=
      .of_fits fits free (by simp [point, handledMessage]) (by rw [point]; rfl) (by simp [point])
    apply consistent.start rfl present idle (by rw [point]; rfl) (by simp [point]) rfl
      (fun _ => rfl) rfl rfl (.inr ⟨request, point⟩)
    exact .inl ⟨true, request, config.joinStart, rfl⟩
  · rename_i first request stage pid point bound
    by_cases last : stage = .dispatch
    · subst last
      rw [point] at orderly
      exact consistent.join_dispatch present point free orderly
    · exact consistent.join_on last present point free
  · rename_i handled stage pid point bound
    apply consistent.handle present point free
    rintro rfl
    rw [point] at orderly
    exact orderly
  · rename_i stage pid point bound
    exact consistent.clean present point bound free orderly

/-- A text is read at the top of a loop. -/
theorem hear (consistent : server.Consistent) {raw : String} {parsed : Option SdpMessage}
    {auth : Except String Unit} {rateOk : Bool}
    (present : server.world.connections.lookup id = some connection)
    (free : ∀ call, server.calls.lookup id = some call → call.holds connection.point = false)
    (top : connection.point = .idle) :
    (server.follow config (.receive id raw parsed auth rateOk) (server.world.commit id
      (connection.receive config server.world id raw parsed auth rateOk))).Consistent := by
  have idle : NoCall (server.calls.lookup id) :=
    .of_fits (consistent.fits id connection present) free (by simp [top, handledMessage])
      (by rw [top]; rfl) (by simp [top])
  obtain ⟨_, _, signaling⟩ :=
    @Seameet.Connection.receive_still config server.world id connection raw parsed auth rateOk
  have waits : ∀ {next : Point},
      (connection.receive config server.world id raw parsed auth rateOk).connection.point = next →
      handledMessage next = none → pastEngine next = false →
      (∀ pending affected, next ≠ .leaving (.announce pending affected)) →
      (server.follow config (.receive id raw parsed auth rateOk) (server.world.commit id
        (connection.receive config server.world id raw parsed auth rateOk))).Consistent := by
    intro next moved unhandled engine apart
    apply consistent.rest rfl present idle (by rw [top]; rfl) (by simp [top]) (by rw [signaling])
      (fun roomId => by rw [signaling])
    · rw [moved, unhandled]
    · rw [moved, engine]
    · rw [moved]
      exact apart
    · rw [HookCall.calledBy, top, moved, unhandled]
      simp
  rcases @Seameet.Connection.receive_point config server.world id connection top raw parsed auth rateOk with
    same | ⟨_, ended | ⟨request, on⟩⟩ | ⟨message, pid, read, bound, started⟩
  · exact waits same rfl rfl fun _ _ impossible => by cases impossible
  · exact waits ended rfl rfl fun _ _ impossible => by cases impossible
  · exact waits on rfl rfl fun _ _ impossible => by cases impossible
  · have kept : (connection.receive config server.world id raw parsed auth
        rateOk).connection.participantId = some pid :=
      (@Seameet.Connection.receive_keeps config server.world id connection raw parsed auth
        rateOk).1.trans bound
    cases join : message.joinRequest with
    | some request =>
      rw [config.start_join message raw join] at started
      apply consistent.start rfl present idle (by rw [top]; rfl) (by simp [top])
        (by rw [signaling]) (fun roomId => by rw [signaling]) kept (by rw [started]; rfl) (.inl top)
      exact .inl ⟨false, request, config.joinStart, started⟩
    | none =>
      rw [config.start_handling message raw join] at started
      apply consistent.start rfl present idle (by rw [top]; rfl) (by simp [top])
        (by rw [signaling]) (fun roomId => by rw [signaling]) kept (by rw [started]; rfl) (.inl top)
      exact .inr join

/-- A loop ends. -/
theorem finish (consistent : server.Consistent) {event : Event} {sent : List Sent}
    (own : eventConnection event = some id)
    (present : server.world.connections.lookup id = some connection)
    (free : ∀ call, server.calls.lookup id = some call → call.holds connection.point = false)
    (top : connection.point = .idle) :
    (server.follow config event (server.world.commit id
      { server.world.turn connection.finish with sent })).Consistent := by
  have idle : NoCall (server.calls.lookup id) :=
    .of_fits (consistent.fits id connection present) free (by simp [top, handledMessage])
      (by rw [top]; rfl) (by simp [top])
  obtain ⟨next, moved, onward⟩ : ∃ next, connection.finish = connection.goto next ∧
      (next = .leaving .checkStale ∨ next = .ended) := by
    unfold Seameet.Connection.finish
    split
    · exact ⟨_, rfl, .inl rfl⟩
    · exact ⟨_, rfl, .inr rfl⟩
  rw [moved]
  apply consistent.rest own present idle (by rw [top]; rfl) (by simp [top]) rfl (fun _ => rfl)
  · rcases onward with rfl | rfl <;> rfl
  · rcases onward with rfl | rfl <;> rfl
  · rcases onward with rfl | rfl <;> exact fun _ _ impossible => by cases impossible
  · rw [HookCall.calledBy, top]
    rcases onward with rfl | rfl <;> simp [World.turn, Seameet.Connection.goto, handledMessage]

/-- A step of the engine. -/
theorem engine (consistent : server.Consistent) {event : Event}
    (orderly : server.Orderly (.engine event))
    (stepped : server.step config (.engine event) = some after) : after.Consistent := by
  obtain ⟨let_on, world, moved, rfl⟩ : server.lets event = true ∧ ∃ world,
      server.world.step config event = some world ∧ server.follow config event world = after := by
    simpa [step, Option.map_eq_some_iff] using stepped
  have split : ∀ {id : WsSink} {next : Seameet.Connection → Option Turn},
      server.world.turned id next = some world → ∃ connection turn,
        server.world.connections.lookup id = some connection ∧ next connection = some turn ∧
          server.world.commit id turn = world := by
    intro id next taken
    simpa only [World.turned, Option.bind_eq_some_iff, Option.map_eq_some_iff, exists_and_left]
      using taken
  have unmoved : ∀ later : World, later.connections = server.world.connections →
      later.signaling = server.world.signaling →
      later.nextConnection = server.world.nextConnection →
      ({ server with world := later } : SeaMeetServer).Consistent := by
    rintro ⟨⟩ rfl rfl rfl
    exact ⟨consistent.fresh, consistent.known, consistent.tidy, consistent.fits,
      consistent.mirrored.keep (fun _ => rfl) (fun _ => rfl) (fun _ => rfl) fun _ => rfl⟩
  cases event with
  | connect =>
    cases moved
    exact consistent.connect
  | receive id raw parsed auth rateOk =>
    obtain ⟨connection, turn, present, taken, rfl⟩ := split moved
    obtain ⟨top, rfl⟩ := World.whenIdle_eq_some taken
    exact consistent.hear present (free_of_lets rfl present let_on) top
  | advance id answer =>
    obtain ⟨connection, turn, present, taken, rfl⟩ := split moved
    exact consistent.advance present (free_of_lets rfl present let_on)
      (orderly connection present) taken
  | hangUp id =>
    obtain ⟨connection, turn, present, taken, rfl⟩ := split moved
    obtain ⟨top, rfl⟩ := World.whenIdle_eq_some taken
    exact consistent.finish rfl present (free_of_lets rfl present let_on) top
  | deadline id =>
    obtain ⟨connection, turn, present, taken, rfl⟩ := split moved
    split at taken
    · obtain ⟨top, rfl⟩ := World.whenIdle_eq_some taken
      exact consistent.finish rfl present (free_of_lets rfl present let_on) top
    · cases taken
  | writerEnds id =>
    obtain ⟨_, _, rfl⟩ := Option.map_eq_some_iff.mp moved
    exact unmoved _ rfl rfl rfl
  | mediaEnds task =>
    simp only [World.step, Option.ite_none_right_eq_some, Option.some.injEq] at moved
    exact moved.2 ▸ unmoved _ rfl rfl rfl
  | routed source task =>
    simp only [World.step, Option.ite_none_right_eq_some, Option.some.injEq] at moved
    exact moved.2 ▸ unmoved _ rfl rfl rfl

end Engine

/-- Every call is of a connection there is, and fits it. -/
theorem connection_of_call (consistent : server.Consistent) {call : HookCall}
    (found : server.calls.lookup id = some call) :
    ∃ connection, server.world.connections.lookup id = some connection ∧
      CallFits connection.point (some call) := by
  cases present : server.world.connections.lookup id with
  | none =>
    rw [consistent.known id present] at found
    cases found
  | some connection => exact ⟨connection, rfl, found ▸ consistent.fits id connection present⟩

/-- The wrapper reads whether a room exists. -/
theorem snap (consistent : server.Consistent) {pid : ParticipantId} {request : JoinRequest}
    (found : server.calls.lookup id = some (.snapshot pid request)) :
    (server.proceed id (.innerMessage pid request.message
      (server.world.signaling.hasRoom request.roomId))).Consistent := by
  obtain ⟨connection, present, first, stage, point⟩ := consistent.connection_of_call found
  refine consistent.quietly present ?_ ?_ ?_ rfl rfl fun _ => rfl
  · rw [point]
    exact .inl rfl
  · rw [found]
    rfl
  · rw [found, point]
    rfl

/-- The inner hook of a message returns. -/
theorem return_message (consistent : server.Consistent) {pid : ParticipantId} {sdp : SdpMessage}
    {preRoomExists : Bool} (present : server.world.connections.lookup id = some connection)
    (found : server.calls.lookup id = some (.innerMessage pid sdp preRoomExists))
    (returned : hookReturned connection.point = true) :
    (server.proceed id (.sending (HookCall.createdRoom sdp preRoomExists)
      (HookCall.messageEvents pid sdp preRoomExists))).Consistent := by
  have fits := consistent.fits id connection present
  rw [found] at fits
  have sending := fits_returned fits returned
  have handles : ∀ pending affected, connection.point ≠ .leaving (.announce pending affected) := by
    intro pending affected point
    rw [point] at returned
    cases returned
  obtain ⟨rest, events, _, destroyed⟩ := messageEvents_eq pid sdp preRoomExists
  refine consistent.quietly present ?_ ?_ ?_ rfl rfl fun _ => rfl
  · exact sending
  · rw [found]
    cases created : HookCall.createdRoom sdp preRoomExists with
    | none => rfl
    | some roomId =>
      have told : .roomCreated roomId ∈ HookCall.messageEvents pid sdp preRoomExists := by
        simp [events, created]
      simp [creation, told]
  · rw [found, destructions_message handles, destructions_sending handles]
    apply destroyed_eq_nil
    intro roomId told
    rw [events] at told
    rcases List.mem_append.mp told with announced | other
    · simp at announced
    · exact destroyed roomId other

/-- The inner hook of a disconnect returns. -/
theorem return_disconnect (consistent : server.Consistent) {pid : ParticipantId}
    {affected : Affected} (present : server.world.connections.lookup id = some connection)
    (found : server.calls.lookup id = some (.innerDisconnect pid affected))
    (ended : connection.point = .ended) :
    (server.proceed id (.sending none (HookCall.disconnectEvents pid affected))).Consistent := by
  refine consistent.quietly present ?_ ?_ ?_ rfl rfl fun _ => rfl
  · rw [ended]
    constructor
    · rfl
    · exact fun handled => by cases handled
    · exact fun _ _ impossible => by cases impossible
    · intro roomId told
      simp [HookCall.disconnectEvents] at told
    · exact fun _ _ => rfl
  · rw [found]
    rfl
  · rw [found, ended]
    exact disconnectEvents_destroyed pid affected

/-- The next event of a call is sent. -/
theorem send (consistent : server.Consistent) {created : Option RoomId} {event : ServerEvent}
    {pending : List ServerEvent}
    (found : server.calls.lookup id = some (.sending created (event :: pending)))
    (orderly : server.OrderlySend (.sending created (event :: pending)))
    (world : after.world = server.world)
    (calls : after.calls = server.calls.insert id (.sending created pending))
    (events : after.events = server.events ++ [event]) : after.Consistent := by
  obtain ⟨connection, present, fits⟩ := consistent.connection_of_call found
  have later : CallFits connection.point (some (.sending created pending)) :=
    SendingFits.tail fits
  have record : ∀ roomId, after.roomLife roomId =
      server.roomLife roomId ++ (lifeEvent roomId event).toList := by
    intro roomId
    rw [roomLife, events, List.filterMap_append, roomLife]
    cases told : lifeEvent roomId event <;> simp [told]
  have only := proceed_only world calls
  have there : after.world.connections.lookup id = some connection := by rw [world, present]
  have now : after.calls.lookup id = some (.sending created pending) := by
    rw [calls, AList.lookup_insert]
  have rooms : ∀ roomId, after.ledger.present roomId = server.ledger.present roomId :=
    fun roomId => congrArg (fun world => world.signaling.hasRoom roomId) world
  cases event with
  | roomCreated roomId =>
    obtain ⟨dispatches, announced, rest, same, alone⟩ := fits.creates roomId List.mem_cons_self
    obtain ⟨_, rfl⟩ := List.cons.inj same
    obtain ⟨absent, single, settled⟩ := orderly
    have handles : ∀ pending affected,
        connection.point ≠ .leaving (.announce pending affected) := by
      intro pending affected point
      rw [point] at dispatches
      cases dispatches
    refine consistent.proceed present world calls later (consistent.mirrored.announce only ?_ ?_ ?_
      rooms ?_ ?_ absent single settled)
    · rw [opening_of present, found]
      simp [creation, announced]
    · rw [opening_of there, now]
      simp [creation, announced, dispatches, alone roomId]
    · rw [closing_of there, now, closing_of present, found, destructions_sending handles,
        destructions_sending handles]
      rfl
    · exact (record roomId).trans (by simp [lifeEvent, ledger])
    · intro tested apart
      exact (record tested).trans (by simp [lifeEvent, Ne.symm apart, ledger])
  | roomDestroyed roomId =>
    have ended := fits.destroys roomId List.mem_cons_self
    have handles : ∀ pending affected,
        connection.point ≠ .leaving (.announce pending affected) := by
      simp [ended]
    have still : dispatchesJoin connection.point = false := by rw [ended]; rfl
    refine consistent.proceed present world calls later (consistent.mirrored.report only ?_ ?_ rooms
      ?_ ?_ orderly)
    · rw [opening_of there, opening_of present, creation_eq_none still, creation_eq_none still]
    · rw [closing_of there, now, closing_of present, found, destructions_sending handles,
        destructions_sending handles]
      rfl
    · exact (record roomId).trans (by simp [lifeEvent, ledger])
    · intro tested apart
      exact (record tested).trans (by simp [lifeEvent, Ne.symm apart, ledger])
  | _ =>
    refine consistent.quietly present later ?_ ?_ world calls fun roomId => ?_
    · rw [found]
      cases created <;> simp [creation]
    · rw [found]
      exact destructions_congr (List.filterMap_cons_none rfl).symm
    · exact (record roomId).trans (by simp [lifeEvent])

/-- Every orderly step keeps the ledger. -/
theorem step (consistent : server.Consistent) {next : ServerStep}
    (orderly : server.Orderly next) (stepped : server.step config next = some after) :
    after.Consistent := by
  cases next with
  | engine event => exact consistent.engine orderly stepped
  | snapshot id =>
    simp only [SeaMeetServer.step] at stepped
    split at stepped
    · rename_i pid request found
      cases stepped
      exact consistent.snap found
    · cases stepped
  | returns id =>
    simp only [SeaMeetServer.step, Option.bind_eq_some_iff] at stepped
    obtain ⟨connection, present, returns⟩ := stepped
    split at returns
    · rename_i pid sdp preRoomExists found
      split at returns
      · rename_i returned
        cases returns
        exact consistent.return_message present found returned
      · cases returns
    · rename_i pid affected found ended
      cases returns
      exact consistent.return_disconnect present found ended
    · cases returns
  | sends id =>
    simp only [SeaMeetServer.step] at stepped
    split at stepped
    · rename_i created event pending found
      cases stepped
      exact consistent.send found (orderly _ found) rfl rfl rfl
    · cases stepped

end Consistent

/-- A server nobody has connected to has nothing in hand. -/
theorem new_consistent (e2eeRequired : Bool) : (new e2eeRequired).Consistent := by
  constructor
  · exact fun _ _ => rfl
  · exact fun _ _ => rfl
  · intro id sink names read
    simp [new, World.new, SignalingState.new] at read
  · intro id connection present
    simp [new, World.new] at present
  · exact .empty (fun _ => rfl) (fun _ => rfl) (fun _ => rfl) fun _ => rfl

/-- In every run of orderly steps the creations and destructions of a room alternate,
starting with a creation, and once no handler is mid-way the last of them is a creation
exactly when the room exists.

The ledger of creations and destructions has the audit trail on one side and the handlers
under way on the other. With no handler mid-way the trail alone answers for the room. -/
theorem room_events_mirror_rooms (config : Config) (e2eeRequired : Bool) {server : SeaMeetServer}
    (reached : Reaches (step config) Orderly (new e2eeRequired) server) (roomId : RoomId) :
    Alternates (server.roomLife roomId) ∧
      (server.Quiet → (standsOpen (server.roomLife roomId) = true ↔
        server.world.signaling.hasRoom roomId = true)) := by
  have consistent := reached.invariant Consistent (new_consistent e2eeRequired)
    fun _ _ _ consistent orderly stepped => consistent.step orderly stepped
  refine ⟨consistent.mirrored.alternates roomId, ?_⟩
  rintro ⟨rests, returned⟩
  have idle : ∀ id, NoCall (server.calls.lookup id) := by
    intro id
    cases found : server.calls.lookup id with
    | none => exact .inl rfl
    | some call =>
      obtain ⟨created, rfl⟩ := returned id call found
      exact .inr ⟨created, rfl⟩
  apply consistent.mirrored.settled
  · intro id
    cases present : server.world.connections.lookup id with
    | none => simp [ledger, present]
    | some connection =>
      rw [opening_of present]
      rcases rests id connection present with point | point <;> rw [point] <;>
        exact creation_eq_none rfl _
  · intro id
    cases present : server.world.connections.lookup id with
    | none => simp [ledger, present]
    | some connection =>
      rw [closing_of present]
      rcases rests id connection present with point | point <;> rw [point] <;>
        exact (idle id).destructions_eq fun _ _ impossible => by cases impossible

section Decidable

variable (server : SeaMeetServer)

instance (roomId : RoomId) : Decidable (server.Announced roomId) :=
  decidable_of_iff (∃ id ∈ server.world.connections.keys, server.ledger.opening id = some roomId) (by
    constructor
    · rintro ⟨id, _, opens⟩
      exact ⟨id, opens⟩
    · rintro ⟨id, opens⟩
      obtain ⟨connection, present, _⟩ := Option.bind_eq_some_iff.mp opens
      exact ⟨id, (Table.mem_keys id _).mpr ⟨connection, present⟩, opens⟩)

instance (roomId : RoomId) : Decidable (server.Unreported roomId) :=
  decidable_of_iff (∃ id ∈ server.world.connections.keys, roomId ∈ server.ledger.closing id) (by
    constructor
    · rintro ⟨id, _, closes⟩
      exact ⟨id, closes⟩
    · rintro ⟨id, closes⟩
      cases present : server.world.connections.lookup id with
      | none => simp [ledger, present] at closes
      | some connection => exact ⟨id, (Table.mem_keys id _).mpr ⟨connection, present⟩, closes⟩)

instance (message : SdpMessage) : Decidable (server.OrderlyDispatch message) := by
  unfold OrderlyDispatch
  split <;> infer_instance

instance (point : Point) (pid : Option ParticipantId) : Decidable (server.OrderlyAt point pid) := by
  unfold OrderlyAt
  split
  · infer_instance
  · infer_instance
  · rename_i participant
    exact decidable_of_iff (∀ roomId ∈ ((server.world.signaling.connections.lookup
        participant).map Prod.snd).getD [], server.world.signaling.hasRoom roomId = true)
      (by simp only [SignalingState.listed_iff_mem])
  · infer_instance

instance (call : HookCall) : Decidable (server.OrderlySend call) := by
  unfold OrderlySend
  split <;> infer_instance

instance (next : ServerStep) : Decidable (server.Orderly next) := by
  unfold Orderly
  split <;> infer_instance

instance (point : Point) : Decidable (point = .idle ∨ point = .ended) :=
  match point with
  | .idle => isTrue (.inl rfl)
  | .ended => isTrue (.inr rfl)
  | .precheck _ | .register _ | .joining _ _ _ | .handling _ _ | .leaving _ =>
      isFalse (by simp)

instance : Decidable server.Quiet :=
  decidable_of_iff ((∀ id ∈ server.world.connections.keys,
      ∀ connection ∈ server.world.connections.lookup id,
        connection.point = .idle ∨ connection.point = .ended) ∧
    ∀ id ∈ server.calls.keys, ∀ call ∈ server.calls.lookup id,
      ∃ created ∈ [call.created], call = .sending created []) (by
    refine and_congr ⟨?_, ?_⟩ ⟨?_, ?_⟩
    · exact fun rests id connection present =>
        rests id ((Table.mem_keys id _).mpr ⟨connection, present⟩) connection present
    · exact fun rests id _ connection present => rests id connection present
    · intro returned id call found
      obtain ⟨created, _, same⟩ :=
        returned id ((Table.mem_keys id _).mpr ⟨call, found⟩) call found
      exact ⟨created, same⟩
    · intro returned id _ call found
      obtain ⟨created, rfl⟩ := returned id call found
      exact ⟨created, by simp [HookCall.created], rfl⟩)

end Decidable

section Sample

/-- Sections of one connection's task in a row. -/
def sections (id : WsSink) (count : Nat) : List ServerStep :=
  List.replicate count (.engine (.advance id none))

/-- The wrapper's `on_message` returns, and its events are sent. -/
def tells (id : WsSink) (count : Nat) : List ServerStep :=
  .returns id :: List.replicate count (.sends id)

/-- A participant connects and joins a room, which is there or not. -/
def arrives (id : WsSink) (participant : ParticipantId) (there : Bool) : List ServerStep :=
  [.engine .connect, .engine (.join id participant "a")] ++ sections id 2 ++ [.snapshot id] ++
    sections id 6 ++ tells id (if there then 2 else 3) ++ sections id 1

/-- A connection ends, and its room with it or not. -/
def departs (id : WsSink) (gone : Bool) : List ServerStep :=
  .engine (.hangUp id) :: sections id (if gone then 11 else 10) ++ tells id (if gone then 2 else 1)

/-- The server after these steps, as far as they are admitted. -/
def served (admitted : SeaMeetServer → ServerStep → Prop)
    [∀ server next, Decidable (admitted server next)] (steps : List ServerStep) : SeaMeetServer :=
  (walk (step .sfuDefault) admitted (new false) steps).getD (new false)

/-- Two participants come and go, and a third comes. -/
def visits : List ServerStep :=
  arrives 1 ⟨1⟩ false ++ arrives 2 ⟨2⟩ true ++ departs 1 false ++ departs 2 true ++
    arrives 3 ⟨3⟩ false

/-- A participant joins and leaves. -/
def visit : List ServerStep :=
  arrives 1 ⟨1⟩ false ++ [.engine (.receive 1 "" (some (.leave ⟨1⟩ "a")) (.ok ()) true)] ++
    tells 1 1 ++ sections 1 1

/-- It joins again. -/
def visitAgain : List ServerStep :=
  [.engine (.join 1 ⟨1⟩ "a"), .snapshot 1] ++ sections 1 6 ++ tells 1 3 ++ sections 1 1

/-- In a run of visits the first room's record is closed when the second begins. -/
theorem room_events_mirror_rooms_sample :
    (served Orderly visits).roomLife "a" = [true, false, true] ∧
      Alternates ((served Orderly visits).roomLife "a") ∧
      (standsOpen ((served Orderly visits).roomLife "a") = true ↔
        (served Orderly visits).world.signaling.hasRoom "a" = true) := by
  have reached : Reaches (step .sfuDefault) Orderly (new false) (served Orderly visits) :=
    walk_reaches_end _ Orderly (new false) visits (by decide +kernel)
  have mirrored := room_events_mirror_rooms .sfuDefault false reached "a"
  exact ⟨by decide +kernel, mirrored.1, mirrored.2 (by decide +kernel)⟩

/-- A room that a `Leave` empties is gone while the last that was told of it is its
creation, and when it is entered again it is created twice. -/
theorem leave_destroys_silently :
    Reaches (step .sfuDefault) always (new false) (served always visit) ∧
      (served always visit).Quiet ∧
      standsOpen ((served always visit).roomLife "a") = true ∧
      (served always visit).world.signaling.hasRoom "a" = false ∧
      Reaches (step .sfuDefault) always (new false) (served always (visit ++ visitAgain)) ∧
      ¬ Alternates ((served always (visit ++ visitAgain)).roomLife "a") := by
  refine ⟨walk_reaches_end _ always (new false) visit (by decide +kernel), by decide +kernel,
    by decide +kernel, by decide +kernel,
    walk_reaches_end _ always (new false) (visit ++ visitAgain) (by decide +kernel),
    by decide +kernel⟩

end Sample

end SeaMeetServer

end Seameet.Facade
