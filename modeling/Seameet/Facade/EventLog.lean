import Seameet.Facade.Room
import Seameet.Library.Alternation
import Seameet.Library.Records

/-!
# The event stream as a log of the room

A participant's departure is announced by its own forwarding task, and once more
by `removeParticipant`, whose stop signal is what ends that task. An empty map is
reported by whoever removes last, and again by a cleanup that finds nothing left
to remove. The stream is a faithful log of a run exactly when participants leave
by the end of their own connection alone, an identifier is announced only after
every earlier connection under it has said it left, and no cleanup meets an
empty map.
-/

namespace Seameet.Facade

open Library

/-- What an event says of a participant: it joined, or it left. -/
def presence (id : ParticipantId) : RoomEvent → Option Bool
  | .participantJoined participant => if participant = id then some true else none
  | .participantLeft participant => if participant = id then some false else none
  | _ => none

namespace Room

/-- The joined and left events of a participant, in order. -/
def record (room : Room) (id : ParticipantId) : List Bool := room.events.filterMap (presence id)

/-- How many connections of a participant have announced it. -/
def joins (room : Room) (id : ParticipantId) : Nat :=
  room.connections.countP fun connection => connection.id = id && connection.phase.joined

/-- How many connections of a participant, and how many removals, have said it left. -/
def departures (room : Room) (id : ParticipantId) : Nat :=
  (room.connections.countP fun connection => connection.id = id && connection.phase.left) +
    room.removals.countP fun removal => removal.id = id && removal.left

/-- How often the room has been reported empty. -/
def emptyReports (room : Room) : Nat := room.events.count .roomEmpty

/-- What a step says of a participant. -/
def said (room : Room) (event : RoomStep) (id : ParticipantId) : List Bool :=
  match event with
  | .announces call => if room.connections[call]?.map Connection.id = some id then [true] else []
  | .leaves call => if room.connections[call]?.map Connection.id = some id then [false] else []
  | .removalLeaves index => if room.removals[index]?.map Removal.id = some id then [false] else []
  | _ => []

/-- The record and the two counts of a participant before and after something is said. -/
structure Says (before after : Room) (id : ParticipantId) (said : List Bool) : Prop where
  record : after.record id = before.record id ++ said
  joins : after.joins id = before.joins id + said.count true
  departures : after.departures id = before.departures id + said.count false

/-- Two rooms with the same events, connections and removals say nothing between them. -/
theorem Says.of_same {before after : Room} (id : ParticipantId) (events : after.events = before.events)
    (connections : after.connections = before.connections)
    (removals : after.removals = before.removals) : Says before after id [] := by
  constructor
  · simp [Room.record, events]
  · simp [Room.joins, connections]
  · simp [Room.departures, connections, removals]

/-- Saying one thing after another. -/
theorem Says.trans {before between after : Room} {id : ParticipantId} {first second : List Bool}
    (one : Says before between id first) (two : Says between after id second) :
    Says before after id (first ++ second) := by
  constructor
  · rw [two.record, one.record, List.append_assoc]
  · rw [two.joins, one.joins, List.count_append, Nat.add_assoc]
  · rw [two.departures, one.departures, List.count_append, Nat.add_assoc]

/-- A change of one record that touches neither test says nothing. -/
theorem says_update (room : Room) (id : ParticipantId) (call : Nat) (change : Connection → Connection)
    (unseen : ∀ connection, room.connections[call]? = some connection →
      (change connection).id = connection.id ∧ (change connection).phase.joined = connection.phase.joined ∧
        (change connection).phase.left = connection.phase.left) :
    Says room (room.update call change) id [] := by
  cases found : room.connections[call]? with
  | none =>
    refine Says.of_same id rfl ?_ rfl
    exact List.modify_eq_self (by simpa using found)
  | some connection =>
    obtain ⟨sameId, joined, left⟩ := unseen connection found
    constructor
    · simp [Room.record, Room.update]
    · have counted := countP_modify (fun other => other.id = id && other.phase.joined) change found
      simp only [sameId, joined] at counted
      simp only [Room.joins, Room.update, List.count_nil]
      omega
    · have counted := countP_modify (fun other => other.id = id && other.phase.left) change found
      simp only [sameId, left] at counted
      simp only [Room.departures, Room.update, List.count_nil]
      omega

/-- A stop signal says nothing. -/
theorem says_fire (room : Room) (id : ParticipantId) (call : Nat) : Says room (room.fire call) id [] :=
  says_update room id call _ fun _ _ => ⟨rfl, rfl, rfl⟩

/-- Dropping an entry says nothing. -/
theorem says_dropEntry (room : Room) (id : ParticipantId) (entry : Option ParticipantEntry) :
    Says room (room.dropEntry entry) id [] := by
  cases entry with
  | none => exact Says.of_same id rfl rfl rfl
  | some entry => exact says_fire room id entry.handle.call

/-- An event that is not about the participant says nothing of it. -/
theorem says_emit (room : Room) (id : ParticipantId) (event : RoomEvent)
    (silent : presence id event = none) : Says room (room.emit event) id [] := by
  constructor
  · simp [Room.record, Room.emit, silent]
  · rfl
  · rfl

/-- A removal that has not said that its participant left, and does not say so now. -/
theorem says_advanceRemoval (room : Room) (id : ParticipantId) (index : Nat) (phase : RemovalPhase)
    (removal : Removal) (found : room.removals[index]? = some removal)
    (same : ({ removal with phase } : Removal).left = removal.left) :
    Says room (room.advanceRemoval index phase) id [] := by
  refine ⟨by simp [Room.record, Room.advanceRemoval], rfl, ?_⟩
  have counted := countP_modify (fun other : Removal => other.id = id && other.left)
    (fun removal => { removal with phase }) found
  simp only [same] at counted
  simp only [Room.departures, Room.advanceRemoval, List.count_nil]
  omega

/-- The insertion of an entry says nothing. -/
theorem says_insertEntry (room : Room) (id participant : ParticipantId) (call : Nat) :
    Says room (room.insertEntry participant call) id [] := by
  let entered : Room := { room with
    participants := room.participants.insert participant ⟨⟨participant, call⟩⟩ }
  have inserted : Says room entered id [] := Says.of_same id rfl rfl rfl
  exact inserted.trans (says_dropEntry entered id _)

/-- The end of a cleanup says nothing of any participant. -/
theorem says_removeEntry (room : Room) (id participant : ParticipantId) :
    Says room (room.removeEntry participant) id [] := by
  let erased : Room := { room with participants := room.participants.erase participant }
  have gone : Says room erased id [] := Says.of_same id rfl rfl rfl
  have dropped := gone.trans (says_dropEntry erased id (room.participants.lookup participant))
  unfold removeEntry
  simp only
  split
  · exact dropped.trans (says_emit _ id .roomEmpty rfl)
  · exact dropped

/-- A connection announces its participant: one joined event, one more join. -/
theorem says_announce (room : Room) (id : ParticipantId) (call : Nat) (connection : Connection)
    (found : room.connections[call]? = some connection) (checked : connection.phase = .checked) :
    Says room ((room.update call ({ · with phase := .announced })).emit
      (.participantJoined connection.id)) id (if connection.id = id then [true] else []) := by
  have joinedCount := countP_modify (fun other => other.id = id && other.phase.joined)
    ({ · with phase := .announced }) found
  have leftCount := countP_modify (fun other => other.id = id && other.phase.left)
    ({ · with phase := .announced }) found
  constructor
  · simp only [Room.record, Room.emit, Room.update, List.filterMap_append]
    by_cases mine : connection.id = id
    · simp [presence, mine]
    · simp [presence, mine]
  · simp only [Room.joins, Room.emit, Room.update]
    by_cases mine : connection.id = id
    · simpa [mine, AddPhase.joined, checked] using joinedCount
    · simpa [mine] using joinedCount
  · have silent : connection.phase.left = false := by
      rw [checked]
      rfl
    have announced : AddPhase.announced.left = false := rfl
    by_cases mine : connection.id = id
    · simpa [Room.departures, Room.emit, Room.update, mine, silent, announced] using leftCount
    · simpa [Room.departures, Room.emit, Room.update, mine] using leftCount

/-- A forwarding task says that its participant left: one left event, one more departure. -/
theorem says_leave (room : Room) (id : ParticipantId) (call : Nat) (connection : Connection)
    (found : room.connections[call]? = some connection) (ended : connection.phase.task = some .ended) :
    Says room ((room.update call (Connection.setTask .told)).emit (.participantLeft connection.id)) id
      (if connection.id = id then [false] else []) := by
  have joinedCount := countP_modify_same (fun other => other.id = id && other.phase.joined)
    (Connection.setTask .told) room.connections call fun other _ =>
      congrArg (fun joined => decide (other.id = id) && joined) (AddPhase.joined_setTask other.phase .told)
  have leftCount := countP_modify (fun other => other.id = id && other.phase.left)
    (Connection.setTask .told) found
  constructor
  · simp only [Room.record, Room.emit, Room.update, List.filterMap_append]
    by_cases mine : connection.id = id
    · simp [presence, mine]
    · simp [presence, mine]
  · by_cases mine : connection.id = id
    · simp [Room.joins, Room.emit, Room.update, mine, joinedCount]
    · simp [Room.joins, Room.emit, Room.update, mine, joinedCount]
  · simp only [Room.departures, Room.emit, Room.update]
    by_cases mine : connection.id = id
    · simp [mine, AddPhase.left, ended, Connection.setTask] at leftCount ⊢
      omega
    · simp [mine, Connection.setTask] at leftCount ⊢
      omega

/-- A removal says that its participant left: one left event, one more departure. -/
theorem says_removalLeave (room : Room) (id : ParticipantId) (index : Nat) (removal : Removal)
    (found : room.removals[index]? = some removal) (stopped : removal.phase = .stopped) :
    Says room ((room.advanceRemoval index .told).emit (.participantLeft removal.id)) id
      (if removal.id = id then [false] else []) := by
  have leftCount := countP_modify (fun other : Removal => other.id = id && other.left)
    (fun removal => { removal with phase := .told }) found
  constructor
  · simp only [Room.record, Room.emit, Room.advanceRemoval, List.filterMap_append]
    by_cases mine : removal.id = id
    · simp [presence, mine]
    · simp [presence, mine]
  · by_cases mine : removal.id = id
    · simp [Room.joins, Room.emit, Room.advanceRemoval, mine]
    · simp [Room.joins, Room.emit, Room.advanceRemoval, mine]
  · simp only [Room.departures, Room.emit, Room.advanceRemoval]
    by_cases mine : removal.id = id
    · simp [mine, Removal.left, stopped] at leftCount ⊢
      omega
    · simp [mine] at leftCount ⊢
      omega

/-- What a step says of a participant is recorded and counted. -/
theorem step_said {before after : Room} {event : RoomStep} (stepped : before.step event = some after)
    (id : ParticipantId) : Says before after id (before.said event id) := by
  cases event with
  | adds added =>
    cases Option.some.inj stepped
    constructor
    · simp [Room.record, said, checkCapacity]
    · by_cases full : before.config.maxParticipants ≤ before.participantCount
      · simp [Room.joins, said, checkCapacity, full, AddPhase.joined]
      · simp [Room.joins, said, checkCapacity, full, AddPhase.joined]
    · by_cases full : before.config.maxParticipants ≤ before.participantCount
      · simp [Room.departures, said, checkCapacity, full, AddPhase.left, AddPhase.task]
      · simp [Room.departures, said, checkCapacity, full, AddPhase.left, AddPhase.task]
  | bindFails call =>
    obtain ⟨connection, found, rfl⟩ := Option.map_eq_some_iff.mp stepped
    obtain ⟨found, checked⟩ := (waiting_eq_some ..).mp found
    refine says_update before id call _ fun other stands => ?_
    obtain rfl : connection = other := Option.some.inj (found.symm.trans stands)
    have phase : connection.phase = .checked := by simpa using checked
    exact ⟨rfl, by rw [phase]; rfl, by rw [phase]; rfl⟩
  | announces call =>
    obtain ⟨connection, found, rfl⟩ := Option.map_eq_some_iff.mp stepped
    obtain ⟨found, checked⟩ := (waiting_eq_some ..).mp found
    simpa [said, found] using says_announce before id call connection found (by simpa using checked)
  | spawns call =>
    obtain ⟨connection, found, rfl⟩ := Option.map_eq_some_iff.mp stepped
    obtain ⟨found, announced⟩ := (waiting_eq_some ..).mp found
    refine says_update before id call _ fun other stands => ?_
    obtain rfl : connection = other := Option.some.inj (found.symm.trans stands)
    have phase : connection.phase = .announced := by simpa using announced
    exact ⟨rfl, by rw [phase]; rfl, by rw [phase]; rfl⟩
  | inserts call =>
    obtain ⟨connection, found, rfl⟩ := Option.map_eq_some_iff.mp stepped
    obtain ⟨found, spawned⟩ := (waiting_eq_some ..).mp found
    refine (says_update before id call _ fun other stands => ?_).trans (says_insertEntry _ id _ call)
    obtain rfl : connection = other := Option.some.inj (found.symm.trans stands)
    exact ⟨rfl, AddPhase.joined_setReturned _, AddPhase.left_setReturned _⟩
  | ends call stopped =>
    obtain ⟨connection, found, rfl⟩ := Option.map_eq_some_iff.mp stepped
    obtain ⟨found, forwarding⟩ := (waiting_eq_some ..).mp found
    refine says_update before id call _ fun other stands => ?_
    obtain rfl : connection = other := Option.some.inj (found.symm.trans stands)
    have running : connection.phase.task = some .forwarding := by
      simp only [Bool.and_eq_true, decide_eq_true_iff] at forwarding
      exact forwarding.1
    exact ⟨rfl, AddPhase.joined_setTask _ _, by simp [Connection.setTask, AddPhase.left, running]⟩
  | leaves call =>
    obtain ⟨connection, found, rfl⟩ := Option.map_eq_some_iff.mp stepped
    obtain ⟨found, ended⟩ := (waiting_eq_some ..).mp found
    simpa [said, found] using says_leave before id call connection found (by simpa using ended)
  | cleans call =>
    obtain ⟨connection, found, rfl⟩ := Option.map_eq_some_iff.mp stepped
    obtain ⟨found, told⟩ := (waiting_eq_some ..).mp found
    refine (says_update before id call _ fun other stands => ?_).trans (says_removeEntry _ id _)
    obtain rfl : connection = other := Option.some.inj (found.symm.trans stands)
    have phase : connection.phase.task = some .told := by simpa using told
    exact ⟨rfl, AddPhase.joined_setTask _ _, by simp [Connection.setTask, AddPhase.left, phase]⟩
  | removes removed =>
    simp only [step] at stepped
    split at stepped
    · cases Option.some.inj stepped
      constructor
      · simp [Room.record, said]
      · simp [Room.joins, said]
      · simp [Room.departures, said, Removal.left]
    · cases Option.some.inj stepped
      exact Says.of_same id rfl rfl rfl
  | removalStops index =>
    obtain ⟨removal, found, rfl⟩ := Option.map_eq_some_iff.mp stepped
    obtain ⟨found, taken⟩ := (removing_eq_some ..).mp found
    refine (says_advanceRemoval before id index .stopped removal found ?_).trans (says_fire _ id _)
    simp [Removal.left, taken]
  | removalLeaves index =>
    obtain ⟨removal, found, rfl⟩ := Option.map_eq_some_iff.mp stepped
    obtain ⟨found, stopped⟩ := (removing_eq_some ..).mp found
    simpa [said, found] using says_removalLeave before id index removal found stopped
  | removalReads index =>
    obtain ⟨removal, found, rfl⟩ := Option.map_eq_some_iff.mp stepped
    obtain ⟨found, told⟩ := (removing_eq_some ..).mp found
    have done := says_advanceRemoval before id index .returned removal found (by
      simp [Removal.left, told])
    simp only
    split
    · exact done.trans (says_emit _ id .roomEmpty rfl)
    · exact done
  | closes =>
    cases Option.some.inj stepped
    constructor
    · simp [Room.record, said]
    · simp only [Room.joins, said, List.countP_map, List.count_nil]
      rfl
    · simp only [Room.departures, said, List.countP_map, List.count_nil]
      rfl
  | closeReads =>
    simp only [step] at stepped
    split at stepped
    · cases Option.some.inj stepped
      have counted : Says before { before with closing := before.closing - 1 } id [] :=
        Says.of_same id rfl rfl rfl
      exact counted.trans (says_emit _ id (.roomEnded before.participants.keys) rfl)
    · cases stepped

/-- The events of a participant are as many as the joins and the departures counted. -/
def Accounted (room : Room) : Prop :=
  ∀ id, (room.record id).count true = room.joins id ∧ (room.record id).count false = room.departures id

/-- Every step keeps the account. -/
theorem accounted_step {before after : Room} {event : RoomStep} (accounted : before.Accounted)
    (stepped : before.step event = some after) : after.Accounted := by
  intro id
  have recorded := step_said stepped id
  obtain ⟨joined, left⟩ := accounted id
  constructor
  · rw [recorded.record, recorded.joins, List.count_append, joined]
  · rw [recorded.record, recorded.departures, List.count_append, left]

/-- Updating a connection keeps the removals. -/
@[simp] theorem update_removals (room : Room) (call : Nat) (change : Connection → Connection) :
    (room.update call change).removals = room.removals := rfl

/-- An event keeps the removals. -/
@[simp] theorem emit_removals (room : Room) (event : RoomEvent) :
    (room.emit event).removals = room.removals := rfl

/-- Dropping an entry keeps the removals. -/
@[simp] theorem dropEntry_removals (room : Room) (entry : Option ParticipantEntry) :
    (room.dropEntry entry).removals = room.removals := by
  cases entry with
  | none => rfl
  | some entry => rfl

/-- Inserting an entry keeps the removals. -/
@[simp] theorem insertEntry_removals (room : Room) (id : ParticipantId) (call : Nat) :
    (room.insertEntry id call).removals = room.removals := by
  simp [insertEntry]

/-- Removing an entry keeps the removals. -/
@[simp] theorem removeEntry_removals (room : Room) (id : ParticipantId) :
    (room.removeEntry id).removals = room.removals := by
  unfold removeEntry
  simp only
  split
  · simp
  · simp

/-- Updating a connection reports no empty room. -/
@[simp] theorem emptyReports_update (room : Room) (call : Nat) (change : Connection → Connection) :
    (room.update call change).emptyReports = room.emptyReports := rfl

/-- Dropping an entry reports no empty room. -/
@[simp] theorem emptyReports_dropEntry (room : Room) (entry : Option ParticipantEntry) :
    (room.dropEntry entry).emptyReports = room.emptyReports := by
  cases entry with
  | none => rfl
  | some entry => rfl

/-- Inserting an entry reports no empty room. -/
@[simp] theorem emptyReports_insertEntry (room : Room) (id : ParticipantId) (call : Nat) :
    (room.insertEntry id call).emptyReports = room.emptyReports := by
  simp [insertEntry, emptyReports_dropEntry]
  rfl

/-- Sending an event is a report of emptiness only for that event. -/
@[simp] theorem emptyReports_emit (room : Room) (event : RoomEvent) :
    (room.emit event).emptyReports = room.emptyReports + if event = .roomEmpty then 1 else 0 := by
  simp [emptyReports, emit, List.count_singleton]

/-- A cleanup reports emptiness exactly when it leaves an empty map. -/
theorem emptyReports_removeEntry (room : Room) (id : ParticipantId) :
    (room.removeEntry id).emptyReports =
      room.emptyReports + if (room.participants.erase id).keys = [] then 1 else 0 := by
  have dropped : ({ room with participants := room.participants.erase id }.dropEntry
      (room.participants.lookup id)).emptyReports = room.emptyReports := by
    rw [emptyReports_dropEntry]
    rfl
  unfold removeEntry
  simp only [dropEntry_participants]
  split
  · rw [emptyReports_emit, dropped]
    simp
  · rw [dropped]
    simp

/-- No step forgets a removal. -/
theorem removals_length {before after : Room} {event : RoomStep}
    (stepped : before.step event = some after) :
    before.removals.length ≤ after.removals.length := by
  cases event with
  | adds id | closes =>
    cases Option.some.inj stepped
    exact Nat.le_refl _
  | bindFails call | spawns call | ends call stopped | announces call | leaves call =>
    obtain ⟨connection, found, rfl⟩ := Option.map_eq_some_iff.mp stepped
    exact Nat.le_refl _
  | inserts call | cleans call =>
    obtain ⟨connection, found, rfl⟩ := Option.map_eq_some_iff.mp stepped
    simp
  | removes id =>
    simp only [step] at stepped
    split at stepped
    · cases Option.some.inj stepped
      simp
    · cases Option.some.inj stepped
      exact Nat.le_refl _
  | removalStops index | removalLeaves index =>
    obtain ⟨removal, found, rfl⟩ := Option.map_eq_some_iff.mp stepped
    simp [advanceRemoval, fire, emit, update]
  | removalReads index =>
    obtain ⟨removal, found, rfl⟩ := Option.map_eq_some_iff.mp stepped
    simp only
    split
    · simp [advanceRemoval, emit]
    · simp [advanceRemoval]
  | closeReads =>
    simp only [step] at stepped
    split at stepped
    · cases Option.some.inj stepped
      exact Nat.le_refl _
    · cases stepped

/-- Nothing is mid-way: every call has been refused, has failed, or has returned and
its task has cleaned up, and every removal has returned. -/
def AtRest (room : Room) : Prop :=
  (∀ connection ∈ room.connections, connection.phase = .refused ∨ connection.phase = .failed ∨
    connection.phase = .spawned true .cleaned) ∧
  ∀ removal ∈ room.removals, removal.phase = .returned

end Room

/-- A room with the number of times its map has gone from non-empty to empty. -/
structure Logged where
  room : Room
  emptied : Nat

namespace Logged

/-- A new room. -/
def new (config : RoomConfig) : Logged := { room := .new config, emptied := 0 }

/-- The log when the room has come to its next state. -/
def moved (logged : Logged) (room : Room) : Logged :=
  { room, emptied := logged.emptied +
      if logged.room.participants.keys ≠ [] ∧ room.participants.keys = [] then 1 else 0 }

/-- A step of the room. -/
def step (logged : Logged) (event : RoomStep) : Option Logged :=
  (logged.room.step event).map logged.moved

/-- The stream so far is a faithful log: joins and departures of a participant
alternate, and the room has been reported empty once for each time it became so.
A removal that has not finished may still owe its report. -/
structure Faithful (logged : Logged) : Prop where
  alternates : ∀ id, Alternates (logged.room.record id)
  notTwice : logged.room.emptyReports ≤ logged.emptied
  reported : (∀ removal ∈ logged.room.removals, removal.phase = .returned) →
    logged.room.emptyReports = logged.emptied

/-- Participants leave only by the end of their own connection, are announced
only after their earlier connections have said they left, and are cleaned up
from a map that is not empty. -/
def Orderly (logged : Logged) : RoomStep → Prop
  | .announces call =>
      ∀ connection, logged.room.connections[call]? = some connection →
        ∀ other ∈ logged.room.connections, other.id = connection.id →
          other.phase.joined = true → other.phase.left = true
  | .cleans _ => logged.room.participants.keys ≠ []
  | .removes id => logged.room.participants.lookup id = none
  | _ => True

instance (logged : Logged) : DecidablePred logged.Orderly
  | .announces call =>
      match found : logged.room.connections[call]? with
      | some connection =>
          decidable_of_iff (∀ other ∈ logged.room.connections, other.id = connection.id →
            other.phase.joined = true → other.phase.left = true) (by simp [Orderly, found])
      | none => isTrue (by simp [Orderly, found])
  | .cleans _ => inferInstanceAs (Decidable (logged.room.participants.keys ≠ []))
  | .removes id => inferInstanceAs (Decidable (logged.room.participants.lookup id = none))
  | .adds _ | .bindFails _ | .spawns _ | .inserts _ | .ends _ _ | .leaves _ | .removalStops _
  | .removalLeaves _ | .removalReads _ | .closes | .closeReads => isTrue trivial

/-- Faithful, and no removal has ever found a participant. -/
def Undisturbed (logged : Logged) : Prop := logged.Faithful ∧ logged.room.removals = []

/-- Without removals an undisturbed log has one report for each emptying. -/
theorem Undisturbed.reports {logged : Logged} (undisturbed : logged.Undisturbed) :
    logged.room.emptyReports = logged.emptied :=
  undisturbed.1.reported (by simp [undisturbed.2])

/-- A log without removals whose records alternate and whose reports match is undisturbed. -/
theorem undisturbed_of {logged : Logged} (removals : logged.room.removals = [])
    (alternates : ∀ id, Alternates (logged.room.record id))
    (reports : logged.room.emptyReports = logged.emptied) : logged.Undisturbed :=
  ⟨⟨alternates, Nat.le_of_eq reports, fun _ => reports⟩, removals⟩

/-- Without removals, a participant's record stands open exactly when one of its
connections has announced it and not said that it left. -/
theorem standsOpen_iff {room : Room} (accounted : room.Accounted) (removals : room.removals = [])
    (id : ParticipantId) (alternates : Alternates (room.record id)) :
    standsOpen (room.record id) = false ↔
      ∀ connection ∈ room.connections, connection.id = id → connection.phase.joined = true →
        connection.phase.left = true := by
  obtain ⟨joined, left⟩ := accounted id
  have counted := alternates_count _ alternates
  rw [joined, left] at counted
  simp only [Room.joins, Room.departures, removals, List.countP_nil, Nat.add_zero] at counted
  constructor
  · intro closed connection member mine announced
    simp only [closed, Bool.toNat_false, Nat.add_zero] at counted
    have same := agree_of_countP_eq _ _ room.connections (fun other _ gone => by
      simp only [Bool.and_eq_true, decide_eq_true_iff] at gone ⊢
      exact ⟨gone.1, other.phase.joined_of_left gone.2⟩) counted connection member
    simp only [mine, announced, decide_true, Bool.and_self, Bool.true_and, forall_const] at same
    exact same
  · intro everyLeft
    have fewer : room.joins id ≤ room.connections.countP
        (fun connection => connection.id = id && connection.phase.left) :=
      List.countP_mono_left fun connection member announced => by
        simp only [Bool.and_eq_true, decide_eq_true_iff] at announced ⊢
        exact ⟨announced.1, everyLeft connection member announced.1 announced.2⟩
    simp only [Room.joins] at fewer
    cases stands : standsOpen (room.record id) with
    | false => rfl
    | true =>
      simp only [stands, Bool.toNat_true] at counted
      omega

/-- A step that says nothing, reports nothing, empties nothing and removes nobody
leaves the log undisturbed. -/
theorem Undisturbed.quiet {before : Logged} {room : Room} {event : RoomStep}
    (undisturbed : before.Undisturbed) (stepped : before.room.step event = some room)
    (silent : ∀ id, before.room.said event id = [])
    (reports : room.emptyReports = before.room.emptyReports)
    (emptied : room.participants = before.room.participants ∨ room.participants.keys ≠ [])
    (removals : room.removals = before.room.removals) : (before.moved room).Undisturbed := by
  refine undisturbed_of (removals.trans undisturbed.2) (fun id => ?_) ?_
  · have recorded := (Room.step_said stepped id).record
    rw [silent id, List.append_nil] at recorded
    change Alternates (room.record id)
    rw [recorded]
    exact undisturbed.1.alternates id
  · change room.emptyReports = _
    rw [reports, undisturbed.reports]
    obtain same | filled := emptied
    · simp [moved, same]
    · simp [moved, filled]

/-- A cleanup keeps the log undisturbed exactly when it finds a map that is not empty. -/
theorem cleans_iff {before : Logged} {room : Room} {call : Nat} (undisturbed : before.Undisturbed)
    (stepped : before.room.step (.cleans call) = some room) :
    before.room.participants.keys ≠ [] ↔ (before.moved room).Undisturbed := by
  obtain ⟨connection, found, rfl⟩ := Option.map_eq_some_iff.mp stepped
  have reported := Room.emptyReports_removeEntry
    (before.room.update call (Connection.setTask .cleaned)) connection.id
  simp only [Room.emptyReports_update, Room.update_participants, undisturbed.reports] at reported
  constructor
  · intro filled
    refine undisturbed_of (by simp [moved, undisturbed.2]) (fun id => ?_) ?_
    · have recorded := (Room.step_said stepped id).record
      rw [show before.room.said (.cleans call) id = [] from rfl, List.append_nil] at recorded
      simp only [moved, recorded]
      exact undisturbed.1.alternates id
    · simp only [moved, reported, Room.removeEntry_participants, Room.update_participants]
      simp [filled]
  · intro kept empty
    have again := kept.reports
    simp only [moved, reported, Room.removeEntry_participants, Room.update_participants,
      AList.keys_erase, empty] at again
    simp at again

/-- A step that says one thing of one participant keeps the log undisturbed exactly
when that participant's record goes on alternating. -/
theorem Undisturbed.saying {before : Logged} {room : Room} {event : RoomStep}
    (undisturbed : before.Undisturbed) (id : ParticipantId) (value : Bool)
    (stepped : before.room.step event = some room)
    (told : ∀ other, before.room.said event other = if id = other then [value] else [])
    (reports : room.emptyReports = before.room.emptyReports)
    (same : room.participants = before.room.participants)
    (removals : room.removals = before.room.removals) :
    standsOpen (before.room.record id) = !value ↔ (before.moved room).Undisturbed := by
  have recorded : ∀ other, room.record other =
      before.room.record other ++ if id = other then [value] else [] := by
    intro other
    rw [(Room.step_said stepped other).record, told]
  have alternated := alternates_append_one (before.room.record id) value
  constructor
  · intro stands
    refine undisturbed_of (removals.trans undisturbed.2) (fun other => ?_) ?_
    · simp only [moved, recorded]
      by_cases mine : id = other
      · subst mine
        rw [if_pos rfl]
        exact alternated.mpr ⟨undisturbed.1.alternates id, by rw [stands, Bool.not_not]⟩
      · rw [if_neg mine, List.append_nil]
        exact undisturbed.1.alternates other
    · simp [moved, reports, same, undisturbed.reports]
  · intro kept
    have later := kept.1.alternates id
    simp only [moved, recorded, if_true] at later
    rw [(alternated.mp later).2, Bool.not_not]

/-- From an undisturbed state, the orderly steps are those that keep it so. -/
theorem orderly_iff_undisturbed {before after : Logged} {event : RoomStep}
    (accounted : before.room.Accounted) (undisturbed : before.Undisturbed)
    (stepped : before.step event = some after) : before.Orderly event ↔ after.Undisturbed := by
  obtain ⟨room, taken, rfl⟩ := Option.map_eq_some_iff.mp stepped
  have noRemoval : ∀ index phase, before.room.removing index phase = none := by
    simp [Room.removing, undisturbed.2]
  cases event with
  | announces call =>
    obtain ⟨connection, found, rfl⟩ := Option.map_eq_some_iff.mp taken
    obtain ⟨found, checked⟩ := (Room.waiting_eq_some ..).mp found
    have saying := undisturbed.saying connection.id true taken
      (by simp [Room.said, found]) (by simp) rfl rfl
    rw [← saying, Bool.not_true, standsOpen_iff accounted undisturbed.2 _ (undisturbed.1.alternates _)]
    constructor
    · intro orderly
      exact orderly connection found
    · intro everyLeft other stands
      obtain rfl : connection = other := Option.some.inj (found.symm.trans stands)
      exact everyLeft
  | leaves call =>
    obtain ⟨connection, found, rfl⟩ := Option.map_eq_some_iff.mp taken
    obtain ⟨found, ended⟩ := (Room.waiting_eq_some ..).mp found
    have phase : connection.phase.task = some .ended := by simpa using ended
    have saying := undisturbed.saying connection.id false taken
      (by simp [Room.said, found]) (by simp) rfl rfl
    refine iff_of_true trivial (saying.mp ?_)
    -- The leaving connection has announced itself and not left, so the record stands open.
    by_contra closed
    have everyLeft := (standsOpen_iff accounted undisturbed.2 connection.id
      (undisturbed.1.alternates _)).mp (by simpa using closed) connection
      (List.mem_of_getElem? found) rfl (connection.phase.joined_of_task .ended phase)
    simp [AddPhase.left, phase] at everyLeft
  | cleans call => exact cleans_iff undisturbed taken
  | removes id =>
    simp only [Orderly]
    simp only [Room.step] at taken
    cases present : before.room.participants.lookup id with
    | some entry =>
      simp only [present, Option.some.injEq] at taken
      subst taken
      refine iff_of_false (by simp) fun kept => ?_
      simpa [moved] using kept.2
    | none =>
      simp only [present, Option.some.injEq] at taken
      subst taken
      have stepped : before.room.step (.removes id) = some before.room := by
        simp [Room.step, present]
      exact iff_of_true rfl (undisturbed.quiet stepped (fun _ => rfl) rfl (.inl rfl) rfl)
  | inserts call =>
    refine iff_of_true trivial (undisturbed.quiet taken (fun _ => rfl) ?_ (.inr ?_) ?_)
    all_goals
      obtain ⟨connection, found, rfl⟩ := Option.map_eq_some_iff.mp taken
      simp
  | adds id | closes =>
    refine iff_of_true trivial (undisturbed.quiet taken (fun _ => rfl) ?_ (.inl ?_) ?_)
    all_goals
      cases Option.some.inj taken
      rfl
  | bindFails call | spawns call | ends call stopped =>
    refine iff_of_true trivial (undisturbed.quiet taken (fun _ => rfl) ?_ (.inl ?_) ?_)
    all_goals
      obtain ⟨connection, found, rfl⟩ := Option.map_eq_some_iff.mp taken
      rfl
  | closeReads =>
    refine iff_of_true trivial (undisturbed.quiet taken (fun _ => rfl) ?_ (.inl ?_) ?_)
    all_goals
      simp only [Room.step] at taken
      split at taken
      · cases Option.some.inj taken
        simp [Room.emptyReports, Room.emit, List.count_append]
      · cases taken
  | removalStops index | removalLeaves index | removalReads index =>
    simp [Room.step, noRemoval] at taken

/-- The account holds in every state of a run. -/
theorem accounted_of_reaches {config : RoomConfig} {logged : Logged}
    (reached : Reaches step always (new config) logged) : logged.room.Accounted := by
  refine reached.invariant (fun logged => logged.room.Accounted) ?_ ?_
  · intro id
    exact ⟨rfl, rfl⟩
  · intro before event after accounted _ stepped
    obtain ⟨room, taken, rfl⟩ := Option.map_eq_some_iff.mp stepped
    exact Room.accounted_step accounted taken

/-- Removals are never forgotten. -/
theorem removals_step {before after : Logged} {event : RoomStep}
    (stepped : before.step event = some after) (none : after.room.removals = []) :
    before.room.removals = [] := by
  obtain ⟨room, taken, rfl⟩ := Option.map_eq_some_iff.mp stepped
  have kept := Room.removals_length taken
  simp only [moved] at none
  rw [none] at kept
  exact List.eq_nil_of_length_eq_zero (Nat.le_zero.mp kept)

/-- A faithful log at rest has seen no removal that found a participant: it would
have said once more that the participant left. -/
theorem removals_of_rest {logged : Logged} (accounted : logged.room.Accounted)
    (faithful : logged.Faithful) (rest : logged.room.AtRest) : logged.room.removals = [] := by
  refine List.eq_nil_iff_forall_not_mem.mpr fun removal member => ?_
  obtain ⟨joined, left⟩ := accounted removal.id
  have counted := alternates_count _ (faithful.alternates removal.id)
  rw [joined, left] at counted
  have everyLeft : logged.room.joins removal.id ≤ logged.room.connections.countP
      (fun connection => connection.id = removal.id && connection.phase.left) :=
    List.countP_mono_left fun connection present announced => by
      simp only [Bool.and_eq_true, decide_eq_true_iff] at announced ⊢
      refine ⟨announced.1, ?_⟩
      obtain refused | failed | cleaned := rest.1 connection present
      · simp [refused, AddPhase.joined] at announced
      · simp [failed, AddPhase.joined] at announced
      · simp [cleaned, AddPhase.left, AddPhase.task]
  have again : 0 < logged.room.removals.countP
      (fun other => other.id = removal.id && other.left) :=
    List.countP_pos_iff.mpr ⟨removal, member, by simp [Removal.left, rest.2 removal member]⟩
  simp only [Room.departures] at counted
  omega

/-- In a run of orderly steps the event stream is a faithful log of every state. And a
run that ends with nothing mid-way has a faithful log in all its states only if every
step of it is orderly.

The events of a participant are counted against its joins and departures. A step keeps the
log faithful and the removals undisturbed exactly if it is orderly; at rest a faithful log
leaves no removal that could have disturbed it. -/
theorem room_events_faithful (config : RoomConfig) :
    (∀ logged, Reaches step Orderly (new config) logged → logged.Faithful) ∧
      ∀ logged, logged.room.AtRest →
        ((Reaches step (fun before _ => before.Faithful) (new config) logged ∧ logged.Faithful) ↔
          Reaches step Orderly (new config) logged) := by
  have initial : (new config).Undisturbed :=
    undisturbed_of rfl (fun _ => trivial) rfl
  have within : ∀ logged, (Reaches step (fun before _ => before.Undisturbed) (new config) logged ∧
      logged.Undisturbed) ↔ Reaches step Orderly (new config) logged := fun logged =>
    Reaches.within_iff Undisturbed initial fun before event after reached undisturbed stepped =>
      orderly_iff_undisturbed (accounted_of_reaches reached) undisturbed stepped
  constructor
  · intro logged orderly
    exact ((within logged).mpr orderly).2.1
  · intro logged rest
    constructor
    · rintro ⟨reached, faithful⟩
      have free : Reaches step always (new config) logged := reached.admits fun _ _ _ _ _ _ => trivial
      have removals := removals_of_rest (accounted_of_reaches free) faithful rest
      refine (within logged).mp ⟨?_, faithful, removals⟩
      clear free faithful rest
      induction reached with
      | start => exact .start
      | next earlier admits stepped inductionHypothesis =>
        have none := removals_step stepped removals
        exact .next (inductionHypothesis none) ⟨admits, none⟩ stepped
    · intro orderly
      obtain ⟨reached, undisturbed⟩ := (within logged).mpr orderly
      exact ⟨reached.admits fun _ _ _ _ admits _ => admits.1, undisturbed.1⟩

/-- One participant is added and removed: the stream says twice that it left and reports
twice that the room became empty, which it did once. -/
theorem removal_tells_twice :
    ∃ logged, Reaches step always (new { maxParticipants := 2 }) logged ∧
      logged.room.events = [.participantJoined ⟨1⟩, .participantLeft ⟨1⟩, .roomEmpty,
        .participantLeft ⟨1⟩, .roomEmpty] ∧
      logged.emptied = 1 ∧ ¬ logged.Faithful := by
  let events : List RoomStep :=
    [.adds ⟨1⟩, .announces 0, .spawns 0, .inserts 0, .removes ⟨1⟩, .removalStops 0,
      .removalLeaves 0, .removalReads 0, .ends 0 true, .leaves 0, .cleans 0]
  let logged := (walk step always (new { maxParticipants := 2 }) events).getD (new { maxParticipants := 2 })
  have record : logged.room.record ⟨1⟩ = [true, false, false] := by decide +kernel
  refine ⟨logged, walk_reaches_end _ _ _ _ (by decide +kernel), by decide +kernel, by decide +kernel, ?_⟩
  intro faithful
  have alternates := faithful.alternates ⟨1⟩
  rw [record] at alternates
  revert alternates
  decide

/-- Two participants come and go by themselves, and one of them comes back: the run is
orderly and its log faithful. -/
theorem ends_are_told_faithfully :
    ∃ logged, Reaches step Orderly (new { maxParticipants := 2 }) logged ∧
      logged.room.events = [.participantJoined ⟨1⟩, .participantJoined ⟨2⟩, .participantLeft ⟨1⟩,
        .participantLeft ⟨2⟩, .roomEmpty, .participantJoined ⟨1⟩] ∧ logged.Faithful := by
  let events : List RoomStep :=
    [.adds ⟨1⟩, .announces 0, .spawns 0, .inserts 0, .adds ⟨2⟩, .announces 1, .spawns 1, .inserts 1,
      .ends 0 false, .leaves 0, .cleans 0, .ends 1 false, .leaves 1, .cleans 1,
      .adds ⟨1⟩, .announces 2]
  have reached := walk_reaches_end step Orderly (new { maxParticipants := 2 }) events
    (by decide +kernel)
  exact ⟨_, reached, by decide +kernel,
    (room_events_faithful { maxParticipants := 2 }).1 _ reached⟩

end Logged

end Seameet.Facade
