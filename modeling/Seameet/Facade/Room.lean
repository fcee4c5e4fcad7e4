import Seameet.Library.Runs
import Seameet.Library.Table
import Seameet.Signaling.Message

/-!
# The room of the facade

A `Room` keeps its participants in one locked map. `addParticipant` checks the
capacity under a read lock, binds its socket, announces the participant, spawns
the forwarding task and at last inserts the entry under a write lock; when the
forwarding task ends it announces the departure and removes the participant's
entry, again under a write lock. `removeParticipant` takes the entry out first
and stops the task afterwards. No lock is held between these parts, so each of
them is one step here and the calls and the tasks interleave freely.

Every call of `addParticipant` has a number, which stands for the channels it
creates: the command channel of its handle and its stop signal. The peer
connection may end at any time for reasons of its own. A stop signal is fired by
`close`, by a removal, and when the entry that holds its sender is dropped.

Media, codecs, socket addresses and the clock are not represented.
-/

namespace Seameet.Facade

open Library

/-- What the stream of room events carries. -/
inductive RoomEvent where
  | participantJoined (participant : ParticipantId)
  | participantLeft (participant : ParticipantId)
  | roomEmpty
  | roomEnded (participants : List ParticipantId)
deriving DecidableEq

/-- The part of the configuration the membership code reads. -/
structure RoomConfig where
  maxParticipants : Nat
deriving DecidableEq

/-- The handle a call returns. -/
structure RoomHandle where
  participantId : ParticipantId
  call : Nat
deriving DecidableEq

/-- A connected participant. The entry owns the stop sender of its handle's call. -/
structure ParticipantEntry where
  handle : RoomHandle
deriving DecidableEq

/-- How far a forwarding task has come: its loop runs, has returned, has sent the
left event, has removed the entry. -/
inductive TaskPhase where
  | forwarding
  | ended
  | told
  | cleaned
deriving DecidableEq

/-- How far a call of `addParticipant` has come. Once it has spawned its forwarding
task, the two go on independently. -/
inductive AddPhase where
  | refused
  | checked
  | failed
  | announced
  | spawned (returned : Bool) (task : TaskPhase)
deriving DecidableEq

namespace AddPhase

/-- How far the call's forwarding task has come, once spawned. -/
def task : AddPhase → Option TaskPhase
  | .spawned _ task => some task
  | _ => none

/-- The forwarding task comes this far. -/
def setTask (task : TaskPhase) : AddPhase → AddPhase
  | .spawned returned _ => .spawned returned task
  | phase => phase

/-- The call has inserted its entry and returned its handle. -/
def setReturned : AddPhase → AddPhase
  | .spawned _ task => .spawned true task
  | phase => phase

/-- The call has spawned its task and not inserted its entry yet. -/
def inserting : AddPhase → Bool
  | .spawned returned _ => !returned
  | _ => false

/-- The call has sent its joined event. -/
def joined : AddPhase → Bool
  | .announced => true
  | .spawned _ _ => true
  | _ => false

/-- The call's forwarding task has sent its left event. -/
def left (phase : AddPhase) : Bool := phase.task = some .told || phase.task = some .cleaned

/-- Moving a task on moves it where there is one. -/
@[simp] theorem task_setTask (phase : AddPhase) (task : TaskPhase) :
    (phase.setTask task).task = phase.task.map fun _ => task := by
  cases phase <;> rfl

/-- The return of a call moves no task. -/
@[simp] theorem task_setReturned (phase : AddPhase) : phase.setReturned.task = phase.task := by
  cases phase <;> rfl

/-- Moving a task on decides nothing about the joining. -/
@[simp] theorem joined_setTask (phase : AddPhase) (task : TaskPhase) :
    (phase.setTask task).joined = phase.joined := by
  cases phase <;> rfl

/-- The return of a call decides nothing about the joining. -/
@[simp] theorem joined_setReturned (phase : AddPhase) : phase.setReturned.joined = phase.joined := by
  cases phase <;> rfl

/-- The return of a call decides nothing about the leaving. -/
@[simp] theorem left_setReturned (phase : AddPhase) : phase.setReturned.left = phase.left := by
  simp [left]

/-- A task belongs to a call that has sent its joined event. -/
theorem joined_of_task (phase : AddPhase) (task : TaskPhase) (spawned : phase.task = some task) :
    phase.joined = true := by
  cases phase with
  | spawned returned task => rfl
  | _ => cases spawned

/-- Whoever said that it left had announced itself. -/
theorem joined_of_left (phase : AddPhase) (left : phase.left = true) : phase.joined = true := by
  simp only [AddPhase.left, Bool.or_eq_true, decide_eq_true_iff] at left
  obtain told | cleaned := left
  · exact phase.joined_of_task .told told
  · exact phase.joined_of_task .cleaned cleaned

end AddPhase

/-- One call of `addParticipant` with the connection it makes. -/
structure Connection where
  id : ParticipantId
  phase : AddPhase
  stop : Bool
deriving DecidableEq

/-- The connection's forwarding task comes this far. -/
def Connection.setTask (task : TaskPhase) (connection : Connection) : Connection :=
  { connection with phase := connection.phase.setTask task }

/-- The connection's call has returned. -/
def Connection.setReturned (connection : Connection) : Connection :=
  { connection with phase := connection.phase.setReturned }

/-- How far a call of `removeParticipant` that found an entry has come. -/
inductive RemovalPhase where
  | taken
  | stopped
  | told
  | returned
deriving DecidableEq

/-- A call of `removeParticipant` that found an entry. -/
structure Removal where
  id : ParticipantId
  entry : ParticipantEntry
  phase : RemovalPhase
deriving DecidableEq

/-- The call has sent its left event. -/
def Removal.left (removal : Removal) : Bool :=
  removal.phase = .told || removal.phase = .returned

/-- The room, its event stream, and every call made on it so far. `closing`
counts the calls of `close` that have not read the participants yet. -/
structure Room where
  config : RoomConfig
  participants : Table ParticipantId ParticipantEntry
  events : List RoomEvent
  connections : List Connection
  removals : List Removal
  closing : Nat

namespace Room

/-- A new empty room. -/
def new (config : RoomConfig) : Room :=
  { config, participants := ∅, events := [], connections := [], removals := [], closing := 0 }

/-- Whether a participant with this identifier is in the room. -/
def hasParticipant (room : Room) (id : ParticipantId) : Bool := (room.participants.lookup id).isSome

/-- The handle of a participant, none for the source's not-found error. -/
def getParticipant (room : Room) (id : ParticipantId) : Option RoomHandle :=
  (room.participants.lookup id).map ParticipantEntry.handle

/-- The number of connected participants. -/
def participantCount (room : Room) : Nat := room.participants.keys.length

/-- Send a room event. -/
def emit (room : Room) (event : RoomEvent) : Room := { room with events := room.events ++ [event] }

/-- Change the record of one call. -/
def update (room : Room) (call : Nat) (change : Connection → Connection) : Room :=
  { room with connections := room.connections.modify call change }

/-- Fire the stop signal of a call. -/
def fire (room : Room) (call : Nat) : Room := room.update call fun connection => { connection with stop := true }

/-- An entry goes out of scope, and its stop sender with it. -/
def dropEntry (room : Room) : Option ParticipantEntry → Room
  | some entry => room.fire entry.handle.call
  | none => room

/-- The connection of a call whose record passes a test. -/
def waiting (room : Room) (call : Nat) (test : Connection → Bool) : Option Connection :=
  room.connections[call]?.filter test

/-- The read-locked check at the start of a call: a full room refuses it. -/
def checkCapacity (room : Room) (id : ParticipantId) : Room :=
  let full := room.config.maxParticipants ≤ room.participantCount
  { room with connections := room.connections ++
      [{ id, phase := if full then .refused else .checked, stop := false }] }

/-- The write-locked insertion at the end of a call. A replaced entry is dropped. -/
def insertEntry (room : Room) (id : ParticipantId) (call : Nat) : Room :=
  { room with participants := room.participants.insert id ⟨⟨id, call⟩⟩ }.dropEntry
    (room.participants.lookup id)

/-- The write-locked end of a forwarding task: whatever entry the map holds
under the identifier goes, and an empty map is reported. -/
def removeEntry (room : Room) (id : ParticipantId) : Room :=
  let remaining := { room with participants := room.participants.erase id }.dropEntry
    (room.participants.lookup id)
  if remaining.participants.keys = [] then remaining.emit .roomEmpty else remaining

/-- Change the record of one removal. -/
def advanceRemoval (room : Room) (index : Nat) (phase : RemovalPhase) : Room :=
  { room with removals := room.removals.modify index fun removal => { removal with phase } }

/-- The removal at an index, if it has come this far. -/
def removing (room : Room) (index : Nat) (phase : RemovalPhase) : Option Removal :=
  room.removals[index]?.filter fun removal => removal.phase = phase

end Room

/-- One step of a call or of a task. -/
inductive RoomStep where
  | adds (id : ParticipantId)
  | bindFails (call : Nat)
  | announces (call : Nat)
  | spawns (call : Nat)
  | inserts (call : Nat)
  | ends (call : Nat) (stopped : Bool)
  | leaves (call : Nat)
  | cleans (call : Nat)
  | removes (id : ParticipantId)
  | removalStops (index : Nat)
  | removalLeaves (index : Nat)
  | removalReads (index : Nat)
  | closes
  | closeReads
deriving DecidableEq

/-- The call of `addParticipant` whose step this is, or whose task's. -/
def RoomStep.call? : RoomStep → Option Nat
  | .bindFails call | .announces call | .spawns call | .inserts call | .ends call _ | .leaves call
  | .cleans call => some call
  | _ => none

namespace Room

/-- Take one step, if the call or task has come to it. -/
def step (room : Room) : RoomStep → Option Room
  | .adds id => some (room.checkCapacity id)
  | .bindFails call =>
      (room.waiting call (·.phase = .checked)).map fun _ => room.update call ({ · with phase := .failed })
  | .announces call =>
      (room.waiting call (·.phase = .checked)).map fun connection =>
        (room.update call ({ · with phase := .announced })).emit (.participantJoined connection.id)
  | .spawns call =>
      (room.waiting call (·.phase = .announced)).map fun _ =>
        room.update call ({ · with phase := .spawned false .forwarding })
  | .inserts call =>
      (room.waiting call (·.phase.inserting)).map fun connection =>
        (room.update call Connection.setReturned).insertEntry connection.id call
  | .ends call stopped =>
      -- The loop returns on its stop signal, or when the peer is gone.
      (room.waiting call fun connection =>
        connection.phase.task = some .forwarding && (connection.stop || !stopped)).map fun _ =>
          room.update call (Connection.setTask .ended)
  | .leaves call =>
      (room.waiting call (·.phase.task = some .ended)).map fun connection =>
        (room.update call (Connection.setTask .told)).emit (.participantLeft connection.id)
  | .cleans call =>
      (room.waiting call (·.phase.task = some .told)).map fun connection =>
        (room.update call (Connection.setTask .cleaned)).removeEntry connection.id
  | .removes id =>
      match room.participants.lookup id with
      | some entry => some { room with
          participants := room.participants.erase id
          removals := room.removals ++ [{ id, entry, phase := .taken }] }
      | none => some room
  | .removalStops index =>
      (room.removing index .taken).map fun removal =>
        (room.advanceRemoval index .stopped).fire removal.entry.handle.call
  | .removalLeaves index =>
      (room.removing index .stopped).map fun removal =>
        (room.advanceRemoval index .told).emit (.participantLeft removal.id)
  | .removalReads index =>
      -- Emptiness is read under a lock of its own.
      (room.removing index .told).map fun _ =>
        let done := room.advanceRemoval index .returned
        if done.participants.keys = [] then done.emit .roomEmpty else done
  | .closes =>
      -- A connection subscribes to the global stop when it is announced.
      some { room with
        connections := room.connections.map fun connection =>
          { connection with stop := connection.stop || connection.phase.joined }
        closing := room.closing + 1 }
  | .closeReads =>
      if 0 < room.closing then
        some ({ room with closing := room.closing - 1 }.emit (.roomEnded room.participants.keys))
      else none

/-! ### What a part of a call touches -/

/-- Updating a connection keeps the table of participants. -/
@[simp] theorem update_participants (room : Room) (call : Nat) (change : Connection → Connection) :
    (room.update call change).participants = room.participants := rfl

/-- Updating a connection keeps the configuration. -/
@[simp] theorem update_config (room : Room) (call : Nat) (change : Connection → Connection) :
    (room.update call change).config = room.config := rfl

/-- An event keeps the table of participants. -/
@[simp] theorem emit_participants (room : Room) (event : RoomEvent) :
    (room.emit event).participants = room.participants := rfl

/-- An event keeps the configuration. -/
@[simp] theorem emit_config (room : Room) (event : RoomEvent) :
    (room.emit event).config = room.config := rfl

/-- Moving a removal on keeps the table of participants. -/
@[simp] theorem advanceRemoval_participants (room : Room) (index : Nat) (phase : RemovalPhase) :
    (room.advanceRemoval index phase).participants = room.participants := rfl

/-- Moving a removal on keeps the configuration. -/
@[simp] theorem advanceRemoval_config (room : Room) (index : Nat) (phase : RemovalPhase) :
    (room.advanceRemoval index phase).config = room.config := rfl

/-- Dropping an entry keeps the table of participants. -/
@[simp] theorem dropEntry_participants (room : Room) (entry : Option ParticipantEntry) :
    (room.dropEntry entry).participants = room.participants := by
  cases entry with
  | none => rfl
  | some entry => rfl

/-- Dropping an entry keeps the configuration. -/
@[simp] theorem dropEntry_config (room : Room) (entry : Option ParticipantEntry) :
    (room.dropEntry entry).config = room.config := by
  cases entry with
  | none => rfl
  | some entry => rfl

/-- Inserting an entry puts it into the table of participants. -/
@[simp] theorem insertEntry_participants (room : Room) (id : ParticipantId) (call : Nat) :
    (room.insertEntry id call).participants = room.participants.insert id ⟨⟨id, call⟩⟩ := by
  simp [insertEntry]

/-- Inserting an entry keeps the configuration. -/
@[simp] theorem insertEntry_config (room : Room) (id : ParticipantId) (call : Nat) :
    (room.insertEntry id call).config = room.config := by
  simp [insertEntry]

/-- Removing an entry takes it out of the table of participants. -/
@[simp] theorem removeEntry_participants (room : Room) (id : ParticipantId) :
    (room.removeEntry id).participants = room.participants.erase id := by
  unfold removeEntry
  simp only
  split
  · simp
  · simp

/-- Removing an entry keeps the configuration. -/
@[simp] theorem removeEntry_config (room : Room) (id : ParticipantId) :
    (room.removeEntry id).config = room.config := by
  unfold removeEntry
  simp only
  split
  · simp
  · simp

/-- A waiting connection is the recorded one, and passes the test. -/
theorem waiting_eq_some (room : Room) (call : Nat) (test : Connection → Bool)
    (connection : Connection) :
    room.waiting call test = some connection ↔
      room.connections[call]? = some connection ∧ test connection = true :=
  Option.filter_eq_some_iff

/-- A removal found at an index is the recorded one, and has come this far. -/
theorem removing_eq_some (room : Room) (index : Nat) (phase : RemovalPhase) (removal : Removal) :
    room.removing index phase = some removal ↔
      room.removals[index]? = some removal ∧ removal.phase = phase := by
  rw [removing, Option.filter_eq_some_iff, decide_eq_true_iff]

/-- What one step does to the map of participants: an insertion and the two
removals change it, and nothing else does. -/
inductive Remapped (room after : Room) : RoomStep → Prop
  | inserted (call : Nat) (connection : Connection)
      (found : room.connections[call]? = some connection) (inserting : connection.phase.inserting = true)
      (entered : after.participants = room.participants.insert connection.id ⟨⟨connection.id, call⟩⟩) :
      Remapped room after (.inserts call)
  | cleaned (call : Nat) (connection : Connection)
      (found : room.connections[call]? = some connection) (told : connection.phase.task = some .told)
      (gone : after.participants = room.participants.erase connection.id) :
      Remapped room after (.cleans call)
  | removed (id : ParticipantId) (entry : ParticipantEntry)
      (present : room.participants.lookup id = some entry)
      (gone : after.participants = room.participants.erase id) : Remapped room after (.removes id)
  | absent (id : ParticipantId) (absent : room.participants.lookup id = none)
      (same : after.participants = room.participants) : Remapped room after (.removes id)
  | kept (event : RoomStep) (same : after.participants = room.participants)
      (other : (∀ call, event ≠ .inserts call) ∧ (∀ call, event ≠ .cleans call) ∧
        ∀ id, event ≠ .removes id) : Remapped room after event

/-- Every step is of one of these kinds. -/
theorem step_remapped {room after : Room} {event : RoomStep} (stepped : room.step event = some after) :
    Remapped room after event := by
  cases event with
  | adds id =>
    cases Option.some.inj stepped
    exact .kept _ rfl (by simp)
  | bindFails call | spawns call | ends call stopped =>
    obtain ⟨connection, found, rfl⟩ := Option.map_eq_some_iff.mp stepped
    exact .kept _ rfl (by simp)
  | announces call | leaves call =>
    obtain ⟨connection, found, rfl⟩ := Option.map_eq_some_iff.mp stepped
    exact .kept _ rfl (by simp)
  | inserts call =>
    obtain ⟨connection, found, rfl⟩ := Option.map_eq_some_iff.mp stepped
    obtain ⟨found, inserting⟩ := (waiting_eq_some ..).mp found
    exact .inserted call connection found inserting (by simp)
  | cleans call =>
    obtain ⟨connection, found, rfl⟩ := Option.map_eq_some_iff.mp stepped
    obtain ⟨found, told⟩ := (waiting_eq_some ..).mp found
    exact .cleaned call connection found (by simpa using told) (by simp)
  | removes id =>
    cases present : room.participants.lookup id with
    | some entry =>
      simp only [step, present, Option.some.injEq] at stepped
      exact .removed id entry present (by rw [← stepped])
    | none =>
      simp only [step, present, Option.some.injEq] at stepped
      exact .absent id present (by rw [← stepped])
  | removalStops index | removalLeaves index =>
    obtain ⟨removal, found, rfl⟩ := Option.map_eq_some_iff.mp stepped
    exact .kept _ rfl (by simp)
  | removalReads index =>
    obtain ⟨removal, found, rfl⟩ := Option.map_eq_some_iff.mp stepped
    refine .kept _ ?_ (by simp)
    simp only
    split
    · simp
    · simp
  | closes =>
    cases Option.some.inj stepped
    exact .kept _ rfl (by simp)
  | closeReads =>
    simp only [step] at stepped
    split at stepped
    · cases Option.some.inj stepped
      exact .kept _ rfl (by simp)
    · cases stepped

/-- The configuration of a room never changes. -/
theorem step_config {room after : Room} {event : RoomStep} (stepped : room.step event = some after) :
    after.config = room.config := by
  cases event with
  | adds id | closes =>
    cases Option.some.inj stepped
    rfl
  | bindFails call | spawns call | ends call stopped | announces call | leaves call =>
    obtain ⟨connection, found, rfl⟩ := Option.map_eq_some_iff.mp stepped
    rfl
  | inserts call | cleans call =>
    obtain ⟨connection, found, rfl⟩ := Option.map_eq_some_iff.mp stepped
    simp
  | removes id =>
    simp only [step] at stepped
    split at stepped <;> cases Option.some.inj stepped <;> rfl
  | removalStops index | removalLeaves index =>
    obtain ⟨removal, found, rfl⟩ := Option.map_eq_some_iff.mp stepped
    rfl
  | removalReads index =>
    obtain ⟨removal, found, rfl⟩ := Option.map_eq_some_iff.mp stepped
    simp only
    split
    · simp
    · simp
  | closeReads =>
    simp only [step] at stepped
    split at stepped
    · cases Option.some.inj stepped
      rfl
    · cases stepped

end Room

end Seameet.Facade
