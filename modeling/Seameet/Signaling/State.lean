import Seameet.Library.Table
import Seameet.Signaling.Message

/-!
# Rooms and their members

The signaling state holds the rooms with their members, an index from each
participant to its sink and the names of its rooms, and the generation of each
participant's newest connection. A member carries the sink its messages go to,
which is the sending half of a channel; the channel is closed once its receiving
half is dropped, and that is read from outside the state.

Later results read the state through `member`, `listed` and `rooms.lookup`, so
every operation has one lemma for each of the three.
-/

namespace Seameet

open Library

/-- The sending half of a connection's outbound channel, named by the
connection. -/
abbrev WsSink := Nat

/-- The media state of a participant. -/
structure MemberMediaState where
  audioMuted : Bool
  videoMuted : Bool
  screenSharing : Bool
  e2ee : Bool
deriving DecidableEq

/-- A connected participant of a room. -/
structure Member where
  id : ParticipantId
  sink : WsSink
  displayName : Option String
  mediaState : MemberMediaState
deriving DecidableEq

/-- A new member, with nothing muted or shared. -/
def Member.withDisplayName (id : ParticipantId) (sink : WsSink) (displayName : Option String) :
    Member :=
  { id, sink, displayName,
    mediaState := { audioMuted := false, videoMuted := false, screenSharing := false,
                    e2ee := false } }

/-- A room with its members and the raw texts of its chat. -/
structure Room where
  members : Table ParticipantId Member
  chatHistory : List String

/-- A text placed on a sink. -/
abbrev Sent := WsSink × Frame

namespace Room

/-- A room without members. -/
def new : Room := { members := ∅, chatHistory := [] }

/-- Append to the chat history; beyond the maximum the oldest text goes. A
maximum of zero keeps everything. -/
def pushChat (room : Room) (raw : String) (maxEntries : Nat) : Room :=
  let kept :=
    if maxEntries ≤ room.chatHistory.length && 0 < maxEntries then room.chatHistory.tail
    else room.chatHistory
  { room with chatHistory := kept ++ [raw] }

/-- The number of members. -/
def memberCount (room : Room) : Nat := room.members.entries.length

/-- Whether there are no members. -/
def isEmpty (room : Room) : Bool := room.members.entries.isEmpty

/-- Add a member, and say whether it is the first. -/
def join (room : Room) (member : Member) : Bool × Room :=
  (room.isEmpty, { room with members := room.members.insert member.id member })

/-- Remove a member, and say whether the room is now empty. -/
def leave (room : Room) (id : ParticipantId) : Bool × Room :=
  let left : Room := { room with members := room.members.erase id }
  (left.isEmpty, left)

/-- A text for every member but one. -/
def broadcast (room : Room) (frame : Frame) (exclude : ParticipantId) : List Sent :=
  (room.members.values.filter fun member => member.id ≠ exclude).map fun member =>
    (member.sink, frame)

/-- Remove the members whose channel is closed, and name them. -/
def pruneStale (room : Room) (closed : WsSink → Bool) : List ParticipantId × Room :=
  ((room.members.values.filter fun member => closed member.sink).map Member.id,
    { room with members := room.members.retain fun _ member => !closed member.sink })

/-- The ids of all members but one. -/
def peerIds (room : Room) (exclude : ParticipantId) : List ParticipantId :=
  room.members.keys.filter fun id => id ≠ exclude

/-- The sinks of all members but one. -/
def peerSinks (room : Room) (exclude : ParticipantId) : List WsSink :=
  (room.members.values.filter fun member => member.id ≠ exclude).map Member.sink

/-- A text for every member. -/
def broadcastAll (room : Room) (frame : Frame) : List Sent :=
  room.members.values.map fun member => (member.sink, frame)

/-- Change the media state of a member, if it is one. -/
def setMedia (room : Room) (id : ParticipantId)
    (change : MemberMediaState → MemberMediaState) : Room :=
  { room with
    members := room.members.modify id fun member =>
      { member with mediaState := change member.mediaState } }

/-- A member's audio flag is set, where it is a member. -/
def setAudioMuted (room : Room) (id : ParticipantId) (muted : Bool) : Room :=
  room.setMedia id fun state => { state with audioMuted := muted }

/-- A member's video flag is set, where it is a member. -/
def setVideoMuted (room : Room) (id : ParticipantId) (muted : Bool) : Room :=
  room.setMedia id fun state => { state with videoMuted := muted }

/-- A member's screen-share flag is set, where it is a member. -/
def setScreenSharing (room : Room) (id : ParticipantId) (sharing : Bool) : Room :=
  room.setMedia id fun state => { state with screenSharing := sharing }

/-- A member's encryption flag is set, where it is a member. -/
def setE2ee (room : Room) (id : ParticipantId) (active : Bool) : Room :=
  room.setMedia id fun state => { state with e2ee := active }

/-- The status of every member. -/
def participantsSnapshot (room : Room) : List ParticipantStatus :=
  room.members.values.map fun member =>
    { id := member.id, displayName := member.displayName,
      audioMuted := member.mediaState.audioMuted, videoMuted := member.mediaState.videoMuted,
      screenSharing := member.mediaState.screenSharing, e2ee := member.mediaState.e2ee }

/-- The display names of all members but one that have one. -/
def displayNames (room : Room) (exclude : ParticipantId) : List (ParticipantId × String) :=
  (room.members.values.filter fun member => member.id ≠ exclude).filterMap fun member =>
    member.displayName.map fun name => (member.id, name)

end Room

/-- The shared signaling state. -/
structure SignalingState where
  rooms : Table RoomId Room
  /-- Each participant's sink and the names of its rooms. -/
  connections : Table ParticipantId (WsSink × List RoomId)
  connectionGens : Table ParticipantId Nat
  e2eeRequired : Bool

namespace SignalingState

/-- Empty state. -/
def new (e2eeRequired : Bool) : SignalingState :=
  { rooms := ∅, connections := ∅, connectionGens := ∅, e2eeRequired }

/-- Register a participant in a room, created if need be, and say whether it is
the first. The stored sink is always the latest one. -/
def join (state : SignalingState) (id : ParticipantId) (roomId : RoomId) (sink : WsSink)
    (displayName : Option String) : Bool × SignalingState :=
  let (isFirst, room) := ((state.rooms.lookup roomId).getD .new).join
    (.withDisplayName id sink displayName)
  let names := ((state.connections.lookup id).map Prod.snd).getD []
  (isFirst,
    { state with
      rooms := state.rooms.insert roomId room
      connections := state.connections.insert id
        (sink, if roomId ∈ names then names else names ++ [roomId]) })

/-- Take a participant out of a room and out of the index, and say whether the
room is gone. -/
def leave (state : SignalingState) (id : ParticipantId) (roomId : RoomId) :
    Bool × SignalingState :=
  let (roomEmpty, rooms) :=
    match state.rooms.lookup roomId with
    | some room =>
        let (empty, left) := room.leave id
        (empty, if empty then state.rooms.erase roomId else state.rooms.insert roomId left)
    | none => (true, state.rooms)
  let connections :=
    match state.connections.lookup id with
    | some (sink, names) =>
        let kept := names.filter (· ≠ roomId)
        if kept.isEmpty then state.connections.erase id
        else state.connections.insert id (sink, kept)
    | none => state.connections
  (roomEmpty, { state with rooms, connections })

/-- Leave the listed rooms in order, noting which are gone. -/
def leaveAll (id : ParticipantId) : SignalingState → List RoomId →
    List (RoomId × Bool) × SignalingState
  | state, [] => ([], state)
  | state, roomId :: rest =>
      let (empty, left) := state.leave id roomId
      let (affected, final) := leaveAll id left rest
      ((roomId, empty) :: affected, final)

/-- Take a participant out of all rooms the index lists for it. -/
def disconnect (state : SignalingState) (id : ParticipantId) :
    List (RoomId × Bool) × SignalingState :=
  let names := ((state.connections.lookup id).map Prod.snd).getD []
  let (affected, left) := leaveAll id state names
  (affected,
    { left with
      connections := left.connections.erase id
      connectionGens := left.connectionGens.erase id })

/-- Store the generation of a participant's newest connection. -/
def setConnectionGen (state : SignalingState) (id : ParticipantId) (gen : Nat) : SignalingState :=
  { state with connectionGens := state.connectionGens.insert id gen }

/-- The generation on record for a participant. -/
def connectionGen (state : SignalingState) (id : ParticipantId) : Option Nat :=
  state.connectionGens.lookup id

/-- Change a room, if it exists. -/
def updateRoom (state : SignalingState) (roomId : RoomId) (change : Room → Room) :
    SignalingState :=
  { state with rooms := state.rooms.modify roomId change }

/-- The stored sink of a participant. -/
def sink (state : SignalingState) (id : ParticipantId) : Option WsSink :=
  (state.connections.lookup id).map Prod.fst

/-- The sinks of all other members of a room. -/
def peers (state : SignalingState) (roomId : RoomId) (exclude : ParticipantId) : List WsSink :=
  ((state.rooms.lookup roomId).map fun room => room.peerSinks exclude).getD []

/-- Remove the closed members of a room, and name them. -/
def pruneStale (state : SignalingState) (roomId : RoomId) (closed : WsSink → Bool) :
    List ParticipantId × SignalingState :=
  (((state.rooms.lookup roomId).map fun room => (room.pruneStale closed).1).getD [],
    state.updateRoom roomId fun room => (room.pruneStale closed).2)

/-- A member of a room, as the room stores it. -/
def member (state : SignalingState) (roomId : RoomId) (id : ParticipantId) : Option Member :=
  (state.rooms.lookup roomId).bind fun room => room.members.lookup id

/-- The sink of a member of a room. -/
def seat (state : SignalingState) (roomId : RoomId) (id : ParticipantId) : Option WsSink :=
  (state.member roomId id).map Member.sink

/-- Whether the room exists. -/
def hasRoom (state : SignalingState) (roomId : RoomId) : Bool :=
  (state.rooms.lookup roomId).isSome

/-- The index lists a room for a participant. -/
def listed (state : SignalingState) (id : ParticipantId) (roomId : RoomId) : Prop :=
  ∃ sink names, state.connections.lookup id = some (sink, names) ∧ roomId ∈ names

end SignalingState

/-- `broadcast_room_status`: a snapshot for every member of a room. -/
def broadcastRoomStatus (state : SignalingState) (roomId : RoomId) : List Sent :=
  match state.rooms.lookup roomId with
  | some room =>
      room.broadcastAll
        (.serialised (.roomStatus roomId room.participantsSnapshot state.e2eeRequired))
  | none => []

namespace Room

/-- An empty room has no member. -/
theorem lookup_of_isEmpty (room : Room) (empty : room.isEmpty = true) (id : ParticipantId) :
    room.members.lookup id = none := by
  cases stored : room.members.lookup id with
  | none => rfl
  | some member =>
    have present := (Table.mem_entries id member room.members).mpr stored
    have none : room.members.entries = [] := by simpa [isEmpty] using empty
    rw [none] at present
    simp at present

/-- Reading a room after a removal. -/
theorem lookup_leave (room : Room) (id other : ParticipantId) :
    (room.leave id).2.members.lookup other =
      if other = id then none else room.members.lookup other :=
  Table.lookup_erase_eq id other room.members

/-- Reading a room after its closed members are removed. -/
theorem lookup_pruneStale (room : Room) (closed : WsSink → Bool) (id : ParticipantId) :
    (room.pruneStale closed).2.members.lookup id =
      (room.members.lookup id).filter fun member => !closed member.sink :=
  Table.lookup_retain _ id room.members

/-- Changing a media state keeps who is a member, with which sink. -/
theorem lookup_setMedia (room : Room) (id other : ParticipantId)
    (change : MemberMediaState → MemberMediaState) :
    (room.setMedia id change).members.lookup other =
      if other = id then
        (room.members.lookup id).map fun member =>
          { member with mediaState := change member.mediaState }
      else room.members.lookup other :=
  Table.lookup_modify id other _ room.members

end Room

namespace SignalingState

variable (state : SignalingState) (id other : ParticipantId) (roomId tested : RoomId)

/-- Reading a member after a room changed. -/
theorem member_updateRoom (change : Room → Room) :
    (state.updateRoom roomId change).member tested other =
      if tested = roomId then
        (state.rooms.lookup roomId).bind fun room => (change room).members.lookup other
      else state.member tested other := by
  simp only [member, updateRoom, Table.lookup_modify]
  by_cases same : tested = roomId
  · cases state.rooms.lookup roomId <;> simp [same]
  · simp [same]

/-- A change of a room creates and removes none. -/
theorem hasRoom_updateRoom (change : Room → Room) :
    (state.updateRoom roomId change).hasRoom tested = state.hasRoom tested := by
  simp only [hasRoom, updateRoom, Table.lookup_modify]
  by_cases same : tested = roomId
  · subst same
    cases state.rooms.lookup tested <;> simp
  · simp [same]

/-- Removing the closed members of a room removes no one else. -/
theorem member_pruneStale (closed : WsSink → Bool) :
    (state.pruneStale roomId closed).2.member tested other =
      if tested = roomId then
        (state.member roomId other).filter fun member => !closed member.sink
      else state.member tested other := by
  rw [pruneStale, member_updateRoom]
  by_cases same : tested = roomId
  · simp only [same, ↓reduceIte, Room.lookup_pruneStale, member]
    cases state.rooms.lookup roomId <;> rfl
  · simp [same]

/-- Joining makes a member of nobody else, and of nobody in another room. -/
theorem member_join (sink : WsSink) (displayName : Option String) :
    (state.join id roomId sink displayName).2.member tested other =
      if tested = roomId ∧ other = id then some (.withDisplayName id sink displayName)
      else state.member tested other := by
  have key : (Member.withDisplayName id sink displayName).id = id := rfl
  simp only [member, join, Room.join, Table.lookup_insert_eq, key]
  by_cases same : tested = roomId
  · subst same
    simp only [↓reduceIte, true_and, Option.bind_some]
    by_cases here : other = id
    · subst here
      simp
    · rw [AList.lookup_insert_ne here, if_neg here]
      cases state.rooms.lookup tested <;> simp [Room.new]
  · simp [same]

/-- Joining makes sure of the room. -/
theorem hasRoom_join (sink : WsSink) (displayName : Option String) :
    (state.join id roomId sink displayName).2.hasRoom tested =
      (decide (tested = roomId) || state.hasRoom tested) := by
  simp only [hasRoom, join, Table.lookup_insert_eq]
  by_cases same : tested = roomId <;> simp [same]

/-- Joining lists the room for the participant. -/
theorem listed_join (sink : WsSink) (displayName : Option String) :
    (state.join id roomId sink displayName).2.listed other tested ↔
      state.listed other tested ∨ (other = id ∧ tested = roomId) := by
  simp only [listed, join, Table.lookup_insert_eq]
  by_cases here : other = id
  · subst here
    cases stored : state.connections.lookup other with
    | none => simp
    | some entry =>
      obtain ⟨former, names⟩ := entry
      by_cases known : roomId ∈ names
      · simp [known]
        rintro rfl
        exact known
      · simp [known]
  · simp [here]

/-- Joining stores the sink for the participant, and no sink for another. -/
theorem sink_join (sink : WsSink) (displayName : Option String) :
    (state.join id roomId sink displayName).2.sink other =
      if other = id then some sink else state.sink other := by
  simp only [SignalingState.sink, join, Table.lookup_insert_eq]
  by_cases here : other = id <;> simp [here]

/-- Leaving takes the participant out of that room only. -/
theorem member_leave :
    (state.leave id roomId).2.member tested other =
      if tested = roomId ∧ other = id then none else state.member tested other := by
  simp only [member, leave]
  cases stored : state.rooms.lookup roomId with
  | none =>
    by_cases same : tested = roomId
    · subst same
      simp [stored]
    · simp [same]
  | some room =>
    have left := room.lookup_leave id other
    by_cases same : tested = roomId
    · subst same
      by_cases empty : (room.leave id).1 = true
      · have nobody := Room.lookup_of_isEmpty (room.leave id).2 empty other
        rw [left] at nobody
        simp only [empty, ↓reduceIte, Table.lookup_erase_eq, Option.bind_none, stored,
          Option.bind_some, true_and]
        exact nobody.symm
      · simp only [empty, Bool.false_eq_true, ↓reduceIte, Table.lookup_insert_eq,
          Option.bind_some, stored, true_and]
        exact left
    · by_cases empty : (room.leave id).1 = true <;> simp [empty, same]

/-- Leaving says of the room whether it is gone, and touches no other room. -/
theorem hasRoom_leave :
    (state.leave id roomId).2.hasRoom tested =
      if tested = roomId then !(state.leave id roomId).1 else state.hasRoom tested := by
  simp only [hasRoom, leave]
  cases stored : state.rooms.lookup roomId with
  | none =>
    by_cases same : tested = roomId
    · subst same
      simp [stored]
    · simp [same]
  | some room =>
    by_cases empty : (room.leave id).1 = true <;> by_cases same : tested = roomId <;>
      simp [empty, same, Table.lookup_erase_eq, Table.lookup_insert_eq]

/-- Leaving makes no room. -/
theorem hasRoom_of_leave (there : (state.leave id roomId).2.hasRoom tested = true) :
    state.hasRoom tested = true := by
  rw [hasRoom_leave] at there
  by_cases same : tested = roomId
  · subst same
    rw [if_pos rfl] at there
    cases stored : state.rooms.lookup tested with
    | none => simp [leave, stored] at there
    | some room => rw [hasRoom, stored, Option.isSome_some]
  · rwa [if_neg same] at there

/-- The index after leaving, for the participant itself. -/
theorem connections_leave_self :
    (state.leave id roomId).2.connections.lookup id =
      ((state.connections.lookup id).map fun entry =>
        (entry.1, entry.2.filter fun name => name ≠ roomId)).filter
          fun entry => !entry.2.isEmpty := by
  simp only [leave]
  cases stored : state.connections.lookup id with
  | none => simp [stored]
  | some entry =>
    obtain ⟨sink, names⟩ := entry
    by_cases bare : (names.filter fun name => name ≠ roomId).isEmpty = true
    · simp only [bare, ↓reduceIte, AList.lookup_erase, Option.map_some, Option.filter_some,
        Bool.not_true, Bool.false_eq_true]
    · simp only [bare, Bool.false_eq_true, ↓reduceIte, AList.lookup_insert, Option.map_some,
        Option.filter_some, Bool.not_false]

/-- Leaving changes no other participant's entry of the index. -/
theorem connections_leave (apart : other ≠ id) :
    (state.leave id roomId).2.connections.lookup other = state.connections.lookup other := by
  simp only [leave]
  cases state.connections.lookup id with
  | none => rfl
  | some entry =>
    by_cases bare : (entry.2.filter fun name => name ≠ roomId).isEmpty = true
    · simp only [bare, ↓reduceIte, AList.lookup_erase_ne apart]
    · simp only [bare, Bool.false_eq_true, ↓reduceIte, AList.lookup_insert_ne apart]

/-- Leaving takes the room off the participant's list. -/
theorem listed_leave :
    (state.leave id roomId).2.listed other tested ↔
      state.listed other tested ∧ ¬(other = id ∧ tested = roomId) := by
  by_cases here : other = id
  · subst here
    simp only [listed, connections_leave_self]
    cases state.connections.lookup other with
    | none => simp
    | some entry =>
      obtain ⟨sink, names⟩ := entry
      by_cases bare : (names.filter fun name => name ≠ roomId).isEmpty = true
      · have only : ∀ name ∈ names, name = roomId := by simpa using bare
        simp only [Option.map_some, Option.filter_some, bare, Bool.not_true, Bool.false_eq_true,
          ↓reduceIte, reduceCtorEq, false_and, exists_false, Option.some.injEq, Prod.mk.injEq,
          false_iff, true_and, not_and, not_not]
        rintro ⟨_, _, ⟨rfl, rfl⟩, known⟩
        exact only tested known
      · simp only [Option.map_some, Option.filter_some, bare, Bool.not_false, ↓reduceIte,
          Option.some.injEq, Prod.mk.injEq, true_and]
        constructor
        · rintro ⟨_, _, ⟨rfl, rfl⟩, known⟩
          simp only [List.mem_filter, decide_eq_true_eq] at known
          exact ⟨⟨_, _, ⟨rfl, rfl⟩, known.1⟩, known.2⟩
        · rintro ⟨⟨_, _, ⟨rfl, rfl⟩, known⟩, apart⟩
          exact ⟨_, _, ⟨rfl, rfl⟩, by simpa using ⟨known, apart⟩⟩
  · simp [listed, connections_leave state id other roomId here, here]

section LeaveAll

variable (names : List RoomId)

/-- Leaving the listed rooms takes the participant out of them. -/
theorem member_leaveAll :
    (leaveAll id state names).2.member tested other =
      if tested ∈ names ∧ other = id then none else state.member tested other := by
  induction names generalizing state with
  | nil => simp [leaveAll]
  | cons roomId rest inductionHypothesis =>
    simp only [leaveAll, inductionHypothesis, member_leave, List.mem_cons]
    by_cases later : tested ∈ rest <;> by_cases here : other = id <;> simp [later, here]

/-- Leaving the listed rooms takes them off the participant's list. -/
theorem listed_leaveAll :
    (leaveAll id state names).2.listed other tested ↔
      state.listed other tested ∧ ¬(other = id ∧ tested ∈ names) := by
  induction names generalizing state with
  | nil => simp [leaveAll]
  | cons roomId rest inductionHypothesis =>
    simp only [leaveAll, inductionHypothesis, listed_leave, List.mem_cons]
    tauto

/-- The affected rooms are the listed ones. -/
theorem affected_leaveAll : (leaveAll id state names).1.map Prod.fst = names := by
  induction names generalizing state with
  | nil => rfl
  | cons roomId rest inductionHypothesis => simp [leaveAll, inductionHypothesis]

/-- A room that is gone after leaving is among the affected ones, noted as gone. -/
theorem gone_leaveAll (present : state.hasRoom tested = true)
    (gone : (leaveAll id state names).2.hasRoom tested = false) :
    (tested, true) ∈ (leaveAll id state names).1 := by
  induction names generalizing state with
  | nil => simp [leaveAll, present] at gone
  | cons roomId rest inductionHypothesis =>
    simp only [leaveAll] at gone ⊢
    cases still : (state.leave id roomId).2.hasRoom tested with
    | true => exact List.mem_cons_of_mem _ (inductionHypothesis _ still gone)
    | false =>
      rw [hasRoom_leave] at still
      by_cases same : tested = roomId
      · subst same
        simp only [↓reduceIte, Bool.not_eq_eq_eq_not, Bool.not_false] at still
        simp [still]
      · simp [same, present] at still

end LeaveAll

/-- A room is listed when it is among the names the index holds. -/
theorem listed_iff_mem :
    state.listed id roomId ↔
      roomId ∈ ((state.connections.lookup id).map Prod.snd).getD [] := by
  simp only [listed]
  cases state.connections.lookup id with
  | none => simp
  | some entry =>
    constructor
    · rintro ⟨sink, names, ⟨rfl⟩, known⟩
      exact known
    · intro known
      exact ⟨entry.1, entry.2, rfl, known⟩

/-- The rooms a disconnect affects are those listed. -/
theorem affected_disconnect :
    roomId ∈ (state.disconnect id).1.map Prod.fst ↔ state.listed id roomId := by
  rw [listed_iff_mem]
  simp only [disconnect, affected_leaveAll]

/-- A disconnect takes the participant out of the listed rooms. -/
theorem member_disconnect_of_not (kept : ¬(other = id ∧ state.listed id tested)) :
    (state.disconnect id).2.member tested other = state.member tested other := by
  rw [listed_iff_mem] at kept
  have left := member_leaveAll state id other tested
    (((state.connections.lookup id).map Prod.snd).getD [])
  rw [if_neg (by tauto)] at left
  exact left

/-- A disconnect leaves the participant no listed room. -/
theorem member_disconnect_self (known : state.listed id tested) :
    (state.disconnect id).2.member tested id = none := by
  rw [listed_iff_mem] at known
  have left := member_leaveAll state id id tested
    (((state.connections.lookup id).map Prod.snd).getD [])
  rw [if_pos ⟨known, rfl⟩] at left
  exact left

/-- After a disconnect the index lists nothing for the participant, and for
others what it listed before. -/
theorem listed_disconnect :
    (state.disconnect id).2.listed other tested ↔ other ≠ id ∧ state.listed other tested := by
  by_cases here : other = id
  · subst here
    simp [listed, disconnect]
  · have left := listed_leaveAll state id other tested
      (((state.connections.lookup id).map Prod.snd).getD [])
    simp only [listed, disconnect, AList.lookup_erase_ne here] at left ⊢
    simpa [here] using left

/-- A room a disconnect removed is among the affected ones, noted as gone. -/
theorem gone_disconnect (present : state.hasRoom tested = true)
    (gone : (state.disconnect id).2.hasRoom tested = false) :
    (tested, true) ∈ (state.disconnect id).1 :=
  gone_leaveAll state id tested _ present gone

/-- Who is seated where after a `join`. -/
theorem seat_join (sink : WsSink) (displayName : Option String) :
    (state.join id roomId sink displayName).2.seat tested other =
      if tested = roomId ∧ other = id then some sink else state.seat tested other := by
  simp only [seat, member_join]
  split <;> rfl

/-- Who is seated where after a `leave`. -/
theorem seat_leave :
    (state.leave id roomId).2.seat tested other =
      if tested = roomId ∧ other = id then none else state.seat tested other := by
  simp only [seat, member_leave]
  split <;> rfl

/-- Who is seated where after a disconnect: the others where they were. -/
theorem seat_disconnect_ne (apart : other ≠ id) :
    (state.disconnect id).2.seat tested other = state.seat tested other := by
  rw [seat, member_disconnect_of_not state id other tested (by tauto), seat]

/-- A disconnect seats nobody. -/
theorem seat_of_disconnect {sink : WsSink}
    (seated : (state.disconnect id).2.seat tested other = some sink) :
    state.seat tested other = some sink := by
  by_cases out : other = id ∧ state.listed id tested
  · obtain ⟨rfl, known⟩ := out
    rw [seat, member_disconnect_self state other tested known] at seated
    simp at seated
  · rwa [seat, member_disconnect_of_not state id other tested out] at seated

/-- A seat kept through a pruning is not closed. -/
theorem seat_pruneStale (closed : WsSink → Bool) :
    (state.pruneStale roomId closed).2.seat tested other =
      if tested = roomId then (state.seat roomId other).filter fun sink => !closed sink
      else state.seat tested other := by
  simp only [seat, member_pruneStale]
  by_cases same : tested = roomId
  · simp only [same, ↓reduceIte]
    cases state.member roomId other with
    | none => rfl
    | some member => cases live : closed member.sink <;> simp [Option.filter_some, live]
  · simp [same]

instance : Decidable (state.listed id roomId) :=
  decidable_of_iff _ (listed_iff_mem state id roomId).symm

/-- Whether a room exists and has no member but, perhaps, one. -/
def soleMember : Bool :=
  match state.rooms.lookup roomId with
  | some room => room.members.keys.all fun member => decide (member = id)
  | none => false

/-- A room that is gone after a `leave` had no other member. -/
theorem sole_of_leave (present : state.hasRoom roomId = true)
    (gone : (state.leave id roomId).2.hasRoom roomId = false) :
    state.soleMember id roomId = true := by
  rw [hasRoom_leave, if_pos rfl] at gone
  unfold soleMember
  cases stored : state.rooms.lookup roomId with
  | none => simp [hasRoom, stored] at present
  | some room =>
    have empty : (room.leave id).1 = true := by simpa [leave, stored] using gone
    simp only [List.all_eq_true, decide_eq_true_eq]
    intro member listed
    obtain ⟨value, read⟩ := (Table.mem_keys member room.members).mp listed
    by_contra apart
    have kept := room.lookup_leave id member
    rw [Room.lookup_of_isEmpty (room.leave id).2 empty member, if_neg apart, read] at kept
    simp at kept

end SignalingState

end Seameet
