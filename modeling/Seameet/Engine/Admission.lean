import Seameet.Engine.Capacity
import Seameet.Engine.Stepping

/-!
# Admission

A first `Join` is checked against the capacity twice: before its generation is on
record, where every entry of the room's table counts, and at its dispatch, once the
members whose sinks are closed are gone. Neither check leaves out an earlier
membership of the participant itself, and the first counts closed members as well.
-/

namespace Seameet

open Library

namespace SignalingState

variable (state : SignalingState) (closed : WsSink → Bool) (roomId : RoomId) (id : ParticipantId)

/-- The other members of a room whose sinks are open. -/
def openOthers : List ParticipantId :=
  (state.memberIds roomId).filter fun other =>
    decide (other ≠ id) && (state.seat roomId other).any fun sink => !closed sink

/-- The other members of a room whose sinks are open have a seat each. -/
theorem mem_openOthers (other : ParticipantId) :
    other ∈ state.openOthers closed roomId id ↔
      other ≠ id ∧ ∃ sink, state.seat roomId other = some sink ∧ closed sink = false := by
  simp only [openOthers, List.mem_filter, mem_memberIds, Bool.and_eq_true, decide_eq_true_eq,
    Option.any_eq_true, Bool.not_eq_eq_eq_not, Bool.not_true]
  constructor
  · rintro ⟨_, apart, sink, seated, live⟩
    exact ⟨apart, sink, seated, live⟩
  · rintro ⟨apart, sink, seated, live⟩
    exact ⟨by rw [seated]; rfl, apart, sink, seated, live⟩

/-- Pruning takes away none of them. -/
theorem openOthers_pruneStale :
    ((state.pruneStale roomId closed).2.openOthers closed roomId id).length =
      (state.openOthers closed roomId id).length := by
  apply List.Perm.length_eq
  rw [List.perm_ext_iff_of_nodup]
  · intro other
    simp only [mem_openOthers, seat_pruneStale, ↓reduceIte, Option.filter_eq_some_iff,
      Bool.not_eq_eq_eq_not, Bool.not_true, and_assoc, and_self]
  · exact (memberIds_nodup _ _).filter _
  · exact (memberIds_nodup _ _).filter _

/-- All members count as open others exactly if each is another one, with its sink
open. -/
theorem openOthers_eq_crowd_iff :
    (state.openOthers closed roomId id).length = state.crowd roomId ↔
      ∀ other sink, state.seat roomId other = some sink → other ≠ id ∧ closed sink = false := by
  rw [crowd_eq, openOthers, List.length_filter_eq_length_iff]
  constructor
  · intro each other sink seated
    have counted := each other ((mem_memberIds _ _ _).mpr (by rw [seated]; rfl))
    simpa [seated] using counted
  · intro each other member
    obtain ⟨sink, seated⟩ := Option.isSome_iff_exists.mp ((mem_memberIds _ _ _).mp member)
    simpa [seated] using each other sink seated

/-- No more members count than there are. -/
theorem openOthers_le_crowd : (state.openOthers closed roomId id).length ≤ state.crowd roomId := by
  rw [crowd_eq]
  exact List.length_filter_le _ _

/-- A full room has as many members as the limit, or more. -/
theorem full_iff_crowd (maxRoomMembers : Nat) (positive : 1 ≤ maxRoomMembers) :
    state.full roomId maxRoomMembers = true ↔ maxRoomMembers ≤ state.crowd roomId := by
  unfold full crowd
  cases state.rooms.lookup roomId with
  | none => simp; omega
  | some room => simp

end SignalingState

namespace Connection

/-- The request of a first `Join` that stands before one of its capacity checks, and
the state the check reads. -/
def capacityCheck (connection : Connection) (world : World) :
    Option (JoinRequest × SignalingState) :=
  match connection.point with
  | .precheck request => some (request, world.signaling)
  | .joining true request .dispatch => some (request, world.pruned request.roomId)
  | _ => none

/-- An admitted `Join` is not answered with the error for a full room. -/
theorem joinSection_welcomes {config : Config} {world : World} {id : WsSink}
    {connection : Connection} (pid : ParticipantId) (first : Bool) (request : JoinRequest)
    (admitted : admits config world request.roomId = true) :
    (connection.joinSection config world id pid first request .dispatch).sent ≠
      [(id, SignalingState.roomIsFull)] := by
  have vacant : (world.pruned request.roomId).full request.roomId config.maxRoomMembers =
      false := by simpa [admits] using admitted
  rw [World.pruned] at vacant
  simp only [joinSection, JoinRequest.message, SignalingState.dispatch,
    SignalingState.dispatchJoin, vacant, Bool.false_eq_true, ↓reduceIte,
    SignalingState.seatMember, SignalingState.roomIsFull]
  simp

end Connection

namespace World

variable {config : Config} {world after : World}

/-- The check answers with the error exactly if the room it reads is full. -/
theorem answered_full_iff {id : WsSink} {answer : Option String} {connection : Connection}
    (present : world.connections.lookup id = some connection) {request : JoinRequest}
    {counted : SignalingState} (checks : connection.capacityCheck world = some (request, counted))
    (stepped : world.step config (.advance id answer) = some after) :
    after.sent = world.sent ++ [(id, SignalingState.roomIsFull)] ↔
      counted.full request.roomId config.maxRoomMembers = true := by
  have added : ∀ turn : Turn, (world.commit id turn).sent = world.sent ++ turn.sent := fun _ => rfl
  cases world.stepped_of_step _ stepped with
  | finished _ _ _ _ _ _ _ still => exact absurd rfl (still id answer)
  | advanced _ _ found turn there taken =>
    rw [present] at there
    cases there
    rw [added, List.append_right_inj]
    unfold Connection.capacityCheck at checks
    split at checks
    · rename_i point
      cases checks
      cases bound : connection.participantId with
      | some pid => simp [Connection.advance, point, bound] at taken
      | none =>
        simp only [Connection.advance, point, bound, Option.some.injEq] at taken
        subst taken
        unfold Connection.precheckSection
        split
        · simp_all
        · simp_all [turn]
    · rename_i point
      cases checks
      cases bound : connection.participantId with
      | none => simp [Connection.advance, point, bound] at taken
      | some pid =>
        simp only [Connection.advance, point, bound, Option.some.injEq] at taken
        subst taken
        cases admitted : Connection.admits config world request.roomId with
        | false =>
          rw [connection.joinSection_full pid true request admitted]
          simpa [Connection.admits] using admitted
        | true =>
          have vacant : (world.pruned request.roomId).full request.roomId config.maxRoomMembers =
              false := by simpa [Connection.admits] using admitted
          rw [vacant]
          refine ⟨fun alone => ?_, by simp⟩
          exact absurd alone (connection.joinSection_welcomes pid true request admitted)
    · simp at checks

end World

/-- A first `Join` is refused for a room with fewer open members beside the
participant than the capacity exactly when the check counts a closed member, or the
participant itself, in a full room.

The check counts open members, and the closed ones and the participant itself among them are
what it may count too much. With the room within its capacity the comparison is between two
numbers. -/
theorem refused_only_when_full_iff (config : Config) (e2eeRequired : Bool)
    (positive : 1 ≤ config.maxRoomMembers) {world after : World}
    (reached : Reaches (World.step config) always (World.new e2eeRequired) world)
    (id : WsSink) (answer : Option String) (connection : Connection)
    (present : world.connections.lookup id = some connection) (request : JoinRequest)
    (counted : SignalingState) (checks : connection.capacityCheck world = some (request, counted))
    (stepped : world.step config (.advance id answer) = some after) :
    (after.sent = world.sent ++ [(id, SignalingState.roomIsFull)] →
        config.maxRoomMembers ≤ (world.signaling.openOthers world.isClosed request.roomId
          request.participant).length) ↔
      (counted.full request.roomId config.maxRoomMembers = true →
        ∀ other sink, counted.seat request.roomId other = some sink →
          other ≠ request.participant ∧ world.isClosed sink = false) := by
  have bound : counted.crowd request.roomId ≤ config.maxRoomMembers := by
    have capped : ∀ state : SignalingState, (∀ other,
        (state.seat request.roomId other).isSome = true →
          (world.signaling.seat request.roomId other).isSome = true) →
        state.crowd request.roomId ≤ config.maxRoomMembers := by
      intro state seats
      have most := World.within_of_reaches reached request.roomId
      have fewer := SignalingState.crowd_le state request.roomId seats
      omega
    unfold Connection.capacityCheck at checks
    split at checks
    · cases checks
      exact capped _ fun _ seated => seated
    · cases checks
      apply capped
      intro other seated
      obtain ⟨sink, found⟩ := Option.isSome_iff_exists.mp seated
      rw [world.seat_of_pruned found]
      rfl
    · simp at checks
  have same :
      (world.signaling.openOthers world.isClosed request.roomId request.participant).length =
        (counted.openOthers world.isClosed request.roomId request.participant).length := by
    unfold Connection.capacityCheck at checks
    split at checks
    · cases checks
      rfl
    · cases checks
      exact (world.signaling.openOthers_pruneStale world.isClosed _ _).symm
    · simp at checks
  rw [World.answered_full_iff present checks stepped, same,
    ← SignalingState.openOthers_eq_crowd_iff, counted.full_iff_crowd _ _ positive]
  have most := counted.openOthers_le_crowd world.isClosed request.roomId request.participant
  constructor
  · intro enough full
    have := enough full
    omega
  · intro all full
    have := all full
    omega

/-- A room for one member. -/
def roomForOne : Config := { Config.sfuDefault with maxRoomMembers := 1 }

/-- One participant has joined; another one's `Join`, on a connection of its own, stands
before the check. -/
def secondArrives (second : ParticipantId) : List Event :=
  .connect :: Event.firstJoin 1 ⟨1⟩ "a" ++ [.connect, .join 2 second "a"]

/-- The room is taken by another participant, whose sink is open. -/
theorem refused_only_when_full_taken :
    let world := (walk (World.step roomForOne) always (World.new false) (secondArrives ⟨2⟩)).getD
      (World.new false)
    1 ≤ (world.signaling.openOthers world.isClosed "a" ⟨2⟩).length := by
  intro world
  have reached : Reaches (World.step roomForOne) always (World.new false) world :=
    walk_reaches_end _ _ _ _ (by decide +kernel)
  obtain ⟨after, stepped⟩ := Option.isSome_iff_exists.mp
    (show (world.step roomForOne (.advance 2 none)).isSome = true by decide +kernel)
  let request : JoinRequest :=
    { participant := ⟨2⟩, roomId := "a", displayName := none, token := none }
  have present : world.connections.lookup 2 =
      some { participantId := none, e2eeDeadline := false, point := .precheck request } := by rfl
  have answered := (World.answered_full_iff present rfl stepped).mpr (by decide +kernel)
  refine (refused_only_when_full_iff roomForOne false (by decide) reached 2 none _ present request
    world.signaling rfl stepped).mpr ?_ answered
  intro _ other sink seated
  have member : other ∈ world.signaling.memberIds "a" :=
    (SignalingState.mem_memberIds _ _ _).mpr (by rw [seated]; rfl)
  have only : world.signaling.memberIds "a" = [⟨1⟩] := by decide +kernel
  rw [only, List.mem_singleton] at member
  subst member
  have own : world.signaling.seat "a" ⟨1⟩ = some 1 := by decide +kernel
  rw [own] at seated
  cases seated
  exact ⟨by decide, by decide +kernel⟩

/-- The check refuses the only member, on a new connection, and it refuses another
participant when the only member's sink is closed. -/
theorem refused_without_open_others :
    (∃ world after, Reaches (World.step roomForOne) always (World.new false) world ∧
      world.step roomForOne (.advance 2 none) = some after ∧
      after.sent = world.sent ++ [(2, SignalingState.roomIsFull)] ∧
      world.signaling.openOthers world.isClosed "a" ⟨1⟩ = []) ∧
    ∃ world after, Reaches (World.step roomForOne) always (World.new false) world ∧
      world.step roomForOne (.advance 2 none) = some after ∧
      after.sent = world.sent ++ [(2, SignalingState.roomIsFull)] ∧
      world.signaling.openOthers world.isClosed "a" ⟨2⟩ = [] := by
  constructor
  · refine ⟨(walk (World.step roomForOne) always (World.new false) (secondArrives ⟨1⟩)).getD
      (World.new false), _, walk_reaches_end _ _ _ _ (by decide +kernel), rfl, ?_, ?_⟩
    · decide +kernel
    · decide +kernel
  · refine ⟨(walk (World.step roomForOne) always (World.new false)
      (secondArrives ⟨2⟩ ++ [.writerEnds 1])).getD (World.new false), _,
      walk_reaches_end _ _ _ _ (by decide +kernel), rfl, ?_, ?_⟩
    · decide +kernel
    · decide +kernel

end Seameet
