import Mathlib.Data.List.Induction
import Mathlib.Data.List.Nodup
import Seameet.Signaling.State

/-!
# The index of rooms

Who is a member of which room is stored twice, with the rooms and in the index
that a disconnect reads. Joining and leaving write both, a pruning only the
rooms. So the index may list a room too many, and it never misses one: a
disconnect that trusts it finds every membership.
-/

namespace Seameet

open Library

namespace SignalingState

/-- A call of one of the state's operations. The closed sinks are those at the
time of a pruning. -/
inductive Call where
  | join (id : ParticipantId) (roomId : RoomId) (sink : WsSink) (displayName : Option String)
  | leave (id : ParticipantId) (roomId : RoomId)
  | disconnect (id : ParticipantId)
  | setConnectionGen (id : ParticipantId) (gen : Nat)
  | pruneStale (roomId : RoomId) (closed : WsSink → Bool)

/-- The state a call leaves. -/
def call (state : SignalingState) : Call → SignalingState
  | .join id roomId sink displayName => (state.join id roomId sink displayName).2
  | .leave id roomId => (state.leave id roomId).2
  | .disconnect id => (state.disconnect id).2
  | .setConnectionGen id gen => state.setConnectionGen id gen
  | .pruneStale roomId closed => (state.pruneStale roomId closed).2

/-- Every member of a room can be found through the index. -/
def Indexed (state : SignalingState) : Prop :=
  ∀ roomId id, (state.seat roomId id).isSome = true → state.listed id roomId

/-- No list of the index is empty or names a room twice. -/
def TidyLists (state : SignalingState) : Prop :=
  ∀ id sink names, state.connections.lookup id = some (sink, names) → names ≠ [] ∧ names.Nodup

section Indexed

variable {state after : SignalingState}

/-- An index keeps its worth as long as nobody is seated and no list gets
shorter. -/
theorem Indexed.mono (indexed : state.Indexed)
    (seat : ∀ roomId id, (after.seat roomId id).isSome = true →
      (state.seat roomId id).isSome = true)
    (listed : ∀ id roomId, state.listed id roomId → after.listed id roomId) : after.Indexed := by
  intro roomId id seated
  exact listed id roomId (indexed roomId id (seat roomId id seated))

/-- Joining writes the seat and the index. -/
theorem Indexed.join (indexed : state.Indexed) (id : ParticipantId) (roomId : RoomId)
    (sink : WsSink) (displayName : Option String) :
    (state.join id roomId sink displayName).2.Indexed := by
  intro tested other seated
  rw [listed_join]
  by_cases here : tested = roomId ∧ other = id
  · exact .inr here.symm
  · rw [seat_join, if_neg here] at seated
    exact .inl (indexed tested other seated)

/-- Leaving takes away the seat along with the entry. -/
theorem Indexed.leave (indexed : state.Indexed) (id : ParticipantId) (roomId : RoomId) :
    (state.leave id roomId).2.Indexed := by
  intro tested other seated
  rw [seat_leave] at seated
  by_cases here : tested = roomId ∧ other = id
  · rw [if_pos here] at seated
    exact absurd seated (by simp)
  · rw [if_neg here] at seated
    exact (listed_leave state id other roomId tested).mpr
      ⟨indexed tested other seated, fun same => here same.symm⟩

/-- A disconnect leaves no seat: all of them were listed. -/
theorem Indexed.seat_disconnect (indexed : state.Indexed) (id : ParticipantId) (roomId : RoomId) :
    (state.disconnect id).2.seat roomId id = none := by
  cases seated : (state.disconnect id).2.seat roomId id with
  | none => rfl
  | some sink =>
    have before := state.seat_of_disconnect id id roomId seated
    have known := indexed roomId id (by rw [before, Option.isSome_some])
    rw [seat, state.member_disconnect_self id roomId known] at seated
    exact absurd seated (by simp)

/-- A disconnect takes away the participant's seats and entries. -/
theorem Indexed.disconnect (indexed : state.Indexed) (id : ParticipantId) :
    (state.disconnect id).2.Indexed := by
  intro roomId other seated
  have apart : other ≠ id := by
    rintro rfl
    rw [indexed.seat_disconnect other roomId] at seated
    exact absurd seated (by simp)
  rw [seat_disconnect_ne state id other roomId apart] at seated
  exact (listed_disconnect state id other roomId).mpr ⟨apart, indexed roomId other seated⟩

/-- A pruning takes away seats only. -/
theorem Indexed.pruneStale (indexed : state.Indexed) (roomId : RoomId) (closed : WsSink → Bool) :
    (state.pruneStale roomId closed).2.Indexed := by
  apply indexed.mono
  · intro tested id seated
    rw [seat_pruneStale] at seated
    by_cases same : tested = roomId
    · subst same
      rw [if_pos rfl] at seated
      cases before : state.seat tested id with
      | none => simp [before] at seated
      | some sink => rfl
    · rwa [if_neg same] at seated
  · intro id tested known
    exact known

end Indexed

section TidyLists

variable {state : SignalingState}

/-- Joining appends a room that is not on the list. -/
theorem TidyLists.join (tidy : state.TidyLists) (id : ParticipantId) (roomId : RoomId)
    (sink : WsSink) (displayName : Option String) :
    (state.join id roomId sink displayName).2.TidyLists := by
  intro other stored names read
  simp only [SignalingState.join, Table.lookup_insert_eq] at read
  by_cases here : other = id
  · rw [if_pos here, Option.some.injEq, Prod.mk.injEq] at read
    obtain ⟨_, rfl⟩ := read
    cases before : state.connections.lookup id with
    | none => simp
    | some entry =>
      obtain ⟨_, distinct⟩ := tidy id entry.1 entry.2 before
      simp only [Option.map_some, Option.getD_some]
      split
      · rename_i known
        exact ⟨List.ne_nil_of_mem known, distinct⟩
      · rename_i unknown
        exact ⟨by simp, List.nodup_append.mpr
          ⟨distinct, List.nodup_singleton roomId, fun name listed _ own same =>
            unknown (List.mem_singleton.mp own ▸ same ▸ listed)⟩⟩
  · rw [if_neg here] at read
    exact tidy other stored names read

/-- Leaving takes a room off the list, and an empty list off the index. -/
theorem TidyLists.leave (tidy : state.TidyLists) (id : ParticipantId) (roomId : RoomId) :
    (state.leave id roomId).2.TidyLists := by
  intro other stored names read
  by_cases here : other = id
  · subst here
    rw [connections_leave_self] at read
    obtain ⟨kept, filled⟩ := Option.filter_eq_some_iff.mp read
    obtain ⟨entry, before, same⟩ := Option.map_eq_some_iff.mp kept
    obtain ⟨_, distinct⟩ := tidy other entry.1 entry.2 before
    obtain ⟨_, rfl⟩ := Prod.mk.inj same
    exact ⟨by simpa using filled, distinct.filter _⟩
  · rw [connections_leave state id other roomId here] at read
    exact tidy other stored names read

/-- Leaving a list of rooms one after the other. -/
theorem TidyLists.leaveAll (tidy : state.TidyLists) (id : ParticipantId) (names : List RoomId) :
    (leaveAll id state names).2.TidyLists := by
  induction names generalizing state with
  | nil => exact tidy
  | cons roomId rest inductionHypothesis => exact inductionHypothesis (tidy.leave id roomId)

/-- A disconnect takes the participant's entry off the index. -/
theorem TidyLists.disconnect (tidy : state.TidyLists) (id : ParticipantId) :
    (state.disconnect id).2.TidyLists := by
  intro other stored names read
  simp only [SignalingState.disconnect, Table.lookup_erase_eq] at read
  by_cases here : other = id
  · simp [here] at read
  · rw [if_neg here] at read
    exact tidy.leaveAll id _ other stored names read

end TidyLists

/-- Every call keeps the members in the index and the lists tidy. -/
theorem call_keeps {state : SignalingState} (call : Call) (indexed : state.Indexed)
    (tidy : state.TidyLists) : (state.call call).Indexed ∧ (state.call call).TidyLists := by
  cases call with
  | join id roomId sink displayName =>
    exact ⟨indexed.join id roomId sink displayName, tidy.join id roomId sink displayName⟩
  | leave id roomId => exact ⟨indexed.leave id roomId, tidy.leave id roomId⟩
  | disconnect id => exact ⟨indexed.disconnect id, tidy.disconnect id⟩
  | setConnectionGen => exact ⟨indexed, tidy⟩
  | pruneStale roomId closed => exact ⟨indexed.pruneStale roomId closed, tidy⟩

/-- After any calls on an empty state, every member of a room is found in the
index, every list of the index is non-empty and free of duplicates, and a
disconnect leaves of its participant no membership, no entry of the index and no
generation.

It is shown by induction on the calls. Each of them changes the members and the index for
the same room, and a disconnect goes through all that the index lists. -/
theorem index_consistent (e2eeRequired : Bool) (calls : List Call) :
    let state := calls.foldl call (new e2eeRequired)
    (∀ roomId id member, state.member roomId id = some member →
        ∃ sink names, state.connections.lookup id = some (sink, names) ∧ roomId ∈ names) ∧
      (∀ id sink names, state.connections.lookup id = some (sink, names) →
        names ≠ [] ∧ names.Nodup) ∧
      ∀ id, let after := (state.disconnect id).2
        (∀ roomId, after.member roomId id = none) ∧
          after.connections.lookup id = none ∧ after.connectionGens.lookup id = none := by
  intro state
  have consistent : state.Indexed ∧ state.TidyLists := by
    unfold state
    induction calls using List.reverseRecOn with
    | nil => exact ⟨fun _ _ seated => by simp [new, seat, member] at seated,
        fun _ _ _ read => by simp [new] at read⟩
    | append_singleton earlier call inductionHypothesis =>
      rw [List.foldl_append]
      exact call_keeps call inductionHypothesis.1 inductionHypothesis.2
  refine ⟨?_, consistent.2, ?_⟩
  · intro roomId id member present
    exact consistent.1 roomId id (by rw [seat, present]; rfl)
  · intro id after
    refine ⟨?_, AList.lookup_erase _ _, AList.lookup_erase _ _⟩
    intro roomId
    exact Option.map_eq_none_iff.mp (consistent.1.seat_disconnect id roomId)

end SignalingState

end Seameet
