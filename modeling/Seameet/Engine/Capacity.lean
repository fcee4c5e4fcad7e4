import Mathlib.Data.List.Perm.Subperm
import Seameet.Engine.Outcome
import Seameet.Signaling.Index

/-!
# Room capacity

A `Join` checks the capacity twice: a connection's first one before its
generation is on record, under a lock that is released again, and every one at
its dispatch, under the lock that seats the participant. Only the second counts.
Whatever else a step does, it seats nobody, so a room never has more members
than the capacity.

What a step does to the seats is said once, and the members stay in the index
by the same account.
-/

namespace Seameet

open Library

namespace SignalingState

/-- The number of members of a room. -/
def crowd (state : SignalingState) (roomId : RoomId) : Nat :=
  ((state.rooms.lookup roomId).map Room.memberCount).getD 0

/-- The participants of a room. -/
def memberIds (state : SignalingState) (roomId : RoomId) : List ParticipantId :=
  ((state.rooms.lookup roomId).map fun room => room.members.keys).getD []

section Crowd

variable (state : SignalingState) (roomId : RoomId)

/-- Every participant of a room is listed once. -/
theorem memberIds_nodup : (state.memberIds roomId).Nodup := by
  unfold memberIds
  cases state.rooms.lookup roomId with
  | none => exact List.nodup_nil
  | some room => exact room.members.keys_nodup

/-- The listed participants are those with a seat. -/
theorem mem_memberIds (id : ParticipantId) :
    id ∈ state.memberIds roomId ↔ (state.seat roomId id).isSome = true := by
  simp only [memberIds, seat, member, Option.isSome_map]
  cases state.rooms.lookup roomId with
  | none => simp
  | some room =>
    simp only [Option.map_some, Option.getD_some, Option.bind_some, Table.mem_keys,
      Option.isSome_iff_exists]

/-- A room has as many members as participants. -/
theorem crowd_eq : state.crowd roomId = (state.memberIds roomId).length := by
  unfold crowd memberIds
  cases state.rooms.lookup roomId with
  | none => rfl
  | some room => simp [Room.memberCount, AList.keys, List.keys]

/-- A room whose members are all listed has no more than the list. -/
theorem crowd_le_length {ids : List ParticipantId}
    (listed : ∀ id, (state.seat roomId id).isSome = true → id ∈ ids) :
    state.crowd roomId ≤ ids.length := by
  rw [crowd_eq]
  apply List.Subperm.length_le
  apply (state.memberIds_nodup roomId).subperm
  intro id member
  exact listed id ((state.mem_memberIds roomId id).mp member)

/-- A room nobody new is seated in does not grow. -/
theorem crowd_le {before : SignalingState}
    (seat : ∀ id, (state.seat roomId id).isSome = true → (before.seat roomId id).isSome = true) :
    state.crowd roomId ≤ before.crowd roomId := by
  rw [before.crowd_eq]
  apply crowd_le_length
  intro id seated
  exact (before.mem_memberIds roomId id).mpr (seat id seated)

/-- Joining adds one member at most, and to its own room. -/
theorem crowd_join (id : ParticipantId) (joined : RoomId) (sink : WsSink)
    (displayName : Option String) :
    (state.join id joined sink displayName).2.crowd roomId ≤
      if roomId = joined then state.crowd roomId + 1 else state.crowd roomId := by
  by_cases same : roomId = joined
  · rw [if_pos same, state.crowd_eq, ← List.length_cons (a := id)]
    apply crowd_le_length
    intro other seated
    rw [seat_join] at seated
    by_cases own : other = id
    · rw [own]
      exact List.mem_cons_self
    · rw [if_neg (fun here => own here.2)] at seated
      exact List.mem_cons_of_mem _ ((state.mem_memberIds roomId other).mpr seated)
  · rw [if_neg same]
    apply crowd_le
    intro other seated
    rwa [seat_join, if_neg (fun here => same here.1)] at seated

/-- A room that is not full has a place left, unless it is yet to be made. -/
theorem crowd_lt_of_not_full {maxRoomMembers : Nat}
    (vacant : state.full roomId maxRoomMembers = false) :
    state.crowd roomId < maxRoomMembers ∨ state.crowd roomId = 0 := by
  unfold full at vacant
  unfold crowd
  cases stored : state.rooms.lookup roomId with
  | none => exact .inr rfl
  | some room =>
    rw [stored] at vacant
    exact .inl (Nat.lt_of_not_ge (by simpa using vacant))

end Crowd

end SignalingState

/-- What a step may do to the seats and to the index. -/
inductive Reseating (config : Config) (world : World) : SignalingState → Prop
  /-- Nobody is seated or unseated. -/
  | kept (after : SignalingState) (same : world.signaling.SameSeats after) :
      Reseating config world after
  /-- A connection's generation is put on record. -/
  | registered (id : ParticipantId) (gen : Nat) :
      Reseating config world (world.signaling.setConnectionGen id gen)
  /-- The closed members of a room are removed. -/
  | pruned (roomId : RoomId) : Reseating config world (world.pruned roomId)
  /-- A `Join` is admitted. -/
  | seated (id : ParticipantId) (roomId : RoomId) (sink : WsSink) (displayName : Option String)
      (admitted : Connection.admits config world roomId = true) :
      Reseating config world ((world.pruned roomId).join id roomId sink displayName).2
  /-- A `Leave` is dispatched. -/
  | parted (id : ParticipantId) (roomId : RoomId) :
      Reseating config world (world.signaling.leave id roomId).2
  /-- A participant is taken out of all its rooms. -/
  | disconnected (id : ParticipantId) :
      Reseating config world (world.signaling.disconnect id).2

namespace World

variable {config : Config} {world after : World}

/-- A section of a `Join` handler prunes its room, seats its participant, or leaves
the seats alone. -/
theorem join_reseating (id : WsSink) (connection : Connection) (pid : ParticipantId) (first : Bool)
    (request : JoinRequest) (stage : JoinStage) :
    Reseating config world
      (connection.joinSection config world id pid first request stage).signaling := by
  cases stage with
  | prune => exact .pruned request.roomId
  | dispatch =>
    cases admitted : Connection.admits config world request.roomId with
    | true =>
      rw [(connection.joinSection_admitted config world id pid first request admitted).1]
      exact .seated _ _ _ _ admitted
    | false =>
      rw [(connection.joinSection_refused config world id pid first request admitted).1]
      exact .pruned request.roomId
  | notifyPruned | notifyRejoin | ensureRoom | storeSession | announceCount =>
    exact .kept _ (.refl _)

/-- Every step does one of the listed things to the seats. -/
theorem step_reseating (event : Event) (stepped : world.step config event = some after) :
    Reseating config world after.signaling := by
  have unchanged : ∀ state, state = world.signaling → Reseating config world state := by
    rintro _ rfl
    exact .kept _ (.refl _)
  cases world.step_outcome config after event stepped with
  | connected | writerEnded | mediaEnded | routed => exact unchanged _ rfl
  | arrived _ id connection turn present arrival =>
    cases arrival with
    | works _ _ _ _ _ signaling | accepts _ _ _ _ _ signaling | ends _ _ _ _ signaling
    | hangsUp _ _ _ _ _ signaling => exact unchanged _ signaling
    | joins => exact unchanged _ rfl
  | advanced id _ connection turn present taken =>
    cases taken with
    | works _ _ _ _ _ signaling => exact .kept _ signaling
    | registers request => exact .registered _ _
    | joins pid first request stage => exact join_reseating id connection pid first request stage
    | parts _ participant roomId _ _ _ _ signaling =>
      rw [show (world.commit id turn).signaling = turn.signaling from rfl, signaling]
      exact .parted participant roomId
    | offers _ _ _ _ _ _ _ _ signaling => exact unchanged _ signaling
    | leaves pid stage =>
      have frame := (connection.leaveSection_frame config world id pid stage).2
      rw [show (world.commit id _).signaling = _ from frame]
      cases stage with
      | disconnect => exact .disconnected pid
      | _ => exact .kept _ (.refl _)

/-- Every step keeps the members in the index. -/
theorem indexed_step (event : Event) (indexed : world.signaling.Indexed)
    (stepped : world.step config event = some after) : after.signaling.Indexed := by
  have reseating := step_reseating event stepped
  generalize after.signaling = state at reseating ⊢
  cases reseating with
  | kept _ same =>
    apply indexed.mono
    · intro roomId id seated
      rwa [same.seat] at seated
    · intro id roomId known
      exact (same.listed id roomId).mpr known
  | registered => exact indexed
  | pruned roomId => exact indexed.pruneStale roomId _
  | seated id roomId sink displayName => exact (indexed.pruneStale roomId _).join id roomId sink _
  | parted id roomId => exact indexed.leave id roomId
  | disconnected id => exact indexed.disconnect id

/-- In every state reached the members are in the index. -/
theorem indexed_of_reaches {admitted : World → Event → Prop} {e2eeRequired : Bool}
    (reached : Reaches (step config) admitted (new e2eeRequired) world) :
    world.signaling.Indexed :=
  reached.invariant (fun world => world.signaling.Indexed)
    (fun _ _ seated => by simp [new, SignalingState.new, SignalingState.seat,
      SignalingState.member] at seated)
    fun _ event _ indexed _ stepped => indexed_step event indexed stepped

/-- No room has more members than the capacity, or than one. -/
def Within (config : Config) (world : World) : Prop :=
  ∀ roomId, world.signaling.crowd roomId ≤ max 1 config.maxRoomMembers

/-- Every step keeps the rooms within the capacity. -/
theorem within_step (event : Event) (within : world.Within config)
    (stepped : world.step config event = some after) : after.Within config := by
  intro tested
  have bound := within tested
  have smaller : ∀ {state : SignalingState},
      (∀ id, (state.seat tested id).isSome = true → (world.signaling.seat tested id).isSome = true) →
        state.crowd tested ≤ max 1 config.maxRoomMembers :=
    fun seat => Nat.le_trans (SignalingState.crowd_le _ tested seat) bound
  have pruned : ∀ roomId, (world.pruned roomId).crowd tested ≤ max 1 config.maxRoomMembers :=
    fun roomId => smaller fun id seated => by
      obtain ⟨sink, found⟩ := Option.isSome_iff_exists.mp seated
      rw [world.seat_of_pruned found]
      rfl
  have reseating := step_reseating event stepped
  generalize after.signaling = state at reseating ⊢
  cases reseating with
  | kept _ same => exact smaller fun id seated => by rwa [same.seat] at seated
  | registered => exact bound
  | pruned roomId => exact pruned roomId
  | seated id roomId sink displayName admitted =>
    have grown := (world.pruned roomId).crowd_join tested id roomId sink displayName
    by_cases same : tested = roomId
    · subst same
      have vacant : (world.pruned tested).full tested config.maxRoomMembers = false := by
        simpa [Connection.admits] using admitted
      have place := (world.pruned tested).crowd_lt_of_not_full tested vacant
      rw [if_pos rfl] at grown
      omega
    · rw [if_neg same] at grown
      exact Nat.le_trans grown (pruned roomId)
  | parted id roomId =>
    apply smaller
    intro other seated
    rw [SignalingState.seat_leave] at seated
    split at seated
    · simp at seated
    · exact seated
  | disconnected id =>
    apply smaller
    intro other seated
    obtain ⟨sink, found⟩ := Option.isSome_iff_exists.mp seated
    rw [world.signaling.seat_of_disconnect id other tested found]
    rfl

/-- In every state reached the rooms are within the capacity, or have one member. -/
theorem within_of_reaches {admitted : World → Event → Prop} {e2eeRequired : Bool}
    (reached : Reaches (step config) admitted (new e2eeRequired) world) : world.Within config :=
  reached.invariant (Within config) (fun _ => Nat.zero_le _)
    fun _ event _ within _ stepped => within_step event within stepped

end World

/-- In every state reached, however the sections of the connections interleave, no
room has more members than a capacity of at least one.

Only a `Join` can make a room larger, and the section that admits it checks and inserts at
once. Whatever else changes the members takes them away or leaves them where they were. -/
theorem capacity_never_exceeded (config : Config) (e2eeRequired : Bool)
    (positive : 1 ≤ config.maxRoomMembers) {world : World}
    (reached : Reaches (World.step config) always (World.new e2eeRequired) world)
    (roomId : RoomId) (room : Room) (stored : world.signaling.rooms.lookup roomId = some room) :
    room.memberCount ≤ config.maxRoomMembers := by
  have bound := World.within_of_reaches reached roomId
  have crowd : world.signaling.crowd roomId = room.memberCount := by
    rw [SignalingState.crowd, stored]
    rfl
  omega

/-- A room for one member, which two connections find empty before either joins it. -/
theorem capacity_never_exceeded_race :
    let config := { Config.sfuDefault with maxRoomMembers := 1 }
    let events := [.connect, .connect, .join 1 ⟨1⟩ "a", .join 2 ⟨2⟩ "a", .advance 1 none,
      .advance 2 none] ++ Event.sections 1 8 ++ Event.sections 2 8
    let world := (walk (World.step config) always (World.new false) events).getD (World.new false)
    ∃ room, world.signaling.rooms.lookup "a" = some room ∧ room.memberCount ≤ 1 := by
  intro config events world
  have reached : Reaches (World.step config) always (World.new false) world :=
    walk_reaches_end _ _ _ _ (by decide +kernel)
  have present : (world.signaling.rooms.lookup "a").isSome = true := by decide +kernel
  obtain ⟨room, stored⟩ := Option.isSome_iff_exists.mp present
  exact ⟨room, stored, capacity_never_exceeded config false (by decide) reached "a" room stored⟩

end Seameet
