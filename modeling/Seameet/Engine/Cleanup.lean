import Seameet.Engine.Accounts
import Seameet.Engine.Capacity
import Seameet.Engine.Stepping

/-!
# What a finished connection leaves

When a connection ends, its cleanup takes the participant it is bound to out of
every room the index lists, and the index lists them all. Two things escape it.
A later `Join` may name another participant, whose membership the cleanup does
not look for. And where a newer connection of the participant is on record the
cleanup is skipped, also for rooms the newer one never joined.

In the runs considered here a connection whose generation is not on record ends
only when it holds no seat, and one that disconnects holds none for somebody
else. Then a finished connection has left no member behind.
-/

namespace Seameet

open Library

/-- The connection has not carried out its disconnect. -/
def Point.holds (point : Point) : Bool := point.isOpen || point.beforeDisconnect

namespace World

/-- A room holds a member with the connection's sink, for a participant that counts. -/
def seats (world : World) (id : WsSink) (counts : ParticipantId → Bool) : Bool :=
  decide (world.signaling.rooms.Any fun _ room =>
    room.members.Any fun pid member => member.sink = id ∧ counts pid = true)

end World

/-- The step ends no connection with members it will not remove: a stale end comes
when no member has the connection's sink, a disconnect when no other participant
has it. -/
def endsClean (world : World) : Event → Bool
  | .advance id _ =>
      match world.task id with
      | some (.leaving .checkStale, some pid) =>
          decide (world.signaling.connectionGen pid = some id) || !world.seats id fun _ => true
      | some (.leaving .disconnect, some pid) => !world.seats id fun other => other ≠ pid
      | _ => true
  | _ => true

namespace World

variable {config : Config} {world after : World} {id : WsSink} {connection : Connection}

/-- A seat is found among the members of its room. -/
theorem seats_of_seat {counts : ParticipantId → Bool} {roomId : RoomId} {pid : ParticipantId}
    (seated : world.signaling.seat roomId pid = some id) (counted : counts pid = true) :
    world.seats id counts = true := by
  obtain ⟨member, present, rfl⟩ := Option.map_eq_some_iff.mp seated
  obtain ⟨room, stored, found⟩ := Option.bind_eq_some_iff.mp present
  rw [seats, decide_eq_true_eq]
  exact ⟨roomId, room, stored, pid, member, found, rfl, counted⟩

/-- A connection that neither joins nor leaves has not carried out its disconnect. -/
theorem holds_of_calm {point : Point} (calm : point.calm = true) : point.holds = true := by
  cases point with
  | joining | leaving | ended => simp [Point.calm] at calm
  | _ => rfl

/-- Every member has the sink of a bound connection that has not carried out its
disconnect. -/
def Held (world : World) : Prop :=
  ∀ roomId pid id, world.signaling.seat roomId pid = some id →
    ∃ connection, world.connections.lookup id = some connection ∧
      connection.participantId ≠ none ∧ connection.point.holds = true

namespace Held

/-- A section of a connection, after which the seats are old ones or its own, and its
own only if it holds them. -/
theorem commit (held : world.Held) (turn : Turn)
    (seats : ∀ roomId pid other, turn.signaling.seat roomId pid = some other →
      (other ≠ id ∧ world.signaling.seat roomId pid = some other) ∨
        (other = id ∧ turn.connection.participantId ≠ none ∧
          turn.connection.point.holds = true)) : (world.commit id turn).Held := by
  intro roomId pid other seated
  rcases seats roomId pid other seated with ⟨apart, before⟩ | ⟨rfl, bound, holds⟩
  · obtain ⟨connection, present, rest⟩ := held roomId pid other before
    refine ⟨connection, ?_, rest⟩
    rwa [lookup_commit, if_neg apart]
  · exact ⟨turn.connection, by rw [lookup_commit, if_pos rfl], bound, holds⟩

/-- A section that seats nobody and goes on holding what it held. -/
theorem keep (held : world.Held) (present : world.connections.lookup id = some connection)
    (turn : Turn)
    (seats : ∀ roomId pid other, turn.signaling.seat roomId pid = some other →
      world.signaling.seat roomId pid = some other)
    (holds : connection.participantId ≠ none → connection.point.holds = true →
      turn.connection.participantId ≠ none ∧ turn.connection.point.holds = true) :
    (world.commit id turn).Held := by
  apply held.commit
  intro roomId pid other seated
  have before := seats roomId pid other seated
  by_cases own : other = id
  · subst own
    obtain ⟨found, here, bound, held⟩ := held roomId pid other before
    rw [present] at here
    cases here
    exact .inr ⟨rfl, holds bound held⟩
  · exact .inl ⟨own, before⟩

/-- A section of a `Join` handler seats on its own connection only. -/
theorem join (held : world.Held) (present : world.connections.lookup id = some connection)
    (pid : ParticipantId) (first : Bool) (request : JoinRequest) (stage : JoinStage)
    (bound : connection.participantId = some pid) :
    (world.commit id (connection.joinSection config world id pid first request stage)).Held := by
  have stays : (connection.joinSection config world id pid first request
      stage).connection.participantId ≠ none ∧ (connection.joinSection config world id pid first
        request stage).connection.point.holds = true := by
    cases stage <;> simp [Connection.joinSection, World.turn, Connection.goto, bound, Point.holds,
      Point.isOpen]
  cases stage with
  | prune =>
    exact held.keep present _ (fun _ _ _ seated => world.seat_of_pruned seated) fun _ _ => stays
  | dispatch =>
    cases admitted : Connection.admits config world request.roomId with
    | false =>
      obtain ⟨signaling, _, _⟩ :=
        connection.joinSection_refused config world id pid first request admitted
      apply held.keep present _ _ fun _ _ => stays
      intro roomId other sink seated
      rw [signaling] at seated
      exact world.seat_of_pruned seated
    | true =>
      obtain ⟨signaling, _⟩ :=
        connection.joinSection_admitted config world id pid first request admitted
      apply held.commit
      intro roomId other sink seated
      rw [signaling, SignalingState.seat_join] at seated
      by_cases own : sink = id
      · exact .inr ⟨own, stays⟩
      · left
        split at seated
        · exact absurd (Option.some.inj seated).symm own
        · exact ⟨own, world.seat_of_pruned seated⟩
  | notifyPruned | notifyRejoin | ensureRoom | storeSession | announceCount =>
    exact held.keep present _ (fun _ _ _ seated => seated) fun _ _ => stays

/-- A section of the cleanup, if it ends without members it will not remove. -/
theorem leave (held : world.Held) (indexed : world.signaling.Indexed)
    (present : world.connections.lookup id = some connection) (pid : ParticipantId)
    (stage : LeaveStage) (point : connection.point = .leaving stage)
    (bound : connection.participantId = some pid)
    (stale : stage = .checkStale → world.signaling.connectionGen pid = some id ∨
      ∀ roomId other, world.signaling.seat roomId other ≠ some id)
    (alone : stage = .disconnect → ∀ roomId other, world.signaling.seat roomId other = some id →
      other = pid) :
    (world.commit id (connection.leaveSection config world id pid stage)).Held := by
  have signaling := (connection.leaveSection_frame config world id pid stage).2
  have who : (connection.leaveSection config world id pid stage).connection.participantId ≠ none := by
    rcases connection.leaveSection_point config world id pid stage with ended | ⟨next, on⟩
    · simp [ended, Connection.goto, bound]
    · simp [on, Connection.goto, bound]
  cases stage with
  | checkStale =>
    rcases stale rfl with latest | none
    · apply held.keep present _ (fun _ _ _ seated => by rwa [signaling] at seated)
      intro _ _
      refine ⟨who, ?_⟩
      simp [Connection.leaveSection, latest, World.turn, Connection.goto, Point.holds,
        Point.isOpen, Point.beforeDisconnect]
    · apply held.commit
      intro roomId other sink seated
      rw [signaling] at seated
      refine .inl ⟨?_, seated⟩
      rintro rfl
      exact none roomId other seated
  | disconnect =>
    apply held.commit
    intro roomId other sink seated
    rw [signaling] at seated
    have before := world.signaling.seat_of_disconnect pid other roomId seated
    refine .inl ⟨?_, before⟩
    rintro rfl
    have own := alone rfl roomId other before
    rw [own, indexed.seat_disconnect pid roomId] at seated
    exact absurd seated (by simp)
  | _ =>
    apply held.keep present _ (fun _ _ _ seated => by rwa [signaling] at seated)
    intro _ holds
    simp [point, Point.holds, Point.isOpen, Point.beforeDisconnect] at holds

/-- What arrives at the top of a loop seats nobody. -/
theorem arrive (held : world.Held) (present : world.connections.lookup id = some connection)
    {turn : Turn} (arrival : Arrival config world id connection turn) :
    (world.commit id turn).Held := by
  cases arrival with
  | works _ _ calm _ same signaling =>
    apply held.keep present turn (fun _ _ _ seated => by rwa [signaling] at seated)
    exact fun bound _ => ⟨by rwa [same], holds_of_calm calm⟩
  | accepts _ _ _ unbound _ signaling | ends _ _ unbound _ signaling =>
    apply held.keep present turn (fun _ _ _ seated => by rwa [signaling] at seated)
    exact fun bound _ => absurd unbound bound
  | joins request pid _ bound =>
    exact held.keep present _ (fun _ _ _ seated => seated) fun bound _ => ⟨bound, rfl⟩
  | hangsUp _ pid _ bound moved signaling =>
    apply held.keep present turn (fun _ _ _ seated => by rwa [signaling] at seated)
    intro bound _
    rw [moved]
    exact ⟨bound, rfl⟩

/-- The next section of a connection's task, if it ends clean. -/
theorem advance (held : world.Held) (indexed : world.signaling.Indexed)
    (present : world.connections.lookup id = some connection) {answer : Option String}
    (clean : endsClean world (.advance id answer) = true) {turn : Turn}
    (taken : Section config world id connection turn) : (world.commit id turn).Held := by
  cases taken with
  | works _ calm calmAfter _ same signaling =>
    apply held.keep present turn
    · intro roomId pid other seated
      rwa [signaling.seat] at seated
    · exact fun bound _ => ⟨by rwa [same], holds_of_calm calmAfter⟩
  | registers request point unbound =>
    exact held.keep present _ (fun _ _ _ seated => seated) fun bound _ => absurd unbound bound
  | joins pid first request stage point bound =>
    exact held.join present pid first request stage bound
  | parts handled participant roomId _ point message moved signaling =>
    apply held.keep present turn
    · intro tested pid other seated
      rw [signaling, SignalingState.seat_leave] at seated
      split at seated
      · simp at seated
      · exact seated
    · intro bound _
      rw [moved]
      exact ⟨bound, rfl⟩
  | offers pid handled peers peer _ point bound moved signaling =>
    apply held.keep present turn (fun _ _ _ seated => by rwa [signaling] at seated)
    intro bound _
    rw [moved]
    exact ⟨bound, rfl⟩
  | leaves pid stage point bound =>
    have task : world.task id = some (.leaving stage, some pid) := by
      simp [World.task, present, point, bound]
    simp only [endsClean, task] at clean
    apply held.leave indexed present pid stage point bound
    · rintro rfl
      simp only [Bool.or_eq_true, decide_eq_true_eq, Bool.not_eq_true'] at clean
      refine clean.imp_right ?_
      intro none roomId other seated
      rw [seats_of_seat seated rfl] at none
      exact absurd none (by simp)
    · rintro rfl roomId other seated
      by_contra apart
      have found : world.seats id (fun other => decide (other ≠ pid)) = true :=
        seats_of_seat seated (by simp [apart])
      change (!world.seats id fun other => decide (other ≠ pid)) = true at clean
      rw [found] at clean
      exact absurd clean (by simp)

/-- Every step that ends clean keeps the members' sinks in hold. -/
theorem step (held : world.Held) (fresh : world.Fresh) (indexed : world.signaling.Indexed)
    (event : Event) (clean : endsClean world event = true)
    (stepped : world.step config event = some after) : after.Held := by
  cases world.step_outcome config after event stepped with
  | connected =>
    intro roomId pid id seated
    obtain ⟨connection, present, rest⟩ := held roomId pid id seated
    refine ⟨connection, ?_, rest⟩
    rw [Table.lookup_insert_eq, if_neg, present]
    rintro rfl
    simp [fresh world.nextConnection (Nat.le_refl _)] at present
  | arrived _ id connection turn present arrival => exact held.arrive present arrival
  | advanced id answer connection turn present taken =>
    exact held.advance indexed present clean taken
  | writerEnded | mediaEnded | routed => exact held

end Held

end World

/-- In every run whose steps end connections clean, no room holds a member with the
sink of a connection whose task has returned.

Every member is held by a connection that has not carried out its disconnect. A connection
whose task has returned holds nobody any more. -/
theorem finished_leaves_no_member (config : Config) (e2eeRequired : Bool) {world : World}
    (reached : Reaches (World.step config) (fun world event => endsClean world event = true)
      (World.new e2eeRequired) world)
    (id : WsSink) (connection : Connection)
    (present : world.connections.lookup id = some connection) (ended : connection.point = .ended)
    (roomId : RoomId) (pid : ParticipantId) (member : Member)
    (found : world.signaling.member roomId pid = some member) : member.sink ≠ id := by
  have held : world.Held := by
    apply reached.invariant_with (fun world => world.Fresh ∧ world.signaling.Indexed) World.Held
    · exact fun _ earlier => ⟨World.fresh_of_reaches earlier, World.indexed_of_reaches earlier⟩
    · intro roomId pid id seated
      simp [World.new, SignalingState.new, SignalingState.seat, SignalingState.member] at seated
    · exact fun before event after known held clean stepped =>
        held.step known.1 known.2 event clean stepped
  rintro rfl
  obtain ⟨holder, here, _, holds⟩ := held roomId pid member.sink (by rw [SignalingState.seat, found]; rfl)
  rw [present] at here
  cases here
  simp [ended, Point.holds, Point.isOpen, Point.beforeDisconnect] at holds

/-- Two participants are in a room and one of them leaves. -/
theorem finished_leaves_no_member_pair :
    let events := .connect :: Event.firstJoin 1 ⟨1⟩ "a" ++ .connect :: Event.firstJoin 2 ⟨2⟩ "a" ++
      .hangUp 2 :: Event.sections 2 10
    let world := (walk (World.step .sfuDefault) (fun world event => endsClean world event = true)
      (World.new false) events).getD (World.new false)
    ∃ member, world.signaling.member "a" ⟨1⟩ = some member ∧ member.sink ≠ 2 := by
  intro events world
  have reached : Reaches (World.step .sfuDefault) (fun world event => endsClean world event = true)
      (World.new false) world := walk_reaches_end _ _ _ _ (by decide +kernel)
  have seated : (world.signaling.member "a" ⟨1⟩).isSome = true := by decide +kernel
  obtain ⟨member, found⟩ := Option.isSome_iff_exists.mp seated
  exact ⟨member, found, finished_leaves_no_member .sfuDefault false reached 2
    { participantId := some ⟨2⟩, e2eeDeadline := false, point := .ended } rfl rfl "a" ⟨1⟩ member
    found⟩

/-- A participant in room `a` connects again and joins room `b`. Its first connection
ends without effect, and the member with that connection's sink stays in `a`. -/
theorem replaced_connection_stays :
    ∃ world connection, Reaches (World.step .sfuDefault) always (World.new false) world ∧
      world.connections.lookup 1 = some connection ∧ connection.point = .ended ∧
      world.signaling.seat "a" ⟨1⟩ = some 1 := by
  let events := .connect :: Event.firstJoin 1 ⟨1⟩ "a" ++ .connect :: Event.firstJoin 2 ⟨1⟩ "b" ++
    [.hangUp 1, .writerEnds 1, .advance 1 none]
  let world := (walk (World.step .sfuDefault) always (World.new false) events).getD (World.new false)
  have ended : world.connections.Any fun id connection =>
      id = 1 ∧ connection.point.atRest = true ∧ connection.point.isOpen = false := by
    decide +kernel
  obtain ⟨id, connection, present, rfl, rest, shut⟩ := ended
  refine ⟨world, connection, walk_reaches_end _ _ _ _ (by decide +kernel), present, ?_,
    by decide +kernel⟩
  cases point : connection.point with
  | ended => rfl
  | idle => simp [point, Point.isOpen] at shut
  | _ => simp [point, Point.atRest] at rest

end Seameet
