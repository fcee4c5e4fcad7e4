import Seameet.Library.Runs
import Seameet.Engine.Outcome

/-!
# Memberships and authentication

The authentication hook is asked once, for the first `Join` of a connection. A
later `Join` on the same connection goes straight to the hook and the dispatch,
whichever participant and room it names. As long as each later `Join` that is
admitted names a pair the hook accepted before on that connection, every
membership was authenticated on the connection its member's sink belongs to.
-/

namespace Seameet

open Library

/-- Every seat was authenticated on its connection, and so was every first
`Join` under way. -/
structure Authentic (world : World) : Prop where
  seats : ∀ roomId participant sink, world.signaling.seat roomId participant = some sink →
    Deed.authenticated sink participant roomId ∈ world.deeds
  pending : ∀ id connection request, world.connections.lookup id = some connection →
    connection.point.firstRequest = some request →
    Deed.authenticated id request.participant request.roomId ∈ world.deeds

/-- The step does not admit a later `Join` whose participant and room were never
authenticated on its connection. -/
def laterJoinAuthenticated (config : Config) (world : World) : Event → Bool
  | .advance id _ =>
      match world.task id with
      | some (.joining false request .dispatch, _) =>
          !Connection.admits config world request.roomId ||
            decide (Deed.authenticated id request.participant request.roomId ∈ world.deeds)
      | _ => true
  | _ => true

namespace Authentic

variable {config : Config} {world : World}

/-- Nobody is seated in a new server. -/
theorem new (e2eeRequired : Bool) : Authentic (World.new e2eeRequired) := by
  constructor
  · intro roomId participant sink seated
    simp [World.new, SignalingState.new, SignalingState.seat, SignalingState.member] at seated
  · intro id connection request present
    simp [World.new] at present

/-- A section after which every seat is an old one or authenticated, and every
first `Join` an old one or authenticated. -/
theorem commit (authentic : Authentic world) {id : WsSink} {connection : Connection}
    (present : world.connections.lookup id = some connection) (turn : Turn)
    (seats : ∀ roomId participant sink, turn.signaling.seat roomId participant = some sink →
      world.signaling.seat roomId participant = some sink ∨
        Deed.authenticated sink participant roomId ∈ world.deeds)
    (pending : ∀ request, turn.connection.point.firstRequest = some request →
      connection.point.firstRequest = some request ∨
        turn.deed = some (.authenticated id request.participant request.roomId)) :
    Authentic (world.commit id turn) := by
  constructor
  · intro roomId participant sink seated
    apply world.mem_deeds_commit
    rcases seats roomId participant sink seated with old | accepted
    · exact authentic.seats roomId participant sink old
    · exact accepted
  · intro tested other request found started
    rw [World.lookup_commit] at found
    split at found
    · rename_i same
      subst same
      cases Option.some.inj found
      rcases pending request started with old | accepted
      · exact world.mem_deeds_commit _ turn (authentic.pending _ connection request present old)
      · simp [World.commit, accepted]
    · exact world.mem_deeds_commit _ turn (authentic.pending tested other request found started)

/-- What happens at the top of a loop keeps memberships authentic. -/
theorem arrive (authentic : Authentic world) {id : WsSink} {connection : Connection}
    (present : world.connections.lookup id = some connection) {turn : Turn}
    (arrival : Arrival config world id connection turn) : Authentic (world.commit id turn) := by
  apply authentic.commit present turn
  · intro roomId participant sink seated
    left
    cases arrival with
    | works _ idle calm first same signaling => rwa [signaling] at seated
    | accepts request _ idle unbound moved signaling => rwa [signaling] at seated
    | ends _ idle unbound moved signaling => rwa [signaling] at seated
    | joins request pid => exact seated
    | hangsUp _ pid idle bound moved signaling => rwa [signaling] at seated
  · intro request started
    cases arrival with
    | works _ idle calm first => simp [first] at started
    | accepts accepted _ idle unbound moved signaling sfu deed =>
      right
      rw [moved] at started
      cases Option.some.inj started
      exact deed
    | ends _ idle unbound moved =>
      rw [moved] at started
      simp [Connection.goto, Point.firstRequest] at started
    | joins request pid => simp [World.turn, Connection.goto, Point.firstRequest] at started
    | hangsUp _ pid idle bound moved =>
      rw [moved] at started
      simp [Connection.goto, Point.firstRequest] at started

/-- A section of a `Join` handler keeps memberships authentic, if it admits no
unauthenticated later `Join`. -/
theorem join (authentic : Authentic world) {id : WsSink} {connection : Connection}
    (present : world.connections.lookup id = some connection) (pid : ParticipantId) (first : Bool)
    (request : JoinRequest) (stage : JoinStage)
    (point : connection.point = .joining first request stage)
    (named : first = false → stage = .dispatch →
      Connection.admits config world request.roomId = true →
      Deed.authenticated id request.participant request.roomId ∈ world.deeds) :
    Authentic (world.commit id (connection.joinSection config world id pid first request stage)) := by
  apply authentic.commit present
  · intro roomId participant sink seated
    cases stage with
    | prune => exact .inl (world.seat_of_pruned seated)
    | dispatch =>
      cases admitted : Connection.admits config world request.roomId with
      | false =>
        rw [(connection.joinSection_refused config world id pid first request admitted).1] at seated
        exact .inl (world.seat_of_pruned seated)
      | true =>
        rw [(connection.joinSection_admitted config world id pid first request admitted).1,
          SignalingState.seat_join] at seated
        split at seated
        · rename_i own
          right
          cases Option.some.inj seated
          rw [own.1, own.2]
          cases first with
          | false => exact named rfl rfl admitted
          | true => exact authentic.pending id connection request present (by rw [point]; rfl)
        · exact .inl (world.seat_of_pruned seated)
    | _ => exact .inl seated
  · intro started later
    exact .inl (connection.joinSection_firstRequest config world id pid first request stage point
      started later)

/-- A section of the cleanup seats nobody. -/
theorem leave (authentic : Authentic world) {id : WsSink} {connection : Connection}
    (present : world.connections.lookup id = some connection) (pid : ParticipantId)
    (stage : LeaveStage) :
    Authentic (world.commit id (connection.leaveSection config world id pid stage)) := by
  obtain ⟨seats, calm⟩ := connection.leaveSection_seats config world id pid stage
  apply authentic.commit present
  · intro roomId participant sink seated
    exact .inl (seats roomId participant sink seated)
  · intro request started
    simp [calm] at started

/-- Every step keeps memberships authentic, if it admits no unauthenticated later
`Join`. -/
theorem step (authentic : Authentic world) {event : Event} {after : World}
    (named : laterJoinAuthenticated config world event = true)
    (stepped : world.step config event = some after) : Authentic after := by
  cases world.step_outcome config after event stepped with
  | connected =>
    refine ⟨authentic.seats, ?_⟩
    intro id connection request present started
    rw [Table.lookup_insert_eq] at present
    split at present
    · cases Option.some.inj present
      simp [Point.firstRequest] at started
    · exact authentic.pending id connection request present started
  | arrived _ id connection turn present arrival => exact authentic.arrive present arrival
  | writerEnded id => exact ⟨authentic.seats, authentic.pending⟩
  | mediaEnded task => exact ⟨authentic.seats, authentic.pending⟩
  | routed source task => exact ⟨authentic.seats, authentic.pending⟩
  | advanced id answer connection turn present taken =>
    cases taken with
    | works _ calm calmAfter first same signaling =>
      apply authentic.commit present turn
      · intro roomId participant sink seated
        exact .inl (by rwa [signaling.seat] at seated)
      · intro request started
        exact .inl (first request started)
    | registers request point unbound =>
      apply authentic.commit present
      · intro roomId participant sink seated
        exact .inl seated
      · intro started later
        exact .inl (by rw [point]; exact later)
    | joins pid first request stage point bound =>
      apply authentic.join present pid first request stage point
      intro later dispatched admitted
      subst later dispatched
      simpa [laterJoinAuthenticated, World.task, present, point, admitted] using named
    | parts handled participant roomId _ point message moved signaling =>
      apply authentic.commit present turn
      · intro tested other sink seated
        rw [signaling, SignalingState.seat_leave] at seated
        split at seated
        · simp at seated
        · exact .inl seated
      · intro request started
        rw [moved] at started
        simp [Connection.goto, Point.firstRequest] at started
    | offers pid handled peers peer _ point bound moved signaling =>
      apply authentic.commit present turn
      · intro roomId participant sink seated
        exact .inl (by rwa [signaling] at seated)
      · intro request started
        rw [moved] at started
        simp [Connection.goto, Point.firstRequest] at started
    | leaves pid stage point bound => exact authentic.leave present pid stage

end Authentic

/-- In every run that admits later `Join`s only for pairs authenticated before on
their connection, every member of a room was authenticated for it on the
connection its sink belongs to.

The invariant says it of the seats and of the first `Join`s under way. A first `Join` is
authenticated by its handler, and the later ones are those that the condition is about. -/
theorem membership_authenticated (config : Config) (e2eeRequired : Bool) {world : World}
    (reached : Reaches (World.step config)
      (fun state event => laterJoinAuthenticated config state event = true)
      (World.new e2eeRequired) world)
    (roomId : RoomId) (participant : ParticipantId) (member : Member)
    (seated : world.signaling.member roomId participant = some member) :
    Deed.authenticated member.sink participant roomId ∈ world.deeds := by
  have authentic : Authentic world :=
    reached.invariant Authentic (.new e2eeRequired) fun before event after held named stepped =>
      held.step named stepped
  exact authentic.seats roomId participant member.sink (by simp [SignalingState.seat, seated])

/-- A connection joins a room and joins it again. -/
def rejoinRun : List Event :=
  .connect :: Event.firstJoin 1 ⟨1⟩ "a" ++ Event.laterJoin 1 ⟨1⟩ "a"

/-- The condition is met by a run with a later `Join`. -/
theorem membership_authenticated_rejoin :
    let world := (walk (World.step .sfuDefault)
      (fun state event => laterJoinAuthenticated .sfuDefault state event = true)
      (World.new false) rejoinRun).getD (World.new false)
    Deed.authenticated 1 ⟨1⟩ "a" ∈ world.deeds := by
  intro world
  have reached : Reaches (World.step .sfuDefault)
      (fun state event => laterJoinAuthenticated .sfuDefault state event = true)
      (World.new false) world := walk_reaches_end _ _ _ _ (by decide +kernel)
  exact membership_authenticated .sfuDefault false reached "a" ⟨1⟩
    (.withDisplayName ⟨1⟩ 1 none) (by decide +kernel)

/-- A connection authenticated for one participant and room seats another
participant in another room. -/
theorem later_join_unauthenticated :
    ∃ world, Reaches (World.step .sfuDefault) always (World.new false) world ∧
      world.signaling.seat "b" ⟨2⟩ = some 1 ∧
      world.deeds = [.joined 1 ⟨2⟩ "b", .joined 1 ⟨1⟩ "a", .registered 1 ⟨1⟩,
        .authenticated 1 ⟨1⟩ "a"] := by
  let events := .connect :: Event.firstJoin 1 ⟨1⟩ "a" ++ Event.laterJoin 1 ⟨2⟩ "b"
  refine ⟨(walk (World.step .sfuDefault) always (World.new false) events).getD (World.new false),
    walk_reaches_end _ _ _ _ (by decide +kernel), ?_, ?_⟩
  · decide +kernel
  · decide +kernel

end Seameet
