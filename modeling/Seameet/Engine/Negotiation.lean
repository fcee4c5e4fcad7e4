import Seameet.Library.Runs
import Seameet.Engine.Outcome

/-!
# Negotiating after a `Join`

An offer finds its room through the sender's session, and the room's map through
the room. Both are stored by the hook of a `Join`, before its dispatch, and both
are dropped by the cleanup after a connection, in sections long after the one
that decided to drop them. So an admitted `Join` finds both in place only if no
cleanup has come between.

Two things are known of a participant whose last `Join` stands, on a connection
that is open: its session names the room, or a `Join` handler of its own will
store the session again; and the room has a map, or a `Join` handler will make it.
The runs considered are those in which no cleanup drops a room or a session
against this, and no `Join` is dispatched for another participant or room than
the session is for.
-/

namespace Seameet

open Library

/-- The connection and the room of a participant's last admitted `Join`, none once
a `Leave` from that room came. -/
def lastJoin (participant : ParticipantId) : List Deed → Option (WsSink × RoomId)
  | [] => none
  | .joined id other roomId :: older =>
      if other = participant then some (id, roomId) else lastJoin participant older
  | .left other roomId :: older =>
      (lastJoin participant older).filter fun last =>
        !decide (other = participant ∧ last.2 = roomId)
  | _ :: older => lastJoin participant older

/-- A `Join` handler is under way. -/
def Point.handlesJoin : Point → Bool
  | .joining _ _ _ => true
  | _ => false

namespace Connection

/-- A `Join` handler of the participant's own. -/
def joinsFor (pid : ParticipantId) (connection : Connection) : Bool :=
  match connection.point with
  | .joining _ _ _ => decide (connection.participantId = some pid)
  | _ => false

/-- A `Join` handler that will yet make sure of the room. -/
def ensures (roomId : RoomId) (connection : Connection) : Bool :=
  match connection.point with
  | .joining _ request stage => decide (request.roomId = roomId) && !stage.ensured
  | _ => false

/-- A `Join` handler that has made sure of the room. -/
def relies (roomId : RoomId) (connection : Connection) : Bool :=
  match connection.point with
  | .joining _ request stage => decide (request.roomId = roomId) && stage.ensured
  | _ => false

end Connection

namespace World

/-- One of the connections that count runs a `Join` handler of the participant. -/
def joining (world : World) (counts : WsSink → Connection → Bool) (pid : ParticipantId) : Bool :=
  decide (world.connections.Any fun id connection =>
    counts id connection = true ∧ connection.joinsFor pid = true)

/-- A `Join` handler will yet make sure of the room. -/
def ensuring (world : World) (roomId : RoomId) : Bool :=
  decide (world.connections.Any fun _ connection => connection.ensures roomId = true)

/-- Whether a connection's loop is still running. -/
def isOpen (world : World) (id : WsSink) : Bool :=
  ((world.connections.lookup id).map fun connection => connection.point.isOpen).getD false

/-- A participant's last `Join`, if it stands and its connection is open. -/
def openJoin (world : World) (participant : ParticipantId) : Option (WsSink × RoomId) :=
  (lastJoin participant world.deeds).filter fun last => world.isOpen last.1

/-- Somebody's open `Join` is of the room, or a `Join` handler relies on it. -/
def inUse (world : World) (roomId : RoomId) : Bool :=
  (world.deeds.any fun deed =>
    match deed with
    | .joined _ participant _ => decide ((world.openJoin participant).map Prod.snd = some roomId)
    | _ => false) ||
    decide (world.connections.Any fun _ connection => connection.relies roomId = true)

/-- The participant's session names the room, or will be stored again by another
connection. -/
def namesRoom (world : World) (id : WsSink) (pid : ParticipantId) (roomId : RoomId) : Bool :=
  decide (world.sfu.currentRoom pid = some roomId) || world.joining (others id) pid

end World

/-- The step leaves every open `Join` its session and its room.

An admitted `Join` finds that the session of the participant it names is for its
room, and any other dispatch of a `Join` that the session of the connection's own
participant is still for the room of its open `Join`, or in either case that
another connection of the participant is about to store the session. A cleanup
drops a room that is not in use, or that a `Join` handler is about to make, and a
session whose participant has no open `Join`, or is about to join. -/
def keepsSessions (config : Config) (world : World) : Event → Bool
  | .advance id _ =>
      match world.task id with
      | some (.joining _ request .dispatch, some pid) =>
          let admitted := Connection.admits config world request.roomId
          (!admitted || world.namesRoom id request.participant request.roomId) &&
            ((admitted && decide (pid = request.participant)) ||
              (world.openJoin pid).all fun last => world.namesRoom id pid last.2)
      | some (.leaving (.dropRoom roomId _), _) => !world.inUse roomId || world.ensuring roomId
      | some (.leaving .dropSession, some pid) =>
          (world.openJoin pid).isNone || world.joining World.everyone pid
      | _ => true
  | _ => true

/-- Every open `Join` has its session and its room, or a handler is about to store
the one and make the other. -/
structure Negotiable (world : World) : Prop where
  session : ∀ participant last, world.openJoin participant = some last →
    world.sfu.currentRoom participant = some last.2 ∨
      world.joining World.everyone participant = true
  room : ∀ roomId, world.inUse roomId = true →
    (world.sfu.roomPeers roomId).isSome = true ∨ world.ensuring roomId = true

namespace Negotiable

variable {config : Config} {world : World} {id : WsSink} {connection : Connection}
variable {participant : ParticipantId} {roomId : RoomId}

/-- No `Join` handler, none for anybody. -/
theorem idle_joinsFor (idle : connection.point.handlesJoin = false) :
    connection.joinsFor participant = false := by
  cases point : connection.point with
  | joining => simp [point, Point.handlesJoin] at idle
  | _ => simp [Connection.joinsFor, point]

/-- No `Join` handler, none that will make a room. -/
theorem idle_ensures (idle : connection.point.handlesJoin = false) :
    connection.ensures roomId = false := by
  cases point : connection.point with
  | joining => simp [point, Point.handlesJoin] at idle
  | _ => simp [Connection.ensures, point]

/-- No `Join` handler, none that relies on a room. -/
theorem idle_relies (idle : connection.point.handlesJoin = false) :
    connection.relies roomId = false := by
  cases point : connection.point with
  | joining => simp [point, Point.handlesJoin] at idle
  | _ => simp [Connection.relies, point]

/-- A calm connection runs no `Join` handler. -/
theorem calm_handlesJoin {point : Point} (calm : point.calm = true) :
    point.handlesJoin = false := by
  cases point with
  | joining | leaving | ended => simp [Point.calm] at calm
  | _ => rfl

/-- A last `Join` was admitted. -/
theorem joined_of_lastJoin {last : WsSink × RoomId} {deeds : List Deed}
    (latest : lastJoin participant deeds = some last) :
    Deed.joined last.1 participant last.2 ∈ deeds := by
  induction deeds with
  | nil => simp [lastJoin] at latest
  | cons deed older inductionHypothesis =>
    cases deed with
    | joined joiner other room =>
      simp only [lastJoin] at latest
      split at latest
      · rename_i same
        cases latest
        exact same ▸ List.mem_cons_self
      · exact List.mem_cons_of_mem _ (inductionHypothesis latest)
    | left other room =>
      exact List.mem_cons_of_mem _ (inductionHypothesis (Option.filter_eq_some_iff.mp latest).1)
    | authenticated | registered => exact List.mem_cons_of_mem _ (inductionHypothesis latest)

/-- A room is in use by an open `Join` or by a handler. -/
theorem inUse_iff :
    world.inUse roomId = true ↔
      (∃ participant joiner, world.openJoin participant = some (joiner, roomId)) ∨
        ∃ id connection, world.connections.lookup id = some connection ∧
          connection.relies roomId = true := by
  rw [World.inUse, Bool.or_eq_true, decide_eq_true_eq]
  apply or_congr _ Iff.rfl
  rw [List.any_eq_true]
  constructor
  · rintro ⟨deed, _, used⟩
    cases deed with
    | joined joiner participant room =>
      simp only [decide_eq_true_eq, Option.map_eq_some_iff] at used
      obtain ⟨⟨other, _⟩, latest, rfl⟩ := used
      exact ⟨participant, other, latest⟩
    | authenticated | registered | left => simp at used
  · rintro ⟨participant, joiner, latest⟩
    have joined := joined_of_lastJoin (Option.filter_eq_some_iff.mp latest).1
    exact ⟨_, joined, by simp [latest]⟩

/-- A `Join` handler of a participant after a section: another connection's, or
what this one's goes on to. -/
theorem joining_commit {turn : Turn} {counts : WsSink → Connection → Bool}
    (joining : world.joining counts participant = true)
    (present : world.connections.lookup id = some connection)
    (own : counts id connection = true → connection.joinsFor participant = true →
      turn.connection.joinsFor participant = true) :
    (world.commit id turn).joining World.everyone participant = true := by
  rw [World.joining, decide_eq_true_eq] at joining ⊢
  obtain ⟨other, earlier, found, counted, joins⟩ := joining
  by_cases same : other = id
  · subst same
    rw [present] at found
    cases found
    exact ⟨_, turn.connection, by rw [World.lookup_commit, if_pos rfl], rfl, own counted joins⟩
  · exact ⟨other, earlier, by rwa [World.lookup_commit, if_neg same], rfl, joins⟩

/-- A handler that will make a room after a section. -/
theorem ensuring_commit {turn : Turn} (ensuring : world.ensuring roomId = true)
    (present : world.connections.lookup id = some connection)
    (own : connection.ensures roomId = true →
      turn.connection.ensures roomId = true ∨ (turn.sfu.roomPeers roomId).isSome = true) :
    (turn.sfu.roomPeers roomId).isSome = true ∨ (world.commit id turn).ensuring roomId = true := by
  rw [World.ensuring, decide_eq_true_eq] at ensuring ⊢
  obtain ⟨other, earlier, found, ensures⟩ := ensuring
  by_cases same : other = id
  · subst same
    rw [present] at found
    cases found
    rcases own ensures with still | made
    · exact .inr ⟨_, turn.connection, by rw [World.lookup_commit, if_pos rfl], still⟩
    · exact .inl made
  · exact .inr ⟨other, earlier, by rwa [World.lookup_commit, if_neg same], ensures⟩

/-- An open `Join` after a section that opens no connection and joins nobody was
open before. -/
theorem openJoin_commit {turn : Turn} {last : WsSink × RoomId}
    (latest : (world.commit id turn).openJoin participant = some last)
    (present : world.connections.lookup id = some connection)
    (deeds : lastJoin participant (turn.deed.toList ++ world.deeds) = some last →
      lastJoin participant world.deeds = some last)
    (opens : turn.connection.point.isOpen = true → connection.point.isOpen = true) :
    world.openJoin participant = some last := by
  rw [World.openJoin, Option.filter_eq_some_iff] at latest ⊢
  refine ⟨deeds latest.1, ?_⟩
  have open_ := latest.2
  simp only [World.isOpen, World.lookup_commit] at open_ ⊢
  by_cases same : last.1 = id
  · rw [if_pos same] at open_
    rw [same, present]
    exact opens open_
  · rwa [if_neg same] at open_

/-- A section that joins nobody: it keeps the sessions of open `Join`s and the rooms
in use, or leaves it to a handler to store or make them again. -/
theorem steady (negotiable : Negotiable world)
    (present : world.connections.lookup id = some connection) (turn : Turn)
    (deeds : ∀ participant last,
      lastJoin participant (turn.deed.toList ++ world.deeds) = some last →
      lastJoin participant world.deeds = some last)
    (opens : turn.connection.point.isOpen = true → connection.point.isOpen = true)
    (sessions : ∀ participant last, world.openJoin participant = some last →
      world.sfu.currentRoom participant = some last.2 →
      turn.sfu.currentRoom participant = some last.2 ∨
        (world.commit id turn).joining World.everyone participant = true)
    (rooms : ∀ roomId, world.inUse roomId = true →
      (world.sfu.roomPeers roomId).isSome = true →
      (turn.sfu.roomPeers roomId).isSome = true ∨ (world.commit id turn).ensuring roomId = true)
    (joins : ∀ participant, connection.joinsFor participant = true →
      turn.connection.joinsFor participant = true)
    (ensures : ∀ roomId, connection.ensures roomId = true →
      turn.connection.ensures roomId = true ∨ (turn.sfu.roomPeers roomId).isSome = true)
    (relies : ∀ roomId, turn.connection.relies roomId = true →
      connection.relies roomId = true ∨ (turn.sfu.roomPeers roomId).isSome = true) :
    Negotiable (world.commit id turn) := by
  constructor
  · intro participant last latest
    have before := openJoin_commit latest present (deeds participant last) opens
    rcases negotiable.session participant last before with named | joining
    · exact sessions participant last before named
    · exact .inr (joining_commit joining present fun _ => joins participant)
  · intro roomId used
    have kept : world.inUse roomId = true →
        (turn.sfu.roomPeers roomId).isSome = true ∨
          (world.commit id turn).ensuring roomId = true := by
      intro before
      rcases negotiable.room roomId before with there | ensuring
      · exact rooms roomId before there
      · exact ensuring_commit ensuring present (ensures roomId)
    rcases inUse_iff.mp used with ⟨participant, joiner, latest⟩ | ⟨other, handler, found, relied⟩
    · have before := openJoin_commit latest present (deeds participant _) opens
      exact kept (inUse_iff.mpr (.inl ⟨participant, joiner, before⟩))
    · rw [World.lookup_commit] at found
      split at found
      · cases found
        rcases relies roomId relied with before | made
        · exact kept (inUse_iff.mpr (.inr ⟨id, connection, present, before⟩))
        · exact .inl made
      · exact kept (inUse_iff.mpr (.inr ⟨other, handler, found, relied⟩))

/-- A section of a connection that neither joins nor leaves, before and after it,
and keeps sessions and rooms. -/
theorem quiet (negotiable : Negotiable world)
    (present : world.connections.lookup id = some connection) (turn : Turn)
    (deeds : ∀ participant last,
      lastJoin participant (turn.deed.toList ++ world.deeds) = some last →
      lastJoin participant world.deeds = some last)
    (opens : turn.connection.point.isOpen = true → connection.point.isOpen = true)
    (before : connection.point.handlesJoin = false)
    (later : turn.connection.point.handlesJoin = false)
    (sessions : ∀ pid, turn.sfu.currentRoom pid = world.sfu.currentRoom pid)
    (rooms : turn.sfu.rooms = world.sfu.rooms) : Negotiable (world.commit id turn) := by
  apply negotiable.steady present turn deeds opens
  · intro participant last _ named
    left
    rwa [sessions]
  · intro roomId _ there
    left
    rwa [SfuServer.roomPeers, rooms]
  · intro participant joins
    simp [idle_joinsFor before] at joins
  · intro roomId ensures
    simp [idle_ensures before] at ensures
  · intro roomId relies
    simp [idle_relies later] at relies

/-- What happens at the top of a loop. -/
theorem arrive (negotiable : Negotiable world) (hooks : config.hooks = .sfu)
    (present : world.connections.lookup id = some connection) {turn : Turn}
    (arrival : Arrival config world id connection turn) : Negotiable (world.commit id turn) := by
  have before : connection.point.handlesJoin = false := by
    cases arrival with
    | works _ idle | accepts _ _ idle | ends _ idle | joins _ _ idle | hangsUp _ _ idle =>
      rw [idle]
      rfl
  have opens : turn.connection.point.isOpen = true → connection.point.isOpen = true := by
    intro _
    cases arrival with
    | works _ idle | accepts _ _ idle | ends _ idle | joins _ _ idle | hangsUp _ _ idle =>
      rw [idle]
      rfl
  cases arrival with
  | works _ idle calm first same signaling sfu deed =>
    exact negotiable.quiet present turn (by simp [deed]) opens before (calm_handlesJoin calm)
      (fun _ => by rw [sfu]) (by rw [sfu])
  | accepts request _ idle unbound moved signaling sfu deed =>
    exact negotiable.quiet present turn (by simp [deed, lastJoin]) opens before
      (by rw [moved]; rfl) (fun _ => by rw [sfu]) (by rw [sfu])
  | ends _ idle unbound moved signaling sfu deed =>
    exact negotiable.quiet present turn (by simp [deed]) opens before (by rw [moved]; rfl)
      (fun _ => by rw [sfu]) (by rw [sfu])
  | hangsUp _ pid idle bound moved signaling sfu deed =>
    exact negotiable.quiet present turn (by simp [deed]) opens before (by rw [moved]; rfl)
      (fun _ => by rw [sfu]) (by rw [sfu])
  | joins request pid idle bound =>
    apply negotiable.steady present
    · exact fun _ _ latest => latest
    · exact opens
    · exact fun _ _ _ named => .inl named
    · exact fun _ _ there => .inl there
    · intro participant joins
      simp [idle_joinsFor before] at joins
    · intro roomId ensures
      simp [idle_ensures before] at ensures
    · intro roomId relies
      simp [Connection.relies, World.turn, Connection.goto, Config.joinStart, hooks,
        JoinStage.ensured] at relies

/-- A connection is bound and starts its `Join` handler. -/
theorem register (negotiable : Negotiable world) (hooks : config.hooks = .sfu)
    (present : world.connections.lookup id = some connection) (request : JoinRequest)
    (point : connection.point = .register request) :
    Negotiable (world.commit id (connection.registerSection config world id request)) := by
  have before : connection.point.handlesJoin = false := by rw [point]; rfl
  apply negotiable.steady present
  · exact fun _ _ latest => latest
  · intro _
    rw [point]
    rfl
  · exact fun _ _ _ named => .inl named
  · exact fun _ _ there => .inl there
  · intro participant joins
    simp [idle_joinsFor before] at joins
  · intro roomId ensures
    simp [idle_ensures before] at ensures
  · intro roomId relies
    simp [Connection.relies, Connection.registerSection, World.turn, Config.joinStart, hooks,
      JoinStage.ensured] at relies

section Join

variable (pid : ParticipantId) (first : Bool) (request : JoinRequest)

/-- A section of a `Join` handler up to its dispatch: it goes on to store the
session and to make the room, or has. -/
theorem join_on (negotiable : Negotiable world)
    (present : world.connections.lookup id = some connection) (turn : Turn)
    {stage next : JoinStage} (point : connection.point = .joining first request stage)
    (on : turn.connection = connection.goto (.joining first request next))
    (deed : turn.deed = none)
    (sessions : ∀ participant last, world.sfu.currentRoom participant = some last →
      turn.sfu.currentRoom participant = some last ∨ connection.participantId = some participant)
    (rooms : ∀ roomId, (world.sfu.roomPeers roomId).isSome = true →
      (turn.sfu.roomPeers roomId).isSome = true)
    (ensured : stage.ensured = next.ensured ∨ (turn.sfu.roomPeers request.roomId).isSome = true) :
    Negotiable (world.commit id turn) := by
  apply negotiable.steady present turn (by simp [deed])
  · intro _
    rw [point]
    rfl
  · intro participant last _ named
    apply (sessions participant last.2 named).imp_right
    intro own
    rw [World.joining, decide_eq_true_eq]
    refine ⟨id, turn.connection, by rw [World.lookup_commit, if_pos rfl], rfl, ?_⟩
    simp [on, Connection.goto, Connection.joinsFor, own]
  · exact fun roomId _ there => .inl (rooms roomId there)
  · intro participant joins
    unfold Connection.joinsFor at joins ⊢
    simpa [point, on, Connection.goto] using joins
  · intro roomId ensures
    unfold Connection.ensures at ensures ⊢
    simp only [point, on, Connection.goto, Bool.and_eq_true, decide_eq_true_eq] at ensures ⊢
    obtain ⟨rfl, before⟩ := ensures
    exact ensured.imp (fun same => ⟨rfl, by rwa [← same]⟩) (fun made => made)
  · intro roomId relies
    unfold Connection.relies at relies ⊢
    simp only [point, on, Connection.goto, Bool.and_eq_true, decide_eq_true_eq] at relies ⊢
    obtain ⟨rfl, later⟩ := relies
    exact ensured.imp (fun same => ⟨rfl, by rwa [same]⟩) (fun made => made)

/-- The dispatch of a `Join`: an admitted one finds the session for its room, and
the connection's own participant does not lose the one its open `Join` needs. -/
theorem join_dispatch (negotiable : Negotiable world)
    (present : world.connections.lookup id = some connection)
    (point : connection.point = .joining first request .dispatch)
    (bound : connection.participantId = some pid)
    (admitted : Connection.admits config world request.roomId = true →
      world.namesRoom id request.participant request.roomId = true)
    (others : ¬ (Connection.admits config world request.roomId = true ∧
        pid = request.participant) →
      ∀ last, world.openJoin pid = some last → world.namesRoom id pid last.2 = true) :
    Negotiable (world.commit id
      (connection.joinSection config world id pid first request .dispatch)) := by
  have opens : connection.point.isOpen = true := by rw [point]; rfl
  -- Whose session another connection will store keeps that connection.
  have named : ∀ participant roomId, world.namesRoom id participant roomId = true →
      world.sfu.currentRoom participant = some roomId ∨
        (world.commit id (connection.joinSection config world id pid first request
          .dispatch)).joining World.everyone participant = true := by
    intro participant roomId names
    rw [World.namesRoom, Bool.or_eq_true, decide_eq_true_eq] at names
    apply names.imp_right
    intro joining
    exact joining_commit joining present fun counted => by simp [World.others] at counted
  -- What was an open `Join` before and is the last one still.
  have earlier : ∀ participant last,
      ¬ (Connection.admits config world request.roomId = true ∧
        participant = request.participant) →
      (world.commit id (connection.joinSection config world id pid first request
        .dispatch)).openJoin participant = some last →
      world.openJoin participant = some last := by
    intro participant last apart latest
    apply openJoin_commit latest present _ fun _ => opens
    intro joined
    cases accepts : Connection.admits config world request.roomId with
    | false =>
      rwa [(connection.joinSection_refused config world id pid first request accepts).2.1] at joined
    | true =>
      rw [(connection.joinSection_admitted config world id pid first request accepts).2] at joined
      simp only [Option.toList_some, List.singleton_append, lastJoin] at joined
      rwa [if_neg] at joined
      rintro rfl
      exact apart ⟨accepts, rfl⟩
  constructor
  · intro participant last latest
    by_cases own : Connection.admits config world request.roomId = true ∧
        participant = request.participant
    · obtain ⟨accepts, rfl⟩ := own
      have joined := (Option.filter_eq_some_iff.mp latest).1
      have deed := (connection.joinSection_admitted config world id pid first request accepts).2
      rw [World.commit, deed] at joined
      simp only [Option.toList_some, List.singleton_append, lastJoin, ↓reduceIte,
        Option.some.injEq] at joined
      subst joined
      exact named _ _ (admitted accepts)
    · have before := earlier participant last own latest
      rcases negotiable.session participant last before with names | joining
      · exact .inl names
      · by_cases self : participant = pid
        · subst self
          exact named _ _ (others own last before)
        · right
          apply joining_commit joining present
          intro _ joins
          simp [Connection.joinsFor, point, bound, Ne.symm self] at joins
  · intro roomId used
    have kept : world.inUse roomId = true →
        ((connection.joinSection config world id pid first request
            .dispatch).sfu.roomPeers roomId).isSome = true ∨
          (world.commit id (connection.joinSection config world id pid first request
            .dispatch)).ensuring roomId = true := by
      intro before
      rcases negotiable.room roomId before with there | ensuring
      · exact .inl there
      · apply ensuring_commit ensuring present
        intro ensures
        simp [Connection.ensures, point, JoinStage.ensured] at ensures
    rcases inUse_iff.mp used with ⟨participant, joiner, latest⟩ | ⟨other, handler, found, relied⟩
    · apply kept
      by_cases own : Connection.admits config world request.roomId = true ∧
          participant = request.participant
      · -- The room of the new open `Join` is the one this handler relied on.
        obtain ⟨accepts, rfl⟩ := own
        have joined := (Option.filter_eq_some_iff.mp latest).1
        have deed := (connection.joinSection_admitted config world id pid first request accepts).2
        rw [World.commit, deed] at joined
        simp only [Option.toList_some, List.singleton_append, lastJoin, ↓reduceIte,
          Option.some.injEq, Prod.mk.injEq] at joined
        refine inUse_iff.mpr (.inr ⟨id, connection, present, ?_⟩)
        simp [Connection.relies, point, JoinStage.ensured, joined.2]
      · exact inUse_iff.mpr (.inl ⟨participant, joiner, earlier participant _ own latest⟩)
    · rw [World.lookup_commit] at found
      split at found
      · cases found
        have none : (connection.joinSection config world id pid first request
          .dispatch).connection.relies roomId = false := rfl
        simp [none] at relied
      · exact kept (inUse_iff.mpr (.inr ⟨other, handler, found, relied⟩))

/-- Every section of a `Join` handler. -/
theorem join (negotiable : Negotiable world)
    (present : world.connections.lookup id = some connection) (stage : JoinStage)
    (point : connection.point = .joining first request stage)
    (bound : connection.participantId = some pid)
    (kept : keepsSessions config world (.advance id none) = true) :
    Negotiable (world.commit id
      (connection.joinSection config world id pid first request stage)) := by
  cases stage with
  | prune | notifyPruned | notifyRejoin =>
    exact negotiable.join_on first request present _ point rfl rfl (fun _ _ named => .inl named)
      (fun _ there => there) (.inl rfl)
  | ensureRoom =>
    have made : ∀ roomId, roomId = request.roomId ∨ (world.sfu.roomPeers roomId).isSome = true →
        ((world.sfu.ensureRoom request.roomId).roomPeers roomId).isSome = true := by
      intro roomId there
      simpa [world.sfu.roomPeers_ensureRoom] using there
    have named : ∀ participant, (world.sfu.ensureRoom request.roomId).currentRoom participant =
        world.sfu.currentRoom participant :=
      fun participant => world.sfu.currentRoom_ensureRoom participant request.roomId
    exact negotiable.join_on first request present _ point rfl rfl
      (fun participant _ before => .inl ((named participant).trans before)) (fun roomId there => made roomId (.inr there)) (.inr (made request.roomId (.inl rfl)))
  | storeSession =>
    refine negotiable.join_on first request present _ point rfl rfl ?_ (fun _ there => there)
      (.inl rfl)
    intro participant last named
    by_cases own : participant = pid
    · exact .inr (own ▸ bound)
    · left
      rw [← named]
      exact SfuServer.currentRoom_storeSession_ne _ _ _ _ own
  | announceCount =>
    exact negotiable.join_on first request present _ point rfl rfl (fun _ _ named => .inl named)
      (fun _ there => there) (.inl rfl)
  | dispatch =>
    simp only [keepsSessions, World.task, present, Option.map_some, point, bound, Bool.and_eq_true,
      Bool.or_eq_true, Bool.not_eq_true', decide_eq_true_eq] at kept
    apply negotiable.join_dispatch pid first request present point bound
    · intro accepts
      apply kept.1.resolve_left
      simp [accepts]
    · intro apart last latest
      have safe := kept.2.resolve_left apart
      simpa [latest] using safe

end Join

section Leave

variable (pid : ParticipantId)

/-- A section of the cleanup: it drops no room in use and no session needed. -/
theorem leave (negotiable : Negotiable world)
    (present : world.connections.lookup id = some connection) (stage : LeaveStage)
    (point : connection.point = .leaving stage) (bound : connection.participantId = some pid)
    (kept : keepsSessions config world (.advance id none) = true) :
    Negotiable (world.commit id (connection.leaveSection config world id pid stage)) := by
  have before : connection.point.handlesJoin = false := by rw [point]; rfl
  have later : (connection.leaveSection config world id pid stage).connection.point.isOpen = false ∧
      (connection.leaveSection config world id pid stage).connection.point.handlesJoin = false := by
    rcases connection.leaveSection_point config world id pid stage with ended | ⟨next, on⟩
    · rw [ended]
      exact ⟨rfl, rfl⟩
    · rw [on]
      exact ⟨rfl, rfl⟩
  have deed := (connection.leaveSection_frame config world id pid stage).1
  apply negotiable.steady present
  · simp [deed]
  · simp [later.1]
  · intro participant last latest named
    by_cases drops : stage = .dropSession ∧ participant = pid
    · obtain ⟨rfl, rfl⟩ := drops
      right
      simp only [keepsSessions, World.task, present, Option.map_some, point, bound, latest,
        Option.isNone_some, Bool.false_or] at kept
      apply joining_commit kept present
      intro _ joins
      simp [idle_joinsFor before] at joins
    · left
      rw [connection.leaveSection_currentRoom config world id pid stage participant, named]
      rintro rfl rfl
      exact drops ⟨rfl, rfl⟩
  · intro roomId used there
    by_cases drops : ∃ rest, stage = .dropRoom roomId rest
    · obtain ⟨rest, rfl⟩ := drops
      simp only [keepsSessions, World.task, present, Option.map_some, point, used, Bool.not_true,
        Bool.false_or] at kept
      apply ensuring_commit kept present
      intro ensures
      simp [idle_ensures before] at ensures
    · left
      rw [connection.leaveSection_roomPeers config world id pid stage roomId]
      · exact there
      · rintro next rest rfl rfl
        exact drops ⟨rest, rfl⟩
  · intro participant joins
    simp [idle_joinsFor before] at joins
  · intro roomId ensures
    simp [idle_ensures before] at ensures
  · intro roomId relies
    simp [idle_relies later.2] at relies

end Leave

/-- Nobody has joined a new server. -/
theorem new (e2eeRequired : Bool) : Negotiable (World.new e2eeRequired) := by
  constructor
  · intro participant last latest
    simp [World.openJoin, World.new, lastJoin] at latest
  · intro roomId used
    rcases inUse_iff.mp used with ⟨participant, joiner, latest⟩ | ⟨id, connection, found, _⟩
    · simp [World.openJoin, World.new, lastJoin] at latest
    · simp [World.new] at found

/-- A new connection has joined nothing. -/
theorem connected (negotiable : Negotiable world) (fresh : world.Fresh)
    (recorded : world.Recorded) (connection : Connection)
    (idle : connection.point.handlesJoin = false) :
    Negotiable { world with
      connections := world.connections.insert world.nextConnection connection
      nextConnection := world.nextConnection + 1 } := by
  have absent := fresh world.nextConnection (Nat.le_refl _)
  have kept : ∀ id earlier, world.connections.lookup id = some earlier →
      (world.connections.insert world.nextConnection connection).lookup id = some earlier := by
    intro id earlier found
    rw [Table.lookup_insert_eq, if_neg]
    · exact found
    · rintro rfl
      simp [absent] at found
  have before : ∀ participant last,
      (lastJoin participant world.deeds).filter (fun last =>
        (((world.connections.insert world.nextConnection connection).lookup last.1).map
          fun connection => connection.point.isOpen).getD false) = some last →
      world.openJoin participant = some last := by
    intro participant last latest
    rw [World.openJoin, Option.filter_eq_some_iff] at *
    obtain ⟨joiner, found, _⟩ := recorded last.1 participant last.2 (joined_of_lastJoin latest.1)
    refine ⟨latest.1, ?_⟩
    rw [World.isOpen, found]
    simpa only [kept last.1 joiner found] using latest.2
  constructor
  · intro participant last latest
    apply (negotiable.session participant last (before participant last latest)).imp_right
    intro joining
    rw [World.joining, decide_eq_true_eq] at joining ⊢
    obtain ⟨id, earlier, found, joins⟩ := joining
    exact ⟨id, earlier, kept id earlier found, joins⟩
  · intro roomId used
    have earlier : world.inUse roomId = true := by
      rw [inUse_iff] at used ⊢
      rcases used with ⟨participant, joiner, latest⟩ | ⟨id, handler, found, relied⟩
      · exact .inl ⟨participant, joiner, before participant _ latest⟩
      · rw [Table.lookup_insert_eq] at found
        split at found
        · cases found
          simp [idle_relies idle] at relied
        · exact .inr ⟨id, handler, found, relied⟩
    apply (negotiable.room roomId earlier).imp_right
    intro ensuring
    rw [World.ensuring, decide_eq_true_eq] at ensuring ⊢
    obtain ⟨id, earlier, found, ensures⟩ := ensuring
    exact ⟨id, earlier, kept id earlier found, ensures⟩

/-- The end of a media task drops no session and no room. -/
theorem mediaEnded (negotiable : Negotiable world) (task : MediaTask) :
    Negotiable { world with sfu := world.sfu.endMediaTask task } := by
  obtain ⟨rooms, sessions, _⟩ := world.sfu.endMediaTask_frame 0 ⟨0⟩ task
  constructor
  · intro participant last latest
    rw [SfuServer.currentRoom, sessions]
    exact negotiable.session participant last latest
  · intro roomId used
    rw [SfuServer.roomPeers, rooms]
    exact negotiable.room roomId used

/-- Every step that leaves the open `Join`s their sessions and rooms. -/
theorem step (negotiable : Negotiable world) (fresh : world.Fresh) (recorded : world.Recorded)
    (hooks : config.hooks = .sfu) {event : Event} {after : World}
    (kept : keepsSessions config world event = true)
    (stepped : world.step config event = some after) : Negotiable after := by
  cases world.step_outcome config after event stepped with
  | connected => exact negotiable.connected fresh recorded _ rfl
  | arrived _ id connection turn present arrival => exact negotiable.arrive hooks present arrival
  | writerEnded id => exact ⟨negotiable.session, negotiable.room⟩
  | mediaEnded task => exact negotiable.mediaEnded task
  | routed source task => exact ⟨negotiable.session, negotiable.room⟩
  | advanced id answer connection turn present taken =>
    have kept : keepsSessions config world (.advance id none) = true := kept
    cases taken with
    | works _ calm calmAfter first same signaling sfu deed =>
      apply negotiable.quiet present turn (by simp [deed]) _ (calm_handlesJoin calm)
        (calm_handlesJoin calmAfter) sfu.currentRoom sfu.rooms
      intro _
      cases point : connection.point <;> simp [point, Point.calm] at calm <;> rfl
    | registers request point unbound => exact negotiable.register hooks present request point
    | joins pid first request stage point bound =>
      exact negotiable.join pid first request present stage point bound kept
    | parts handled participant roomId _ point message moved signaling sfu deed =>
      apply negotiable.quiet present turn _ (by simp [point, Point.isOpen]) (by rw [point]; rfl)
        (by rw [moved]; rfl) (fun _ => by rw [sfu]) (by rw [sfu])
      intro other last latest
      rw [deed] at latest
      exact (Option.filter_eq_some_iff.mp latest).1
    | offers pid handled peers peer _ point bound moved signaling sfu deed =>
      exact negotiable.quiet present turn (by simp [deed]) (by simp [point, Point.isOpen])
        (by rw [point]; rfl) (by rw [moved]; rfl) (fun _ => by rw [sfu]; rfl) (by rw [sfu]; rfl)
    | leaves pid stage point bound => exact negotiable.leave pid present stage point bound kept

/-- Between handlers nobody is joining, and no room is about to be made. -/
theorem joining_atRest (rest : world.connections.Every fun _ connection =>
      connection.point.atRest = true) :
    (∀ pid, world.joining World.everyone pid = false) ∧
      ∀ roomId, world.ensuring roomId = false := by
  have idle : ∀ id connection, world.connections.lookup id = some connection →
      connection.point.handlesJoin = false := by
    intro id connection found
    have atRest := rest id connection found
    cases point : connection.point <;> simp [point, Point.atRest] at atRest <;> rfl
  constructor
  · intro pid
    rw [World.joining, decide_eq_false_iff_not]
    rintro ⟨id, connection, found, _, joins⟩
    simp [idle_joinsFor (idle id connection found)] at joins
  · intro roomId
    rw [World.ensuring, decide_eq_false_iff_not]
    rintro ⟨id, connection, found, ensures⟩
    simp [idle_ensures (idle id connection found)] at ensures

end Negotiable

/-- With the media server's hooks, in every run that leaves the open `Join`s their
sessions and rooms, whenever no handler is under way: a participant whose last
admitted `Join` was for a room, on a connection that is still open, and which has
not left the room since, has a session that names the room, and the room has a
map, so that an offer of the participant finds it.

The invariant lets a handler under way owe the session and the room. At rest nothing is
owed, and the last admitted `Join` finds both. -/
theorem joined_can_negotiate (config : Config) (e2eeRequired : Bool) (hooks : config.hooks = .sfu)
    {world : World}
    (reached : Reaches (World.step config)
      (fun state event => keepsSessions config state event = true) (World.new e2eeRequired) world)
    (rest : world.connections.Every fun _ connection => connection.point.atRest = true)
    (participant : ParticipantId) (id : WsSink) (roomId : RoomId)
    (latest : lastJoin participant world.deeds = some (id, roomId))
    (opens : world.isOpen id = true) :
    world.sfu.currentRoom participant = some roomId ∧
      (world.sfu.roomPeers roomId).isSome = true ∧
      (world.sfu.roomPeersFor participant).isSome = true := by
  have negotiable : Negotiable world :=
    reached.invariant_with (fun state => state.Fresh ∧ state.Recorded) Negotiable
      (fun _ reached => ⟨World.fresh_of_reaches reached, World.recorded_of_reaches reached⟩)
      (.new e2eeRequired) fun before event after known held kept stepped =>
        held.step known.1 known.2 hooks kept stepped
  obtain ⟨nobody, none⟩ := Negotiable.joining_atRest rest
  have openJoin : world.openJoin participant = some (id, roomId) :=
    Option.filter_eq_some_iff.mpr ⟨latest, opens⟩
  have named : world.sfu.currentRoom participant = some roomId := by
    apply (negotiable.session participant _ openJoin).resolve_right
    simp [nobody]
  have there : (world.sfu.roomPeers roomId).isSome = true := by
    apply (negotiable.room roomId _).resolve_right
    · simp [none]
    · exact Negotiable.inUse_iff.mpr (.inl ⟨participant, id, openJoin⟩)
  refine ⟨named, there, ?_⟩
  rw [SfuServer.roomPeersFor, named]
  exact there

/-- Two participants join, and the first leaves and comes back. -/
def returnRun : List Event :=
  .connect :: Event.firstJoin 1 ⟨1⟩ "a" ++ .connect :: Event.firstJoin 2 ⟨2⟩ "a" ++
    .hangUp 1 :: Event.sections 1 10 ++ .connect :: Event.firstJoin 3 ⟨1⟩ "a"

/-- After that run the first participant finds its room. -/
theorem joined_can_negotiate_return :
    let world := (walk (World.step .sfuDefault)
      (fun state event => keepsSessions .sfuDefault state event = true)
      (World.new false) returnRun).getD (World.new false)
    world.sfu.currentRoom ⟨1⟩ = some "a" ∧ (world.sfu.roomPeers "a").isSome = true ∧
      (world.sfu.roomPeersFor ⟨1⟩).isSome = true := by
  intro world
  have reached : Reaches (World.step .sfuDefault)
      (fun state event => keepsSessions .sfuDefault state event = true)
      (World.new false) world := walk_reaches_end _ _ _ _ (by decide +kernel)
  exact joined_can_negotiate .sfuDefault false rfl reached (by decide +kernel) ⟨1⟩ 3 "a"
    (by decide +kernel) (by decide +kernel)

/-- The last participant of a room refreshes: its second connection joins between the
first one's disconnect and the cleanup of the media server, which then drops the
room and the session of the open `Join`. -/
theorem refresh_loses_session :
    ∃ world, Reaches (World.step .sfuDefault) always (World.new false) world ∧
      (world.connections.Every fun _ connection => connection.point.atRest = true) ∧
      lastJoin ⟨1⟩ world.deeds = some (2, "a") ∧
      world.isOpen 2 = true ∧
      (world.signaling.seat "a" ⟨1⟩).isSome = true ∧
      world.sfu.currentRoom ⟨1⟩ = none ∧
      (world.sfu.roomPeers "a").isSome = false := by
  let events := .connect :: Event.firstJoin 1 ⟨1⟩ "a" ++ .hangUp 1 :: Event.sections 1 2 ++
    .connect :: Event.firstJoin 2 ⟨1⟩ "a" ++ Event.sections 1 9
  refine ⟨(walk (World.step .sfuDefault) always (World.new false) events).getD (World.new false),
    walk_reaches_end _ _ _ _ (by decide +kernel), ?_, ?_, ?_, ?_, ?_, ?_⟩ <;> decide +kernel

end Seameet
