import Seameet.Engine.Refusal

/-!
# Reconnecting

A participant may be connected several times over. Each first `Join` puts its
connection's generation on record, and a connection that ends cleans up only if
its own generation is still the one on record. So the connection registered last
owns the participant: its memberships last as long as it is open and nobody
leaves for it, and the end of an older connection passes without effect.

An older connection has no such claim. When the last one ends it takes the
participant out of every room, whoever else is still connected.

The registration, the dispatch, the stale check and the disconnect are separate
sections. What the stale check has read is out of date once another connection is
registered before the disconnect; and a connection that was replaced may still send
a `Join` of its own. The runs considered here are those without these two races
about the participant in question. That the check does what it is for, that only
the last registered connection passes it, is a part of what is proved.
-/

namespace Seameet

open Library

/-- The connection whose generation was put on record last for a participant. -/
def latestRegistered (participant : ParticipantId) : List Deed → Option WsSink
  | [] => none
  | .registered id other :: older =>
      if other = participant then some id else latestRegistered participant older
  | _ :: older => latestRegistered participant older

/-- A connection's `Join` of a room for a participant was admitted, and no
`Leave` of the participant from the room was dispatched since. -/
def standing (id : WsSink) (participant : ParticipantId) (roomId : RoomId) : List Deed → Bool
  | [] => false
  | deed :: older =>
      decide (deed = .joined id participant roomId) ||
        (decide (deed ≠ .left participant roomId) && standing id participant roomId older)

/-- The connection has passed its stale check and is about to take the participant
out of all rooms. -/
def Connection.disconnects (participant : ParticipantId) (connection : Connection) : Bool :=
  match connection.point with
  | .leaving .disconnect => decide (connection.participantId = some participant)
  | _ => false

/-- The step puts no connection of the participant on record while another one is
about to disconnect it, and admits a `Join` naming the participant only on its last
registered connection. -/
def unraced (config : Config) (participant : ParticipantId) (world : World) : Event → Bool
  | .advance id _ =>
      match world.task id with
      | some (.register request, _) =>
          decide (request.participant ≠ participant) ||
            decide (world.connections.Every fun _ connection =>
              connection.disconnects participant = false)
      | some (.joining _ request .dispatch, _) =>
          decide (request.participant ≠ participant) ||
            !Connection.admits config world request.roomId ||
              decide (latestRegistered participant world.deeds = some id)
      | _ => true
  | _ => true

/-- What is known of a world about the connection that was registered last for a
participant. -/
structure Owned (participant : ParticipantId) (world : World) : Prop where
  /-- The generation on record is its own. -/
  recorded : ∀ id, world.signaling.connectionGen participant = some id →
    latestRegistered participant world.deeds = some id
  /-- No other connection passes the stale check. -/
  passing : ∀ id connection, world.connections.lookup id = some connection →
    connection.disconnects participant = true → latestRegistered participant world.deeds = some id
  /-- It sits where it joined. -/
  seated : ∀ roomId id connection, latestRegistered participant world.deeds = some id →
    world.connections.lookup id = some connection → connection.point.isOpen = true →
    id ∉ world.closed → standing id participant roomId world.deeds = true →
    world.signaling.seat roomId participant = some id

/-- A standing `Join` was admitted. -/
theorem joined_of_standing {id : WsSink} {participant : ParticipantId} {roomId : RoomId}
    {deeds : List Deed} (stands : standing id participant roomId deeds = true) :
    Deed.joined id participant roomId ∈ deeds := by
  induction deeds with
  | nil => simp [standing] at stands
  | cons deed older inductionHypothesis =>
    simp only [standing, Bool.or_eq_true, decide_eq_true_eq, Bool.and_eq_true] at stands
    rcases stands with same | ⟨_, stands⟩
    · exact same ▸ List.mem_cons_self
    · exact List.mem_cons_of_mem deed (inductionHypothesis stands)

/-- A connection that neither joins nor leaves is not about to disconnect anybody. -/
theorem Connection.disconnects_calm {connection : Connection} (calm : connection.point.calm = true)
    (participant : ParticipantId) : connection.disconnects participant = false := by
  unfold disconnects
  split
  · rename_i leaving
    simp [leaving, Point.calm] at calm
  · rfl

namespace Owned

variable {config : Config} {world : World} {participant : ParticipantId}

/-- Nobody has joined a new server. -/
theorem new (e2eeRequired : Bool) : Owned participant (World.new e2eeRequired) := by
  constructor
  · intro id recorded
    simp [World.new, SignalingState.new, SignalingState.connectionGen] at recorded
  · intro id connection present
    simp [World.new] at present
  · intro roomId id connection _ present
    simp [World.new] at present

/-- A section of a connection, after which the participant's last registered
connection is the only one that passes the stale check, and sits where it joined. -/
theorem commit {id : WsSink} {connection : Connection}
    (present : world.connections.lookup id = some connection) (turn : Turn)
    (recorded : ∀ other, turn.signaling.connectionGen participant = some other →
      latestRegistered participant (turn.deed.toList ++ world.deeds) = some other)
    (passing : ∀ other earlier, world.connections.lookup other = some earlier →
      (if other = id then turn.connection else earlier).disconnects participant = true →
      latestRegistered participant (turn.deed.toList ++ world.deeds) = some other)
    (seated : ∀ roomId other earlier,
      latestRegistered participant (turn.deed.toList ++ world.deeds) = some other →
      world.connections.lookup other = some earlier →
      (if other = id then turn.connection else earlier).point.isOpen = true →
      other ∉ world.closed →
      standing other participant roomId (turn.deed.toList ++ world.deeds) = true →
      turn.signaling.seat roomId participant = some other) :
    Owned participant (world.commit id turn) := by
  -- A connection after the section is its own, or stands where it stood.
  have earlier : ∀ tested moved, (world.commit id turn).connections.lookup tested = some moved →
      ∃ before, world.connections.lookup tested = some before ∧
        moved = if tested = id then turn.connection else before := by
    intro tested moved found
    rw [World.lookup_commit] at found
    by_cases same : tested = id
    · subst same
      rw [if_pos rfl] at found
      exact ⟨connection, present, by rw [if_pos rfl, Option.some.inj found]⟩
    · rw [if_neg same] at found
      exact ⟨moved, found, by rw [if_neg same]⟩
  constructor
  · exact recorded
  · intro tested moved found parting
    obtain ⟨before, there, rfl⟩ := earlier tested moved found
    exact passing tested before there parting
  · intro roomId tested moved latest found opens live stands
    obtain ⟨before, there, rfl⟩ := earlier tested moved found
    exact seated roomId tested before latest there opens live stands

/-- A section that neither registers nor joins nor leaves, puts no generation on
record and keeps the seats of the connections it leaves open. -/
theorem quiet (owned : Owned participant world) {id : WsSink} {connection : Connection}
    (present : world.connections.lookup id = some connection) (turn : Turn)
    (opens : turn.connection.point.isOpen = true → connection.point.isOpen = true)
    (silent : turn.deed = none ∨
      ∃ accepted roomId, turn.deed = some (.authenticated id accepted roomId))
    (recorded : ∀ other, turn.signaling.connectionGen participant = some other →
      world.signaling.connectionGen participant = some other)
    (passing : turn.connection.disconnects participant = true →
      latestRegistered participant world.deeds = some id)
    (kept : ∀ roomId other, latestRegistered participant world.deeds = some other →
      (other = id → turn.connection.point.isOpen = true) → other ∉ world.closed →
      world.signaling.seat roomId participant = some other →
      turn.signaling.seat roomId participant = some other) :
    Owned participant (world.commit id turn) := by
  have latest : latestRegistered participant (turn.deed.toList ++ world.deeds) =
      latestRegistered participant world.deeds := by
    rcases silent with none | ⟨accepted, roomId, some⟩
    · rw [none]
      rfl
    · rw [some]
      rfl
  have stands : ∀ other roomId,
      standing other participant roomId (turn.deed.toList ++ world.deeds) =
        standing other participant roomId world.deeds := by
    intro other roomId
    rcases silent with none | ⟨accepted, room, some⟩
    · rw [none]
      rfl
    · rw [some]
      simp [standing]
  apply commit present turn
  · intro other stored
    rw [latest]
    exact owned.recorded other (recorded other stored)
  · intro other earlier found parting
    rw [latest]
    by_cases same : other = id
    · subst same
      rw [if_pos rfl] at parting
      exact passing parting
    · rw [if_neg same] at parting
      exact owned.passing other earlier found parting
  · intro roomId other earlier registered found open_ live standing
    rw [latest] at registered
    rw [stands] at standing
    apply kept roomId other registered _ live
    · apply owned.seated roomId other earlier registered found _ live standing
      by_cases same : other = id
      · subst same
        rw [present] at found
        cases found
        exact opens (by simpa using open_)
      · simpa [same] using open_
    · intro same
      simpa [same] using open_

/-- What happens at the top of a loop. -/
theorem arrive (owned : Owned participant world) {id : WsSink} {connection : Connection}
    (present : world.connections.lookup id = some connection) {turn : Turn}
    (arrival : Arrival config world id connection turn) :
    Owned participant (world.commit id turn) := by
  have opens : turn.connection.point.isOpen = true → connection.point.isOpen = true := by
    intro _
    cases arrival with
    | works _ idle | accepts _ _ idle | ends _ idle | joins _ _ idle | hangsUp _ _ idle =>
      rw [idle]
      rfl
  have signaling : turn.signaling = world.signaling := by
    cases arrival with
    | works _ _ _ _ _ signaling | accepts _ _ _ _ _ signaling | ends _ _ _ _ signaling
    | hangsUp _ _ _ _ _ signaling => exact signaling
    | joins => rfl
  have silent : turn.deed = none ∨
      ∃ accepted roomId, turn.deed = some (.authenticated id accepted roomId) := by
    cases arrival with
    | works _ _ _ _ _ _ _ deed | ends _ _ _ _ _ _ deed | hangsUp _ _ _ _ _ _ _ deed =>
      exact .inl deed
    | accepts _ _ _ _ _ _ _ deed => exact .inr ⟨_, _, deed⟩
    | joins => exact .inl rfl
  have away : turn.connection.disconnects participant = false := by
    cases arrival with
    | works _ _ calm => exact Connection.disconnects_calm calm participant
    | accepts _ _ _ _ moved | ends _ _ _ moved | hangsUp _ _ _ _ moved =>
      rw [moved]
      rfl
    | joins => rfl
  apply owned.quiet present turn opens silent
  · intro other stored
    rwa [signaling] at stored
  · intro parting
    rw [away] at parting
    cases parting
  · intro roomId other _ _ _ seated
    rwa [signaling]

/-- Removing the closed members of a room keeps the seats of live connections. -/
theorem seat_pruned_live {roomId tested : RoomId} {sink : WsSink}
    (live : sink ∉ world.closed) (seated : world.signaling.seat tested participant = some sink) :
    (world.pruned roomId).seat tested participant = some sink := by
  rw [World.pruned, SignalingState.seat_pruneStale]
  split
  · rename_i same
    subst same
    exact Option.filter_eq_some_iff.mpr ⟨seated, by simpa [World.isClosed] using live⟩
  · exact seated

/-- The dispatch of a `Join` that is admitted, if one naming the participant is
admitted only on its last registered connection. -/
theorem admission (owned : Owned participant world) {id : WsSink} {connection : Connection}
    (present : world.connections.lookup id = some connection) (pid : ParticipantId) (first : Bool)
    (request : JoinRequest) (opens : connection.point.isOpen = true)
    (admitted : Connection.admits config world request.roomId = true)
    (latest : request.participant = participant →
      latestRegistered participant world.deeds = some id) :
    Owned participant
      (world.commit id (connection.joinSection config world id pid first request .dispatch)) := by
  obtain ⟨signaling, deed⟩ :=
    connection.joinSection_admitted config world id pid first request admitted
  have kept : latestRegistered participant
      ((connection.joinSection config world id pid first request .dispatch).deed.toList ++
        world.deeds) = latestRegistered participant world.deeds := by
    rw [deed]
    rfl
  apply commit present _
  · intro other stored
    rw [kept]
    rw [signaling] at stored
    exact owned.recorded other stored
  · intro other earlier found parting
    rw [kept]
    by_cases same : other = id
    · subst same
      rw [if_pos rfl] at parting
      cases parting
    · rw [if_neg same] at parting
      exact owned.passing other earlier found parting
  · intro roomId other earlier registered found open_ live stands
    rw [kept] at registered
    rw [deed] at stands
    rw [signaling, SignalingState.seat_join]
    by_cases here : roomId = request.roomId ∧ participant = request.participant
    · rw [latest here.2.symm] at registered
      rw [if_pos here, ← registered]
    · have before : standing other participant roomId world.deeds = true := by
        simp only [Option.toList_some, List.singleton_append, standing, Deed.joined.injEq,
          Bool.or_eq_true, decide_eq_true_eq, Bool.and_eq_true] at stands
        rcases stands with ⟨_, rfl, rfl⟩ | ⟨_, stands⟩
        · simp at here
        · exact stands
      rw [if_neg here]
      apply seat_pruned_live live
      apply owned.seated roomId other earlier registered found _ live before
      by_cases same : other = id
      · subst same
        rw [present] at found
        cases found
        exact opens
      · simpa [same] using open_

/-- A section of a `Join` handler. -/
theorem join (owned : Owned participant world) {id : WsSink} {connection : Connection}
    (present : world.connections.lookup id = some connection) (pid : ParticipantId) (first : Bool)
    (request : JoinRequest) (stage : JoinStage)
    (point : connection.point = .joining first request stage)
    (latest : stage = .dispatch → Connection.admits config world request.roomId = true →
      request.participant = participant → latestRegistered participant world.deeds = some id) :
    Owned participant
      (world.commit id (connection.joinSection config world id pid first request stage)) := by
  have opens : connection.point.isOpen = true := by rw [point]; rfl
  cases stage with
  | dispatch =>
    cases admitted : Connection.admits config world request.roomId with
    | false =>
      obtain ⟨signaling, deed, _⟩ :=
        connection.joinSection_refused config world id pid first request admitted
      apply owned.quiet present _ (fun _ => opens) (.inl deed)
      · intro other stored
        rw [signaling] at stored
        exact stored
      · intro parting
        cases parting
      · intro roomId other _ _ live seated
        rw [signaling]
        exact seat_pruned_live live seated
    | true => exact owned.admission present pid first request opens admitted (latest rfl admitted)
  | prune =>
    apply owned.quiet present _ (fun _ => opens) (.inl rfl) (fun _ stored => stored)
    · intro parting
      cases parting
    · intro roomId other _ _ live seated
      exact seat_pruned_live live seated
  | notifyPruned | notifyRejoin | ensureRoom | storeSession | announceCount =>
    apply owned.quiet present _ (fun _ => opens) (.inl rfl) (fun _ stored => stored)
    · intro parting
      cases parting
    · intro roomId other _ _ _ seated
      exact seated

/-- A connection is bound and put on record: it has not joined before, and no other
one is about to disconnect its participant. -/
theorem register (owned : Owned participant world) (recorded : world.Recorded) {id : WsSink}
    {connection : Connection} (present : world.connections.lookup id = some connection)
    (request : JoinRequest) (point : connection.point = .register request)
    (unbound : connection.participantId = none)
    (alone : request.participant = participant →
      world.connections.Every fun _ connection => connection.disconnects participant = false) :
    Owned participant (world.commit id (connection.registerSection config world id request)) := by
  have stored : ∀ other, (connection.registerSection config world id request).signaling.connectionGen
      participant = some other →
        if request.participant = participant then id = other
        else world.signaling.connectionGen participant = some other := by
    intro other gen
    change (world.signaling.setConnectionGen request.participant id).connectionGen _ = _ at gen
    rw [SignalingState.connectionGen, SignalingState.setConnectionGen, Table.lookup_insert_eq] at gen
    by_cases own : request.participant = participant
    · rw [if_pos own.symm] at gen
      rw [if_pos own]
      exact Option.some.inj gen
    · rw [if_neg fun same => own same.symm] at gen
      rwa [if_neg own]
  have latest : latestRegistered participant
      ((connection.registerSection config world id request).deed.toList ++ world.deeds) =
        if request.participant = participant then some id
        else latestRegistered participant world.deeds := rfl
  apply commit present
  · intro other gen
    have gen := stored other gen
    rw [latest]
    by_cases own : request.participant = participant
    · rw [if_pos own] at gen ⊢
      rw [gen]
    · rw [if_neg own] at gen ⊢
      exact owned.recorded other gen
  · intro other earlier found parting
    have apart : other ≠ id := by
      rintro rfl
      rw [if_pos rfl] at parting
      cases parting
    rw [if_neg apart] at parting
    rw [latest, if_neg]
    · exact owned.passing other earlier found parting
    · intro own
      rw [alone own other earlier found] at parting
      cases parting
  · intro roomId other earlier registered found open_ live stands
    have before : standing other participant roomId world.deeds = true := by
      simpa [Connection.registerSection, standing] using stands
    rw [latest] at registered
    by_cases own : request.participant = participant
    · rw [if_pos own] at registered
      cases registered
      obtain ⟨joiner, joinerPresent, bound⟩ :=
        recorded id participant roomId (joined_of_standing before)
      rw [present] at joinerPresent
      cases joinerPresent
      exact absurd unbound bound
    · rw [if_neg own] at registered
      apply owned.seated roomId other earlier registered found _ live before
      by_cases same : other = id
      · subst same
        rw [present] at found
        cases found
        rw [point]
        rfl
      · simpa [same] using open_

/-- The stale check passes only the connection whose generation is on record. -/
theorem passes (owned : Owned participant world) {id : WsSink} {connection : Connection}
    (pid : ParticipantId) (stage : LeaveStage) (bound : connection.participantId = some pid)
    (parting : (connection.leaveSection config world id pid stage).connection.disconnects
      participant = true) : latestRegistered participant world.deeds = some id := by
  cases stage with
  | checkStale =>
    simp only [Connection.leaveSection] at parting
    split at parting
    · next onRecord =>
      simp only [World.turn, Connection.goto, Connection.disconnects, bound, Option.some.injEq,
        decide_eq_true_eq] at parting
      rw [parting] at onRecord
      exact owned.recorded id onRecord
    · cases parting
  -- every other section goes on behind the disconnect
  | announce pending affected =>
    cases pending with
    | cons => cases parting
    | nil =>
      simp only [Connection.leaveSection] at parting
      split at parting <;> cases parting
  | allPeers rest | dropRoom _ rest => cases rest <;> cases parting
  | lookup roomId gone rest =>
    simp only [Connection.leaveSection] at parting
    split at parting
    · cases parting
    · cases gone <;> cases rest <;> cases parting
  | dropPeer peers roomId gone rest => cases gone <;> cases rest <;> cases parting
  | disconnect | routes | stopScreen | dropSession => cases parting

/-- A section of the cleanup: who disconnects the participant is its last registered
connection, which is not open any more. -/
theorem leave (owned : Owned participant world) {id : WsSink} {connection : Connection}
    (present : world.connections.lookup id = some connection) (pid : ParticipantId)
    (stage : LeaveStage) (point : connection.point = .leaving stage)
    (bound : connection.participantId = some pid) :
    Owned participant (world.commit id (connection.leaveSection config world id pid stage)) := by
  obtain ⟨deed, signaling⟩ := connection.leaveSection_frame config world id pid stage
  have closes : (connection.leaveSection config world id pid stage).connection.point.isOpen =
      false := by
    rcases connection.leaveSection_point config world id pid stage with ended | ⟨next, on⟩
    · rw [ended]
      rfl
    · rw [on]
      rfl
  apply owned.quiet present _ (by simp [closes]) (.inl deed)
  · intro other stored
    rw [signaling] at stored
    split at stored
    · exact world.signaling.connectionGen_of_disconnect pid participant stored
    · exact stored
  · exact owned.passes pid stage bound
  · intro roomId other registered open_ _ seated
    rw [signaling]
    split
    · have apart : participant ≠ pid := by
        rintro rfl
        have own : connection.disconnects participant = true := by
          simp [Connection.disconnects, point, bound]
        rw [owned.passing id connection present own] at registered
        simp [open_ (Option.some.inj registered).symm] at closes
      rwa [SignalingState.seat_disconnect_ne _ _ _ _ apart]
    · exact seated

/-- A dispatched `Leave` ends the standing of its participant's `Join`s of the
room, and touches no other seat. -/
theorem part (owned : Owned participant world) {id : WsSink} {connection : Connection}
    (present : world.connections.lookup id = some connection) (named : ParticipantId)
    (roomId : RoomId) (turn : Turn) (opens : connection.point.isOpen = true)
    (moved : turn.connection = connection.goto .idle)
    (signaling : turn.signaling = (world.signaling.leave named roomId).2)
    (deed : turn.deed = some (.left named roomId)) : Owned participant (world.commit id turn) := by
  have kept : latestRegistered participant (turn.deed.toList ++ world.deeds) =
      latestRegistered participant world.deeds := by
    rw [deed]
    rfl
  apply commit present turn
  · intro other stored
    rw [signaling] at stored
    rw [kept]
    exact owned.recorded other stored
  · intro other earlier found parting
    rw [kept]
    by_cases same : other = id
    · subst same
      rw [if_pos rfl, moved] at parting
      cases parting
    · rw [if_neg same] at parting
      exact owned.passing other earlier found parting
  · intro room other earlier registered found open_ live stands
    rw [kept] at registered
    rw [deed] at stands
    simp only [Option.toList_some, List.singleton_append, standing, reduceCtorEq, decide_false,
      Bool.false_or, Bool.and_eq_true, decide_eq_true_eq, ne_eq, Deed.left.injEq] at stands
    obtain ⟨apart, before⟩ := stands
    rw [signaling, SignalingState.seat_leave, if_neg (by tauto)]
    apply owned.seated room other earlier registered found _ live before
    by_cases same : other = id
    · subst same
      rw [present] at found
      cases found
      exact opens
    · simpa [same] using open_

/-- A section of a connection's task. -/
theorem advance (owned : Owned participant world) (recorded : world.Recorded) {id : WsSink}
    {answer : Option String} {connection : Connection} {turn : Turn}
    (present : world.connections.lookup id = some connection)
    (clear : unraced config participant world (.advance id answer) = true)
    (taken : Section config world id connection turn) :
    Owned participant (world.commit id turn) := by
  cases taken with
  | works _ calm calmAfter first same signaling sfu deed =>
    apply owned.quiet present turn _ (.inl deed)
    · intro other stored
      rwa [signaling.connectionGen] at stored
    · intro parting
      rw [Connection.disconnects_calm calmAfter] at parting
      cases parting
    · intro roomId other _ _ _ seated
      rwa [signaling.seat]
    · intro _
      cases point : connection.point <;> simp [point, Point.calm] at calm <;> rfl
  | registers request point unbound =>
    refine owned.register recorded present request point unbound fun own => ?_
    simpa [unraced, World.task, present, point, own] using clear
  | joins pid first request stage point bound =>
    apply owned.join present pid first request stage point
    rintro rfl admitted own
    simpa [unraced, World.task, present, point, admitted, own] using clear
  | parts handled named roomId _ point message moved signaling sfu deed =>
    exact owned.part present named roomId turn (by rw [point]; rfl) moved signaling deed
  | offers pid handled peers peer _ point bound moved signaling sfu deed =>
    apply owned.quiet present turn _ (.inl deed)
    · intro other stored
      rwa [signaling] at stored
    · intro parting
      rw [moved] at parting
      cases parting
    · intro roomId other _ _ _ seated
      rwa [signaling]
    · intro _
      rw [point]
      rfl
  | leaves pid stage point bound => exact owned.leave present pid stage point bound

/-- Every step without these races. -/
theorem step (owned : Owned participant world) (fresh : world.Fresh) (recorded : world.Recorded)
    {event : Event} {after : World} (clear : unraced config participant world event = true)
    (stepped : world.step config event = some after) : Owned participant after := by
  cases world.step_outcome config after event stepped with
  | connected =>
    have absent := fresh world.nextConnection (Nat.le_refl _)
    refine ⟨owned.recorded, ?_, ?_⟩
    · intro id connection present parting
      rw [Table.lookup_insert_eq] at present
      split at present
      · cases present
        cases parting
      · exact owned.passing id connection present parting
    · intro roomId id connection registered present open_ live stands
      rw [Table.lookup_insert_eq] at present
      split at present
      · rename_i same
        subst same
        obtain ⟨joiner, joinerPresent, _⟩ :=
          recorded _ participant roomId (joined_of_standing stands)
        simp [absent] at joinerPresent
      · exact owned.seated roomId id connection registered present open_ live stands
  | arrived _ id connection turn present arrival => exact owned.arrive present arrival
  | writerEnded id =>
    refine ⟨owned.recorded, owned.passing, ?_⟩
    intro roomId other connection registered present open_ live stands
    apply owned.seated roomId other connection registered present open_ _ stands
    exact fun closed => live (List.mem_cons_of_mem id closed)
  | mediaEnded task => exact ⟨owned.recorded, owned.passing, owned.seated⟩
  | routed source task => exact ⟨owned.recorded, owned.passing, owned.seated⟩
  | advanced id answer connection turn present taken =>
    exact owned.advance recorded present clear taken

end Owned

/-- In every run in which no connection of a participant is put on record while
another one stands between its stale check and its disconnect, and a `Join` naming
the participant is admitted only on its last registered connection, the participant
is a member of every room its last registered connection joined, with that
connection's sink, as long as the connection is open and no `Leave` came since.

The generation on record is that of the last registered connection, so only this
one passes the stale check; and it is not open any more when it disconnects the
participant. An older connection that ends is stale and takes nothing away. -/
theorem reconnect_not_undone (config : Config) (e2eeRequired : Bool) (participant : ParticipantId)
    {world : World}
    (reached : Reaches (World.step config)
      (fun state event => unraced config participant state event = true) (World.new e2eeRequired)
      world)
    (roomId : RoomId) (id : WsSink) (connection : Connection)
    (latest : latestRegistered participant world.deeds = some id)
    (present : world.connections.lookup id = some connection)
    (opens : connection.point.isOpen = true) (live : id ∉ world.closed)
    (stands : standing id participant roomId world.deeds = true) :
    ∃ member, world.signaling.member roomId participant = some member ∧ member.sink = id := by
  have owned : Owned participant world :=
    reached.invariant_with (fun state => state.Fresh ∧ state.Recorded) (Owned participant)
      (fun _ reached => ⟨World.fresh_of_reaches reached, World.recorded_of_reaches reached⟩)
      (.new e2eeRequired) fun before event after known held clear stepped =>
        held.step known.1 known.2 clear stepped
  have seated := owned.seated roomId id connection latest present opens live stands
  simpa [SignalingState.seat] using seated

/-- A participant connects again and joins again before its first connection ends. The
first connection's cleanup runs to its end: it finds itself stale. -/
def reconnectRun : List Event :=
  .connect :: Event.firstJoin 1 ⟨1⟩ "a" ++ .connect :: Event.firstJoin 2 ⟨1⟩ "a" ++
    [.hangUp 1, .writerEnds 1, .advance 1 none]

/-- The first connection of that run is done, and the second one holds the membership. -/
theorem reconnect_not_undone_overlap :
    let world := (walk (World.step .sfuDefault)
      (fun state event => unraced .sfuDefault ⟨1⟩ state event = true)
      (World.new false) reconnectRun).getD (World.new false)
    (world.connections.lookup 1).map (fun connection =>
        (connection.point.isOpen, connection.point.atRest)) = some (false, true) ∧
      ∃ member, world.signaling.member "a" ⟨1⟩ = some member ∧ member.sink = 2 := by
  intro world
  have reached : Reaches (World.step .sfuDefault)
      (fun state event => unraced .sfuDefault ⟨1⟩ state event = true)
      (World.new false) world := walk_reaches_end _ _ _ _ (by decide +kernel)
  refine ⟨by decide +kernel, ?_⟩
  exact reconnect_not_undone .sfuDefault false ⟨1⟩ reached "a" 2
    { participantId := some ⟨1⟩, e2eeDeadline := false, point := .idle } (by decide +kernel) rfl rfl
    (by decide +kernel) (by decide +kernel)

/-- Two connections of one participant have joined a room; the one registered
last ends, and the participant is no member any more although the other, which
joined and sent no `Leave`, is still open. -/
theorem older_connection_loses_room :
    ∃ world, Reaches (World.step .sfuDefault) always (World.new false) world ∧
      (world.connections.Every fun _ connection => connection.point.atRest = true) ∧
      (world.connections.lookup 1).map (fun connection => connection.point.isOpen) = some true ∧
      1 ∉ world.closed ∧
      standing 1 ⟨1⟩ "a" world.deeds = true ∧
      world.signaling.seat "a" ⟨1⟩ = none := by
  let events := .connect :: Event.firstJoin 1 ⟨1⟩ "a" ++ .connect :: Event.firstJoin 2 ⟨1⟩ "a" ++
    .hangUp 2 :: Event.sections 2 11
  refine ⟨(walk (World.step .sfuDefault) always (World.new false) events).getD (World.new false),
    walk_reaches_end _ _ _ _ (by decide +kernel), ?_, ?_, ?_, ?_, ?_⟩ <;> decide +kernel

end Seameet
