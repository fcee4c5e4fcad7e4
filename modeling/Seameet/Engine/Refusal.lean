import Seameet.Engine.Admission

/-!
# Refused joins

Between the two checks of a first `Join`, and before the only check of a later one,
the connection's generation is put on record and the media server's hook does its
work. A refusal takes none of that back, so a refused `Join` leaves everybody where
they were exactly if there was nothing to do: it was refused on arrival, or its
participant was in the room already, with a fresh session and unknown to the other
media tasks.
-/

namespace Seameet

open Library

section Told

variable (server : SfuServer) (roomId : RoomId) (pid : ParticipantId)

/-- Nobody but the participant is registered in the room. -/
def SfuServer.nobodyElse : Bool := server.everyRegistered roomId fun other => decide (other = pid)

/-- A command for the other peers of a map is sent exactly if there are any. -/
theorem Peers.tell_others_iff (peers : Peers) (cmd : PeerCmd) :
    (∀ command ∈ peers.tell (· ≠ pid) cmd, command.cmd ≠ cmd) ↔
      (peers.keys.all fun other => decide (other = pid)) = true := by
  simp only [tell, List.mem_map, List.mem_filter, decide_eq_true_eq, forall_exists_index, and_imp,
    List.all_eq_true]
  constructor
  · intro silent other listed
    by_contra apart
    obtain ⟨peer, stored⟩ := (Table.mem_keys other peers).mp listed
    exact silent _ ⟨other, peer⟩ ((Table.mem_entries other peer peers).mpr stored) apart rfl rfl
  · rintro alone _ ⟨other, peer⟩ present apart rfl
    have stored := (Table.mem_entries other peer peers).mp present
    exact absurd (alone other ((Table.mem_keys other peers).mpr ⟨peer, stored⟩)) apart

/-- The media tasks hear of a pruned participant that another peer is registered with. -/
theorem SfuServer.notifyPruned_silent_iff (pruned : List ParticipantId) :
    (∀ command ∈ server.notifyPruned roomId pruned, command.cmd ≠ .peerLeft pid) ↔
      pid ∉ pruned ∨ server.nobodyElse roomId pid = true := by
  unfold notifyPruned nobodyElse everyRegistered
  cases server.peersIn roomId with
  | none => simp
  | some peers =>
    rw [← Peers.tell_others_iff pid peers (.peerLeft pid)]
    simp only [List.mem_flatMap]
    constructor
    · intro silent
      by_cases listed : pid ∈ pruned
      · exact .inr fun command sent => silent command ⟨pid, listed, sent⟩
      · exact .inl listed
    · rintro effectless command ⟨stale, listed, sent⟩ about
      have same : stale = pid := by
        simp only [Peers.tell, List.mem_map] at sent
        obtain ⟨_, _, rfl⟩ := sent
        exact PeerCmd.peerLeft.inj about
      subst same
      rcases effectless with unlisted | silent
      · exact unlisted listed
      · exact silent command sent about

/-- The media tasks hear of a registered participant that joins again while another peer
is registered. -/
theorem SfuServer.notifyRejoin_silent_iff :
    (∀ command ∈ server.notifyRejoin roomId pid, command.cmd ≠ .peerLeft pid) ↔
      server.registered roomId pid = false ∨ server.nobodyElse roomId pid = true := by
  unfold notifyRejoin nobodyElse everyRegistered registered peersIn
  cases server.roomPeers roomId with
  | none => simp
  | some peers =>
    simp only [Option.map_some, inMap]
    split
    · rename_i present
      rw [← Peers.tell_others_iff pid _ (.peerLeft pid)]
      simp [present]
    · rename_i absent
      simp [absent]

end Told

/-- A section of a `Join` handler with nothing left to do: the participant neither is
pruned nor rejoins where others would hear of it, the room has its map, and the session
is what the handler would store. -/
def JoinStage.effectless (server : SfuServer) (roomId : RoomId) (pid : ParticipantId) :
    JoinStage → Bool
  | .notifyPruned pruned => !decide (pid ∈ pruned) || server.nobodyElse roomId pid
  | .notifyRejoin pruned =>
      decide (pid ∈ pruned) || !server.registered roomId pid || server.nobodyElse roomId pid
  | .ensureRoom => (server.roomPeers roomId).isSome
  | .storeSession =>
      decide (server.sessions.lookup pid =
        some { hasMediaTask := false, currentRoomId := some roomId })
  | .prune | .announceCount | .dispatch => true

/-- A step leaves everybody where they were: the sessions, the media server's rooms with
their peers, all memberships but those of closed members, and the generations are as
before, and no media task is told that the participant left. -/
structure World.Leaves (pid : ParticipantId) (before after : World) : Prop where
  sessions : ∀ other, after.sfu.sessions.lookup other = before.sfu.sessions.lookup other
  rooms : ∀ roomId, after.sfu.peersIn roomId = before.sfu.peersIn roomId
  slots : ∃ queued, after.commands = before.commands ++ queued ∧
    ∀ command ∈ queued, command.cmd ≠ .peerLeft pid
  members : ∀ roomId id, after.signaling.member roomId id = before.signaling.member roomId id ∨
    (after.signaling.member roomId id = none ∧
      ∃ member, before.signaling.member roomId id = some member ∧
        before.isClosed member.sink = true)
  generations : ∀ id, after.signaling.connectionGen id = before.signaling.connectionGen id

namespace World

variable {world : World} {pid : ParticipantId}

/-- A section that touches nothing but closed members, and tells of nobody's departure. -/
theorem leaves_commit (id : WsSink) (turn : Turn)
    (signaling : turn.signaling = world.signaling ∨
      ∃ roomId, turn.signaling = world.pruned roomId) (sfu : turn.sfu = world.sfu)
    (silent : ∀ command ∈ turn.commands, command.cmd ≠ .peerLeft pid) :
    World.Leaves pid world (world.commit id turn) := by
  refine ⟨?_, ?_, ⟨turn.commands, rfl, silent⟩, ?_, ?_⟩
  · intro other
    rw [show (world.commit id turn).sfu = world.sfu from sfu]
  · intro roomId
    rw [show (world.commit id turn).sfu = world.sfu from sfu]
  · intro tested other
    change turn.signaling.member tested other = _ ∨ turn.signaling.member tested other = none ∧ _
    rcases signaling with same | ⟨roomId, pruned⟩
    · exact .inl (by rw [same])
    · rw [pruned, World.pruned, SignalingState.member_pruneStale]
      split
      · rename_i same
        subst same
        cases stored : world.signaling.member tested other with
        | none => exact .inl rfl
        | some member =>
          cases live : world.isClosed member.sink with
          | false => simp [Option.filter_some, live]
          | true => exact .inr ⟨by simp [Option.filter_some, live], member, rfl, live⟩
      · exact .inl rfl
  · intro other
    change turn.signaling.connectionGen other = _
    rcases signaling with same | ⟨roomId, pruned⟩
    · rw [same]
    · rw [pruned]
      rfl

/-- Such a section is one that leaves the tables alone exactly if it tells of nobody's
departure. -/
theorem leaves_commit_iff (id : WsSink) (turn : Turn) (signaling : turn.signaling = world.signaling)
    (sfu : turn.sfu = world.sfu) :
    World.Leaves pid world (world.commit id turn) ↔
      ∀ command ∈ turn.commands, command.cmd ≠ .peerLeft pid := by
  constructor
  · rintro ⟨_, _, ⟨queued, added, silent⟩, _, _⟩
    exact List.append_cancel_left added ▸ silent
  · exact world.leaves_commit id turn (.inl signaling) sfu

end World

namespace Connection

variable {config : Config} {world : World} {id : WsSink} {connection : Connection}

/-- A section of a `Join` handler that does not admit the `Join` leaves everybody where
they were exactly if it has nothing left to do. -/
theorem joinSection_leaves_iff (pid : ParticipantId) (first : Bool) (request : JoinRequest)
    (stage : JoinStage)
    (refused : stage = .dispatch → admits config world request.roomId = false) :
    World.Leaves pid world
        (world.commit id (connection.joinSection config world id pid first request stage)) ↔
      stage.effectless world.sfu request.roomId pid = true := by
  cases stage with
  | prune =>
    apply iff_of_true _ rfl
    exact world.leaves_commit id _ (.inr ⟨_, rfl⟩) rfl (by simp [joinSection, World.turn])
  | notifyPruned pruned =>
    rw [world.leaves_commit_iff id _ rfl rfl]
    simp only [joinSection, JoinStage.effectless, Bool.or_eq_true, Bool.not_eq_eq_eq_not,
      Bool.not_true, decide_eq_false_iff_not]
    rw [← world.sfu.notifyPruned_silent_iff]
    cases pruned with
    | nil => cases peers : world.sfu.peersIn request.roomId <;> simp [SfuServer.notifyPruned, peers]
    | cons stale rest => rfl
  | notifyRejoin pruned =>
    rw [world.leaves_commit_iff id _ rfl rfl]
    simp only [joinSection, JoinStage.effectless, Bool.or_assoc, Bool.or_eq_true,
      Bool.not_eq_eq_eq_not, Bool.not_true, decide_eq_true_eq]
    rw [← world.sfu.notifyRejoin_silent_iff]
    by_cases listed : pid ∈ pruned <;> simp [listed]
  | ensureRoom =>
    simp only [JoinStage.effectless]
    constructor
    · intro leaves
      have made := @SfuServer.roomPeers_ensureRoom world.sfu request.roomId request.roomId
      have same := leaves.rooms request.roomId
      rw [show (world.commit id _).sfu = world.sfu.ensureRoom request.roomId from rfl] at same
      have lengths := congrArg Option.isSome same
      simpa [SfuServer.peersIn, made] using lengths.symm
    · intro present
      obtain ⟨peers, stored⟩ := Option.isSome_iff_exists.mp present
      apply world.leaves_commit id _ (.inl rfl)
      · rw [SfuServer.roomPeers] at stored
        simp [joinSection, SfuServer.ensureRoom, stored]
      · simp [joinSection, World.turn]
  | storeSession =>
    simp only [JoinStage.effectless, decide_eq_true_eq]
    constructor
    · intro leaves
      have same := leaves.sessions pid
      rw [← same]
      exact AList.lookup_insert _
    · intro stored
      refine ⟨?_, fun _ => rfl, ⟨[], by simp [World.commit, joinSection, World.turn], by simp⟩,
        fun _ _ => .inl rfl, fun _ => rfl⟩
      intro other
      change ((world.sfu.sessions.insert pid _).lookup other) = _
      rw [Table.lookup_insert_eq]
      split
      · rename_i same
        rw [same, stored]
      · rfl
  | announceCount =>
    apply iff_of_true _ rfl
    rw [world.leaves_commit_iff id _ rfl rfl]
    intro command sent
    simp only [joinSection, SfuServer.announceCount] at sent
    split at sent
    · simp only [Peers.tell, List.mem_map] at sent
      obtain ⟨_, _, rfl⟩ := sent
      simp
    · simp at sent
  | dispatch =>
    have unseated :=
      (connection.joinSection_refused config world id pid first request (refused rfl)).1
    apply iff_of_true _ rfl
    exact world.leaves_commit id _ (.inr ⟨_, unseated⟩) rfl (by simp [joinSection, World.turn])

end Connection

/-- A disconnect puts no generation on record. -/
theorem SignalingState.connectionGen_of_disconnect (state : SignalingState)
    (id other : ParticipantId) {gen : Nat}
    (stored : (state.disconnect id).2.connectionGen other = some gen) :
    state.connectionGen other = some gen := by
  have kept : ∀ (names : List RoomId) (state : SignalingState),
      (leaveAll id state names).2.connectionGens = state.connectionGens := by
    intro names
    induction names with
    | nil => exact fun _ => rfl
    | cons roomId rest inductionHypothesis => exact fun state => inductionHypothesis _
  simp only [connectionGen, disconnect, kept, Table.lookup_erase_eq] at stored
  split at stored
  · simp at stored
  · exact stored

/-- A connection stands at a section of a `Join` handler. -/
def Point.admitting : Point → Bool
  | .precheck _ | .register _ | .joining _ _ _ => true
  | _ => false

/-- The connection whose task an event moves. -/
def Event.mover : Event → Option WsSink
  | .receive id _ _ _ _ | .advance id _ | .hangUp id | .deadline id => some id
  | .connect | .writerEnds _ | .mediaEnds _ | .routed _ _ => none

namespace World

variable {config : Config} {world after : World}

/-- Every generation on record is a bound connection's. -/
def Issued (world : World) : Prop :=
  ∀ pid id, world.signaling.connectionGen pid = some id →
    ∃ connection, world.connections.lookup id = some connection ∧ connection.participantId ≠ none

/-- A section that puts no generation on record but its own bound connection's. -/
theorem Issued.commit (issued : world.Issued) {id : WsSink} {connection : Connection}
    (present : world.connections.lookup id = some connection) (turn : Turn)
    (binds : Binds id connection turn)
    (recorded : ∀ pid other, turn.signaling.connectionGen pid = some other →
      world.signaling.connectionGen pid = some other ∨
        (other = id ∧ turn.connection.participantId ≠ none)) :
    (world.commit id turn).Issued := by
  intro pid other stored
  rw [lookup_commit]
  rcases recorded pid other stored with former | ⟨rfl, bound⟩
  · obtain ⟨earlier, found, bound⟩ := issued pid other former
    by_cases same : other = id
    · subst same
      rw [present] at found
      cases found
      exact ⟨turn.connection, by simp, binds.1 bound⟩
    · exact ⟨earlier, by rwa [if_neg same], bound⟩
  · exact ⟨turn.connection, by simp, bound⟩

/-- Every step keeps the generations on record bound connections'. -/
theorem Issued.step (issued : world.Issued) (fresh : world.Fresh) (event : Event)
    (stepped : world.step config event = some after) : after.Issued := by
  cases world.step_outcome config after event stepped with
  | connected =>
    intro pid id stored
    obtain ⟨connection, present, bound⟩ := issued pid id stored
    refine ⟨connection, ?_, bound⟩
    rw [Table.lookup_insert_eq, if_neg]
    · exact present
    · rintro rfl
      simp [fresh world.nextConnection (Nat.le_refl _)] at present
  | arrived _ id connection turn present arrival =>
    apply issued.commit present turn (arrival_binds arrival)
    intro pid other stored
    left
    cases arrival with
    | works _ _ _ _ _ signaling | accepts _ _ _ _ _ signaling | ends _ _ _ _ signaling
    | hangsUp _ _ _ _ _ signaling => rwa [signaling] at stored
    | joins => exact stored
  | advanced id _ connection turn present taken =>
    apply issued.commit present turn (section_binds taken)
    intro pid other stored
    cases taken with
    | works _ calm calmAfter first same signaling =>
      exact .inl (by rwa [signaling.connectionGen] at stored)
    | registers request point unbound =>
      change (world.signaling.setConnectionGen request.participant id).connectionGen pid = _
        at stored
      rw [SignalingState.connectionGen, SignalingState.setConnectionGen,
        Table.lookup_insert_eq] at stored
      split at stored
      · cases stored
        exact .inr ⟨rfl, by simp [Connection.registerSection, turn]⟩
      · exact .inl stored
    | joins own first request stage point bound =>
      left
      cases stage with
      | dispatch =>
        cases admitted : Connection.admits config world request.roomId with
        | true =>
          rwa [(connection.joinSection_admitted config world id own first request admitted).1]
            at stored
        | false =>
          rwa [(connection.joinSection_refused config world id own first request admitted).1]
            at stored
      | _ => exact stored
    | parts handled participant roomId _ point message moved signaling =>
      exact .inl (by rwa [signaling] at stored)
    | offers _ handled peers peer _ point bound moved signaling =>
      exact .inl (by rwa [signaling] at stored)
    | leaves own stage point bound =>
      left
      have frame := (connection.leaveSection_frame config world id own stage).2
      rw [frame] at stored
      cases stage with
      | disconnect => exact world.signaling.connectionGen_of_disconnect own pid stored
      | _ => exact stored
  | writerEnded | mediaEnded | routed => exact issued

/-- In every state reached the generations on record are bound connections'. -/
theorem issued_of_reaches {admitted : World → Event → Prop} {e2eeRequired : Bool}
    (reached : Reaches (step config) admitted (new e2eeRequired) world) : world.Issued :=
  reached.invariant_with Fresh Issued (fun _ => fresh_of_reaches)
    (fun _ _ stored => by simp [new, SignalingState.new, SignalingState.connectionGen] at stored)
    fun _ event _ fresh issued _ stepped => issued.step fresh event stepped

/-- A step of anything else leaves a connection's task where it is. -/
theorem lookup_step_ne (fresh : world.Fresh) {event : Event} {id : WsSink} {connection : Connection}
    (present : world.connections.lookup id = some connection) (other : event.mover ≠ some id)
    (stepped : world.step config event = some after) :
    after.connections.lookup id = some connection := by
  have elsewhere : ∀ {acting : WsSink} {next : Connection → Option Turn}, acting ≠ id →
      world.turned acting next = some after → after.connections.lookup id = some connection := by
    intro acting next apart taken
    simp only [turned, Option.bind_eq_some_iff, Option.map_eq_some_iff] at taken
    obtain ⟨_, _, turn, _, rfl⟩ := taken
    rw [lookup_commit, if_neg (Ne.symm apart), present]
  cases event with
  | connect =>
    cases stepped
    rw [Table.lookup_insert_eq, if_neg]
    · exact present
    · rintro rfl
      simp [fresh world.nextConnection (Nat.le_refl _)] at present
  | receive acting | advance acting | hangUp acting | deadline acting =>
    exact elsewhere (fun same => other (congrArg some same)) stepped
  | writerEnds acting =>
    obtain ⟨_, _, rfl⟩ := Option.map_eq_some_iff.mp stepped
    exact present
  | mediaEnds | routed =>
    simp only [step, Option.ite_none_right_eq_some, Option.some.injEq] at stepped
    exact stepped.2 ▸ present

/-- The participant whose `Join` a connection handles. -/
def joiner (world : World) (id : WsSink) : Option ParticipantId :=
  (world.connections.lookup id).bind fun connection =>
    connection.participantId <|> connection.point.firstRequest.map JoinRequest.participant

/-- The next section of the `Join` handler has nothing left to do; putting a generation
on record is something to do. -/
def effectless (world : World) (id : WsSink) : Bool :=
  match world.task id with
  | some (.register _, _) => false
  | some (.joining _ request stage, some pid) => stage.effectless world.sfu request.roomId pid
  | _ => true

/-- The connection stands at a section of a `Join` handler. -/
def underJoin (world : World) (id : WsSink) : Bool :=
  (world.connections.lookup id).any fun connection => connection.point.admitting

/-- A section of a `Join` handler that is not the dispatch of an admitted `Join` leaves
everybody where they were exactly if it has nothing left to do. -/
theorem leaves_iff_settled (issued : world.Issued) {id : WsSink} {answer : Option String}
    (joins : world.underJoin id = true)
    (stepped : world.step config (.advance id answer) = some after)
    (unseated : after.underJoin id = true ∨
      after.sent = world.sent ++ [(id, SignalingState.roomIsFull)]) :
    (∀ pid, world.joiner id = some pid → World.Leaves pid world after) ↔
      world.effectless id = true := by
  cases world.stepped_of_step _ stepped with
  | finished _ _ _ _ _ _ _ still => exact absurd rfl (still id answer)
  | advanced _ _ connection turn present taken =>
    unfold Connection.advance at taken
    split at taken
    · rename_i request point unbound
      cases taken
      apply iff_of_true
      · intro pid _
        unfold Connection.precheckSection
        split <;> exact world.leaves_commit id _ (.inl rfl) rfl (by simp [turn])
      · simp [effectless, task, present, point]
    · rename_i request point unbound
      cases taken
      apply iff_of_false
      · intro leaves
        have own : world.joiner id = some request.participant := by
          simp [joiner, present, unbound, point, Point.firstRequest]
        have same := (leaves request.participant own).generations request.participant
        have recorded : world.signaling.connectionGen request.participant = some id :=
          same ▸ AList.lookup_insert _
        obtain ⟨other, found, bound⟩ := issued request.participant id recorded
        rw [present] at found
        cases found
        exact bound unbound
      · simp [effectless, task, present, point]
    · rename_i first request stage pid point bound
      cases taken
      have refused : stage = .dispatch → Connection.admits config world request.roomId = false := by
        rintro rfl
        by_contra other
        have admitted : Connection.admits config world request.roomId = true := by
          simpa using other
        rcases unseated with on | answered
        · simp [underJoin, lookup_commit, Connection.joinSection, Point.admitting, turn] at on
        · exact connection.joinSection_welcomes pid first request admitted
            (List.append_cancel_left answered)
      have own : world.joiner id = some pid := by simp [joiner, present, bound]
      have stage : world.effectless id = stage.effectless world.sfu request.roomId pid := by
        simp [effectless, task, present, point, bound]
      rw [stage, ← connection.joinSection_leaves_iff pid first request _ refused]
      constructor
      · intro leaves
        exact leaves pid own
      · intro leaves other same
        rw [own] at same
        cases same
        exact leaves
    · rename_i handled stage pid point bound
      simp [underJoin, present, point, Point.admitting] at joins
    · rename_i stage pid point bound
      simp [underJoin, present, point, Point.admitting] at joins
    · simp at taken

end World

/-- A `Join` in handling on one connection: it arrives, its sections follow one another,
each with the server before and after it, and anything else may come in between. -/
inductive Handling (config : Config) (id : WsSink) (start : World) :
    List (World × World) → World → Prop
  | arrives {after : World} (raw : String) (request : JoinRequest) (auth : Except String Unit)
      (rateOk : Bool)
      (stepped : start.step config (.receive id raw (some request.message) auth rateOk) =
        some after) :
      Handling config id start [] after
  | goes {sections : List (World × World)} {before after : World} (answer : Option String)
      (handling : Handling config id start sections before)
      (stepped : before.step config (.advance id answer) = some after) :
      Handling config id start (sections ++ [(before, after)]) after
  | waits {sections : List (World × World)} {before after : World} (event : Event)
      (handling : Handling config id start sections before) (other : event.mover ≠ some id)
      (stepped : before.step config event = some after) :
      Handling config id start sections after

namespace Connection

variable {config : Config} {world : World} {id : WsSink} {connection : Connection}

/-- A section of a `Join` handler stays in the handler or is its last. -/
theorem advance_joins (joins : connection.point.admitting = true) (answer : Option String)
    (turn : Turn) (taken : connection.advance config world id answer = some turn) :
    turn.connection.point.admitting = true ∨ turn.connection.point.atRest = true := by
  unfold advance at taken
  split at taken
  · cases taken
    unfold precheckSection
    split
    · exact .inr rfl
    · exact .inl rfl
  · cases taken
    exact .inl rfl
  · rename_i first request stage pid point bound
    cases taken
    cases stage with
    | dispatch => exact .inr rfl
    | _ => exact .inl rfl
  · rename_i handled stage pid point bound
    simp [point, Point.admitting] at joins
  · rename_i stage pid point bound
    simp [point, Point.admitting] at joins
  · simp at taken

/-- A connection at rest has no next section. -/
theorem advance_atRest (rest : connection.point.atRest = true) (answer : Option String) :
    connection.advance config world id answer = none := by
  unfold advance
  split <;> simp_all [Point.atRest]

end Connection

namespace Handling

variable {config : Config} {id : WsSink} {e2eeRequired : Bool} {start current : World}
variable {sections : List (World × World)}

/-- The connection is in its `Join` handler, or has come out of it. -/
def Stands (id : WsSink) (world : World) : Prop :=
  ∃ connection, world.connections.lookup id = some connection ∧
    (connection.point.admitting = true ∨ connection.point.atRest = true)

/-- A section is taken from a state reached, inside the handler. -/
def Taken (config : Config) (e2eeRequired : Bool) (id : WsSink) (own : World × World) : Prop :=
  Reaches (World.step config) always (World.new e2eeRequired) own.1 ∧ own.1.underJoin id = true ∧
    ∃ answer, own.1.step config (.advance id answer) = some own.2

/-- Every section is taken inside the handler, and every one but the last stays there. -/
theorem sound (reached : Reaches (World.step config) always (World.new e2eeRequired) start)
    (handling : Handling config id start sections current) :
    Reaches (World.step config) always (World.new e2eeRequired) current ∧ Stands id current ∧
      (∀ own ∈ sections, Taken config e2eeRequired id own) ∧
      (∀ own ∈ sections.dropLast, own.2.underJoin id = true) ∧
      (current.underJoin id = true → ∀ own ∈ sections, own.2.underJoin id = true) := by
  induction handling with
  | @arrives after raw request auth rateOk stepped =>
    refine ⟨.next reached trivial stepped, ?_, by simp, by simp, by simp⟩
    simp only [World.step, World.turned, Option.bind_eq_some_iff, Option.map_eq_some_iff] at stepped
    obtain ⟨connection, present, turn, taken, rfl⟩ := stepped
    obtain ⟨idle, rfl⟩ := World.whenIdle_eq_some taken
    refine ⟨_, by rw [World.lookup_commit, if_pos rfl], ?_⟩
    rcases @Connection.receive_point config start id connection idle raw
      (some request.message) auth rateOk with
      still | ⟨_, ended | ⟨_, checked⟩⟩ | ⟨_, _, same, _, begun⟩
    · exact .inr (by rw [still]; rfl)
    · exact .inr (by rw [ended]; rfl)
    · exact .inl (by rw [checked]; rfl)
    · cases same
      rw [@Config.start_join config request.message raw request rfl] at begun
      exact .inl (by rw [begun]; rfl)
  | @goes sections before after answer handling stepped inductionHypothesis =>
    obtain ⟨reached, ⟨connection, present, stands⟩, each, _, kept⟩ := inductionHypothesis
    cases before.stepped_of_step _ stepped with
    | finished _ _ _ _ _ _ _ still => exact absurd rfl (still id answer)
    | advanced _ _ found turn there taken =>
      rw [present] at there
      cases there
      have joins : connection.point.admitting = true := by
        rcases stands with joins | rest
        · exact joins
        · simp [connection.advance_atRest rest] at taken
      have inside : before.underJoin id = true := by simp [World.underJoin, present, joins]
      refine ⟨.next reached trivial stepped, ⟨turn.connection, by simp [World.lookup_commit],
        connection.advance_joins joins answer turn taken⟩, ?_, ?_, ?_⟩
      · intro own listed
        rcases List.mem_append.mp listed with earlier | last
        · exact each own earlier
        · cases List.mem_singleton.mp last
          exact ⟨reached, inside, answer, stepped⟩
      · rw [List.dropLast_concat]
        exact kept inside
      · intro on own listed
        rcases List.mem_append.mp listed with earlier | last
        · exact kept inside own earlier
        · cases List.mem_singleton.mp last
          exact on
  | @waits sections before after event handling other stepped inductionHypothesis =>
    obtain ⟨reached, ⟨connection, present, stands⟩, each, stay, kept⟩ := inductionHypothesis
    have same := World.lookup_step_ne (World.fresh_of_reaches reached) present other stepped
    refine ⟨.next reached trivial stepped, ⟨connection, same, stands⟩, each, stay, ?_⟩
    intro on
    apply kept
    simpa [World.underJoin, present, same] using on

end Handling

/-- The sections of a `Join` that is refused leave everybody where they were, whatever
comes in between, exactly if none of them has anything left to do.

Each section of the handler is taken from the state it finds. It leaves everybody where they
were exactly if its turn is settled already. -/
theorem refused_join_leaves_iff (config : Config) (e2eeRequired : Bool) {start current : World}
    (reached : Reaches (World.step config) always (World.new e2eeRequired) start) (id : WsSink)
    (earlier : List (World × World)) (last : World × World)
    (handling : Handling config id start (earlier ++ [last]) current)
    (refused : last.2.sent = last.1.sent ++ [(id, SignalingState.roomIsFull)]) :
    (∀ own ∈ earlier ++ [last], ∀ pid, own.1.joiner id = some pid →
        World.Leaves pid own.1 own.2) ↔
      ∀ own ∈ earlier ++ [last], own.1.effectless id = true := by
  obtain ⟨_, _, taken, stay, _⟩ := handling.sound reached
  rw [List.dropLast_concat] at stay
  refine forall₂_congr fun own listed => ?_
  obtain ⟨there, joins, answer, stepped⟩ := taken own listed
  apply World.leaves_iff_settled (World.issued_of_reaches there) joins stepped
  rcases List.mem_append.mp listed with before | final
  · exact .inl (stay own before)
  · cases List.mem_singleton.mp final
    exact .inr refused

/-- The check on arrival leaves everybody where they were. -/
theorem refused_join_leaves_arrival :
    let start := (walk (World.step roomForOne) always (World.new false)
      (.connect :: Event.firstJoin 1 ⟨1⟩ "a" ++ [.connect])).getD (World.new false)
    let checked := (start.step roomForOne (.join 2 ⟨2⟩ "a")).getD start
    let refused := (checked.step roomForOne (.advance 2 none)).getD checked
    World.Leaves ⟨2⟩ checked refused := by
  intro start checked refused
  have reached : Reaches (World.step roomForOne) always (World.new false) start :=
    walk_reaches_end _ _ _ _ (by decide +kernel)
  have handling : Handling roomForOne 2 start ([] ++ [(checked, refused)]) refused :=
    .goes none (.arrives "" ⟨⟨2⟩, "a", none, none⟩ (.ok ()) true rfl) rfl
  have effectless : ∀ own ∈ [] ++ [(checked, refused)], own.1.effectless 2 = true := by
    intro own listed
    cases List.mem_singleton.mp listed
    decide +kernel
  exact (refused_join_leaves_iff roomForOne false reached 2 [] (checked, refused) handling
    (by decide +kernel)).mpr effectless (checked, refused) (by simp) ⟨2⟩ (by decide +kernel)

/-- A later `Join` for a full room moves the session of a member of another room, and is
then refused. -/
theorem refused_join_moves_session :
    let start := (walk (World.step roomForOne) always (World.new false)
      (.connect :: Event.firstJoin 1 ⟨1⟩ "a" ++ .connect :: Event.firstJoin 2 ⟨2⟩ "b")).getD
        (World.new false)
    let final := (walk (World.step roomForOne) always start (Event.laterJoin 2 ⟨2⟩ "a")).getD start
    Reaches (World.step roomForOne) always (World.new false) start ∧
      final.sent = start.sent ++ [(2, SignalingState.roomIsFull)] ∧
      start.sfu.sessions.lookup ⟨2⟩ =
        some { hasMediaTask := false, currentRoomId := some "b" } ∧
      final.sfu.sessions.lookup ⟨2⟩ =
        some { hasMediaTask := false, currentRoomId := some "a" } := by
  intro start final
  refine ⟨walk_reaches_end _ _ _ _ (by decide +kernel), ?_, ?_, ?_⟩
  · decide +kernel
  · decide +kernel
  · decide +kernel

end Seameet
