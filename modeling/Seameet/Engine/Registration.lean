import Seameet.Library.Runs
import Seameet.Engine.Accounts

/-!
# Runs that leave everybody accounted for

The cleanup after a connection goes through its sections one by one, and what it
has yet to drop shrinks by what each of them drops. With the sections of the
other handlers this gives the run lemma: whoever is registered is a member or
accounted for, in every state reached. A handler at rest accounts for nobody, so
between handlers the two layers agree.
-/

namespace Seameet

open Library

/-- What is left to drop once a room's map is done with. -/
theorem roomsLeft_reaches (roomId : RoomId) (present : Option PeersRef) (rest : Affected) :
    (Connection.roomsLeft rest).reaches roomId present = decide (roomId ∈ rest.map Prod.fst) := by
  cases rest with
  | nil => rfl
  | cons head rest => simp [Connection.roomsLeft, LeaveStage.reaches]

/-- The rooms left to drop. -/
theorem roomsLeft_dropsRoom (roomId : RoomId) (rest : Affected) :
    (Connection.roomsLeft rest).dropsRoom roomId = decide ((roomId, true) ∈ rest) := by
  cases rest with
  | nil => rfl
  | cons head rest => rfl

/-- After a room's map the cleanup reaches the rooms of the rest. -/
theorem afterPeers_reaches (roomId next : RoomId) (present : Option PeersRef) (gone : Bool)
    (rest : Affected) :
    (Connection.afterPeers next gone rest).reaches roomId present =
      decide (roomId ∈ rest.map Prod.fst) := by
  cases gone with
  | true => rfl
  | false => exact roomsLeft_reaches roomId present rest

/-- After a room's map the cleanup drops the room, if it is gone, and those of the
rest. -/
theorem afterPeers_dropsRoom (roomId next : RoomId) (gone : Bool) (rest : Affected) :
    (Connection.afterPeers next gone rest).dropsRoom roomId =
      decide ((roomId, true) ∈ (next, gone) :: rest) := by
  cases gone with
  | true => simp [Connection.afterPeers, LeaveStage.dropsRoom]
  | false => simp [Connection.afterPeers, roomsLeft_dropsRoom]

namespace Accounted

variable {config : Config} {world : World} {id : WsSink} {connection : Connection}

section Leave

variable (pid : ParticipantId)

/-- A section of the cleanup that has yet to drop as much as before, except for
what is dropped. -/
theorem leave_on (accounted : Accounted world)
    (present : world.connections.lookup id = some connection) (turn : Turn)
    {stage next : LeaveStage} (point : connection.point = .leaving stage)
    (bound : connection.participantId = some pid)
    (on : turn.connection = connection.goto (.leaving next))
    (past : (Point.leaving stage).beforeDisconnect = true →
      (Point.leaving next).beforeDisconnect = true)
    (signaling : turn.signaling = world.signaling)
    (registered : ∀ roomId participant, turn.sfu.registered roomId participant = true →
      world.sfu.registered roomId participant = true ∧
        turn.sfu.roomPeers roomId = world.sfu.roomPeers roomId)
    (rooms : ∀ roomId, (turn.sfu.roomPeers roomId).isSome = true →
      (world.sfu.roomPeers roomId).isSome = true)
    (reaches : ∀ roomId, turn.sfu.registered roomId pid = true →
      stage.reaches roomId (world.sfu.roomPeers roomId) = true →
      next.reaches roomId (world.sfu.roomPeers roomId) = true)
    (drops : ∀ roomId, (turn.sfu.roomPeers roomId).isSome = true →
      stage.dropsRoom roomId = true → next.dropsRoom roomId = true) :
    Accounted (world.commit id turn) := by
  apply accounted.quiet present turn (signaling ▸ .refl _) registered rooms
  · intro roomId participant there accounts
    unfold Connection.accounts at accounts ⊢
    simp only [point, bound, on, Connection.goto, Bool.and_eq_true, decide_eq_true_eq,
      Option.some.injEq, Bool.or_eq_true] at accounts ⊢
    obtain ⟨rfl, before | reached⟩ := accounts
    · exact ⟨rfl, .inl ⟨past before.1, before.2⟩⟩
    · exact ⟨rfl, .inr (reaches roomId there reached)⟩
  · intro roomId there holds
    unfold Connection.holdsRoom at holds ⊢
    simp only [point, on, Connection.goto] at holds ⊢
    exact drops roomId there holds

/-- A section of the cleanup that leaves rooms and maps alone. -/
theorem leave_past (accounted : Accounted world)
    (present : world.connections.lookup id = some connection) (turn : Turn)
    {stage next : LeaveStage} (point : connection.point = .leaving stage)
    (bound : connection.participantId = some pid)
    (on : turn.connection = connection.goto (.leaving next))
    (past : (Point.leaving stage).beforeDisconnect = true →
      (Point.leaving next).beforeDisconnect = true)
    (signaling : turn.signaling = world.signaling)
    (rooms : turn.sfu.rooms = world.sfu.rooms) (maps : turn.sfu.maps = world.sfu.maps)
    (reaches : ∀ roomId, world.sfu.registered roomId pid = true →
      stage.reaches roomId (world.sfu.roomPeers roomId) = true →
      next.reaches roomId (world.sfu.roomPeers roomId) = true)
    (drops : ∀ roomId, stage.dropsRoom roomId = true → next.dropsRoom roomId = true) :
    Accounted (world.commit id turn) := by
  have registered : ∀ roomId participant, turn.sfu.registered roomId participant =
      world.sfu.registered roomId participant := by
    intro roomId participant
    simp only [SfuServer.registered, SfuServer.roomPeers, SfuServer.inMap, SfuServer.peersOf, rooms,
      maps]
  have map : ∀ roomId, turn.sfu.roomPeers roomId = world.sfu.roomPeers roomId := by
    intro roomId
    simp only [SfuServer.roomPeers, rooms]
  apply accounted.leave_on pid present turn point bound on past signaling
  · intro roomId participant there
    exact ⟨by rwa [registered] at there, map roomId⟩
  · intro roomId there
    rwa [map] at there
  · intro roomId there
    exact reaches roomId (by rwa [registered] at there)
  · intro roomId _
    exact drops roomId

/-- The disconnect empties the rooms the index lists, and the cleanup goes on to
all of them. -/
theorem disconnect (accounted : Accounted world)
    (present : world.connections.lookup id = some connection)
    (point : connection.point = .leaving .disconnect)
    (bound : connection.participantId = some pid) :
    Accounted (world.commit id (connection.leaveSection config world id pid .disconnect)) := by
  constructor
  · intro roomId participant there
    by_cases own : participant = pid ∧ world.signaling.listed pid roomId
    · obtain ⟨rfl, listed⟩ := own
      apply awaited_own
      have affected := (SignalingState.affected_disconnect _ _ _).mpr listed
      simp only [Connection.leaveSection, World.turn, Connection.goto, Connection.accounts, bound,
        LeaveStage.reaches, affected, decide_true, Bool.or_true, Bool.and_true]
    · apply covered_commit (accounted.peers roomId participant there) present
      · simp only [SignalingState.seat]
        rw [Connection.leaveSection, SignalingState.member_disconnect_of_not]
        rintro ⟨rfl, listed⟩
        exact own ⟨rfl, listed⟩
      · rw [Connection.leaveSection, SignalingState.listed_disconnect]
        constructor
        · exact fun both => both.2
        · intro listed
          refine ⟨?_, listed⟩
          rintro rfl
          exact own ⟨rfl, listed⟩
      · rfl
      · intro _ accounts
        unfold Connection.accounts at accounts
        simp only [point, bound, Bool.and_eq_true, decide_eq_true_eq, Option.some.injEq,
          LeaveStage.reaches, Bool.or_eq_true, Bool.false_eq_true, or_false] at accounts
        obtain ⟨rfl, -, listed⟩ := accounts
        exact absurd ⟨rfl, listed⟩ own
  · intro roomId there
    rcases accounted.rooms roomId there with exists_ | held
    · cases gone : (world.signaling.disconnect pid).2.hasRoom roomId with
      | true => exact .inl gone
      | false =>
        right
        apply held_own
        have affected := SignalingState.gone_disconnect _ _ _ exists_ gone
        simpa [Connection.leaveSection, World.turn, Connection.goto, Connection.holdsRoom,
          LeaveStage.dropsRoom] using affected
    · right
      apply held_commit held present
      intro holds
      unfold Connection.holdsRoom at holds
      simp [point, LeaveStage.dropsRoom] at holds

/-- A stale end, whose participant is covered without it wherever it is
registered. -/
theorem stale (accounted : Accounted world)
    (present : world.connections.lookup id = some connection)
    (point : connection.point = .leaving .checkStale)
    (bound : connection.participantId = some pid)
    (safe : ∀ roomId, world.sfu.registered roomId pid = true →
      world.covered (World.others id) pid roomId = true) :
    Accounted (world.commit id (world.turn (connection.goto .ended))) := by
  constructor
  · intro roomId participant there
    by_cases own : participant = pid
    · subst own
      apply covered_commit (safe roomId there) present rfl .rfl rfl
      intro counted
      simp [World.others] at counted
    · apply covered_commit (accounted.peers roomId participant there) present rfl .rfl rfl
      intro _ accounts
      unfold Connection.accounts at accounts
      simp [point, bound, Ne.symm own] at accounts
  · intro roomId there
    rcases accounted.rooms roomId there with exists_ | held
    · exact .inl exists_
    · right
      apply held_commit held present
      intro holds
      unfold Connection.holdsRoom at holds
      simp [point, LeaveStage.dropsRoom] at holds

/-- A cleanup whose participant's session is dropped accounts for nobody. -/
theorem leave_ends (accounted : Accounted world)
    (present : world.connections.lookup id = some connection)
    (point : connection.point = .leaving .dropSession) :
    Accounted (world.commit id (connection.leaveSection config world id pid .dropSession)) := by
  apply accounted.quiet present _ (.refl _)
  · exact fun _ _ there => ⟨there, rfl⟩
  · exact fun _ there => there
  · intro roomId participant _ accounts
    unfold Connection.accounts at accounts
    simp [point, Point.beforeDisconnect, LeaveStage.reaches] at accounts
  · intro roomId _ holds
    unfold Connection.holdsRoom at holds
    simp [point, LeaveStage.dropsRoom] at holds

/-- A peer that is dropped from the map of a room is registered there no more. -/
theorem leave_dropPeer (accounted : Accounted world)
    (present : world.connections.lookup id = some connection) {peers : PeersRef} {next : RoomId}
    {gone : Bool} {rest : Affected}
    (point : connection.point = .leaving (.dropPeer peers next gone rest))
    (bound : connection.participantId = some pid) :
    Accounted (world.commit id
      (connection.leaveSection config world id pid (.dropPeer peers next gone rest))) := by
  apply accounted.leave_on pid present _ point bound rfl (by simp [Point.beforeDisconnect]) rfl
  · intro roomId participant there
    refine ⟨?_, rfl⟩
    obtain ⟨named, names, entered⟩ := (SfuServer.registered_iff _ _ _).mp there
    have entered : (world.sfu.dropPeer peers pid).inMap named participant = true := entered
    rw [SfuServer.inMap_dropPeer, Bool.and_eq_true] at entered
    exact (SfuServer.registered_iff _ _ _).mpr ⟨named, names, entered.2⟩
  · exact fun _ there => there
  · intro roomId there reaches
    rw [afterPeers_reaches]
    simp only [LeaveStage.reaches, decide_eq_true_eq] at reaches ⊢
    rcases reaches with ⟨rfl, names⟩ | later
    · -- The map the room names has just lost the participant.
      obtain ⟨named, still, entered⟩ := (SfuServer.registered_iff _ _ _).mp there
      have entered : (world.sfu.dropPeer peers pid).inMap named pid = true := entered
      have same : named = peers := by
        rw [← Option.some_inj, ← names, ← still]
        rfl
      simp [SfuServer.inMap_dropPeer, same] at entered
    · exact later
  · intro roomId _ drops
    rwa [afterPeers_dropsRoom]

/-- A room that is dropped is left by nobody: whoever was registered in it is no more. -/
theorem leave_dropRoom (accounted : Accounted world)
    (present : world.connections.lookup id = some connection) {next : RoomId} {rest : Affected}
    (point : connection.point = .leaving (.dropRoom next rest))
    (bound : connection.participantId = some pid) :
    Accounted (world.commit id
      (connection.leaveSection config world id pid (.dropRoom next rest))) := by
  have kept : ∀ roomId, ((world.sfu.dropRoom next).roomPeers roomId) =
      if roomId = next then none else world.sfu.roomPeers roomId :=
    fun roomId => Table.lookup_erase_eq next roomId world.sfu.rooms
  apply accounted.leave_on pid present _ point bound rfl (by simp [Point.beforeDisconnect]) rfl
  · intro roomId participant there
    obtain ⟨named, names, entered⟩ := (SfuServer.registered_iff _ _ _).mp there
    have names : (world.sfu.dropRoom next).roomPeers roomId = some named := names
    rw [kept] at names
    split at names
    · simp at names
    · rename_i apart
      refine ⟨(SfuServer.registered_iff _ _ _).mpr ⟨named, names, entered⟩, ?_⟩
      exact (kept roomId).trans (if_neg apart)
  · intro roomId there
    have there : ((world.sfu.dropRoom next).roomPeers roomId).isSome = true := there
    rw [kept] at there
    split at there
    · simp at there
    · exact there
  · intro roomId _ reaches
    rwa [roomsLeft_reaches]
  · intro roomId there drops
    have there : ((world.sfu.dropRoom next).roomPeers roomId).isSome = true := there
    rw [kept] at there
    rw [roomsLeft_dropsRoom]
    simp only [LeaveStage.dropsRoom, decide_eq_true_eq] at drops ⊢
    rcases drops with rfl | later
    · simp at there
    · exact later

/-- Every section of the cleanup. -/
theorem leave (accounted : Accounted world)
    (present : world.connections.lookup id = some connection) (stage : LeaveStage)
    (point : connection.point = .leaving stage) (bound : connection.participantId = some pid)
    (hooks : config.hooks = .sfu)
    (kept : keepsAccounts config world (.advance id none) = true) :
    Accounted (world.commit id (connection.leaveSection config world id pid stage)) := by
  cases stage with
  | checkStale =>
    simp only [Connection.leaveSection]
    split
    · exact accounted.leave_past pid present _ point bound rfl (fun _ => rfl) rfl rfl rfl
        (by simp [LeaveStage.reaches]) (by simp [LeaveStage.dropsRoom])
    · rename_i older
      apply accounted.stale pid present point bound
      simpa [keepsAccounts, World.task, present, point, bound, older,
        SfuServer.everyRoomOf_iff] using kept
  | disconnect => exact accounted.disconnect pid present point bound
  | announce pending affected =>
    cases pending with
    | cons head pending =>
      exact accounted.leave_past pid present _ point bound rfl (fun before => before) rfl rfl rfl
        (fun _ _ reaches => reaches) (fun _ drops => drops)
    | nil =>
      simp only [Connection.leaveSection, hooks]
      exact accounted.leave_past pid present _ point bound rfl (fun before => before) rfl rfl rfl
        (fun _ _ reaches => reaches) (fun _ drops => drops)
  | routes affected =>
    exact accounted.leave_past pid present _ point bound rfl (fun before => before) rfl rfl rfl
      (fun _ _ reaches => reaches) (fun _ drops => drops)
  | allPeers affected =>
    apply accounted.leave_past pid present _ point bound rfl (by simp [Point.beforeDisconnect]) rfl
      rfl rfl
    · intro roomId _ reaches
      rwa [roomsLeft_reaches]
    · intro roomId drops
      rwa [roomsLeft_dropsRoom]
  | lookup next gone rest =>
    simp only [Connection.leaveSection]
    split
    · rename_i peers named
      refine accounted.leave_past pid present _ point bound rfl (fun before => before) rfl rfl rfl
        ?_ (fun _ drops => drops)
      intro roomId _ reaches
      simp only [LeaveStage.reaches, decide_eq_true_eq] at reaches ⊢
      apply reaches.imp_left
      rintro rfl
      exact ⟨rfl, named⟩
    · rename_i absent
      apply accounted.leave_past pid present _ point bound rfl (by simp [Point.beforeDisconnect])
        rfl rfl rfl
      · intro roomId there reaches
        rw [afterPeers_reaches]
        simp only [LeaveStage.reaches, decide_eq_true_eq] at reaches ⊢
        rcases reaches with rfl | later
        · obtain ⟨peers, named, _⟩ := (SfuServer.registered_iff _ _ _).mp there
          simp [absent] at named
        · exact later
      · intro roomId drops
        rwa [afterPeers_dropsRoom]
  | stopScreen peers next gone rest =>
    exact accounted.leave_past pid present _ point bound rfl (fun before => before) rfl rfl rfl
      (fun _ _ reaches => reaches) (fun _ drops => drops)
  | dropPeer peers next gone rest => exact accounted.leave_dropPeer pid present point bound
  | dropRoom next rest => exact accounted.leave_dropRoom pid present point bound
  | dropSession => exact accounted.leave_ends pid present point

end Leave

/-- Nobody is registered with a new server. -/
theorem new (e2eeRequired : Bool) : Accounted (World.new e2eeRequired) := by
  constructor
  · intro roomId participant there
    simp [World.new, SfuServer.new, SfuServer.registered, SfuServer.roomPeers] at there
  · intro roomId there
    simp [World.new, SfuServer.new, SfuServer.roomPeers] at there

/-- Binding a connection changes no seat and registers nobody. -/
theorem register (accounted : Accounted world)
    (present : world.connections.lookup id = some connection) (request : JoinRequest)
    (calm : connection.point.calm = true) :
    Accounted (world.commit id (connection.registerSection config world id request)) := by
  constructor
  · intro roomId participant there
    apply covered_commit (accounted.peers roomId participant there) present rfl .rfl rfl
    intro _ accounts
    simp [calm_accounts calm] at accounts
  · intro roomId there
    apply (accounted.rooms roomId there).imp_right
    intro held
    apply held_commit held present
    intro holds
    simp [calm_holds calm] at holds

/-- A new connection takes no account away. -/
theorem connected (accounted : Accounted world) (fresh : world.Fresh) (connection : Connection) :
    Accounted { world with
      connections := world.connections.insert world.nextConnection connection
      nextConnection := world.nextConnection + 1 } := by
  have absent := fresh world.nextConnection (Nat.le_refl _)
  have kept : ∀ id earlier, world.connections.lookup id = some earlier →
      (world.connections.insert world.nextConnection connection).lookup id = some earlier := by
    intro id earlier found
    rw [Table.lookup_insert_eq, if_neg]
    · exact found
    · rintro rfl
      simp [absent] at found
  constructor
  · intro roomId participant there
    have covered := accounted.peers roomId participant there
    rw [World.covered, Bool.or_eq_true, awaited_iff] at covered ⊢
    apply covered.imp_right
    rintro ⟨id, earlier, found, accounts⟩
    exact ⟨id, earlier, kept id earlier found, accounts⟩
  · intro roomId there
    apply (accounted.rooms roomId there).imp_right
    intro held
    rw [World.held, decide_eq_true_eq] at held ⊢
    obtain ⟨id, earlier, found, holds⟩ := held
    exact ⟨id, earlier, kept id earlier found, holds⟩

/-- The end of a media task registers nobody. -/
theorem mediaEnded (accounted : Accounted world) (task : MediaTask) :
    Accounted { world with sfu := world.sfu.endMediaTask task } := by
  have rooms : ∀ roomId, (world.sfu.endMediaTask task).roomPeers roomId =
      world.sfu.roomPeers roomId := by
    intro roomId
    rw [SfuServer.roomPeers, (world.sfu.endMediaTask_frame 0 ⟨0⟩ task).1, SfuServer.roomPeers]
  constructor
  · intro roomId participant there
    obtain ⟨peers, named, entered⟩ := (SfuServer.registered_iff _ _ _).mp there
    rw [rooms] at named
    have before := (world.sfu.endMediaTask_frame peers participant task).2.2 entered
    have covered := accounted.peers roomId participant
      ((SfuServer.registered_iff _ _ _).mpr ⟨peers, named, before⟩)
    simp only [World.covered, World.awaited, rooms] at covered ⊢
    exact covered
  · intro roomId there
    have there : ((world.sfu.endMediaTask task).roomPeers roomId).isSome = true := there
    rw [rooms] at there
    exact accounted.rooms roomId there

/-- Every step that leaves nobody unaccounted for. -/
theorem step (accounted : Accounted world) (fresh : world.Fresh) (hooks : config.hooks = .sfu)
    {event : Event} {after : World} (kept : keepsAccounts config world event = true)
    (stepped : world.step config event = some after) : Accounted after := by
  cases world.step_outcome config after event stepped with
  | connected => exact accounted.connected fresh _
  | arrived _ id connection turn present arrival => exact accounted.arrive present arrival
  | writerEnded id => exact ⟨accounted.peers, accounted.rooms⟩
  | mediaEnded task => exact accounted.mediaEnded task
  | routed source task => exact ⟨accounted.peers, accounted.rooms⟩
  | advanced id answer connection turn present taken =>
    have kept : keepsAccounts config world (.advance id none) = true := kept
    cases taken with
    | works _ calm calmAfter first same signaling sfu deed =>
      exact accounted.calm present turn calm signaling sfu
    | registers request point unbound =>
      exact accounted.register present request (by rw [point]; rfl)
    | joins pid first request stage point bound =>
      exact accounted.join pid first request present stage point kept
    | parts handled participant roomId _ point message moved signaling sfu deed =>
      simp only [keepsAccounts, World.task, present, Option.map_some, point, message,
        Bool.and_eq_true, Bool.or_eq_true, Bool.not_eq_true', Option.isNone_iff_eq_none] at kept
      apply accounted.part present participant roomId turn (by rw [point]; rfl) signaling sfu
      · intro there
        apply kept.1.resolve_left
        simp [there]
      · intro sole there
        rcases kept.2 with (several | absent) | held
        · simp [sole] at several
        · simp [absent] at there
        · exact held
    | offers pid handled peers peer _ point bound moved signaling sfu deed =>
      apply accounted.offer present pid peers peer turn (by rw [point]; rfl) signaling sfu
      intro roomId named
      simp only [keepsAccounts, World.task, present, Option.map_some, point, bound,
        List.all_eq_true, Bool.or_eq_true, Bool.not_eq_true', decide_eq_false_iff_not] at kept
      have listed := (Table.mem_keys roomId world.sfu.rooms).mpr ⟨peers, named⟩
      exact (kept roomId listed).resolve_left (fun other => other named)
    | leaves pid stage point bound => exact accounted.leave pid present stage point bound hooks kept

/-- Between handlers nobody is accounted for. -/
theorem covered_atRest (rest : world.connections.Every fun _ connection =>
      connection.point.atRest = true) {participant : ParticipantId} {roomId : RoomId}
    (covered : world.covered World.everyone participant roomId = true) :
    (world.signaling.seat roomId participant).isSome = true := by
  rw [World.covered, Bool.or_eq_true, awaited_iff] at covered
  rcases covered with seated | ⟨id, connection, found, _, accounts⟩
  · exact seated
  · have atRest := rest id connection found
    unfold Connection.accounts at accounts
    cases point : connection.point <;> simp [point, Point.atRest] at accounts atRest

/-- Between handlers no room is held. -/
theorem held_atRest (rest : world.connections.Every fun _ connection =>
      connection.point.atRest = true) (roomId : RoomId) : world.held roomId = false := by
  rw [World.held, decide_eq_false_iff_not]
  rintro ⟨id, connection, found, holds⟩
  have atRest := rest id connection found
  unfold Connection.holdsRoom at holds
  cases point : connection.point <;> simp [point, Point.atRest] at holds atRest

end Accounted

/-- With the media server's hooks, in every run that leaves nobody unaccounted for,
whenever no handler is under way: whoever is in the peers map of a room is a
member of the room, and every room of the media server is a room of the signaling
state.

Whoever is registered is a member, or a handler under way accounts for it: this is kept by
every step. With no handler under way only the first is left. -/
theorem media_only_to_members (config : Config) (e2eeRequired : Bool) (hooks : config.hooks = .sfu)
    {world : World}
    (reached : Reaches (World.step config)
      (fun state event => keepsAccounts config state event = true) (World.new e2eeRequired) world)
    (rest : world.connections.Every fun _ connection => connection.point.atRest = true) :
    (∀ roomId participant, world.sfu.registered roomId participant = true →
      ∃ member, world.signaling.member roomId participant = some member) ∧
    ∀ roomId, (world.sfu.roomPeers roomId).isSome = true →
      world.signaling.hasRoom roomId = true := by
  have accounted : Accounted world :=
    reached.invariant_with World.Fresh Accounted (fun _ => World.fresh_of_reaches)
      (.new e2eeRequired) fun before event after fresh held kept stepped =>
        held.step fresh hooks kept stepped
  constructor
  · intro roomId participant there
    have seated := Accounted.covered_atRest rest (accounted.peers roomId participant there)
    rw [SignalingState.seat, Option.isSome_map] at seated
    exact Option.isSome_iff_exists.mp seated
  · intro roomId there
    apply (accounted.rooms roomId there).resolve_right
    simp [Accounted.held_atRest rest roomId]

/-- A connection's offer from its arrival to the start of the media task. -/
def Event.offer (id : WsSink) (participant : ParticipantId) (roomId : RoomId) : List Event :=
  .receive id "" (some (.offer participant none roomId "")) (.ok ()) true ::
    List.replicate 8 (.advance id (some ""))

/-- Two participants join and send offers, and the first connection ends. -/
def mediaRun : List Event :=
  .connect :: Event.firstJoin 1 ⟨1⟩ "a" ++ Event.offer 1 ⟨1⟩ "a" ++
    .connect :: Event.firstJoin 2 ⟨2⟩ "a" ++ Event.offer 2 ⟨2⟩ "a" ++
    .hangUp 1 :: Event.sections 1 10

/-- After that run the second participant is registered, and a member. -/
theorem media_only_to_members_pair :
    let world := (walk (World.step .sfuDefault)
      (fun state event => keepsAccounts .sfuDefault state event = true)
      (World.new false) mediaRun).getD (World.new false)
    world.sfu.registered "a" ⟨2⟩ = true ∧ world.sfu.registered "a" ⟨1⟩ = false ∧
      ∃ member, world.signaling.member "a" ⟨2⟩ = some member := by
  intro world
  have reached : Reaches (World.step .sfuDefault)
      (fun state event => keepsAccounts .sfuDefault state event = true)
      (World.new false) world := walk_reaches_end _ _ _ _ (by decide +kernel)
  have there : world.sfu.registered "a" ⟨2⟩ = true := by decide +kernel
  refine ⟨there, by decide +kernel, ?_⟩
  exact (media_only_to_members .sfuDefault false rfl reached (by decide +kernel)).1 "a" ⟨2⟩ there

/-- A participant joins, sends an offer and then `Leave`: it stays in the peers map,
and the media server keeps the room, although the signaling state has neither. -/
theorem leave_keeps_media :
    ∃ world, Reaches (World.step .sfuDefault) always (World.new false) world ∧
      (world.connections.Every fun _ connection => connection.point.atRest = true) ∧
      world.sfu.registered "a" ⟨1⟩ = true ∧
      world.signaling.member "a" ⟨1⟩ = none ∧
      (world.sfu.roomPeers "a").isSome = true ∧
      world.signaling.hasRoom "a" = false := by
  let events := .connect :: Event.firstJoin 1 ⟨1⟩ "a" ++ Event.offer 1 ⟨1⟩ "a" ++
    [.receive 1 "" (some (.leave ⟨1⟩ "a")) (.ok ()) true, .advance 1 none]
  refine ⟨(walk (World.step .sfuDefault) always (World.new false) events).getD (World.new false),
    walk_reaches_end _ _ _ _ (by decide +kernel), ?_, ?_, ?_, ?_, ?_⟩ <;> decide +kernel

end Seameet
