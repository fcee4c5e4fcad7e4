import Seameet.Engine.Capacity
import Seameet.Engine.Stepping

/-!
# What the members of a room are told

Every change of a room's members and flags is announced to all members by a
status of the whole room, except two: a pruning, and the removal a disconnect
makes before its announcements. Both take members away, so as long as a room has
not been announced it has a place left, and the `Join` that pruned it cannot be
refused. It will seat its participant and announce the room, or somebody else
has done so before it.
-/

namespace Seameet

open Library

/-- A member's status, as it appears in a room's. -/
def Member.status (member : Member) : ParticipantStatus :=
  { id := member.id, displayName := member.displayName,
    audioMuted := member.mediaState.audioMuted, videoMuted := member.mediaState.videoMuted,
    screenSharing := member.mediaState.screenSharing, e2ee := member.mediaState.e2ee }

/-- The statuses of a room placed on a sink, oldest first. -/
def statuses (roomId : RoomId) (sink : WsSink) (sent : List Sent) :
    List (List ParticipantStatus) :=
  sent.filterMap fun text =>
    match text.2 with
    | .serialised (.roomStatus room participants _) =>
        if text.1 = sink ∧ room = roomId then some participants else none
    | _ => none

/-- The last status of a room placed on a sink. -/
def lastStatus (roomId : RoomId) (sink : WsSink) (sent : List Sent) :
    Option (List ParticipantStatus) :=
  (statuses roomId sink sent).getLast?

/-- The last status of the room on the sink of every member whose sink is open lists
exactly the room's members. -/
def UpToDate (state : SignalingState) (sent : List Sent) (closed : List WsSink) (roomId : RoomId) :
    Prop :=
  ∀ id member, state.member roomId id = some member → member.sink ∉ closed →
    ∃ participants, lastStatus roomId member.sink sent = some participants ∧
      ∀ status, status ∈ participants ↔
        ∃ other found, state.member roomId other = some found ∧ found.status = status

/-- The task has pruned the room, or taken its participant out of it, and will yet
announce it. -/
def Point.owesStatus (roomId : RoomId) : Point → Bool
  | .joining _ request stage =>
      decide (request.roomId = roomId) &&
        match stage with
        | .prune => false
        | _ => true
  | .leaving (.announce pending _) => decide (roomId ∈ pending.map Prod.fst)
  | _ => false

section Texts

variable (roomId : RoomId) (sink : WsSink) (sent more : List Sent)

/-- The statuses among texts placed one after the other. -/
theorem statuses_append :
    statuses roomId sink (sent ++ more) = statuses roomId sink sent ++ statuses roomId sink more :=
  List.filterMap_append

/-- Texts without a status of the room leave the last one. -/
theorem lastStatus_append (none : statuses roomId sink more = []) :
    lastStatus roomId sink (sent ++ more) = lastStatus roomId sink sent := by
  rw [lastStatus, statuses_append, none, List.append_nil, lastStatus]

/-- The texts of the hooks hold no status. -/
theorem statuses_ofHooks {sent : List Sent} (hooks : ∀ text ∈ sent, text.2.ofHooks = true) :
    statuses roomId sink sent = [] := by
  apply List.filterMap_eq_nil_iff.mpr
  intro text placed
  have plain := hooks text placed
  split
  · rename_i same
    rw [same] at plain
    exact absurd plain (by simp [Frame.ofHooks])
  · rfl

/-- Nor do the texts of the clients. -/
theorem statuses_relayed {sent : List Sent} (relayed : ∀ text ∈ sent, ∃ raw, text.2 = .relayed raw) :
    statuses roomId sink sent = [] := by
  apply List.filterMap_eq_nil_iff.mpr
  intro text placed
  obtain ⟨raw, same⟩ := relayed text placed
  rw [same]

/-- A text for one sink and one room. -/
theorem mem_statuses {participants : List ParticipantStatus} :
    participants ∈ statuses roomId sink sent ↔
      ∃ required, (sink, .serialised (.roomStatus roomId participants required)) ∈ sent := by
  simp only [statuses, List.mem_filterMap]
  constructor
  · rintro ⟨⟨target, frame⟩, placed, chosen⟩
    split at chosen
    · rename_i required same
      simp only [Option.ite_none_right_eq_some, Option.some.injEq] at chosen
      obtain ⟨⟨rfl, rfl⟩, rfl⟩ := chosen
      simp only at same
      exact ⟨required, same ▸ placed⟩
    · simp at chosen
  · rintro ⟨required, placed⟩
    exact ⟨_, placed, by simp⟩

end Texts

namespace SignalingState

variable (state : SignalingState) (roomId : RoomId)

/-- The snapshot of a room lists its members. -/
theorem mem_snapshot {room : Room} (stored : state.rooms.lookup roomId = some room)
    (status : ParticipantStatus) :
    status ∈ room.participantsSnapshot ↔
      ∃ id member, state.member roomId id = some member ∧ member.status = status := by
  simp only [member, stored, Option.bind_some, Room.participantsSnapshot, List.mem_map,
    Table.mem_values, Member.status]
  constructor
  · rintro ⟨member, ⟨id, found⟩, same⟩
    exact ⟨id, member, found, same⟩
  · rintro ⟨id, member, found, same⟩
    exact ⟨member, ⟨id, found⟩, same⟩

/-- Announcing a room places its snapshot, and that alone, on the sink of every
member. -/
theorem statuses_broadcast {room : Room} (stored : state.rooms.lookup roomId = some room)
    {id : ParticipantId} {member : Member} (found : state.member roomId id = some member) :
    (∀ participants ∈ statuses roomId member.sink (broadcastRoomStatus state roomId),
      participants = room.participantsSnapshot) ∧
      statuses roomId member.sink (broadcastRoomStatus state roomId) ≠ [] := by
  rw [SignalingState.member, stored, Option.bind_some] at found
  constructor
  · intro participants listed
    obtain ⟨required, placed⟩ := (mem_statuses roomId member.sink _).mp listed
    simp only [broadcastRoomStatus, stored, Room.broadcastAll, List.mem_map, Prod.mk.injEq,
      Frame.serialised.injEq, SdpMessage.roomStatus.injEq] at placed
    obtain ⟨_, _, _, _, same, _⟩ := placed
    exact same.symm
  · apply List.ne_nil_of_mem (a := room.participantsSnapshot)
    refine (mem_statuses roomId member.sink _).mpr ⟨state.e2eeRequired, ?_⟩
    simp only [broadcastRoomStatus, stored, Room.broadcastAll, List.mem_map, Prod.mk.injEq,
      and_true]
    exact ⟨member, (Table.mem_values member room.members).mpr ⟨id, found⟩, rfl⟩

/-- Announcing a room says nothing of another. -/
theorem statuses_broadcast_ne {tested : RoomId} (apart : tested ≠ roomId) (sink : WsSink) :
    statuses tested sink (broadcastRoomStatus state roomId) = [] := by
  apply List.eq_nil_iff_forall_not_mem.mpr
  intro participants listed
  obtain ⟨required, placed⟩ := (mem_statuses tested sink _).mp listed
  unfold broadcastRoomStatus at placed
  cases stored : state.rooms.lookup roomId with
  | none => simp [stored] at placed
  | some room =>
    simp only [stored, Room.broadcastAll, List.mem_map, Prod.mk.injEq, Frame.serialised.injEq,
      SdpMessage.roomStatus.injEq] at placed
    obtain ⟨_, _, _, same, _⟩ := placed
    exact apart same.symm

/-- Once a room is announced it is up to date, whatever else is said in passing. -/
theorem upToDate_of_broadcast (past lead rest : List Sent) (closed : List WsSink)
    (silent : ∀ sink, statuses roomId sink rest = []) :
    UpToDate state (past ++ (lead ++ broadcastRoomStatus state roomId ++ rest)) closed roomId := by
  intro id member found _
  obtain ⟨room, stored, _⟩ := Option.bind_eq_some_iff.mp found
  obtain ⟨same, some⟩ := state.statuses_broadcast roomId stored found
  refine ⟨room.participantsSnapshot, ?_, state.mem_snapshot roomId stored⟩
  rw [← List.append_assoc, lastStatus_append _ _ _ _ (silent member.sink), ← List.append_assoc,
    lastStatus, statuses_append, List.getLast?_append_of_ne_nil _ some]
  rw [List.getLast?_eq_some_getLast some]
  exact congrArg Option.some (same _ (List.getLast_mem some))

/-- A room that nothing was said of and whose members are the same stays up to date. -/
theorem upToDate_same {after : SignalingState} {sent more : List Sent} {closed later : List WsSink}
    (upToDate : UpToDate state sent closed roomId)
    (same : ∀ id, after.member roomId id = state.member roomId id)
    (silent : ∀ sink, statuses roomId sink more = [])
    (gone : ∀ sink ∈ closed, sink ∈ later) :
    UpToDate after (sent ++ more) later roomId := by
  intro id member found live
  rw [same] at found
  obtain ⟨participants, last, each⟩ := upToDate id member found fun shut => live (gone _ shut)
  refine ⟨participants, ?_, ?_⟩
  · rw [lastStatus_append _ _ _ _ (silent member.sink), last]
  · intro status
    simp only [same, each]

/-- A chat message changes no member. -/
theorem member_pushChat (chatted : RoomId) (raw : String) (maxChatHistory : Nat)
    (id : ParticipantId) :
    (state.updateRoom chatted fun room => room.pushChat raw maxChatHistory).member roomId id =
      state.member roomId id := by
  rw [member_updateRoom]
  by_cases same : roomId = chatted
  · rw [if_pos same, same]
    rfl
  · rw [if_neg same]

/-- A room that only loses members keeps them all or gets smaller. -/
theorem same_or_smaller {after : SignalingState}
    (kept : ∀ id, after.member roomId id = state.member roomId id ∨ after.member roomId id = none) :
    (∀ id, after.member roomId id = state.member roomId id) ∨
      after.crowd roomId < state.crowd roomId := by
  by_cases same : ∀ id, after.member roomId id = state.member roomId id
  · exact .inl same
  · obtain ⟨id, lost⟩ := not_forall.mp same
    right
    have gone : after.member roomId id = none := (kept id).resolve_left lost
    have was : id ∈ state.memberIds roomId := by
      rw [mem_memberIds, seat, Option.isSome_map, ← Option.ne_none_iff_isSome]
      exact fun none => lost (gone.trans none.symm)
    have fewer : after.crowd roomId ≤ ((state.memberIds roomId).erase id).length := by
      apply crowd_le_length
      intro other seated
      rw [seat, Option.isSome_map] at seated
      rw [(state.memberIds_nodup roomId).mem_erase_iff, mem_memberIds, seat, Option.isSome_map]
      constructor
      · rintro rfl
        rw [gone] at seated
        exact absurd seated (by simp)
      · rcases kept other with same | none
        · rwa [same] at seated
        · rw [none] at seated
          exact absurd seated (by simp)
    rw [List.length_erase_of_mem was, ← crowd_eq] at fewer
    have some : 0 < state.crowd roomId := by
      rw [crowd_eq]
      exact List.length_pos_of_mem was
    omega

end SignalingState

/-- What a section of a task does to a room and to what its members were told. -/
inductive Reporting (config : Config) (world : World) (point : Point) (turn : Turn)
    (roomId : RoomId) : Prop
  /-- Nothing happens to the room and nothing is said of it. -/
  | quiet (same : ∀ id, turn.signaling.member roomId id = world.signaling.member roomId id)
      (silent : ∀ sink, statuses roomId sink turn.sent = [])
      (owing : point.owesStatus roomId = true → turn.connection.point.owesStatus roomId = true)
  /-- The room is announced as the section leaves it. -/
  | told (lead rest : List Sent)
      (sent : turn.sent = lead ++ broadcastRoomStatus turn.signaling roomId ++ rest)
      (silent : ∀ sink, statuses roomId sink rest = [])
  /-- Members are taken away; the task will announce the room. -/
  | owed (kept : ∀ id, turn.signaling.member roomId id = world.signaling.member roomId id ∨
        turn.signaling.member roomId id = none)
      (silent : ∀ sink, statuses roomId sink turn.sent = [])
      (owing : turn.connection.point.owesStatus roomId = true)
  /-- Members are taken away, and still there is no place for another. -/
  | refused (kept : ∀ id, turn.signaling.member roomId id = world.signaling.member roomId id ∨
        turn.signaling.member roomId id = none)
      (silent : ∀ sink, statuses roomId sink turn.sent = [])
      (full : turn.signaling.full roomId config.maxRoomMembers = true)

namespace Connection

variable {config : Config} {world : World} {id : WsSink} {connection : Connection}

/-- A room nothing is done to, for a task that owes it nothing. -/
theorem reporting_of_hooks {turn : Turn} {point : Point} {roomId : RoomId}
    (signaling : turn.signaling = world.signaling) (texts : ∀ text ∈ turn.sent, text.2.ofHooks = true)
    (owing : point.owesStatus roomId = true → turn.connection.point.owesStatus roomId = true) :
    Reporting config world point turn roomId :=
  .quiet (fun _ => by rw [signaling]) (fun sink => statuses_ofHooks roomId sink texts) owing

/-- A room's change that is announced at once, seen from any room. -/
theorem reporting_of_announce {turn : Turn} {point : Point} {roomId announced : RoomId}
    (lead : List Sent) (relayed : ∀ text ∈ lead, ∃ raw, text.2 = .relayed raw)
    (sent : turn.sent = lead ++ broadcastRoomStatus turn.signaling announced)
    (elsewhere : ∀ tested, tested ≠ announced → ∀ id,
      turn.signaling.member tested id = world.signaling.member tested id)
    (free : point.owesStatus roomId = false) :
    Reporting config world point turn roomId := by
  by_cases same : roomId = announced
  · subst same
    exact .told lead [] (by rw [sent, List.append_nil]) fun _ => rfl
  · refine .quiet (elsewhere roomId same) ?_ fun owing => absurd owing (by simp [free])
    intro sink
    rw [sent, statuses_append, statuses_relayed roomId sink relayed,
      turn.signaling.statuses_broadcast_ne announced same, List.append_nil]

/-- A `Join` handler prunes its room first and announces it in the end, unless the
room is full. -/
theorem joinSection_reporting (pid : ParticipantId) (first : Bool) (request : JoinRequest)
    (stage : JoinStage) (point : connection.point = .joining first request stage)
    (roomId : RoomId) :
    Reporting config world connection.point
      (connection.joinSection config world id pid first request stage) roomId := by
  have pruned : ∀ tested other, (world.pruned request.roomId).member tested other =
      world.signaling.member tested other ∨
        tested = request.roomId ∧ (world.pruned request.roomId).member tested other = none := by
    intro tested other
    rw [World.pruned, SignalingState.member_pruneStale]
    by_cases own : tested = request.roomId
    · subst own
      cases world.signaling.member request.roomId other with
      | none => exact .inl (by simp)
      | some member => cases live : world.isClosed member.sink <;> simp [Option.filter_some, live]
    · exact .inl (if_neg own)
  have elsewhere : ∀ tested, tested ≠ request.roomId → ∀ other,
      (world.pruned request.roomId).member tested other = world.signaling.member tested other :=
    fun tested apart other => (pruned tested other).resolve_right fun own => apart own.1
  have free : roomId ≠ request.roomId → connection.point.owesStatus roomId = false := by
    intro apart
    simp [point, Point.owesStatus, Ne.symm apart]
  cases stage with
  | prune =>
    by_cases own : roomId = request.roomId
    · subst own
      refine .owed (fun other => (pruned _ other).imp_right And.right) (fun _ => rfl) ?_
      simp [joinSection, World.turn, goto, Point.owesStatus]
    · exact .quiet (elsewhere roomId own) (fun _ => rfl)
        fun owing => absurd owing (by simp [free own])
  | dispatch =>
    cases admitted : admits config world request.roomId with
    | true =>
      have joined := (connection.joinSection_admitted config world id pid first request admitted).1
      obtain ⟨ready, plain, sent⟩ :=
        @joinSection_seated config world id connection pid first request admitted
      by_cases own : roomId = request.roomId
      · subst own
        refine .told _ _ sent fun sink => statuses_relayed _ sink ?_
        intro text placed
        obtain ⟨raw, _, rfl⟩ := List.mem_map.mp placed
        exact ⟨raw, rfl⟩
      · refine .quiet ?_ ?_ fun owing => absurd owing (by simp [free own])
        · intro other
          rw [joined, SignalingState.member_join, if_neg fun here => own here.1,
            elsewhere roomId own]
        · intro sink
          rw [sent, statuses_append, statuses_append, SignalingState.statuses_broadcast_ne _ _ own,
            statuses_ofHooks roomId sink (by simpa using plain), statuses_relayed]
          · rfl
          · intro text placed
            obtain ⟨raw, _, rfl⟩ := List.mem_map.mp placed
            exact ⟨raw, rfl⟩
    | false =>
      have signaling := (connection.joinSection_refused config world id pid first request admitted).1
      have silent : ∀ sink, statuses roomId sink
          (connection.joinSection config world id pid first request .dispatch).sent = [] := by
        intro sink
        rw [joinSection_full pid first request admitted]
        exact statuses_ofHooks roomId sink (by simp [SignalingState.roomIsFull, Frame.ofHooks])
      by_cases own : roomId = request.roomId
      · subst own
        refine .refused ?_ silent ?_
        · intro other
          rw [signaling]
          exact (pruned _ other).imp_right And.right
        · rw [signaling]
          simpa [admits] using admitted
      · refine .quiet ?_ silent fun owing => absurd owing (by simp [free own])
        intro other
        rw [signaling, elsewhere roomId own]
  | notifyPruned | notifyRejoin | ensureRoom | storeSession | announceCount =>
    refine .quiet (fun _ => rfl) (fun _ => rfl) ?_
    intro owing
    simpa [joinSection, World.turn, goto, point, Point.owesStatus] using owing

/-- A message that the media server leaves to the engine announces the room whose
members or flags it changes. -/
theorem dispatch_reporting (sfu : config.hooks = .sfu) (pid : ParticipantId) (handled : Handled)
    (answer : Option String) (left : config.hookStart handled.message = .dispatch)
    (roomId : RoomId) (point : Point) (free : point.owesStatus roomId = false) :
    Reporting config world point
      (connection.hookSection config world id pid handled answer .dispatch) roomId := by
  have nothing : ∀ text ∈ ([] : List Sent), ∃ raw, text.2 = .relayed raw := by simp
  have relay : ∀ (sinks : List WsSink) (raw : String),
      ∀ text ∈ SignalingState.relay sinks raw, ∃ raw, text.2 = .relayed raw := by
    intro sinks raw text placed
    obtain ⟨sink, _, rfl⟩ := List.mem_map.mp placed
    exact ⟨raw, rfl⟩
  have still : ∀ turn : Turn, turn.signaling = world.signaling →
      (∀ text ∈ turn.sent, ∃ raw, text.2 = .relayed raw) →
        Reporting config world point turn roomId := by
    intro turn signaling relayed
    exact .quiet (fun _ => by rw [signaling]) (fun sink => statuses_relayed roomId sink relayed)
      fun owing => absurd owing (by simp [free])
  have changed : ∀ (state : SignalingState) (announced : RoomId) (change : Room → Room) tested,
      tested ≠ announced → ∀ other,
        (state.updateRoom announced change).member tested other = state.member tested other := by
    intro state announced change tested apart other
    rw [SignalingState.member_updateRoom, if_neg apart]
  have keyed : ∀ (room : Option Room) (raw : String),
      ∀ text ∈ ((room.map fun room => room.broadcast (.relayed raw) pid).getD []),
        ∃ raw, text.2 = .relayed raw := by
    intro room raw text placed
    cases room with
    | none => simp at placed
    | some room =>
      obtain ⟨_, _, rfl⟩ := List.mem_map.mp placed
      exact ⟨raw, rfl⟩
  unfold hookSection
  unfold Config.hookStart at left
  rw [sfu] at left
  have joins := handled.notJoin
  cases message : handled.message <;> rw [message] at left joins <;>
    simp only [reduceCtorEq, SdpMessage.joinRequest] at left joins
  case leave participant announced =>
    exact reporting_of_announce [] nothing rfl
      (fun tested apart other => by
        simp only [SignalingState.dispatch, SignalingState.dispatchLeave]
        rw [SignalingState.member_leave, if_neg fun here => apart here.1])
      free
  case e2eePublicKey | e2eeKeyRotation =>
    exact reporting_of_announce _ (keyed _ _) rfl (changed _ _ _) free
  case chatMessage _ announced _ _ _ _ _ =>
    refine .quiet (world.signaling.member_pushChat _ _ _ _) ?_ fun owing => absurd owing (by simp [free])
    intro sink
    apply statuses_relayed
    intro text placed
    simp only [SignalingState.dispatch] at placed
    cases stored : ((world.signaling.updateRoom announced fun room =>
        room.pushChat handled.raw config.maxChatHistory).rooms.lookup announced) with
    | none => simp [stored] at placed
    | some room =>
      rw [stored] at placed
      obtain ⟨_, _, rfl⟩ := List.mem_map.mp placed
      exact ⟨handled.raw, rfl⟩
  case answer | e2eeSenderKey => exact still _ rfl (relay _ _)
  all_goals exact still _ rfl nothing

/-- A section of another message's handler says what it changes. -/
theorem hookSection_reporting (sfu : config.hooks = .sfu) (pid : ParticipantId)
    (handled : Handled) (answer : Option String) (stage : HookStage)
    (point : connection.point = .handling handled stage)
    (fits : connection.point.Fits config) (roomId : RoomId) :
    Reporting config world connection.point
      (connection.hookSection config world id pid handled answer stage) roomId := by
  have free : connection.point.owesStatus roomId = false := by rw [point]; rfl
  rcases @hookSection_effect config world id connection pid handled answer stage with
    ⟨signaling, _, texts⟩ | ⟨_, _, announced, change, changes, signaling, sent⟩ | rfl
  · exact reporting_of_hooks signaling texts fun owing => absurd owing (by simp [free])
  · have elsewhere : ∀ tested, tested ≠ announced → ∀ other,
        (connection.hookSection config world id pid handled answer stage).signaling.member tested
          other = world.signaling.member tested other := by
      intro tested apart other
      rw [signaling, SignalingState.announce, SignalingState.member_updateRoom, if_neg apart]
    refine reporting_of_announce [] (by simp) ?_ elsewhere free
    rw [sent, signaling]
    rfl
  · rw [point] at fits
    exact dispatch_reporting sfu pid handled answer (fits.mp rfl) roomId _ free

/-- The cleanup announces every room it takes its participant out of. -/
theorem leaveSection_reporting (pid : ParticipantId) (stage : LeaveStage) (point : connection.point = .leaving stage) (roomId : RoomId) :
    Reporting config world connection.point
      (connection.leaveSection config world id pid stage) roomId := by
  cases stage with
  | disconnect =>
    by_cases known : world.signaling.listed pid roomId
    · refine .owed ?_ (fun _ => rfl) ?_
      · intro other
        by_cases own : other = pid
        · subst own
          exact .inr (world.signaling.member_disconnect_self other roomId known)
        · exact .inl (world.signaling.member_disconnect_of_not pid other roomId
            fun here => own here.1)
      · exact decide_eq_true ((world.signaling.affected_disconnect pid roomId).mpr known)
    · refine .quiet ?_ (fun _ => rfl) ?_
      · intro other
        exact world.signaling.member_disconnect_of_not pid other roomId fun here => known here.2
      · rw [point]
        exact fun owing => absurd owing (by simp [Point.owesStatus])
  | announce pending affected =>
    cases pending with
    | nil =>
      simp only [leaveSection]
      split <;> exact reporting_of_hooks rfl (by simp [World.turn])
        fun owing => absurd owing (by simp [point, Point.owesStatus])
    | cons head pending =>
      by_cases same : roomId = head.1
      · subst same
        exact .told [] [] (by simp [leaveSection]; rfl) fun _ => rfl
      · refine .quiet (fun _ => rfl) ?_ ?_
        · exact fun sink => world.signaling.statuses_broadcast_ne head.1 same sink
        · simp [point, leaveSection, World.turn, goto, Point.owesStatus, same]
  | checkStale | lookup =>
    simp only [leaveSection]
    split <;> exact reporting_of_hooks rfl (by simp [World.turn])
      fun owing => absurd owing (by simp [point, Point.owesStatus])
  | stopScreen peers affected gone rest =>
    apply reporting_of_hooks rfl
    · rcases @leaveSection_texts config world id connection pid
        (.stopScreen peers affected gone rest) with ⟨_, _, _, _, impossible, _⟩ | texts
      · cases impossible
      · exact texts
    · exact fun owing => absurd owing (by simp [point, Point.owesStatus])
  | routes | allPeers | dropPeer | dropRoom | dropSession =>
    exact reporting_of_hooks rfl (by simp [leaveSection, World.turn])
      fun owing => absurd owing (by simp [point, Point.owesStatus])

end Connection

namespace World

variable {config : Config} {world after : World}

/-- The members of a room have been told of it as it is, or the room has a place left
and somebody will tell them. -/
def Reported (config : Config) (world : World) : Prop :=
  ∀ roomId, UpToDate world.signaling world.sent world.closed roomId ∨
    (world.signaling.crowd roomId < max 1 config.maxRoomMembers ∧
      ∃ id connection, world.connections.lookup id = some connection ∧
        connection.point.owesStatus roomId = true)

/-- A room that keeps its members keeps its number of members. -/
theorem crowd_same {state later : SignalingState} {roomId : RoomId}
    (same : ∀ id, later.member roomId id = state.member roomId id) :
    later.crowd roomId = state.crowd roomId := by
  apply Nat.le_antisymm
  · exact later.crowd_le roomId fun id seated => by
      rwa [SignalingState.seat, same] at seated
  · exact state.crowd_le roomId fun id seated => by
      rwa [SignalingState.seat, ← same] at seated

/-- A room without members is up to date. -/
theorem upToDate_of_empty {state : SignalingState} {roomId : RoomId} (sent : List Sent)
    (closed : List WsSink) (empty : state.crowd roomId = 0) :
    UpToDate state sent closed roomId := by
  intro id member found _
  have listed : id ∈ state.memberIds roomId := by
    rw [SignalingState.mem_memberIds, SignalingState.seat, found]
    rfl
  rw [SignalingState.crowd_eq, List.length_eq_zero_iff] at empty
  rw [empty] at listed
  exact absurd listed (by simp)

/-- A section that reports keeps the members told. -/
theorem reported_commit (within : world.Within config) (reported : world.Reported config)
    {id : WsSink} {connection : Connection} {turn : Turn}
    (present : world.connections.lookup id = some connection)
    (each : ∀ roomId, Reporting config world connection.point turn roomId) :
    (world.commit id turn).Reported config := by
  intro roomId
  have bound := within roomId
  have mine : turn.connection.point.owesStatus roomId = true →
      ∃ id' connection, (world.commit id turn).connections.lookup id' = some connection ∧
        connection.point.owesStatus roomId = true := by
    intro owing
    exact ⟨id, turn.connection, by rw [lookup_commit, if_pos rfl], owing⟩
  have told : UpToDate world.signaling world.sent world.closed roomId →
      (∀ other, turn.signaling.member roomId other = world.signaling.member roomId other) →
      (∀ sink, statuses roomId sink turn.sent = []) →
        UpToDate turn.signaling (world.sent ++ turn.sent) world.closed roomId :=
    fun upToDate same silent =>
      world.signaling.upToDate_same roomId upToDate same silent fun _ closed => closed
  cases each roomId with
  | quiet same silent owing =>
    rcases reported roomId with upToDate | ⟨place, debtor, owes, found, due⟩
    · exact .inl (told upToDate same silent)
    · refine .inr ⟨(crowd_same same).symm ▸ place, ?_⟩
      by_cases own : debtor = id
      · subst own
        cases present.symm.trans found
        exact mine (owing due)
      · exact ⟨debtor, owes, by rw [lookup_commit, if_neg own, found], due⟩
  | told lead rest sent silent =>
    left
    have announced := turn.signaling.upToDate_of_broadcast roomId world.sent lead rest world.closed
      silent
    rwa [← sent] at announced
  | owed kept silent owing =>
    rcases world.signaling.same_or_smaller roomId kept with same | smaller
    · rcases reported roomId with upToDate | ⟨place, _⟩
      · exact .inl (told upToDate same silent)
      · exact .inr ⟨(crowd_same same).symm ▸ place, mine owing⟩
    · exact .inr ⟨Nat.lt_of_lt_of_le smaller bound, mine owing⟩
  | refused kept silent full =>
    -- A room with a place left that refuses a member has no place at all.
    have taken : config.maxRoomMembers ≤ turn.signaling.crowd roomId := by
      unfold SignalingState.full at full
      unfold SignalingState.crowd
      cases stored : turn.signaling.rooms.lookup roomId with
      | none => simp [stored] at full
      | some room => simpa [stored] using full
    have empty : turn.signaling.crowd roomId < max 1 config.maxRoomMembers →
        UpToDate turn.signaling (world.sent ++ turn.sent) world.closed roomId :=
      fun place => upToDate_of_empty _ _ (by omega)
    rcases world.signaling.same_or_smaller roomId kept with same | smaller
    · rcases reported roomId with upToDate | ⟨place, _⟩
      · exact .inl (told upToDate same silent)
      · exact .inl (empty ((crowd_same same).symm ▸ place))
    · exact .inl (empty (Nat.lt_of_lt_of_le smaller bound))

/-- The section of a connection's task that comes next reports. -/
theorem advance_reporting (sfu : config.hooks = .sfu) {id : WsSink} {connection : Connection}
    {answer : Option String} {turn : Turn} (fits : connection.point.Fits config)
    (taken : connection.advance config world id answer = some turn) (roomId : RoomId) :
    Reporting config world connection.point turn roomId := by
  unfold Connection.advance at taken
  split at taken <;> cases taken
  · rename_i request point bound
    unfold Connection.precheckSection
    split <;> exact Connection.reporting_of_hooks rfl
      (by simp [World.turn, SignalingState.roomIsFull, Frame.ofHooks])
      fun owing => absurd owing (by simp [point, Point.owesStatus])
  · rename_i request point bound
    exact .quiet (fun _ => rfl) (fun _ => rfl)
      fun owing => absurd owing (by simp [point, Point.owesStatus])
  · rename_i first request stage pid point bound
    exact Connection.joinSection_reporting pid first request stage point roomId
  · rename_i handled stage pid point bound
    exact Connection.hookSection_reporting sfu pid handled answer stage point fits roomId
  · rename_i stage pid point bound
    exact Connection.leaveSection_reporting pid stage point roomId

/-- Every step keeps the members told. -/
theorem reported_step (sfu : config.hooks = .sfu) (fresh : world.Fresh)
    (fitting : world.Fitting config) (within : world.Within config)
    (reported : world.Reported config) (event : Event)
    (stepped : world.step config event = some after) : after.Reported config := by
  cases stepped_of_step event stepped with
  | connected =>
    intro roomId
    apply (reported roomId).imp_right
    rintro ⟨place, id, connection, found, due⟩
    refine ⟨place, id, connection, ?_, due⟩
    rw [Table.lookup_insert_eq, if_neg, found]
    rintro rfl
    rw [fresh _ (Nat.le_refl _)] at found
    exact absurd found (by simp)
  | heard id raw parsed auth rateOk connection present idle =>
    apply reported_commit within reported present
    intro roomId
    obtain ⟨signaling, texts, _⟩ :=
      @Connection.receive_texts config world id connection raw parsed auth rateOk
    exact Connection.reporting_of_hooks signaling texts
      fun owing => absurd owing (by simp [idle, Point.owesStatus])
  | finished _ id connection sent present idle texts =>
    apply reported_commit within reported present
    intro roomId
    apply Connection.reporting_of_hooks rfl
    · rcases texts with rfl | rfl <;> simp [Frame.ofHooks]
    · exact fun owing => absurd owing (by simp [idle, Point.owesStatus])
  | advanced id answer connection turn present taken =>
    apply reported_commit within reported present
    exact fun roomId => advance_reporting sfu (fitting id connection present) taken roomId
  | shut id =>
    intro roomId
    apply (reported roomId).imp_left
    intro upToDate
    have same := world.signaling.upToDate_same roomId upToDate (fun _ => rfl)
      (fun sink => show statuses roomId sink [] = [] from rfl)
      fun sink closed => List.mem_cons_of_mem id closed
    rwa [List.append_nil] at same
  | mediaEnded | routed => exact reported

/-- In every state reached with the media server's hooks the members have been told, or
will be. -/
theorem reported_of_reaches (sfu : config.hooks = .sfu) {admitted : World → Event → Prop}
    {e2eeRequired : Bool}
    (reached : Reaches (step config) admitted (new e2eeRequired) world) :
    world.Reported config := by
  apply reached.invariant_with
    (fun world => world.Fresh ∧ world.Fitting config ∧ world.Within config) (Reported config)
  · exact fun world reached =>
      ⟨fresh_of_reaches reached, fitting_of_reaches reached, within_of_reaches reached⟩
  · intro roomId
    exact .inl fun id member found => by simp [new, SignalingState.new, SignalingState.member] at found
  · intro before event after known reported _ stepped
    exact reported_step sfu known.1 known.2.1 known.2.2 reported event stepped

end World

/-- In every state reached with the media server's hooks in which nobody is between
pruning a room and the end of its `Join`, or between taking its participant out of the
room and announcing it, the last status of the room on the sink of each member whose
sink is open lists the room as it is.

In every state the members were told of the room as it is, or somebody has taken a place in
it and will still tell them. The exceptions in the statement are the two places where this
debt is owed. -/
theorem status_converges (config : Config) (sfu : config.hooks = .sfu) (e2eeRequired : Bool)
    {world : World}
    (reached : Reaches (World.step config) always (World.new e2eeRequired) world)
    (roomId : RoomId) (room : Room) (stored : world.signaling.rooms.lookup roomId = some room)
    (settled : ∀ id connection, world.connections.lookup id = some connection →
      connection.point.owesStatus roomId = false)
    (id : ParticipantId) (member : Member) (found : room.members.lookup id = some member)
    (live : member.sink ∉ world.closed) :
    ∃ participants, lastStatus roomId member.sink world.sent = some participants ∧
      ∀ status, status ∈ participants ↔ status ∈ room.participantsSnapshot := by
  have seated : world.signaling.member roomId id = some member := by
    rw [SignalingState.member, stored, Option.bind_some, found]
  rcases World.reported_of_reaches sfu reached roomId with upToDate | ⟨_, debtor, owes, at_, due⟩
  · obtain ⟨participants, last, each⟩ := upToDate id member seated live
    refine ⟨participants, last, ?_⟩
    intro status
    rw [each, world.signaling.mem_snapshot roomId stored]
  · rw [settled debtor owes at_] at due
    exact absurd due (by simp)

/-- Two members, the first of whom mutes itself. -/
theorem status_converges_muted :
    let events := [.connect, .connect] ++ Event.firstJoin 1 ⟨1⟩ "a" ++ Event.firstJoin 2 ⟨2⟩ "a" ++
      [.receive 1 "" (some (.muteAudio ⟨1⟩ "a")) (.ok ()) true] ++ Event.sections 1 4
    let world := (walk (World.step Config.sfuDefault) always (World.new false) events).getD
      (World.new false)
    ∃ room member participants, world.signaling.rooms.lookup "a" = some room ∧
      room.members.lookup ⟨2⟩ = some member ∧
      lastStatus "a" member.sink world.sent = some participants ∧
      ∀ status, status ∈ participants ↔ status ∈ room.participantsSnapshot := by
  intro events world
  have reached : Reaches (World.step Config.sfuDefault) always (World.new false) world :=
    walk_reaches_end _ _ _ _ (by decide +kernel)
  have seated : (world.signaling.member "a" ⟨2⟩).map Member.sink = some 2 ∧ world.closed = [] := by
    decide +kernel
  have settled : world.connections.Every fun _ connection =>
      connection.point.owesStatus "a" = false := by decide +kernel
  obtain ⟨member, present, _⟩ := Option.map_eq_some_iff.mp seated.1
  obtain ⟨room, stored, found⟩ := Option.bind_eq_some_iff.mp present
  obtain ⟨participants, last, each⟩ := status_converges Config.sfuDefault rfl false reached "a" room
    stored settled ⟨2⟩ member found (by simp [seated.2])
  exact ⟨room, member, participants, stored, found, last, each⟩

end Seameet
