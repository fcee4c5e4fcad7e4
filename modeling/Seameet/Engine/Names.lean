import Seameet.Engine.Stepping

/-!
# Names in the state

The first `Join` of a connection has its room identifier checked and its display
name cleaned before anything is done with it. A later one has its room identifier
checked for its length only, and its display name not at all, and the dispatch
stores what it is given. So the names in the state stay valid exactly as long as
every later `Join` that is admitted brings valid ones.
-/

namespace Seameet

open Library

section Cleaning

variable (config : Config)

/-- A display name without control characters, within the limit. -/
def validDisplayName (name : String) : Bool :=
  byteLen name.toList ≤ config.maxDisplayNameLen && !name.toList.any isControl

/-- What a cut leaves is part of the text, and has the length of the cut. -/
theorem cutBytes_spec (count : Nat) (chars cut : List Char)
    (kept : cutBytes count chars = some cut) :
    byteLen cut = count ∧ ∀ char ∈ cut, char ∈ chars := by
  induction chars generalizing count cut with
  | nil =>
    cases count with
    | zero =>
      cases kept
      exact ⟨rfl, fun _ present => present⟩
    | succ count => simp [cutBytes] at kept
  | cons char rest inductionHypothesis =>
    cases count with
    | zero =>
      cases kept
      exact ⟨rfl, by simp⟩
    | succ count =>
      simp only [cutBytes, Option.ite_none_right_eq_some, Option.map_eq_some_iff] at kept
      obtain ⟨fits, shorter, cutRest, rfl⟩ := kept
      obtain ⟨length, among⟩ := inductionHypothesis _ _ cutRest
      refine ⟨?_, ?_⟩
      · simp only [byteLen, length]
        omega
      · intro tested present
        rcases List.mem_cons.mp present with here | later
        · exact here ▸ List.mem_cons_self
        · exact List.mem_cons_of_mem _ (among tested later)

/-- A sanitised display name is valid. -/
theorem sanitizeName_valid (name cleaned : String)
    (sanitized : sanitizeName config name = some cleaned) :
    validDisplayName config cleaned = true := by
  have printable : ∀ char ∈ name.toList.filter fun char => !isControl char,
      isControl char = false :=
    fun char present => by simpa using (List.mem_filter.mp present).2
  simp only [sanitizeName] at sanitized
  split at sanitized
  · obtain ⟨cut, kept, rfl⟩ := Option.map_eq_some_iff.mp sanitized
    obtain ⟨length, among⟩ := cutBytes_spec _ _ _ kept
    have unbroken : cut.any isControl = false := by
      rw [List.any_eq_false]
      intro char present
      simp [printable char (among char present)]
    simp [validDisplayName, length, unbroken]
  · rename_i short
    cases sanitized
    have unbroken : (name.toList.filter fun char => !isControl char).any isControl = false := by
      rw [List.any_eq_false]
      intro char present
      simp [printable char present]
    simp only [validDisplayName, String.toList_ofList, unbroken, Bool.not_false, Bool.and_true,
      decide_eq_true_eq]
    omega

/-- A name without its control characters. -/
def cleanedName (name : String) : List Char := name.toList.filter fun char => !isControl char

/-- A text has a character that begins after so many bytes, or ends there. -/
def CutsAt (count : Nat) (chars : List Char) : Prop :=
  ∃ head : List Char, head <+: chars ∧ byteLen head = count

/-- What sanitising a name should come to. -/
structure Sanitized (name result : String) : Prop where
  printable : ∀ char ∈ result.toList, isControl char = false
  beginning : result.toList <+: cleanedName name
  within : byteLen result.toList ≤ config.maxDisplayNameLen
  settled : sanitizeName config result = some result

/-- A cut leaves a beginning of the text. -/
theorem cutBytes_prefix (count : Nat) (chars cut : List Char)
    (kept : cutBytes count chars = some cut) : cut <+: chars := by
  induction chars generalizing count cut with
  | nil =>
    cases count with
    | zero =>
      cases kept
      exact List.nil_prefix
    | succ count => simp [cutBytes] at kept
  | cons char rest inductionHypothesis =>
    cases count with
    | zero =>
      cases kept
      exact List.nil_prefix
    | succ count =>
      simp only [cutBytes, Option.ite_none_right_eq_some, Option.map_eq_some_iff] at kept
      obtain ⟨_, shorter, cutRest, rfl⟩ := kept
      exact List.prefix_cons_inj char |>.mpr (inductionHypothesis _ _ cutRest)

/-- A cut between two characters leaves what is before it. -/
theorem cutBytes_between (head rest : List Char) :
    cutBytes (byteLen head) (head ++ rest) = some head := by
  induction head with
  | nil =>
    unfold byteLen cutBytes
    rfl
  | cons char head inductionHypothesis =>
    have occupied := Char.utf8Size_pos char
    obtain ⟨count, total⟩ : ∃ count, byteLen (char :: head) = count + 1 :=
      Nat.exists_eq_succ_of_ne_zero (by simp only [byteLen]; omega)
    have whole : char.utf8Size + byteLen head = count + 1 := total
    have remaining : count + 1 - char.utf8Size = byteLen head := by omega
    rw [total, List.cons_append, cutBytes, if_pos (by omega), remaining, inductionHypothesis]
    rfl

/-- A cut panics unless it falls between two characters. -/
theorem cutBytes_isSome_iff (count : Nat) (chars : List Char) :
    (cutBytes count chars).isSome = true ↔ CutsAt count chars := by
  constructor
  · intro made
    obtain ⟨cut, kept⟩ := Option.isSome_iff_exists.mp made
    exact ⟨cut, cutBytes_prefix count chars cut kept, (cutBytes_spec count chars cut kept).1⟩
  · rintro ⟨head, ⟨rest, rfl⟩, rfl⟩
    rw [cutBytes_between]
    rfl

/-- A sanitised name begins the cleaned one. -/
theorem sanitizeName_prefix (name result : String)
    (sanitized : sanitizeName config name = some result) : result.toList <+: cleanedName name := by
  simp only [sanitizeName] at sanitized
  split at sanitized
  · obtain ⟨cut, kept, rfl⟩ := Option.map_eq_some_iff.mp sanitized
    rw [String.toList_ofList]
    exact cutBytes_prefix _ _ cut kept
  · cases sanitized
    rw [String.toList_ofList]
    exact List.prefix_rfl

/-- A valid name is sanitised to itself. -/
theorem sanitizeName_of_valid (name : String) (valid : validDisplayName config name = true) :
    sanitizeName config name = some name := by
  simp only [validDisplayName, Bool.and_eq_true, decide_eq_true_eq, Bool.not_eq_true',
    List.any_eq_false] at valid
  have clean : (name.toList.filter fun char => !isControl char) = name.toList :=
    List.filter_eq_self.mpr fun char present => by simpa using valid.2 char present
  unfold sanitizeName
  rw [clean, if_neg (by omega), String.ofList_toList]

/-- What a name is sanitised to is as it should be. -/
theorem sanitized_of_sanitizeName (name result : String)
    (sanitized : sanitizeName config name = some result) : Sanitized config name result := by
  have valid := sanitizeName_valid config name result sanitized
  have settled := sanitizeName_of_valid config result valid
  simp only [validDisplayName, Bool.and_eq_true, decide_eq_true_eq, Bool.not_eq_true',
    List.any_eq_false] at valid
  exact ⟨fun char present => by simpa using valid.2 char present,
    sanitizeName_prefix config name result sanitized, valid.1, settled⟩

/-- A name is sanitised as it should be exactly when it is short enough without its
control characters, or can be cut at the limit.

The sanitised name is the cleaned one or its cut, so that the question is only whether the
cut comes out. It does where the limit falls between two characters. -/
theorem sanitizeName_safe_iff (name : String) :
    (∃ result, sanitizeName config name = some result ∧ Sanitized config name result) ↔
      byteLen (cleanedName name) ≤ config.maxDisplayNameLen ∨
        CutsAt config.maxDisplayNameLen (cleanedName name) := by
  have answered : (∃ result, sanitizeName config name = some result ∧ Sanitized config name result) ↔
      (sanitizeName config name).isSome = true := by
    rw [Option.isSome_iff_exists]
    constructor
    · rintro ⟨result, sanitized, _⟩
      exact ⟨result, sanitized⟩
    · rintro ⟨result, sanitized⟩
      exact ⟨result, sanitized, sanitized_of_sanitizeName config name result sanitized⟩
  rw [answered, ← cutBytes_isSome_iff]
  simp only [sanitizeName]
  split
  · rename_i long
    rw [Option.isSome_map]
    exact ⟨.inr, fun either => either.resolve_left (by unfold cleanedName; omega)⟩
  · rename_i short
    exact ⟨fun _ => .inl (Nat.le_of_not_lt short), fun _ => rfl⟩

/-- A name of sixty-five bytes whose last two are one character cannot be cut at
sixty-four. -/
theorem sanitizeName_splits_character :
    sanitizeName .sfuDefault
      "aaaaaaaaaaaaaaaaaaaaaaaaaaaaaaaaaaaaaaaaaaaaaaaaaaaaaaaaaaaaaaaé" = none := by
  decide +kernel

/-- The names a `Join` brings are valid. -/
def JoinRequest.valid (request : JoinRequest) : Bool :=
  validRoomId config request.roomId && request.displayName.all (validDisplayName config)

/-- A first `Join` goes on to the capacity check with valid names only. -/
theorem Connection.receiveFirst_valid (world : World) (id : WsSink) (connection : Connection)
    (idle : connection.point = .idle) (request : JoinRequest) (auth : Except String Unit)
    (started : JoinRequest)
    (under : (connection.receiveFirst config world id request auth).connection.point.firstRequest =
      some started) :
    started.valid config = true := by
  unfold receiveFirst at under
  split at under
  · rename_i room
    split at under
    · simp [World.turn, Connection.goto, Point.firstRequest] at under
    · rename_i displayName cleaned
      split at under
      · simp [World.turn, Connection.goto, Point.firstRequest] at under
      · simp only [World.turn, Connection.goto, Point.firstRequest, Option.some.injEq] at under
        subst under
        simp only [JoinRequest.valid, room, Bool.true_and]
        cases name : request.displayName with
        | none =>
          rw [name] at cleaned
          cases cleaned
          rfl
        | some name' =>
          rw [name] at cleaned
          obtain ⟨clean, sanitized, rfl⟩ := Option.map_eq_some_iff.mp cleaned
          exact sanitizeName_valid config _ _ sanitized
  · simp [World.turn, idle, Point.firstRequest] at under

/-- A text starts no first `Join` but one with valid names. -/
theorem Connection.receive_valid (world : World) (id : WsSink) (connection : Connection)
    (idle : connection.point = .idle) (raw : String) (parsed : Option SdpMessage)
    (auth : Except String Unit) (rateOk : Bool) (started : JoinRequest)
    (under : (connection.receive config world id raw parsed auth
      rateOk).connection.point.firstRequest = some started) :
    started.valid config = true := by
  cases parsed with
  | none => simp [receive, World.turn, idle, Point.firstRequest] at under
  | some message =>
    simp only [receive] at under
    cases bound : connection.participantId with
    | none =>
      rw [bound] at under
      cases join : message.joinRequest with
      | none => simp [join, World.turn, idle, Point.firstRequest] at under
      | some request =>
        simp only [join] at under
        exact receiveFirst_valid config world id connection idle request auth started under
    | some pid =>
      rw [bound] at under
      simp only [receiveNext] at under
      split at under
      · cases join : message.joinRequest with
        | some request =>
          simp [World.turn, Connection.goto, config.start_join message raw join,
            Point.firstRequest] at under
        | none =>
          simp [World.turn, Connection.goto, config.start_handling message raw join,
            Point.firstRequest] at under
      · simp only [World.turn] at under
        split at under <;> simp [idle, Point.firstRequest] at under

end Cleaning

/-- Every room's name and every member's display name is valid. -/
structure SignalingState.NamesValid (config : Config) (state : SignalingState) : Prop where
  rooms : ∀ roomId, state.hasRoom roomId = true → validRoomId config roomId = true
  members : ∀ roomId id member, state.member roomId id = some member →
    member.displayName.all (validDisplayName config) = true

/-- No room is made, and nobody is renamed or becomes a member. -/
structure SignalingState.NamesKept (before after : SignalingState) : Prop where
  rooms : ∀ roomId, after.hasRoom roomId = true → before.hasRoom roomId = true
  members : ∀ roomId id member, after.member roomId id = some member →
    ∃ former, before.member roomId id = some former ∧ former.displayName = member.displayName

namespace SignalingState

variable {config : Config} {before after : SignalingState}

/-- Keeping the names keeps them valid. -/
theorem NamesValid.kept (valid : before.NamesValid config) (kept : before.NamesKept after) :
    after.NamesValid config := by
  constructor
  · intro roomId there
    exact valid.rooms roomId (kept.rooms roomId there)
  · intro roomId id member stored
    obtain ⟨former, was, same⟩ := kept.members roomId id member stored
    exact same ▸ valid.members roomId id former was

namespace NamesKept

/-- Nothing changes. -/
theorem refl (state : SignalingState) : state.NamesKept state :=
  ⟨fun _ there => there, fun _ _ member stored => ⟨member, stored, rfl⟩⟩

/-- A change confined to flags and chat keeps the names. -/
theorem confined {roomId : RoomId} {pid : ParticipantId} {raw : String} {maxChatHistory : Nat}
    (change : Confined roomId pid raw maxChatHistory before after) : before.NamesKept after := by
  constructor
  · intro tested there
    rwa [change.sameSeats.hasRoom] at there
  · intro tested id member stored
    by_cases same : tested = roomId
    · subst same
      by_cases own : id = pid
      · subst own
        obtain ⟨flags, changed⟩ := change.own
        rw [changed] at stored
        obtain ⟨former, was, rfl⟩ := Option.map_eq_some_iff.mp stored
        exact ⟨former, was, rfl⟩
      · rw [change.others id own] at stored
        exact ⟨member, stored, rfl⟩
    · rw [SignalingState.member, change.elsewhere tested same] at stored
      exact ⟨member, stored, rfl⟩

/-- Removing members keeps the names of the others. -/
theorem removed (rooms : ∀ roomId, after.hasRoom roomId = true → before.hasRoom roomId = true)
    (members : ∀ roomId id member, after.member roomId id = some member →
      before.member roomId id = some member) : before.NamesKept after :=
  ⟨rooms, fun roomId id member stored => ⟨member, members roomId id member stored, rfl⟩⟩

/-- A pruning keeps the names. -/
theorem pruned (state : SignalingState) (roomId : RoomId) (closed : WsSink → Bool) :
    state.NamesKept (state.pruneStale roomId closed).2 := by
  apply removed
  · intro tested there
    rwa [pruneStale, hasRoom_updateRoom] at there
  · intro tested id member stored
    rw [member_pruneStale] at stored
    split at stored
    · rename_i same
      exact same ▸ (Option.filter_eq_some_iff.mp stored).1
    · exact stored

/-- A `leave` keeps the names. -/
theorem left (state : SignalingState) (id : ParticipantId) (roomId : RoomId) :
    state.NamesKept (state.leave id roomId).2 := by
  apply removed
  · intro tested there
    exact state.hasRoom_of_leave id roomId tested there
  · intro tested other member stored
    rw [member_leave] at stored
    split at stored
    · simp at stored
    · exact stored

/-- Keeping the names twice is keeping them. -/
theorem trans {middle : SignalingState} (first : before.NamesKept middle)
    (second : middle.NamesKept after) : before.NamesKept after := by
  constructor
  · intro roomId there
    exact first.rooms roomId (second.rooms roomId there)
  · intro roomId id member stored
    obtain ⟨between, was, same⟩ := second.members roomId id member stored
    obtain ⟨former, earlier, agree⟩ := first.members roomId id between was
    exact ⟨former, earlier, agree.trans same⟩

/-- Leaving the listed rooms keeps the names. -/
theorem leftAll (state : SignalingState) (id : ParticipantId) (names : List RoomId) :
    state.NamesKept (leaveAll id state names).2 := by
  induction names generalizing state with
  | nil => exact refl state
  | cons roomId rest inductionHypothesis =>
    exact (left state id roomId).trans (inductionHypothesis (state.leave id roomId).2)

/-- A disconnect keeps the names. -/
theorem disconnected (state : SignalingState) (id : ParticipantId) :
    state.NamesKept (state.disconnect id).2 := by
  have left := leftAll state id (((state.connections.lookup id).map Prod.snd).getD [])
  exact ⟨left.rooms, left.members⟩

/-- Putting a generation on record keeps the names. -/
theorem registered (state : SignalingState) (id : ParticipantId) (gen : Nat) :
    state.NamesKept (state.setConnectionGen id gen) :=
  removed (fun _ there => there) fun _ _ _ stored => stored

/-- Changing a flag of the sender keeps the names. -/
theorem announced (state : SignalingState) (pid : ParticipantId) (message : SdpMessage)
    (roomId : RoomId) (change : Room → Room)
    (changes : SfuServer.mediaChange pid message = some (roomId, change)) :
    state.NamesKept (state.announce roomId change).1 := by
  obtain ⟨flag, rfl⟩ := SfuServer.mediaChange_flag changes
  have change : Confined roomId pid "" 0 state (state.announce roomId _).1 := .setMedia state flag
  exact confined change

/-- Dispatching any message but a `Join` keeps the names. -/
theorem dispatched (state : SignalingState) (message : SdpMessage) (raw : String)
    (pid : ParticipantId) (selfTx : WsSink) (closed : WsSink → Bool)
    (maxChatHistory maxRoomMembers : Nat) (notJoin : message.joinRequest = none) :
    state.NamesKept
      (state.dispatch message raw pid selfTx closed maxChatHistory maxRoomMembers).1 := by
  cases parts : message.changesMembership with
  | true =>
    cases message with
    | leave participant roomId => exact left state participant roomId
    | join => simp [SdpMessage.joinRequest] at notJoin
    | _ => simp [SdpMessage.changesMembership] at parts
  | false =>
    cases named : message.roomId with
    | some roomId =>
      exact confined (state.dispatch_keeps message raw pid selfTx closed maxChatHistory
        maxRoomMembers roomId named parts)
    | none =>
      cases message with
      | error => exact refl state
      | _ => simp [SdpMessage.roomId] at named

end NamesKept

/-- A `join` brings in its own names, and keeps the rest valid. -/
theorem namesValid_join (state : SignalingState) (valid : state.NamesValid config)
    (id : ParticipantId) (roomId : RoomId) (sink : WsSink) (displayName : Option String) :
    (state.join id roomId sink displayName).2.NamesValid config ↔
      validRoomId config roomId = true ∧ displayName.all (validDisplayName config) = true := by
  constructor
  · intro after
    refine ⟨after.rooms roomId (by simp [hasRoom_join]), ?_⟩
    exact after.members roomId id (.withDisplayName id sink displayName) (by simp [member_join])
  · rintro ⟨room, name⟩
    constructor
    · intro tested there
      rw [hasRoom_join, Bool.or_eq_true, decide_eq_true_eq] at there
      rcases there with own | former
      · exact own ▸ room
      · exact valid.rooms tested former
    · intro tested other member stored
      rw [member_join] at stored
      split at stored
      · cases stored
        exact name
      · exact valid.members tested other member stored

end SignalingState

/-- The step does not admit a later `Join` whose names are not valid. -/
def laterJoinValid (config : Config) (world : World) : Event → Bool
  | .advance id _ =>
      match world.task id with
      | some (.joining false request .dispatch, _) =>
          !Connection.admits config world request.roomId || request.valid config
      | _ => true
  | _ => true

namespace World

variable {config : Config} {world after : World}

/-- A step keeps the names, or dispatches an admitted `Join`. -/
theorem step_names (event : Event) (stepped : world.step config event = some after) :
    (world.signaling.NamesKept after.signaling ∧ laterJoinValid config world event = true) ∨
      ∃ id answer connection pid first request, event = .advance id answer ∧
        world.connections.lookup id = some connection ∧
        connection.point = .joining first request .dispatch ∧
        connection.participantId = some pid ∧
        Connection.admits config world request.roomId = true ∧
        after.signaling = ((world.pruned request.roomId).join request.participant request.roomId id
          request.displayName).2 := by
  have moved : ∀ {id turn state}, Turn.signaling turn = state → world.signaling.NamesKept state →
      world.signaling.NamesKept (world.commit id turn).signaling := by
    rintro id turn _ rfl kept
    exact kept
  cases world.stepped_of_step event stepped with
  | connected | shut | mediaEnded | routed => exact .inl ⟨.refl _, rfl⟩
  | finished _ _ _ _ _ _ _ still =>
    refine .inl ⟨.refl _, ?_⟩
    cases event with
    | advance id answer => exact absurd rfl (still id answer)
    | _ => rfl
  | heard id raw parsed auth rateOk connection present idle =>
    exact .inl ⟨moved (connection.receive_texts raw parsed auth rateOk).1 (.refl _), rfl⟩
  | advanced id answer connection turn present taken =>
    unfold Connection.advance at taken
    split at taken
    · rename_i request point unbound
      cases taken
      refine .inl ⟨moved ?_ (.refl _), by simp [laterJoinValid, task, present, point]⟩
      simp only [Connection.precheckSection]
      split <;> rfl
    · rename_i request point unbound
      cases taken
      exact .inl ⟨.registered _ _ _, by simp [laterJoinValid, task, present, point]⟩
    · rename_i first request stage pid point bound
      cases taken
      by_cases dispatched : stage = .dispatch
      · subst dispatched
        cases admitted : Connection.admits config world request.roomId with
        | true =>
          exact .inr ⟨id, answer, connection, pid, first, request, rfl, present, point, bound,
            admitted,
            (connection.joinSection_admitted config world id pid first request admitted).1⟩
        | false =>
          have refused := connection.joinSection_refused config world id pid first request admitted
          refine .inl ⟨moved refused.1 (.pruned _ _ _), ?_⟩
          cases first <;> simp [laterJoinValid, task, present, point, admitted]
      · refine .inl ⟨?_, ?_⟩
        · cases stage with
          | prune => exact .pruned _ _ _
          | dispatch => exact absurd rfl dispatched
          | _ => exact .refl _
        · cases first <;> cases stage <;>
            simp_all [laterJoinValid, task]
    · rename_i handled stage pid point bound
      cases taken
      refine .inl ⟨?_, by simp [laterJoinValid, task, present, point]⟩
      rcases connection.hookSection_effect pid handled answer stage with
        ⟨same, _⟩ | ⟨_, _, roomId, change, changes, same, _⟩ | rfl
      · exact moved same (.refl _)
      · exact moved same (.announced _ _ _ _ _ changes)
      · exact .dispatched _ handled.message handled.raw pid id _ _ _ handled.notJoin
    · rename_i stage pid point bound
      cases taken
      refine .inl ⟨moved (connection.leaveSection_frame config world id pid stage).2 ?_,
        by simp [laterJoinValid, task, present, point]⟩
      cases stage with
      | disconnect => exact .disconnected _ _
      | _ => exact .refl _
    · simp at taken

end World

namespace World

variable {config : Config} {world after : World}

/-- The first `Join`s under way bring valid names. -/
def PendingValid (config : Config) (world : World) : Prop :=
  ∀ id connection request, world.connections.lookup id = some connection →
    connection.point.firstRequest = some request → request.valid config = true

/-- A section that starts no first `Join` but one with valid names. -/
theorem PendingValid.commit (pending : PendingValid config world) {id : WsSink}
    {connection : Connection} (present : world.connections.lookup id = some connection)
    (turn : Turn)
    (started : ∀ request, turn.connection.point.firstRequest = some request →
      connection.point.firstRequest = some request ∨ request.valid config = true) :
    PendingValid config (world.commit id turn) := by
  intro tested other request found under
  rw [lookup_commit] at found
  split at found
  · cases Option.some.inj found
    rcases started request under with former | valid
    · exact pending id connection request present former
    · exact valid
  · exact pending tested other request found under

/-- Every step keeps the names of the first `Join`s under way valid. -/
theorem pendingValid_step (pending : PendingValid config world) (event : Event)
    (stepped : world.step config event = some after) : PendingValid config after := by
  cases world.stepped_of_step event stepped with
  | connected =>
    intro id connection request present started
    rw [Table.lookup_insert_eq] at present
    split at present
    · cases Option.some.inj present
      simp [Point.firstRequest] at started
    · exact pending id connection request present started
  | shut | mediaEnded | routed => exact pending
  | finished _ id connection sent present idle =>
    apply pending.commit present
    intro request started
    unfold Connection.finish at started
    split at started <;> simp [World.turn, Connection.goto, Point.firstRequest] at started
  | heard id raw parsed auth rateOk connection present idle =>
    apply pending.commit present
    intro request started
    exact .inr (connection.receive_valid config world id idle raw parsed auth rateOk request
      started)
  | advanced id answer connection turn present taken =>
    apply pending.commit present
    intro request started
    left
    cases connection.advance_section config world id answer turn taken with
    | works _ calm calmAfter first => exact first request started
    | registers request point unbound =>
      rw [point]
      exact started
    | joins pid first joined stage point bound =>
      exact connection.joinSection_firstRequest config world id pid first joined stage point
        request started
    | parts handled participant roomId _ point message moved =>
      simp [moved, Connection.goto, Point.firstRequest] at started
    | offers pid handled peers peer _ point bound moved =>
      simp [moved, Connection.goto, Point.firstRequest] at started
    | leaves pid stage point bound =>
      simp [(connection.leaveSection_seats config world id pid stage).2] at started

/-- The first `Join`s under way bring valid names in every state reached. -/
theorem pendingValid_of_reaches {admitted : World → Event → Prop} {e2eeRequired : Bool}
    (reached : Reaches (step config) admitted (new e2eeRequired) world) :
    PendingValid config world := by
  apply reached.invariant (PendingValid config)
  · intro id connection request present
    simp [new] at present
  · intro before event after pending _ stepped
    exact pendingValid_step pending event stepped

/-- From a state with valid names the steps that keep them valid are those that admit
no later `Join` with others. -/
theorem names_step_iff (valid : world.signaling.NamesValid config)
    (pending : PendingValid config world) (event : Event)
    (stepped : world.step config event = some after) :
    laterJoinValid config world event = true ↔ after.signaling.NamesValid config := by
  rcases step_names event stepped with ⟨kept, unseated⟩ | ⟨id, answer, connection, pid, first,
    request, rfl, present, point, bound, admitted, joined⟩
  · exact ⟨fun _ => valid.kept kept, fun _ => unseated⟩
  · have former : (world.pruned request.roomId).NamesValid config :=
      valid.kept (.pruned _ request.roomId world.isClosed)
    rw [joined, SignalingState.namesValid_join _ former, ← Bool.and_eq_true]
    cases first with
    | false => simp [laterJoinValid, task, present, point, admitted, JoinRequest.valid]
    | true =>
      have own := pending id connection request present (by rw [point]; rfl)
      simpa [laterJoinValid, task, present, point, JoinRequest.valid] using own

end World

/-- The names in the state are valid throughout a run exactly if the run admits no
later `Join` whose names are not.

A step keeps the names valid exactly if it is no later `Join` with bad names: the first
`Join` has checked its own, and a name under way is known to be valid. -/
theorem names_valid_iff (config : Config) (e2eeRequired : Bool) (world : World) :
    (Reaches (World.step config) (fun before _ => before.signaling.NamesValid config)
        (World.new e2eeRequired) world ∧ world.signaling.NamesValid config) ↔
      Reaches (World.step config)
        (fun before event => laterJoinValid config before event = true)
        (World.new e2eeRequired) world := by
  apply Reaches.within_iff (fun world : World => world.signaling.NamesValid config)
  · constructor
    · intro roomId there
      simp [World.new, SignalingState.new, SignalingState.hasRoom] at there
    · intro roomId id member stored
      simp [World.new, SignalingState.new, SignalingState.member] at stored
  · intro before event after reached valid stepped
    exact World.names_step_iff valid (World.pendingValid_of_reaches reached) event stepped

/-- A connection joins a room, and then one whose name and under a display name that
each hold a control character. -/
def unprintableRun : List Event :=
  .connect :: Event.firstJoin 1 ⟨1⟩ "a" ++
    .receive 1 "" (some (.join ⟨1⟩ "b\n" (some "\t") none)) (.ok ()) true :: Event.sections 1 7

/-- The second room is made under its name, and its member keeps the display name. -/
theorem unprintable_names_enter :
    ∃ world, Reaches (World.step .sfuDefault) always (World.new false) world ∧
      world.signaling.member "b\n" ⟨1⟩ = some (.withDisplayName ⟨1⟩ 1 (some "\t")) ∧
      ¬ world.signaling.NamesValid .sfuDefault := by
  refine ⟨(walk (World.step .sfuDefault) always (World.new false) unprintableRun).getD
    (World.new false), walk_reaches_end _ _ _ _ (by decide +kernel), by decide +kernel, ?_⟩
  intro valid
  have made := valid.rooms "b\n" (by decide +kernel)
  exact absurd made (by decide +kernel)

end Seameet
