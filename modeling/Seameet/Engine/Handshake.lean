import Seameet.Engine.Capacity
import Seameet.Engine.Reconnect
import Seameet.Engine.Stepping

/-!
# Mandatory encryption

A server that requires encryption arms a deadline with a connection's first
`Join` and disarms it when a public key is heard on the connection. What it is
meant to enforce is that the participant's key was accepted in every room the
connection has joined.

The deadline is disarmed before the rate check and the room check that may drop
the key, one key disarms it for all rooms, and no later `Join` arms it again.
And whoever is seated anew starts without the mark of a key, also where another
connection has earned it. The runs considered here are those in which none of
this happens to a room some connection stands in with its deadline disarmed.
-/

namespace Seameet

open Library

namespace SignalingState

/-- The participant is a member of the room, and its public key was accepted there. -/
def marked (state : SignalingState) (roomId : RoomId) (id : ParticipantId) : Bool :=
  (state.member roomId id).any fun member => member.mediaState.e2ee

end SignalingState

/-- The rooms a connection joined and that were not left since, each with the
participant it joined them for. -/
def standings (id : WsSink) (deeds : List Deed) : List (ParticipantId × RoomId) :=
  deeds.filterMap fun deed =>
    match deed with
    | .joined other participant roomId =>
        if other = id ∧ standing id participant roomId deeds = true then some (participant, roomId)
        else none
    | _ => none

/-- The handler under way is that of a public key. -/
def Point.handlesKey : Point → Bool
  | .handling handled _ =>
      match handled.message with
      | .e2eePublicKey _ _ _ => true
      | _ => false
  | _ => false

/-- The connection runs for a participant, its deadline is not armed, and no public
key of its own is in handling. -/
def Connection.released (pid : ParticipantId) (connection : Connection) : Bool :=
  decide (connection.participantId = some pid) && !connection.e2eeDeadline &&
    connection.point.isOpen && !connection.point.handlesKey

namespace World

/-- An open connection of the participant, its deadline not armed, has joined the
room for a participant that counts. -/
def relied (world : World) (counts : ParticipantId → Bool) (pid : ParticipantId)
    (roomId : RoomId) : Bool :=
  decide (world.connections.Any fun id connection =>
    id ∉ world.closed ∧ connection.released pid = true ∧
      ∃ entry ∈ standings id world.deeds, entry.2 = roomId ∧ counts entry.1 = true)

/-- No open connection whose deadline is not armed relies on a closed member of the
room. -/
def prunesSafely (world : World) (roomId : RoomId) : Bool :=
  match world.signaling.rooms.lookup roomId with
  | some room => decide (room.members.Every fun pid member =>
      world.isClosed member.sink = true → world.relied (fun _ => true) pid roomId = false)
  | none => true

/-- After a `Join` for a participant is dispatched, the connection's deadline is
armed, or it has joined the room for somebody else and its own participant is
marked there. -/
def joinsSafely (world : World) (connection : Connection) (pid : ParticipantId) (first : Bool)
    (request : JoinRequest) : Bool :=
  first || connection.e2eeDeadline ||
    (decide (request.participant ≠ pid) &&
      (world.pruned request.roomId).marked request.roomId pid)

/-- A public key for a room finds its sender a member there, if the connection has
joined the room, and marked in the other rooms the connection has joined. -/
def keysSafely (world : World) (id : WsSink) (pid : ParticipantId) (roomId : RoomId) : Bool :=
  (standings id world.deeds).all fun entry =>
    if entry.2 = roomId then (world.signaling.member roomId pid).isSome
    else world.signaling.marked entry.2 pid

/-- The participant is marked in every room the connection has joined. -/
def markedAll (world : World) (id : WsSink) (pid : ParticipantId) : Bool :=
  (standings id world.deeds).all fun entry => world.signaling.marked entry.2 pid

end World

/-- The step leaves no room unmarked that an open connection relies on.

A public key that disarms the deadline and is dropped comes from a participant
already marked in every room of its connection; one that is dispatched makes up
for the only room it was not marked in. A `Join` is admitted before the deadline
is disarmed, and takes the mark off nobody another connection relies on; no more
does a pruning, a `Leave` or a disconnect. -/
def keepsHandshake (config : Config) (world : World) : Event → Bool
  | .receive id _ (some (.e2eePublicKey _ roomId _)) _ rateOk =>
      match world.connections.lookup id with
      | some connection =>
          match connection.participantId with
          | some pid =>
              !connection.e2eeDeadline || (rateOk && acceptedRoomId config roomId) ||
                world.markedAll id pid
          | none => true
      | none => true
  | .advance id _ =>
      match world.connections.lookup id with
      | some connection =>
          match connection.point, connection.participantId with
          | .joining _ request .prune, _ => world.prunesSafely request.roomId
          | .joining first request .dispatch, some pid =>
              world.prunesSafely request.roomId &&
                (!Connection.admits config world request.roomId ||
                  (!world.relied (fun _ => true) request.participant request.roomId &&
                    world.joinsSafely connection pid first request))
          | .handling handled .dispatch, some pid =>
              match handled.message with
              | .e2eePublicKey _ roomId _ => world.keysSafely id pid roomId
              | .leave participant roomId =>
                  !world.relied (fun other => other ≠ participant) participant roomId
              | _ => true
          | .leaving .disconnect, some pid =>
              (world.signaling.rooms.keys).all fun roomId => !world.relied (fun _ => true) pid roomId
          | _, _ => true
      | none => true
  | _ => true

/-- A deed ends no standing but by a `Leave`, and makes none but by a `Join`. -/
theorem standing_after {id : WsSink} {participant : ParticipantId} {roomId : RoomId}
    {deed : Option Deed} {deeds : List Deed}
    (stands : standing id participant roomId (deed.toList ++ deeds) = true) :
    deed = some (.joined id participant roomId) ∨
      (deed ≠ some (.left participant roomId) ∧ standing id participant roomId deeds = true) := by
  cases deed with
  | none => exact .inr ⟨by simp, stands⟩
  | some deed =>
    simp only [Option.toList_some, List.singleton_append, standing, Bool.or_eq_true,
      decide_eq_true_eq, Bool.and_eq_true] at stands
    rcases stands with rfl | ⟨stays, stands⟩
    · exact .inl rfl
    · exact .inr ⟨fun same => stays (Option.some.inj same), stands⟩

/-- The listed rooms are those the connection stands in. -/
theorem mem_standings {id : WsSink} {participant : ParticipantId} {roomId : RoomId}
    {deeds : List Deed} (stands : standing id participant roomId deeds = true) :
    (participant, roomId) ∈ standings id deeds := by
  refine List.mem_filterMap.mpr ⟨_, joined_of_standing stands, ?_⟩
  simp [stands]

namespace SignalingState

variable {state : SignalingState} {roomId tested : RoomId} {pid other : ParticipantId}

/-- Being marked means being a member with the mark. -/
theorem marked_iff : state.marked roomId pid = true ↔
    ∃ member, state.member roomId pid = some member ∧ member.mediaState.e2ee = true := by
  unfold marked
  cases state.member roomId pid <;> simp

/-- Nothing is marked differently where the members are the same. -/
theorem marked_congr {after : SignalingState}
    (same : after.member roomId pid = state.member roomId pid) :
    after.marked roomId pid = state.marked roomId pid := by
  rw [marked, marked, same]

/-- Changing a flag of a member takes no mark away, unless it is the mark itself. -/
theorem marked_setMedia {change : MemberMediaState → MemberMediaState}
    (keeps : ∀ media, media.e2ee = true → (change media).e2ee = true)
    (before : state.marked tested pid = true) :
    (state.updateRoom roomId fun room => room.setMedia other change).marked tested pid = true := by
  obtain ⟨member, present, mark⟩ := marked_iff.mp before
  rw [marked_iff, member_updateRoom]
  by_cases same : tested = roomId
  · subst same
    rw [if_pos rfl]
    rw [SignalingState.member] at present
    obtain ⟨room, stored, found⟩ := Option.bind_eq_some_iff.mp present
    rw [stored, Option.bind_some, Room.lookup_setMedia]
    by_cases own : pid = other
    · subst own
      rw [if_pos rfl, found]
      exact ⟨_, rfl, keeps _ mark⟩
    · rw [if_neg own]
      exact ⟨member, found, mark⟩
  · rw [if_neg same]
    exact ⟨member, present, mark⟩

/-- Setting the mark of a member. -/
theorem marked_setE2ee (present : (state.member roomId pid).isSome = true) :
    (state.updateRoom roomId fun room => room.setE2ee pid true).marked roomId pid = true := by
  obtain ⟨member, found⟩ := Option.isSome_iff_exists.mp present
  rw [SignalingState.member] at found
  obtain ⟨room, stored, read⟩ := Option.bind_eq_some_iff.mp found
  rw [marked_iff, member_updateRoom, if_pos rfl, stored, Option.bind_some, Room.setE2ee,
    Room.lookup_setMedia, if_pos rfl, read]
  exact ⟨_, rfl, rfl⟩

/-- Appending to the chat keeps every mark. -/
theorem marked_pushChat (raw : String) (maxChatHistory : Nat) :
    (state.updateRoom roomId fun room => room.pushChat raw maxChatHistory).marked tested pid =
      state.marked tested pid := by
  apply marked_congr
  rw [member_updateRoom]
  by_cases same : tested = roomId
  · rw [if_pos same, same]
    rfl
  · rw [if_neg same]

/-- A dispatch of anything but `Join` and `Leave` takes no mark away. -/
theorem marked_dispatch (message : SdpMessage) (raw : String) (sender : ParticipantId)
    (selfTx : WsSink) (closed : WsSink → Bool) (maxChatHistory maxRoomMembers : Nat)
    (other : message.changesMembership = false) (before : state.marked tested pid = true) :
    (state.dispatch message raw sender selfTx closed maxChatHistory maxRoomMembers).1.marked tested
      pid = true := by
  cases message with
  | join | leave => simp [SdpMessage.changesMembership] at other
  | offer _ recipient => cases recipient <;> exact before
  | muteAudio _ room | unmuteAudio _ room | muteVideo _ room | unmuteVideo _ room
  | screenShareStarted _ room | screenShareStopped _ room =>
    exact marked_setMedia (fun _ mark => mark) before
  | e2eePublicKey _ room | e2eeKeyRotation _ room => exact marked_setMedia (fun _ _ => rfl) before
  | chatMessage _ room =>
    exact (marked_pushChat raw maxChatHistory).trans before
  | error | answer | iceCandidate | e2eeSenderKey | videoConfigChanged | ready | peerJoined
  | peerLeft | requestRenegotiation | requestKeyframe | roomStatus | activeSpeaker
  | screenShareRouted => exact before

/-- Nor does a change of a media flag. -/
theorem marked_announce {sender : ParticipantId} {message : SdpMessage} {change : Room → Room}
    (changed : SfuServer.mediaChange sender message = some (roomId, change))
    (before : state.marked tested pid = true) :
    (state.announce roomId change).1.marked tested pid = true := by
  cases message <;> simp only [SfuServer.mediaChange, reduceCtorEq, Option.some.injEq,
    Prod.mk.injEq] at changed <;> obtain ⟨rfl, rfl⟩ := changed <;>
    exact marked_setMedia (fun _ mark => mark) before

end SignalingState

namespace Connection

variable {config : Config} {world : World} {id : WsSink} {connection : Connection}

/-- A first `Join` is read without binding the connection or arming its deadline. -/
theorem receiveFirst_keeps (request : JoinRequest) (auth : Except String Unit) :
    let after := (connection.receiveFirst config world id request auth).connection
    after.participantId = connection.participantId ∧
      after.e2eeDeadline = connection.e2eeDeadline := by
  simp only [receiveFirst]
  split
  · split
    · exact ⟨rfl, rfl⟩
    · split <;> exact ⟨rfl, rfl⟩
  · exact ⟨rfl, rfl⟩

/-- A message on a bound connection disarms the deadline only if it is a public key,
which is then in handling unless it is dropped. -/
theorem receiveNext_keeps (message : SdpMessage) (raw : String) (rateOk : Bool) :
    let after := (connection.receiveNext config world message raw rateOk).connection
    after.participantId = connection.participantId ∧
      (after.e2eeDeadline = connection.e2eeDeadline ∨
        ∃ sender roomId key, message = .e2eePublicKey sender roomId key ∧
          (after.point.handlesKey = true ∨ (rateOk && acceptedRoomId config roomId) = false)) := by
  cases message with
  | e2eePublicKey sender roomId key =>
    cases passes : rateOk && acceptedRoomId config roomId with
    | false =>
      simp only [receiveNext, SdpMessage.roomId, Option.map_some, Option.getD_some, passes,
        Bool.false_eq_true, ↓reduceIte]
      exact ⟨rfl, .inr ⟨sender, roomId, key, rfl, .inr passes⟩⟩
    | true =>
      simp only [receiveNext, SdpMessage.roomId, Option.map_some, Option.getD_some, passes,
        ↓reduceIte]
      refine ⟨rfl, .inr ⟨sender, roomId, key, rfl, .inl ?_⟩⟩
      rw [config.start_handling _ raw rfl]
      rfl
  | _ =>
    simp only [receiveNext]
    split <;> exact ⟨rfl, .inl rfl⟩

/-- Reading a text binds nobody, and disarms the deadline only if it is a public key,
which is then in handling unless it is dropped. -/
theorem receive_keeps (raw : String) (parsed : Option SdpMessage) (auth : Except String Unit)
    (rateOk : Bool) :
    let after := (connection.receive config world id raw parsed auth rateOk).connection
    after.participantId = connection.participantId ∧
      (after.e2eeDeadline = connection.e2eeDeadline ∨
        ∃ sender roomId key, parsed = some (.e2eePublicKey sender roomId key) ∧
          (after.point.handlesKey = true ∨ (rateOk && acceptedRoomId config roomId) = false)) := by
  cases parsed with
  | none => exact ⟨rfl, .inl rfl⟩
  | some message =>
    simp only [receive]
    split
    · obtain ⟨same, deadline⟩ := @receiveNext_keeps config world connection message
        raw rateOk
      refine ⟨same, deadline.imp_right ?_⟩
      rintro ⟨sender, roomId, key, rfl, handled⟩
      exact ⟨sender, roomId, key, rfl, handled⟩
    · split
      · obtain ⟨same, deadline⟩ := @receiveFirst_keeps config world id
          connection _ auth
        exact ⟨same, .inl deadline⟩
      · exact ⟨rfl, .inl rfl⟩

/-- Reading a text leaves a connection released only if it was, or if the text is a
public key that is dropped. -/
theorem receive_released {pid : ParticipantId} (idle : connection.point = .idle) (raw : String)
    (parsed : Option SdpMessage) (auth : Except String Unit) (rateOk : Bool)
    (free : (connection.receive config world id raw parsed auth rateOk).connection.released pid =
      true) :
    connection.released pid = true ∨
      ∃ sender roomId key, parsed = some (.e2eePublicKey sender roomId key) ∧
        connection.participantId = some pid ∧ connection.e2eeDeadline = true ∧
        (rateOk && acceptedRoomId config roomId) = false := by
  obtain ⟨same, deadline⟩ := @receive_keeps config world id connection raw parsed
    auth rateOk
  simp only [released, Bool.and_eq_true, decide_eq_true_eq, Bool.not_eq_true'] at free ⊢
  obtain ⟨⟨⟨bound, unarmed⟩, _⟩, keyless⟩ := free
  rw [same] at bound
  cases armed : connection.e2eeDeadline with
  | false =>
    refine .inl ⟨⟨⟨bound, rfl⟩, ?_⟩, ?_⟩ <;> rw [idle] <;> rfl
  | true =>
    rcases deadline with kept | ⟨sender, roomId, key, read, handled | dropped⟩
    · rw [kept, armed] at unarmed
      exact absurd unarmed (by simp)
    · rw [handled] at keyless
      exact absurd keyless (by simp)
    · exact .inr ⟨sender, roomId, key, read, bound, rfl, dropped⟩

end Connection

namespace World

variable {config : Config} {world after : World} {id : WsSink} {connection : Connection}
variable {pid participant : ParticipantId} {roomId tested : RoomId}

/-- Every open connection whose deadline is not armed has its participant marked in
every room it has joined, up to a public key it is handling. -/
def Keyed (world : World) : Prop :=
  ∀ id connection pid participant roomId, world.connections.lookup id = some connection →
    id ∉ world.closed → connection.released pid = true →
    standing id participant roomId world.deeds = true →
    world.signaling.marked roomId pid = true

/-- A connection that stands in a room is one the room's mark is relied on by. -/
theorem relied_of_standing {counts : ParticipantId → Bool}
    (present : world.connections.lookup id = some connection) (live : id ∉ world.closed)
    (released : connection.released pid = true)
    (stands : standing id participant roomId world.deeds = true)
    (counted : counts participant = true) : world.relied counts pid roomId = true := by
  rw [relied, decide_eq_true_eq]
  exact ⟨id, connection, present, live, released, _, mem_standings stands, rfl, counted⟩

/-- A pruning keeps the marks that are relied on. -/
theorem marked_pruned (safe : world.prunesSafely roomId = true)
    (needed : world.relied (fun _ => true) pid tested = true)
    (before : world.signaling.marked tested pid = true) :
    (world.pruned roomId).marked tested pid = true := by
  obtain ⟨member, present, mark⟩ := SignalingState.marked_iff.mp before
  rw [SignalingState.marked_iff, pruned, SignalingState.member_pruneStale]
  by_cases same : tested = roomId
  · subst same
    rw [if_pos rfl, present]
    obtain ⟨room, stored, found⟩ := Option.bind_eq_some_iff.mp present
    rw [prunesSafely, stored] at safe
    have open_ : world.isClosed member.sink = false := by
      by_contra closed
      have unneeded := of_decide_eq_true safe pid member found (by simpa using closed)
      rw [needed] at unneeded
      exact absurd unneeded (by simp)
    exact ⟨member, by simp [open_], mark⟩
  · rw [if_neg same]
    exact ⟨member, present, mark⟩

/-- A test of every room a connection stands in. -/
theorem all_standings {test : ParticipantId × RoomId → Bool}
    (all : (standings id world.deeds).all test = true)
    (stands : standing id participant roomId world.deeds = true) :
    test (participant, roomId) = true :=
  List.all_eq_true.mp all _ (mem_standings stands)

namespace Keyed

/-- A section of a connection, after which the marks are there that it and the
others rely on. -/
theorem commit (keyed : world.Keyed) (turn : Turn)
    (own : ∀ pid participant roomId, turn.connection.released pid = true → id ∉ world.closed →
      standing id participant roomId (turn.deed.toList ++ world.deeds) = true →
      turn.signaling.marked roomId pid = true)
    (mine : ∀ other participant roomId, turn.deed = some (.joined other participant roomId) →
      other = id)
    (kept : ∀ other earlier pid participant roomId, other ≠ id →
      world.connections.lookup other = some earlier → other ∉ world.closed →
      earlier.released pid = true → standing other participant roomId world.deeds = true →
      turn.deed ≠ some (.left participant roomId) →
      world.signaling.marked roomId pid = true → turn.signaling.marked roomId pid = true) :
    (world.commit id turn).Keyed := by
  intro other earlier pid participant roomId present live released stands
  rw [lookup_commit] at present
  by_cases same : other = id
  · subst same
    rw [if_pos rfl] at present
    cases present
    exact own pid participant roomId released live stands
  · rw [if_neg same] at present
    rcases standing_after stands with joined | ⟨stays, before⟩
    · exact absurd (mine other participant roomId joined) same
    · exact kept other earlier pid participant roomId same present live released before stays
        (keyed other earlier pid participant roomId present live released before)

/-- A section that takes no mark away, joins no room, and leaves its connection
released only if it was. -/
theorem quiet (keyed : world.Keyed) (present : world.connections.lookup id = some connection)
    (turn : Turn)
    (released : ∀ pid, turn.connection.released pid = true → connection.released pid = true)
    (silent : ∀ other participant roomId,
      turn.deed ≠ some (.joined other participant roomId))
    (marks : ∀ roomId pid, world.signaling.marked roomId pid = true →
      turn.signaling.marked roomId pid = true) : (world.commit id turn).Keyed := by
  apply keyed.commit turn
  · intro pid participant roomId free live stands
    rcases standing_after stands with joined | ⟨_, before⟩
    · exact absurd joined (silent id participant roomId)
    · exact marks roomId pid (keyed id connection pid participant roomId present live
        (released pid free) before)
  · exact fun other participant roomId joined => absurd joined (silent other participant roomId)
  · exact fun _ _ pid _ roomId _ _ _ _ _ _ before => marks roomId pid before

/-- A pruning that is safe keeps the marks the connections rely on. -/
theorem pruned (keyed : world.Keyed) (safe : world.prunesSafely roomId = true)
    (present : world.connections.lookup id = some connection) (live : id ∉ world.closed)
    (released : connection.released pid = true)
    (stands : standing id participant tested world.deeds = true) :
    (world.pruned roomId).marked tested pid = true :=
  marked_pruned safe (relied_of_standing present live released stands rfl)
    (keyed id connection pid participant tested present live released stands)

section Join

variable {first : Bool} {request : JoinRequest}

/-- A joining connection is released as long as its deadline is not armed. -/
theorem released_joining {stage : JoinStage} (point : connection.point = .joining first request stage)
    (pid : ParticipantId) :
    connection.released pid =
      (decide (connection.participantId = some pid) && !connection.e2eeDeadline) := by
  simp [Connection.released, point, Point.isOpen, Point.handlesKey]

/-- A safe pruning ahead of the dispatch. -/
theorem join_prune (keyed : world.Keyed) (present : world.connections.lookup id = some connection)
    (point : connection.point = .joining first request .prune)
    (safe : world.prunesSafely request.roomId = true) :
    (world.commit id (connection.joinSection config world id pid first request .prune)).Keyed := by
  apply keyed.commit
  · intro tested participant roomId free live stands
    rw [released_joining rfl] at free
    exact keyed.pruned safe present live ((released_joining point tested).trans free) stands
  · exact fun _ _ _ joined => absurd joined (by simp [Connection.joinSection, World.turn])
  · exact fun other earlier tested participant roomId _ found live free stands _ _ =>
      keyed.pruned safe found live free stands

/-- A refused `Join` after a safe pruning. -/
theorem join_refused (keyed : world.Keyed)
    (present : world.connections.lookup id = some connection)
    (point : connection.point = .joining first request .dispatch)
    (safe : world.prunesSafely request.roomId = true)
    (refused : Connection.admits config world request.roomId = false) :
    (world.commit id (connection.joinSection config world id pid first request .dispatch)).Keyed := by
  obtain ⟨signaling, deed, _⟩ :=
    connection.joinSection_refused config world id pid first request refused
  apply keyed.commit
  · intro tested participant roomId free live stands
    rw [deed] at stands
    have unarmed : connection.released tested = true := by
      rw [released_joining point]
      simp only [Connection.released, Connection.joinSection, World.turn, Bool.and_eq_true,
        Bool.not_or] at free ⊢
      exact ⟨free.1.1.1, free.1.1.2.1⟩
    rw [signaling]
    exact keyed.pruned safe present live unarmed stands
  · exact fun _ _ _ joined => absurd joined (by simp [deed])
  · intro other earlier tested participant roomId _ found live free stands _ _
    rw [signaling]
    exact keyed.pruned safe found live free stands

/-- An admitted `Join` that resets no mark a connection relies on, and leaves its
own connection armed or marked. -/
theorem join_admitted (keyed : world.Keyed)
    (present : world.connections.lookup id = some connection)
    (required : config.requireE2ee = true) (bound : connection.participantId = some pid)
    (point : connection.point = .joining first request .dispatch)
    (safe : world.prunesSafely request.roomId = true)
    (admitted : Connection.admits config world request.roomId = true)
    (unneeded : world.relied (fun _ => true) request.participant request.roomId = false)
    (ready : world.joinsSafely connection pid first request = true) :
    (world.commit id (connection.joinSection config world id pid first request .dispatch)).Keyed := by
  obtain ⟨signaling, deed⟩ :=
    connection.joinSection_admitted config world id pid first request admitted
  have seated : ∀ tested roomId, ¬(roomId = request.roomId ∧ tested = request.participant) →
      (world.pruned request.roomId).marked roomId tested = true →
      ((world.pruned request.roomId).join request.participant request.roomId id
        request.displayName).2.marked roomId tested = true := by
    intro tested roomId apart before
    rwa [SignalingState.marked_congr
      ((SignalingState.member_join _ _ _ _ _ _ _).trans (if_neg apart))]
  have spared : ∀ {other earlier tested participant roomId},
      world.connections.lookup other = some earlier → other ∉ world.closed →
      earlier.released tested = true → standing other participant roomId world.deeds = true →
      ¬(roomId = request.roomId ∧ tested = request.participant) := by
    rintro other earlier tested participant roomId found live free stands ⟨rfl, rfl⟩
    rw [relied_of_standing found live free stands rfl] at unneeded
    exact absurd unneeded (by simp)
  apply keyed.commit
  · intro tested participant roomId free live stands
    -- The deadline was not armed before, and this is no first `Join`.
    simp only [Connection.released, Connection.joinSection, World.turn, required,
      Bool.and_true, Bool.and_eq_true, Bool.not_or, Bool.not_eq_true',
      decide_eq_true_eq] at free
    obtain ⟨⟨⟨who, unarmed, later⟩, _⟩, _⟩ := free
    rw [bound, Option.some.injEq] at who
    subst who
    rw [deed] at stands
    rw [signaling]
    rcases @standing_after _ _ _ (some _) _ stands with joined | ⟨_, before⟩
    · simp only [Option.some.injEq, Deed.joined.injEq, true_and] at joined
      simp only [joinsSafely, later, unarmed, Bool.false_or, Bool.and_eq_true,
        decide_eq_true_eq] at ready
      rw [← joined.2]
      exact seated pid _ (fun same => ready.1 same.2.symm) ready.2
    · have released : connection.released pid = true := by
        rw [released_joining point, bound, unarmed]
        simp
      exact seated pid roomId (spared present live released before)
        (keyed.pruned safe present live released before)
  · intro other participant roomId joined
    rw [deed] at joined
    simp only [Option.some.injEq, Deed.joined.injEq] at joined
    exact joined.1.symm
  · intro other earlier tested participant roomId _ found live free stands _ _
    rw [signaling]
    exact seated tested roomId (spared found live free stands)
      (keyed.pruned safe found live free stands)

end Join

section Handling

variable {handled : Handled} {stage : HookStage} {answer : Option String}

/-- A connection handling another message than a public key stays released only if it
was. -/
theorem released_handling {other : ParticipantId}
    (point : connection.point = .handling handled stage)
    (keyless : connection.point.handlesKey = false)
    (free : (connection.hookSection config world id pid handled answer
      stage).connection.released other = true) : connection.released other = true := by
  obtain ⟨next, moved, _⟩ :=
    @Connection.hookSection_goto config world id connection pid handled answer stage
  rw [moved] at free
  simp only [Connection.released, Bool.and_eq_true, Connection.goto] at free ⊢
  exact ⟨⟨free.1.1, by rw [point]; rfl⟩, by rw [keyless]; rfl⟩

/-- A section ahead of the dispatch. -/
theorem hook (keyed : world.Keyed) (present : world.connections.lookup id = some connection)
    (point : connection.point = .handling handled stage)
    (keyless : connection.point.handlesKey = false) (early : stage ≠ .dispatch) :
    (world.commit id (connection.hookSection config world id pid handled answer stage)).Keyed := by
  have released : ∀ other, (connection.hookSection config world id pid handled answer
      stage).connection.released other = true → connection.released other = true :=
    fun _ free => released_handling point keyless free
  rcases @Connection.hookSection_effect config world id connection pid handled answer stage with
    ⟨signaling, deed, _⟩ | ⟨_, deed, roomId, change, changed, signaling, _⟩ | late
  · apply keyed.quiet present _ released (by simp [deed])
    intro tested member before
    rwa [signaling]
  · apply keyed.quiet present _ released (by simp [deed])
    intro tested member before
    rw [signaling]
    exact SignalingState.marked_announce changed before
  · exact absurd late early

/-- The dispatch of a public key that makes up for the rooms it was not marked in. -/
theorem dispatch_key (keyed : world.Keyed)
    (bound : connection.participantId = some pid) {sender : ParticipantId} {key : String}
    (message : handled.message = .e2eePublicKey sender roomId key)
    (safe : world.keysSafely id pid roomId = true) :
    (world.commit id (connection.hookSection config world id pid handled answer .dispatch)).Keyed := by
  have signaling : (connection.hookSection config world id pid handled answer
      .dispatch).signaling =
        world.signaling.updateRoom roomId fun room => room.setE2ee pid true := by
    simp [Connection.hookSection, message, SignalingState.dispatch]
  have deed : (connection.hookSection config world id pid handled answer .dispatch).deed = none := by
    simp [Connection.hookSection, message]
  apply keyed.commit
  · intro tested participant room free live stands
    have own : pid = tested := by
      simp only [Connection.released, Connection.hookSection, World.turn, Connection.goto, bound,
        Bool.and_eq_true, decide_eq_true_eq, Option.some.injEq] at free
      exact free.1.1.1
    subst own
    rw [deed] at stands
    have found := all_standings safe stands
    rw [signaling]
    by_cases same : room = roomId
    · subst same
      simp only [↓reduceIte] at found
      exact SignalingState.marked_setE2ee found
    · simp only [same, ↓reduceIte] at found
      exact SignalingState.marked_setMedia (fun _ _ => rfl) found
  · exact fun _ _ _ joined => absurd joined (by simp [deed])
  · intro other earlier tested participant room _ _ _ _ _ _ before
    rw [signaling]
    exact SignalingState.marked_setMedia (fun _ _ => rfl) before

/-- The dispatch of a `Leave` that takes no mark a connection relies on. -/
theorem dispatch_leave (keyed : world.Keyed)
    (present : world.connections.lookup id = some connection)
    (point : connection.point = .handling handled .dispatch)
    (message : handled.message = .leave participant roomId)
    (safe : world.relied (fun other => other ≠ participant) participant roomId = false) :
    (world.commit id (connection.hookSection config world id pid handled answer .dispatch)).Keyed := by
  have signaling : (connection.hookSection config world id pid handled answer
      .dispatch).signaling = (world.signaling.leave participant roomId).2 := by
    simp [Connection.hookSection, message, SignalingState.dispatch, SignalingState.dispatchLeave]
  have deed : (connection.hookSection config world id pid handled answer .dispatch).deed =
      some (.left participant roomId) := by
    simp [Connection.hookSection, message]
  have kept : ∀ {other earlier pid joiner tested}, world.connections.lookup other = some earlier →
      other ∉ world.closed → earlier.released pid = true →
      standing other joiner tested world.deeds = true →
      some (Deed.left participant roomId) ≠ some (.left joiner tested) →
      (world.signaling.leave participant roomId).2.marked tested pid = true := by
    intro other earlier pid joiner tested found live free stands stays
    have before := keyed other earlier pid joiner tested found live free stands
    rw [SignalingState.marked_congr, before]
    rw [SignalingState.member_leave, if_neg]
    rintro ⟨rfl, rfl⟩
    have apart : joiner ≠ pid := by
      rintro rfl
      exact stays rfl
    rw [relied_of_standing found live free stands (by simpa using apart)] at safe
    exact absurd safe (by simp)
  apply keyed.commit
  · intro tested joiner room free live stands
    have keyless : connection.point.handlesKey = false := by
      simp [point, Point.handlesKey, message]
    rcases standing_after stands with joined | ⟨stays, before⟩
    · rw [deed] at joined
      exact absurd joined (by simp)
    · rw [signaling]
      rw [deed] at stays
      exact kept present live (released_handling point keyless free) before stays
  · exact fun _ _ _ joined => absurd joined (by simp [deed])
  · intro other earlier tested joiner room _ found live free stands stays _
    rw [signaling]
    rw [deed] at stays
    exact kept found live free stands stays

/-- The dispatch of any other message. -/
theorem dispatch_other (keyed : world.Keyed)
    (present : world.connections.lookup id = some connection)
    (point : connection.point = .handling handled .dispatch)
    (keyless : connection.point.handlesKey = false)
    (stays : handled.message.changesMembership = false) :
    (world.commit id (connection.hookSection config world id pid handled answer .dispatch)).Keyed := by
  apply keyed.quiet present
  · exact fun tested free => released_handling point keyless free
  · intro joiner participant roomId
    cases message : handled.message <;> simp [Connection.hookSection, message]
  · intro roomId tested before
    exact SignalingState.marked_dispatch _ _ _ _ _ _ _ stays before

end Handling

/-- A section of the cleanup, which takes no mark another connection relies on. -/
theorem leave (keyed : world.Keyed) (stage : LeaveStage)
    (safe : stage = .disconnect → ∀ roomId, world.signaling.hasRoom roomId = true →
      world.relied (fun _ => true) pid roomId = false) :
    (world.commit id (connection.leaveSection config world id pid stage)).Keyed := by
  obtain ⟨deed, signaling⟩ := connection.leaveSection_frame config world id pid stage
  apply keyed.commit
  · intro tested participant roomId free
    have closes : (connection.leaveSection config world id pid stage).connection.point.isOpen =
        false := by
      rcases connection.leaveSection_point config world id pid stage with ended | ⟨next, on⟩
      · rw [ended]
        rfl
      · rw [on]
        rfl
    simp [Connection.released, closes] at free
  · exact fun _ _ _ joined => absurd joined (by simp [deed])
  · intro other earlier tested participant roomId _ found live free stands _ before
    rw [signaling]
    cases stage with
    | disconnect =>
      have apart : tested ≠ pid := by
        rintro rfl
        obtain ⟨member, present, _⟩ := SignalingState.marked_iff.mp before
        obtain ⟨room, stored, _⟩ := Option.bind_eq_some_iff.mp present
        have unneeded := safe rfl roomId (by simp [SignalingState.hasRoom, stored])
        rw [relied_of_standing found live free stands rfl] at unneeded
        exact absurd unneeded (by simp)
      rwa [SignalingState.marked_congr
        (SignalingState.member_disconnect_of_not _ _ _ _ fun same => apart same.1)]
    | _ => exact before

/-- Binding a connection, which has joined nothing yet. -/
theorem register (keyed : world.Keyed) (recorded : world.Recorded)
    (present : world.connections.lookup id = some connection) (request : JoinRequest)
    (unbound : connection.participantId = none) :
    (world.commit id (connection.registerSection config world id request)).Keyed := by
  apply keyed.commit
  · intro tested participant roomId _ _ stands
    rcases standing_after stands with joined | ⟨_, before⟩
    · exact absurd joined (by simp [Connection.registerSection])
    · obtain ⟨joiner, found, bound⟩ := recorded id participant roomId (joined_of_standing before)
      rw [present] at found
      cases found
      exact absurd unbound bound
  · exact fun _ _ _ joined => absurd joined (by simp [Connection.registerSection])
  · exact fun _ _ _ _ _ _ _ _ _ _ _ before => before

/-- What arrives at the top of a loop, if a key that is dropped finds its sender
marked. -/
theorem hear (keyed : world.Keyed) (present : world.connections.lookup id = some connection)
    (idle : connection.point = .idle) (raw : String) (parsed : Option SdpMessage)
    (auth : Except String Unit) (rateOk : Bool)
    (safe : ∀ sender roomId key pid, parsed = some (.e2eePublicKey sender roomId key) →
      connection.participantId = some pid → connection.e2eeDeadline = true →
      (rateOk && acceptedRoomId config roomId) = false → world.markedAll id pid = true) :
    (world.commit id (connection.receive config world id raw parsed auth rateOk)).Keyed := by
  obtain ⟨signaling, deed⟩ : (connection.receive config world id raw parsed auth rateOk).signaling =
      world.signaling ∧ ∀ other participant roomId,
        (connection.receive config world id raw parsed auth rateOk).deed ≠
          some (.joined other participant roomId) := by
    have arrival := connection.receive_arrival config world id idle raw parsed auth rateOk
    generalize connection.receive config world id raw parsed auth rateOk = turn at arrival ⊢
    cases arrival with
    | works _ _ _ _ _ signaling _ deed | ends _ _ _ _ signaling _ deed
    | hangsUp _ _ _ _ _ signaling _ deed | accepts _ _ _ _ _ signaling _ deed =>
      exact ⟨signaling, by simp [deed]⟩
    | joins => exact ⟨rfl, by simp [World.turn]⟩
  apply keyed.commit
  · intro tested participant roomId free live stands
    rw [signaling]
    rcases standing_after stands with joined | ⟨_, before⟩
    · exact absurd joined (deed _ _ _)
    · rcases connection.receive_released idle raw parsed auth rateOk free with
        earlier | ⟨sender, keyRoom, key, read, bound, armed, dropped⟩
      · exact keyed id connection tested participant roomId present live earlier before
      · exact all_standings (safe sender keyRoom key tested read bound armed dropped) before
  · exact fun other participant roomId joined => absurd joined (deed other participant roomId)
  · intro _ _ _ _ _ _ _ _ _ _ _ before
    rwa [signaling]

/-- Every step that keeps the handshakes keeps the rooms keyed. -/
theorem step (keyed : world.Keyed) (required : config.requireE2ee = true)
    (fitting : world.Fitting config) (recorded : world.Recorded) (event : Event)
    (safe : keepsHandshake config world event = true)
    (stepped : world.step config event = some after) : after.Keyed := by
  cases stepped_of_step event stepped with
  | connected =>
    intro id connection pid participant roomId present live free stands
    rw [Table.lookup_insert_eq] at present
    split at present
    · cases present
      simp [Connection.released] at free
    · exact keyed id connection pid participant roomId present live free stands
  | heard id raw parsed auth rateOk connection present idle =>
    apply keyed.hear present idle
    rintro sender roomId key pid rfl bound armed dropped
    simpa [keepsHandshake, present, bound, armed, dropped] using safe
  | finished _ id connection sent present =>
    apply keyed.quiet present
    · intro pid free
      simp [Connection.released, World.turn, Connection.finish_closes.1] at free
    · simp [World.turn]
    · exact fun _ _ before => before
  | shut closed =>
    intro id connection pid participant roomId present live
    exact keyed id connection pid participant roomId present
      fun gone => live (List.mem_cons_of_mem closed gone)
  | mediaEnded | routed => exact keyed
  | advanced id answer connection turn present taken =>
    simp only [keepsHandshake, present] at safe
    unfold Connection.advance at taken
    split at taken <;> cases taken
    · rename_i request point unbound
      unfold Connection.precheckSection
      split <;>
        exact keyed.quiet present _
          (fun pid free => by simp [Connection.released, World.turn, Connection.goto, unbound] at free)
          (by simp [World.turn]) fun _ _ before => before
    · rename_i request point unbound
      exact keyed.register recorded present request unbound
    · rename_i first request stage pid point bound
      simp only [point, bound] at safe
      cases stage with
      | prune => exact keyed.join_prune present point safe
      | dispatch =>
        simp only [Bool.and_eq_true, Bool.or_eq_true, Bool.not_eq_true'] at safe
        cases admitted : Connection.admits config world request.roomId with
        | false => exact keyed.join_refused present point safe.1 admitted
        | true =>
          obtain ⟨unneeded, ready⟩ := safe.2.resolve_left (by simp [admitted])
          exact keyed.join_admitted present required bound point safe.1 admitted unneeded ready
      | notifyPruned | notifyRejoin | ensureRoom | storeSession | announceCount =>
        apply keyed.quiet present
        · intro other free
          rw [released_joining rfl] at free
          exact (released_joining point other).trans free
        · simp [Connection.joinSection, World.turn]
        · exact fun _ _ before => before
    · rename_i handled stage pid point bound
      have fits := fitting id connection present
      rw [point] at fits
      cases stage with
      | dispatch =>
        simp only [point, bound] at safe
        cases message : handled.message with
        | e2eePublicKey sender roomId key =>
          exact keyed.dispatch_key bound message (by simpa [message] using safe)
        | leave participant roomId =>
          exact keyed.dispatch_leave present point message (by simpa [message] using safe)
        | join =>
          have notJoin := handled.notJoin
          simp [message, SdpMessage.joinRequest] at notJoin
        | _ =>
          exact keyed.dispatch_other present point (by simp [point, Point.handlesKey, message])
            (by simp [message, SdpMessage.changesMembership])
      | _ =>
        -- A public key is handled at the dispatch from the start.
        have keyless : connection.point.handlesKey = false := by
          cases message : handled.message with
          | e2eePublicKey =>
            have stands := fits.mpr (by unfold Config.hookStart; split <;> simp [message])
            exact absurd stands (by simp)
          | _ => simp [point, Point.handlesKey, message]
        exact keyed.hook present point keyless (by simp)
    · rename_i stage pid point bound
      apply keyed.leave
      rintro rfl roomId present
      simp only [point, bound, List.all_eq_true, Bool.not_eq_true'] at safe
      apply safe roomId
      rw [SignalingState.hasRoom, Option.isSome_iff_exists] at present
      exact (Table.mem_keys roomId _).mpr present

end Keyed

end World

/-- With encryption required, in every run whose steps keep the handshakes: an open
connection at the top of its loop whose deadline is not armed has its participant
marked in every room it has joined and not left.

The invariant exempts a connection that handles a public key at the moment, since the
deadline is disarmed before the mark is set. A handshake that is kept sets the mark. -/
theorem mandatory_e2ee_enforced (config : Config) (required : config.requireE2ee = true)
    (e2eeRequired : Bool) {world : World}
    (reached : Reaches (World.step config)
      (fun world event => keepsHandshake config world event = true) (World.new e2eeRequired) world)
    (id : WsSink) (connection : Connection) (pid : ParticipantId)
    (present : world.connections.lookup id = some connection) (idle : connection.point = .idle)
    (live : id ∉ world.closed) (unarmed : connection.e2eeDeadline = false)
    (bound : connection.participantId = some pid) (participant : ParticipantId) (roomId : RoomId)
    (stands : standing id participant roomId world.deeds = true) :
    ∃ member, world.signaling.member roomId pid = some member ∧
      member.mediaState.e2ee = true := by
  have keyed : world.Keyed := by
    apply reached.invariant_with
      (fun world => world.Fitting config ∧ world.Recorded) World.Keyed
    · exact fun _ earlier => ⟨World.fitting_of_reaches earlier, World.recorded_of_reaches earlier⟩
    · intro other _ _ _ _ found
      simp [World.new] at found
    · exact fun before event after known keyed safe stepped =>
        keyed.step required known.1 known.2 event safe stepped
  have free : connection.released pid = true := by
    simp [Connection.released, bound, unarmed, idle, Point.isOpen, Point.handlesKey]
  exact SignalingState.marked_iff.mp
    (keyed id connection pid participant roomId present live free stands)

/-- The media server with encryption required. -/
def Config.sfuRequiring : Config := { Config.sfuDefault with requireE2ee := true }

/-- A connection joins a room and announces a public key, which the rate check lets
pass or not. -/
def announcedKey (rateOk : Bool) : List Event :=
  .connect :: Event.firstJoin 1 ⟨1⟩ "a" ++
    [.receive 1 "key" (some (.e2eePublicKey ⟨1⟩ "a" "key")) (.ok ()) rateOk]

/-- The key is dispatched. -/
theorem mandatory_e2ee_enforced_key :
    let world := (walk (World.step .sfuRequiring)
      (fun world event => keepsHandshake .sfuRequiring world event = true) (World.new true)
      (announcedKey true ++ [.advance 1 none])).getD (World.new true)
    ∃ member, world.signaling.member "a" ⟨1⟩ = some member ∧ member.mediaState.e2ee = true := by
  intro world
  have reached : Reaches (World.step .sfuRequiring)
      (fun world event => keepsHandshake .sfuRequiring world event = true) (World.new true) world :=
    walk_reaches_end _ _ _ _ (by decide +kernel)
  exact mandatory_e2ee_enforced .sfuRequiring rfl true reached 1
    { participantId := some ⟨1⟩, e2eeDeadline := false, point := .idle } ⟨1⟩ rfl rfl
    (by decide +kernel) rfl rfl ⟨1⟩ "a" (by decide +kernel)

/-- A key that the rate check drops disarms the deadline all the same: the connection
runs on in its room without the mark of a key. -/
theorem dropped_key_disarms :
    ∃ world connection, Reaches (World.step .sfuRequiring) always (World.new true) world ∧
      world.connections.lookup 1 = some connection ∧ connection.point = .idle ∧
      1 ∉ world.closed ∧ connection.e2eeDeadline = false ∧
      connection.participantId = some ⟨1⟩ ∧ standing 1 ⟨1⟩ "a" world.deeds = true ∧
      world.signaling.marked "a" ⟨1⟩ = false := by
  refine ⟨(walk (World.step .sfuRequiring) always (World.new true) (announcedKey false)).getD
    (World.new true), { participantId := some ⟨1⟩, e2eeDeadline := false, point := .idle },
    walk_reaches_end _ _ _ _ (by decide +kernel), rfl, rfl, ?_, rfl, rfl, ?_, ?_⟩ <;>
    decide +kernel

end Seameet
