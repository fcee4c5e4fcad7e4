import Seameet.Engine.History

/-!
# The relay of the key exchange

The participants of a room exchange their keys through the engine, and count on a relay that
loses, repeats and reorders nothing. This is what the engine is to each member for as long as
the member keeps its seat on one connection that nobody else of the room is seated on: the
key messages that another connection's task reads and that are meant for the member are the
ones that are placed on the member's sink, in the order they were read, each once and with
its own text, except for the one the task may still have in hand.

What the tasks read, and for which message a text was placed, is recorded along a run.
-/

namespace Seameet

open Library

/-- A key message that is meant for a member of a room: it is broadcast in the room, or sent
to the member. -/
def SdpMessage.keysFor (participant : ParticipantId) (roomId : RoomId) : SdpMessage → Bool
  | .e2eePublicKey _ room _ | .e2eeKeyRotation _ room _ => decide (room = roomId)
  | .e2eeSenderKey _ recipient _ _ _ => decide (recipient = participant)
  | _ => false

/-- The message in handling at a point. -/
def Point.handled : Point → Option Handled
  | .handling handled _ => some handled
  | _ => none

/-- The engine, with every message a task has read to handle, and every text that a task has
placed while it handled one. -/
structure KeyRelay where
  world : World
  heard : List (WsSink × Handled)
  placed : List (WsSink × Handled × Sent)

namespace KeyRelay

/-- The server as it is started: no key has been read and none placed. -/
def new (e2eeRequired : Bool) : KeyRelay := { world := .new e2eeRequired, heard := [], placed := [] }

/-- What a connection's task has in hand. -/
def inHand (world : World) (id : WsSink) : Option Handled :=
  (world.connections.lookup id).bind fun connection => connection.point.handled

/-- The message that an event starts the handling of. -/
def hears (after : World) : Event → List (WsSink × Handled)
  | .receive id _ _ _ _ => (inHand after id).toList.map (id, ·)
  | _ => []

/-- The texts that an event places for the message in hand. -/
def places (before after : World) : Event → List (WsSink × Handled × Sent)
  | .advance id _ =>
      (inHand before id).toList.flatMap fun handled =>
        (after.sent.drop before.sent.length).map (id, handled, ·)
  | _ => []

/-- One step of the server, together with the record of what is read and what is placed. -/
def step (config : Config) (relay : KeyRelay) (event : Event) : Option KeyRelay :=
  (relay.world.step config event).map fun world =>
    { world
      heard := relay.heard ++ hears world event
      placed := relay.placed ++ places relay.world world event }

end KeyRelay

/-- A client's text on a sink. -/
def relayedTo (sink : WsSink) (text : Sent) : Option String :=
  match text.2 with
  | .relayed raw => if text.1 = sink then some raw else none
  | _ => none

section Lane

variable (source sink : WsSink) (participant : ParticipantId) (roomId : RoomId)

/-- The key messages for a member among those that were read on a connection. -/
def keysHeard (heard : List (WsSink × Handled)) : List String :=
  heard.filterMap fun entry =>
    if entry.1 = source ∧ entry.2.message.keysFor participant roomId = true then some entry.2.raw
    else none

/-- The texts on a sink that were placed for them. -/
def keysTold (placed : List (WsSink × Handled × Sent)) : List String :=
  placed.filterMap fun entry =>
    if entry.1 = source ∧ entry.2.1.message.keysFor participant roomId = true then
      relayedTo sink entry.2.2
    else none

/-- The one the connection's task has in hand. -/
def keysInHand (world : World) : List String :=
  keysHeard source participant roomId ((KeyRelay.inHand world source).toList.map (source, ·))

/-- The participant has the room's only seat on the sink, which is its latest, and the other
connection is not its own. -/
structure Attends (relay : KeyRelay) : Prop where
  seated : relay.world.signaling.seat roomId participant = some sink
  latest : relay.world.signaling.sink participant = some sink
  alone : ∀ room ∈ relay.world.signaling.rooms.lookup roomId,
    room.members.Every fun other member => member.sink = sink → other = participant
  apart : (relay.world.connections.lookup source).bind Connection.participantId ≠ some participant

instance (relay : KeyRelay) : Decidable (Attends source sink participant roomId relay) :=
  decidable_of_iff (_ ∧ _ ∧ _ ∧ _)
    ⟨fun ⟨seated, latest, alone, apart⟩ => ⟨seated, latest, alone, apart⟩,
      fun ⟨seated, latest, alone, apart⟩ => ⟨seated, latest, alone, apart⟩⟩

end Lane

section Texts

variable (sink : WsSink)

/-- A room's status is no client's text. -/
theorem relayedTo_status (state : SignalingState) (roomId : RoomId) :
    (broadcastRoomStatus state roomId).filterMap (relayedTo sink) = [] := by
  apply List.filterMap_eq_nil_iff.mpr
  intro text placed
  have spoken := @status_spoken [] state roomId text placed
  unfold relayedTo
  split
  · rename_i raw same
    rw [same] at spoken
    cases spoken
  · rfl

/-- A broadcast places its text once for each other member on the sink. -/
theorem relayedTo_broadcast (room : Room) (raw : String) (exclude : ParticipantId) :
    (room.broadcast (.relayed raw) exclude).filterMap (relayedTo sink) =
      ((room.members.values.filter fun member => member.sink = sink).filter
        fun member => member.id ≠ exclude).map fun _ => raw := by
  unfold Room.broadcast
  induction room.members.values with
  | nil => rfl
  | cons member rest inductionHypothesis =>
    by_cases here : member.sink = sink <;> by_cases own : member.id = exclude <;>
      simp_all [relayedTo]

end Texts

namespace SignalingState

/-- Every member is stored under its own name. -/
def Named (state : SignalingState) : Prop :=
  ∀ roomId id member, state.member roomId id = some member → member.id = id

namespace Named

variable {state : SignalingState} (named : state.Named)
include named

/-- Pruning stale members names everybody it tells. -/
theorem pruneStale (roomId : RoomId) (closed : WsSink → Bool) :
    (state.pruneStale roomId closed).2.Named := by
  intro tested id member found
  rw [member_pruneStale] at found
  split at found
  · exact named roomId id member (Option.filter_eq_some_iff.mp found).1
  · exact named tested id member found

/-- Joining names everybody it tells. -/
theorem join (id : ParticipantId) (roomId : RoomId) (sink : WsSink) (displayName : Option String) :
    (state.join id roomId sink displayName).2.Named := by
  intro tested other member found
  rw [member_join] at found
  split at found
  · rename_i here
    cases found
    exact here.2.symm
  · exact named tested other member found

/-- Leaving names everybody it tells. -/
theorem leave (id : ParticipantId) (roomId : RoomId) : (state.leave id roomId).2.Named := by
  intro tested other member found
  rw [member_leave] at found
  split at found
  · cases found
  · exact named tested other member found

/-- Disconnecting names everybody it tells. -/
theorem disconnect (id : ParticipantId) : (state.disconnect id).2.Named := by
  intro tested other member found
  by_cases out : other = id ∧ state.listed id tested
  · obtain ⟨rfl, known⟩ := out
    rw [member_disconnect_self state other tested known] at found
    cases found
  · rw [member_disconnect_of_not state id other tested out] at found
    exact named tested other member found

/-- A change confined to one room names everybody it tells. -/
theorem confined {after : SignalingState} {roomId : RoomId} {pid : ParticipantId} {raw : String}
    {maxChatHistory : Nat} (confined : Confined roomId pid raw maxChatHistory state after) :
    after.Named := by
  intro tested id member found
  by_cases here : tested = roomId
  · subst here
    by_cases own : id = pid
    · subst own
      obtain ⟨change, changed⟩ := confined.own
      rw [changed] at found
      obtain ⟨former, stored, rfl⟩ := Option.map_eq_some_iff.mp found
      exact named tested id former stored
    · rw [confined.others id own] at found
      exact named tested id member found
  · rw [SignalingState.member, confined.elsewhere tested here] at found
    exact named tested id member found

/-- Every message but Join names everybody it tells. -/
theorem dispatch {message : SdpMessage} (raw : String) (notJoin : message.joinRequest = none)
    (pid : ParticipantId) (selfTx : WsSink) (closed : WsSink → Bool)
    (maxChatHistory maxRoomMembers : Nat) :
    (state.dispatch message raw pid selfTx closed maxChatHistory maxRoomMembers).1.Named := by
  cases changes : message.changesMembership with
  | true =>
    cases message with
    | join => simp [SdpMessage.joinRequest] at notJoin
    | leave participant roomId => exact named.leave participant roomId
    | _ => simp [SdpMessage.changesMembership] at changes
  | false =>
    cases room : message.roomId with
    | some roomId =>
      exact named.confined (state.dispatch_keeps message raw pid selfTx closed maxChatHistory
        maxRoomMembers roomId room changes)
    | none =>
      cases message with
      | error => exact named
      | _ => simp [SdpMessage.roomId] at room

end Named

end SignalingState

section Dispatch

variable {state : SignalingState} {sink : WsSink} {participant : ParticipantId} {roomId : RoomId}

/-- The dispatch of a broadcast key message tells the member on the sink once. -/
theorem broadcast_told (named : state.Named) (seated : state.seat roomId participant = some sink)
    (alone : ∀ room ∈ state.rooms.lookup roomId,
      room.members.Every fun other member => member.sink = sink → other = participant)
    {pid : ParticipantId} (apart : pid ≠ participant) (raw : String) :
    let keyed := state.updateRoom roomId fun room => room.setE2ee pid true
    (((keyed.rooms.lookup roomId).map fun room => room.broadcast (.relayed raw) pid).getD [] ++
      broadcastRoomStatus keyed roomId).filterMap (relayedTo sink) = [raw] := by
  intro keyed
  obtain ⟨member, found, rfl⟩ := Option.map_eq_some_iff.mp seated
  have own := named roomId participant member found
  obtain ⟨room, stored, present⟩ := Option.bind_eq_some_iff.mp found
  have kept : ∀ other, (room.setE2ee pid true).members.lookup other =
      if other = pid then (room.members.lookup pid).map fun member =>
        { member with mediaState := { member.mediaState with e2ee := true } }
      else room.members.lookup other := fun other => room.lookup_setMedia pid other _
  have there : (room.setE2ee pid true).members.lookup participant = some member := by
    rw [kept, if_neg apart.symm, present]
  have only : ∀ other present, (room.setE2ee pid true).members.lookup other = some present →
      present.sink = member.sink → other = participant := by
    intro other present found here
    rw [kept] at found
    split at found
    · next same =>
      obtain ⟨former, stood, rfl⟩ := Option.map_eq_some_iff.mp found
      exact alone room stored other former (same ▸ stood) here
    · exact alone room stored other present found here
  rw [List.filterMap_append, relayedTo_status, List.append_nil]
  simp only [keyed, SignalingState.updateRoom, Table.lookup_modify, if_true, stored, Option.map_some,
    Option.getD_some]
  rw [relayedTo_broadcast, SignalingState.members_of_sink there only]
  simp [own, apart.symm]

/-- So does the dispatch of every key message that is meant for the member. -/
theorem dispatch_told (named : state.Named) (seated : state.seat roomId participant = some sink)
    (latest : state.sink participant = some sink)
    (alone : ∀ room ∈ state.rooms.lookup roomId,
      room.members.Every fun other member => member.sink = sink → other = participant)
    {pid : ParticipantId} (apart : pid ≠ participant) {message : SdpMessage}
    (keys : message.keysFor participant roomId = true) (raw : String) (selfTx : WsSink)
    (closed : WsSink → Bool) (maxChatHistory maxRoomMembers : Nat) :
    (state.dispatch message raw pid selfTx closed maxChatHistory maxRoomMembers).2.filterMap
      (relayedTo sink) = [raw] := by
  cases message with
  | e2eePublicKey _ room | e2eeKeyRotation _ room =>
    obtain rfl : room = roomId := of_decide_eq_true keys
    exact broadcast_told named seated alone apart raw
  | e2eeSenderKey _ recipient =>
    obtain rfl : recipient = participant := of_decide_eq_true keys
    simp [SignalingState.dispatch, SignalingState.unicast, SignalingState.relay, latest, relayedTo]
  | _ => cases keys

end Dispatch

/-- A key message is left to the engine by all hooks. -/
theorem Config.hookStart_keys (config : Config) {message : SdpMessage} {participant : ParticipantId}
    {roomId : RoomId} (keys : message.keysFor participant roomId = true) :
    config.hookStart message = .dispatch := by
  unfold Config.hookStart
  cases config.hooks with
  | noop => rfl
  | sfu => cases message <;> first | rfl | cases keys

namespace World

variable {config : Config} {world after : World}

/-- Every step keeps the members under their names. -/
theorem named_step (event : Event) (named : world.signaling.Named)
    (stepped : world.step config event = some after) : after.signaling.Named := by
  cases stepped_of_step event stepped with
  | connected | shut | mediaEnded | routed | finished => exact named
  | heard id raw parsed auth rateOk connection =>
    obtain ⟨same, _⟩ := @Connection.receive_texts config world id connection raw parsed auth rateOk
    change (connection.receive config world id raw parsed auth rateOk).signaling.Named
    exact same ▸ named
  | advanced id answer connection turn present taken =>
    change turn.signaling.Named
    unfold Connection.advance at taken
    split at taken <;> cases taken
    · unfold Connection.precheckSection
      split <;> exact named
    · exact named
    · rename_i first request stage pid point bound
      cases stage with
      | prune => exact named.pruneStale request.roomId world.isClosed
      | dispatch =>
        cases admits : Connection.admits config world request.roomId with
        | true =>
          rw [(connection.joinSection_admitted config world id pid first request admits).1]
          exact (named.pruneStale request.roomId world.isClosed).join _ _ _ _
        | false =>
          rw [(connection.joinSection_refused config world id pid first request admits).1]
          exact named.pruneStale request.roomId world.isClosed
      | notifyPruned | notifyRejoin | ensureRoom | storeSession | announceCount => exact named
    · rename_i handled stage pid point bound
      rcases @Connection.hookSection_effect config world id connection pid handled answer stage with
        ⟨same, _⟩ | ⟨_, _, roomId, change, changed, signaling, _⟩ | here
      · exact same ▸ named
      · obtain ⟨flag, rfl⟩ := SfuServer.mediaChange_flag changed
        rw [signaling]
        exact named.confined (@SignalingState.Confined.setMedia roomId pid "" 0 world.signaling flag)
      · subst here
        exact named.dispatch handled.raw handled.notJoin pid id _ _ _
    · rename_i stage pid point bound
      rw [(connection.leaveSection_frame config world id pid stage).2]
      split
      · exact named.disconnect pid
      · exact named

/-- What is known of every state of a run. -/
structure Orderly (config : Config) (world : World) : Prop where
  named : world.signaling.Named
  fits : world.Fitting config
  fresh : world.Fresh

/-- One event keeps the server orderly: by cases on the event, the dispatch above all. -/
theorem Orderly.step (orderly : world.Orderly config) (event : Event)
    (stepped : world.step config event = some after) : after.Orderly config :=
  ⟨named_step event orderly.named stepped, fitting_step event orderly.fits stepped,
    orderly.fresh.step event stepped⟩

/-- The server as it is started is orderly. -/
theorem Orderly.new (e2eeRequired : Bool) : (World.new e2eeRequired).Orderly config := by
  refine ⟨?_, fun _ _ present => ?_, fun _ _ => rfl⟩
  · intro roomId id member found
    simp [World.new, SignalingState.new, SignalingState.member] at found
  · simp [World.new] at present

end World

namespace KeyRelay

section Relay

variable {config : Config} {relay after : KeyRelay}
variable {source sink : WsSink} {participant : ParticipantId} {roomId : RoomId}

/-- Between two states: what was in hand for the member, and then what was read for it, is
what was placed for it, and then what is in hand. -/
def Relays (source sink : WsSink) (participant : ParticipantId) (roomId : RoomId)
    (before after : KeyRelay) : Prop :=
  ∃ heard told,
    keysHeard source participant roomId after.heard =
      keysHeard source participant roomId before.heard ++ heard ∧
    keysTold source sink participant roomId after.placed =
      keysTold source sink participant roomId before.placed ++ told ∧
    keysInHand source participant roomId before.world ++ heard =
      told ++ keysInHand source participant roomId after.world

/-- Nothing read and nothing placed is a relay without loss. -/
theorem Relays.refl (relay : KeyRelay) : Relays source sink participant roomId relay relay :=
  ⟨[], [], by simp, by simp, by simp⟩

/-- Relays in a row are a relay: what is read and what is placed both add up. -/
theorem Relays.trans {before between after : KeyRelay}
    (one : Relays source sink participant roomId before between)
    (two : Relays source sink participant roomId between after) :
    Relays source sink participant roomId before after := by
  obtain ⟨heard, told, reads, tells, balance⟩ := one
  obtain ⟨more, further, reads', tells', balance'⟩ := two
  refine ⟨heard ++ more, told ++ further, ?_, ?_, ?_⟩
  · rw [reads', reads, List.append_assoc]
  · rw [tells', tells, List.append_assoc]
  · rw [← List.append_assoc, balance, List.append_assoc, balance', List.append_assoc]

/-- The keys heard over two stretches are those of the first and then of the second. -/
@[simp]
theorem keysHeard_append (first second : List (WsSink × Handled)) :
    keysHeard source participant roomId (first ++ second) =
      keysHeard source participant roomId first ++ keysHeard source participant roomId second :=
  List.filterMap_append

/-- The keys told over two stretches are those of the first and then of the second. -/
@[simp]
theorem keysTold_append (first second : List (WsSink × Handled × Sent)) :
    keysTold source sink participant roomId (first ++ second) =
      keysTold source sink participant roomId first ++
        keysTold source sink participant roomId second :=
  List.filterMap_append

/-- Texts that were placed for one message. -/
theorem keysTold_placed (id : WsSink) (handled : Handled) (sent : List Sent) :
    keysTold source sink participant roomId (sent.map (id, handled, ·)) =
      if id = source ∧ handled.message.keysFor participant roomId = true then
        sent.filterMap (relayedTo sink)
      else [] := by
  rw [keysTold, List.filterMap_map]
  split
  · next meant => simp [meant]
  · next other => simp [other]

/-- What a task has in hand that is not for the member. -/
theorem keysInHand_eq {world : World} {handled : Option Handled}
    (same : inHand world source = handled)
    (other : ∀ message ∈ handled, message.message.keysFor participant roomId = false) :
    keysInHand source participant roomId world = [] := by
  rw [keysInHand, same]
  cases handled with
  | none => rfl
  | some handled => simp [keysHeard, other handled rfl]

/-- Committing a turn changes what is in hand of that one connection. -/
theorem inHand_commit (world : World) (id : WsSink) (turn : Turn) :
    inHand (world.commit id turn) source =
      if source = id then turn.connection.point.handled else inHand world source := by
  rw [inHand, World.lookup_commit]
  split <;> rfl

/-- A section of the connection's own task. -/
theorem relays_advance (orderly : relay.world.Orderly config)
    (attends : Attends source sink participant roomId relay) {answer : Option String}
    {connection : Connection} {turn : Turn}
    (present : relay.world.connections.lookup source = some connection)
    (taken : connection.advance config relay.world source answer = some turn) :
    Relays source sink participant roomId relay
      { world := relay.world.commit source turn
        heard := relay.heard ++ hears (relay.world.commit source turn) (.advance source answer)
        placed := relay.placed ++
          places relay.world (relay.world.commit source turn) (.advance source answer) } := by
  have before : inHand relay.world source = connection.point.handled := by
    rw [inHand, present]
    rfl
  have after : inHand (relay.world.commit source turn) source = turn.connection.point.handled := by
    rw [inHand_commit, if_pos rfl]
  have texts : places relay.world (relay.world.commit source turn) (.advance source answer) =
      connection.point.handled.toList.flatMap fun handled =>
        turn.sent.map (source, handled, ·) := by
    simp only [places, before, World.commit, List.drop_left]
  -- Nothing for the member is in hand, nor will be.
  have other : (∀ handled ∈ connection.point.handled,
        handled.message.keysFor participant roomId = false) →
      (∀ handled ∈ turn.connection.point.handled,
        handled.message.keysFor participant roomId = false) →
      Relays source sink participant roomId relay
        { world := relay.world.commit source turn
          heard := relay.heard ++ hears (relay.world.commit source turn) (.advance source answer)
          placed := relay.placed ++
            places relay.world (relay.world.commit source turn) (.advance source answer) } := by
    intro was will
    refine ⟨[], [], by simp [hears], ?_, ?_⟩
    · rw [keysTold_append, texts]
      cases held : connection.point.handled with
      | none => rfl
      | some handled => simp [keysTold_placed, was handled held]
    · rw [keysInHand_eq before was, keysInHand_eq after will]
  have none : ∀ {held : Option Handled}, held = none → ∀ handled ∈ held,
      handled.message.keysFor participant roomId = false := by
    rintro _ rfl _ absent
    cases absent
  unfold Connection.advance at taken
  split at taken <;> cases taken
  · next request point bound =>
    rw [point] at other
    refine other (none rfl) (none ?_)
    unfold Connection.precheckSection
    split <;> rfl
  · next request point bound =>
    rw [point] at other
    exact other (none rfl) (none rfl)
  · next first request stage pid point bound =>
    rw [point] at other
    refine other (none rfl) (none ?_)
    cases stage <;> rfl
  · next handled stage pid point bound =>
    obtain ⟨next, moved, whither⟩ :=
      @Connection.hookSection_goto config relay.world source connection pid handled answer stage
    rw [point] at other before texts
    rw [moved] at other after
    cases keys : handled.message.keysFor participant roomId with
    | false =>
      refine other ?_ ?_
      · rintro _ ⟨⟩
        exact keys
      · rintro _ held
        rcases whither with rfl | ⟨later, rfl, _⟩
        · cases held
        · cases held
          exact keys
    | true =>
      have fits := orderly.fits source connection present
      rw [point] at fits
      obtain rfl := fits.mpr (config.hookStart_keys keys)
      have apart : pid ≠ participant := by
        rintro rfl
        apply attends.apart
        rw [present]
        exact bound
      have told := dispatch_told orderly.named attends.seated attends.latest attends.alone apart keys
        handled.raw source relay.world.isClosed config.maxChatHistory config.maxRoomMembers
      refine ⟨[], [handled.raw], by simp [hears], ?_, ?_⟩
      · rw [keysTold_append, texts]
        change _ ++ keysTold source sink participant roomId (List.flatMap _ [handled]) = _
        rw [List.flatMap_singleton, keysTold_placed, if_pos ⟨rfl, keys⟩]
        exact congrArg _ told
      · have idle : next = .idle := congrArg Connection.point moved.symm
        rw [keysInHand_eq after (none (by rw [idle]; rfl)), keysInHand, before]
        change keysHeard source participant roomId [(source, handled)] ++ [] = _
        simp [keysHeard, keys]
  · next stage pid point bound =>
    rw [point] at other
    refine other (none rfl) (none ?_)
    rcases connection.leaveSection_point config relay.world source pid stage with ended | ⟨next, on⟩
    · rw [ended]
      rfl
    · rw [on]
      rfl

/-- A section of another task, or an event of none. -/
theorem relays_aside {event : Event} {world : World}
    (same : inHand world source = inHand relay.world source)
    (unheard : keysHeard source participant roomId (hears world event) = [])
    (untold : keysTold source sink participant roomId (places relay.world world event) = []) :
    Relays source sink participant roomId relay
      { world, heard := relay.heard ++ hears world event
        placed := relay.placed ++ places relay.world world event } := by
  refine ⟨[], [], ?_, ?_, ?_⟩
  · rw [keysHeard_append, unheard]
  · rw [keysTold_append, untold]
  · rw [List.append_nil, List.nil_append, keysInHand, keysInHand, same]

/-- Every step, as long as the member attends. -/
theorem relays_step (orderly : relay.world.Orderly config)
    (attends : Attends source sink participant roomId relay) (event : Event)
    (stepped : relay.step config event = some after) :
    Relays source sink participant roomId relay after := by
  obtain ⟨world, moved, rfl⟩ := Option.map_eq_some_iff.mp stepped
  have turned : ∀ {id : WsSink} {next : Connection → Option Turn},
      relay.world.turned id next = some world → ∃ connection turn,
        relay.world.connections.lookup id = some connection ∧ next connection = some turn ∧
          relay.world.commit id turn = world := by
    intro id next taken
    simpa only [World.turned, Option.bind_eq_some_iff, Option.map_eq_some_iff, exists_and_left]
      using taken
  -- The end of a loop has nothing in hand, as the loop had not.
  have ends : ∀ {id : WsSink} {connection : Connection} {turn : Turn},
      relay.world.connections.lookup id = some connection → connection.point = .idle →
        turn.connection = connection.finish →
          inHand (relay.world.commit id turn) source = inHand relay.world source := by
    intro id connection turn present idle finished
    rw [inHand_commit, finished]
    split
    · next own =>
      rw [inHand, own, present, Option.bind_some, idle, Connection.finish]
      split <;> rfl
    · rfl
  cases event with
  | connect =>
    cases Option.some.inj moved
    refine relays_aside ?_ rfl rfl
    simp only [inHand, Table.lookup_insert_eq]
    split
    · next fresh =>
      rw [fresh, orderly.fresh _ (Nat.le_refl _)]
      rfl
    · rfl
  | receive id raw parsed auth rateOk =>
    obtain ⟨connection, turn, present, taken, rfl⟩ := turned moved
    have idle := (World.whenIdle_eq_some taken).1
    by_cases own : id = source
    · subst own
      refine ⟨keysInHand id participant roomId (relay.world.commit id turn), [], ?_, by simp [places], ?_⟩
      · rw [keysHeard_append]
        rfl
      · have before : inHand relay.world id = none := by
          rw [inHand, present, Option.bind_some, idle]
          rfl
        have nothing : keysInHand id participant roomId relay.world = [] := by
          rw [keysInHand, before]
          rfl
        rw [nothing]
    · refine relays_aside (by rw [inHand_commit, if_neg (Ne.symm own)]) ?_ rfl
      simp [hears, keysHeard, own]
  | advance id answer =>
    obtain ⟨connection, turn, present, taken, rfl⟩ := turned moved
    by_cases own : id = source
    · subst own
      exact relays_advance orderly attends present taken
    · refine relays_aside (by rw [inHand_commit, if_neg (Ne.symm own)]) rfl ?_
      rw [places]
      cases inHand relay.world id with
      | none => rfl
      | some handled =>
        change keysTold source sink participant roomId (List.flatMap _ [handled]) = _
        rw [List.flatMap_singleton, keysTold_placed, if_neg fun both => own both.1]
  | hangUp id =>
    obtain ⟨connection, turn, present, taken, rfl⟩ := turned moved
    obtain ⟨idle, rfl⟩ := World.whenIdle_eq_some taken
    exact relays_aside (ends present idle rfl) rfl rfl
  | deadline id =>
    obtain ⟨connection, turn, present, taken, rfl⟩ := turned moved
    simp only [Option.ite_none_right_eq_some] at taken
    obtain ⟨idle, rfl⟩ := World.whenIdle_eq_some taken.2
    exact relays_aside (ends present idle rfl) rfl rfl
  | writerEnds id =>
    obtain ⟨_, _, rfl⟩ := Option.map_eq_some_iff.mp moved
    exact relays_aside rfl rfl rfl
  | mediaEnds task =>
    simp only [World.step, Option.ite_none_right_eq_some, Option.some.injEq] at moved
    exact moved.2 ▸ relays_aside rfl rfl rfl
  | routed source task =>
    simp only [World.step, Option.ite_none_right_eq_some, Option.some.injEq] at moved
    exact moved.2 ▸ relays_aside rfl rfl rfl

/-- Every server that is reached is orderly. -/
theorem orderly_of_reaches {admitted : KeyRelay → Event → Prop} {e2eeRequired : Bool}
    (reached : Reaches (step config) admitted (new e2eeRequired) relay) :
    relay.world.Orderly config := by
  refine reached.invariant (fun relay => relay.world.Orderly config) (.new e2eeRequired) ?_
  intro before event after orderly _ stepped
  obtain ⟨world, moved, rfl⟩ := Option.map_eq_some_iff.mp stepped
  exact orderly.step event moved

/-- From any state that is reached on, as long as a participant has the room's only seat on a
sink: the key messages for it that another connection's task had in hand or has read since are
those placed on the sink since, in the same order, and then what the task has in hand.

What a connection has read, it handles in order, and each key message in hand is placed on
the one sink of its target. The stay fixes this sink; a step adds to what was read, what was
placed or neither. -/
theorem keys_relayed (config : Config) (e2eeRequired : Bool) {before now : KeyRelay}
    {source sink : WsSink} {participant : ParticipantId} {roomId : RoomId}
    (reached : Reaches (step config) always (new e2eeRequired) before)
    (attended : Reaches (step config)
      (fun relay _ => Attends source sink participant roomId relay) before now) :
    ∃ heard told,
      keysHeard source participant roomId now.heard =
        keysHeard source participant roomId before.heard ++ heard ∧
      keysTold source sink participant roomId now.placed =
        keysTold source sink participant roomId before.placed ++ told ∧
      keysInHand source participant roomId before.world ++ heard =
        told ++ keysInHand source participant roomId now.world := by
  have kept : now.world.Orderly config ∧ Relays source sink participant roomId before now := by
    induction attended with
    | start => exact ⟨orderly_of_reaches reached, .refl before⟩
    | next _ attends stepped inductionHypothesis =>
      obtain ⟨orderly, relays⟩ := inductionHypothesis
      obtain ⟨world, moved, same⟩ := Option.map_eq_some_iff.mp stepped
      exact ⟨same ▸ orderly.step _ moved, relays.trans (relays_step orderly attends _ stepped)⟩
  exact kept.2

/-- Two participants are in a room. The first sends its public key to the room and its sender
key to the second, which has both, and has a key rotation in hand. -/
theorem keys_relayed_pair :
    let keys : List SdpMessage :=
      [.e2eePublicKey ⟨1⟩ "a" "public", .e2eeSenderKey ⟨1⟩ ⟨2⟩ "a" "sealed" 0]
    let hears : String → SdpMessage → Event := fun raw message =>
      .receive 1 raw (some message) (.ok ()) true
    let before := (walk (step .sfuDefault) always (new false)
      ([.connect, .connect] ++ Event.firstJoin 1 ⟨1⟩ "a" ++ Event.firstJoin 2 ⟨2⟩ "a")).getD (new false)
    let now := (walk (step .sfuDefault) (fun relay _ => Attends 1 2 ⟨2⟩ "a" relay) before
      ((keys.flatMap fun message => [hears "keys" message, .advance 1 none]) ++
        [hears "rotation" (.e2eeKeyRotation ⟨1⟩ "a" 1)])).getD before
    keysTold 1 2 ⟨2⟩ "a" now.placed = ["keys", "keys"] ∧
      keysInHand 1 ⟨2⟩ "a" now.world = ["rotation"] ∧
      ∃ heard told,
        keysHeard 1 ⟨2⟩ "a" now.heard = keysHeard 1 ⟨2⟩ "a" before.heard ++ heard ∧
        keysTold 1 2 ⟨2⟩ "a" now.placed = keysTold 1 2 ⟨2⟩ "a" before.placed ++ told ∧
        keysInHand 1 ⟨2⟩ "a" before.world ++ heard = told ++ keysInHand 1 ⟨2⟩ "a" now.world := by
  intro keys hears before now
  have reached : Reaches (step .sfuDefault) always (new false) before :=
    walk_reaches_end _ _ _ _ (by decide +kernel)
  have attended : Reaches (step .sfuDefault) (fun relay _ => Attends 1 2 ⟨2⟩ "a" relay) before now :=
    walk_reaches_end _ _ _ _ (by decide +kernel)
  exact ⟨by decide +kernel, by decide +kernel, keys_relayed .sfuDefault false reached attended⟩

end Relay

end KeyRelay

end Seameet
