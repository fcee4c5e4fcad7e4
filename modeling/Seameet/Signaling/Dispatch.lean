import Seameet.Signaling.State

/-!
# Dispatch

The engine's default handling of one message, under one acquisition of the
state's lock: the state after it and the texts it places. A `Join` first removes
the closed members of its room and then checks the capacity again; every other
message is relayed to its room, or to the one participant it names, or changes a
media flag of the sender and sends the room its status.

Apart from `Join` and `Leave`, a dispatch is confined: it reads one room and the
index, and all it may change is the sender's own flags in that room and the
room's chat. Who the sender is plays no part in where the texts go.
-/

namespace Seameet

open Library

namespace SignalingState

/-- Whether a room exists and has no place left. -/
def full (state : SignalingState) (roomId : RoomId) (maxRoomMembers : Nat) : Bool :=
  match state.rooms.lookup roomId with
  | some room => maxRoomMembers ≤ room.memberCount
  | none => false

/-- A client's text for the listed sinks. -/
def relay (sinks : List WsSink) (raw : String) : List Sent :=
  sinks.map fun sink => (sink, .relayed raw)

/-- A client's text for one participant, whichever rooms it is in. -/
def unicast (state : SignalingState) (target : ParticipantId) (raw : String) : List Sent :=
  relay (state.sink target).toList raw

/-- Change a room and send all its members the status that results. -/
def announce (state : SignalingState) (roomId : RoomId) (change : Room → Room) :
    SignalingState × List Sent :=
  let changed := state.updateRoom roomId change
  (changed, broadcastRoomStatus changed roomId)

/-- The error a full room is answered with. -/
def roomIsFull : Frame := .serialised (.error 403 "room is full")

/-- Dispatch of an admitted `Join`: the new member is told of the others, all
members get the status, and the new member the chat. -/
def seatMember (state : SignalingState) (participant : ParticipantId) (roomId : RoomId)
    (displayName : Option String) (sink : WsSink) : SignalingState × List Sent :=
  let existingPeers :=
    ((state.rooms.lookup roomId).map fun room => room.peerIds participant).getD []
  let existingDisplayNames :=
    ((state.rooms.lookup roomId).map fun room => room.displayNames participant).getD []
  let (initiator, joined) := state.join participant roomId sink displayName
  let chat := ((joined.rooms.lookup roomId).map Room.chatHistory).getD []
  (joined,
    (sink, .serialised (.ready roomId initiator existingPeers existingDisplayNames)) ::
      broadcastRoomStatus joined roomId ++ chat.map fun raw => (sink, .relayed raw))

/-- Dispatch of a `Join`. -/
def dispatchJoin (state : SignalingState) (participant : ParticipantId) (roomId : RoomId)
    (displayName : Option String) (sink : WsSink) (closed : WsSink → Bool)
    (maxRoomMembers : Nat) : SignalingState × List Sent :=
  let pruned := (state.pruneStale roomId closed).2
  if pruned.full roomId maxRoomMembers then (pruned, [(sink, roomIsFull)])
  else pruned.seatMember participant roomId displayName sink

/-- Dispatch of a `Leave`. -/
def dispatchLeave (state : SignalingState) (participant : ParticipantId) (roomId : RoomId) :
    SignalingState × List Sent :=
  let left := (state.leave participant roomId).2
  (left, broadcastRoomStatus left roomId)

/-- `dispatch`: one message through the engine's default logic. -/
def dispatch (state : SignalingState) (message : SdpMessage) (raw : String) (pid : ParticipantId)
    (selfTx : WsSink) (closed : WsSink → Bool) (maxChatHistory maxRoomMembers : Nat) :
    SignalingState × List Sent :=
  match message with
  | .join participant roomId displayName _ =>
      state.dispatchJoin participant roomId displayName selfTx closed maxRoomMembers
  | .leave participant roomId => state.dispatchLeave participant roomId
  | .offer _ (some target) _ _ => (state, state.unicast target raw)
  | .offer _ none roomId _ => (state, relay (state.peers roomId pid) raw)
  | .answer _ target _ _ => (state, state.unicast target raw)
  | .iceCandidate _ target _ _ _ _ => (state, state.unicast target raw)
  -- Only the server sends `RequestRenegotiation`.
  | .requestRenegotiation _ _ => (state, [])
  | .muteAudio _ roomId => state.announce roomId fun room => room.setAudioMuted pid true
  | .unmuteAudio _ roomId => state.announce roomId fun room => room.setAudioMuted pid false
  | .muteVideo _ roomId => state.announce roomId fun room => room.setVideoMuted pid true
  | .unmuteVideo _ roomId => state.announce roomId fun room => room.setVideoMuted pid false
  | .screenShareStarted _ roomId _ =>
      let shared := state.updateRoom roomId fun room => room.setScreenSharing pid true
      (shared, relay (shared.peers roomId pid) raw)
  | .screenShareStopped _ roomId _ =>
      let stopped := state.updateRoom roomId fun room => room.setScreenSharing pid false
      (stopped, relay (stopped.peers roomId pid) raw)
  | .videoConfigChanged _ roomId _ _ _ => (state, relay (state.peers roomId pid) raw)
  | .chatMessage _ roomId _ _ _ _ _ =>
      let chatted := state.updateRoom roomId fun room => room.pushChat raw maxChatHistory
      (chatted,
        ((chatted.rooms.lookup roomId).map fun room => room.broadcastAll (.relayed raw)).getD [])
  -- Only the server sends `ActiveSpeaker`.
  | .activeSpeaker _ _ _ => (state, [])
  | .e2eePublicKey _ roomId _ | .e2eeKeyRotation _ roomId _ =>
      let keyed := state.updateRoom roomId fun room => room.setE2ee pid true
      (keyed,
        ((keyed.rooms.lookup roomId).map fun room => room.broadcast (.relayed raw) pid).getD [] ++
          broadcastRoomStatus keyed roomId)
  | .e2eeSenderKey _ target _ _ _ => (state, state.unicast target raw)
  | _ => (state, [])

/-- The sink belongs to a member of the room. -/
def memberSink (state : SignalingState) (roomId : RoomId) (sink : WsSink) : Prop :=
  ∃ id member, state.member roomId id = some member ∧ member.sink = sink

/-- What changes between two states is one participant's media flags in one
room, where it is a member, and the room's chat. -/
structure Confined (roomId : RoomId) (pid : ParticipantId) (raw : String) (maxChatHistory : Nat)
    (before after : SignalingState) : Prop where
  connections : after.connections = before.connections
  generations : after.connectionGens = before.connectionGens
  elsewhere : ∀ tested, tested ≠ roomId → after.rooms.lookup tested = before.rooms.lookup tested
  others : ∀ other, other ≠ pid → after.member roomId other = before.member roomId other
  own : ∃ change : MemberMediaState → MemberMediaState,
    after.member roomId pid = (before.member roomId pid).map fun member =>
      { member with mediaState := change member.mediaState }
  chat : (after.rooms.lookup roomId).map Room.chatHistory =
      (before.rooms.lookup roomId).map Room.chatHistory ∨
    (after.rooms.lookup roomId).map Room.chatHistory =
      (before.rooms.lookup roomId).map fun room => (room.pushChat raw maxChatHistory).chatHistory

/-- Who is seated where, which rooms there are and what the index and the record
of generations say is the same in both states. -/
structure SameSeats (before after : SignalingState) : Prop where
  seat : ∀ roomId id, after.seat roomId id = before.seat roomId id
  listed : ∀ id roomId, after.listed id roomId ↔ before.listed id roomId
  hasRoom : ∀ roomId, after.hasRoom roomId = before.hasRoom roomId
  connectionGen : ∀ id, after.connectionGen id = before.connectionGen id

/-- Nothing changes. -/
theorem SameSeats.refl (state : SignalingState) : SameSeats state state :=
  ⟨fun _ _ => rfl, fun _ _ => .rfl, fun _ => rfl, fun _ => rfl⟩

namespace Confined

variable {roomId : RoomId} {pid : ParticipantId} {raw : String} {maxChatHistory : Nat}
variable {before after : SignalingState}

/-- Changing nothing is confined. -/
theorem refl (state : SignalingState) : Confined roomId pid raw maxChatHistory state state :=
  { connections := rfl
    generations := rfl
    elsewhere := fun _ _ => rfl
    others := fun _ _ => rfl
    own := ⟨id, by simp⟩
    chat := .inl rfl }

/-- Changing a media flag of the participant is confined. -/
theorem setMedia (state : SignalingState) (change : MemberMediaState → MemberMediaState) :
    Confined roomId pid raw maxChatHistory state
      (state.updateRoom roomId fun room => room.setMedia pid change) := by
  constructor
  · rfl
  · rfl
  · intro tested apart
    simp [updateRoom, Table.lookup_modify, apart]
  · intro other apart
    rw [member_updateRoom, if_pos rfl]
    simp [member, Room.lookup_setMedia, apart]
  · refine ⟨change, ?_⟩
    rw [member_updateRoom, if_pos rfl]
    cases stored : state.rooms.lookup roomId with
    | none => simp [member, stored]
    | some room => simp [member, stored, Room.lookup_setMedia]
  · left
    simp only [updateRoom, Table.lookup_modify, ↓reduceIte]
    cases state.rooms.lookup roomId <;> rfl

/-- Appending to the chat is confined. -/
theorem pushChat (state : SignalingState) :
    Confined roomId pid raw maxChatHistory state
      (state.updateRoom roomId fun room => room.pushChat raw maxChatHistory) := by
  have kept : ∀ id, (state.updateRoom roomId fun room => room.pushChat raw maxChatHistory).member
      roomId id = state.member roomId id := by
    intro id
    rw [member_updateRoom, if_pos rfl]
    rfl
  constructor
  · rfl
  · rfl
  · intro tested apart
    simp [updateRoom, Table.lookup_modify, apart]
  · intro other _
    exact kept other
  · exact ⟨id, by rw [kept]; simp⟩
  · right
    simp only [updateRoom, Table.lookup_modify, ↓reduceIte]
    cases state.rooms.lookup roomId <;> rfl

/-- Every room's members keep their sinks. -/
theorem sink_eq (confined : Confined roomId pid raw maxChatHistory before after)
    (tested : RoomId) (id : ParticipantId) :
    (after.member tested id).map Member.sink = (before.member tested id).map Member.sink := by
  by_cases same : tested = roomId
  · subst same
    by_cases own : id = pid
    · subst own
      obtain ⟨change, changed⟩ := confined.own
      rw [changed]
      cases before.member tested id <;> rfl
    · rw [confined.others id own]
  · simp only [member, confined.elsewhere tested same]

/-- Everybody keeps its seat. -/
theorem sameSeats (confined : Confined roomId pid raw maxChatHistory before after) :
    SameSeats before after := by
  refine ⟨confined.sink_eq, ?_, ?_, ?_⟩
  · intro id tested
    simp only [listed, confined.connections]
  · intro tested
    by_cases same : tested = roomId
    · subst same
      have lengths : ∀ {first second : Option Room} {read : Room → List String},
          first.map Room.chatHistory = second.map read → first.isSome = second.isSome := by
        intro first second read same
        simpa using congrArg Option.isSome same
      rcases confined.chat with kept | pushed
      · exact lengths kept
      · exact lengths pushed
    · simp only [hasRoom, confined.elsewhere tested same]
  · intro id
    simp only [connectionGen, confined.generations]

/-- The members' sinks are the same before and after. -/
theorem memberSink_iff (confined : Confined roomId pid raw maxChatHistory before after)
    (tested : RoomId) (sink : WsSink) :
    after.memberSink tested sink ↔ before.memberSink tested sink := by
  have each : ∀ id, (∃ member, after.member tested id = some member ∧ member.sink = sink) ↔
      ∃ member, before.member tested id = some member ∧ member.sink = sink := by
    intro id
    have same := confined.sink_eq tested id
    simp only [← Option.map_eq_some_iff, same]
  simp only [memberSink, each]

end Confined

/-- A room status goes to members of the room. -/
theorem mem_broadcastRoomStatus {state : SignalingState} {roomId : RoomId} {sent : Sent}
    (placed : sent ∈ broadcastRoomStatus state roomId) : state.memberSink roomId sent.1 := by
  unfold broadcastRoomStatus at placed
  cases stored : state.rooms.lookup roomId with
  | none => simp [stored] at placed
  | some room =>
    simp only [stored, Room.broadcastAll, List.mem_map] at placed
    obtain ⟨member, present, rfl⟩ := placed
    obtain ⟨id, read⟩ := (Table.mem_values member room.members).mp present
    exact ⟨id, member, by simp [SignalingState.member, stored, read], rfl⟩

/-- The texts of a changed room's members go to members of the room. -/
theorem mem_of_room {state : SignalingState} {roomId : RoomId} {sent : Sent}
    (texts : Room → List Sent)
    (toMembers : ∀ room, ∀ sent ∈ texts room, ∃ member ∈ room.members.values, member.sink = sent.1)
    (placed : sent ∈ ((state.rooms.lookup roomId).map texts).getD []) :
    state.memberSink roomId sent.1 := by
  cases stored : state.rooms.lookup roomId with
  | none => simp [stored] at placed
  | some room =>
    simp only [stored, Option.map_some, Option.getD_some] at placed
    obtain ⟨member, present, same⟩ := toMembers room sent placed
    obtain ⟨id, read⟩ := (Table.mem_values member room.members).mp present
    exact ⟨id, member, by simp [SignalingState.member, stored, read], same⟩

/-- A text relayed to a room's other members goes to members of the room. -/
theorem mem_relay_peers {state : SignalingState} {roomId : RoomId} {pid : ParticipantId}
    {raw : String} {sent : Sent} (placed : sent ∈ relay (state.peers roomId pid) raw) :
    state.memberSink roomId sent.1 := by
  obtain ⟨sink, listed, rfl⟩ := List.mem_map.mp placed
  unfold peers at listed
  cases stored : state.rooms.lookup roomId with
  | none => simp [stored] at listed
  | some room =>
    simp only [stored, Option.map_some, Option.getD_some, Room.peerSinks, List.mem_map,
      List.mem_filter] at listed
    obtain ⟨member, ⟨present, _⟩, rfl⟩ := listed
    obtain ⟨id, read⟩ := (Table.mem_values member room.members).mp present
    exact ⟨id, member, by simp [SignalingState.member, stored, read], rfl⟩

end SignalingState

/-- The participant a message is relayed to alone. -/
def SdpMessage.unicastTarget : SdpMessage → Option ParticipantId
  | .offer _ target _ _ => target
  | .answer _ target _ _ | .iceCandidate _ target _ _ _ _ | .e2eeSenderKey _ target _ _ _ =>
      some target
  | _ => none

/-- Whether a message is a `Join` or a `Leave`. -/
def SdpMessage.changesMembership : SdpMessage → Bool
  | .join _ _ _ _ | .leave _ _ => true
  | _ => false

namespace SignalingState

/-- Where a confined dispatch may put its texts: on the stored sink of the
participant the message is relayed to alone, otherwise on the sinks of the
room's members. -/
def Routed (state : SignalingState) (message : SdpMessage) (roomId : RoomId)
    (placed : List Sent) : Prop :=
  ∀ sent ∈ placed,
    match message.unicastTarget with
    | some target => state.sink target = some sent.1
    | none => state.memberSink roomId sent.1

/-- A message other than `Join` and `Leave` that names a room changes only the
sender's flags in that room, if it is a member, and the room's chat. -/
theorem dispatch_keeps (state : SignalingState) (message : SdpMessage) (raw : String)
    (pid : ParticipantId) (selfTx : WsSink) (closed : WsSink → Bool)
    (maxChatHistory maxRoomMembers : Nat) (roomId : RoomId)
    (named : message.roomId = some roomId) (other : message.changesMembership = false) :
    Confined roomId pid raw maxChatHistory state
      (state.dispatch message raw pid selfTx closed maxChatHistory maxRoomMembers).1 := by
  cases message with
  | join => simp [SdpMessage.changesMembership] at other
  | leave => simp [SdpMessage.changesMembership] at other
  | offer _ recipient => cases recipient <;> exact .refl state
  | muteAudio _ room | unmuteAudio _ room | muteVideo _ room | unmuteVideo _ room
  | screenShareStarted _ room | screenShareStopped _ room | e2eePublicKey _ room
  | e2eeKeyRotation _ room =>
    have same : room = roomId := Option.some.inj named
    subst same
    exact .setMedia state _
  | chatMessage _ room =>
    have same : room = roomId := Option.some.inj named
    subst same
    exact .pushChat state
  | error | answer | iceCandidate | e2eeSenderKey | videoConfigChanged | ready | peerJoined
  | peerLeft | requestRenegotiation | requestKeyframe | roomStatus | activeSpeaker
  | screenShareRouted => exact .refl state

/-- The texts of such a message go to members of the room, as the dispatch left
it, or to the one participant the message is for. -/
theorem dispatch_reaches (state : SignalingState) (message : SdpMessage) (raw : String)
    (pid : ParticipantId) (selfTx : WsSink) (closed : WsSink → Bool)
    (maxChatHistory maxRoomMembers : Nat) (roomId : RoomId)
    (named : message.roomId = some roomId) (other : message.changesMembership = false) :
    (state.dispatch message raw pid selfTx closed maxChatHistory maxRoomMembers).1.Routed
      message roomId
      (state.dispatch message raw pid selfTx closed maxChatHistory maxRoomMembers).2 := by
  have alone : ∀ target, message.unicastTarget = some target →
      state.Routed message roomId (state.unicast target raw) := by
    intro target alone sent present
    rw [alone]
    obtain ⟨sink, stored, rfl⟩ := List.mem_map.mp present
    exact Option.mem_toList.mp stored
  have nothing : state.Routed message roomId [] := by simp [Routed]
  cases message with
  | join => simp [SdpMessage.changesMembership] at other
  | leave => simp [SdpMessage.changesMembership] at other
  | error => simp [SdpMessage.roomId] at named
  | offer _ recipient room _ =>
    have same : room = roomId := Option.some.inj named
    subst same
    cases recipient with
    | some target => exact alone target rfl
    | none =>
      intro sent present
      exact mem_relay_peers present
  | answer _ target => exact alone target rfl
  | iceCandidate _ target => exact alone target rfl
  | e2eeSenderKey _ target => exact alone target rfl
  | muteAudio _ room | unmuteAudio _ room | muteVideo _ room | unmuteVideo _ room =>
    have same : room = roomId := Option.some.inj named
    subst same
    intro sent present
    exact mem_broadcastRoomStatus present
  | screenShareStarted _ room | screenShareStopped _ room | videoConfigChanged _ room =>
    have same : room = roomId := Option.some.inj named
    subst same
    intro sent present
    exact mem_relay_peers present
  | chatMessage _ room =>
    have same : room = roomId := Option.some.inj named
    subst same
    intro sent present
    refine mem_of_room (fun room => room.broadcastAll (.relayed raw)) ?_ present
    intro room sent placed
    obtain ⟨member, listed, rfl⟩ := List.mem_map.mp placed
    exact ⟨member, listed, rfl⟩
  | e2eePublicKey _ room | e2eeKeyRotation _ room =>
    have same : room = roomId := Option.some.inj named
    subst same
    intro sent present
    rcases List.mem_append.mp present with keys | status
    · refine mem_of_room (fun room => room.broadcast (.relayed raw) pid) ?_ keys
      intro room sent placed
      obtain ⟨member, listed, rfl⟩ := List.mem_map.mp placed
      exact ⟨member, List.mem_of_mem_filter listed, rfl⟩
    · exact mem_broadcastRoomStatus status
  | ready | peerJoined | peerLeft | requestRenegotiation | requestKeyframe | roomStatus
  | activeSpeaker | screenShareRouted => exact nothing

/-- Dispatching a message other than `Join` and `Leave` that names a room changes
only the sender's flags in that room, if it is a member, and the room's chat,
and places texts only on the sinks of the room's members, or on the stored sink
of the one participant the message is for.

What the dispatch does to the state and where it places its texts are shown apart, by cases
on the message. Since the members and the stored sinks are kept, the texts can be read off
the state before. -/
theorem dispatch_confined (state : SignalingState) (message : SdpMessage) (raw : String)
    (pid : ParticipantId) (selfTx : WsSink) (closed : WsSink → Bool)
    (maxChatHistory maxRoomMembers : Nat) (roomId : RoomId)
    (named : message.roomId = some roomId) (other : message.changesMembership = false) :
    Confined roomId pid raw maxChatHistory state
        (state.dispatch message raw pid selfTx closed maxChatHistory maxRoomMembers).1 ∧
      state.Routed message roomId
        (state.dispatch message raw pid selfTx closed maxChatHistory maxRoomMembers).2 := by
  have keeps := state.dispatch_keeps message raw pid selfTx closed maxChatHistory maxRoomMembers
    roomId named other
  have reaches := state.dispatch_reaches message raw pid selfTx closed maxChatHistory
    maxRoomMembers roomId named other
  refine ⟨keeps, ?_⟩
  intro sent placed
  have routed := reaches sent placed
  cases alone : message.unicastTarget with
  | some target =>
    simp only [alone] at routed ⊢
    rwa [sink, ← keeps.connections]
  | none =>
    simp only [alone] at routed ⊢
    exact (keeps.memberSink_iff roomId sent.1).mp routed

/-- A chat message of a member of the same room. -/
theorem dispatch_confined_chat :
    let room := (SignalingState.new false).join ⟨1⟩ "a" 1 none
    let chat : SdpMessage := .chatMessage ⟨1⟩ "a" none "hi" 0 false none
    Confined "a" ⟨1⟩ "hi" 1000 room.2 (room.2.dispatch chat "hi" ⟨1⟩ 1 (fun _ => false) 1000 25).1 ∧
      room.2.Routed chat "a" (room.2.dispatch chat "hi" ⟨1⟩ 1 (fun _ => false) 1000 25).2 :=
  dispatch_confined _ _ "hi" ⟨1⟩ 1 (fun _ => false) 1000 25 "a" rfl rfl

/-- One member is in room `a`; another participant is in none. -/
def soloRoom : SignalingState :=
  ((SignalingState.new false).dispatch (.join ⟨1⟩ "a" none none) "" ⟨1⟩ 1 (fun _ => false) 1000 25).1

/-- A participant outside the room puts a text on a member's sink and into the
room's chat, and a message naming a room its target is not in reaches the
target all the same. -/
theorem outsider_reaches_room :
    let chat := soloRoom.dispatch (.chatMessage ⟨2⟩ "a" none "hi" 0 false none) "hi" ⟨2⟩ 2
      (fun _ => false) 1000 25
    let offer := soloRoom.dispatch (.offer ⟨2⟩ (some ⟨1⟩) "b" "sdp") "offer" ⟨2⟩ 2
      (fun _ => false) 1000 25
    soloRoom.member "a" ⟨2⟩ = none ∧
      chat.2 = [(1, .relayed "hi")] ∧
      (chat.1.rooms.lookup "a").map Room.chatHistory = some ["hi"] ∧
      soloRoom.member "b" ⟨1⟩ = none ∧
      offer.2 = [(1, .relayed "offer")] := by
  decide +kernel

end SignalingState

end Seameet
