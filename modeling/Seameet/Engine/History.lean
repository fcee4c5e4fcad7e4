import Seameet.Engine.Stepping

/-!
# The chat of a room

A chat message is stored with its room and placed on every member's sink under
one acquisition of the lock, and so is a new member seated and handed the stored
history. No other section touches a room's history, except that a room may go,
or places chat.

What a text means follows from the text, so here the parser is a function.
-/

namespace Seameet

open Library

/-- The room a message is a chat message of. -/
def SdpMessage.chatRoom : SdpMessage → Option RoomId
  | .chatMessage _ roomId _ _ _ _ _ => some roomId
  | _ => none

/-- The room a text is a chat message of. -/
def chatRoomOf (parse : String → Option SdpMessage) (raw : String) : Option RoomId :=
  (parse raw).bind SdpMessage.chatRoom

/-- The chat messages of a room placed on a sink, oldest first. -/
def chats (parse : String → Option SdpMessage) (roomId : RoomId) (sink : WsSink)
    (sent : List Sent) : List String :=
  sent.filterMap fun text =>
    match text.2 with
    | .relayed raw => if text.1 = sink ∧ chatRoomOf parse raw = some roomId then some raw else none
    | _ => none

/-- The last texts of a list, as many as a history has room for; a maximum of zero
keeps everything. -/
def keepLast (maxEntries : Nat) (texts : List String) : List String :=
  if maxEntries = 0 then texts else texts.drop (texts.length - maxEntries)

/-- The stored chat of a room. -/
def SignalingState.history (state : SignalingState) (roomId : RoomId) : Option (List String) :=
  (state.rooms.lookup roomId).map Room.chatHistory

/-- The chat message of a room that a task at the point accepts: it is at its dispatch,
and the room exists. -/
def SignalingState.acceptedAt (state : SignalingState) (roomId : RoomId) : Point → List String
  | .handling handled .dispatch =>
      if handled.message.chatRoom = some roomId ∧ state.hasRoom roomId = true then [handled.raw]
      else []
  | _ => []

section Texts

variable {parse : String → Option SdpMessage} (roomId : RoomId) (sink : WsSink)

/-- The chat among texts placed one after the other. -/
theorem chats_append (sent more : List Sent) :
    chats parse roomId sink (sent ++ more) =
      chats parse roomId sink sent ++ chats parse roomId sink more :=
  List.filterMap_append

/-- Texts none of which is chat of the room. -/
theorem chats_eq_nil {sent : List Sent}
    (other : ∀ text ∈ sent, ∀ raw, text.2 = .relayed raw → chatRoomOf parse raw ≠ some roomId) :
    chats parse roomId sink sent = [] := by
  apply List.filterMap_eq_nil_iff.mpr
  intro text placed
  split
  · rename_i raw same
    exact if_neg fun chat => other text placed raw same chat.2
  · rfl

/-- The texts of the hooks are no chat. -/
theorem chats_ofHooks {sent : List Sent} (hooks : ∀ text ∈ sent, text.2.ofHooks = true) :
    chats parse roomId sink sent = [] := by
  apply chats_eq_nil
  intro text placed raw same
  have plain := hooks text placed
  rw [same] at plain
  exact absurd plain (by simp [Frame.ofHooks])

/-- A room's status is no chat. -/
theorem chats_status (state : SignalingState) (announced : RoomId) :
    chats parse roomId sink (broadcastRoomStatus state announced) = [] := by
  apply chats_eq_nil
  intro text placed raw same
  unfold broadcastRoomStatus at placed
  cases stored : state.rooms.lookup announced with
  | none => simp [stored] at placed
  | some room =>
    simp only [stored, Room.broadcastAll, List.mem_map] at placed
    obtain ⟨_, _, rfl⟩ := placed
    exact absurd same (by simp)

/-- Chat of the room handed to one sink. -/
theorem chats_handed (target : WsSink) {texts : List String}
    (chat : ∀ raw ∈ texts, chatRoomOf parse raw = some roomId) :
    chats parse roomId sink (texts.map fun raw => (target, .relayed raw)) =
      if sink = target then texts else [] := by
  by_cases own : sink = target
  · subst own
    rw [if_pos rfl]
    induction texts with
    | nil => rfl
    | cons raw rest inductionHypothesis =>
      have first := chat raw List.mem_cons_self
      have others := inductionHypothesis fun other listed => chat other (List.mem_cons_of_mem _ listed)
      rw [List.map_cons, chats, List.filterMap_cons]
      simp only [first, and_self, ↓reduceIte]
      exact congrArg (raw :: ·) others
  · rw [if_neg own]
    apply List.filterMap_eq_nil_iff.mpr
    intro text placed
    obtain ⟨raw, _, rfl⟩ := List.mem_map.mp placed
    exact if_neg fun chat => own chat.1.symm

/-- Chat of the room placed on every member's sink. -/
theorem chats_broadcastAll (room : Room) {raw : String} (chat : chatRoomOf parse raw = some roomId) :
    chats parse roomId sink (room.broadcastAll (.relayed raw)) =
      (room.members.values.filter fun member => member.sink = sink).map fun _ => raw := by
  unfold Room.broadcastAll
  induction room.members.values with
  | nil => rfl
  | cons member rest inductionHypothesis =>
    rw [List.map_cons, chats, List.filterMap_cons]
    by_cases own : member.sink = sink
    · simp only [own, chat, and_self, ↓reduceIte, decide_true, List.filter_cons_of_pos,
        List.map_cons]
      exact congrArg (raw :: ·) inductionHypothesis
    · simp only [own, false_and, ↓reduceIte, decide_false, Bool.false_eq_true, not_false_eq_true,
        List.filter_cons_of_neg]
      exact inductionHypothesis

end Texts

/-- What a room stores is the end of what it accepted. -/
theorem history_pushed {room : Room} {maxEntries : Nat} {texts : List String}
    (same : room.chatHistory = keepLast maxEntries texts) (raw : String) :
    (room.pushChat raw maxEntries).chatHistory = keepLast maxEntries (texts ++ [raw]) := by
  unfold keepLast at same ⊢
  simp only [Room.pushChat, same]
  by_cases unbounded : maxEntries = 0
  · simp [unbounded]
  · simp only [unbounded, ↓reduceIte, List.length_drop, List.length_append, List.length_singleton,
      Nat.pos_of_ne_zero unbounded, decide_true, Bool.and_true, decide_eq_true_eq]
    by_cases reached : maxEntries ≤ texts.length
    · rw [if_pos (by omega), List.tail_drop, List.drop_append_of_le_length (by omega)]
      congr 2
      omega
    · rw [if_neg (by omega), List.drop_append_of_le_length (by omega)]
      congr 2
      omega

/-- A frame of the protocol: a message, or a client's text out of those listed. -/
def Frame.Says (raws : List String) : Frame → Prop
  | .serialised _ => True
  | .relayed raw => raw ∈ raws
  | .bweUpdate _ => False

section Spoken

variable {raws : List String}

/-- A room's status is of the protocol. -/
theorem status_spoken (state : SignalingState) (roomId : RoomId) :
    ∀ text ∈ broadcastRoomStatus state roomId, text.2.Says raws := by
  intro text placed
  unfold broadcastRoomStatus at placed
  cases stored : state.rooms.lookup roomId with
  | none => simp [stored] at placed
  | some room =>
    simp only [stored, Room.broadcastAll, List.mem_map] at placed
    obtain ⟨_, _, rfl⟩ := placed
    trivial

/-- A dispatch forwards listed texts when the message's own is listed. -/
theorem dispatch_spoken (state : SignalingState) {message : SdpMessage} {raw : String}
    (listed : raw ∈ raws) (notJoin : message.joinRequest = none) (pid : ParticipantId) (id : WsSink)
    (closed : WsSink → Bool) (maxChatHistory maxRoomMembers : Nat) :
    ∀ text ∈ (state.dispatch message raw pid id closed maxChatHistory maxRoomMembers).2,
      text.2.Says raws := by
  intro text placed
  have relay : ∀ sinks : List WsSink, text ∈ SignalingState.relay sinks raw → text.2.Says raws := by
    intro sinks sent
    obtain ⟨sink, _, rfl⟩ := List.mem_map.mp sent
    exact listed
  have shared : ∀ (room : Option Room) (texts : Room → List Sent),
      (∀ room, text ∈ texts room → text.2.Says raws) → text ∈ (room.map texts).getD [] →
        text.2.Says raws := by
    intro room texts each sent
    cases room with
    | none => cases sent
    | some room => exact each room sent
  cases message with
  | join => simp [SdpMessage.joinRequest] at notJoin
  | leave | muteAudio | unmuteAudio | muteVideo | unmuteVideo => exact status_spoken _ _ text placed
  | offer _ recipient => cases recipient <;> exact relay _ placed
  | answer | iceCandidate | e2eeSenderKey | screenShareStarted | screenShareStopped
  | videoConfigChanged => exact relay _ placed
  | chatMessage =>
    refine shared _ _ ?_ placed
    intro room sent
    obtain ⟨_, _, rfl⟩ := List.mem_map.mp sent
    exact listed
  | e2eePublicKey | e2eeKeyRotation =>
    rcases List.mem_append.mp placed with keys | status
    · refine shared _ _ ?_ keys
      intro room sent
      obtain ⟨_, _, rfl⟩ := List.mem_map.mp sent
      exact listed
    · exact status_spoken _ _ text status
  | error | ready | peerJoined | peerLeft | requestRenegotiation | requestKeyframe | roomStatus
  | activeSpeaker | screenShareRouted => simp [SignalingState.dispatch] at placed

end Spoken

namespace SignalingState

variable (state : SignalingState) (roomId tested : RoomId)

/-- A room exists when it has a history. -/
theorem hasRoom_eq_history : state.hasRoom roomId = (state.history roomId).isSome := by
  rw [hasRoom, history, Option.isSome_map]

/-- A change that leaves the chat alone leaves every history. -/
theorem history_updateRoom (change : Room → Room)
    (same : ∀ room, (change room).chatHistory = room.chatHistory) :
    (state.updateRoom roomId change).history tested = state.history tested := by
  simp only [history, updateRoom, Table.lookup_modify]
  by_cases own : tested = roomId
  · rw [if_pos own, own, Option.map_map]
    exact Option.map_congr fun room _ => same room
  · rw [if_neg own]

/-- Joining keeps the history of its room, or makes the room with none. -/
theorem history_join (id : ParticipantId) (sink : WsSink) (displayName : Option String) :
    (state.join id roomId sink displayName).2.history tested =
      if tested = roomId then some ((state.history roomId).getD []) else state.history tested := by
  simp only [history, join, Room.join, Table.lookup_insert_eq]
  by_cases own : tested = roomId
  · rw [if_pos own, if_pos own]
    cases state.rooms.lookup roomId <;> rfl
  · rw [if_neg own, if_neg own]

/-- Leaving keeps every history, unless the room goes. -/
theorem history_leave (id : ParticipantId) :
    (state.leave id roomId).2.history tested = state.history tested ∨
      (state.leave id roomId).2.history tested = none := by
  simp only [history, leave]
  cases stored : state.rooms.lookup roomId with
  | none => exact .inl rfl
  | some room =>
    simp only
    split
    · rw [Table.lookup_erase_eq]
      by_cases own : tested = roomId
      · exact .inr (by rw [if_pos own]; rfl)
      · exact .inl (by rw [if_neg own])
    · rw [Table.lookup_insert_eq]
      by_cases own : tested = roomId
      · left
        rw [if_pos own, own, stored]
        rfl
      · exact .inl (by rw [if_neg own])

/-- So does leaving several rooms. -/
theorem history_leaveAll (id : ParticipantId) (names : List RoomId) :
    (leaveAll id state names).2.history tested = state.history tested ∨
      (leaveAll id state names).2.history tested = none := by
  induction names generalizing state with
  | nil => exact .inl rfl
  | cons roomId rest inductionHypothesis =>
    rcases inductionHypothesis (state.leave id roomId).2 with same | gone
    · rcases state.history_leave roomId tested id with kept | lost
      · exact .inl (same.trans kept)
      · exact .inr (same.trans lost)
    · exact .inr gone

/-- A room whose members are the same but for a pruning keeps its history. -/
theorem history_pruneStale (closed : WsSink → Bool) :
    (state.pruneStale roomId closed).2.history tested = state.history tested :=
  state.history_updateRoom roomId tested _ fun _ => rfl

/-- The one member of a room with a sink. -/
theorem members_of_sink {room : Room} {id : ParticipantId} {member : Member}
    (found : room.members.lookup id = some member)
    (only : ∀ other present, room.members.lookup other = some present →
      present.sink = member.sink → other = id) :
    (room.members.values.filter fun present => present.sink = member.sink) = [member] := by
  have entry : (room.members.entries.filter fun entry => entry.2.sink = member.sink) =
      [⟨id, member⟩] := by
    apply List.perm_singleton.mp
    apply (List.perm_ext_iff_of_nodup _ (List.nodup_singleton _)).mpr
    · rintro ⟨other, present⟩
      rw [List.mem_filter, Table.mem_entries, List.mem_singleton]
      constructor
      · rintro ⟨stored, same⟩
        cases only other present stored (by simpa using same)
        cases stored.symm.trans found
        rfl
      · rintro ⟨⟩
        exact ⟨found, by simp⟩
    · exact (room.members.nodupKeys.nodup).filter _
  rw [Table.values, List.filter_map]
  exact congrArg (List.map Sigma.snd) entry

end SignalingState

/-- What a section of a task does to a room's chat. -/
inductive Chatting (parse : String → Option SdpMessage) (config : Config) (world : World)
    (id : WsSink) (accepted : List String) (turn : Turn) (roomId : RoomId) : Prop
  /-- Nothing is accepted and nothing of it is placed. -/
  | quiet (nothing : accepted = [])
      (history : turn.signaling.history roomId = world.signaling.history roomId ∨
        turn.signaling.history roomId = none)
      (silent : ∀ sink, chats parse roomId sink turn.sent = [])
      (unjoined : ∀ sink participant, turn.deed ≠ some (.joined sink participant roomId))
  /-- A new member is handed the history. -/
  | handed (nothing : accepted = []) (participant : ParticipantId)
      (deed : turn.deed = some (.joined id participant roomId))
      (seated : turn.signaling.seat roomId participant = some id)
      (history : turn.signaling.history roomId = some ((world.signaling.history roomId).getD []))
      (told : ∀ sink, chats parse roomId sink turn.sent =
        if sink = id then (world.signaling.history roomId).getD [] else [])
  /-- A message is accepted and placed on every member's sink. -/
  | taken (raw : String) (one : accepted = [raw]) (chat : chatRoomOf parse raw = some roomId)
      (room : Room) (stored : world.signaling.rooms.lookup roomId = some room)
      (history : turn.signaling.history roomId =
        some (room.pushChat raw config.maxChatHistory).chatHistory)
      (told : ∀ sink, chats parse roomId sink turn.sent =
        (room.members.values.filter fun member => member.sink = sink).map fun _ => raw)
      (unjoined : ∀ sink participant, turn.deed ≠ some (.joined sink participant roomId))

/-- A message in handling is what its text parses as. -/
def Point.Reads (parse : String → Option SdpMessage) : Point → Prop
  | .handling handled _ => parse handled.raw = some handled.message
  | _ => True

namespace Connection

variable {parse : String → Option SdpMessage} {config : Config} {world : World} {id : WsSink}
  {connection : Connection}

/-- A `Join` handler hands the history to the new member. -/
theorem joinSection_chatting (pid : ParticipantId) (first : Bool) (request : JoinRequest)
    (stage : JoinStage) (roomId : RoomId)
    (chat : ∀ tested, ∀ raw ∈ (world.signaling.history tested).getD [],
      chatRoomOf parse raw = some tested) :
    Chatting parse config world id [] (connection.joinSection config world id pid first request stage)
      roomId := by
  have pruned : ∀ tested, (world.pruned request.roomId).history tested =
      world.signaling.history tested :=
    fun tested => world.signaling.history_pruneStale request.roomId tested _
  cases stage with
  | prune => exact .quiet rfl (.inl (pruned roomId)) (fun _ => rfl) (by simp [joinSection, World.turn])
  | dispatch =>
    cases admitted : admits config world request.roomId with
    | true =>
      obtain ⟨signaling, deed⟩ :=
        connection.joinSection_admitted config world id pid first request admitted
      obtain ⟨ready, plain, sent⟩ :=
        @joinSection_seated config world id connection pid first request admitted
      have history_of : ∀ tested, (connection.joinSection config world id pid first request
          .dispatch).signaling.history tested =
          if tested = request.roomId then some ((world.signaling.history request.roomId).getD [])
          else world.signaling.history tested := by
        intro tested
        rw [signaling, SignalingState.history_join, pruned, pruned]
      have told : ∀ sink, chats parse roomId sink (connection.joinSection config world id pid first
          request .dispatch).sent =
          chats parse roomId sink (((world.signaling.history request.roomId).getD []).map
            fun raw => (id, .relayed raw)) := by
        intro sink
        have kept : (((connection.joinSection config world id pid first request
            .dispatch).signaling.rooms.lookup request.roomId).map Room.chatHistory).getD [] =
            (world.signaling.history request.roomId).getD [] := by
          have own := congrArg (Option.getD · []) (history_of request.roomId)
          rwa [if_pos rfl] at own
        rw [sent, kept, chats_append, chats_append, chats_status,
          chats_ofHooks roomId sink (by simpa using plain)]
        rfl
      by_cases own : roomId = request.roomId
      · subst own
        refine .handed rfl request.participant deed ?_ ?_ ?_
        · rw [signaling, SignalingState.seat_join, if_pos ⟨rfl, rfl⟩]
        · rw [history_of, if_pos rfl]
        · intro sink
          rw [told, chats_handed request.roomId sink id (chat request.roomId)]
      · refine .quiet rfl (.inl (by rw [history_of, if_neg own])) ?_ ?_
        · intro sink
          rw [told]
          apply chats_eq_nil
          intro text placed raw same
          obtain ⟨stored, listed, rfl⟩ := List.mem_map.mp placed
          cases same
          rw [chat request.roomId _ listed]
          exact fun named => own (Option.some.inj named).symm
        · intro sink participant same
          rw [deed] at same
          cases same
          exact own rfl
    | false =>
      obtain ⟨signaling, deed, _⟩ :=
        connection.joinSection_refused config world id pid first request admitted
      refine .quiet rfl (.inl ?_) ?_ (by simp [deed])
      · rw [signaling, pruned]
      · intro sink
        rw [joinSection_full pid first request admitted]
        exact chats_ofHooks roomId sink (by simp [SignalingState.roomIsFull, Frame.ofHooks])
  | notifyPruned | notifyRejoin | ensureRoom | storeSession | announceCount =>
    exact .quiet rfl (.inl rfl) (fun _ => rfl) (by simp [joinSection, World.turn])

/-- The texts a dispatch forwards are the message's own. -/
theorem dispatch_relays (state : SignalingState) {message : SdpMessage} (raw : String)
    (notJoin : message.joinRequest = none) (pid : ParticipantId) (closed : WsSink → Bool)
    (maxChatHistory maxRoomMembers : Nat) (text : Sent)
    (placed : text ∈ (state.dispatch message raw pid id closed maxChatHistory maxRoomMembers).2)
    (other : String) (same : text.2 = .relayed other) : other = raw := by
  have said := dispatch_spoken state (List.mem_singleton_self raw) notJoin pid id closed
    maxChatHistory maxRoomMembers text placed
  rw [same] at said
  exact List.mem_singleton.mp said

/-- A message that is no chat of the room leaves its chat alone, unless the room goes. -/
theorem dispatch_history (state : SignalingState) {message : SdpMessage} (raw : String)
    (notJoin : message.joinRequest = none) (pid : ParticipantId) (closed : WsSink → Bool)
    (maxChatHistory maxRoomMembers : Nat) (roomId : RoomId)
    (other : message.chatRoom ≠ some roomId) :
    let after := (state.dispatch message raw pid id closed maxChatHistory maxRoomMembers).1
    after.history roomId = state.history roomId ∨ after.history roomId = none := by
  intro after
  unfold after
  cases message with
  | join => simp [SdpMessage.joinRequest] at notJoin
  | leave participant left => exact state.history_leave left roomId participant
  | muteAudio | unmuteAudio | muteVideo | unmuteVideo | screenShareStarted | screenShareStopped
  | e2eePublicKey | e2eeKeyRotation =>
    exact .inl (state.history_updateRoom _ roomId _ fun _ => rfl)
  | chatMessage _ chatted =>
    have apart : roomId ≠ chatted := fun same => other (same ▸ rfl)
    left
    simp only [SignalingState.dispatch, SignalingState.history, SignalingState.updateRoom,
      Table.lookup_modify, if_neg apart]
  | offer _ recipient => cases recipient <;> exact .inl rfl
  | error | answer | iceCandidate | e2eeSenderKey | videoConfigChanged | ready | peerJoined
  | peerLeft | requestRenegotiation | requestKeyframe | roomStatus | activeSpeaker
  | screenShareRouted => exact .inl rfl

/-- A message is accepted at the dispatch of its handler. -/
theorem dispatch_chatting (pid : ParticipantId) (handled : Handled) (answer : Option String)
    (reads : parse handled.raw = some handled.message) (roomId : RoomId) :
    Chatting parse config world id
      (world.signaling.acceptedAt roomId (.handling handled .dispatch))
      (connection.hookSection config world id pid handled answer .dispatch) roomId := by
  have unjoined : ∀ sink participant, (connection.hookSection config world id pid handled answer
      .dispatch).deed ≠ some (.joined sink participant roomId) := by
    intro sink participant
    simp only [hookSection]
    split <;> simp
  have room : chatRoomOf parse handled.raw = handled.message.chatRoom := by
    rw [chatRoomOf, reads, Option.bind_some]
  by_cases chat : handled.message.chatRoom = some roomId
  · obtain ⟨sender, name, content, timestamp, encrypted, keyId, message⟩ :
        ∃ sender name content timestamp encrypted keyId, handled.message =
          .chatMessage sender roomId name content timestamp encrypted keyId := by
      cases message : handled.message <;> simp only [message, SdpMessage.chatRoom, reduceCtorEq,
        Option.some.injEq] at chat
      exact ⟨_, _, _, _, _, _, by rw [chat]⟩
    have changed : (connection.hookSection config world id pid handled answer
        .dispatch).signaling.rooms.lookup roomId = (world.signaling.rooms.lookup roomId).map
          fun room => room.pushChat handled.raw config.maxChatHistory := by
      simp only [hookSection, message, SignalingState.dispatch, SignalingState.updateRoom,
        Table.lookup_modify, ↓reduceIte]
    have sent : (connection.hookSection config world id pid handled answer .dispatch).sent =
        (((connection.hookSection config world id pid handled answer
          .dispatch).signaling.rooms.lookup roomId).map
            fun room => room.broadcastAll (.relayed handled.raw)).getD [] := by
      simp only [hookSection, message, SignalingState.dispatch]
    cases stored : world.signaling.rooms.lookup roomId with
    | none =>
      rw [stored, Option.map_none] at changed
      rw [changed] at sent
      refine .quiet ?_ (.inr ?_) ?_ unjoined
      · exact if_neg fun both => by simp [SignalingState.hasRoom, stored] at both
      · rw [SignalingState.history, changed, Option.map_none]
      · intro sink
        rw [sent]
        rfl
    | some found =>
      rw [stored, Option.map_some] at changed
      rw [changed] at sent
      refine .taken handled.raw ?_ (room.trans chat) found stored ?_ ?_ unjoined
      · exact if_pos ⟨chat, by simp [SignalingState.hasRoom, stored]⟩
      · rw [SignalingState.history, changed, Option.map_some]
      · intro sink
        rw [sent]
        exact chats_broadcastAll roomId sink _ (room.trans chat)
  · refine .quiet ?_ ?_ ?_ unjoined
    · exact if_neg fun both => chat both.1
    · exact dispatch_history world.signaling handled.raw handled.notJoin pid _ _ _ roomId chat
    · intro sink
      apply chats_eq_nil
      intro text placed raw same
      rw [dispatch_relays world.signaling handled.raw handled.notJoin pid _ _ _ text placed raw same,
        room]
      exact chat

/-- A section of another message's handler. -/
theorem hookSection_chatting (pid : ParticipantId) (handled : Handled) (answer : Option String)
    (stage : HookStage) (reads : parse handled.raw = some handled.message) (roomId : RoomId) :
    Chatting parse config world id (world.signaling.acceptedAt roomId (.handling handled stage))
      (connection.hookSection config world id pid handled answer stage) roomId := by
  by_cases dispatches : stage = .dispatch
  · subst dispatches
    exact dispatch_chatting pid handled answer reads roomId
  have nothing : world.signaling.acceptedAt roomId (.handling handled stage) = [] := by
    cases stage <;> first | rfl | exact absurd rfl dispatches
  rcases @hookSection_effect config world id connection pid handled answer stage with
    ⟨signaling, deed, texts⟩ | ⟨_, deed, announced, change, changes, signaling, sent⟩ | here
  · refine .quiet nothing (.inl (by rw [signaling])) ?_ (by simp [deed])
    exact fun sink => chats_ofHooks roomId sink texts
  · obtain ⟨flag, rfl⟩ := SfuServer.mediaChange_flag changes
    refine .quiet nothing (.inl ?_) ?_ (by simp [deed])
    · rw [signaling]
      exact world.signaling.history_updateRoom announced roomId _ fun _ => rfl
    · intro sink
      rw [sent]
      exact chats_status roomId sink _ announced
  · exact absurd here dispatches

/-- The cleanup accepts no chat and places none. -/
theorem leaveSection_chatting (pid : ParticipantId) (stage : LeaveStage) (roomId : RoomId) :
    Chatting parse config world id [] (connection.leaveSection config world id pid stage) roomId := by
  obtain ⟨deed, signaling⟩ := connection.leaveSection_frame config world id pid stage
  refine .quiet rfl ?_ ?_ (by simp [deed])
  · rw [signaling]
    cases stage with
    | disconnect => exact world.signaling.history_leaveAll roomId pid _
    | _ => exact .inl rfl
  · intro sink
    rcases @leaveSection_texts config world id connection pid stage with
      ⟨announced, _, _, _, _, _, sent⟩ | texts
    · rw [sent]
      exact chats_status roomId sink world.signaling announced
    · exact chats_ofHooks roomId sink texts

end Connection

end Seameet
