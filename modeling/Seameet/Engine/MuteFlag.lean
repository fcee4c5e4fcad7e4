import Seameet.Engine.Handshake

/-!
# The mute flag

What sets a participant's mute flag, what clears it, and which handler is about
to. `MuteAudio` and `UnmuteAudio` change the flag in their last section, after the
participant's task was told; `UnmuteAudio` always goes on to clear it.
-/

namespace Seameet

open Library

namespace SignalingState

/-- The room is told that the participant is muted. -/
def audioMuted (state : SignalingState) (roomId : RoomId) (pid : ParticipantId) : Bool :=
  ((state.member roomId pid).map fun member => member.mediaState.audioMuted).getD false

variable {state after : SignalingState} {roomId : RoomId} {pid : ParticipantId}

/-- The flag when the member is gone or as it was. -/
theorem audioMuted_of_member
    (member : after.member roomId pid = state.member roomId pid ∨ after.member roomId pid = none)
    (muted : after.audioMuted roomId pid = true) : state.audioMuted roomId pid = true := by
  rcases member with same | gone
  · rwa [audioMuted, same] at muted
  · simp [audioMuted, gone] at muted

/-- The flag after a change of a member's media state. -/
theorem audioMuted_setMedia (room : RoomId) (id : ParticipantId)
    (change : MemberMediaState → MemberMediaState) :
    (state.updateRoom room fun stored => stored.setMedia id change).audioMuted roomId pid =
      if roomId = room ∧ pid = id then
        ((state.member room id).map fun member => (change member.mediaState).audioMuted).getD false
      else state.audioMuted roomId pid := by
  rw [audioMuted, member_updateRoom]
  by_cases same : roomId = room
  · subst same
    rw [if_pos rfl]
    by_cases own : pid = id
    · subst own
      rw [if_pos ⟨rfl, rfl⟩]
      cases stored : state.rooms.lookup roomId with
      | none => simp [member, stored]
      | some entry =>
        simp only [Option.bind_some, Room.lookup_setMedia, member, stored, if_pos]
        cases entry.members.lookup pid <;> rfl
    · rw [if_neg fun both => own both.2, audioMuted, member]
      cases state.rooms.lookup roomId with
      | none => rfl
      | some entry => simp [Room.lookup_setMedia, own]
  · rw [if_neg same, if_neg fun both => same both.1]
    rfl

/-- A dispatch does not mute, except for `MuteAudio`. -/
theorem audioMuted_dispatch (message : SdpMessage) (raw : String) (sender : ParticipantId)
    (selfTx : WsSink) (closed : WsSink → Bool) (maxChatHistory maxRoomMembers : Nat)
    (other : ∀ named room, message ≠ .muteAudio named room)
    (notJoin : message.joinRequest = none)
    (muted : (state.dispatch message raw sender selfTx closed maxChatHistory
      maxRoomMembers).1.audioMuted roomId pid = true) : state.audioMuted roomId pid = true := by
  have flagged : ∀ (room : RoomId) (change : MemberMediaState → MemberMediaState),
      (∀ media, (change media).audioMuted = true → media.audioMuted = true) →
      (state.updateRoom room fun stored => stored.setMedia sender change).audioMuted roomId pid =
        true → state.audioMuted roomId pid = true := by
    intro room change keeps muted
    rw [audioMuted_setMedia] at muted
    split at muted
    · rename_i here
      rw [audioMuted, here.1, here.2]
      cases stored : state.member room sender with
      | none => simp [stored] at muted
      | some member =>
        simp only [stored, Option.map_some, Option.getD_some] at muted ⊢
        exact keeps _ muted
    · exact muted
  cases message with
  | join => simp [SdpMessage.joinRequest] at notJoin
  | muteAudio named room => exact absurd rfl (other named room)
  | leave named room =>
    refine audioMuted_of_member ?_ muted
    change (state.leave named room).2.member roomId pid = _ ∨
      (state.leave named room).2.member roomId pid = _
    rw [member_leave]
    split
    · exact .inr rfl
    · exact .inl rfl
  | chatMessage _ room =>
    refine audioMuted_of_member (.inl ?_) muted
    change (state.updateRoom room fun stored => stored.pushChat raw maxChatHistory).member roomId
      pid = _
    rw [member_updateRoom]
    split
    · rename_i here
      rw [here]
      rfl
    · rfl
  | unmuteAudio _ room => exact flagged room _ (fun _ set => by cases set) muted
  | muteVideo _ room | unmuteVideo _ room | screenShareStarted _ room | screenShareStopped _ room
    | e2eePublicKey _ room | e2eeKeyRotation _ room =>
    refine flagged room _ ?_ muted
    exact fun _ set => set
  | offer _ target => cases target <;> exact muted
  | _ => exact muted

end SignalingState

namespace Connection

variable {config : Config} {world : World} {id : WsSink} {connection : Connection} {turn : Turn}
variable {answer : Option String} {roomId : RoomId} {pid : ParticipantId}

/-- The connection's handler of the participant's message is about to set its flag. -/
def aboutTo (connection : Connection) (pid : ParticipantId) (message : SdpMessage → Bool) : Bool :=
  match connection.point, connection.participantId with
  | .handling handled .mediaState, some own => decide (own = pid) && message handled.message
  | _, _ => false

end Connection

/-- The message mutes its sender in a room. -/
def SdpMessage.mutesIn (roomId : RoomId) : SdpMessage → Bool
  | .muteAudio _ room => decide (room = roomId)
  | _ => false

/-- The message unmutes its sender in a room. -/
def SdpMessage.unmutesIn (roomId : RoomId) : SdpMessage → Bool
  | .unmuteAudio _ room => decide (room = roomId)
  | _ => false

namespace Connection

variable {config : Config} {world : World} {id : WsSink} {connection : Connection} {turn : Turn}
variable {answer : Option String} {roomId : RoomId} {pid : ParticipantId}

/-- The flag a handler changes last: `MuteAudio` sets it, `UnmuteAudio` clears it. -/
theorem mediaState_flag (own : ParticipantId) (handled : Handled)
    (muted : (connection.hookSection config world id own handled answer
      .mediaState).signaling.audioMuted roomId pid = true) :
    (own = pid ∧ handled.message.mutesIn roomId = true) ∨
      (world.signaling.audioMuted roomId pid = true ∧
        ¬(own = pid ∧ handled.message.unmutesIn roomId = true)) := by
  have changed : ∀ (room : RoomId) (change : MemberMediaState → MemberMediaState),
      (world.signaling.updateRoom room fun stored => stored.setMedia own change).audioMuted
        roomId pid = true →
      (roomId = room ∧ own = pid ∧ ∃ media, (change media).audioMuted = true ∧
          (world.signaling.audioMuted roomId pid = true ∨ media.audioMuted = false)) ∨
        (world.signaling.audioMuted roomId pid = true ∧ ¬(roomId = room ∧ own = pid)) := by
    intro room change muted
    rw [SignalingState.audioMuted_setMedia] at muted
    split at muted
    · rename_i here
      left
      cases stored : world.signaling.member room own with
      | none => simp [stored] at muted
      | some member =>
        simp only [stored, Option.map_some, Option.getD_some] at muted
        refine ⟨here.1, here.2.symm, member.mediaState, muted, ?_⟩
        rw [SignalingState.audioMuted, here.1, here.2, stored]
        exact Bool.eq_false_or_eq_true member.mediaState.audioMuted
    · rename_i elsewhere
      exact .inr ⟨muted, fun both => elsewhere ⟨both.1, both.2.symm⟩⟩
  simp only [hookSection] at muted
  cases message : handled.message with
  | muteAudio sender room =>
    rw [message] at muted
    rcases changed room _ muted with ⟨here, mine, _⟩ | ⟨set, _⟩
    · exact .inl ⟨mine, decide_eq_true here.symm⟩
    · exact .inr ⟨set, by simp [SdpMessage.unmutesIn]⟩
  | unmuteAudio sender room =>
    rw [message] at muted
    rcases changed room _ muted with ⟨_, _, media, impossible, _⟩ | ⟨set, elsewhere⟩
    · cases impossible
    · refine .inr ⟨set, ?_⟩
      rintro ⟨mine, here⟩
      exact elsewhere ⟨(of_decide_eq_true here).symm, mine⟩
  | muteVideo sender room | unmuteVideo sender room | screenShareStarted sender room
    | screenShareStopped sender room =>
    rw [message] at muted
    refine .inr ⟨?_, by simp [SdpMessage.unmutesIn]⟩
    rcases changed room _ muted with ⟨_, _, media, kept, set | unset⟩ | ⟨set, _⟩
    · exact set
    · exact absurd (kept : media.audioMuted = true) (by simp [unset])
    · exact set
  | _ =>
    rw [message] at muted
    exact .inr ⟨muted, by simp [SdpMessage.unmutesIn]⟩

/-- Only the last section of a `MuteAudio` handler sets the flag, and that of an
`UnmuteAudio` handler clears it. -/
theorem advance_flag (hooks : config.hooks = .sfu) (fits : connection.point.Fits config)
    (taken : connection.advance config world id answer = some turn)
    (muted : turn.signaling.audioMuted roomId pid = true) :
    connection.aboutTo pid (SdpMessage.mutesIn roomId) = true ∨
      (world.signaling.audioMuted roomId pid = true ∧
        connection.aboutTo pid (SdpMessage.unmutesIn roomId) = false) := by
  have pruned : ∀ room, (world.pruned room).audioMuted roomId pid = true →
      world.signaling.audioMuted roomId pid = true := by
    intro room set
    refine SignalingState.audioMuted_of_member ?_ set
    rw [World.pruned, SignalingState.member_pruneStale]
    split
    · rename_i here
      rw [here]
      cases world.signaling.member room pid with
      | none => exact .inl rfl
      | some member =>
        by_cases closed : world.isClosed member.sink <;> simp [Option.filter_some, closed]
    · exact .inl rfl
  unfold advance at taken
  split at taken <;> cases taken
  · rename_i request point bound
    refine .inr ⟨?_, by simp [aboutTo, point]⟩
    unfold precheckSection at muted
    split at muted <;> exact muted
  · rename_i request point bound
    exact .inr ⟨muted, by simp [aboutTo, point]⟩
  · rename_i first request stage own point bound
    refine .inr ⟨?_, by simp [aboutTo, point]⟩
    cases stage with
    | prune => exact pruned request.roomId muted
    | dispatch =>
      cases admitted : admits config world request.roomId with
      | false =>
        rw [(connection.joinSection_refused config world id own first request admitted).1] at muted
        exact pruned request.roomId muted
      | true =>
        rw [(connection.joinSection_admitted config world id own first request admitted).1,
          SignalingState.audioMuted, SignalingState.member_join] at muted
        split at muted
        · cases muted
        · exact pruned request.roomId muted
    | _ => exact muted
  · rename_i handled stage own point bound
    cases stage with
    | mediaState =>
      rcases mediaState_flag own handled muted with ⟨mine, mutes⟩ | ⟨set, keeps⟩
      · exact .inl (by simp [aboutTo, point, bound, mine, mutes])
      · refine .inr ⟨set, ?_⟩
        simp only [aboutTo, point, bound]
        by_cases mine : own = pid
        · simpa [mine] using keeps
        · simp [mine]
    | dispatch =>
      refine .inr ⟨?_, by simp [aboutTo, point]⟩
      rw [point] at fits
      have left := fits.mp rfl
      refine SignalingState.audioMuted_dispatch handled.message handled.raw own id world.isClosed
        config.maxChatHistory config.maxRoomMembers ?_ handled.notJoin muted
      intro named room message
      simp [Config.hookStart, hooks, message] at left
    | session hasMedia | room hasMedia | renegotiate peers | awaitReply | negotiate peers
      | candidate =>
      refine .inr ⟨?_, by simp [aboutTo, point]⟩
      simp only [hookSection] at muted
      split at muted <;> exact muted
    | _ => exact .inr ⟨muted, by simp [aboutTo, point]⟩
  · rename_i stage own point bound
    refine .inr ⟨?_, by simp [aboutTo, point]⟩
    cases stage with
    | disconnect =>
      refine SignalingState.audioMuted_of_member ?_ muted
      by_cases gone : pid = own ∧ world.signaling.listed own roomId
      · right
        obtain ⟨rfl, known⟩ := gone
        exact world.signaling.member_disconnect_self pid roomId known
      · exact .inl (world.signaling.member_disconnect_of_not own pid roomId gone)
    | checkStale | lookup =>
      simp only [leaveSection] at muted
      split at muted <;> exact muted
    | announce pending affected =>
      cases pending with
      | cons head pending => exact muted
      | nil =>
        simp only [leaveSection] at muted
        split at muted <;> exact muted
    | _ => exact muted

/-- A handler of another message than `Join` goes on with its message, or was left. -/
theorem advance_handling (taken : connection.advance config world id answer = some turn)
    {handled : Handled} {stage : HookStage}
    (point : turn.connection.point = .handling handled stage) :
    turn.connection.participantId = connection.participantId ∧
      ∃ earlier, connection.point = .handling handled earlier := by
  unfold advance at taken
  split at taken <;> cases taken
  · unfold precheckSection at point
    split at point <;> cases point
  · cases point
  · rename_i first request stage' own before bound
    cases stage' <;> cases point
  · rename_i handled' stage' own before bound
    obtain ⟨next, moved, whither⟩ :=
      @hookSection_goto config world id connection own handled' answer stage'
    rw [moved] at point ⊢
    refine ⟨rfl, ?_⟩
    rcases whither with rfl | ⟨later, rfl, _⟩
    · cases point
    · cases point
      exact ⟨stage', before⟩
  · rename_i stage' own before bound
    rcases connection.leaveSection_point config world id own stage' with ended | ⟨next, on⟩
    · rw [ended] at point
      cases point
    · rw [on] at point
      cases point

/-- A handler that unmutes its sender's task goes on to clear its flag. -/
theorem act_unmutes {own : ParticipantId} {handled : Handled} {peers : PeersRef}
    {sender : ParticipantId} (bound : connection.participantId = some own)
    (point : connection.point = .handling handled (.act peers))
    (message : handled.message = .unmuteAudio sender roomId)
    (taken : connection.advance config world id answer = some turn) :
    turn.connection.aboutTo own (SdpMessage.unmutesIn roomId) = true := by
  unfold advance at taken
  simp only [point, bound, Option.some.injEq] at taken
  rw [← taken]
  have goes : afterRoom own handled = .handling handled .mediaState := by
    rw [afterRoom, if_pos]
    rw [message]
    rfl
  simp [hookSection, aboutTo, World.turn, goto, goes, bound, message, SdpMessage.unmutesIn]

end Connection

namespace World

variable {config : Config} {world after : World} {event : Event} {id : WsSink}
variable {connection : Connection} {handled : Handled} {stage : HookStage}

/-- Where a handler comes from that stands after a step that is no section: it stood
before, or its message just arrived. -/
theorem handling_still (stepped : world.step config event = some after)
    (still : ∀ id answer, event ≠ .advance id answer)
    (known : after.connections.lookup id = some connection)
    (point : connection.point = .handling handled stage) :
    world.connections.lookup id = some connection ∨
      ∃ earlier raw auth rateOk, event = .receive id raw (some handled.message) auth rateOk ∧
        world.connections.lookup id = some earlier ∧
          earlier.participantId = connection.participantId := by
  cases stepped_of_step event stepped with
  | connected =>
    rw [Table.lookup_insert_eq] at known
    split at known
    · cases known
      cases point
    · exact .inl known
  | heard here raw parsed auth rateOk earlier present idle =>
    rw [lookup_commit] at known
    split at known
    · rename_i same
      cases known
      right
      have bound := (@Connection.receive_keeps config world here earlier raw parsed auth rateOk).1
      refine ⟨earlier, raw, auth, rateOk, ?_, same ▸ present, bound.symm⟩
      rcases earlier.receive_point idle raw parsed auth rateOk with
        stays | ⟨_, closed | ⟨request, on⟩⟩ | ⟨message, pid, read, _, started⟩
      · rw [stays] at point
        cases point
      · rw [closed] at point
        cases point
      · rw [on] at point
        cases point
      · rw [started] at point
        cases join : message.joinRequest with
        | some request =>
          rw [config.start_join message raw join] at point
          cases point
        | none =>
          rw [config.start_handling message raw join] at point
          cases point
          rw [same, read]
    · exact .inl known
  | finished _ here earlier sent present idle =>
    rw [lookup_commit] at known
    split at known
    · cases known
      change earlier.finish.point = _ at point
      unfold Connection.finish at point
      split at point <;> cases point
    · exact .inl known
  | advanced here answer => exact absurd rfl (still here answer)
  | shut | mediaEnded | routed => exact .inl known

/-- A handler stands through a step that is no section. -/
theorem handling_stands (fresh : world.Fresh) (stepped : world.step config event = some after)
    (still : ∀ id answer, event ≠ .advance id answer)
    (known : world.connections.lookup id = some connection)
    (point : connection.point = .handling handled stage) :
    after.connections.lookup id = some connection := by
  have committed : ∀ {here : WsSink} {earlier : Connection} {turn : Turn},
      world.connections.lookup here = some earlier → earlier.point = .idle →
        (world.commit here turn).connections.lookup id = some connection := by
    intro here earlier turn present idle
    rw [lookup_commit, if_neg]
    · exact known
    · rintro rfl
      cases known.symm.trans present
      rw [idle] at point
      cases point
  cases stepped_of_step event stepped with
  | connected =>
    rw [Table.lookup_insert_eq, if_neg]
    · exact known
    · rintro rfl
      rw [fresh _ (Nat.le_refl _)] at known
      cases known
  | heard here raw parsed auth rateOk earlier present idle => exact committed present idle
  | finished _ here earlier sent present idle => exact committed present idle
  | advanced here answer => exact absurd rfl (still here answer)
  | shut | mediaEnded | routed => exact known

end World

end Seameet
