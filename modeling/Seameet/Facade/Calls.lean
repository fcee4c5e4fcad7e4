import Seameet.Engine.Commands
import Seameet.Engine.Handshake
import Seameet.Signaling.Index
import Seameet.Facade.Server

/-!
# Calls of the wrapper beside the engine

A call of the wrapper stands beside the engine's task of the same connection. Which
calls fit which points of the task says what the wrapper may still have to send there:
a `Join` at its dispatch may have announced its room, and a cleanup that is past the
disconnect has the emptied rooms to report. Before that, what the sections of the
engine do to the rooms.
-/

namespace Seameet

open Library

namespace SignalingState

variable (state : SignalingState) (id : ParticipantId) (roomId tested : RoomId)

/-- Leaving the listed rooms says of each whether it is gone, and touches no other. -/
theorem rooms_leaveAll (names : List RoomId) (distinct : names.Nodup) :
    (∀ gone, (tested, gone) ∈ (leaveAll id state names).1 →
        (leaveAll id state names).2.hasRoom tested = !gone) ∧
      (tested ∉ names → (leaveAll id state names).2.hasRoom tested = state.hasRoom tested) ∧
      ((leaveAll id state names).2.hasRoom tested = true → state.hasRoom tested = true) := by
  induction names generalizing state with
  | nil => exact ⟨by simp [leaveAll], fun _ => rfl, fun there => there⟩
  | cons name rest inductionHypothesis =>
    obtain ⟨fresh, distinct⟩ := List.nodup_cons.mp distinct
    obtain ⟨said, kept, known⟩ := inductionHypothesis (state.leave id name).2 distinct
    simp only [leaveAll]
    refine ⟨?_, ?_, fun there => state.hasRoom_of_leave id name tested (known there)⟩
    · intro gone noted
      rcases List.mem_cons.mp noted with own | later
      · obtain ⟨rfl, rfl⟩ := Prod.mk.inj own
        rw [kept fresh, hasRoom_leave, if_pos rfl]
      · exact said gone later
    · intro unlisted
      obtain ⟨apart, later⟩ := not_or.mp (List.mem_cons.not.mp unlisted)
      rw [kept later, hasRoom_leave, if_neg apart]

/-- A disconnect says of each affected room whether it is gone, and makes none. -/
theorem rooms_disconnect (tidy : state.TidyLists) :
    (∀ gone, (tested, gone) ∈ (state.disconnect id).1 →
        (state.disconnect id).2.hasRoom tested = !gone) ∧
      ((state.disconnect id).2.hasRoom tested = true → state.hasRoom tested = true) ∧
      ((state.disconnect id).1.map Prod.fst).Nodup := by
  have distinct : (((state.connections.lookup id).map Prod.snd).getD []).Nodup := by
    cases stored : state.connections.lookup id with
    | none => exact List.nodup_nil
    | some entry => exact (tidy id entry.1 entry.2 stored).2
  obtain ⟨said, _, known⟩ := state.rooms_leaveAll id tested _ distinct
  refine ⟨said, known, ?_⟩
  simpa only [disconnect, affected_leaveAll] using distinct

/-- The lists of the index are what the index says. -/
theorem TidyLists.of_connections {state after : SignalingState} (tidy : state.TidyLists)
    (same : after.connections = state.connections) : after.TidyLists := by
  intro id sink names read
  rw [same] at read
  exact tidy id sink names read

end SignalingState

namespace Connection

variable (config : Config) (world : World) (id : WsSink) (connection : Connection)

/-- Dispatching a `Join` makes sure of its room and touches no other; a refused one
finds its room there. -/
theorem joinSection_rooms (pid : ParticipantId) (first : Bool) (request : JoinRequest)
    (tidy : world.signaling.TidyLists) :
    let turn := connection.joinSection config world id pid first request .dispatch
    turn.signaling.TidyLists ∧ ∀ roomId, turn.signaling.hasRoom roomId =
      (decide (roomId = request.roomId) || world.signaling.hasRoom roomId) := by
  intro turn
  have pruned : ∀ roomId, (world.pruned request.roomId).hasRoom roomId =
      world.signaling.hasRoom roomId :=
    fun roomId => world.signaling.hasRoom_updateRoom request.roomId roomId _
  have kept : (world.pruned request.roomId).TidyLists := tidy.of_connections rfl
  cases admitted : admits config world request.roomId with
  | true =>
    have seated := (connection.joinSection_admitted config world id pid first request admitted).1
    rw [show turn.signaling = _ from seated]
    refine ⟨kept.join request.participant request.roomId id request.displayName, ?_⟩
    intro roomId
    rw [SignalingState.hasRoom_join, pruned]
  | false =>
    obtain ⟨refused, _, there⟩ :=
      connection.joinSection_refused config world id pid first request admitted
    rw [show turn.signaling = _ from refused]
    refine ⟨kept, ?_⟩
    intro roomId
    rw [pruned]
    by_cases same : roomId = request.roomId
    · simp [same, there]
    · simp [same]

/-- The handler of another message keeps the rooms and the index, unless it dispatches
a `Leave`. -/
theorem hookSection_rooms (pid : ParticipantId) (handled : Handled) (answer : Option String)
    (stage : HookStage) :
    let turn := connection.hookSection config world id pid handled answer stage
    (turn.signaling.connections = world.signaling.connections ∧
        ∀ roomId, turn.signaling.hasRoom roomId = world.signaling.hasRoom roomId) ∨
      (stage = .dispatch ∧ ∃ participant roomId, handled.message = .leave participant roomId ∧
        turn.signaling = (world.signaling.leave participant roomId).2) := by
  intro turn
  rcases connection.hookSection_effect pid handled answer stage with
    ⟨same, _⟩ | ⟨_, _, roomId, change, _, announced, _⟩ | rfl
  · rw [show turn.signaling = _ from same]
    exact .inl ⟨rfl, fun _ => rfl⟩
  · rw [show turn.signaling = _ from announced]
    exact .inl ⟨rfl, fun tested => world.signaling.hasRoom_updateRoom roomId tested change⟩
  · cases departs : handled.message.changesMembership with
    | false =>
      left
      cases named : handled.message.roomId with
      | some roomId =>
        have confined := world.signaling.dispatch_keeps handled.message handled.raw pid id
          world.isClosed config.maxChatHistory config.maxRoomMembers roomId named departs
        exact ⟨confined.connections, confined.sameSeats.hasRoom⟩
      | none =>
        cases message : handled.message with
        | error code text =>
          simp only [turn, hookSection, message, SignalingState.dispatch, World.turn]
          exact ⟨trivial, fun _ => trivial⟩
        | _ => simp [message, SdpMessage.roomId] at named
    | true =>
      right
      cases message : handled.message with
      | leave participant roomId =>
        refine ⟨rfl, participant, roomId, rfl, ?_⟩
        simp [turn, hookSection, message, SignalingState.dispatch, SignalingState.dispatchLeave]
      | join =>
        have notJoin := handled.notJoin
        simp [message, SdpMessage.joinRequest] at notJoin
      | _ => simp [message, SdpMessage.changesMembership] at departs

end Connection

end Seameet

namespace Seameet.Facade

open Library

/-- The destroyed room an event tells of. -/
def ServerEvent.destroyed : ServerEvent → Option RoomId
  | .roomDestroyed roomId => some roomId
  | _ => none

/-- A `Join` at its dispatch. -/
def dispatchesJoin : Point → Bool
  | .joining _ _ .dispatch => true
  | _ => false

/-- The cleanup has come to the hooks. -/
def pastEngine : Point → Bool
  | .leaving (.routes _) | .leaving (.allPeers _) | .leaving (.lookup _ _ _)
  | .leaving (.stopScreen _ _ _ _) | .leaving (.dropPeer _ _ _ _) | .leaving (.dropRoom _ _)
  | .leaving .dropSession => true
  | _ => false

/-- The room whose creation a task has announced and is still to dispatch. -/
def creation (point : Point) : Option HookCall → Option RoomId
  | some (.sending (some roomId) pending) =>
      if dispatchesJoin point && !decide (.roomCreated roomId ∈ pending) then some roomId else none
  | _ => none

/-- The rooms a task has emptied by a disconnect and is still to report. -/
def destructions (point : Point) (call : Option HookCall) : List RoomId :=
  match point, call with
  | .leaving (.announce _ affected), _ => HookCall.emptiedRooms affected
  | _, some (.innerDisconnect _ affected) => HookCall.emptiedRooms affected
  | _, some (.sending _ pending) => pending.filterMap ServerEvent.destroyed
  | _, _ => []

/-- A call whose events are being sent fits where the task stands. -/
structure SendingFits (point : Point) (created : Option RoomId) (pending : List ServerEvent) :
    Prop where
  early : pastEngine point = false
  returned : (handledMessage point).isSome = true → hookReturned point = true
  room : ∀ first request, point = .joining first request .dispatch → ∀ roomId,
    created = some roomId → roomId = request.roomId
  creates : ∀ roomId, .roomCreated roomId ∈ pending → dispatchesJoin point = true ∧
    created = some roomId ∧ ∃ rest, pending = .roomCreated roomId :: rest ∧
      ∀ other, .roomCreated other ∉ rest
  destroys : ∀ roomId, .roomDestroyed roomId ∈ pending → point = .ended

/-- A call fits where the task stands. -/
def CallFits (point : Point) : Option HookCall → Prop
  | none => handledMessage point = none ∧ pastEngine point = false
  | some (.snapshot _ request) => ∃ first stage, point = .joining first request stage
  | some (.innerMessage _ sdp _) =>
      handledMessage point = some sdp ∨ (point = .idle ∧ sdp.joinRequest = none)
  | some (.innerDisconnect _ _) => pastEngine point = true ∨ point = .ended
  | some (.sending created pending) => SendingFits point created pending

/-- No call is under way, though the last one may be on record. -/
def NoCall (call : Option HookCall) : Prop :=
  call = none ∨ ∃ created, call = some (.sending created [])

namespace NoCall

variable {point next : Point} {call : Option HookCall}

/-- A task the wrapper lets go on is in no call while the engine is at work. -/
theorem of_fits (fits : CallFits point call)
    (free : ∀ started, call = some started → started.holds point = false)
    (apart : handledMessage point = none ∨ hookReturned point = true)
    (early : pastEngine point = false) (running : point ≠ .ended) : NoCall call := by
  cases call with
  | none => exact .inl rfl
  | some started =>
    have let_on := free started rfl
    cases started with
    | snapshot => simp [HookCall.holds] at let_on
    | innerMessage pid sdp preRoomExists =>
      have inside : hookReturned point = false := let_on
      rcases fits with handled | ⟨rfl, _⟩
      · rcases apart with none | returned
        · rw [none] at handled
          cases handled
        · rw [inside] at returned
          cases returned
      · cases inside
    | innerDisconnect =>
      rcases fits with late | ended
      · rw [early] at late
        cases late
      · exact absurd ended running
    | sending created pending =>
      have sent : pending = [] := by simpa [HookCall.holds] using let_on
      exact .inr ⟨created, by rw [sent]⟩

/-- Without a call only a disconnect before the hooks has rooms to report. -/
theorem destructions_eq (idle : NoCall call)
    (apart : ∀ pending affected, point ≠ .leaving (.announce pending affected)) :
    destructions point call = [] := by
  unfold destructions
  rcases idle with rfl | ⟨created, rfl⟩
  · split
    · rename_i pending affected
      exact absurd rfl (apart pending affected)
    · rename_i impossible
      cases impossible
    · rename_i impossible
      cases impossible
    · rfl
  · split
    · rename_i pending affected
      exact absurd rfl (apart pending affected)
    · rename_i impossible
      cases impossible
    · rename_i same
      cases same
      rfl
    · rfl

/-- A call that is over fits every task the engine is at work with. -/
theorem fits (idle : NoCall call) (apart : handledMessage next = none)
    (early : pastEngine next = false) : CallFits next call := by
  rcases idle with rfl | ⟨created, rfl⟩
  · exact ⟨apart, early⟩
  · refine ⟨early, by simp [apart], ?_, by simp, by simp⟩
    rintro first request rfl
    cases apart

end NoCall

/-- A task the wrapper lets go on inside a message's hook is in the inner hook. -/
theorem inside_of_fits {point : Point} {call : Option HookCall} {sdp : SdpMessage}
    (fits : CallFits point call)
    (free : ∀ started, call = some started → started.holds point = false)
    (handled : handledMessage point = some sdp) (before : hookReturned point = false) :
    ∃ pid preRoomExists, call = some (.innerMessage pid sdp preRoomExists) := by
  cases call with
  | none =>
    rw [fits.1] at handled
    cases handled
  | some started =>
    have let_on := free started rfl
    cases started with
    | snapshot => simp [HookCall.holds] at let_on
    | innerMessage pid other preRoomExists =>
      rcases fits with same | ⟨rfl, _⟩
      · rw [handled] at same
        cases same
        exact ⟨pid, preRoomExists, rfl⟩
      · cases before
    | innerDisconnect =>
      rcases fits with late | rfl
      · cases point with
        | leaving stage => cases handled
        | _ => cases late
      · cases handled
    | sending created pending =>
      have returned := fits.returned (by rw [handled, Option.isSome_some])
      rw [before] at returned
      cases returned

section Destructions

variable {point : Point}

/-- The inner hook of a message has nothing to report. -/
theorem destructions_message
    (apart : ∀ pending affected, point ≠ .leaving (.announce pending affected))
    {pid : ParticipantId} {sdp : SdpMessage} {preRoomExists : Bool} :
    destructions point (some (.innerMessage pid sdp preRoomExists)) = [] := by
  cases point with
  | leaving stage =>
    cases stage with
    | announce pending affected => exact absurd rfl (apart pending affected)
    | _ => rfl
  | _ => rfl

/-- The events still to be sent report what is left to report. -/
theorem destructions_sending
    (apart : ∀ pending affected, point ≠ .leaving (.announce pending affected))
    {created : Option RoomId} {pending : List ServerEvent} :
    destructions point (some (.sending created pending)) =
      pending.filterMap ServerEvent.destroyed := by
  cases point with
  | leaving stage =>
    cases stage with
    | announce pending affected => exact absurd rfl (apart pending affected)
    | _ => rfl
  | _ => rfl

/-- Which rooms are left to report depends on the reports among the events only. -/
theorem destructions_congr {created : Option RoomId} {first second : List ServerEvent}
    (same : first.filterMap ServerEvent.destroyed = second.filterMap ServerEvent.destroyed) :
    destructions point (some (.sending created first)) =
      destructions point (some (.sending created second)) := by
  cases point with
  | leaving stage =>
    cases stage with
    | announce => rfl
    | _ => exact same
  | _ => exact same

end Destructions

/-- Past the engine's part of the cleanup, the inner hook of the disconnect runs. -/
theorem late_of_fits {point : Point} {call : Option HookCall} (fits : CallFits point call)
    (late : pastEngine point = true) : ∃ pid affected, call = some (.innerDisconnect pid affected) := by
  have unhandled : handledMessage point = none := by
    cases point with
    | leaving stage => rfl
    | _ => cases late
  cases call with
  | none =>
    rw [fits.2] at late
    cases late
  | some started =>
    cases started with
    | innerDisconnect pid affected => exact ⟨pid, affected, rfl⟩
    | snapshot =>
      obtain ⟨_, _, rfl⟩ := fits
      cases late
    | innerMessage =>
      rcases fits with handled | ⟨rfl, _⟩
      · rw [unhandled] at handled
        cases handled
      · cases late
    | sending =>
      rw [fits.early] at late
      cases late

/-- Past the engine's part of the cleanup, all emptied rooms are still to be reported. -/
theorem destructions_late {point : Point} (late : pastEngine point = true ∨ point = .ended)
    (pid : ParticipantId) (affected : Affected) :
    destructions point (some (.innerDisconnect pid affected)) = HookCall.emptiedRooms affected := by
  rcases late with late | rfl
  · cases point with
    | leaving stage =>
      cases stage with
      | announce => cases late
      | _ => rfl
    | _ => cases late
  · rfl

/-- The hook of a disconnect goes on to its end. -/
theorem leaveSection_late (config : Config) (world : World) (id : WsSink)
    (connection : Seameet.Connection)
    (pid : ParticipantId) (stage : LeaveStage) (late : pastEngine (.leaving stage) = true) :
    let after := (connection.leaveSection config world id pid stage).connection.point
    pastEngine after = true ∨ after = .ended := by
  have left : ∀ rest, pastEngine (.leaving (Seameet.Connection.roomsLeft rest)) = true := by
    intro rest
    cases rest <;> rfl
  have past : ∀ roomId gone rest,
      pastEngine (.leaving (Seameet.Connection.afterPeers roomId gone rest)) = true := by
    intro roomId gone rest
    unfold Seameet.Connection.afterPeers
    split
    · rfl
    · exact left rest
  cases stage with
  | checkStale | disconnect | announce => cases late
  | routes affected => exact .inl rfl
  | allPeers affected => exact .inl (left affected)
  | lookup roomId gone rest =>
    simp only [Seameet.Connection.leaveSection]
    split
    · exact .inl rfl
    · exact .inl (past roomId gone rest)
  | stopScreen peers roomId gone rest => exact .inl rfl
  | dropPeer peers roomId gone rest => exact .inl (past roomId gone rest)
  | dropRoom roomId rest => exact .inl (left rest)
  | dropSession => exact .inr rfl

/-- The events of a message start with the creation they tell of, if they tell of one,
and tell of no room otherwise. -/
theorem messageEvents_eq (pid : ParticipantId) (sdp : SdpMessage) (preRoomExists : Bool) :
    ∃ rest, HookCall.messageEvents pid sdp preRoomExists =
        (HookCall.createdRoom sdp preRoomExists).toList.map .roomCreated ++ rest ∧
      (∀ roomId, .roomCreated roomId ∉ rest) ∧ ∀ roomId, .roomDestroyed roomId ∉ rest := by
  unfold HookCall.messageEvents HookCall.createdRoom
  cases sdp.joinRequest with
  | none => cases preRoomExists <;> exact ⟨_, rfl, by simp, by simp⟩
  | some request =>
    refine ⟨[.peerConnected pid request.roomId, .messageReceived pid sdp.kind], ?_, by simp, by simp⟩
    cases preRoomExists <;> rfl

/-- The rooms reported destroyed are told of by the events. -/
theorem destroyed_eq_nil {events : List ServerEvent}
    (none : ∀ roomId, .roomDestroyed roomId ∉ events) :
    events.filterMap ServerEvent.destroyed = [] := by
  rw [List.filterMap_eq_nil_iff]
  intro event listed
  cases event with
  | roomDestroyed roomId => exact absurd listed (none roomId)
  | _ => rfl

/-- The events of a departure report the emptied rooms. -/
theorem disconnectEvents_destroyed (pid : ParticipantId) (affected : Affected) :
    (HookCall.disconnectEvents pid affected).filterMap ServerEvent.destroyed =
      HookCall.emptiedRooms affected := by
  rw [HookCall.disconnectEvents, List.filterMap_cons_none rfl, List.filterMap_map]
  exact List.filterMap_some

/-- When the inner hook of a message returns, its events fit where the task stands. -/
theorem fits_returned {point : Point} {pid : ParticipantId} {sdp : SdpMessage}
    {preRoomExists : Bool} (fits : CallFits point (some (.innerMessage pid sdp preRoomExists)))
    (returned : hookReturned point = true) :
    SendingFits point (HookCall.createdRoom sdp preRoomExists)
      (HookCall.messageEvents pid sdp preRoomExists) := by
  have joins : ∀ roomId, HookCall.createdRoom sdp preRoomExists = some roomId →
      ∃ request, sdp.joinRequest = some request ∧ roomId = request.roomId := by
    intro roomId created
    unfold HookCall.createdRoom at created
    split at created
    · cases created
    · obtain ⟨request, joins, same⟩ := Option.map_eq_some_iff.mp created
      exact ⟨request, joins, same.symm⟩
  obtain ⟨rest, events, created, destroyed⟩ := messageEvents_eq pid sdp preRoomExists
  rw [events]
  constructor
  · cases point with
    | leaving => cases returned
    | _ => rfl
  · exact fun _ => returned
  · rintro first request rfl roomId announced
    obtain ⟨other, joined, rfl⟩ := joins roomId announced
    rcases fits with handled | ⟨impossible, _⟩
    · cases handled
      cases joined
      rfl
    · cases impossible
  · intro roomId told
    cases announced : HookCall.createdRoom sdp preRoomExists with
    | none =>
      rw [announced] at told
      exact absurd told (created roomId)
    | some room =>
      rw [announced] at told
      have same : roomId = room := by simpa [created roomId] using told
      subst same
      obtain ⟨request, joined, _⟩ := joins roomId announced
      refine ⟨?_, rfl, rest, rfl, created⟩
      rcases fits with handled | ⟨_, none⟩
      · cases point with
        | joining first other stage =>
          cases stage with
          | dispatch => rfl
          | _ => cases returned
        | handling handler stage =>
          cases handled
          rw [handler.notJoin] at joined
          cases joined
        | _ => cases handled
      · rw [none] at joined
        cases joined
  · intro roomId told
    rcases List.mem_append.mp told with announced | other
    · simp at announced
    · exact absurd other (destroyed roomId)

/-- Sending an event leaves a call that fits. -/
theorem SendingFits.tail {point : Point} {created : Option RoomId} {event : ServerEvent}
    {pending : List ServerEvent} (fits : SendingFits point created (event :: pending)) :
    SendingFits point created pending := by
  refine ⟨fits.early, fits.returned, fits.room, ?_, ?_⟩
  · intro roomId told
    obtain ⟨_, _, rest, same, none⟩ := fits.creates roomId (List.mem_cons_of_mem _ told)
    obtain ⟨_, rfl⟩ := List.cons.inj same
    exact absurd told (none roomId)
  · exact fun roomId told => fits.destroys roomId (List.mem_cons_of_mem _ told)

/-- Only a `Join` at its dispatch has a creation to dispatch. -/
theorem creation_eq_none {point : Point} (apart : dispatchesJoin point = false)
    (call : Option HookCall) : creation point call = none := by
  unfold creation
  split
  · rw [apart, Bool.false_and, if_neg (by simp)]
  · rfl

/-- The checks tell of no room. -/
theorem checkEvents_life (config : Config) (connection : Seameet.Connection) (event : Event)
    (roomId : RoomId) :
    (checkEvents config connection event).filterMap (SeaMeetServer.lifeEvent roomId) = [] := by
  unfold checkEvents
  split
  · split
    · split <;> rfl
    · split <;> rfl
    · rfl
  · rfl

end Seameet.Facade
