import Seameet.Library.Runs
import Seameet.Engine.Outcome

/-!
# What a message changes for others

A connection is bound to one participant, yet the messages it sends name
participants of their own. Some handlers go by the bound participant, some by
the named one: a flag in the signaling state is always the bound participant's,
while `Join` and `Leave` go by the name, and so do the commands to media tasks that
follow a mute or a screen share. Besides these, only members whose channel is closed
are touched, when a `Join` removes them from its room.

So whom a mute or a screen share names keeps its memberships and flags, and about
whom a `Join` or a `Leave` names no command is queued.
-/

namespace Seameet

open Library

/-- The participant whose membership a message is about. -/
def SdpMessage.membershipOf : SdpMessage → Option ParticipantId
  | .join participant _ _ _ | .leave participant _ => some participant
  | _ => none

/-- The participant whose media a message reports on to the media tasks. -/
def SdpMessage.mediaOf : SdpMessage → Option ParticipantId
  | .muteAudio sender _ | .unmuteAudio sender _ | .screenShareStarted sender _ _
  | .screenShareStopped sender _ _ => some sender
  | _ => none

namespace Point

/-- The participant whose membership the message in handling is about. -/
def membershipOf : Point → Option ParticipantId
  | .joining _ request _ => some request.participant
  | .handling handled _ => handled.message.membershipOf
  | _ => none

/-- The participant whose media the message in handling reports on. -/
def mediaOf : Point → Option ParticipantId
  | .handling handled _ => handled.message.mediaOf
  | _ => none

/-- The room a `Join` in handling is for. -/
def joins : Point → Option RoomId
  | .joining _ request _ => some request.roomId
  | _ => none

end Point

/-- A mute or screen-share command that is about a participant. -/
def Command.concerns (command : Command) (participant : ParticipantId) : Bool :=
  match command.cmd with
  | .setMuted _ | .screenShareActive _ => decide (command.peer = participant)
  | .peerMuteChanged muted _ => decide (muted = participant)
  | _ => false

/-- A section leaves a participant alone: its memberships with their sinks and
flags, and its stored sink. The exception is a closed member of the room a `Join` is
for. -/
structure Spares (world : World) (joined : Option RoomId) (participant : ParticipantId)
    (turn : Turn) : Prop where
  member : ∀ roomId, turn.signaling.member roomId participant =
      world.signaling.member roomId participant ∨
    (joined = some roomId ∧ turn.signaling.member roomId participant = none ∧
      ∃ member, world.signaling.member roomId participant = some member ∧
        member.sink ∈ world.closed)
  sink : turn.signaling.sink participant = world.signaling.sink participant

/-- A section queues no mute or screen-share command about a participant. -/
def Silent (participant : ParticipantId) (turn : Turn) : Prop :=
  ∀ command ∈ turn.commands, command.concerns participant = false

section Commands

variable {config : Config} {world : World} {participant : ParticipantId}

/-- A section that queues no command at all. -/
theorem Silent.of_none {turn : Turn} (none : turn.commands = []) : Silent participant turn := by
  intro command queued
  rw [none] at queued
  cases queued

/-- A command that is neither about mutes nor about screen shares concerns nobody. -/
theorem tell_quiet (peers : Peers) (addressed : ParticipantId → Bool) (cmd : PeerCmd)
    (quiet : ∀ peer gen, Command.concerns { peer, gen, cmd } participant = false) :
    ∀ command ∈ peers.tell addressed cmd, command.concerns participant = false := by
  intro command told
  obtain ⟨entry, _, rfl⟩ := List.mem_map.mp told
  exact quiet entry.1 entry.2.gen

/-- A command to one peer concerns another participant only by its content. -/
theorem tellOne_quiet (peers : Peers) (target : ParticipantId) (cmd : PeerCmd)
    (quiet : ∀ gen, Command.concerns { peer := target, gen, cmd } participant = false) :
    ∀ command ∈ peers.tellOne target cmd, command.concerns participant = false := by
  intro command told
  obtain ⟨peer, _, rfl⟩ := Option.map_eq_some_iff.mp (Option.mem_toList.mp told)
  exact quiet peer.gen

/-- The commands a handler queues for the media tasks of the sender's room are
about whom the message reports on. -/
theorem act_commands (peers : Peers) (pid : ParticipantId) (message : SdpMessage)
    (unnamed : message.mediaOf ≠ some participant) :
    ∀ command ∈ (SfuServer.act peers pid message).2, command.concerns participant = false := by
  cases message with
  | requestKeyframe _ target => exact tellOne_quiet _ _ _ fun _ => rfl
  | screenShareStarted sender =>
    have apart : sender ≠ participant := by simpa [SdpMessage.mediaOf] using unnamed
    exact tellOne_quiet _ _ _ fun _ => by simp [Command.concerns, apart]
  | screenShareStopped sender =>
    have apart : sender ≠ participant := by simpa [SdpMessage.mediaOf] using unnamed
    intro command queued
    rcases List.mem_append.mp queued with own | others
    · exact tellOne_quiet _ _ _ (fun _ => by simp [Command.concerns, apart]) command own
    · exact tell_quiet _ _ _ (fun _ _ => rfl) command others
  | muteAudio sender | unmuteAudio sender =>
    have apart : sender ≠ participant := by simpa [SdpMessage.mediaOf] using unnamed
    intro command queued
    rcases List.mem_append.mp queued with own | others
    · exact tellOne_quiet _ _ _ (fun _ => by simp [Command.concerns, apart]) command own
    · exact tell_quiet _ _ _ (fun _ _ => by simp [Command.concerns, apart]) command others
  | _ => simp [SfuServer.act]

/-- A `Join` handler queues no such command about anybody. -/
theorem join_silent (id : WsSink) (connection : Connection) (pid : ParticipantId) (first : Bool)
    (request : JoinRequest) (stage : JoinStage) :
    Silent participant (connection.joinSection config world id pid first request stage) := by
  cases stage with
  | notifyPruned pruned =>
    intro command queued
    simp only [Connection.joinSection] at queued
    split at queued
    · simp at queued
    · unfold SfuServer.notifyPruned at queued
      split at queued
      · obtain ⟨stale, _, told⟩ := List.mem_flatMap.mp queued
        exact tell_quiet _ _ _ (fun _ _ => rfl) command told
      · simp at queued
  | notifyRejoin pruned =>
    intro command queued
    simp only [Connection.joinSection] at queued
    split at queued
    · simp at queued
    · unfold SfuServer.notifyRejoin at queued
      split at queued
      · split at queued
        · exact tell_quiet _ _ _ (fun _ _ => rfl) command queued
        · simp at queued
      · simp at queued
  | announceCount =>
    intro command queued
    simp only [Connection.joinSection, SfuServer.announceCount] at queued
    split at queued
    · exact tell_quiet _ _ _ (fun _ _ => rfl) command queued
    · simp at queued
  | prune | ensureRoom | storeSession | dispatch => exact .of_none rfl

/-- The handler of any other message queues such commands only about whom the message
reports on. -/
theorem hook_silent (id : WsSink) (connection : Connection) (pid : ParticipantId)
    (handled : Handled) (answer : Option String) (stage : HookStage)
    (unnamed : handled.message.mediaOf ≠ some participant) :
    Silent participant (connection.hookSection config world id pid handled answer stage) := by
  cases stage with
  | act peers => exact act_commands (world.sfu.peersOf peers) pid handled.message unnamed
  | renegotiate peers =>
    simp only [Connection.hookSection]
    split
    · exact tellOne_quiet _ _ _ fun _ => rfl
    · exact .of_none rfl
  | candidate =>
    simp only [Connection.hookSection]
    split
    · exact tellOne_quiet _ _ _ fun _ => rfl
    · exact .of_none rfl
  | mediaState | session | room | awaitReply | negotiate =>
    simp only [Connection.hookSection]
    split <;> exact .of_none rfl
  | mediaTask | register | registerAll | markMediaTask | spawn | dispatch => exact .of_none rfl

end Commands

namespace Spares

variable {config : Config} {world : World} {joined : Option RoomId}
variable {participant : ParticipantId}

/-- A section that keeps the signaling state. -/
theorem still {turn : Turn} (signaling : turn.signaling = world.signaling) :
    Spares world joined participant turn :=
  { member := fun _ => .inl (by rw [signaling])
    sink := by rw [signaling] }

/-- Removing closed members leaves every live member alone. -/
theorem member_pruned (world : World) (roomId tested : RoomId) (participant : ParticipantId) :
    (world.pruned roomId).member tested participant =
        world.signaling.member tested participant ∨
      (some roomId = some tested ∧ (world.pruned roomId).member tested participant = none ∧
        ∃ member, world.signaling.member tested participant = some member ∧
          member.sink ∈ world.closed) := by
  rw [World.pruned, SignalingState.member_pruneStale]
  by_cases same : tested = roomId
  · subst same
    rw [if_pos rfl]
    cases seated : world.signaling.member tested participant with
    | none => exact .inl rfl
    | some member =>
      by_cases closed : member.sink ∈ world.closed
      · right
        exact ⟨rfl, by simp [Option.filter_some, World.isClosed, closed], member, rfl, closed⟩
      · left
        simp [Option.filter_some, World.isClosed, closed]
  · left
    rw [if_neg same]

/-- A section of a `Join` handler leaves alone whoever the `Join` does not name. -/
theorem join (id : WsSink) (connection : Connection) (pid : ParticipantId) (first : Bool)
    (request : JoinRequest) (stage : JoinStage) (other : participant ≠ request.participant) :
    Spares world (some request.roomId) participant
      (connection.joinSection config world id pid first request stage) := by
  cases stage with
  | prune =>
    exact { member := fun tested => member_pruned world request.roomId tested participant
            sink := rfl }
  | notifyPruned | notifyRejoin | ensureRoom | storeSession | announceCount => exact still rfl
  | dispatch =>
    cases admitted : Connection.admits config world request.roomId with
    | false =>
      have signaling :=
        (connection.joinSection_refused config world id pid first request admitted).1
      constructor
      · intro tested
        rw [signaling]
        exact member_pruned world request.roomId tested participant
      · rw [signaling]
        rfl
    | true =>
      have signaling :=
        (connection.joinSection_admitted config world id pid first request admitted).1
      constructor
      · intro tested
        rw [signaling, SignalingState.member_join, if_neg (by tauto)]
        exact member_pruned world request.roomId tested participant
      · rw [signaling, SignalingState.sink_join, if_neg other]
        rfl

/-- A confined change of the sender's flags leaves everybody else alone. -/
theorem confined {roomId : RoomId} {pid : ParticipantId} {raw : String} {maxChatHistory : Nat}
    {turn : Turn}
    (change : SignalingState.Confined roomId pid raw maxChatHistory world.signaling turn.signaling)
    (other : participant ≠ pid) : Spares world joined participant turn := by
  constructor
  · intro tested
    left
    by_cases same : tested = roomId
    · subst same
      exact change.others participant other
    · simp only [SignalingState.member, change.elsewhere tested same]
  · simp only [SignalingState.sink, change.connections]

/-- A `Leave` leaves alone whoever it does not name. -/
theorem leave {named : ParticipantId} {roomId : RoomId} {turn : Turn}
    (signaling : turn.signaling = (world.signaling.leave named roomId).2)
    (other : participant ≠ named) : Spares world joined participant turn := by
  constructor
  · intro tested
    left
    rw [signaling, SignalingState.member_leave, if_neg (by tauto)]
  · simp only [signaling, SignalingState.sink,
      SignalingState.connections_leave world.signaling named participant roomId other]

/-- A dispatch leaves alone everybody but the sender and whom a `Leave` names. -/
theorem dispatch (id : WsSink) (connection : Connection) (pid : ParticipantId) (handled : Handled)
    (answer : Option String) (other : participant ≠ pid)
    (unnamed : handled.message.membershipOf ≠ some participant) :
    Spares world joined participant
      (connection.hookSection config world id pid handled answer .dispatch) := by
  cases departs : handled.message.changesMembership with
  | false =>
    cases named : handled.message.roomId with
    | some roomId =>
      exact confined (world.signaling.dispatch_keeps handled.message handled.raw pid id
        world.isClosed config.maxChatHistory config.maxRoomMembers roomId named departs) other
    | none =>
      apply still _
      cases message : handled.message with
      | error => simp [Connection.hookSection, message, SignalingState.dispatch, World.turn]
      | _ => simp [message, SdpMessage.roomId] at named
  | true =>
    cases message : handled.message with
    | leave named roomId =>
      have signaling : (connection.hookSection config world id pid handled answer
          .dispatch).signaling = (world.signaling.leave named roomId).2 := by
        simp [Connection.hookSection, message, SignalingState.dispatch,
          SignalingState.dispatchLeave]
      have apart : participant ≠ named := by
        rintro rfl
        simp [message, SdpMessage.membershipOf] at unnamed
      exact leave signaling apart
    | join =>
      have notJoin := handled.notJoin
      simp [message, SdpMessage.joinRequest] at notJoin
    | _ => simp [message, SdpMessage.changesMembership] at departs

/-- A section of the handler of any other message leaves alone everybody but the
sender and whom a `Leave` names: the flags it changes are the sender's, whoever the
message names. -/
theorem hook (id : WsSink) (connection : Connection) (pid : ParticipantId) (handled : Handled)
    (answer : Option String) (stage : HookStage) (other : participant ≠ pid)
    (unnamed : handled.message.membershipOf ≠ some participant) :
    Spares world joined participant
      (connection.hookSection config world id pid handled answer stage) := by
  cases stage with
  | dispatch => exact dispatch id connection pid handled answer other unnamed
  | mediaState =>
    simp only [Connection.hookSection]
    split
    · rename_i roomId change changed
      obtain ⟨flag, rfl⟩ := SfuServer.mediaChange_flag changed
      have change : SignalingState.Confined roomId pid "" 0 world.signaling _ :=
        .setMedia world.signaling flag
      exact confined change other
    · exact still rfl
  | renegotiate | candidate | session | room | awaitReply | negotiate =>
    simp only [Connection.hookSection]
    split <;> exact still rfl
  | act | mediaTask | register | registerAll | markMediaTask | spawn => exact still rfl

end Spares

/-- A text that arrives changes nothing yet. -/
theorem receive_still {config : Config} {world : World} (id : WsSink) (connection : Connection)
    (raw : String) (parsed : Option SdpMessage) (auth : Except String Unit) (rateOk : Bool) :
    (connection.receive config world id raw parsed auth rateOk).signaling = world.signaling ∧
      (connection.receive config world id raw parsed auth rateOk).commands = [] := by
  unfold Connection.receive Connection.receiveNext Connection.receiveFirst
  repeat' split
  all_goals exact ⟨rfl, rfl⟩

/-- Whether a step is one a connection takes for a message it received: the
arrival or a section of the handler. -/
def Event.handlesFor (event : Event) (id : WsSink) : Prop :=
  (∃ raw parsed auth rateOk, event = .receive id raw parsed auth rateOk) ∨
    ∃ answer, event = .advance id answer

/-- A step leaves a participant's memberships with their sinks and flags and its
stored sink as they were. The exception is a closed member of the room a `Join` is
for. -/
structure Untouched (before after : World) (joined : Option RoomId) (participant : ParticipantId) :
    Prop where
  member : ∀ roomId, after.signaling.member roomId participant =
      before.signaling.member roomId participant ∨
    (joined = some roomId ∧ after.signaling.member roomId participant = none ∧
      ∃ member, before.signaling.member roomId participant = some member ∧
        member.sink ∈ before.closed)
  sink : after.signaling.sink participant = before.signaling.sink participant

/-- A step queues no mute or screen-share command about a participant. -/
def Unmentioned (before after : World) (participant : ParticipantId) : Prop :=
  ∃ queued, after.commands = before.commands ++ queued ∧
    ∀ command ∈ queued, command.concerns participant = false

/-- For every message received on a connection bound to a participant, and for any
other participant, no step of its handling changes the memberships with their sinks
and flags or the stored sink of the other one, unless the message is a `Join` or
`Leave` that names it, and none queues a mute or screen-share command about it, unless
the message is a mute or screen share that names it. Only closed members of the room
of a `Join` are removed from it.

A text that arrives changes nothing yet. Behind it stand the sections of two handlers,
and for each of them it is said apart what it does to the signaling state and what it
queues. -/
theorem others_untouched (config : Config) (world after : World) (event : Event) (id : WsSink)
    (connection : Connection) (pid participant : ParticipantId)
    (present : world.connections.lookup id = some connection)
    (bound : connection.participantId = some pid) (opens : connection.point.isOpen = true)
    (handles : event.handlesFor id) (stepped : world.step config event = some after)
    (other : participant ≠ pid) :
    (connection.point.membershipOf ≠ some participant →
        Untouched world after connection.point.joins participant) ∧
      (connection.point.mediaOf ≠ some participant → Unmentioned world after participant) := by
  have committed : ∀ turn : Turn,
      (connection.point.membershipOf ≠ some participant →
          Spares world connection.point.joins participant turn) →
        (connection.point.mediaOf ≠ some participant → Silent participant turn) →
          (connection.point.membershipOf ≠ some participant →
              Untouched world (world.commit id turn) connection.point.joins participant) ∧
            (connection.point.mediaOf ≠ some participant →
              Unmentioned world (world.commit id turn) participant) := by
    intro turn spares silent
    refine ⟨fun unnamed => ?_, fun unnamed => ⟨turn.commands, rfl, silent unnamed⟩⟩
    exact ⟨(spares unnamed).member, (spares unnamed).sink⟩
  rcases handles with ⟨raw, parsed, auth, rateOk, rfl⟩ | ⟨answer, rfl⟩
  · simp only [World.step, World.turned, present, Option.bind_some, Option.map_eq_some_iff]
      at stepped
    obtain ⟨turn, taken, rfl⟩ := stepped
    unfold World.whenIdle at taken
    split at taken
    · cases Option.some.inj taken
      obtain ⟨signaling, commands⟩ :=
        @receive_still config world id connection raw parsed auth rateOk
      exact committed _ (fun _ => .still signaling) fun _ => .of_none commands
    · simp at taken
  · simp only [World.step, World.turned, present, Option.bind_some, Option.map_eq_some_iff]
      at stepped
    obtain ⟨turn, taken, rfl⟩ := stepped
    unfold Connection.advance at taken
    split at taken <;> cases taken
    · rename_i unbound
      simp [unbound] at bound
    · rename_i unbound
      simp [unbound] at bound
    · rename_i first request stage sender point sends
      refine committed _ (fun unnamed => ?_) fun _ =>
        join_silent id connection sender first request stage
      rw [point] at unnamed ⊢
      exact .join id connection sender first request stage
        (by rintro rfl; simp [Point.membershipOf] at unnamed)
    · rename_i handled stage sender point sends
      rw [bound] at sends
      cases sends
      refine committed _ (fun unnamed => ?_) fun unnamed => ?_
      · rw [point] at unnamed
        exact .hook id connection pid handled answer stage other unnamed
      · rw [point] at unnamed
        exact hook_silent id connection pid handled answer stage unnamed
    · rename_i stage sender point sends
      simp [point, Point.isOpen] at opens

/-- Two participants have joined a room. -/
def pairRun : List Event :=
  .connect :: Event.firstJoin 1 ⟨1⟩ "a" ++ .connect :: Event.firstJoin 2 ⟨2⟩ "a"

/-- The second of them sends a text in the name of the first one; some sections of its
handler are done. -/
def forgedRun (message : SdpMessage) (sections : Nat) : List Event :=
  pairRun ++ .receive 2 "" (some message) (.ok ()) true :: Event.sections 2 sections

/-- The server after these events. -/
def forged (message : SdpMessage) (sections : Nat) : World :=
  (walk (World.step .sfuDefault) always (World.new false) (forgedRun message sections)).getD
    (World.new false)

/-- A mute in the name of the other member, about to change a flag, leaves that member
untouched; a `Leave` in its name queues nothing about its media. -/
theorem others_untouched_forged :
    Untouched (forged (.muteAudio ⟨1⟩ "a") 3)
        (((forged (.muteAudio ⟨1⟩ "a") 3).step .sfuDefault (.advance 2 none)).getD
          (World.new false)) none ⟨1⟩ ∧
      Unmentioned (forged (.leave ⟨1⟩ "a") 0)
        (((forged (.leave ⟨1⟩ "a") 0).step .sfuDefault (.advance 2 none)).getD
          (World.new false)) ⟨1⟩ := by
  refine ⟨?_, ?_⟩
  · exact (others_untouched .sfuDefault (forged (.muteAudio ⟨1⟩ "a") 3) _ (.advance 2 none) 2
      { participantId := some ⟨2⟩, e2eeDeadline := false,
        point := .handling { message := .muteAudio ⟨1⟩ "a", raw := "", notJoin := rfl }
          .mediaState }
      ⟨2⟩ ⟨1⟩ rfl rfl rfl (.inr ⟨none, rfl⟩) rfl (by decide)).1 (by decide)
  · exact (others_untouched .sfuDefault (forged (.leave ⟨1⟩ "a") 0) _ (.advance 2 none) 2
      { participantId := some ⟨2⟩, e2eeDeadline := false,
        point := .handling { message := .leave ⟨1⟩ "a", raw := "", notJoin := rfl } .dispatch }
      ⟨2⟩ ⟨1⟩ rfl rfl rfl (.inr ⟨none, rfl⟩) rfl (by decide)).2 (by decide)

/-- A `Join` on a connection bound to one participant, naming that participant,
takes the membership of another whose channel is closed; and a `Leave` on such a
connection takes the membership of the participant it names. -/
theorem others_touched :
    let closing := (walk (World.step .sfuDefault) always (World.new false)
      (.connect :: Event.firstJoin 1 ⟨1⟩ "a" ++ .connect :: Event.firstJoin 2 ⟨2⟩ "b" ++
        [.writerEnds 1, .join 2 ⟨2⟩ "a"])).getD (World.new false)
    let parting := (walk (World.step .sfuDefault) always (World.new false)
      (pairRun ++ [.receive 2 "" (some (.leave ⟨1⟩ "a")) (.ok ()) true])).getD (World.new false)
    (closing.connections.lookup 2).map Connection.participantId = some (some ⟨2⟩) ∧
      closing.signaling.seat "a" ⟨1⟩ = some 1 ∧
      (closing.step .sfuDefault (.advance 2 none)).map
        (fun after => after.signaling.seat "a" ⟨1⟩) = some none ∧
      (parting.connections.lookup 2).map Connection.participantId = some (some ⟨2⟩) ∧
      parting.signaling.seat "a" ⟨1⟩ = some 1 ∧
      (parting.step .sfuDefault (.advance 2 none)).map
        (fun after => after.signaling.seat "a" ⟨1⟩) = some none := by
  decide +kernel

end Seameet
