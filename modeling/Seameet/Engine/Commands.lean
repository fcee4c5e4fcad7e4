import Seameet.Engine.Outcome

/-!
# What the engine tells the media tasks

The commands a section of the engine may send, and what it does to the tables the
media tasks and the reader of the socket live by. No handler forwards a packet; the
only sections that mute a task are those of a mute or unmute handler, and they
name whom they mute.
-/

namespace Seameet

open Library

/-- The engine's events that stand for what media tasks do. -/
def Event.ofTasks : Event → Bool
  | .mediaEnds _ | .routed _ _ => true
  | _ => false

/-- The commands a handler of the sender's room sends. -/
def PeerCmd.ofAct : PeerCmd → Bool
  | .requestKeyframe | .screenShareActive _ | .sourceScreenStopped _ | .setMuted _
  | .peerMuteChanged _ _ => true
  | _ => false

namespace Peers

variable {peers : Peers} {command : Command} {cmd : PeerCmd}

/-- What is told to peers is the one command. -/
theorem mem_tell {addressed : ParticipantId → Bool} (sent : command ∈ peers.tell addressed cmd) :
    addressed command.peer = true ∧ command.cmd = cmd := by
  simp only [tell, List.mem_map, List.mem_filter] at sent
  obtain ⟨entry, ⟨_, passed⟩, rfl⟩ := sent
  exact ⟨passed, rfl⟩

/-- What is told to one peer goes to that peer. -/
theorem mem_tellOne {target : ParticipantId} (sent : command ∈ peers.tellOne target cmd) :
    command.peer = target ∧ command.cmd = cmd := by
  simp only [tellOne, Option.mem_toList, Option.map_eq_some_iff] at sent
  obtain ⟨peer, _, rfl⟩ := sent
  exact ⟨rfl, rfl⟩

end Peers

namespace Connection

variable {config : Config} {world : World} {id : WsSink} {connection : Connection}

/-- A text arriving at the top of the loop is no command and moves no table. -/
theorem receive_still (raw : String) (parsed : Option SdpMessage) (auth : Except String Unit)
    (rateOk : Bool) :
    (connection.receive config world id raw parsed auth rateOk).commands = [] ∧
      (connection.receive config world id raw parsed auth rateOk).sfu = world.sfu ∧
      (connection.receive config world id raw parsed auth rateOk).signaling = world.signaling := by
  cases parsed with
  | none => exact ⟨rfl, rfl, rfl⟩
  | some message =>
    simp only [receive]
    cases connection.participantId with
    | some pid =>
      simp only [receiveNext]
      split <;> exact ⟨rfl, rfl, rfl⟩
    | none =>
      cases message.joinRequest with
      | none => exact ⟨rfl, rfl, rfl⟩
      | some request =>
        simp only [receiveFirst]
        split
        · split
          · exact ⟨rfl, rfl, rfl⟩
          · split <;> exact ⟨rfl, rfl, rfl⟩
        · exact ⟨rfl, rfl, rfl⟩

/-- A `Join` handler sends departures, and in one section the number of peers. -/
theorem joinSection_commands (pid : ParticipantId) (first : Bool) (request : JoinRequest)
    (stage : JoinStage) (command : Command)
    (sent : command ∈ (connection.joinSection config world id pid first request stage).commands) :
    (∃ left, command.cmd = .peerLeft left) ∨
      (stage = .announceCount ∧ ∃ count, command.cmd = .peerCountChanged count) := by
  cases stage with
  | notifyPruned pruned =>
    simp only [joinSection, SfuServer.notifyPruned] at sent
    split at sent
    · simp at sent
    · split at sent
      · simp only [List.mem_flatMap] at sent
        obtain ⟨stale, _, told⟩ := sent
        exact .inl ⟨stale, (Peers.mem_tell told).2⟩
      · simp at sent
  | notifyRejoin pruned =>
    simp only [joinSection, SfuServer.notifyRejoin] at sent
    split at sent
    · simp at sent
    · split at sent
      · split at sent
        · exact .inl ⟨pid, (Peers.mem_tell sent).2⟩
        · simp at sent
      · simp at sent
  | announceCount =>
    simp only [joinSection, SfuServer.announceCount] at sent
    split at sent
    · exact .inr ⟨rfl, _, (Peers.mem_tell sent).2⟩
    · simp at sent
  | prune | ensureRoom | storeSession | dispatch => simp [joinSection, World.turn] at sent

/-- The cleanup sends only departures. -/
theorem leaveSection_commands (pid : ParticipantId) (stage : LeaveStage) (command : Command)
    (sent : command ∈ (connection.leaveSection config world id pid stage).commands) :
    command.cmd = .peerLeft pid := by
  cases stage with
  | stopScreen peers roomId gone rest =>
    simp only [leaveSection, SfuServer.stopScreen] at sent
    exact (Peers.mem_tell sent).2
  | checkStale | lookup =>
    simp only [leaveSection] at sent
    split at sent <;> simp [World.turn] at sent
  | announce pending affected =>
    cases pending with
    | cons head pending => simp [leaveSection, World.turn] at sent
    | nil =>
      simp only [leaveSection] at sent
      split at sent <;> simp [World.turn] at sent
  | disconnect | routes | allPeers | dropPeer | dropRoom | dropSession =>
    simp [leaveSection, World.turn] at sent

/-- The commands of any other handler: those of the room's map, a renegotiation's
offer or a candidate. -/
theorem hookSection_commands (pid : ParticipantId) (handled : Handled) (answer : Option String)
    (stage : HookStage) (command : Command)
    (sent : command ∈ (connection.hookSection config world id pid handled answer stage).commands) :
    (∃ peers, stage = .act peers ∧
        command ∈ (SfuServer.act (world.sfu.peersOf peers) pid handled.message).2) ∨
      (∃ sdp, command.cmd = .renegotiationOffer sdp) ∨
      ∃ candidate, command.cmd = .iceCandidate candidate := by
  cases stage with
  | act peers => exact .inl ⟨peers, rfl, sent⟩
  | renegotiate peers =>
    simp only [hookSection] at sent
    split at sent
    · exact .inr (.inl ⟨_, (Peers.mem_tellOne sent).2⟩)
    · simp [World.turn] at sent
  | candidate =>
    simp only [hookSection] at sent
    split at sent
    · exact .inr (.inr ⟨_, (Peers.mem_tellOne sent).2⟩)
    · simp [World.turn] at sent
  | session hasMedia | room hasMedia roomId | mediaState | awaitReply | negotiate peers =>
    simp only [hookSection] at sent
    split at sent <;> simp [World.turn] at sent
  | mediaTask | register | registerAll | markMediaTask | spawn | dispatch =>
    simp [hookSection, World.turn] at sent

end Connection

namespace SfuServer

variable {peers : Peers} {pid : ParticipantId} {message : SdpMessage} {command : Command}

/-- A mute or unmute handler sends its one mute command to the participant it names
and a notice to everybody else. -/
theorem mem_muting {muted : Bool} {sender : ParticipantId}
    (sent : command ∈ peers.tellOne sender (.setMuted muted) ++
      peers.tell (· ≠ sender) (.peerMuteChanged sender muted)) :
    (command.peer = sender ∧ command.cmd = .setMuted muted) ∨
      command.cmd = .peerMuteChanged sender muted := by
  rcases List.mem_append.mp sent with own | others
  · exact .inl (Peers.mem_tellOne own)
  · exact .inr (Peers.mem_tell others).2

/-- The mute commands of a room's map are for the task of the participant the
message names, and say what it says. -/
theorem act_setMuted {muted : Bool} (sent : command ∈ (act peers pid message).2)
    (sets : command.cmd = .setMuted muted) :
    (muted = true ∧ ∃ roomId, message = .muteAudio command.peer roomId) ∨
      (muted = false ∧ ∃ roomId, message = .unmuteAudio command.peer roomId) := by
  cases message with
  | muteAudio sender roomId =>
    rcases mem_muting sent with ⟨own, cmd⟩ | notice
    · rw [sets] at cmd
      cases cmd
      exact .inl ⟨rfl, roomId, by rw [own]⟩
    · simp [sets] at notice
  | unmuteAudio sender roomId =>
    rcases mem_muting sent with ⟨own, cmd⟩ | notice
    · rw [sets] at cmd
      cases cmd
      exact .inr ⟨rfl, roomId, by rw [own]⟩
    · simp [sets] at notice
  | requestKeyframe _ target _ | screenShareStarted sender _ _ =>
    have cmd := (Peers.mem_tellOne sent).2
    simp [sets] at cmd
  | screenShareStopped sender _ _ =>
    rcases List.mem_append.mp sent with own | others
    · have cmd := (Peers.mem_tellOne own).2
      simp [sets] at cmd
    · have cmd := (Peers.mem_tell others).2
      simp [sets] at cmd
  | _ => simp [act] at sent

/-- A handler of the sender's room sends no other commands. -/
theorem act_ofAct (sent : command ∈ (act peers pid message).2) : command.cmd.ofAct = true := by
  cases message with
  | muteAudio sender roomId | unmuteAudio sender roomId =>
    rcases mem_muting sent with ⟨_, cmd⟩ | notice
    · rw [cmd]
      rfl
    · rw [notice]
      rfl
  | requestKeyframe _ target _ | screenShareStarted sender _ _ =>
    rw [(Peers.mem_tellOne sent).2]
    rfl
  | screenShareStopped sender _ _ =>
    rcases List.mem_append.mp sent with own | others
    · rw [(Peers.mem_tellOne own).2]
      rfl
    · rw [(Peers.mem_tell others).2]
      rfl
  | _ => simp [act] at sent

/-- No handler forwards a packet. -/
theorem act_media (sent : command ∈ (act peers pid message).2) (packet : ForwardedMedia) :
    command.cmd ≠ .media packet := by
  intro carried
  have kind := act_ofAct sent
  rw [carried] at kind
  cases kind

end SfuServer

namespace Connection

variable {config : Config} {world : World} {id : WsSink} {connection : Connection} {turn : Turn}
variable {answer : Option String}

/-- What a connection advances by is a section of one of its handlers. -/
theorem advance_cases (taken : connection.advance config world id answer = some turn) :
    (turn.commands = [] ∧ turn.sfu = world.sfu ∧
        ((∃ request, connection.point = .precheck request) ∨
          ∃ request, connection.point = .register request)) ∨
      (∃ pid first request stage, connection.participantId = some pid ∧
        connection.point = .joining first request stage ∧
        turn = connection.joinSection config world id pid first request stage) ∨
      (∃ pid handled stage, connection.participantId = some pid ∧
        connection.point = .handling handled stage ∧
        turn = connection.hookSection config world id pid handled answer stage) ∨
      ∃ pid stage, connection.participantId = some pid ∧ connection.point = .leaving stage ∧
        turn = connection.leaveSection config world id pid stage := by
  unfold advance at taken
  split at taken
  · rename_i request point unbound
    cases taken
    refine .inl ⟨?_, ?_, .inl ⟨request, point⟩⟩
    · simp only [precheckSection]
      split <;> rfl
    · simp only [precheckSection]
      split <;> rfl
  · rename_i request point unbound
    cases taken
    exact .inl ⟨rfl, rfl, .inr ⟨request, point⟩⟩
  · rename_i first request stage pid point bound
    exact .inr (.inl ⟨pid, first, request, stage, bound, point, (Option.some.inj taken).symm⟩)
  · rename_i handled stage pid point bound
    exact .inr (.inr (.inl ⟨pid, handled, stage, bound, point, (Option.some.inj taken).symm⟩))
  · rename_i stage pid point bound
    exact .inr (.inr (.inr ⟨pid, stage, bound, point, (Option.some.inj taken).symm⟩))
  · simp at taken

/-- No section of the engine forwards a packet. -/
theorem advance_media (taken : connection.advance config world id answer = some turn)
    (command : Command) (sent : command ∈ turn.commands) (packet : ForwardedMedia) :
    command.cmd ≠ .media packet := by
  rcases advance_cases taken with ⟨none, _⟩ | ⟨pid, first, request, stage, _, _, rfl⟩ |
    ⟨pid, handled, stage, _, _, rfl⟩ | ⟨pid, stage, _, _, rfl⟩
  · simp [none] at sent
  · rcases joinSection_commands pid first request stage command sent with
      ⟨left, cmd⟩ | ⟨_, count, cmd⟩
    · simp [cmd]
    · simp [cmd]
  · rcases hookSection_commands pid handled answer stage command sent with
      ⟨peers, _, acted⟩ | ⟨sdp, cmd⟩ | ⟨candidate, cmd⟩
    · exact SfuServer.act_media acted packet
    · simp [cmd]
    · simp [cmd]
  · simp [leaveSection_commands pid stage command sent]

/-- Who a section mutes or unmutes is named by the message in handling. -/
theorem advance_setMuted (taken : connection.advance config world id answer = some turn)
    (command : Command) (sent : command ∈ turn.commands) (muted : Bool)
    (sets : command.cmd = .setMuted muted) :
    ∃ pid handled peers roomId, connection.participantId = some pid ∧
      connection.point = .handling handled (.act peers) ∧
      ((muted = true ∧ handled.message = .muteAudio command.peer roomId) ∨
        (muted = false ∧ handled.message = .unmuteAudio command.peer roomId)) := by
  rcases advance_cases taken with ⟨none, _⟩ | ⟨pid, first, request, stage, _, _, rfl⟩ |
    ⟨pid, handled, stage, bound, point, rfl⟩ | ⟨pid, stage, _, _, rfl⟩
  · simp [none] at sent
  · rcases joinSection_commands pid first request stage command sent with
      ⟨left, cmd⟩ | ⟨_, count, cmd⟩
    · simp [sets] at cmd
    · simp [sets] at cmd
  · rcases hookSection_commands pid handled answer stage command sent with
      ⟨peers, rfl, acted⟩ | ⟨sdp, cmd⟩ | ⟨candidate, cmd⟩
    · rcases SfuServer.act_setMuted acted sets with ⟨mutes, roomId, message⟩ | ⟨mutes, roomId, message⟩
      · exact ⟨pid, handled, peers, roomId, bound, point, .inl ⟨mutes, message⟩⟩
      · exact ⟨pid, handled, peers, roomId, bound, point, .inr ⟨mutes, message⟩⟩
    · simp [sets] at cmd
    · simp [sets] at cmd
  · have cmd := leaveSection_commands pid stage command sent
    simp [sets] at cmd

/-- What a section does to the tables media tasks and the reader live by. -/
inductive Tables (world : World) (connection : Connection) : SfuServer → Prop
  | same (server : SfuServer) (routes : server.routes = world.sfu.routes)
      (allPeers : server.allPeers = world.sfu.allPeers)
      (mediaTasks : server.mediaTasks = world.sfu.mediaTasks) : Tables world connection server
  /-- A peer is entered into the map of all peers. -/
  | registers (pid : ParticipantId) (peer : SfuPeer) :
      Tables world connection (world.sfu.registerAll pid peer)
  /-- A media task is started. -/
  | spawns (pid : ParticipantId) (handled : Handled) (peers : PeersRef) (peer : SfuPeer)
      (bound : connection.participantId = some pid)
      (point : connection.point = .handling handled (.spawn peers peer)) :
      Tables world connection (world.sfu.spawn pid peers peer)
  /-- A cleanup drops the routes to its participant. -/
  | unroutes (pid : ParticipantId) (affected : Affected)
      (bound : connection.participantId = some pid)
      (point : connection.point = .leaving (.routes affected)) :
      Tables world connection (world.sfu.dropRoutes pid)
  /-- A cleanup drops its participant from the map of all peers. -/
  | drops (pid : ParticipantId) (affected : Affected)
      (bound : connection.participantId = some pid)
      (point : connection.point = .leaving (.allPeers affected)) :
      Tables world connection (world.sfu.dropFromAll pid)

/-- Every section does one of these. -/
theorem advance_tables (taken : connection.advance config world id answer = some turn) :
    Tables world connection turn.sfu := by
  have untouched : ∀ server : SfuServer, server = world.sfu → Tables world connection server := by
    rintro server rfl
    exact .same _ rfl rfl rfl
  rcases advance_cases taken with ⟨_, sfu, _⟩ | ⟨pid, first, request, stage, _, _, rfl⟩ |
    ⟨pid, handled, stage, bound, point, rfl⟩ | ⟨pid, stage, bound, point, rfl⟩
  · exact untouched _ sfu
  · cases stage with
    | ensureRoom =>
      simp only [joinSection, SfuServer.ensureRoom]
      split <;> exact .same _ rfl rfl rfl
    | _ => exact .same _ rfl rfl rfl
  · cases stage with
    | registerAll peers peer => exact .registers pid peer
    | spawn peers peer => exact .spawns pid handled peers peer bound point
    | session hasMedia | room hasMedia roomId | mediaState | renegotiate peers | awaitReply
      | negotiate peers | candidate =>
      simp only [hookSection]
      split <;> exact .same _ rfl rfl rfl
    | _ => exact .same _ rfl rfl rfl
  · cases stage with
    | routes affected => exact .unroutes pid affected bound point
    | allPeers affected => exact .drops pid affected bound point
    | checkStale | lookup =>
      simp only [leaveSection]
      split <;> exact .same _ rfl rfl rfl
    | announce pending affected =>
      cases pending with
      | cons head pending => exact .same _ rfl rfl rfl
      | nil =>
        simp only [leaveSection]
        split <;> exact .same _ rfl rfl rfl
    | _ => exact .same _ rfl rfl rfl

/-- The media tasks a section starts are for the connection's participant, with the
generation its handler holds. -/
theorem advance_mediaTasks (taken : connection.advance config world id answer = some turn) :
    ∃ entered, turn.sfu.mediaTasks = world.sfu.mediaTasks ++ entered ∧
      ∀ media ∈ entered, ∃ handled peers peer, connection.participantId = some media.pid ∧
        connection.point = .handling handled (.spawn peers peer) ∧ media.gen = peer.gen := by
  have tables := advance_tables taken
  generalize turn.sfu = server at tables ⊢
  cases tables with
  | same _ routes allPeers mediaTasks => exact ⟨[], by rw [mediaTasks, List.append_nil], by simp⟩
  | registers | unroutes | drops => exact ⟨[], (List.append_nil _).symm, by simp⟩
  | spawns pid handled peers peer bound point =>
    refine ⟨[_], rfl, ?_⟩
    intro media entered
    cases List.mem_singleton.mp entered
    exact ⟨handled, peers, peer, bound, point, rfl⟩

/-- The media tasks a section enters are its own. -/
theorem advance_entered (taken : connection.advance config world id answer = some turn)
    {entered : List MediaTask} (enters : turn.sfu.mediaTasks = world.sfu.mediaTasks ++ entered) :
    ∀ media ∈ entered, ∃ handled peers peer, connection.participantId = some media.pid ∧
      connection.point = .handling handled (.spawn peers peer) ∧ media.gen = peer.gen := by
  obtain ⟨list, appended, each⟩ := advance_mediaTasks taken
  rwa [List.append_cancel_left (enters.symm.trans appended)]

end Connection

namespace World

variable {config : Config} {world after : World} {event : Event}

/-- A step that is no section of a handler sends no command and leaves the media
server and the signaling state alone. -/
theorem step_still (stepped : world.step config event = some after)
    (own : event.ofTasks = false) (still : ∀ id answer, event ≠ .advance id answer) :
    after.commands = world.commands ∧ after.sfu = world.sfu ∧
      after.signaling = world.signaling := by
  have committed : ∀ {id : WsSink} {next : Connection → Option Turn},
      world.turned id next = some after →
      (∀ connection turn, next connection = some turn →
        turn.commands = [] ∧ turn.sfu = world.sfu ∧ turn.signaling = world.signaling) →
      after.commands = world.commands ∧ after.sfu = world.sfu ∧
        after.signaling = world.signaling := by
    intro id next taken each
    simp only [turned, Option.bind_eq_some_iff, Option.map_eq_some_iff] at taken
    obtain ⟨connection, _, turn, chosen, rfl⟩ := taken
    obtain ⟨none, sfu, signaling⟩ := each connection turn chosen
    exact ⟨by simp [World.commit, none], sfu, signaling⟩
  have idle : ∀ {connection : Connection} {offered turn : Turn},
      whenIdle connection offered = some turn → turn = offered := by
    intro connection offered turn chosen
    unfold whenIdle at chosen
    split at chosen
    · exact (Option.some.inj chosen).symm
    · simp at chosen
  cases event with
  | connect =>
    cases stepped
    exact ⟨rfl, rfl, rfl⟩
  | receive id raw parsed auth rateOk =>
    refine committed stepped fun connection turn chosen => ?_
    rw [idle chosen]
    exact connection.receive_still raw parsed auth rateOk
  | advance id answer => exact absurd rfl (still id answer)
  | hangUp id =>
    refine committed stepped fun connection turn chosen => ?_
    rw [idle chosen]
    exact ⟨rfl, rfl, rfl⟩
  | deadline id =>
    refine committed stepped fun connection turn chosen => ?_
    split at chosen
    · rw [idle chosen]
      exact ⟨rfl, rfl, rfl⟩
    · simp at chosen
  | writerEnds id =>
    obtain ⟨_, _, rfl⟩ := Option.map_eq_some_iff.mp stepped
    exact ⟨rfl, rfl, rfl⟩
  | mediaEnds task => simp [Event.ofTasks] at own
  | routed source task => simp [Event.ofTasks] at own

/-- A section of a handler belongs to one connection. -/
theorem step_advance {id : WsSink} {answer : Option String}
    (stepped : world.step config (.advance id answer) = some after) :
    ∃ connection turn, world.connections.lookup id = some connection ∧
      connection.advance config world id answer = some turn ∧ after = world.commit id turn := by
  simp only [step, turned, Option.bind_eq_some_iff, Option.map_eq_some_iff] at stepped
  obtain ⟨connection, present, turn, taken, rfl⟩ := stepped
  exact ⟨connection, turn, present, taken, rfl⟩

/-- An event of the engine's own is a section of a handler or leaves all that
matters to the media tasks alone. -/
theorem step_cases (stepped : world.step config event = some after)
    (own : event.ofTasks = false) :
    (after.commands = world.commands ∧ after.sfu = world.sfu ∧
        after.signaling = world.signaling ∧ ∀ id answer, event ≠ .advance id answer) ∨
      ∃ id answer connection turn, event = .advance id answer ∧
        world.connections.lookup id = some connection ∧
        connection.advance config world id answer = some turn ∧ after = world.commit id turn := by
  by_cases advances : ∃ id answer, event = .advance id answer
  · obtain ⟨id, answer, rfl⟩ := advances
    obtain ⟨connection, turn, present, taken, same⟩ := step_advance stepped
    exact .inr ⟨id, answer, connection, turn, rfl, present, taken, same⟩
  · have still : ∀ id answer, event ≠ .advance id answer :=
      fun id answer same => advances ⟨id, answer, same⟩
    obtain ⟨commands, sfu, signaling⟩ := step_still stepped own still
    exact .inl ⟨commands, sfu, signaling, still⟩

/-- A section keeps the names that are yet to be given. -/
theorem Fresh.commit (fresh : world.Fresh) {id : WsSink} {connection : Connection} (turn : Turn)
    (present : world.connections.lookup id = some connection) : (world.commit id turn).Fresh := by
  intro tested beyond
  have absent := fresh tested beyond
  rw [lookup_commit, if_neg, absent]
  rintro rfl
  simp [present] at absent

/-- A step that is no section of a handler keeps a connection, up to what arrives at
the top of its loop. -/
theorem still_connection (fresh : world.Fresh) (stepped : world.step config event = some after)
    (own : event.ofTasks = false) (still : ∀ id answer, event ≠ .advance id answer)
    {id : WsSink} {connection : Connection}
    (present : world.connections.lookup id = some connection) :
    after.connections.lookup id = some connection ∨
      ∃ turn, Arrival config world id connection turn ∧
        after.connections.lookup id = some turn.connection := by
  cases world.step_outcome config after event stepped with
  | connected =>
    refine .inl ?_
    rw [Table.lookup_insert_eq, if_neg]
    · exact present
    · rintro rfl
      simp [fresh world.nextConnection (Nat.le_refl _)] at present
  | arrived _ arrivedAt earlier turn found arrival =>
    by_cases here : id = arrivedAt
    · subst here
      rw [present] at found
      cases found
      exact .inr ⟨turn, arrival, by simp [lookup_commit]⟩
    · refine .inl ?_
      rwa [lookup_commit, if_neg here]
  | advanced _ answer => exact absurd rfl (still _ answer)
  | writerEnded => exact .inl present
  | mediaEnded task => simp [Event.ofTasks] at own
  | routed source task => simp [Event.ofTasks] at own

/-- Where a connection comes from that stands after a step that is no section of a
handler: it stood there, is new, or something arrived at the top of its loop. -/
theorem connection_still (stepped : world.step config event = some after)
    (own : event.ofTasks = false) (still : ∀ id answer, event ≠ .advance id answer)
    {id : WsSink} {connection : Connection}
    (present : after.connections.lookup id = some connection) :
    world.connections.lookup id = some connection ∨
      (connection.participantId = none ∧ connection.point = .idle) ∨
      ∃ earlier turn, world.connections.lookup id = some earlier ∧
        Arrival config world id earlier turn ∧ connection = turn.connection := by
  cases world.step_outcome config after event stepped with
  | connected =>
    rw [Table.lookup_insert_eq] at present
    split at present
    · cases present
      exact .inr (.inl ⟨rfl, rfl⟩)
    · exact .inl present
  | arrived _ arrivedAt earlier turn found arrival =>
    rw [lookup_commit] at present
    split at present
    · rename_i here
      cases present
      exact .inr (.inr ⟨earlier, turn, here ▸ found, here ▸ arrival, rfl⟩)
    · exact .inl present
  | advanced _ answer => exact absurd rfl (still _ answer)
  | writerEnded => exact .inl present
  | mediaEnded task => simp [Event.ofTasks] at own
  | routed source task => simp [Event.ofTasks] at own

end World

end Seameet
