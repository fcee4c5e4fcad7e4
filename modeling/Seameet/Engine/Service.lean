import Seameet.Library.Mailbox
import Seameet.Engine.Stepping
import Seameet.Engine.Commands
import Seameet.Engine.Registration
import Seameet.Media.Holding

/-!
# The whole media server

The engine, the media tasks it starts and the reader of the UDP socket run side
by side. A media task takes the commands of its channel one at a time, first in
first out, and between them drains what its connection reports; what it sends
goes by the entries of the shared map its room had when it was started. The
engine's handlers send to the same channels from the other side, and so does the
reader, which looks an address up in the route table in one step and sends on in
the next.

A channel is made with the entry that carries it, under the participant's own
name, so the participant and the entry's generation name the channel. It is open
until its task ends. Commands sent before the task is started wait.

Two records are not in the program: every command ever sent, and the screen-share
handlers that ran.
-/

namespace Seameet

open Library

/-- Max audio packets in flight for one peer. -/
def audioInflightCap : Nat := 128

/-- Max video and screen packets in flight for one peer. -/
def videoInflightCap : Nat := 512

/-- The channel of a registered peer: whose it is, and its generation. -/
structure Channel where
  pid : ParticipantId
  gen : Nat
deriving DecidableEq

/-- Where a command goes. -/
def Command.channel (command : Command) : Channel := ⟨command.peer, command.gen⟩

/-- A command as it is posted. -/
def Command.letter (command : Command) : Channel × PeerCmd := (command.channel, command.cmd)

/-- The channel a media task takes its commands from. -/
def MediaTask.channel (media : MediaTask) : Channel := ⟨media.pid, media.gen⟩

/-- A command that carries a packet of the counted kind. -/
def PeerCmd.carries (isAudio : Bool) : PeerCmd → Bool
  | .media packet => packet.isAudio == isAudio
  | _ => false

/-- How many packets of a kind wait in a queue. -/
def inflight (isAudio : Bool) (queue : List PeerCmd) : Nat := queue.countP (PeerCmd.carries isAudio)

/-- Whether a queue takes one more packet of a kind. -/
def tryReserveMediaSlot (isAudio : Bool) (queue : List PeerCmd) : Bool :=
  inflight isAudio queue < if isAudio then audioInflightCap else videoInflightCap

/-- A running media task. -/
structure Process where
  media : MediaTask
  task : Task

/-- What a media task is started with, besides what its session says: the payload
types and lines of the answer, and the clock. -/
structure Launch where
  ownAudioPt : Nat
  ownVideoPt : Nat
  answer : SdpAnswer
  now : Nat

/-- The task of a launch. -/
def Launch.process (launch : Launch) (media : MediaTask) : Process :=
  { media, task := Task.start media.pid launch.ownAudioPt launch.ownVideoPt media.roomId launch.now
      launch.answer }

/-- A datagram the reader holds, with the owner it found for its address. -/
structure Datagram where
  data : List UInt8
  source : SocketAddr
  target : Option ParticipantId

/-- The engine, its media tasks and the reader of the socket. -/
structure Service where
  world : World
  processes : Table Channel Process
  queues : Mailboxes Channel PeerCmd
  /-- The channels whose receiving half is dropped. -/
  ended : List Channel
  reading : Option Datagram
  /-- Whose screen share was started or stopped, newest first. -/
  shares : List (ParticipantId × Bool)

/-- What happens next. -/
inductive ServiceEvent where
  /-- A step of the engine, and what a media task is started with if it starts one. -/
  | engine (event : Event) (launch : Launch)
  /-- A media task takes the next command. -/
  | takes (channel : Channel) (rtc : Rtc)
  /-- A media task drains its connection. -/
  | drains (channel : Channel) (rtc : Rtc) (events : List RtcEvent)
  /-- A media task ends. -/
  | ends (channel : Channel)
  /-- The reader receives a datagram and looks its address up. -/
  | arrives (data : List UInt8) (source : SocketAddr)
  /-- The reader sends the datagram on. -/
  | reads

/-- What a section records of screen shares: whom it tells to share, and whose
flag it sets or clears. -/
def Connection.shareMarks (connection : Connection) : List (ParticipantId × Bool) :=
  match connection.point, connection.participantId with
  | .handling handled (.act _), some _ =>
      match handled.message with
      | .screenShareStarted sender _ _ => [(sender, true)]
      | _ => []
  | .handling handled .mediaState, some pid =>
      match handled.message with
      | .screenShareStarted _ _ _ => [(pid, true)]
      | .screenShareStopped _ _ _ => [(pid, false)]
      | _ => []
  | _, _ => []

/-- What an event of the engine records of screen shares. -/
def World.shareMarks (world : World) : Event → List (ParticipantId × Bool)
  | .advance id _ => ((world.connections.lookup id).map Connection.shareMarks).getD []
  | _ => []

namespace Service

/-- A server nobody has connected to. -/
def new (e2eeRequired : Bool) : Service :=
  { world := .new e2eeRequired, processes := ∅, queues := ∅, ended := [], reading := none,
    shares := [] }

/-- What waits in a channel. -/
def queueOf (service : Service) (channel : Channel) : List PeerCmd :=
  service.queues.waiting channel

/-- Everything ever sent to a channel. -/
def sentTo (service : Service) (channel : Channel) : List PeerCmd :=
  addressed channel (service.world.commands.map Command.letter)

/-- The map a media task shares. -/
def peersOf (service : Service) (media : MediaTask) : Peers :=
  service.world.sfu.peersOf media.peers

/-- Send commands. -/
def send (service : Service) (commands : List Command) : Service :=
  { service with
    world := { service.world with commands := service.world.commands ++ commands }
    queues := service.queues.postAll service.ended (commands.map Command.letter) }

/-- The commands by which a packet is offered to the other peers of a map; one with
too many in flight is passed over. -/
def offered (service : Service) (media : MediaTask) (packet : ForwardedMedia) : List Command :=
  ((service.peersOf media).entries.filter fun entry =>
    entry.1 ≠ media.pid &&
      tryReserveMediaSlot packet.isAudio (service.queueOf ⟨entry.1, entry.2.gen⟩)).map fun entry =>
    { peer := entry.1, gen := entry.2.gen, cmd := .media packet }

/-- What a media task does outside its own locals. A reply goes to the handler that
waits for it, which takes any answer. -/
def perform (media : MediaTask) (service : Service) : Output → Service
  | .keyframe peer => service.send ((service.peersOf media).tellOne peer .requestKeyframe)
  | .ws frame =>
      { service with
        world := { service.world with sent := service.world.sent ++ [(media.wsTx, frame)] } }
  | .route source =>
      { service with
        world := { service.world with sfu := service.world.sfu.addRoute source media.pid } }
  | .fanOut packet => service.send (service.offered media packet)
  | .rtp _ | .rtpDropped _ | .pli _ | .reply _ => service

/-- Perform outputs in order. -/
def performAll (media : MediaTask) (service : Service) (outputs : List Output) : Service :=
  outputs.foldl (perform media) service

/-- A media task's turn is over: its locals are as the turn leaves them, and then
its outputs happen. -/
def commit (service : Service) (channel : Channel) (process : Process)
    (turned : Task × List Output) : Service :=
  performAll process.media
    { service with
      processes := service.processes.insert channel { process with task := turned.1 } } turned.2

/-- What a turn is told of the connection and of the shared map. -/
def told (service : Service) (process : Process) (rtc : Rtc) : Rtc :=
  { rtc with peers := (service.peersOf process.media).keys }

/-- Start the media tasks a section has entered. -/
def launched (processes : Table Channel Process) (launch : Launch) (entered : List MediaTask) :
    Table Channel Process :=
  entered.foldl (fun processes media => processes.insert media.channel (launch.process media))
    processes

/-- Take over a step of the engine. -/
def follow (service : Service) (event : Event) (launch : Launch) (after : World) : Service :=
  { service with
    world := after
    processes := launched service.processes launch
      (after.sfu.mediaTasks.drop service.world.sfu.mediaTasks.length)
    queues := service.queues.postAll service.ended
      ((after.commands.drop service.world.commands.length).map Command.letter)
    shares := service.world.shareMarks event ++ service.shares }

/-- One step; none when the event cannot happen. -/
def step (config : Config) (service : Service) : ServiceEvent → Option Service
  | .engine event launch =>
      if event.ofTasks then none
      else (service.world.step config event).map (service.follow event launch)
  | .takes channel rtc =>
      match service.processes.lookup channel, service.queueOf channel with
      | some process, cmd :: rest =>
          some ({ service with queues := service.queues.insert channel rest }.commit channel process
            (process.task.handle (service.told process rtc) cmd))
      | _, _ => none
  | .drains channel rtc events =>
      (service.processes.lookup channel).map fun process =>
        service.commit channel process
          (process.task.drainOutputs (service.told process rtc) events)
  | .ends channel =>
      (service.processes.lookup channel).map fun process =>
        { service with
          world := { service.world with sfu := service.world.sfu.endMediaTask process.media }
          processes := service.processes.erase channel
          queues := service.queues.erase channel
          ended := channel :: service.ended }
  | .arrives data source =>
      match service.reading with
      | some _ => none
      | none =>
          some { service with
            reading := some { data, source, target := service.world.sfu.routes.lookup source } }
  | .reads =>
      service.reading.map fun datagram =>
        let cmd := PeerCmd.udpPacket datagram.data datagram.source
        let commands :=
          match datagram.target with
          | some pid => service.world.sfu.allPeers.tellOne pid cmd
          | none => service.world.sfu.allPeers.tell (fun _ => true) cmd
        { service.send commands with reading := none }

/-- No handler is mid-way and nothing waits in a channel. -/
def Quiet (service : Service) : Prop :=
  (∀ channel, service.queueOf channel = []) ∧
    ∀ id connection, service.world.connections.lookup id = some connection →
      connection.point.atRest = true

instance (service : Service) : Decidable service.Quiet :=
  decidable_of_iff ((service.queues.Every fun _ waiting => waiting = []) ∧
      service.world.connections.Every fun _ connection => connection.point.atRest = true) <| by
    refine and_congr ⟨fun each channel => ?_, fun each channel waiting present => ?_⟩ Iff.rfl
    · cases stored : service.queues.lookup channel with
      | none => simp [queueOf, Mailboxes.waiting, stored]
      | some waiting => simpa [queueOf, Mailboxes.waiting, stored] using each channel waiting stored
    · simpa [queueOf, Mailboxes.waiting, present] using each channel

section Send

variable (service : Service) (commands : List Command) (channel : Channel)

/-- Sending appends to each open channel what goes there. -/
theorem queueOf_send : (service.send commands).queueOf channel =
    service.queueOf channel ++
      if channel ∈ service.ended then [] else addressed channel (commands.map Command.letter) :=
  service.queues.waiting_postAll service.ended channel (commands.map Command.letter)

variable {service commands} in
/-- What a step records is sent to the channels it names. -/
theorem sentTo_append {after : Service}
    (recorded : after.world.commands = service.world.commands ++ commands) :
    after.sentTo channel =
      service.sentTo channel ++ addressed channel (commands.map Command.letter) := by
  rw [sentTo, recorded, List.map_append, addressed_append]
  rfl

/-- A command sent to a channel is one of those sent. -/
theorem mem_addressed_letters (cmd : PeerCmd) :
    cmd ∈ addressed channel (commands.map Command.letter) ↔
      ∃ command ∈ commands, command.channel = channel ∧ command.cmd = cmd := by
  rw [mem_addressed, List.mem_map]
  simp only [Command.letter, Prod.mk.injEq]

end Send

/-- What performing a media task's outputs does to the rest of the server. Each
command sent on the way asks for a keyframe or offers a fanned-out packet to
another peer of the task's map, and each new route leads to the task. -/
structure Performed (media : MediaTask) (outputs : List Output) (posted : List Command)
    (before after : Service) : Prop where
  processes : after.processes = before.processes
  ended : after.ended = before.ended
  reading : after.reading = before.reading
  shares : after.shares = before.shares
  connections : after.world.connections = before.world.connections
  nextConnection : after.world.nextConnection = before.world.nextConnection
  signaling : after.world.signaling = before.world.signaling
  sfu : after.world.sfu = { before.world.sfu with routes := after.world.sfu.routes }
  commands : after.world.commands = before.world.commands ++ posted
  queueOf : ∀ channel, after.queueOf channel = before.queueOf channel ++
    if channel ∈ before.ended then [] else addressed channel (posted.map Command.letter)
  each : ∀ command ∈ posted, command.cmd = .requestKeyframe ∨
    ∃ packet, command.cmd = .media packet ∧ Output.fanOut packet ∈ outputs ∧
      ∃ other ∈ (before.peersOf media).keys, other ≠ media.pid
  routes : ∀ source pid, after.world.sfu.routes.lookup source = some pid →
    before.world.sfu.routes.lookup source = some pid ∨
      (Output.route source ∈ outputs ∧ pid = media.pid)

namespace Performed

variable {media : MediaTask} {before after last : Service}

/-- Without outputs nothing changes. -/
theorem refl (service : Service) : Performed media [] [] service service :=
  { processes := rfl, ended := rfl, reading := rfl, shares := rfl, connections := rfl,
    nextConnection := rfl, signaling := rfl, sfu := rfl, commands := by simp, queueOf := by simp, each := by simp,
    routes := fun _ _ stored => .inl stored }

/-- Sending commands of the two kinds. -/
theorem sends (service : Service) (commands : List Command) (output : Output)
    (each : ∀ command ∈ commands, command.cmd = .requestKeyframe ∨
      ∃ packet, command.cmd = .media packet ∧ Output.fanOut packet ∈ [output] ∧
        ∃ other ∈ (service.peersOf media).keys, other ≠ media.pid) :
    Performed media [output] commands service (service.send commands) :=
  { processes := rfl, ended := rfl, reading := rfl, shares := rfl, connections := rfl,
    nextConnection := rfl, signaling := rfl, sfu := rfl, commands := rfl,
    queueOf := fun channel => service.queueOf_send commands channel, each
    routes := fun _ _ stored => .inl stored }

/-- The map a media task shares stays as it is. -/
theorem peersOf {outputs : List Output} {posted : List Command}
    (performed : Performed media outputs posted before after) (other : MediaTask) :
    after.peersOf other = before.peersOf other := by
  unfold Service.peersOf SfuServer.peersOf
  rw [performed.sfu]

/-- One output after another. -/
theorem trans {first second : List Output} {early late : List Command}
    (one : Performed media first early before after)
    (two : Performed media second late after last) :
    Performed media (first ++ second) (early ++ late) before last where
  processes := two.processes.trans one.processes
  ended := two.ended.trans one.ended
  reading := two.reading.trans one.reading
  shares := two.shares.trans one.shares
  connections := two.connections.trans one.connections
  nextConnection := two.nextConnection.trans one.nextConnection
  signaling := two.signaling.trans one.signaling
  sfu := by rw [two.sfu, one.sfu]
  commands := by rw [two.commands, one.commands, List.append_assoc]
  queueOf := by
    intro channel
    rw [two.queueOf, one.queueOf, one.ended]
    by_cases shut : channel ∈ before.ended <;> simp [shut]
  each := by
    intro command sent
    rcases List.mem_append.mp sent with now | later
    · rcases one.each command now with keyframe | ⟨packet, cmd, fanned, others⟩
      · exact .inl keyframe
      · exact .inr ⟨packet, cmd, List.mem_append_left _ fanned, others⟩
    · rcases two.each command later with keyframe | ⟨packet, cmd, fanned, others⟩
      · exact .inl keyframe
      · rw [one.peersOf] at others
        exact .inr ⟨packet, cmd, List.mem_append_right _ fanned, others⟩
  routes := by
    intro source pid stored
    rcases two.routes source pid stored with earlier | ⟨routed, own⟩
    · rcases one.routes source pid earlier with old | ⟨routed, own⟩
      · exact .inl old
      · exact .inr ⟨List.mem_append_left _ routed, own⟩
    · exact .inr ⟨List.mem_append_right _ routed, own⟩

end Performed

/-- One output is performed with some commands. -/
theorem perform_spec (media : MediaTask) (service : Service) (output : Output) :
    ∃ posted, Performed media [output] posted service (perform media service output) := by
  cases output with
  | keyframe peer =>
    refine ⟨_, .sends service _ _ ?_⟩
    intro command sent
    exact .inl (Peers.mem_tellOne sent).2
  | fanOut packet =>
    refine ⟨_, .sends service _ _ ?_⟩
    intro command sent
    simp only [offered, List.mem_map, List.mem_filter, Bool.and_eq_true, decide_eq_true_eq] at sent
    obtain ⟨entry, ⟨listed, apart, _⟩, rfl⟩ := sent
    exact .inr ⟨packet, rfl, List.mem_singleton_self _, entry.1,
      List.mem_map_of_mem (f := Sigma.fst) listed, apart⟩
  | route source =>
    refine ⟨[], { (Performed.refl service : Performed media _ _ _ _) with
      sfu := rfl, each := by simp, queueOf := by simp [queueOf, perform], routes := ?_ }⟩
    intro tested pid stored
    simp only [perform, SfuServer.addRoute, Table.lookup_insert_eq] at stored
    split at stored
    · rename_i same
      exact .inr ⟨by simp [same], (Option.some.inj stored).symm⟩
    · exact .inl stored
  | ws frame | rtp write | rtpDropped write | pli mid | reply sdp =>
    exact ⟨[], { (Performed.refl service : Performed media _ _ _ _) with
      each := by simp, routes := fun _ _ stored => .inl stored, sfu := rfl,
      queueOf := by simp [queueOf, perform] }⟩

/-- Outputs are performed one after another, with some commands. -/
theorem performAll_spec (media : MediaTask) (service : Service) (outputs : List Output) :
    ∃ posted, Performed media outputs posted service (performAll media service outputs) := by
  induction outputs generalizing service with
  | nil => exact ⟨[], .refl service⟩
  | cons output rest inductionHypothesis =>
    obtain ⟨early, one⟩ := perform_spec media service output
    obtain ⟨late, two⟩ := inductionHypothesis (perform media service output)
    exact ⟨early ++ late, one.trans two⟩

/-- What a step does, with its guards. -/
inductive Taken (config : Config) (service : Service) : ServiceEvent → Service → Prop
  /-- A step of the engine that is no section of a handler. -/
  | still (event : Event) (launch : Launch) (after : World)
      (stepped : service.world.step config event = some after) (own : event.ofTasks = false)
      (still : ∀ id answer, event ≠ .advance id answer)
      (commands : after.commands = service.world.commands) (sfu : after.sfu = service.world.sfu)
      (signaling : after.signaling = service.world.signaling) :
      Taken config service (.engine event launch) { service with world := after }
  /-- A section of a handler. -/
  | advanced (id : WsSink) (answer : Option String) (launch : Launch) (connection : Connection)
      (turn : Turn) (entered : List MediaTask)
      (present : service.world.connections.lookup id = some connection)
      (taken : connection.advance config service.world id answer = some turn)
      (enters : turn.sfu.mediaTasks = service.world.sfu.mediaTasks ++ entered) :
      Taken config service (.engine (.advance id answer) launch)
        { service with
          world := service.world.commit id turn
          processes := launched service.processes launch entered
          queues := service.queues.postAll service.ended (turn.commands.map Command.letter)
          shares := connection.shareMarks ++ service.shares }
  /-- A media task takes a command. -/
  | took (channel : Channel) (rtc : Rtc) (process : Process) (cmd : PeerCmd) (rest : List PeerCmd)
      (posted : List Command) (after : Service)
      (present : service.processes.lookup channel = some process)
      (waiting : service.queueOf channel = cmd :: rest)
      (performed : Performed process.media
        (process.task.handle (service.told process rtc) cmd).2 posted
        { service with
          processes := service.processes.insert channel
            { process with task := (process.task.handle (service.told process rtc) cmd).1 }
          queues := service.queues.insert channel rest } after) :
      Taken config service (.takes channel rtc) after
  /-- A media task drains its connection. -/
  | drained (channel : Channel) (rtc : Rtc) (events : List RtcEvent) (process : Process)
      (posted : List Command) (after : Service)
      (present : service.processes.lookup channel = some process)
      (performed : Performed process.media
        (process.task.drainOutputs (service.told process rtc) events).2 posted
        { service with
          processes := service.processes.insert channel
            { process with
              task := (process.task.drainOutputs (service.told process rtc) events).1 } } after) :
      Taken config service (.drains channel rtc events) after
  | endsTask (channel : Channel) (process : Process)
      (present : service.processes.lookup channel = some process) :
      Taken config service (.ends channel)
        { service with
          world := { service.world with sfu := service.world.sfu.endMediaTask process.media }
          processes := service.processes.erase channel
          queues := service.queues.erase channel
          ended := channel :: service.ended }
  | arrived (data : List UInt8) (source : SocketAddr) (idle : service.reading = none) :
      Taken config service (.arrives data source)
        { service with
          reading := some { data, source, target := service.world.sfu.routes.lookup source } }
  /-- The reader sends a datagram on. -/
  | read (datagram : Datagram) (commands : List Command)
      (held : service.reading = some datagram)
      (each : ∀ command ∈ commands, command.cmd = .udpPacket datagram.data datagram.source) :
      Taken config service .reads { service.send commands with reading := none }

variable {config : Config} {service after : Service} {event : ServiceEvent}

/-- Every step is one of these. -/
theorem step_taken (stepped : service.step config event = some after) :
    Taken config service event after := by
  cases event with
  | engine event launch =>
    simp only [step] at stepped
    split at stepped
    · simp at stepped
    · rename_i own
      obtain ⟨world, moved, rfl⟩ := Option.map_eq_some_iff.mp stepped
      rcases World.step_cases moved (Bool.eq_false_iff.mpr own) with
        ⟨commands, sfu, signaling, still⟩ | ⟨id, answer, connection, turn, rfl, present, taken, rfl⟩
      · have marks : service.world.shareMarks event = [] := by
          cases event with
          | advance id answer => exact absurd rfl (still id answer)
          | _ => rfl
        have same : service.follow event launch world = { service with world } := by
          simp [follow, commands, sfu, marks, launched, Mailboxes.postAll]
        rw [same]
        exact .still event launch world moved (Bool.eq_false_iff.mpr own) still commands sfu signaling
      · obtain ⟨entered, enters, _⟩ := Connection.advance_mediaTasks taken
        have same : service.follow (.advance id answer) launch (service.world.commit id turn) =
            { service with
              world := service.world.commit id turn
              processes := launched service.processes launch entered
              queues := service.queues.postAll service.ended (turn.commands.map Command.letter)
              shares := connection.shareMarks ++ service.shares } := by
          simp [follow, World.commit, enters, World.shareMarks, present]
        rw [same]
        exact .advanced id answer launch connection turn entered present taken enters
  | takes channel rtc =>
    simp only [step] at stepped
    split at stepped
    · rename_i process cmd rest present waiting
      cases stepped
      obtain ⟨posted, performed⟩ := performAll_spec process.media
        { service with
          processes := service.processes.insert channel
            { process with task := (process.task.handle (service.told process rtc) cmd).1 }
          queues := service.queues.insert channel rest }
        (process.task.handle (service.told process rtc) cmd).2
      exact .took channel rtc process cmd rest posted _ present waiting performed
    · simp at stepped
  | drains channel rtc events =>
    obtain ⟨process, present, rfl⟩ := Option.map_eq_some_iff.mp stepped
    obtain ⟨posted, performed⟩ := performAll_spec process.media
      { service with
        processes := service.processes.insert channel
          { process with
            task := (process.task.drainOutputs (service.told process rtc) events).1 } }
      (process.task.drainOutputs (service.told process rtc) events).2
    exact .drained channel rtc events process posted _ present performed
  | ends channel =>
    obtain ⟨process, present, rfl⟩ := Option.map_eq_some_iff.mp stepped
    exact .endsTask channel process present
  | arrives data source =>
    simp only [step] at stepped
    split at stepped
    · simp at stepped
    · rename_i idle
      cases stepped
      exact .arrived data source idle
  | reads =>
    obtain ⟨datagram, held, rfl⟩ := Option.map_eq_some_iff.mp stepped
    refine .read datagram _ held ?_
    intro command sent
    split at sent
    · exact (Peers.mem_tellOne sent).2
    · exact (Peers.mem_tell sent).2

/-- A launched task is one of those entered, or was running before. -/
theorem lookup_launched {processes : Table Channel Process} {launch : Launch}
    {entered : List MediaTask} {channel : Channel} {process : Process}
    (present : (launched processes launch entered).lookup channel = some process) :
    processes.lookup channel = some process ∨
      ∃ media ∈ entered, media.channel = channel ∧ process = launch.process media := by
  induction entered generalizing processes with
  | nil => exact .inl present
  | cons media rest inductionHypothesis =>
    rcases inductionHypothesis present with earlier | ⟨later, member, named, started⟩
    · rw [Table.lookup_insert_eq] at earlier
      split at earlier
      · rename_i here
        exact .inr ⟨media, List.mem_cons_self, here.symm, (Option.some.inj earlier).symm⟩
      · exact .inl earlier
    · exact .inr ⟨later, List.mem_cons_of_mem _ member, named, started⟩

/-- Every step keeps the names of connections that are yet to be given. -/
theorem fresh_step (fresh : service.world.Fresh) (stepped : service.step config event = some after) :
    after.world.Fresh := by
  cases step_taken stepped with
  | still engineEvent launch world moved => exact fresh.step engineEvent moved
  | advanced id answer launch connection turn entered present => exact fresh.commit turn present
  | took tested rtc process cmd rest posted _ present waiting performed =>
    have same := performed.connections
    have count : after.world.nextConnection = service.world.nextConnection := performed.nextConnection
    intro id beyond
    rw [same]
    exact fresh id (count ▸ beyond)
  | drained tested rtc events process posted _ present performed =>
    have same := performed.connections
    have count : after.world.nextConnection = service.world.nextConnection := performed.nextConnection
    intro id beyond
    rw [same]
    exact fresh id (count ▸ beyond)
  | endsTask | arrived | read => exact fresh

/-- In every state reached the names yet to be given are free. -/
theorem fresh_of_reaches {admitted : Service → ServiceEvent → Prop} {e2eeRequired : Bool}
    (reached : Reaches (Service.step config) admitted (new e2eeRequired) service) :
    service.world.Fresh :=
  reached.invariant (fun service => service.world.Fresh) (fun _ _ => rfl)
    fun _ _ _ fresh _ stepped => fresh_step fresh stepped

/-- Every step keeps the points fitting. -/
theorem fitting_step (fitting : service.world.Fitting config)
    (stepped : service.step config event = some after) : after.world.Fitting config := by
  cases step_taken stepped with
  | still engineEvent launch world moved => exact World.fitting_step engineEvent fitting moved
  | advanced id answer launch connection turn entered present taken =>
    intro tested found known
    rw [World.lookup_commit] at known
    split at known
    · cases known
      exact World.advance_fits (fitting id connection present) taken
    · exact fitting tested found known
  | took _ _ _ _ _ _ _ _ _ performed | drained _ _ _ _ _ _ _ performed =>
    intro tested found known
    rw [performed.connections] at known
    exact fitting tested found known
  | endsTask | arrived | read => exact fitting

/-- In every state reached the points fit. -/
theorem fitting_of_reaches {admitted : Service → ServiceEvent → Prop} {e2eeRequired : Bool}
    (reached : Reaches (Service.step config) admitted (new e2eeRequired) service) :
    service.world.Fitting config :=
  reached.invariant (fun service => service.world.Fitting config)
    (fun _ _ present => by simp [new, World.new] at present)
    fun _ _ _ fitting _ stepped => fitting_step fitting stepped

/-- Every media task runs on its own channel and keeps what waits with its source. -/
structure Owned (service : Service) : Prop where
  each : ∀ channel process, service.processes.lookup channel = some process →
    process.media.channel = channel ∧ process.task.pid = channel.pid ∧ process.task.ParkedOwn

namespace Owned

/-- A task that has had a turn is still its channel's own. -/
theorem turned (owned : Owned service) {channel : Channel} {process : Process} {task : Task}
    (present : service.processes.lookup channel = some process) (pid : task.pid = process.task.pid)
    (waiting : process.task.ParkedOwn → task.ParkedOwn)
    (processes : after.processes = service.processes.insert channel { process with task }) :
    Owned after := by
  refine ⟨fun tested found running => ?_⟩
  rw [processes, Table.lookup_insert_eq] at running
  split at running
  · rename_i here
    obtain ⟨named, named', own⟩ := owned.each channel process present
    cases running
    subst here
    exact ⟨named, pid.trans named', waiting own⟩
  · exact owned.each tested found running

/-- Every step keeps the tasks on their own channels. -/
theorem step (owned : Owned service) (stepped : service.step config event = some after) :
    Owned after := by
  cases step_taken stepped with
  | still | arrived | read => exact ⟨owned.each⟩
  | advanced id answer launch connection turn entered present taken enters =>
    refine ⟨fun channel process running => ?_⟩
    rcases lookup_launched running with earlier | ⟨media, _, named, rfl⟩
    · exact owned.each channel process earlier
    · subst named
      refine ⟨rfl, ?_, ?_⟩
      · exact (Task.start_frame media.pid _ _ media.roomId _ _).1
      · intro source waiting member
        have fresh := (Task.start_fresh media.pid launch.ownAudioPt launch.ownVideoPt media.roomId
          launch.now launch.answer).2
        simp [Launch.process, Task.parked, fresh] at member
  | took channel rtc process cmd rest posted _ present waiting performed =>
    refine owned.turned present ?_ ?_ performed.processes
    · exact (process.task.handle_frame (service.told process rtc) cmd).1
    · exact fun own => process.task.handle_own (service.told process rtc) own cmd
  | drained channel rtc events process posted _ present performed =>
    refine owned.turned present ?_ ?_ performed.processes
    · exact (process.task.drainOutputs_frame (service.told process rtc) events).1
    · intro own source waiting member
      obtain ⟨_, _, buffers, _, _⟩ := process.task.drainOutputs_quiet (service.told process rtc) events
      rw [Task.parked, buffers] at member
      exact own source waiting member
  | endsTask channel process present =>
    refine ⟨fun tested found running => ?_⟩
    rw [Table.lookup_erase_eq] at running
    split at running
    · simp at running
    · exact owned.each tested found running

/-- In every state reached each media task is its channel's own. -/
theorem of_reaches {admitted : Service → ServiceEvent → Prop} {e2eeRequired : Bool}
    (reached : Reaches (Service.step config) admitted (new e2eeRequired) service) :
    Owned service :=
  reached.invariant Owned ⟨fun _ _ running => by simp [new] at running⟩
    fun _ _ _ owned _ stepped => owned.step stepped

end Owned

end Service

/-- A media task with one pair of lines besides its participant's own. -/
def Launch.onePair : Launch :=
  { ownAudioPt := 111, ownVideoPt := 96, answer := Task.onePair, now := 0 }

/-- Events of the engine in a row. -/
def ServiceEvent.engines (events : List Event) (launch : Launch := .onePair) : List ServiceEvent :=
  events.map fun event => .engine event launch

/-- A participant connects, joins a room, and its offer starts a media task. -/
def ServiceEvent.enters (id : WsSink) (participant : ParticipantId) (roomId : RoomId)
    (launch : Launch := .onePair) : List ServiceEvent :=
  engines (.connect :: Event.firstJoin id participant roomId ++ Event.offer id participant roomId)
    launch

/-- A message arrives on a connection, and so many sections of its handler follow. -/
def ServiceEvent.says (id : WsSink) (message : SdpMessage) (count : Nat) : List ServiceEvent :=
  engines (.receive id "" (some message) (.ok ()) true :: List.replicate count (.advance id (some "")))

/-- A connection ends, and so many sections of its cleanup follow. -/
def ServiceEvent.departs (id : WsSink) (count : Nat) : List ServiceEvent :=
  engines (.hangUp id :: Event.sections id count)

/-- A media task hears an audio packet from its participant's browser. -/
def ServiceEvent.hears (channel : Channel) : ServiceEvent :=
  .drains channel (Rtc.plain (fun _ => none) 0)
    [.rtpPacket { payloadType := 111, ssrc := 1, seqNo := 0, timestamp := 0, marker := false,
                  payload := [] }]

/-- A media task takes a number of commands. -/
def ServiceEvent.takesAll (channel : Channel) (count : Nat) : List ServiceEvent :=
  List.replicate count (.takes channel (Rtc.plain (fun _ => none) 0))

end Seameet
