import Seameet.Engine.Backlog
import Mathlib.Data.List.Perm.Basic

/-!
# Relayed media

A packet that a browser sends is read by its participant's media task, offered to the
channels of the other peers, and written to their connections at once or after it has
waited for a slot. On the way it may be passed over, dropped or outrun. It is never
written twice to one connection, written to the connection of its own participant, made
up, or changed in anything but the payload type and the number, which are those of the
line it is written on: counted with repetitions, what a task has written of a source,
still keeps of it and will take from its channel is among what that source's browser has
sent.

The records of what browsers sent and of what was written are not in the program.
-/

namespace Seameet

open Library

/-- What a packet is, apart from where it is on its way. -/
structure Content where
  payloadType : Nat
  seqNo : Nat
  timestamp : Nat
  marker : Bool
  payload : List UInt8
deriving DecidableEq

/-- What of a packet goes along with it: its payload and every field of its header. -/
def RtpPacket.content (packet : RtpPacket) : Content :=
  { payloadType := packet.payloadType, seqNo := packet.seqNo, timestamp := packet.timestamp,
    marker := packet.marker, payload := packet.payload }

/-- What of forwarded media goes along with it: its payload and every field of its header. -/
def ForwardedMedia.content (packet : ForwardedMedia) : Content :=
  { payloadType := packet.pt, seqNo := packet.seqNo, timestamp := packet.time,
    marker := packet.marker, payload := packet.payload }

/-- How often a content is among some packets. -/
def copies (content : Content) (packets : List ForwardedMedia) : Nat :=
  (packets.map ForwardedMedia.content).count content

/-- The packet a command carries. -/
def PeerCmd.packet : PeerCmd → Option ForwardedMedia
  | .media packet => some packet
  | _ => none

/-- The packets of a source that wait in a queue. -/
def carried (source : ParticipantId) (queue : List PeerCmd) : List ForwardedMedia :=
  packetsOf source (queue.filterMap PeerCmd.packet)

/-- The packet an output offers to the other peers. -/
def Output.fanned : Output → Option ForwardedMedia
  | .fanOut packet => some packet
  | _ => none

/-- The packet an event of the connection brings. -/
def RtcEvent.received : RtcEvent → Option RtpPacket
  | .rtpPacket packet => some packet
  | _ => none

/-- The copies in two stretches add up. -/
@[simp]
theorem copies_append (content : Content) (first second : List ForwardedMedia) :
    copies content (first ++ second) = copies content first + copies content second := by
  simp [copies]

/-- There is no copy in nothing. -/
@[simp]
theorem copies_nil (content : Content) : copies content [] = 0 := rfl

/-- Dropping media adds no copy. -/
theorem copies_le {first second : List ForwardedMedia} (content : Content)
    (among : first.Sublist second) : copies content first ≤ copies content second :=
  (among.map ForwardedMedia.content).count_le content

/-- The packets that two stretches of commands carry are those of the first and then of the
second. -/
@[simp]
theorem carried_append (source : ParticipantId) (first second : List PeerCmd) :
    carried source (first ++ second) = carried source first ++ carried source second := by
  simp [carried]

/-- The packets that commands carry are those of the first and then those of the rest. -/
theorem carried_cons (source : ParticipantId) (cmd : PeerCmd) (rest : List PeerCmd) :
    carried source (cmd :: rest) = packetsOf source cmd.packet.toList ++ carried source rest := by
  rw [carried, carried, ← packetsOf_append, List.filterMap_cons]
  cases cmd.packet <;> rfl

section Tasks

namespace Task

variable (rtc : Rtc) (task : Task)

/-- A written packet is the one that was to be written, and none more waits. -/
theorem write_conserves (opening : Task) (media : ForwardedMedia) (createdNew gained : Bool)
    (source : ParticipantId) :
    (((opening.writeForwardedRtp rtc media).1.announceSource rtc media.sourcePid createdNew
        gained).1.parked source = opening.parked source) ∧
      (forwardedOf source ((opening.writeForwardedRtp rtc media).2 ++
        ((opening.writeForwardedRtp rtc media).1.announceSource rtc media.sourcePid createdNew
          gained).2)).Sublist (packetsOf source [media]) := by
  obtain ⟨kept, _, handed⟩ := opening.writeForwardedRtp_order rtc media
  obtain ⟨pending, framed⟩ := (opening.writeForwardedRtp rtc media).1.announceSource_frame rtc
    media.sourcePid createdNew gained
  constructor
  · simp only [parked, framed, kept]
  · rw [forwardedOf_append, forwardedOf_quiet source (announceSource_writes rtc _ _ _ _),
      List.append_nil]
    exact handed source

/-- A `Media` command's packet is written, waits or is dropped. -/
theorem forward_conserves (media : ForwardedMedia) (source : ParticipantId) (content : Content) :
    copies content (forwardedOf source (task.forward rtc media).2) +
        copies content ((task.forward rtc media).1.parked source) ≤
      copies content (task.parked source) + copies content (packetsOf source [media]) := by
  have outcome := task.forward_outcome rtc media
  generalize task.forward rtc media = result at outcome ⊢
  cases outcome with
  | muted audio silenced =>
    have quiet : forwardedOf source ([] : List Output) = [] := rfl
    rw [quiet, copies_nil, Nat.zero_add]
    exact Nat.le_add_right _ _
  | parked heard absent noSlot =>
    have quiet : forwardedOf source ([] : List Output) = [] := rfl
    rw [quiet, copies_nil, Nat.zero_add]
    rcases (task.park_order media source).2 with same | ⟨here, longer⟩
    · rw [same]
      exact Nat.le_add_right _ _
    · have arrived : packetsOf source [media] = [media] := by simp [packetsOf, here]
      rw [longer, arrived, copies_append]
  | live heard slot stored gained =>
    obtain ⟨kept, handed⟩ := write_conserves rtc task media false gained source
    rw [kept, Nat.add_comm]
    exact Nat.add_le_add_left (copies_le content handed) _
  | opened heard slot slots opening absent ensured changed stored gained =>
    obtain ⟨kept, handed⟩ := write_conserves rtc opening media true gained source
    have same : opening.parked source = task.parked source := by rw [changed]; rfl
    rw [kept, same, Nat.add_comm]
    exact Nat.add_le_add_left (copies_le content handed) _

/-- What a command writes and leaves waiting of a source waited before or came with it. -/
theorem handle_conserves (own : task.ParkedOwn) (cmd : PeerCmd) (source : ParticipantId)
    (content : Content) :
    copies content (forwardedOf source (task.handle rtc cmd).2) +
        copies content ((task.handle rtc cmd).1.parked source) ≤
      copies content (task.parked source) +
        copies content (packetsOf source cmd.packet.toList) := by
  -- a command that writes nothing and lets nothing more wait
  have silent : ∀ after : Task, (after.parked source = task.parked source ∨
      after.parked source = []) → copies content (forwardedOf source ([] : List Output)) +
        copies content (after.parked source) ≤ copies content (task.parked source) := by
    intro after fewer
    have quiet : forwardedOf source ([] : List Output) = [] := rfl
    rw [quiet, copies_nil, Nat.zero_add]
    rcases fewer with same | gone
    · rw [same]
    · rw [gone]
      exact Nat.zero_le _
  by_cases unconcerned : idle cmd = true
  · obtain ⟨_, _, _, buffers, quiet⟩ := task.handle_idle rtc cmd unconcerned
    have same : (task.handle rtc cmd).1.parked source = task.parked source := by
      rw [parked, parked, buffers]
    rw [forwardedOf_quiet source quiet, same, copies_nil, Nat.zero_add]
    exact Nat.le_add_right _ _
  · cases cmd with
    | media packet => exact task.forward_conserves rtc packet source content
    | renegotiationOffer sdp =>
      obtain ⟨emptied, handed⟩ := task.renegotiate_order rtc own sdp
      have fewer := copies_le content ((handed source).trans List.filter_sublist)
      have left : (task.handle rtc (.renegotiationOffer sdp)).1.parked source = [] := emptied source
      rw [left]
      exact fewer
    | screenShareActive active => cases active <;> exact silent _ (.inl rfl)
    | peerLeft left =>
      refine silent (task.peerLeft left) ?_
      by_cases here : source = left
      · subst here
        exact .inr (by simp [Task.peerLeft, parked])
      · exact .inl (by simp [Task.peerLeft, parked, here])
    | sourceScreenStopped stopped => exact silent _ (.inl rfl)
    | _ => simp [idle] at unconcerned

end Task

end Tasks

section Queues

namespace Service

variable {media : MediaTask} {service : Service} (channel : Channel) (source : ParticipantId)

/-- Commands without packets carry none. -/
theorem carried_none {queue : List PeerCmd} (empty : ∀ cmd ∈ queue, cmd.packet = none) :
    carried source queue = [] := by
  have none : queue.filterMap PeerCmd.packet = [] := List.filterMap_eq_nil_iff.mpr empty
  rw [carried, none]
  rfl

/-- A command that is sent to some of the peers in a map goes to each channel at most once. -/
theorem addressed_once {entries : List (Sigma fun _ : ParticipantId => SfuPeer)}
    (distinct : (entries.map Sigma.fst).Nodup)
    (addresses : Sigma (fun _ : ParticipantId => SfuPeer) → Bool) (cmd : PeerCmd) :
    (addressed channel (((entries.filter addresses).map fun entry =>
      ({ peer := entry.1, gen := entry.2.gen, cmd } : Command)).map Command.letter)).Sublist [cmd] := by
  induction entries with
  | nil => exact List.nil_sublist _
  | cons entry rest inductionHypothesis =>
    obtain ⟨absent, others⟩ := List.nodup_cons.mp distinct
    have later := inductionHypothesis others
    by_cases chosen : addresses entry = true
    · rw [List.filter_cons_of_pos chosen, List.map_cons, List.map_cons, addressed_cons]
      by_cases here : (⟨entry.1, entry.2.gen⟩ : Channel) = channel
      · -- no other entry has this participant's name
        have gone : addressed channel (((rest.filter addresses).map fun entry =>
            ({ peer := entry.1, gen := entry.2.gen, cmd } : Command)).map Command.letter) = [] := by
          rw [List.eq_nil_iff_forall_not_mem]
          intro other member
          obtain ⟨command, sent, named, _⟩ := (mem_addressed_letters _ _ _).mp member
          obtain ⟨again, listed, rfl⟩ := List.mem_map.mp sent
          have same : again.1 = entry.1 :=
            (congrArg Channel.pid named).trans (congrArg Channel.pid here).symm
          exact absent (same ▸ List.mem_map_of_mem (List.mem_filter.mp listed).1)
        rw [gone, List.append_nil]
        split
        · exact List.Sublist.refl _
        · exact List.nil_sublist _
      · have elsewhere : (Command.letter { peer := entry.1, gen := entry.2.gen, cmd }).1 ≠ channel :=
          here
        rw [if_neg elsewhere, List.nil_append]
        exact later
    · rw [List.filter_cons_of_neg chosen]
      exact later

/-- Performing an output adds to a channel at most the packet it offers, and nothing to
the task's own participant's. -/
theorem perform_carried (output : Output) :
    ∃ added, carried source ((perform media service output).queueOf channel) =
        carried source (service.queueOf channel) ++ added ∧
      added.Sublist (packetsOf source output.fanned.toList) ∧
      (channel.pid = media.pid → added = []) := by
  cases output with
  | fanOut packet =>
    refine ⟨_, by rw [perform, queueOf_send, carried_append], ?_, ?_⟩
    · split
      · exact List.nil_sublist _
      · have once := addressed_once channel (service.peersOf media).nodupKeys (fun entry =>
            entry.1 ≠ media.pid && tryReserveMediaSlot packet.isAudio
              (service.queueOf ⟨entry.1, entry.2.gen⟩)) (.media packet)
        exact (once.filterMap PeerCmd.packet).filter _
    · intro own
      split
      · rfl
      · have gone : addressed channel ((service.offered media packet).map Command.letter) = [] := by
          rw [List.eq_nil_iff_forall_not_mem]
          intro cmd member
          obtain ⟨command, sent, named, _⟩ := (mem_addressed_letters _ _ _).mp member
          obtain ⟨entry, listed, rfl⟩ := List.mem_map.mp sent
          have apart := (List.mem_filter.mp listed).2
          have same : entry.1 = media.pid := (congrArg Channel.pid named).trans own
          simp [same] at apart
        rw [gone]
        rfl
  | keyframe peer =>
    refine ⟨[], ?_, List.nil_sublist _, fun _ => rfl⟩
    rw [perform, queueOf_send, carried_append]
    refine congrArg _ (carried_none source ?_)
    intro cmd member
    split at member
    · cases member
    · obtain ⟨command, sent, _, rfl⟩ := (mem_addressed_letters _ _ _).mp member
      rw [(Peers.mem_tellOne sent).2]
      rfl
  | rtp | rtpDropped | pli | ws | reply | route =>
    exact ⟨[], (List.append_nil _).symm, List.nil_sublist _, fun _ => rfl⟩

/-- Performing outputs adds to a channel at most the packets they offer. -/
theorem performAll_carried (outputs : List Output) :
    ∃ added, carried source ((performAll media service outputs).queueOf channel) =
        carried source (service.queueOf channel) ++ added ∧
      added.Sublist (packetsOf source (outputs.filterMap Output.fanned)) ∧
      (channel.pid = media.pid → added = []) := by
  induction outputs generalizing service with
  | nil => exact ⟨[], (List.append_nil _).symm, List.nil_sublist _, fun _ => rfl⟩
  | cons output rest inductionHypothesis =>
    obtain ⟨first, here, among, none⟩ :=
      @perform_carried media service channel source output
    obtain ⟨second, later, further, nothing⟩ :=
      @inductionHypothesis (perform media service output)
    refine ⟨first ++ second, ?_, ?_, ?_⟩
    · show carried source ((performAll media (perform media service output) rest).queueOf channel) = _
      rw [later, here, List.append_assoc]
    · have split : (output :: rest).filterMap Output.fanned =
          output.fanned.toList ++ rest.filterMap Output.fanned := by
        rw [List.filterMap_cons]
        cases output.fanned <;> rfl
      rw [split, packetsOf_append]
      exact among.append further
    · intro own
      rw [none own, nothing own]
      rfl

end Service

end Queues

section Drains

namespace Task

variable (rtc : Rtc) (task : Task)

/-- Outputs that forward nothing fan nothing out. -/
theorem fanned_of_plain {outputs : List Output} (plain : ∀ output ∈ outputs, output.plain = true) :
    outputs.filterMap Output.fanned = [] := by
  refine List.filterMap_eq_nil_iff.mpr fun output member => ?_
  have none := plain output member
  cases output <;> simp [Output.plain] at none <;> rfl

/-- An event offers the packet it brings or none. -/
theorem drainEvent_fanned (event : RtcEvent) :
    (((task.drainEvent rtc event).2.filterMap Output.fanned).map ForwardedMedia.content).Sublist
      (event.received.toList.map RtpPacket.content) := by
  cases event with
  | rtpPacket packet =>
    simp only [drainEvent, receivePacket]
    split
    · exact List.nil_sublist _
    · exact List.Sublist.refl _
  | keyframeRequest =>
    have none : (task.drainEvent rtc .keyframeRequest).2.filterMap Output.fanned = [] :=
      fanned_of_plain (requestAllKeyframes_plain rtc task)
    rw [none]
    exact List.nil_sublist _
  | egressBitrateEstimate bps =>
    simp only [drainEvent]
    split <;> exact List.nil_sublist _
  | connected | iceRestarted | mediaAdded => exact List.nil_sublist _

/-- The events offer some of the packets they bring, in order. -/
theorem drainEvents_fanned (events : List RtcEvent) :
    (((drainEvents rtc task events).2.filterMap Output.fanned).map ForwardedMedia.content).Sublist
      ((events.filterMap RtcEvent.received).map RtpPacket.content) := by
  induction events generalizing task with
  | nil => exact List.nil_sublist _
  | cons event rest inductionHypothesis =>
    have first := task.drainEvent_fanned rtc event
    have later := inductionHypothesis (task.drainEvent rtc event).1
    have split : (event :: rest).filterMap RtcEvent.received =
        event.received.toList ++ rest.filterMap RtcEvent.received := by
      rw [List.filterMap_cons]
      cases event.received <;> rfl
    show ((((task.drainEvent rtc event).2 ++
      (drainEvents rtc (task.drainEvent rtc event).1 rest).2).filterMap Output.fanned).map
        ForwardedMedia.content).Sublist _
    rw [List.filterMap_append, List.map_append, split, List.map_append]
    exact first.append later

/-- What a drain offers is some of what it brings, all of it its own participant's. -/
theorem drainOutputs_fanned (events : List RtcEvent) :
    (((task.drainOutputs rtc events).2.filterMap Output.fanned).map ForwardedMedia.content).Sublist
        ((events.filterMap RtcEvent.received).map RtpPacket.content) ∧
      ∀ packet ∈ (task.drainOutputs rtc events).2.filterMap Output.fanned,
        packet.sourcePid = task.pid := by
  constructor
  · have started : (((addedMedia events).foldl addMedia
        (drainEvents rtc task events).1).startMedia rtc).2.filterMap Output.fanned = [] := by
      refine fanned_of_plain fun output member => ?_
      unfold startMedia at member
      split at member
      · rcases List.mem_append.mp member with own | others
        · exact requestOwn_plain rtc _ output own
        · exact requestAllKeyframes_plain rtc _ output others
      · cases member
    simp only [drainOutputs]
    rw [List.filterMap_append, started, List.append_nil]
    exact task.drainEvents_fanned rtc events
  · intro packet member
    obtain ⟨output, listed, fanned⟩ := List.mem_filterMap.mp member
    cases output with
    | fanOut media =>
      obtain rfl := Option.some.inj fanned
      rcases task.drainOutputs_outputs rtc events _ listed with
        plain | ⟨_, text⟩ | ⟨received, _, heard⟩
      · cases plain
      · cases text
      · exact (task.receivePacket_fanOut rtc received media heard).1
    | _ => cases fanned

end Task

end Drains

section Runs

/-- The server with what browsers sent, by participant, and what was written to each
connection. -/
structure Relay where
  service : Service
  heard : List (ParticipantId × RtpPacket)
  written : List (Channel × RtpWrite)

namespace Service

/-- What an event brings from a browser. -/
def hearing (service : Service) : ServiceEvent → List (ParticipantId × RtpPacket)
  | .drains channel _ events =>
    match service.processes.lookup channel with
    | some process => (events.filterMap RtcEvent.received).map (process.task.pid, ·)
    | none => []
  | _ => []

/-- What an event writes to a connection. -/
def writing (service : Service) : ServiceEvent → List (Channel × RtpWrite)
  | .takes channel rtc =>
    match service.processes.lookup channel, service.queueOf channel with
    | some process, cmd :: _ =>
      (writes (process.task.handle (service.told process rtc) cmd).2).map (channel, ·)
    | _, _ => []
  | .drains channel rtc events =>
    match service.processes.lookup channel with
    | some process =>
      (writes (process.task.drainOutputs (service.told process rtc) events).2).map (channel, ·)
    | none => []
  | _ => []

end Service

/-- What a participant's browsers sent. -/
def sentBy (heard : List (ParticipantId × RtpPacket)) (source : ParticipantId) : List RtpPacket :=
  (heard.filter fun heard => heard.1 = source).map Prod.snd

/-- The packets of a source that were written to a connection. -/
def handedTo (written : List (Channel × RtpWrite)) (channel : Channel) (source : ParticipantId) :
    List ForwardedMedia :=
  packetsOf source (((written.filter fun write => write.1 = channel).map Prod.snd).map
    RtpWrite.packet)

/-- The packets of a source that the task of a channel keeps waiting. -/
def Service.parkedAt (service : Service) (channel : Channel) (source : ParticipantId) :
    List ForwardedMedia :=
  match service.processes.lookup channel with
  | some process => process.task.parked source
  | none => []

/-- How often a source's browsers sent a content that a channel may come to hold. -/
def allowed (heard : List (ParticipantId × RtpPacket)) (channel : Channel) (source : ParticipantId)
    (content : Content) : Nat :=
  if source = channel.pid then 0 else ((sentBy heard source).map RtpPacket.content).count content

namespace Relay

/-- A server nobody has connected to. -/
def new (e2eeRequired : Bool) : Relay := { service := .new e2eeRequired, heard := [], written := [] }

/-- One step. -/
def step (config : Config) (relay : Relay) (event : ServiceEvent) : Option Relay :=
  (relay.service.step config event).map fun after =>
    { service := after
      heard := relay.heard ++ relay.service.hearing event
      written := relay.written ++ relay.service.writing event }

/-- Counted with repetitions, the packets of a source that were written to a connection,
wait there or are on their way to it are among what the source's browsers sent, and none
of them is the connection's own participant's. -/
def Conserves (relay : Relay) : Prop :=
  ∀ channel source content,
    copies content (handedTo relay.written channel source) +
        copies content (relay.service.parkedAt channel source) +
        copies content (carried source (relay.service.queueOf channel)) ≤
      allowed relay.heard channel source content

end Relay

/-- What was sent over two stretches is what was sent in the first and then in the second. -/
@[simp]
theorem sentBy_append (first second : List (ParticipantId × RtpPacket)) (source : ParticipantId) :
    sentBy (first ++ second) source = sentBy first source ++ sentBy second source := by
  simp [sentBy]

/-- What was handed over two stretches is what was handed in the first and then in the second.
-/
@[simp]
theorem handedTo_append (first second : List (Channel × RtpWrite)) (channel : Channel)
    (source : ParticipantId) : handedTo (first ++ second) channel source =
      handedTo first channel source ++ handedTo second channel source := by
  simp [handedTo]

/-- What two stretches allow adds up. -/
theorem allowed_append (first second : List (ParticipantId × RtpPacket)) (channel : Channel)
    (source : ParticipantId) (content : Content) : allowed (first ++ second) channel source content =
      allowed first channel source content + allowed second channel source content := by
  unfold allowed
  split
  · rfl
  · rw [sentBy_append, List.map_append, List.count_append]

/-- What one turn writes is handed to its own channel. -/
theorem handedTo_turn (outputs : List Output) (turned channel : Channel) (source : ParticipantId) :
    handedTo ((writes outputs).map (turned, ·)) channel source =
      if turned = channel then forwardedOf source outputs else [] := by
  unfold handedTo
  by_cases here : turned = channel
  · have all : ((writes outputs).map (turned, ·)).filter (fun write => write.1 = channel) =
        (writes outputs).map (turned, ·) := by
      rw [List.filter_eq_self]
      intro write member
      obtain ⟨_, _, rfl⟩ := List.mem_map.mp member
      exact decide_eq_true here
    rw [all, if_pos here, List.map_map]
    simp [forwardedOf, Function.comp_def]
  · have none : ((writes outputs).map (turned, ·)).filter (fun write => write.1 = channel) = [] := by
      rw [List.filter_eq_nil_iff]
      intro write member
      obtain ⟨_, _, rfl⟩ := List.mem_map.mp member
      simpa using here
    rw [none, if_neg here]
    rfl

/-- All that a turn of a participant's task brings is that participant's. -/
theorem sentBy_turn (packets : List RtpPacket) (pid source : ParticipantId) :
    sentBy (packets.map (pid, ·)) source = if pid = source then packets else [] := by
  unfold sentBy
  by_cases here : pid = source
  · have all : (packets.map (pid, ·)).filter (fun heard => heard.1 = source) =
        packets.map (pid, ·) := by
      rw [List.filter_eq_self]
      intro heard member
      obtain ⟨_, _, rfl⟩ := List.mem_map.mp member
      exact decide_eq_true here
    rw [all, if_pos here, List.map_map]
    simp [Function.comp_def]
  · have none : (packets.map (pid, ·)).filter (fun heard => heard.1 = source) = [] := by
      rw [List.filter_eq_nil_iff]
      intro heard member
      obtain ⟨_, _, rfl⟩ := List.mem_map.mp member
      simpa using here
    rw [none, if_neg here]
    rfl

namespace Service

variable {config : Config} {service after : Service} {event : ServiceEvent}

/-- Sending commands without packets leaves the packets on their way as they are. -/
theorem carried_posted (channel : Channel) (source : ParticipantId) {queue : List PeerCmd}
    {posted : List Command} (closed : Prop) [Decidable closed]
    (empty : ∀ command ∈ posted, ∀ packet, command.cmd ≠ .media packet) :
    carried source (queue ++ if closed then [] else addressed channel (posted.map Command.letter)) =
      carried source queue := by
  have none : carried source (if closed then [] else addressed channel
      (posted.map Command.letter)) = [] := by
    refine carried_none source fun cmd member => ?_
    split at member
    · cases member
    · obtain ⟨command, sent, _, rfl⟩ := (mem_addressed_letters _ _ _).mp member
      cases carries : command.cmd with
      | media packet => exact absurd carries (empty command sent packet)
      | _ => rfl
  rw [carried_append, none, List.append_nil]

/-- What a drain adds to a channel is among what it offers, and is not for the task's own
participant. -/
theorem drains_carried {drained : Channel} {rtc : Rtc} {events : List RtcEvent} {process : Process}
    (present : service.processes.lookup drained = some process)
    (stepped : service.step config (.drains drained rtc events) = some after) (channel : Channel)
    (source : ParticipantId) :
    ∃ added, carried source (after.queueOf channel) = carried source (service.queueOf channel) ++ added ∧
      added.Sublist (packetsOf source ((process.task.drainOutputs (service.told process rtc)
        events).2.filterMap Output.fanned)) ∧ (channel.pid = process.media.pid → added = []) := by
  obtain ⟨found, running, rfl⟩ := Option.map_eq_some_iff.mp stepped
  obtain rfl := Option.some.inj (running.symm.trans present)
  exact @performAll_carried found.media _ channel source _

/-- The step conserves packets: what it writes to a channel's connection, and what then
waits there or is on its way, waited, was on its way, or is brought by the step. -/
def Conserves (service after : Service) (event : ServiceEvent) (channel : Channel)
    (source : ParticipantId) (content : Content) : Prop :=
  copies content (handedTo (service.writing event) channel source) +
      copies content (after.parkedAt channel source) +
      copies content (carried source (after.queueOf channel)) ≤
    copies content (service.parkedAt channel source) +
      copies content (carried source (service.queueOf channel)) +
      allowed (service.hearing event) channel source content

/-- A step that writes nothing conserves packets if it adds to none of those that wait and
leaves those on their way as they are. -/
theorem conserves_of_unwritten {channel : Channel} {source : ParticipantId} (content : Content)
    (unwritten : handedTo (service.writing event) channel source = [])
    (parked : copies content (after.parkedAt channel source) ≤
      copies content (service.parkedAt channel source))
    (queued : copies content (carried source (after.queueOf channel)) ≤
      copies content (carried source (service.queueOf channel))) :
    service.Conserves after event channel source content := by
  unfold Conserves
  rw [unwritten, copies_nil, Nat.zero_add]
  exact Nat.le_trans (Nat.add_le_add parked queued) (Nat.le_add_right _ _)

/-- A task that starts keeps nothing waiting, and the others go on as they are. -/
theorem parkedAt_launched (launch : Launch) (entered : List MediaTask) (world : World)
    (queues : Mailboxes Channel PeerCmd) (shares : List (ParticipantId × Bool)) (channel : Channel)
    (source : ParticipantId) (content : Content) :
    copies content (({ service with
        world := world
        processes := launched service.processes launch entered
        queues := queues
        shares := shares } : Service).parkedAt channel source) ≤
      copies content (service.parkedAt channel source) := by
  unfold parkedAt
  cases running : (launched service.processes launch entered).lookup channel with
  | none =>
    dsimp only
    exact Nat.zero_le _
  | some process =>
    dsimp only
    rcases lookup_launched running with earlier | ⟨media, _, _, rfl⟩
    · rw [earlier]
    · have fresh := (Task.start_fresh media.pid launch.ownAudioPt launch.ownVideoPt media.roomId
        launch.now launch.answer).2
      have empty : (launch.process media).task.parked source = [] := by
        simp [Launch.process, Task.parked, fresh]
      rw [empty]
      exact Nat.zero_le _

/-- A task that takes a command conserves packets: the one that the command brings is
written or waits, or is dropped. -/
theorem took_conserves (owned : Owned service) {turned : Channel} {rtc : Rtc} {process : Process}
    {cmd : PeerCmd} {rest : List PeerCmd} {posted : List Command}
    (present : service.processes.lookup turned = some process)
    (waiting : service.queueOf turned = cmd :: rest)
    (performed : Performed process.media (process.task.handle (service.told process rtc) cmd).2 posted
      { service with
        processes := service.processes.insert turned
          { process with task := (process.task.handle (service.told process rtc) cmd).1 }
        queues := service.queues.insert turned rest } after)
    (channel : Channel) (source : ParticipantId) (content : Content) :
    service.Conserves after (.takes turned rtc) channel source content := by
  obtain ⟨_, _, own⟩ := owned.each turned process present
  have conserved := process.task.handle_conserves (service.told process rtc) own cmd source content
  have wrote : service.writing (.takes turned rtc) =
      (writes (process.task.handle (service.told process rtc) cmd).2).map (turned, ·) := by
    simp only [writing, present, waiting]
  have queued : carried source (after.queueOf channel) =
      if channel = turned then carried source rest else carried source (service.queueOf channel) := by
    rw [performed.queueOf, carried_posted channel source _ fun _ => not_posted performed]
    unfold queueOf
    rw [Mailboxes.waiting_insert]
    split <;> rfl
  have waits : after.parkedAt channel source = if channel = turned then
      (process.task.handle (service.told process rtc) cmd).1.parked source
      else service.parkedAt channel source := by
    unfold parkedAt
    rw [performed.processes, Table.lookup_insert_eq]
    by_cases here : channel = turned <;> simp [here]
  unfold Conserves
  rw [wrote, handedTo_turn, queued, waits]
  by_cases here : channel = turned
  · subst here
    have before : service.parkedAt channel source = process.task.parked source := by
      simp only [parkedAt, present]
    rw [if_pos rfl, if_pos rfl, if_pos rfl, waiting, carried_cons, copies_append, before]
    omega
  · rw [if_neg (Ne.symm here), if_neg here, if_neg here, copies_nil, Nat.zero_add]
    exact Nat.le_add_right _ _

/-- A drain offers only what the browser of the task's own participant sent. -/
theorem drains_offers (process : Process) (rtc : Rtc) (events : List RtcEvent)
    {source : ParticipantId} (other : process.task.pid ≠ source) :
    packetsOf source ((process.task.drainOutputs (service.told process rtc)
      events).2.filterMap Output.fanned) = [] := by
  obtain ⟨_, mine⟩ := process.task.drainOutputs_fanned (service.told process rtc) events
  rw [packetsOf, List.filter_eq_nil_iff]
  intro packet member
  simpa [mine packet member] using other

/-- What a drain puts on its way to a channel is among what the browser has sent, and a
channel of the sender itself is offered nothing. -/
theorem drains_allowed (owned : Owned service) {turned : Channel} {rtc : Rtc}
    {events : List RtcEvent} {process : Process}
    (present : service.processes.lookup turned = some process) {channel : Channel}
    {source : ParticipantId} {added : List ForwardedMedia}
    (among : added.Sublist (packetsOf source ((process.task.drainOutputs (service.told process rtc)
      events).2.filterMap Output.fanned)))
    (none : channel.pid = process.media.pid → added = []) (content : Content) :
    copies content added ≤
      allowed (service.hearing (.drains turned rtc events)) channel source content := by
  obtain ⟨named, pid, _⟩ := owned.each turned process present
  have hears : service.hearing (.drains turned rtc events) =
      (events.filterMap RtcEvent.received).map (process.task.pid, ·) := by
    simp only [hearing, present]
  rw [hears]
  by_cases here : process.task.pid = source
  · unfold allowed
    by_cases own : source = channel.pid
    · have gone := none ((own.symm.trans here.symm).trans
        (pid.trans (congrArg Channel.pid named).symm))
      rw [gone, copies_nil]
      exact Nat.zero_le _
    · rw [if_neg own, sentBy_turn, if_pos here]
      obtain ⟨brought, _⟩ := process.task.drainOutputs_fanned (service.told process rtc) events
      refine Nat.le_trans (copies_le content (among.trans List.filter_sublist)) ?_
      exact brought.count_le content
  · rw [drains_offers process rtc events here, List.sublist_nil] at among
    rw [among, copies_nil]
    exact Nat.zero_le _

/-- A task that drains its connection conserves packets: it writes none, and offers those
that it reads. -/
theorem drained_conserves (owned : Owned service) {turned : Channel} {rtc : Rtc}
    {events : List RtcEvent} {process : Process} {posted : List Command}
    (stepped : service.step config (.drains turned rtc events) = some after)
    (present : service.processes.lookup turned = some process)
    (performed : Performed process.media
      (process.task.drainOutputs (service.told process rtc) events).2 posted
      { service with
        processes := service.processes.insert turned
          { process with
            task := (process.task.drainOutputs (service.told process rtc) events).1 } } after)
    (channel : Channel) (source : ParticipantId) (content : Content) :
    service.Conserves after (.drains turned rtc events) channel source content := by
  obtain ⟨added, queued, among, none⟩ := drains_carried present stepped channel source
  obtain ⟨_, _, buffers, _, silent⟩ := process.task.drainOutputs_quiet (service.told process rtc)
    events
  have wrote : service.writing (.drains turned rtc events) = [] := by
    simp only [writing, present, silent, List.map_nil]
  have waits : after.parkedAt channel source = service.parkedAt channel source := by
    unfold parkedAt
    rw [performed.processes, Table.lookup_insert_eq]
    by_cases here : channel = turned
    · subst here
      simp only [if_true, present, Task.parked, buffers]
    · rw [if_neg here]
  have gained := drains_allowed owned present among none content
  have empty : handedTo [] channel source = [] := rfl
  unfold Conserves
  rw [wrote, empty, waits, queued, copies_append, copies_nil]
  omega

/-- Each step conserves packets. -/
theorem step_conserves (owned : Owned service) (stepped : service.step config event = some after)
    (channel : Channel) (source : ParticipantId) (content : Content) :
    service.Conserves after event channel source content := by
  have taken := step_taken stepped
  cases taken with
  | still engineEvent launch world moved own still commands sfu signaling =>
    exact conserves_of_unwritten content rfl (Nat.le_refl _) (Nat.le_refl _)
  | advanced id answer launch connection turn entered present taken enters =>
    refine conserves_of_unwritten content rfl (parkedAt_launched launch entered _ _ _ _ _ _) ?_
    unfold queueOf
    rw [Mailboxes.waiting_postAll]
    exact Nat.le_of_eq (congrArg (copies content)
      (carried_posted channel source _ (Connection.advance_media taken)))
  | took turned rtc process cmd rest posted _ present waiting performed =>
    exact took_conserves owned present waiting performed channel source content
  | drained turned rtc events process posted _ present performed =>
    exact drained_conserves owned stepped present performed channel source content
  | endsTask turned process present =>
    apply conserves_of_unwritten content rfl
    · unfold parkedAt
      rw [Table.lookup_erase_eq]
      by_cases here : channel = turned
      · simp [here]
      · rw [if_neg here]
    · unfold queueOf
      rw [Mailboxes.waiting_erase]
      split
      · exact Nat.zero_le _
      · exact Nat.le_refl _
  | arrived data address idle =>
    exact conserves_of_unwritten content rfl (Nat.le_refl _) (Nat.le_refl _)
  | read datagram commands held each =>
    refine conserves_of_unwritten content rfl (Nat.le_refl _) (Nat.le_of_eq ?_)
    have sent := service.queueOf_send commands channel
    refine congrArg (copies content) ((congrArg (carried source) sent).trans
      (carried_posted channel source _ ?_))
    intro command member packet carries
    rw [each command member] at carries
    cases carries

end Service

namespace Relay

variable {config : Config} {relay after : Relay}

/-- One step conserves the copies, once it is known which channel belongs to whom. -/
theorem Conserves.step (conserves : relay.Conserves) (owned : Service.Owned relay.service)
    {event : ServiceEvent} (stepped : relay.step config event = some after) : after.Conserves := by
  obtain ⟨service, moved, rfl⟩ := Option.map_eq_some_iff.mp stepped
  intro channel source content
  have before := conserves channel source content
  have now := Service.step_conserves owned moved channel source content
  unfold Service.Conserves at now
  simp only [handedTo_append, copies_append, allowed_append]
  omega

/-- The server takes its own steps. -/
theorem service_reaches {e2eeRequired : Bool}
    (reached : Reaches (Relay.step config) always (.new e2eeRequired) relay) :
    Reaches (Service.step config) always (.new e2eeRequired) relay.service := by
  induction reached with
  | start => exact .start
  | next earlier _ stepped inductionHypothesis =>
    obtain ⟨service, moved, rfl⟩ := Option.map_eq_some_iff.mp stepped
    exact .next inductionHypothesis trivial moved

/-- In every state that is reached the copies are conserved. -/
theorem reached_conserves {e2eeRequired : Bool}
    (reached : Reaches (Relay.step config) always (.new e2eeRequired) relay) : relay.Conserves := by
  induction reached with
  | start =>
    intro channel source content
    exact Nat.zero_le _
  | next earlier _ stepped inductionHypothesis =>
    exact inductionHypothesis.step (Service.Owned.of_reaches (service_reaches earlier)) stepped

end Relay

end Runs

/-- In every run of the server, the packets of a source that were written to a connection
are, counted with repetitions, among those that the source's browsers sent; and none was
written to a connection of its own source. A packet is known by its payload, timestamp and
marker and by the payload type and number it was sent with. The last two are not those it
is written with: a line has its own.

The copies of a packet are bounded by what was sent along the whole way: in the queues, in
the tasks' buffers and in what was written. Each step moves copies from one place to the
next. -/
theorem relay_conserves {config : Config} {e2eeRequired : Bool} {relay : Relay}
    (reached : Reaches (Relay.step config) always (.new e2eeRequired) relay) (channel : Channel)
    (source : ParticipantId) :
    ((handedTo relay.written channel source).map ForwardedMedia.content).Subperm
        ((sentBy relay.heard source).map RtpPacket.content) ∧
      (source = channel.pid → handedTo relay.written channel source = []) := by
  have conserves := Relay.reached_conserves reached channel source
  constructor
  · rw [List.subperm_ext_iff]
    intro content _
    have bound := conserves content
    unfold allowed at bound
    unfold copies at bound
    split at bound <;> omega
  · intro own
    rw [List.eq_nil_iff_forall_not_mem]
    intro packet member
    have bound := conserves packet.content
    rw [allowed, if_pos own] at bound
    have present : 0 < copies packet.content (handedTo relay.written channel source) :=
      List.count_pos_iff.mpr (List.mem_map_of_mem member)
    omega

section Sample

/-- Two participants enter, the first one talks, and the other one's task takes its commands. -/
def talkingRun : List ServiceEvent :=
  ServiceEvent.enters 1 ⟨1⟩ "a" ++ ServiceEvent.enters 2 ⟨2⟩ "a" ++ [.hears ⟨⟨1⟩, 1⟩] ++
    ServiceEvent.takesAll ⟨⟨2⟩, 2⟩ 2

/-- The packet is written to the other connection, and it is the one that was sent. -/
theorem relay_conserves_talking :
    let relay := (walk (Relay.step .sfuDefault) always (.new false) talkingRun).getD (.new false)
    ((handedTo relay.written ⟨⟨2⟩, 2⟩ ⟨1⟩).map ForwardedMedia.content).Subperm
        ((sentBy relay.heard ⟨1⟩).map RtpPacket.content) ∧
      (handedTo relay.written ⟨⟨2⟩, 2⟩ ⟨1⟩).length = 1 := by
  intro relay
  have reached : Reaches (Relay.step .sfuDefault) always (.new false) relay :=
    walk_reaches_end _ _ _ _ (by decide +kernel)
  exact ⟨(relay_conserves reached ⟨⟨2⟩, 2⟩ ⟨1⟩).1, by decide +kernel⟩

end Sample

end Seameet
