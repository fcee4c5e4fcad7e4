import Seameet.Library.Traced
import Seameet.Media.Lines

/-!
# The media task of one participant

One task drives one participant's peer connection. It takes commands from a
queue, drains the events of the connection between commands, and forwards the
packets of the other participants on the lines of its own connection.

The peer-connection library is not part of the source. What it answers during
one step (which lines have a transmit stream, which offers it accepts and with
which lines, the clock) is an input of the step, and so is the order in which a
hash map's keys are traversed. Everything the task decides from those answers
is computed here. The timers that only repeat keyframe requests and the
smoothed audio levels are left out: no other local of the task depends on them.
-/

namespace Seameet

open Library

/-- A network address packets arrive from. -/
structure SocketAddr where
  ip : String
  port : Nat
deriving DecidableEq

/-- A packet of one participant on its way to another. Header extensions are
carried along unread and not represented. -/
structure ForwardedMedia where
  pt : Nat
  seqNo : Nat
  time : Nat
  marker : Bool
  payload : List UInt8
  isAudio : Bool
  isScreen : Bool
  sourcePid : ParticipantId
  /-- Nanoseconds of a monotonic clock. -/
  wallclock : Nat
deriving DecidableEq

/-- A camera or screen packet of a participant, captured at time zero. -/
def ForwardedMedia.picture (source : ParticipantId) (seqNo : Nat) (isScreen : Bool) :
    ForwardedMedia :=
  { pt := 96, seqNo, time := 0, marker := false, payload := [], isAudio := false, isScreen,
    sourcePid := source, wallclock := 0 }

/-- An audio packet of a participant, captured at time zero. -/
def ForwardedMedia.sound (source : ParticipantId) (seqNo : Nat) : ForwardedMedia :=
  { pt := 111, seqNo, time := 0, marker := false, payload := [], isAudio := true,
    isScreen := false, sourcePid := source, wallclock := 0 }

/-- The commands of a media task's queue. -/
inductive PeerCmd where
  | udpPacket (data : List UInt8) (source : SocketAddr)
  | iceCandidate (candidate : String)
  | media (packet : ForwardedMedia)
  | requestKeyframe
  | renegotiationOffer (sdp : String)
  | screenShareActive (active : Bool)
  | setMuted (muted : Bool)
  | peerMuteChanged (pid : ParticipantId) (muted : Bool)
  | peerCountChanged (remotePeerCount : Nat)
  | peerLeft (pid : ParticipantId)
  | sourceScreenStopped (pid : ParticipantId)
deriving DecidableEq

/-- An accepted offer's answer, with the lines read from it. An SDP answer names
each line once. -/
structure SdpAnswer where
  sdp : String
  mids : List (Mid × MediaKind)
  distinct : (mids.map Prod.fst).Nodup

/-- A packet received from the participant's own browser. -/
structure RtpPacket where
  payloadType : Nat
  ssrc : Nat
  seqNo : Nat
  timestamp : Nat
  marker : Bool
  payload : List UInt8
deriving DecidableEq

/-- The events a drained connection reports. -/
inductive RtcEvent where
  | connected
  | iceRestarted
  | mediaAdded (mid : Mid) (kind : MediaKind)
  | rtpPacket (packet : RtpPacket)
  | egressBitrateEstimate (bps : Nat)
  | keyframeRequest
deriving DecidableEq

/-- What the environment answers during one step of the task. -/
structure Rtc where
  /-- Whether `stream_tx_by_mid` finds a stream. -/
  streamTx : Mid → Bool
  /-- The receive stream's SSRC, where `stream_rx_by_mid` finds one. -/
  ssrc : Mid → Option Nat
  /-- Whether a received datagram is well formed for the connection. -/
  receives : List UInt8 → Bool
  /-- The answer to an offer after its directions are patched, none when parsing
  or accepting it fails. -/
  acceptOffer : String → Option SdpAnswer
  now : Nat
  /-- The keys of the shared peers map. -/
  peers : List ParticipantId
  /-- The traversal order of a key set. -/
  arrange : List ParticipantId → List ParticipantId
  arranged : ∀ keys, (arrange keys).Perm keys

/-- An environment in which every line has a stream, no peer is registered and
offers are answered from a table. -/
def Rtc.plain (acceptOffer : String → Option SdpAnswer) (now : Nat) : Rtc :=
  { streamTx := fun _ => true, ssrc := fun _ => none, receives := fun _ => true, acceptOffer, now,
    peers := [], arrange := id, arranged := fun _ => .rfl }

/-- One packet handed to the connection. -/
structure RtpWrite where
  mid : Mid
  pt : Nat
  seq : Nat
  packet : ForwardedMedia
deriving DecidableEq

/-- What a step of the task does outside its own locals. -/
inductive Output where
  /-- `write_rtp` on the line's transmit stream. -/
  | rtp (write : RtpWrite)
  /-- The line has no transmit stream: the packet is dropped, its number spent. -/
  | rtpDropped (write : RtpWrite)
  /-- `RequestKeyframe` queued for another participant's task. -/
  | keyframe (peer : ParticipantId)
  /-- A keyframe requested from the participant's own browser. -/
  | pli (mid : Mid)
  /-- A text on the participant's signaling sink. -/
  | ws (frame : Frame)
  /-- The reply to a renegotiation offer, empty on failure. -/
  | reply (sdp : String)
  /-- The address registered for this participant in the route table. -/
  | route (source : SocketAddr)
  /-- A packet offered to every other participant's queue. -/
  | fanOut (packet : ForwardedMedia)
deriving DecidableEq

/-- The locals of a media task, with the parameters it was started with. -/
structure Task where
  pid : ParticipantId
  ownAudioPt : Nat
  ownVideoPt : Nat
  roomId : RoomId
  lines : Lines
  screenShareActive : Bool
  /-- The next new video line of a renegotiation is the screen line. -/
  screenSharePending : Bool
  muted : Bool
  mutedPeers : List ParticipantId
  mediaStarted : Bool
  iceConnected : Bool
  routeRegistered : Bool
  sourceSlots : SourceSlots
  lastBweNotify : Nat
  lastRemotePeerCount : Nat
  pendingMedia : Table ParticipantId (List ForwardedMedia)
  sourceKeyframePending : Table ParticipantId Nat
  /-- High-water mark of each line, kept when a source leaves it. -/
  midSeqWatermark : Table Mid Nat

/-- Maximum number of packets buffered per source while awaiting renegotiation. -/
def mediaBufferCap : Nat := 500

/-- Buffered media older than this at flush time is dropped. -/
def pendingMediaMaxAge : Nat := 1000 * 1000000

/-- Whether a packet captured at `wallclock` is too old to forward at `now`. The
subtraction saturates, as the elapsed time of a monotonic clock does. -/
def isPendingMediaStale (wallclock now : Nat) : Bool := pendingMediaMaxAge < now - wallclock

/-- The three uses of a slot's lines. -/
inductive MediaUse where
  | audio
  | video
  | screen
deriving DecidableEq

/-- The kind of line a use needs. -/
def MediaUse.kind : MediaUse → MediaKind
  | .audio => .audio
  | .video => .video
  | .screen => .video

/-- The use a packet is for: audio first, then screen, else camera. -/
def ForwardedMedia.use (packet : ForwardedMedia) : MediaUse :=
  if packet.isAudio then .audio else if packet.isScreen then .screen else .video

namespace SourceSlot

/-- The line of a use; only the screen line may be missing. -/
def line (slot : SourceSlot) : MediaUse → Option Mid
  | .audio => some slot.audioMid
  | .video => some slot.videoMid
  | .screen => slot.screenMid

/-- The next sequence number of a use. -/
def txSeq (slot : SourceSlot) : MediaUse → Nat
  | .audio => slot.audioTxSeq
  | .video => slot.videoTxSeq
  | .screen => slot.screenTxSeq

/-- The payload type of a use. -/
def pt (slot : SourceSlot) : MediaUse → Nat
  | .audio => slot.audioPt
  | .video => slot.videoPt
  | .screen => slot.videoPt

/-- Spend one sequence number of a use. -/
def advance (slot : SourceSlot) : MediaUse → SourceSlot
  | .audio => { slot with audioTxSeq := slot.audioTxSeq + 1 }
  | .video => { slot with videoTxSeq := slot.videoTxSeq + 1 }
  | .screen => { slot with screenTxSeq := slot.screenTxSeq + 1 }

end SourceSlot

namespace Task

/-- The slot table after asking for a source's slot. -/
def ensureSlot (task : Task) (source : ParticipantId) (mediaIsScreen : Bool) :
    Option SourceSlot × SourceSlots :=
  getOrCreateSlot source task.sourceSlots task.lines task.ownAudioPt task.ownVideoPt
    task.midSeqWatermark mediaIsScreen

/-- Forward one packet on its source's line. The sequence number is spent before
the transmit stream is looked up. -/
def writeForwardedRtp (rtc : Rtc) (task : Task) (media : ForwardedMedia) : Task × List Output :=
  match task.ensureSlot media.sourcePid media.isScreen with
  | (none, _) => (task, [])
  | (some slot, slots) =>
      match slot.line media.use with
      | none => ({ task with sourceSlots := slots }, [])
      | some mid =>
          let write : RtpWrite :=
            { mid, pt := slot.pt media.use, seq := slot.txSeq media.use, packet := media }
          ({ task with sourceSlots := slots.insert media.sourcePid (slot.advance media.use) },
            [if rtc.streamTx mid then .rtp write else .rtpDropped write])

/-- Whether a source holds a screen line. -/
def hasScreenMid (task : Task) (source : ParticipantId) : Bool :=
  ((task.sourceSlots.lookup source).bind SourceSlot.screenMid).isSome

/-- Buffer a packet of a source without slot, up to the cap. -/
def park (task : Task) (media : ForwardedMedia) : Task :=
  let buffer := (task.pendingMedia.lookup media.sourcePid).getD []
  if buffer.length < mediaBufferCap then
    { task with pendingMedia := task.pendingMedia.insert media.sourcePid (buffer ++ [media]) }
  else task

/-- `RequestKeyframe` for one peer, if it is in the peers map. -/
def requestKeyframe (rtc : Rtc) (peer : ParticipantId) : List Output :=
  if peer ∈ rtc.peers then [.keyframe peer] else []

/-- `RequestKeyframe` for every other peer. -/
def requestAllKeyframes (rtc : Rtc) (task : Task) : List Output :=
  (rtc.peers.filter (· ≠ task.pid)).map .keyframe

/-- A keyframe from the participant's own browser on a line it sends on. -/
def requestOwn (rtc : Rtc) (mid : Option Mid) : List Output :=
  match mid with
  | some mid => if (rtc.ssrc mid).isSome then [.pli mid] else []
  | none => []

/-- A slot that was just created, or just gained its screen line, asks its
source for a keyframe, and a gained screen line is announced to the client. -/
def announceSource (rtc : Rtc) (task : Task) (source : ParticipantId)
    (createdNew gainedScreenMid : Bool) : Task × List Output :=
  if createdNew || gainedScreenMid then
    let routed :=
      match (task.sourceSlots.lookup source).bind SourceSlot.screenMid with
      | some mid =>
          if gainedScreenMid then
            [Output.ws (.serialised (.screenShareRouted source mid.name task.roomId))]
          else []
      | none => []
    ({ task with sourceKeyframePending := task.sourceKeyframePending.insert source rtc.now },
      requestKeyframe rtc source ++ routed)
  else (task, [])

/-- `PeerCmd::Media`. -/
def forward (rtc : Rtc) (task : Task) (media : ForwardedMedia) : Task × List Output :=
  if media.isAudio && media.sourcePid ∈ task.mutedPeers then (task, [])
  else
    let hadSlot := (task.sourceSlots.lookup media.sourcePid).isSome
    let hadScreenMid := task.hasScreenMid media.sourcePid
    let ensured :=
      if hadSlot then task
      else { task with sourceSlots := (task.ensureSlot media.sourcePid media.isScreen).2 }
    if (ensured.sourceSlots.lookup media.sourcePid).isNone then (ensured.park media, [])
    else
      let written := ensured.writeForwardedRtp rtc media
      let announced := written.1.announceSource rtc media.sourcePid (!hadSlot)
        (!hadScreenMid && written.1.hasScreenMid media.sourcePid)
      (announced.1, written.2 ++ announced.2)

/-- The reported lines that are not known yet, each once. -/
def freshMids (known : List (Mid × MediaKind)) : List (Mid × MediaKind) → List (Mid × MediaKind)
  | [] => []
  | line :: rest =>
      if known.any (·.1 = line.1) then freshMids known rest
      else line :: freshMids (known ++ [line]) rest

/-- Take a new line as the receiver's own audio or camera line if it has none. -/
def adoptOwn (task : Task) (line : Mid × MediaKind) : Task :=
  match line.2 with
  | .audio =>
      if task.lines.ownAudioMid.isNone then
        { task with lines := { task.lines with ownAudioMid := some line.1 } }
      else task
  | .video =>
      if task.lines.ownVideoMid.isNone then
        { task with lines := { task.lines with ownVideoMid := some line.1 } }
      else task

/-- After a renegotiation a further new video line may be the screen line. -/
def adoptNegotiated (task : Task) (line : Mid × MediaKind) : Task :=
  match line.2 with
  | .audio => task.adoptOwn line
  | .video =>
      if task.lines.ownVideoMid.isNone then task.adoptOwn line
      else if (task.screenSharePending || task.screenShareActive) &&
          task.lines.ownScreenMid.isNone then
        { task with
          lines := { task.lines with ownScreenMid := some line.1 }
          screenSharePending := false }
      else task

/-- Append a line to the task's list. -/
def push (task : Task) (line : Mid × MediaKind) : Task :=
  { task with lines := { task.lines with allMids := task.lines.allMids ++ [line] } }

/-- Forward the listed packets in order. -/
def writeAll (rtc : Rtc) : Task → List ForwardedMedia → Task × List Output :=
  traced (writeForwardedRtp rtc)

/-- Flush one source's buffer, dropping what has become stale. -/
def flushSource (rtc : Rtc) (task : Task) (source : ParticipantId) : Task × List Output :=
  match task.pendingMedia.lookup source with
  | none => (task, [])
  | some buffered =>
      let emptied := { task with pendingMedia := task.pendingMedia.erase source }
      let written := writeAll rtc emptied
        (buffered.filter fun media => !isPendingMediaStale media.wallclock rtc.now)
      let keyframes :=
        if (written.1.sourceSlots.lookup source).isSome then requestKeyframe rtc source else []
      (written.1, written.2 ++ keyframes)

/-- Flush the listed sources in order. -/
def flush (rtc : Rtc) : Task → List ParticipantId → Task × List Output :=
  traced (flushSource rtc)

/-- `handle_renegotiation`: learn the answer's lines, or nothing on failure. The
second component is the list of new lines. -/
def handleRenegotiation (rtc : Rtc) (task : Task) (sdp : String) :
    Task × List (Mid × MediaKind) × Output :=
  match rtc.acceptOffer sdp with
  | none => (task, [], .reply "")
  | some answer =>
      let newMids := freshMids task.lines.allMids answer.mids
      (newMids.foldl push task, newMids, .reply answer.sdp)

/-- The task once the answer's new lines are learnt and its own lines updated. -/
def negotiated (rtc : Rtc) (task : Task) (sdp : String) : Task :=
  let (learned, newMids, _) := task.handleRenegotiation rtc sdp
  newMids.foldl adoptNegotiated learned

/-- `PeerCmd::RenegotiationOffer`: learn the new lines, flush what was buffered
for want of lines, ask everyone for keyframes. -/
def renegotiate (rtc : Rtc) (task : Task) (sdp : String) : Task × List Output :=
  let adopted := task.negotiated rtc sdp
  let flushed := flush rtc adopted (rtc.arrange adopted.pendingMedia.keys)
  (flushed.1, [(task.handleRenegotiation rtc sdp).2.2] ++ flushed.2 ++
    requestOwn rtc flushed.1.lines.ownVideoMid ++ flushed.1.requestAllKeyframes rtc)

/-- `PeerCmd::ScreenShareActive`. -/
def setScreenShare (task : Task) (active : Bool) : Task :=
  if active then
    { task with
      screenShareActive := true
      screenSharePending := task.screenSharePending || task.lines.ownScreenMid.isNone }
  else
    { task with
      screenShareActive := false
      screenSharePending := false
      lines := { task.lines with ownScreenMid := none } }

/-- `PeerCmd::PeerLeft`: clear the slot, keeping its counters as watermarks. -/
def peerLeft (task : Task) (left : ParticipantId) : Task :=
  let saved :=
    match task.sourceSlots.lookup left with
    | none => task.midSeqWatermark
    | some slot =>
        let camera := (task.midSeqWatermark.insert slot.audioMid slot.audioTxSeq).insert
          slot.videoMid slot.videoTxSeq
        match slot.screenMid with
        | some mid => camera.insert mid slot.screenTxSeq
        | none => camera
  { task with
    sourceSlots := task.sourceSlots.erase left
    midSeqWatermark := saved
    pendingMedia := task.pendingMedia.erase left
    mutedPeers := task.mutedPeers.filter (· ≠ left)
    sourceKeyframePending := task.sourceKeyframePending.erase left }

/-- `PeerCmd::SourceScreenStopped`. -/
def sourceScreenStopped (task : Task) (source : ParticipantId) : Task :=
  { task with
    sourceSlots := task.sourceSlots.modify source fun slot => { slot with screenMid := none } }

/-- `PeerCmd::PeerCountChanged`. -/
def peerCountChanged (rtc : Rtc) (task : Task) (remotePeerCount : Nat) : Task × List Output :=
  let ownCount := 2 + (if task.lines.ownScreenMid.isSome then 1 else 0)
  let request :=
    match needsRenegotiation task.lines.allMids ownCount task.sourceSlots remotePeerCount with
    | some deficit => [Output.ws (.serialised (.requestRenegotiation task.roomId deficit))]
    | none => []
  let keyframes :=
    if task.lastRemotePeerCount < remotePeerCount && task.mediaStarted then
      requestOwn rtc task.lines.ownVideoMid ++ requestOwn rtc task.lines.ownScreenMid
    else []
  ({ task with lastRemotePeerCount := remotePeerCount }, request ++ keyframes)

/-- One command from the queue. -/
def handle (rtc : Rtc) (task : Task) : PeerCmd → Task × List Output
  | .udpPacket data source =>
      if rtc.receives data && task.iceConnected && !task.routeRegistered then
        ({ task with routeRegistered := true }, [.route source])
      else (task, [])
  | .iceCandidate _ => (task, [])
  | .media packet => task.forward rtc packet
  | .requestKeyframe =>
      (task, requestOwn rtc task.lines.ownVideoMid ++ requestOwn rtc task.lines.ownScreenMid)
  | .renegotiationOffer sdp => task.renegotiate rtc sdp
  | .screenShareActive active => (task.setScreenShare active, [])
  | .setMuted muted => ({ task with muted }, [])
  | .peerMuteChanged pid muted =>
      if muted then ({ task with mutedPeers := task.mutedPeers.insert pid }, [])
      else ({ task with mutedPeers := task.mutedPeers.filter (· ≠ pid) }, [])
  | .peerCountChanged remotePeerCount => task.peerCountChanged rtc remotePeerCount
  | .peerLeft pid => (task.peerLeft pid, [])
  | .sourceScreenStopped pid => (task.sourceScreenStopped pid, [])

/-- A browser packet: audio is dropped while muted, screen media is recognised
by the screen line's SSRC. -/
def receivePacket (rtc : Rtc) (task : Task) (packet : RtpPacket) : List Output :=
  let isAudio := packet.payloadType == task.ownAudioPt
  if isAudio && task.muted then []
  else
    let isScreen := !isAudio && (task.lines.ownScreenMid.bind rtc.ssrc) == some packet.ssrc
    [.fanOut
      { pt := packet.payloadType, seqNo := packet.seqNo, time := packet.timestamp,
        marker := packet.marker, payload := packet.payload, isAudio, isScreen,
        sourcePid := task.pid, wallclock := rtc.now }]

/-- One event of the drained connection. Line announcements are processed after
the drain. -/
def drainEvent (rtc : Rtc) (task : Task) : RtcEvent → Task × List Output
  | .connected => ({ task with iceConnected := true }, [])
  | .iceRestarted => ({ task with iceConnected := false }, [])
  | .mediaAdded _ _ => (task, [])
  | .rtpPacket packet => (task, task.receivePacket rtc packet)
  | .egressBitrateEstimate bps =>
      if 2 * 1000000000 ≤ rtc.now - task.lastBweNotify then
        ({ task with lastBweNotify := rtc.now }, [.ws (.bweUpdate bps)])
      else (task, [])
  | .keyframeRequest => (task, task.requestAllKeyframes rtc)

/-- Drain the events in order. -/
def drainEvents (rtc : Rtc) : Task → List RtcEvent → Task × List Output :=
  traced (drainEvent rtc)

/-- The lines announced by the drained events. -/
def addedMedia (events : List RtcEvent) : List (Mid × MediaKind) :=
  events.filterMap fun event =>
    match event with
    | .mediaAdded mid kind => some (mid, kind)
    | _ => none

/-- An announced line the task does not list yet joins the list. -/
def addMedia (task : Task) (line : Mid × MediaKind) : Task :=
  if task.lines.allMids.any (·.1 = line.1) then task else (task.push line).adoptOwn line

/-- Forwarding starts once both own lines are known. -/
def startMedia (rtc : Rtc) (task : Task) : Task × List Output :=
  if !task.mediaStarted && task.lines.ownAudioMid.isSome && task.lines.ownVideoMid.isSome then
    ({ task with mediaStarted := true },
      requestOwn rtc task.lines.ownVideoMid ++ task.requestAllKeyframes rtc)
  else (task, [])

/-- The part of the loop before the next command: drain, list the announced
lines, start forwarding. -/
def drainOutputs (rtc : Rtc) (task : Task) (events : List RtcEvent) : Task × List Output :=
  let drained := drainEvents rtc task events
  let listed := (addedMedia events).foldl addMedia drained.1
  let started := listed.startMedia rtc
  (started.1, drained.2 ++ started.2)

/-- A task before its first turn, with the first answer's lines. -/
def start (pid : ParticipantId) (ownAudioPt ownVideoPt : Nat) (roomId : RoomId) (now : Nat)
    (answer : SdpAnswer) : Task :=
  let fresh : Task :=
    { pid, ownAudioPt, ownVideoPt, roomId,
      lines := { allMids := [], ownAudioMid := none, ownVideoMid := none, ownScreenMid := none },
      screenShareActive := false, screenSharePending := false, muted := false, mutedPeers := [],
      mediaStarted := false, iceConnected := false, routeRegistered := false, sourceSlots := ∅,
      lastBweNotify := now, lastRemotePeerCount := 0, pendingMedia := ∅,
      sourceKeyframePending := ∅, midSeqWatermark := ∅ }
  answer.mids.foldl (fun task line => (task.push line).adoptOwn line) fresh

/-- One turn of the loop takes either the drained events or one command. -/
inductive Turn where
  | drained (events : List RtcEvent)
  | command (cmd : PeerCmd)
deriving DecidableEq

/-- One turn of the task, with what the environment answers during it. -/
def turn (task : Task) (input : Rtc × Turn) : Task × List Output :=
  match input.2 with
  | .drained events => task.drainOutputs input.1 events
  | .command cmd => task.handle input.1 cmd

/-- A run of the task: any turns in any order. -/
def run : Task → List (Rtc × Turn) → Task × List Output := traced turn

end Task

end Seameet
