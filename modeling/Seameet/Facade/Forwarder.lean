import Seameet.Library.Leases
import Seameet.Library.Runs
import Seameet.Library.Table
import Seameet.Media.Lines
import Seameet.Rtp.Packet

/-!
# The forwarding task of the facade

Each participant of a facade room has one forwarding task. It learns the media
lines of its own connection from `MediaAdded` events and writes every packet
another participant broadcasts on a pair of lines kept for that participant. The
first audio and the first video line are the receiver's own; a source is given
its pair when its first packet arrives, and keeps it as long as the task runs.

A pair therefore serves one participant only, even after that participant has
left the room. A packet of a present participant is written exactly when the
task already keeps a pair for it or has given out fewer pairs than it has lines
for.

The decoded audio published beside the packets is not represented, and the
broadcast channel never drops a packet.
-/

namespace Seameet.Facade

open Library

/-- A packet broadcast across the room. -/
structure ForwardedRtp where
  source : ParticipantId
  pt : UInt8
  seqNo : Nat
  timestamp : UInt32
  marker : Bool
  payload : List UInt8
  isAudio : Bool
deriving DecidableEq

/-- The lines one source is written on, with the next sequence number of each. -/
structure SourceSlot where
  audioMid : Mid
  videoMid : Mid
  audioSeq : Nat
  videoSeq : Nat
  audioPt : UInt8
  videoPt : UInt8
deriving DecidableEq

/-- A source's line of a kind. -/
def SourceSlot.mid (slot : SourceSlot) : MediaKind → Mid
  | .audio => slot.audioMid
  | .video => slot.videoMid

/-- The commands the task gives its peer connection. -/
inductive PeerCmd where
  | writeRtp (mid : Mid) (pt : UInt8) (seq : Nat) (timestamp : UInt32) (marker : Bool)
      (payload : List UInt8)
  | requestKeyframe (mid : Mid)
deriving DecidableEq

/-- The events of the peer connection, and the ways its event channel can fail. -/
inductive PeerEvent where
  | rtpReceived (packet : Rtp.RtpPacket) (seqNo : Nat)
  | mediaAdded (mid : Mid) (kind : MediaKind)
  | connected
  | keyframeRequest
  | disconnected
  | other
  | lagged (skipped : Nat)
  | closed

/-- The locals of the forwarding task. -/
structure Forwarder where
  id : ParticipantId
  allMids : List (Mid × MediaKind)
  ownAudioMid : Option Mid
  ownVideoMid : Option Mid
  sourceSlots : Table ParticipantId SourceSlot

/-- Mids already assigned to a source. -/
def usedMids (sourceSlots : Table ParticipantId SourceSlot) : List Mid :=
  sourceSlots.values.flatMap fun slot => [slot.audioMid, slot.videoMid]

/-- The first line of a kind that is neither the receiver's own nor assigned. -/
def freeLine (kind : MediaKind) (own : Option Mid) (allMids : List (Mid × MediaKind))
    (sourceSlots : Table ParticipantId SourceSlot) : Option (Mid × MediaKind) :=
  allMids.find? fun line => line.2 = kind && some line.1 ≠ own && line.1 ∉ usedMids sourceSlots

/-- The slot of a source, created on the first free lines if it has none; with it
the table that holds it. None when a kind of line has run out. -/
def getOrCreateSlot (sourcePid : ParticipantId) (sourceSlots : Table ParticipantId SourceSlot)
    (allMids : List (Mid × MediaKind)) (ownAudioMid ownVideoMid : Option Mid)
    (audioPt videoPt : UInt8) : Option (SourceSlot × Table ParticipantId SourceSlot) :=
  match sourceSlots.lookup sourcePid with
  | some slot => some (slot, sourceSlots)
  | none =>
      match freeLine .audio ownAudioMid allMids sourceSlots,
          freeLine .video ownVideoMid allMids sourceSlots with
      | some (audioMid, _), some (videoMid, _) =>
          let slot : SourceSlot :=
            { audioMid, videoMid, audioSeq := 0, videoSeq := 0, audioPt, videoPt }
          some (slot, sourceSlots.insert sourcePid slot)
      | _, _ => none

namespace Forwarder

/-- A task that has heard of no line yet. -/
def new (id : ParticipantId) : Forwarder :=
  { id, allMids := [], ownAudioMid := none, ownVideoMid := none, sourceSlots := ∅ }

/-- Ask the receiver's browser for a keyframe, if its video line is known. -/
def keyframe (task : Forwarder) : List PeerCmd := task.ownVideoMid.toList.map .requestKeyframe

/-- A new line is listed once, and the first of each kind is the receiver's own. -/
def addMedia (task : Forwarder) (mid : Mid) (kind : MediaKind) : Forwarder :=
  let listed := if task.allMids.any (·.1 = mid) then task
    else { task with allMids := task.allMids ++ [(mid, kind)] }
  match kind with
  | .audio => if listed.ownAudioMid.isNone then { listed with ownAudioMid := some mid } else listed
  | .video => if listed.ownVideoMid.isNone then { listed with ownVideoMid := some mid } else listed

/-- Take an event of the peer connection: the task afterwards, what it broadcasts
and what it commands. None when the task returns. -/
def onPeerEvent (task : Forwarder) : PeerEvent → Option (Forwarder × List ForwardedRtp × List PeerCmd)
  | .rtpReceived packet seqNo =>
      let fwd : ForwardedRtp :=
        { source := task.id, pt := packet.payloadType, seqNo, timestamp := packet.timestamp,
          marker := packet.marker, payload := packet.payload,
          isAudio := packet.payloadType = Rtp.ptAudio }
      some (task, [fwd], [])
  | .mediaAdded mid kind => some (task.addMedia mid kind, [], [])
  | .connected => some (task, [], task.keyframe)
  | .keyframeRequest => some (task, [], task.keyframe)
  | .disconnected => none
  | .other => some (task, [], [])
  | .lagged _ => some (task, [], [])
  | .closed => none

/-- Write one packet on the source's lines. The counter of the line moves on. -/
def writeRtp (slot : SourceSlot) (fwd : ForwardedRtp) : SourceSlot × PeerCmd :=
  if fwd.isAudio then
    ({ slot with audioSeq := slot.audioSeq + 1 },
      .writeRtp slot.audioMid slot.audioPt slot.audioSeq fwd.timestamp fwd.marker fwd.payload)
  else
    ({ slot with videoSeq := slot.videoSeq + 1 },
      .writeRtp slot.videoMid slot.videoPt slot.videoSeq fwd.timestamp fwd.marker fwd.payload)

/-- Take a packet from the broadcast channel. -/
def onForwarded (task : Forwarder) (fwd : ForwardedRtp) : Forwarder × List PeerCmd :=
  if fwd.source = task.id then (task, [])
  else
    let createdNew := (task.sourceSlots.lookup fwd.source).isNone
    match getOrCreateSlot fwd.source task.sourceSlots task.allMids task.ownAudioMid task.ownVideoMid
        Rtp.ptAudio Rtp.ptVideo with
    | some (slot, sourceSlots) =>
        let (written, command) := writeRtp slot fwd
        ({ task with sourceSlots := sourceSlots.insert fwd.source written },
          command :: if createdNew then task.keyframe else [])
    | none => (task, [])

/-- The receiver's own line of a kind. -/
def ownMid (task : Forwarder) : MediaKind → Option Mid
  | .audio => task.ownAudioMid
  | .video => task.ownVideoMid

/-- The lines of a kind beyond the receiver's own. -/
def lines (task : Forwarder) (kind : MediaKind) : List Mid :=
  (task.allMids.filter fun line => line.2 = kind && some line.1 ≠ task.ownMid kind).map Prod.fst

/-- How many sources the task has lines for. -/
def pairs (task : Forwarder) : Nat := min (task.lines .audio).length (task.lines .video).length

/-- The line of a kind that a source holds. -/
def lease (task : Forwarder) (kind : MediaKind) (source : ParticipantId) : Option Mid :=
  (task.sourceSlots.lookup source).map (SourceSlot.mid · kind)

/-- The task's first free line of a kind. -/
def free (task : Forwarder) (kind : MediaKind) : Option (Mid × MediaKind) :=
  freeLine kind (task.ownMid kind) task.allMids task.sourceSlots

/-- What holds of a task's locals throughout: lines are listed once, the first of
each kind is the receiver's own, and sources hold different lines of each kind,
all of them beyond the receiver's own. -/
structure Sound (task : Forwarder) : Prop where
  distinct : (task.allMids.map Prod.fst).Nodup
  ownFirst : ∀ mid kind, (mid, kind) ∈ task.allMids → (task.ownMid kind).isSome = true
  exclusive : ∀ kind, Exclusive (task.lease kind)
  spare : ∀ kind source mid, task.lease kind source = some mid → mid ∈ task.lines kind

/-- What the lines of a kind beyond the receiver's own are. -/
theorem mem_lines (task : Forwarder) (kind : MediaKind) (mid : Mid) :
    mid ∈ task.lines kind ↔ (mid, kind) ∈ task.allMids ∧ some mid ≠ task.ownMid kind := by
  simp only [lines, List.mem_map, List.mem_filter, Bool.and_eq_true, decide_eq_true_iff]
  constructor
  · rintro ⟨⟨other, _⟩, ⟨listed, rfl, notOwn⟩, rfl⟩
    exact ⟨listed, notOwn⟩
  · rintro ⟨listed, notOwn⟩
    exact ⟨(mid, kind), ⟨listed, rfl, notOwn⟩, rfl⟩

/-- A mid is assigned exactly when some source holds it, for one kind or the other. -/
theorem mem_usedMids (task : Forwarder) (mid : Mid) :
    mid ∈ usedMids task.sourceSlots ↔ ∃ kind source, task.lease kind source = some mid := by
  simp only [usedMids, List.mem_flatMap, Table.mem_values, lease, Option.map_eq_some_iff, List.mem_cons,
    List.not_mem_nil, or_false]
  constructor
  · rintro ⟨slot, ⟨source, stored⟩, rfl | rfl⟩
    · exact ⟨.audio, source, slot, stored, rfl⟩
    · exact ⟨.video, source, slot, stored, rfl⟩
  · rintro ⟨kind, source, slot, stored, rfl⟩
    refine ⟨slot, ⟨source, stored⟩, ?_⟩
    cases kind with
    | audio => exact .inl rfl
    | video => exact .inr rfl

namespace Sound

variable {task : Forwarder}

/-- A listed line is of one kind. -/
theorem kind_unique (sound : task.Sound) {mid : Mid} {kind other : MediaKind}
    (listed : (mid, kind) ∈ task.allMids) (too : (mid, other) ∈ task.allMids) : kind = other := by
  have same := List.inj_on_of_nodup_map sound.distinct listed too rfl
  exact congrArg Prod.snd same

/-- A line of a kind is assigned exactly when some source holds it for that kind. -/
theorem used_iff (sound : task.Sound) {kind : MediaKind} {mid : Mid} (line : mid ∈ task.lines kind) :
    mid ∈ usedMids task.sourceSlots ↔ ∃ source, task.lease kind source = some mid := by
  rw [mem_usedMids]
  constructor
  · rintro ⟨other, source, held⟩
    have listed := ((mem_lines task other mid).mp (sound.spare other source mid held)).1
    obtain rfl := sound.kind_unique ((mem_lines task kind mid).mp line).1 listed
    exact ⟨source, held⟩
  · rintro ⟨source, held⟩
    exact ⟨kind, source, held⟩

/-- A line of a kind is free exactly when fewer sources have a slot than there are
such lines beyond the receiver's own. -/
theorem free_isSome_iff (sound : task.Sound) (kind : MediaKind) :
    (task.free kind).isSome = true ↔ task.sourceSlots.keys.length < (task.lines kind).length := by
  have distinctLines : (task.lines kind).Nodup :=
    (List.filter_sublist.map Prod.fst).nodup sound.distinct
  have holds : ∀ source ∈ task.sourceSlots.keys, ∃ mid ∈ task.lines kind,
      task.lease kind source = some mid := by
    intro source listed
    obtain ⟨slot, stored⟩ := (Table.mem_keys source task.sourceSlots).mp listed
    have held : task.lease kind source = some (slot.mid kind) := by simp [lease, stored]
    exact ⟨slot.mid kind, sound.spare kind source _ held, held⟩
  rw [← (sound.exclusive kind).exists_free_iff task.sourceSlots.keys_nodup distinctLines holds]
  have keyed : ∀ source mid, task.lease kind source = some mid → source ∈ task.sourceSlots.keys := by
    intro source mid held
    obtain ⟨slot, stored, _⟩ := Option.map_eq_some_iff.mp held
    exact (Table.mem_keys source task.sourceSlots).mpr ⟨slot, stored⟩
  rw [free, freeLine, List.find?_isSome]
  simp only [Bool.and_eq_true, decide_eq_true_iff]
  constructor
  · rintro ⟨⟨mid, _⟩, listed, ⟨rfl, notOwn⟩, unused⟩
    have line := (mem_lines task _ mid).mpr ⟨listed, notOwn⟩
    exact ⟨mid, line, fun source _ held => unused ((sound.used_iff line).mpr ⟨source, held⟩)⟩
  · rintro ⟨mid, line, unheld⟩
    obtain ⟨listed, notOwn⟩ := (mem_lines task kind mid).mp line
    refine ⟨(mid, kind), listed, ⟨rfl, notOwn⟩, fun used => ?_⟩
    obtain ⟨source, held⟩ := (sound.used_iff line).mp used
    exact unheld source (keyed source mid held) held

end Sound

/-- What a packet of another participant makes of the task. -/
inductive Served (task : Forwarder) (fwd : ForwardedRtp) : Forwarder × List PeerCmd → Prop
  /-- The source has a slot, and the packet is written on its line. -/
  | kept (slot : SourceSlot) (stored : task.sourceSlots.lookup fwd.source = some slot) :
      Served task fwd
        ({ task with sourceSlots := task.sourceSlots.insert fwd.source (writeRtp slot fwd).1 },
          [(writeRtp slot fwd).2])
  /-- The source is given the first free lines, and a keyframe is requested. -/
  | created (audioLine videoLine : Mid × MediaKind) (slot : SourceSlot)
      (absent : task.sourceSlots.lookup fwd.source = none)
      (freeAudio : task.free .audio = some audioLine)
      (freeVideo : task.free .video = some videoLine)
      (audio : slot.audioMid = audioLine.1) (video : slot.videoMid = videoLine.1) :
      Served task fwd
        ({ task with sourceSlots :=
            (task.sourceSlots.insert fwd.source slot).insert fwd.source (writeRtp slot fwd).1 },
          (writeRtp slot fwd).2 :: task.keyframe)
  /-- A kind of line has run out, and the packet is dropped. -/
  | starved (absent : task.sourceSlots.lookup fwd.source = none)
      (exhausted : task.free .audio = none ∨ task.free .video = none) :
      Served task fwd (task, [])

/-- A packet of another participant makes one of these of the task. -/
theorem onForwarded_served (task : Forwarder) (fwd : ForwardedRtp) (other : fwd.source ≠ task.id) :
    Served task fwd (task.onForwarded fwd) := by
  unfold onForwarded getOrCreateSlot
  rw [if_neg other]
  cases stored : task.sourceSlots.lookup fwd.source with
  | some slot => exact .kept slot stored
  | none =>
    cases freeAudio : freeLine .audio task.ownAudioMid task.allMids task.sourceSlots with
    | none => exact .starved stored (.inl freeAudio)
    | some audioLine =>
      cases freeVideo : freeLine .video task.ownVideoMid task.allMids task.sourceSlots with
      | none => exact .starved stored (.inr freeVideo)
      | some videoLine => exact .created audioLine videoLine _ stored freeAudio freeVideo rfl rfl

/-- Writing a packet moves a counter and no line. -/
theorem writeRtp_mid (slot : SourceSlot) (fwd : ForwardedRtp) (kind : MediaKind) :
    (writeRtp slot fwd).1.mid kind = slot.mid kind := by
  unfold writeRtp
  cases fwd.isAudio with
  | true => cases kind <;> rfl
  | false => cases kind <;> rfl

/-- The command that writes a packet carries its timestamp, marker and payload. -/
def carries (fwd : ForwardedRtp) : PeerCmd → Bool
  | .writeRtp _ _ _ timestamp marker payload =>
      timestamp = fwd.timestamp && marker = fwd.marker && payload = fwd.payload
  | .requestKeyframe _ => false

/-- What a slot writes of a forwarded packet carries that packet. -/
theorem carries_writeRtp (slot : SourceSlot) (fwd : ForwardedRtp) :
    carries fwd (writeRtp slot fwd).2 = true := by
  unfold writeRtp
  cases fwd.isAudio with
  | true => simp [carries]
  | false => simp [carries]

/-- What a free line is: listed, beyond the receiver's own, and assigned to nobody. -/
theorem free_spec {task : Forwarder} {kind : MediaKind} {line : Mid × MediaKind}
    (found : task.free kind = some line) :
    line.1 ∈ task.lines kind ∧ line.1 ∉ usedMids task.sourceSlots := by
  have listed : line ∈ task.allMids := List.mem_of_find?_eq_some found
  have passed := List.find?_some found
  simp only [Bool.and_eq_true, decide_eq_true_iff] at passed
  obtain ⟨⟨rfl, notOwn⟩, unused⟩ := passed
  exact ⟨(mem_lines task line.2 line.1).mpr ⟨listed, notOwn⟩, unused⟩

/-- New leases on the same lines: the task stays sound when no line goes to two sources. -/
theorem Sound.of_leases {task : Forwarder} (sound : task.Sound)
    (sourceSlots : Table ParticipantId SourceSlot)
    (exclusive : ∀ kind, Exclusive ({ task with sourceSlots }.lease kind))
    (spare : ∀ kind source mid, { task with sourceSlots }.lease kind source = some mid →
      mid ∈ task.lines kind) : { task with sourceSlots }.Sound :=
  { distinct := sound.distinct, ownFirst := sound.ownFirst, exclusive, spare }

/-- Taking a packet keeps the task sound. -/
theorem Sound.served {task : Forwarder} {fwd : ForwardedRtp} {result : Forwarder × List PeerCmd}
    (sound : task.Sound) (served : Served task fwd result) : result.1.Sound := by
  cases served with
  | starved absent exhausted => exact sound
  | kept slot stored =>
    have same : ∀ kind, { task with
        sourceSlots := task.sourceSlots.insert fwd.source (writeRtp slot fwd).1 }.lease kind =
          task.lease kind := by
      intro kind
      funext source
      by_cases mine : source = fwd.source
      · subst mine
        simp [lease, stored, writeRtp_mid]
      · simp [lease, mine]
    exact sound.of_leases _ (fun kind => same kind ▸ sound.exclusive kind)
      fun kind source mid held => sound.spare kind source mid (same kind ▸ held)
  | created audioLine videoLine slot absent freeAudio freeVideo audio video =>
    have leased : ∀ kind source, { task with sourceSlots :=
        (task.sourceSlots.insert fwd.source slot).insert fwd.source (writeRtp slot fwd).1 }.lease
          kind source = if source = fwd.source then some (slot.mid kind) else task.lease kind source := by
      intro kind source
      by_cases mine : source = fwd.source
      · subst mine
        simp [lease, writeRtp_mid]
      · simp [lease, mine]
    have free : ∀ kind, slot.mid kind ∈ task.lines kind ∧ slot.mid kind ∉ usedMids task.sourceSlots := by
      intro kind
      cases kind with
      | audio =>
        rw [show slot.mid .audio = audioLine.1 from audio]
        exact free_spec freeAudio
      | video =>
        rw [show slot.mid .video = videoLine.1 from video]
        exact free_spec freeVideo
    refine sound.of_leases _ (fun kind => ?_) fun kind source mid held => ?_
    · refine (sound.exclusive kind).grant fwd.source (slot.mid kind) ?_ ?_
      · intro source held
        exact (free kind).2 ((mem_usedMids task _).mpr ⟨kind, source, held⟩)
      · intro source mid held
        rw [leased] at held
        split at held
        · rename_i mine
          exact .inr ⟨mine, (Option.some.inj held).symm⟩
        · exact .inl held
    · rw [leased] at held
      split at held
      · exact Option.some.inj held ▸ (free kind).1
      · exact sound.spare kind source mid held

/-- The lines listed after an event, the receiver's own lines, and the slots. -/
theorem addMedia_allMids (task : Forwarder) (mid : Mid) (kind : MediaKind) :
    (task.addMedia mid kind).allMids =
      if task.allMids.any (·.1 = mid) then task.allMids else task.allMids ++ [(mid, kind)] := by
  unfold addMedia
  cases kind <;> simp only <;> split <;> split <;> rfl

/-- The first line of a kind becomes the own line of that kind, and no later one does. -/
theorem addMedia_ownMid (task : Forwarder) (mid : Mid) (kind other : MediaKind) :
    (task.addMedia mid kind).ownMid other =
      if other = kind ∧ task.ownMid kind = none then some mid else task.ownMid other := by
  unfold addMedia
  by_cases listed : task.allMids.any (·.1 = mid) = true
  · cases kind with
    | audio =>
      cases known : task.ownAudioMid <;> cases other <;> simp [listed, known, ownMid]
    | video =>
      cases known : task.ownVideoMid <;> cases other <;> simp [listed, known, ownMid]
  · cases kind with
    | audio =>
      cases known : task.ownAudioMid <;> cases other <;> simp [listed, known, ownMid]
    | video =>
      cases known : task.ownVideoMid <;> cases other <;> simp [listed, known, ownMid]

/-- A line of the own media opens no slot. -/
theorem addMedia_sourceSlots (task : Forwarder) (mid : Mid) (kind : MediaKind) :
    (task.addMedia mid kind).sourceSlots = task.sourceSlots := by
  unfold addMedia
  cases kind <;> simp only <;> split <;> split <;> rfl

/-- A new media line keeps the task sound: while sources hold lines of a kind, the
receiver's own line of that kind is known and stays. -/
theorem Sound.addMedia {task : Forwarder} (sound : task.Sound) (mid : Mid) (kind : MediaKind) :
    (task.addMedia mid kind).Sound := by
  have leases : (task.addMedia mid kind).lease = task.lease := by
    funext kind source
    simp [lease, addMedia_sourceSlots]
  have grown : ∀ line ∈ task.allMids, line ∈ (task.addMedia mid kind).allMids := by
    intro line listed
    rw [addMedia_allMids]
    split
    · exact listed
    · exact List.mem_append_left _ listed
  have settled : ∀ other, (task.ownMid other).isSome = true →
      (task.addMedia mid kind).ownMid other = task.ownMid other := by
    intro other known
    rw [addMedia_ownMid, if_neg]
    rintro ⟨rfl, unknown⟩
    simp [unknown] at known
  constructor
  · rw [addMedia_allMids]
    split
    · exact sound.distinct
    · rename_i absent
      simp only [List.any_eq_true, decide_eq_true_iff, not_exists, not_and] at absent
      rw [List.map_append, List.nodup_append]
      refine ⟨sound.distinct, by simp, ?_⟩
      simp only [List.mem_map, List.map_cons, List.map_nil, List.mem_singleton]
      rintro _ ⟨line, listed, rfl⟩ _ rfl
      exact absent line listed
  · intro listedMid listedKind listed
    rw [addMedia_ownMid]
    split
    · rfl
    · rename_i known
      rw [addMedia_allMids] at listed
      split at listed
      · exact sound.ownFirst _ _ listed
      · obtain old | new := List.mem_append.mp listed
        · exact sound.ownFirst _ _ old
        · cases List.mem_singleton.mp new
          simpa [Option.isSome_iff_ne_none] using known
  · intro other
    rw [leases]
    exact sound.exclusive other
  · intro other source held holds
    rw [leases] at holds
    obtain ⟨listed, notOwn⟩ := (mem_lines task other held).mp (sound.spare other source held holds)
    refine (mem_lines _ other held).mpr ⟨grown _ listed, ?_⟩
    rw [settled other (sound.ownFirst held other listed)]
    exact notOwn

/-- A packet of another participant is written exactly when its source has a slot, or
fewer sources have one than there are pairs of lines. -/
theorem written_iff {task : Forwarder} (sound : task.Sound) (fwd : ForwardedRtp)
    (other : fwd.source ≠ task.id) :
    (task.onForwarded fwd).2.any (carries fwd) = true ↔
      (task.sourceSlots.lookup fwd.source).isSome = true ∨
        task.sourceSlots.keys.length < task.pairs := by
  have supply : task.sourceSlots.keys.length < task.pairs ↔
      (task.free .audio).isSome = true ∧ (task.free .video).isSome = true := by
    rw [sound.free_isSome_iff, sound.free_isSome_iff, pairs, Nat.lt_min]
  rw [supply]
  generalize made : task.onForwarded fwd = result
  cases made ▸ onForwarded_served task fwd other with
  | kept slot stored => simp [carries_writeRtp, stored]
  | created audioLine videoLine slot absent freeAudio freeVideo audio video =>
    simp [carries_writeRtp, freeAudio, freeVideo]
  | starved absent exhausted =>
    obtain noAudio | noVideo := exhausted
    · simp [absent, noAudio]
    · simp [absent, noVideo]

/-- A task never changes whose it is. -/
theorem onForwarded_id (task : Forwarder) (fwd : ForwardedRtp) : (task.onForwarded fwd).1.id = task.id := by
  by_cases own : fwd.source = task.id
  · simp [onForwarded, own]
  · generalize made : task.onForwarded fwd = result
    cases made ▸ onForwarded_served task fwd own <;> rfl

/-- A line of the own media keeps the task's participant. -/
theorem addMedia_id (task : Forwarder) (mid : Mid) (kind : MediaKind) :
    (task.addMedia mid kind).id = task.id := by
  unfold addMedia
  cases kind <;> simp only <;> split <;> split <;> rfl

/-- A task that has taken a packet is sound. -/
theorem Sound.onForwarded {task : Forwarder} (sound : task.Sound) (fwd : ForwardedRtp) :
    (task.onForwarded fwd).1.Sound := by
  by_cases own : fwd.source = task.id
  · simpa [Forwarder.onForwarded, own] using sound
  · exact sound.served (onForwarded_served task fwd own)

/-- A task that has taken an event is sound and still the same participant's, and
broadcasts its own packets only. -/
theorem Sound.onPeerEvent {task after : Forwarder} {event : PeerEvent} {sent : List ForwardedRtp}
    {commands : List PeerCmd} (sound : task.Sound)
    (taken : task.onPeerEvent event = some (after, sent, commands)) :
    after.Sound ∧ after.id = task.id := by
  cases event with
  | mediaAdded mid kind =>
    cases Option.some.inj taken
    exact ⟨sound.addMedia mid kind, addMedia_id task mid kind⟩
  | disconnected | closed => cases taken
  | _ =>
    cases Option.some.inj taken
    exact ⟨sound, rfl⟩

end Forwarder

/-- A forwarding task in its room: the other participants present, the packets
broadcast and not yet received, each with whether it must be written, the
commands given, and the packets that had to be written and were not. -/
structure Forwarding where
  task : Forwarder
  running : Bool
  present : List ParticipantId
  queue : List (ForwardedRtp × Bool)
  commands : List PeerCmd
  starved : List ForwardedRtp

/-- One step of the room or of the task. -/
inductive ForwardingStep where
  | joins (participant : ParticipantId)
  | leaves (participant : ParticipantId)
  | broadcasts (fwd : ForwardedRtp)
  | peer (event : PeerEvent)
  | receives
  | stops

namespace Forwarding

/-- A task that has just been spawned in a room without other participants. -/
def new (id : ParticipantId) : Forwarding :=
  { task := .new id, running := true, present := [], queue := [], commands := [], starved := [] }

/-- A packet must be written when its source is present and the lines suffice for all
who are. -/
def due (forwarding : Forwarding) (fwd : ForwardedRtp) : Bool :=
  fwd.source ∈ forwarding.present && forwarding.present.length ≤ forwarding.task.pairs

/-- Take one step, if it can be taken. -/
def step (forwarding : Forwarding) : ForwardingStep → Option Forwarding
  | .joins participant =>
      if participant ≠ forwarding.task.id ∧ participant ∉ forwarding.present then
        some { forwarding with present := participant :: forwarding.present }
      else none
  | .leaves participant =>
      if participant ∈ forwarding.present then
        some { forwarding with present := forwarding.present.erase participant }
      else none
  | .broadcasts fwd =>
      if fwd.source ≠ forwarding.task.id then
        some { forwarding with queue := forwarding.queue ++ [(fwd, forwarding.due fwd)] }
      else none
  | .peer event =>
      if forwarding.running then
        match forwarding.task.onPeerEvent event with
        | some (task, sent, commands) =>
            some { forwarding with
              task
              queue := forwarding.queue ++ sent.map fun fwd => (fwd, false)
              commands := forwarding.commands ++ commands }
        | none => some { forwarding with running := false }
      else none
  | .receives =>
      if forwarding.running then
        match forwarding.queue with
        | (fwd, due) :: rest =>
            let (task, commands) := forwarding.task.onForwarded fwd
            some { forwarding with
              task
              queue := rest
              commands := forwarding.commands ++ commands
              starved := forwarding.starved ++
                if due && !commands.any (Forwarder.carries fwd) then [fwd] else [] }
        | [] => none
      else none
  | .stops => some { forwarding with running := false }

/-- The task is sound, and what must be written comes from another participant. -/
structure Sound (forwarding : Forwarding) : Prop where
  task : forwarding.task.Sound
  remote : ∀ fwd, (fwd, true) ∈ forwarding.queue → fwd.source ≠ forwarding.task.id

/-- When a packet that must be written is received, its source has a slot, or the task
has given out fewer slots in its life than it has pairs of lines. -/
def Supplied (forwarding : Forwarding) : ForwardingStep → Prop
  | .receives =>
      ∀ fwd rest, forwarding.queue = (fwd, true) :: rest →
        (forwarding.task.sourceSlots.lookup fwd.source).isSome = true ∨
          forwarding.task.sourceSlots.keys.length < forwarding.task.pairs
  | _ => True

/-- Receiving the next packet. -/
theorem receives_eq {forwarding after : Forwarding} (stepped : forwarding.step .receives = some after) :
    ∃ fwd due rest, forwarding.queue = (fwd, due) :: rest ∧
      after.task = (forwarding.task.onForwarded fwd).1 ∧ after.queue = rest ∧
      after.starved = forwarding.starved ++
        if due && !(forwarding.task.onForwarded fwd).2.any (Forwarder.carries fwd) then [fwd] else [] := by
  simp only [step] at stepped
  split at stepped
  · split at stepped
    · rename_i fwd due rest queued
      cases Option.some.inj stepped
      exact ⟨fwd, due, rest, queued, rfl, rfl, rfl⟩
    · cases stepped
  · cases stepped

/-- Every step keeps the task sound. -/
theorem sound_step {before after : Forwarding} {event : ForwardingStep} (sound : before.Sound)
    (stepped : before.step event = some after) : after.Sound := by
  cases event with
  | joins participant | leaves participant =>
    simp only [step] at stepped
    split at stepped
    · cases Option.some.inj stepped
      exact ⟨sound.task, sound.remote⟩
    · cases stepped
  | broadcasts fwd =>
    simp only [step] at stepped
    split at stepped
    · rename_i other
      cases Option.some.inj stepped
      refine ⟨sound.task, fun packet queued => ?_⟩
      obtain old | new := List.mem_append.mp queued
      · exact sound.remote packet old
      · have same : packet = fwd := congrArg Prod.fst (List.mem_singleton.mp new)
        exact same ▸ other
    · cases stepped
  | peer event =>
    simp only [step] at stepped
    split at stepped
    · split at stepped
      · rename_i task sent commands taken
        cases Option.some.inj stepped
        obtain ⟨soundTask, same⟩ := sound.task.onPeerEvent taken
        refine ⟨soundTask, fun packet queued => ?_⟩
        obtain old | own := List.mem_append.mp queued
        · rw [same]
          exact sound.remote packet old
        · simp at own
      · cases Option.some.inj stepped
        exact ⟨sound.task, sound.remote⟩
    · cases stepped
  | receives =>
    obtain ⟨fwd, due, rest, queued, task, remaining, _⟩ := receives_eq stepped
    refine ⟨?_, fun packet listed => ?_⟩
    · rw [task]
      exact sound.task.onForwarded fwd
    · rw [task, Forwarder.onForwarded_id]
      rw [remaining] at listed
      exact sound.remote packet (by rw [queued]; exact List.mem_cons_of_mem _ listed)
  | stops =>
    cases Option.some.inj stepped
    exact ⟨sound.task, sound.remote⟩

/-- In every state of a run the task is sound. -/
theorem sound_of_reaches {id : ParticipantId} {forwarding : Forwarding}
    (reached : Reaches step always (new id) forwarding) : forwarding.Sound := by
  refine reached.invariant Sound ?_ fun before event after sound _ stepped => sound_step sound stepped
  refine ⟨⟨List.nodup_nil, by simp [new, Forwarder.new], ?_, ?_⟩, by simp [new]⟩
  · intro kind source other mid held
    simp [Forwarder.lease, new, Forwarder.new] at held
  · intro kind source mid held
    simp [Forwarder.lease, new, Forwarder.new] at held

/-- Only receiving a packet can starve its source. -/
theorem starved_of_other {before after : Forwarding} {event : ForwardingStep}
    (stepped : before.step event = some after) (other : event ≠ .receives) :
    after.starved = before.starved := by
  cases event with
  | joins participant | leaves participant | broadcasts fwd =>
    simp only [step] at stepped
    split at stepped
    · cases Option.some.inj stepped
      rfl
    · cases stepped
  | peer event =>
    simp only [step] at stepped
    split at stepped
    · split at stepped <;> cases Option.some.inj stepped <;> rfl
    · cases stepped
  | receives => exact absurd rfl other
  | stops =>
    cases Option.some.inj stepped
    rfl

/-- From a state without a starved source, the supplied steps starve none. -/
theorem supplied_iff {before after : Forwarding} {event : ForwardingStep} (sound : before.Sound)
    (none : before.starved = []) (stepped : before.step event = some after) :
    before.Supplied event ↔ after.starved = [] := by
  by_cases receiving : event = .receives
  · subst receiving
    obtain ⟨fwd, due, rest, queued, _, _, starved⟩ := receives_eq stepped
    rw [none, List.nil_append] at starved
    cases due with
    | false =>
      refine iff_of_true ?_ (by simpa using starved)
      intro packet later queue
      simp [queued] at queue
    | true =>
      have other := sound.remote fwd (by simp [queued])
      have written := Forwarder.written_iff sound.task fwd other
      rw [starved]
      cases wrote : (before.task.onForwarded fwd).2.any (Forwarder.carries fwd) with
      | true =>
        refine iff_of_true ?_ (by simp)
        intro packet later queue
        rw [queued] at queue
        cases queue
        exact written.mp wrote
      | false =>
        refine iff_of_false ?_ (by simp)
        intro supplied
        have served := written.mpr (supplied fwd rest queued)
        rw [wrote] at served
        cases served
  · have kept := starved_of_other stepped receiving
    refine iff_of_true ?_ (kept.trans none)
    cases event with
    | receives => exact absurd rfl receiving
    | _ => trivial

/-- Along a run every packet that must be written is written exactly when, at each of
them, the source has a slot or the task has a pair of lines it has never given out.

A packet starves where its source has no slot and no pair is left. By the invariant a pair
is used exactly if a source holds it, so what is left can be read off the slots. -/
theorem forwarder_serves_iff (id : ParticipantId) (forwarding : Forwarding) :
    (Reaches step (fun before _ => before.starved = []) (new id) forwarding ∧
        forwarding.starved = []) ↔
      Reaches step Supplied (new id) forwarding :=
  Reaches.within_iff (fun forwarding => forwarding.starved = []) rfl
    fun _ _ _ reached none stepped => supplied_iff (sound_of_reaches reached) none stepped

/-- With one pair of lines besides the receiver's own, one participant comes and goes and
another takes its place: the only other participant present is never written. -/
theorem departed_source_starves_next :
    ∃ forwarding, Reaches step always (new ⟨0⟩) forwarding ∧ forwarding.present = [⟨2⟩] ∧
      forwarding.task.pairs = 1 ∧ forwarding.starved.map ForwardedRtp.source = [⟨2⟩] := by
  let packet : Nat → ForwardedRtp := fun source =>
    { source := ⟨source⟩, pt := 111, seqNo := 0, timestamp := 0, marker := false, payload := [], isAudio := true }
  let events : List ForwardingStep :=
    [.peer (.mediaAdded ⟨"0"⟩ .audio), .peer (.mediaAdded ⟨"1"⟩ .video),
      .peer (.mediaAdded ⟨"2"⟩ .audio), .peer (.mediaAdded ⟨"3"⟩ .video),
      .joins ⟨1⟩, .broadcasts (packet 1), .receives, .leaves ⟨1⟩,
      .joins ⟨2⟩, .broadcasts (packet 2), .receives]
  exact ⟨(walk step always (new ⟨0⟩) events).getD (new ⟨0⟩), walk_reaches_end _ _ _ _ (by decide +kernel),
    by decide +kernel, by decide +kernel, by decide +kernel⟩

end Forwarding

end Seameet.Facade
