import Seameet.Media.Assignment

/-!
# The order of a source's packets

A packet is forwarded when it arrives if its source has a slot, and waits if it
can have none. Waiting packets are only forwarded by a renegotiation. Nothing
else looks at them: when lines become free otherwise, by a departure or by an
announced line, the source's next packet takes the slot and goes out while the
older ones still wait.

As long as a source has no slot, what was forwarded followed by what waits is a
subsequence of what arrived, and this is what a renegotiation flushes. The order
is kept in every run whose renegotiations find no fresh waiting packet of the
source behind a slot it already has.
-/

namespace Seameet

open Library

/-- The packets of a source among some packets. -/
def packetsOf (source : ParticipantId) (packets : List ForwardedMedia) : List ForwardedMedia :=
  packets.filter fun media => media.sourcePid = source

/-- The packets of a source handed to the connection, in order. -/
def forwardedOf (source : ParticipantId) (outputs : List Output) : List ForwardedMedia :=
  packetsOf source ((writes outputs).map RtpWrite.packet)

namespace Task

/-- The packet a turn takes from the queue, if it takes one. -/
def Turn.dequeued : Turn → Option ForwardedMedia
  | .command (.media packet) => some packet
  | _ => none

/-- Whether a turn processes a renegotiation offer. -/
def Turn.renegotiates : Turn → Bool
  | .command (.renegotiationOffer _) => true
  | _ => false

/-- The packets of a source in the order they were taken from the queue. -/
def receivedOf (source : ParticipantId) (turns : List (Rtc × Turn)) : List ForwardedMedia :=
  packetsOf source (turns.filterMap fun input => input.2.dequeued)

/-- The waiting packets of a source. -/
def parked (task : Task) (source : ParticipantId) : List ForwardedMedia :=
  (task.pendingMedia.lookup source).getD []

/-- A renegotiation that finds the source with a slot finds no waiting packet of
it that is fresh enough to be forwarded. -/
def Settled (source : ParticipantId) (task : Task) (_ : List Output) (input : Rtc × Turn) : Prop :=
  input.2.renegotiates = true → (task.sourceSlots.lookup source).isSome →
    ∀ media ∈ task.parked source, isPendingMediaStale media.wallclock input.1.now = true

instance (source : ParticipantId) (task : Task) (past : List Output) (input : Rtc × Turn) :
    Decidable (Settled source task past input) :=
  inferInstanceAs (Decidable (_ → _ → ∀ media ∈ task.parked source, _))

end Task

section Projections

variable (source : ParticipantId)

/-- The packets of a source over two stretches are those of the first and then of the second. -/
@[simp]
theorem packetsOf_append (first second : List ForwardedMedia) :
    packetsOf source (first ++ second) = packetsOf source first ++ packetsOf source second :=
  List.filter_append ..

/-- What was forwarded over two stretches is what was in the first and then in the second. -/
@[simp]
theorem forwardedOf_append (first second : List Output) :
    forwardedOf source (first ++ second) = forwardedOf source first ++ forwardedOf source second := by
  simp [forwardedOf]

/-- Where nothing is written nothing was forwarded. -/
theorem forwardedOf_quiet {outputs : List Output} (silent : writes outputs = []) :
    forwardedOf source outputs = [] := by
  simp [forwardedOf, silent, packetsOf]

/-- What one turn adds to the packets taken from the queue. -/
theorem receivedOf_snoc (turns : List (Rtc × Task.Turn)) (input : Rtc × Task.Turn) :
    Task.receivedOf source (turns ++ [input]) =
      Task.receivedOf source turns ++ packetsOf source input.2.dequeued.toList := by
  have last : (turns ++ [input]).filterMap (fun input => input.2.dequeued) =
      turns.filterMap (fun input => input.2.dequeued) ++ input.2.dequeued.toList := by
    cases taken : input.2.dequeued <;> simp [taken]
  rw [Task.receivedOf, last, packetsOf_append]
  rfl

end Projections

namespace Task

/-- Packets that wait for a source are packets of that source. -/
def ParkedOwn (task : Task) : Prop :=
  ∀ source, ∀ media ∈ task.parked source, media.sourcePid = source

variable (rtc : Rtc) (task : Task)

/-- A slot never disappears when one is asked for. -/
theorem ensureSlot_absent (source other : ParticipantId) (mediaIsScreen : Bool)
    (absent : (task.ensureSlot other mediaIsScreen).2.lookup source = none) :
    task.sourceSlots.lookup source = none := by
  have outcome := getOrCreateSlot_outcome other task.sourceSlots task.lines task.ownAudioPt
    task.ownVideoPt task.midSeqWatermark mediaIsScreen
  change SlotOutcome _ _ _ _ _ _ _ (task.ensureSlot other mediaIsScreen) at outcome
  generalize task.ensureSlot other mediaIsScreen = result at outcome absent
  cases outcome with
  | refused => exact absent
  | _ =>
    simp only [Table.lookup_insert_eq] at absent
    split at absent
    · simp at absent
    · exact absent

/-- Forwarding a packet leaves the waiting ones alone, removes no slot and hands
over at most that packet. -/
theorem writeForwardedRtp_order (media : ForwardedMedia) :
    (task.writeForwardedRtp rtc media).1.pendingMedia = task.pendingMedia ∧
      (∀ source, (task.writeForwardedRtp rtc media).1.sourceSlots.lookup source = none →
        task.sourceSlots.lookup source = none) ∧
      ∀ source, (forwardedOf source (task.writeForwardedRtp rtc media).2).Sublist
        (packetsOf source [media]) := by
  refine ⟨?_, ?_, ?_⟩
  · obtain ⟨slots, framed⟩ := task.writeForwardedRtp_frame rtc media
    rw [framed]
  · intro source absent
    have outcome := task.writeForwardedRtp_outcome rtc media
    generalize task.writeForwardedRtp rtc media = result at outcome absent
    cases outcome with
    | refused => exact absent
    | unlined slot slots ensured missing =>
      refine task.ensureSlot_absent source media.sourcePid media.isScreen ?_
      rwa [ensured]
    | sent slot slots mid ensured lined =>
      refine task.ensureSlot_absent source media.sourcePid media.isScreen ?_
      rw [ensured]
      simp only [Table.lookup_insert_eq] at absent
      split at absent
      · simp at absent
      · exact absent
  · intro source
    unfold forwardedOf
    rcases task.writeForwardedRtp_writes rtc media with none | one
    · rw [none]
      exact List.nil_sublist _
    · rw [one]

/-- Forwarding listed packets in order hands over a subsequence of them. -/
theorem writeAll_order (packets : List ForwardedMedia) :
    (writeAll rtc task packets).1.pendingMedia = task.pendingMedia ∧
      ∀ source, (forwardedOf source (writeAll rtc task packets).2).Sublist
        (packetsOf source packets) := by
  induction packets generalizing task with
  | nil => exact ⟨rfl, fun source => List.nil_sublist _⟩
  | cons media rest inductionHypothesis =>
    obtain ⟨kept, _, handed⟩ := task.writeForwardedRtp_order rtc media
    obtain ⟨later, following⟩ := inductionHypothesis (task.writeForwardedRtp rtc media).1
    refine ⟨later.trans kept, fun source => ?_⟩
    have split : packetsOf source (media :: rest) = packetsOf source [media] ++ packetsOf source rest :=
      packetsOf_append source [media] rest
    rw [split]
    exact (forwardedOf_append source _ _) ▸ (handed source).append (following source)

/-- The waiting packets of a source that a flush would forward. -/
def freshParked (source : ParticipantId) : List ForwardedMedia :=
  (task.parked source).filter fun media => !isPendingMediaStale media.wallclock rtc.now

/-- Flushing a source forwards a subsequence of its fresh waiting packets and
leaves none of it waiting. -/
theorem flushSource_order (own : task.ParkedOwn) (flushed : ParticipantId) :
    (∀ source, (flushSource rtc task flushed).1.parked source =
        if source = flushed then [] else task.parked source) ∧
      ∀ source, (forwardedOf source (flushSource rtc task flushed).2).Sublist
        (if source = flushed then task.freshParked rtc source else []) := by
  unfold flushSource
  cases buffer : task.pendingMedia.lookup flushed with
  | none =>
    refine ⟨fun source => ?_, fun source => List.nil_sublist _⟩
    by_cases here : source = flushed
    · subst here
      simp [parked, buffer]
    · rw [if_neg here]
  | some buffered =>
    obtain ⟨pending, handed⟩ := writeAll_order rtc
      { task with pendingMedia := task.pendingMedia.erase flushed }
      (buffered.filter fun media => !isPendingMediaStale media.wallclock rtc.now)
    refine ⟨fun source => ?_, fun source => ?_⟩
    · simp only [parked, pending, Table.lookup_erase_eq]
      split <;> rfl
    · have quiet : forwardedOf source (if (Option.isSome
          ((writeAll rtc { task with pendingMedia := task.pendingMedia.erase flushed }
            (buffered.filter fun media => !isPendingMediaStale media.wallclock
              rtc.now)).1.sourceSlots.lookup flushed)) = true then requestKeyframe rtc flushed
          else []) = [] := by
        refine forwardedOf_quiet source ?_
        split
        · exact requestKeyframe_writes rtc flushed
        · rfl
      rw [forwardedOf_append, quiet, List.append_nil]
      refine (handed source).trans ?_
      have ofFlushed : ∀ media ∈ buffered, media.sourcePid = flushed := by
        intro media member
        exact own flushed media (by simpa [parked, buffer] using member)
      split
      · rename_i here
        rw [freshParked, parked, here, buffer]
        exact List.filter_sublist
      · rename_i apart
        have none : packetsOf source
            (buffered.filter fun media => !isPendingMediaStale media.wallclock rtc.now) = [] := by
          rw [packetsOf, List.filter_eq_nil_iff]
          intro media member
          have other := ofFlushed media (List.mem_filter.mp member).1
          simpa [other] using fun same => apart same.symm
        rw [none]

/-- Flushing sources in order: nothing of them waits any more, and of each a
subsequence of what was fresh went out. -/
theorem flush_order (own : task.ParkedOwn) (sources : List ParticipantId) :
    (∀ source, (flush rtc task sources).1.parked source =
        if source ∈ sources then [] else task.parked source) ∧
      ∀ source, (forwardedOf source (flush rtc task sources).2).Sublist
        (task.freshParked rtc source) := by
  induction sources generalizing task with
  | nil => exact ⟨fun source => rfl, fun source => List.nil_sublist _⟩
  | cons flushed rest inductionHypothesis =>
    obtain ⟨emptied, first⟩ := task.flushSource_order rtc own flushed
    have stillOwn : (flushSource rtc task flushed).1.ParkedOwn := by
      intro source media member
      rw [emptied] at member
      split at member
      · simp at member
      · exact own source media member
    obtain ⟨remaining, later⟩ := inductionHypothesis _ stillOwn
    refine ⟨fun source => ?_, fun source => ?_⟩
    · change (flush rtc (flushSource rtc task flushed).1 rest).1.parked source = _
      rw [remaining, emptied]
      by_cases here : source = flushed <;> simp [here]
    · change (forwardedOf source ((flushSource rtc task flushed).2 ++
        (flush rtc (flushSource rtc task flushed).1 rest).2)).Sublist _
      rw [forwardedOf_append]
      have now := first source
      have after := later source
      rw [freshParked, emptied] at after
      by_cases here : source = flushed
      · rw [if_pos here] at now after
        have none := List.sublist_nil.mp after
        rw [none, List.append_nil]
        exact now
      · rw [if_neg here] at now after
        rw [List.sublist_nil.mp now]
        exact after

/-- After a renegotiation nothing waits, and of each source a subsequence of
what was fresh went out. -/
theorem renegotiate_order (own : task.ParkedOwn) (sdp : String) :
    (∀ source, (task.renegotiate rtc sdp).1.parked source = []) ∧
      ∀ source, (forwardedOf source (task.renegotiate rtc sdp).2).Sublist
        (task.freshParked rtc source) := by
  obtain ⟨lines, pending, framed, _⟩ := task.negotiated_frame rtc sdp
  have buffers : (task.negotiated rtc sdp).pendingMedia = task.pendingMedia := by rw [framed]
  have same : (task.negotiated rtc sdp).parked = task.parked := by
    funext source
    rw [parked, parked, buffers]
  have stillOwn : (task.negotiated rtc sdp).ParkedOwn := by
    unfold ParkedOwn
    rw [same]
    exact own
  obtain ⟨emptied, handed⟩ := flush_order rtc (task.negotiated rtc sdp) stillOwn
    (rtc.arrange (task.negotiated rtc sdp).pendingMedia.keys)
  refine ⟨fun source => ?_, fun source => ?_⟩
  · refine (emptied source).trans ?_
    split
    · rfl
    · rename_i unlisted
      rw [(rtc.arranged _).mem_iff, Table.mem_keys] at unlisted
      cases stored : (task.negotiated rtc sdp).pendingMedia.lookup source with
      | none => rw [parked, stored]; rfl
      | some buffered => exact absurd ⟨buffered, stored⟩ unlisted
  · have sameWrites : forwardedOf source (task.renegotiate rtc sdp).2 =
        forwardedOf source (flush rtc (task.negotiated rtc sdp)
          (rtc.arrange (task.negotiated rtc sdp).pendingMedia.keys)).2 := by
      rw [forwardedOf, renegotiate_writes, forwardedOf]
    have fresh : (task.negotiated rtc sdp).freshParked rtc source = task.freshParked rtc source := by
      rw [freshParked, freshParked, same]
    rw [sameWrites, ← fresh]
    exact handed source

/-- A packet that waits is the last of its source's waiting packets. -/
theorem park_order (media : ForwardedMedia) (source : ParticipantId) :
    (task.park media).sourceSlots = task.sourceSlots ∧
      ((task.park media).parked source = task.parked source ∨
        source = media.sourcePid ∧ (task.park media).parked source =
          task.parked source ++ [media]) := by
  by_cases room : ((task.pendingMedia.lookup media.sourcePid).getD []).length < mediaBufferCap
  · refine ⟨by simp [park, room], ?_⟩
    by_cases here : source = media.sourcePid
    · subst here
      refine Or.inr ⟨rfl, ?_⟩
      simp [park, room, parked]
    · refine Or.inl ?_
      simp [park, room, parked, here]
  · simp [park, room]

/-- A `Media` command keeps every waiting packet with its own source. -/
theorem forward_own (own : task.ParkedOwn) (media : ForwardedMedia) :
    (task.forward rtc media).1.ParkedOwn := by
  have written : ∀ (opening : Task) (createdNew gained : Bool),
      opening.pendingMedia = task.pendingMedia →
        ((opening.writeForwardedRtp rtc media).1.announceSource rtc media.sourcePid createdNew
          gained).1.ParkedOwn := by
    intro opening createdNew gained same source waiting member
    obtain ⟨pending, framed⟩ := (opening.writeForwardedRtp rtc media).1.announceSource_frame rtc
      media.sourcePid createdNew gained
    obtain ⟨kept, _, _⟩ := opening.writeForwardedRtp_order rtc media
    refine own source waiting ?_
    rw [framed, parked] at member
    rwa [parked, ← same, ← kept]
  have outcome := task.forward_outcome rtc media
  generalize task.forward rtc media = result at outcome ⊢
  cases outcome with
  | muted audio silenced => exact own
  | parked heard absent noSlot =>
    intro source waiting member
    rcases (task.park_order media source).2 with same | ⟨here, longer⟩
    · exact own source waiting (same ▸ member)
    · rw [longer, List.mem_append, List.mem_singleton] at member
      rcases member with earlier | rfl
      · exact own source waiting earlier
      · exact here.symm
  | live heard slot stored gained => exact written task false gained rfl
  | opened heard slot slots opening absent ensured changed stored gained =>
    exact written opening true gained (by rw [changed])

end Task

/-- The packets of a source so far: what was handed over is a subsequence of
what was received, also with the waiting packets behind it as long as the source
has no slot. -/
structure InOrder (source : ParticipantId) (task : Task) (received : List ForwardedMedia)
    (past : List Output) : Prop where
  own : task.ParkedOwn
  ordered : (forwardedOf source past).Sublist received
  waiting : task.sourceSlots.lookup source = none →
    (forwardedOf source past ++ task.parked source).Sublist received

namespace InOrder

variable {source : ParticipantId} {task after : Task} {received : List ForwardedMedia}
  {past outputs : List Output}

/-- Steps that hand nothing of the source over and let no further packet wait. -/
theorem quiet (standing : InOrder source task received past) (arrived : List ForwardedMedia)
    (slots : after.sourceSlots.lookup source = none →
      task.sourceSlots.lookup source = none ∨ after.parked source = [])
    (fewer : ∀ other, after.parked other = task.parked other ∨ after.parked other = [])
    (silent : writes outputs = []) :
    InOrder source after (received ++ arrived) (past ++ outputs) := by
  obtain ⟨own, ordered, waiting⟩ := standing
  refine ⟨?_, ?_, ?_⟩
  · intro other media member
    rcases fewer other with same | gone
    · exact own other media (same ▸ member)
    · simp [gone] at member
  · rw [forwardedOf_append, forwardedOf_quiet source silent, List.append_nil]
    exact ordered.trans (List.sublist_append_left _ _)
  · intro absent
    rw [forwardedOf_append, forwardedOf_quiet source silent, List.append_nil]
    rcases fewer source with same | gone
    · rcases slots absent with before | none
      · rw [same]
        exact (waiting before).trans (List.sublist_append_left _ _)
      · rw [none, List.append_nil]
        exact ordered.trans (List.sublist_append_left _ _)
    · rw [gone, List.append_nil]
      exact ordered.trans (List.sublist_append_left _ _)

/-- Forwarding a packet that was just taken from the queue, from a state whose
sources without slot already had none. -/
theorem sent {origin : Task} (standing : InOrder source task received past) (rtc : Rtc)
    (media : ForwardedMedia) (createdNew gained : Bool)
    (buffers : origin.pendingMedia = task.pendingMedia)
    (slots : origin.sourceSlots.lookup source = none →
      task.sourceSlots.lookup source = none ∧ source ≠ media.sourcePid) :
    InOrder source
      ((origin.writeForwardedRtp rtc media).1.announceSource rtc media.sourcePid
        createdNew gained).1
      (received ++ packetsOf source [media])
      (past ++ ((origin.writeForwardedRtp rtc media).2 ++
        ((origin.writeForwardedRtp rtc media).1.announceSource rtc media.sourcePid
          createdNew gained).2)) := by
  obtain ⟨own, ordered, waiting⟩ := standing
  obtain ⟨kept, present, handed⟩ := origin.writeForwardedRtp_order rtc media
  obtain ⟨pending, framed⟩ := (origin.writeForwardedRtp rtc media).1.announceSource_frame rtc
    media.sourcePid createdNew gained
  have same : ((origin.writeForwardedRtp rtc media).1.announceSource rtc media.sourcePid
      createdNew gained).1.parked = task.parked := by
    funext other
    simp only [Task.parked, framed, kept, buffers]
  have quiet := forwardedOf_quiet source (Task.announceSource_writes rtc
    (origin.writeForwardedRtp rtc media).1 media.sourcePid createdNew gained)
  refine ⟨?_, ?_, ?_⟩
  · intro other media' member
    exact own other media' (same ▸ member)
  · rw [forwardedOf_append, forwardedOf_append, quiet, List.append_nil]
    exact ordered.append (handed source)
  · intro absent
    rw [framed] at absent
    obtain ⟨before, apart⟩ := slots (present source absent)
    have other : packetsOf source [media] = [] := by
      simpa [packetsOf] using fun here => apart here.symm
    have none : forwardedOf source (origin.writeForwardedRtp rtc media).2 = [] :=
      List.sublist_nil.mp (other ▸ handed source)
    rw [forwardedOf_append, forwardedOf_append, quiet, none, same, other, List.append_nil,
      List.append_nil, List.append_nil]
    exact waiting before

/-- A `Media` command. -/
theorem forward (standing : InOrder source task received past) (rtc : Rtc)
    (media : ForwardedMedia) :
    InOrder source (task.forward rtc media).1 (received ++ packetsOf source [media])
      (past ++ (task.forward rtc media).2) := by
  have outcome := task.forward_outcome rtc media
  have kept := task.forward_own rtc standing.own media
  generalize task.forward rtc media = result at outcome kept ⊢
  cases outcome with
  | muted audio silenced => exact standing.quiet _ Or.inl (fun _ => Or.inl rfl) rfl
  | parked heard absent noSlot =>
    obtain ⟨_, ordered, waiting⟩ := standing
    refine ⟨kept, ?_, ?_⟩
    · rw [List.append_nil]
      exact ordered.trans (List.sublist_append_left _ _)
    · intro slotless
      obtain ⟨slots, buffered⟩ := task.park_order media source
      rw [slots] at slotless
      rw [List.append_nil]
      rcases buffered with same | ⟨here, longer⟩
      · rw [same]
        exact (waiting slotless).trans (List.sublist_append_left _ _)
      · have arrived : packetsOf source [media] = [media] := by simp [packetsOf, here]
        rw [longer, ← List.append_assoc, arrived]
        exact (waiting slotless).append (List.Sublist.refl _)
  | live heard slot stored gained =>
    refine standing.sent rtc media false gained rfl ?_
    intro absent
    refine ⟨absent, ?_⟩
    rintro rfl
    simp [stored] at absent
  | opened heard slot slots opening absent ensured changed stored gained =>
    subst changed
    refine standing.sent rtc media true gained rfl ?_
    intro slotless
    refine ⟨?_, ?_⟩
    · refine task.ensureSlot_absent source media.sourcePid media.isScreen ?_
      rwa [ensured]
    · rintro rfl
      simp [stored] at slotless

/-- A renegotiation that finds the source settled. -/
theorem renegotiate (standing : InOrder source task received past) (rtc : Rtc) (sdp : String)
    (settled : (task.sourceSlots.lookup source).isSome →
      ∀ media ∈ task.parked source, isPendingMediaStale media.wallclock rtc.now = true) :
    InOrder source (task.renegotiate rtc sdp).1 received (past ++ (task.renegotiate rtc sdp).2) := by
  obtain ⟨own, ordered, waiting⟩ := standing
  obtain ⟨emptied, handed⟩ := task.renegotiate_order rtc own sdp
  have flushed : (forwardedOf source (past ++ (task.renegotiate rtc sdp).2)).Sublist received := by
    rw [forwardedOf_append]
    cases present : task.sourceSlots.lookup source with
    | none =>
      have some := (handed source).trans List.filter_sublist
      exact ((List.Sublist.refl _).append some).trans (waiting present)
    | some slot =>
      have stale : task.freshParked rtc source = [] := by
        rw [Task.freshParked, List.filter_eq_nil_iff]
        intro media member
        simp [settled (by simp [present]) media member]
      have none := handed source
      rw [stale] at none
      rw [List.sublist_nil.mp none, List.append_nil]
      exact ordered
  refine ⟨?_, flushed, fun _ => ?_⟩
  · intro other media member
    simp [emptied] at member
  · rw [emptied, List.append_nil]
    exact flushed

/-- Every turn that finds the source settled. -/
theorem turn (standing : InOrder source task received past) (input : Rtc × Task.Turn)
    (settled : Task.Settled source task past input) :
    InOrder source (task.turn input).1 (received ++ packetsOf source input.2.dequeued.toList)
      (past ++ (task.turn input).2) := by
  obtain ⟨rtc, taken⟩ := input
  cases taken with
  | drained events =>
    obtain ⟨slots, _, buffers, _, silent⟩ := task.drainOutputs_quiet rtc events
    refine standing.quiet _ (fun absent => Or.inl (slots ▸ absent)) (fun other => Or.inl ?_) silent
    exact congrArg (fun table => (table.lookup other).getD []) buffers
  | command cmd =>
    have idle : Task.idle cmd = true →
        InOrder source (task.handle rtc cmd).1
          (received ++ packetsOf source (Task.Turn.command cmd).dequeued.toList)
          (past ++ (task.handle rtc cmd).2) := by
      intro unconcerned
      obtain ⟨_, slots, _, buffers, silent⟩ := task.handle_idle rtc cmd unconcerned
      refine standing.quiet _ (fun absent => Or.inl (slots ▸ absent)) (fun other => Or.inl ?_) silent
      exact congrArg (fun table => (table.lookup other).getD []) buffers
    cases cmd with
    | media packet => exact standing.forward rtc packet
    | renegotiationOffer sdp =>
      have nothing : packetsOf source (Task.Turn.command (.renegotiationOffer sdp)).dequeued.toList =
        [] := rfl
      rw [nothing, List.append_nil]
      exact standing.renegotiate rtc sdp (settled rfl)
    | screenShareActive active =>
      cases active <;> exact standing.quiet _ Or.inl (fun _ => Or.inl rfl) rfl
    | peerLeft left =>
      have gone : (task.peerLeft left).parked left = [] := by simp [Task.peerLeft, Task.parked]
      have others : ∀ other, other ≠ left →
          (task.peerLeft left).parked other = task.parked other ∧
            (task.peerLeft left).sourceSlots.lookup other = task.sourceSlots.lookup other := by
        intro other apart
        simp [Task.peerLeft, Task.parked, apart]
      refine standing.quiet _ ?_ ?_ rfl
      · intro absent
        by_cases here : source = left
        · exact Or.inr (here ▸ gone)
        · exact Or.inl ((others source here).2 ▸ absent)
      · intro other
        by_cases here : other = left
        · exact Or.inr (here ▸ gone)
        · exact Or.inl (others other here).1
    | sourceScreenStopped stopped =>
      refine standing.quiet _ ?_ (fun _ => Or.inl rfl) rfl
      intro absent
      simp only [Task.turn, Task.handle, Task.sourceScreenStopped, Table.lookup_modify] at absent
      refine Or.inl ?_
      split at absent
      · rename_i here
        rw [here]
        exact Option.map_eq_none_iff.mp absent
      · exact absent
    | _ => exact idle rfl

end InOrder

namespace Task

/-- In a run whose renegotiations find a source settled, the packets of it that
are handed over are a subsequence of those taken from the queue.

What was handed over and, while the source has no slot, what waits behind it are a
subsequence of what was received. A renegotiation that finds the source settled keeps it so.
-/
theorem forwarding_keeps_order (pid : ParticipantId) (ownAudioPt ownVideoPt : Nat)
    (roomId : RoomId) (now : Nat) (answer : SdpAnswer) (turns : List (Rtc × Turn))
    (source : ParticipantId)
    (settled : Along turn (Settled source) (start pid ownAudioPt ownVideoPt roomId now answer) []
      turns) :
    (forwardedOf source (run (start pid ownAudioPt ownVideoPt roomId now answer) turns).2).Sublist
      (receivedOf source turns) := by
  let law : Task → List (Rtc × Turn) → List Output → Prop := fun task taken past =>
    InOrder source task (receivedOf source taken) past
  have untouched := (start_fresh pid ownAudioPt ownVideoPt roomId now answer).2
  have initial : law (start pid ownAudioPt ownVideoPt roomId now answer) [] [] := by
    have empty : ∀ other,
        (start pid ownAudioPt ownVideoPt roomId now answer).parked other = [] := by
      intro other
      simp [parked, untouched]
    refine ⟨fun other media member => ?_, List.nil_sublist _, fun _ => ?_⟩
    · simp [empty] at member
    · rw [empty]
      exact List.nil_sublist _
  have each : ∀ task taken past input, law task taken past → Settled source task past input →
      law (task.turn input).1 (taken ++ [input]) (past ++ (task.turn input).2) := by
    intro task taken past input standing settled
    have stepped := standing.turn input settled
    rw [← receivedOf_snoc] at stepped
    exact stepped
  exact (settled.keeps_inputs law [] each initial).ordered

/-- One pair besides the receiver's own. -/
def onePair : SdpAnswer where
  sdp := "v=0"
  mids := [(⟨"0"⟩, .audio), (⟨"1"⟩, .video), (⟨"2"⟩, .audio), (⟨"3"⟩, .video)]
  distinct := by decide

/-- A further pair. -/
def anotherPair : SdpAnswer where
  sdp := "v=0"
  mids := [(⟨"4"⟩, .audio), (⟨"5"⟩, .video)]
  distinct := by decide

/-- A source that waits for a pair keeps its order through the renegotiation. -/
theorem forwarding_keeps_order_renegotiated :
    (forwardedOf ⟨2⟩ (run (start ⟨0⟩ 111 96 "room" 0 onePair)
      ([.media (.picture ⟨1⟩ 0 false), .media (.picture ⟨2⟩ 0 false),
        .renegotiationOffer "offer", .media (.picture ⟨2⟩ 1 false)].map fun cmd =>
          (Rtc.plain (fun _ => some anotherPair) 0, .command cmd))).2).Sublist
      (receivedOf ⟨2⟩ ([.media (.picture ⟨1⟩ 0 false), .media (.picture ⟨2⟩ 0 false),
        .renegotiationOffer "offer", .media (.picture ⟨2⟩ 1 false)].map fun cmd =>
          (Rtc.plain (fun _ => some anotherPair) 0, .command cmd))) :=
  forwarding_keeps_order ⟨0⟩ 111 96 "room" 0 onePair _ ⟨2⟩ (by decide +kernel)

/-- A source whose first packet waits gets the line of a departed one for its
second packet; the renegotiation then sends the first packet after the second. -/
theorem waiting_packet_overtaken :
    ¬ ∀ (pid : ParticipantId) (ownAudioPt ownVideoPt : Nat) (roomId : RoomId) (now : Nat)
      (answer : SdpAnswer) (turns : List (Rtc × Turn)) (source : ParticipantId),
      (∀ input ∈ turns, input.2 ≠ .command (.peerLeft source)) →
      (forwardedOf source
        (run (start pid ownAudioPt ownVideoPt roomId now answer) turns).2).Sublist
        (receivedOf source turns) := by
  intro ordered
  have kept := ordered ⟨0⟩ 111 96 "room" 0 onePair
    ([.media (.picture ⟨1⟩ 0 false), .media (.picture ⟨2⟩ 0 false), .peerLeft ⟨1⟩,
      .media (.picture ⟨2⟩ 1 false), .renegotiationOffer "offer"].map fun cmd =>
        (Rtc.plain (fun _ => none) 0, .command cmd)) ⟨2⟩ (by simp)
  revert kept
  decide +kernel

end Task

end Seameet
