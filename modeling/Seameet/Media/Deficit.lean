import Seameet.Media.Order

/-!
# The deficit is what the allocator refuses

Two functions decide whether a receiver's line list is long enough. One counts
the unused lines of each kind and subtracts the receiver's own; the other
searches the list for the first line that is unused and not the receiver's own.
A renegotiation is asked for by the first and served by the second.

The lines the search can return are the lines the count is left with, because
the own lines are listed, unused and of a known kind. Giving a peer its pair
takes one line from each pool, so the peers that are refused are those beyond
the smaller pool, in whatever order they come.
-/

namespace Seameet

open Library

/-- How many lines the receiver keeps for its own media. -/
def Lines.ownCount (lines : Lines) : Nat := 2 + (if lines.ownScreenMid.isSome then 1 else 0)

/-- An audio line that is not the receiver's own. -/
def Lines.audioOffered (lines : Lines) (line : Mid × MediaKind) : Bool :=
  line.2 = .audio && some line.1 ≠ lines.ownAudioMid

/-- A video line that is neither the receiver's camera nor its screen. -/
def Lines.videoOffered (lines : Lines) (line : Mid × MediaKind) : Bool :=
  line.2 = .video && some line.1 ≠ lines.ownVideoMid && some line.1 ≠ lines.ownScreenMid

/-- The listed lines of a sort that no slot holds, in list order. -/
def pool (lines : Lines) (slots : SourceSlots) (sort : Mid × MediaKind → Bool) :
    List (Mid × MediaKind) :=
  lines.allMids.filter fun line => sort line && line.1 ∉ usedMids slots

/-- One packet of a peer's camera or microphone asks for the peer's slot. The
record says whether the peer has one now. -/
def place (lines : Lines) (ownAudioPt ownVideoPt : Nat) (midSeqWatermark : Table Mid Nat)
    (slots : SourceSlots) (peer : ParticipantId) : SourceSlots × List Bool :=
  let taken := getOrCreateSlot peer slots lines ownAudioPt ownVideoPt midSeqWatermark false
  (taken.2, [taken.1.isSome])

/-- How many of the peers, asking in this order, get no slot. -/
def refusals (lines : Lines) (ownAudioPt ownVideoPt : Nat) (midSeqWatermark : Table Mid Nat)
    (slots : SourceSlots) (order : List ParticipantId) : Nat :=
  (traced (place lines ownAudioPt ownVideoPt midSeqWatermark) slots order).2.count false

/-- Leaving one member out of a selection makes it one shorter. -/
theorem length_filter_without {α : Type} [DecidableEq α] {members : List α}
    (distinct : members.Nodup) (chosen without : α → Bool) {left : α} (member : left ∈ members)
    (selected : chosen left = true)
    (rest : ∀ other ∈ members, without other = true ↔ chosen other = true ∧ other ≠ left) :
    (members.filter chosen).length = (members.filter without).length + 1 := by
  have shorter : members.filter without = (members.filter chosen).erase left := by
    rw [(distinct.filter _).erase_eq_filter, List.filter_filter]
    refine List.filter_congr fun other listed => ?_
    rw [Bool.eq_iff_iff, rest other listed]
    simp [and_comm]
  have present : left ∈ members.filter chosen := List.mem_filter.mpr ⟨member, selected⟩
  have positive := List.length_pos_of_mem present
  rw [shorter, List.length_erase_of_mem present]
  omega

/-- The first free audio line heads its pool. -/
theorem freeAudio_head (lines : Lines) (slots : SourceSlots) :
    lines.freeAudio slots = (pool lines slots lines.audioOffered).head? :=
  List.head?_filter.symm

/-- The first free video line heads its pool. -/
theorem freeVideo_head (lines : Lines) (slots : SourceSlots) :
    lines.freeVideo slots = (pool lines slots lines.videoOffered).head? :=
  List.head?_filter.symm

/-- The lines in use once a source without slot has one. -/
theorem usedMids_insert {slots : SourceSlots} {source : ParticipantId} (slot : SourceSlot)
    (absent : slots.lookup source = none) (mid : Mid) :
    mid ∈ usedMids (slots.insert source slot) ↔ mid ∈ slot.mids ∨ mid ∈ usedMids slots := by
  simp only [mem_usedMids, Table.lookup_insert_eq]
  constructor
  · rintro ⟨pid, stored, present, holds⟩
    by_cases same : pid = source
    · rw [if_pos same] at present
      exact Or.inl (Option.some.inj present ▸ holds)
    · rw [if_neg same] at present
      exact Or.inr ⟨pid, stored, present, holds⟩
  · rintro (holds | ⟨pid, stored, present, holds⟩)
    · exact ⟨source, slot, if_pos rfl, holds⟩
    · have other : pid ≠ source := by
        rintro rfl
        rw [absent] at present
        exact absurd present (by simp)
      exact ⟨pid, stored, by rw [if_neg other, present], holds⟩

namespace WellAssigned

variable {lines : Lines} {slots : SourceSlots}

/-- A line is listed once. -/
theorem listed_once (assigned : WellAssigned lines slots) {line other : Mid × MediaKind}
    (first : line ∈ lines.allMids) (second : other ∈ lines.allMids) (same : line.1 = other.1) :
    line = other :=
  List.inj_on_of_nodup_map assigned.distinct first second same

/-- The receiver's own lines are in no slot. -/
theorem own_unused (assigned : WellAssigned lines slots) (use : LineUse) {mid : Mid}
    (own : ∀ pid media, use ≠ .source pid media) (holds : held lines slots use = some mid) :
    mid ∉ usedMids slots := by
  intro used
  obtain ⟨pid, media, sourced⟩ := (used_iff_lineOf slots mid).mp used
  exact own pid media (assigned.exclusive use (.source pid media) mid holds sourced)

/-- Setting one unused line aside makes a pool one shorter. -/
theorem pool_without (assigned : WellAssigned lines slots) (sort : Mid × MediaKind → Bool)
    {own : Mid × MediaKind} (listed : own ∈ lines.allMids) (unused : own.1 ∉ usedMids slots)
    (sorted : sort own = true) :
    (pool lines slots sort).length =
      (pool lines slots fun line => sort line && some line.1 ≠ some own.1).length + 1 := by
  refine length_filter_without assigned.distinct.of_map _ _ listed (by simp [sorted, unused]) ?_
  intro other member
  have same : other = own ↔ other.1 = own.1 :=
    ⟨congrArg Prod.fst, assigned.listed_once member listed⟩
  simp only [ne_eq, same, Bool.and_eq_true, decide_eq_true_eq, Option.some.injEq]
  tauto

/-- The unused audio lines are the pool and the receiver's own. -/
theorem audio_count (assigned : WellAssigned lines slots) {own : Mid}
    (kept : lines.ownAudioMid = some own) :
    (pool lines slots fun line => line.2 = .audio).length =
      (pool lines slots lines.audioOffered).length + 1 := by
  have listed : (own, MediaKind.audio) ∈ lines.allMids := assigned.listed .ownAudio own kept
  have unused : own ∉ usedMids slots := assigned.own_unused .ownAudio nofun kept
  have offered : lines.audioOffered = fun line => line.2 = .audio && some line.1 ≠ some own := by
    rw [← kept]
    rfl
  rw [offered]
  exact assigned.pool_without _ listed unused rfl

/-- The unused video lines are the pool and the receiver's camera and screen. -/
theorem video_count (assigned : WellAssigned lines slots) {own : Mid}
    (kept : lines.ownVideoMid = some own) :
    (pool lines slots fun line => line.2 = .video).length =
      (pool lines slots lines.videoOffered).length + (lines.ownCount - 1) := by
  have listed : (own, MediaKind.video) ∈ lines.allMids := assigned.listed .ownVideo own kept
  have unused : own ∉ usedMids slots := assigned.own_unused .ownVideo nofun kept
  have camera := assigned.pool_without (fun line => line.2 = .video) listed unused rfl
  cases shared : lines.ownScreenMid with
  | none =>
    have offered : lines.videoOffered =
        fun line => line.2 = .video && some line.1 ≠ some own := by
      funext line
      simp [Lines.videoOffered, kept, shared]
    rw [offered, camera]
    simp [Lines.ownCount, shared]
  | some screen =>
    have screenListed : (screen, MediaKind.video) ∈ lines.allMids :=
      assigned.listed .ownScreen screen shared
    have screenUnused : screen ∉ usedMids slots :=
      assigned.own_unused .ownScreen nofun shared
    have different : screen ≠ own := by
      rintro rfl
      exact absurd (assigned.exclusive .ownScreen .ownVideo screen shared kept) (by simp)
    have second := assigned.pool_without
      (fun line => line.2 = .video && some line.1 ≠ some own) screenListed screenUnused
      (by simp [different])
    have offered : lines.videoOffered =
        fun line => line.2 = .video && some line.1 ≠ some own && some line.1 ≠ some screen := by
      funext line
      simp only [Lines.videoOffered, kept, shared]
    rw [offered, camera, second]
    simp [Lines.ownCount, shared]

/-- A new slot takes one line of each sort it serves, when its other line is of
another sort. -/
theorem pool_created (assigned : WellAssigned lines slots) (sort : Mid × MediaKind → Bool)
    {source : ParticipantId} {slot : SourceSlot} {own mate : Mid × MediaKind}
    (absent : slots.lookup source = none) (first : (pool lines slots sort).head? = some own)
    (mateListed : mate ∈ lines.allMids) (mateOther : sort mate = false)
    (takes : ∀ mid, mid ∈ slot.mids ↔ mid = own.1 ∨ mid = mate.1) :
    (pool lines slots sort).length =
      (pool lines (slots.insert source slot) sort).length + 1 := by
  obtain ⟨listed, sorted⟩ := List.mem_filter.mp (List.mem_of_head? first)
  refine length_filter_without assigned.distinct.of_map _ _ listed sorted ?_
  intro other member
  have same : other = own ↔ other.1 = own.1 :=
    ⟨congrArg Prod.fst, assigned.listed_once member listed⟩
  have unmatched : sort other = true → other.1 ≠ mate.1 := by
    intro chosen equal
    rw [assigned.listed_once member mateListed equal, mateOther] at chosen
    exact absurd chosen (by simp)
  simp only [ne_eq, same, Bool.and_eq_true, decide_eq_true_eq, usedMids_insert slot absent, takes]
  tauto

end WellAssigned

variable {lines : Lines} (ownAudioPt ownVideoPt : Nat) (midSeqWatermark : Table Mid Nat)

/-- The first peer's answer and the later peers' refusals. -/
theorem refusals_cons (slots : SourceSlots) (peer : ParticipantId) (later : List ParticipantId) :
    refusals lines ownAudioPt ownVideoPt midSeqWatermark slots (peer :: later) =
      refusals lines ownAudioPt ownVideoPt midSeqWatermark
          (getOrCreateSlot peer slots lines ownAudioPt ownVideoPt midSeqWatermark false).2 later +
        (if (getOrCreateSlot peer slots lines ownAudioPt ownVideoPt midSeqWatermark
          false).1.isSome then 0 else 1) := by
  cases answered : (getOrCreateSlot peer slots lines ownAudioPt ownVideoPt midSeqWatermark
    false).1.isSome <;> simp [refusals, traced, place, answered]

/-- Peers without slot are refused beyond the smaller pool, in any order. -/
theorem refusals_exact {slots : SourceSlots} (assigned : WellAssigned lines slots)
    {order : List ParticipantId} (distinct : order.Nodup)
    (absent : ∀ peer ∈ order, slots.lookup peer = none) :
    refusals lines ownAudioPt ownVideoPt midSeqWatermark slots order =
      order.length - min (pool lines slots lines.audioOffered).length
        (pool lines slots lines.videoOffered).length := by
  induction order generalizing slots with
  | nil => simp [refusals, traced]
  | cons peer later inductionHypothesis =>
    obtain ⟨fresh, distinctLater⟩ := List.nodup_cons.mp distinct
    have outcome := getOrCreateSlot_outcome peer slots lines ownAudioPt ownVideoPt
      midSeqWatermark false
    rw [refusals_cons]
    generalize getOrCreateSlot peer slots lines ownAudioPt ownVideoPt midSeqWatermark false =
      taken at outcome ⊢
    cases outcome with
    | kept slot stored settled =>
      rw [absent peer List.mem_cons_self] at stored
      exact absurd stored (by simp)
    | gainedScreen slot line stored screen bare free => exact absurd screen (by simp)
    | refused missing exhausted =>
      have empty : (pool lines slots lines.audioOffered).length = 0 ∨
          (pool lines slots lines.videoOffered).length = 0 := by
        rw [freeAudio_head, freeVideo_head, List.head?_eq_none_iff, List.head?_eq_none_iff]
          at exhausted
        rcases exhausted with none | none <;> simp [none]
      have rest := inductionHypothesis assigned distinctLater
        (fun other member => absent other (List.mem_cons_of_mem peer member))
      simp only [rest, Option.isSome_none, List.length_cons]
      simp only [Bool.false_eq_true, if_false]
      omega
    | created audioLine videoLine missing freeAudio freeVideo =>
      have audioListed := List.mem_of_find?_eq_some freeAudio
      have videoListed := List.mem_of_find?_eq_some freeVideo
      have audioKind : audioLine.2 = .audio :=
        assigned.one_kind audioListed (freeAudio_spec freeAudio).1
      have videoKind : videoLine.2 = .video :=
        assigned.one_kind videoListed (freeVideo_spec freeVideo).1
      let slot : SourceSlot :=
        { audioMid := audioLine.1, videoMid := videoLine.1, screenMid := none,
          audioTxSeq := watermarkOf midSeqWatermark audioLine.1,
          videoTxSeq := watermarkOf midSeqWatermark videoLine.1,
          screenTxSeq := 0, audioPt := ownAudioPt, videoPt := ownVideoPt }
      have takes : ∀ mid, mid ∈ slot.mids ↔ mid = audioLine.1 ∨ mid = videoLine.1 :=
        fun mid => List.mem_pair
      have audioTaken := assigned.pool_created lines.audioOffered missing
        ((freeAudio_head lines slots).symm.trans freeAudio) videoListed
        (by simp [Lines.audioOffered, videoKind]) takes
      have videoTaken := assigned.pool_created lines.videoOffered missing
        ((freeVideo_head lines slots).symm.trans freeVideo) audioListed
        (by simp [Lines.videoOffered, audioKind]) (fun mid => (takes mid).trans or_comm)
      have rest := inductionHypothesis
        (assigned.create peer slot audioLine videoLine missing freeAudio freeVideo rfl rfl rfl)
        distinctLater ?_
      · change refusals lines ownAudioPt ownVideoPt midSeqWatermark (slots.insert peer slot) later +
          0 = later.length + 1 - _
        rw [rest]
        omega
      · intro other member
        have apart : other ≠ peer := fun same => fresh (same ▸ member)
        rw [Table.lookup_insert_eq, if_neg apart]
        exact absent other (List.mem_cons_of_mem peer member)

/-- The remote peers without slot are all but those with one. -/
theorem remaining_length (slots : SourceSlots) {remote : List ParticipantId}
    (distinct : remote.Nodup) (known : ∀ peer ∈ slots.keys, peer ∈ remote) :
    (remote.filter fun peer => (slots.lookup peer).isNone).length =
      remote.length - slots.entries.length := by
  have slotted : (remote.filter fun peer => (slots.lookup peer).isSome).Perm slots.keys := by
    rw [List.perm_ext_iff_of_nodup (distinct.filter _) slots.keys_nodup]
    intro peer
    rw [List.mem_filter, Option.isSome_iff_exists, ← Table.mem_keys]
    exact ⟨And.right, fun listed => ⟨known peer listed, listed⟩⟩
  have counted : (remote.filter fun peer => (slots.lookup peer).isSome).length =
      slots.entries.length := by
    rw [slotted.length_eq]
    exact List.length_map _
  have split := List.length_eq_length_filter_add (l := remote)
    fun peer => (slots.lookup peer).isSome
  have bare : (fun peer => !(slots.lookup peer).isSome) =
      fun peer => (slots.lookup peer).isNone := by
    funext peer
    exact Option.not_isSome _
  rw [counted, bare] at split
  omega

/-- The count asks for the number of refusals, or for nothing when there are
none. -/
theorem needsRenegotiation_eq {slots : SourceSlots} (assigned : WellAssigned lines slots)
    {ownAudio ownVideo : Mid} (audioKept : lines.ownAudioMid = some ownAudio)
    (videoKept : lines.ownVideoMid = some ownVideo) {remote : List ParticipantId}
    (distinct : remote.Nodup) (few : remote.length < u32Range)
    (known : ∀ peer ∈ slots.keys, peer ∈ remote) {order : List ParticipantId}
    (remaining : order.Perm (remote.filter fun peer => (slots.lookup peer).isNone)) :
    needsRenegotiation lines.allMids lines.ownCount slots remote.length =
      if refusals lines ownAudioPt ownVideoPt midSeqWatermark slots order = 0 then none
      else some (refusals lines ownAudioPt ownVideoPt midSeqWatermark slots order) := by
  have exact : refusals lines ownAudioPt ownVideoPt midSeqWatermark slots order =
      order.length - min (pool lines slots lines.audioOffered).length
        (pool lines slots lines.videoOffered).length := by
    refine refusals_exact _ _ _ assigned (remaining.nodup_iff.mpr (distinct.filter _)) ?_
    intro peer member
    exact Option.isNone_iff_eq_none.mp (List.mem_filter.mp (remaining.mem_iff.mp member)).2
  have waiting := remaining.length_eq.trans (remaining_length slots distinct known)
  have audio := assigned.audio_count audioKept
  have video := assigned.video_count videoKept
  have own : min lines.ownCount 1 = 1 := by
    unfold Lines.ownCount
    omega
  have counts : needsRenegotiation lines.allMids lines.ownCount slots remote.length =
      if remote.length = 0 then none
      else
        let available := min
          ((pool lines slots fun line => line.2 = .audio).length - min lines.ownCount 1)
          ((pool lines slots fun line => line.2 = .video).length - (lines.ownCount - 1))
        let waiting := remote.length - slots.entries.length
        if available < waiting then some ((waiting - available) % u32Range) else none := rfl
  rw [counts, exact, waiting, audio, video, own, Nat.add_sub_cancel, Nat.add_sub_cancel]
  generalize min (pool lines slots lines.audioOffered).length
    (pool lines slots lines.videoOffered).length = available
  by_cases alone : remote.length = 0
  · simp [alone]
  · have bounded : remote.length - slots.entries.length - available < u32Range := by omega
    simp only [if_neg alone, Nat.mod_eq_of_lt bounded]
    split <;> split <;> first | rfl | omega

/-- Nothing is asked for exactly when every remaining peer gets its slot, and a
deficit is asked for exactly when that many do not, in whatever order they come.

Each remaining peer takes a free line or does not, and the number asked for is that of the
refusals. How many are refused does not depend on the order. -/
theorem deficit_exact {slots : SourceSlots} (assigned : WellAssigned lines slots)
    {ownAudio ownVideo : Mid} (audioKept : lines.ownAudioMid = some ownAudio)
    (videoKept : lines.ownVideoMid = some ownVideo) {remote : List ParticipantId}
    (distinct : remote.Nodup) (few : remote.length < u32Range)
    (known : ∀ peer ∈ slots.keys, peer ∈ remote) {order : List ParticipantId}
    (remaining : order.Perm (remote.filter fun peer => (slots.lookup peer).isNone)) :
    (needsRenegotiation lines.allMids lines.ownCount slots remote.length = none ↔
      ∀ answer ∈ (traced (place lines ownAudioPt ownVideoPt midSeqWatermark) slots order).2,
        answer = true) ∧
    ∀ deficit, needsRenegotiation lines.allMids lines.ownCount slots remote.length = some deficit ↔
      deficit ≠ 0 ∧ refusals lines ownAudioPt ownVideoPt midSeqWatermark slots order = deficit := by
  have asked := needsRenegotiation_eq ownAudioPt ownVideoPt midSeqWatermark assigned audioKept
    videoKept distinct few known remaining
  have served : refusals lines ownAudioPt ownVideoPt midSeqWatermark slots order = 0 ↔
      ∀ answer ∈ (traced (place lines ownAudioPt ownVideoPt midSeqWatermark) slots order).2,
        answer = true := by
    rw [refusals, List.count_eq_zero]
    constructor
    · intro never answer member
      cases answer with
      | false => exact absurd member never
      | true => rfl
    · intro all member
      exact absurd (all false member) (by simp)
  rw [asked, ← served]
  by_cases none : refusals lines ownAudioPt ownVideoPt midSeqWatermark slots order = 0
  · simp only [none, if_true, true_and]
    intro deficit
    simp [eq_comm]
  · simp only [none, if_false]
    refine ⟨by simp, fun deficit => ?_⟩
    rw [Option.some.injEq]
    constructor
    · rintro rfl
      exact ⟨none, rfl⟩
    · exact And.right

/-- A task whose only pair to give serves one camera. -/
def Task.oneServed : Task :=
  (Task.run (Task.start ⟨0⟩ 111 96 "room" 0 onePair)
    [(Rtc.plain (fun _ => none) 0, .command (.media (.picture ⟨1⟩ 0 false)))]).1

/-- Two more peers ask for slots in either order. -/
theorem deficit_exact_two :
    (needsRenegotiation Task.oneServed.lines.allMids Task.oneServed.lines.ownCount
        Task.oneServed.sourceSlots 3 = none ↔
      ∀ answer ∈ (traced (place Task.oneServed.lines 111 96 ∅) Task.oneServed.sourceSlots
        [⟨3⟩, ⟨2⟩]).2, answer = true) ∧
    ∀ deficit, needsRenegotiation Task.oneServed.lines.allMids Task.oneServed.lines.ownCount
        Task.oneServed.sourceSlots 3 = some deficit ↔
      deficit ≠ 0 ∧
        refusals Task.oneServed.lines 111 96 ∅ Task.oneServed.sourceSlots [⟨3⟩, ⟨2⟩] = deficit := by
  have assigned : WellAssigned Task.oneServed.lines Task.oneServed.sourceSlots :=
    Task.run_assigned _ (Task.start_assigned ⟨0⟩ 111 96 "room" 0 Task.onePair) _
  have audioKept : Task.oneServed.lines.ownAudioMid = some ⟨"0"⟩ := by decide +kernel
  have videoKept : Task.oneServed.lines.ownVideoMid = some ⟨"1"⟩ := by decide +kernel
  exact deficit_exact 111 96 ∅ assigned audioKept videoKept
    (by decide : [(⟨1⟩ : ParticipantId), ⟨2⟩, ⟨3⟩].Nodup) (by decide) (by decide +kernel)
    (by decide +kernel)

namespace Task

variable (rtc : Rtc) (task : Task)

/-- A task whose own lines are known asks for a renegotiation exactly when some
of the remaining peers would be refused, and names their number. -/
theorem peerCountChanged_request (assigned : WellAssigned task.lines task.sourceSlots)
    {ownAudio ownVideo : Mid} (audioKept : task.lines.ownAudioMid = some ownAudio)
    (videoKept : task.lines.ownVideoMid = some ownVideo) {remote : List ParticipantId}
    (distinct : remote.Nodup) (few : remote.length < u32Range)
    (known : ∀ peer ∈ task.sourceSlots.keys, peer ∈ remote) {order : List ParticipantId}
    (remaining : order.Perm (remote.filter fun peer => (task.sourceSlots.lookup peer).isNone))
    (deficit : Nat) :
    Output.ws (.serialised (.requestRenegotiation task.roomId deficit)) ∈
        (task.peerCountChanged rtc remote.length).2 ↔
      deficit ≠ 0 ∧ refusals task.lines task.ownAudioPt task.ownVideoPt task.midSeqWatermark
        task.sourceSlots order = deficit := by
  have asked := needsRenegotiation_eq task.ownAudioPt task.ownVideoPt task.midSeqWatermark
    assigned audioKept videoKept distinct few known remaining
  have unsent : ∀ mid frame, Output.ws frame ∉ requestOwn rtc mid := by
    intro mid frame
    unfold requestOwn
    cases mid with
    | none => simp
    | some mid => split <;> simp
  have keyframes : ∀ (grown : Bool) frame, Output.ws frame ∉
      (if grown then
        requestOwn rtc task.lines.ownVideoMid ++ requestOwn rtc task.lines.ownScreenMid
      else []) := by
    intro grown frame
    cases grown <;> simp [unsent]
  simp only [peerCountChanged, List.mem_append, keyframes, or_false]
  rw [Lines.ownCount] at asked
  by_cases none : refusals task.lines task.ownAudioPt task.ownVideoPt task.midSeqWatermark
      task.sourceSlots order = 0
  · rw [if_pos none] at asked
    simp only [asked, none, List.not_mem_nil, false_iff, not_and]
    exact fun some same => some same.symm
  · rw [if_neg none] at asked
    simp only [asked, List.mem_singleton, Output.ws.injEq, Frame.serialised.injEq,
      SdpMessage.requestRenegotiation.injEq, true_and]
    constructor
    · rintro rfl
      exact ⟨none, rfl⟩
    · exact fun same => same.2.symm

end Task

end Seameet
