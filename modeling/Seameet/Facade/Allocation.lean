import Seameet.Library.Traced
import Seameet.Facade.Forwarder

/-!
# The two slot allocators

The facade's forwarding task and the SFU's media task each have a copy of the search
for a source's lines. The SFU's copy also knows of screen lines, of the receiver's own
screen and of the numbers that lines were left at. Where none of these is in play, both
copies refuse the same calls and give every source the same lines, whatever was asked
before.
-/

namespace Seameet

open Library

/-- The lines of a source, apart from its screen. -/
def SourceSlot.pair (slot : SourceSlot) : Mid × Mid := (slot.audioMid, slot.videoMid)

/-- The same of the facade's slots. -/
def Facade.SourceSlot.pair (slot : Facade.SourceSlot) : Mid × Mid := (slot.audioMid, slot.videoMid)

/-- One call of the SFU's allocator for a receiver without a screen, for media that is
no screen and with no watermarks: the slots afterwards, and the lines it answers. -/
def allocate (allMids : List (Mid × MediaKind)) (ownAudioMid ownVideoMid : Option Mid)
    (ownAudioPt ownVideoPt : Nat) (slots : SourceSlots) (source : ParticipantId) :
    SourceSlots × List (Option (Mid × Mid)) :=
  let asked := getOrCreateSlot source slots { allMids, ownAudioMid, ownVideoMid, ownScreenMid := none }
    ownAudioPt ownVideoPt ∅ false
  (asked.2, [asked.1.map SourceSlot.pair])

/-- One call of the facade's allocator. -/
def Facade.allocate (allMids : List (Mid × MediaKind)) (ownAudioMid ownVideoMid : Option Mid)
    (audioPt videoPt : UInt8) (slots : Table ParticipantId Facade.SourceSlot) (source : ParticipantId) :
    Table ParticipantId Facade.SourceSlot × List (Option (Mid × Mid)) :=
  match Facade.getOrCreateSlot source slots allMids ownAudioMid ownVideoMid audioPt videoPt with
  | some (slot, after) => (after, [some slot.pair])
  | none => (slots, [none])

/-- Both tables hold the same lines for every source, and no screen line is given out. -/
structure Matched (facade : Table ParticipantId Facade.SourceSlot) (sfu : SourceSlots) : Prop where
  pairs : ∀ source, (facade.lookup source).map Facade.SourceSlot.pair =
    (sfu.lookup source).map SourceSlot.pair
  bare : ∀ source slot, sfu.lookup source = some slot → slot.screenMid = none

namespace Matched

variable {facade : Table ParticipantId Facade.SourceSlot} {sfu : SourceSlots}

/-- A line is assigned in one table exactly when it is in the other. -/
theorem mem_usedMids (matched : Matched facade sfu) (mid : Mid) :
    mid ∈ Facade.usedMids facade ↔ mid ∈ usedMids sfu := by
  rw [Seameet.mem_usedMids]
  simp only [Facade.usedMids, List.mem_flatMap, Table.mem_values, mem_slot_mids, List.mem_cons,
    List.not_mem_nil, or_false]
  constructor
  · rintro ⟨slot, ⟨source, stored⟩, holds⟩
    have same := matched.pairs source
    rw [stored, Option.map_some] at same
    obtain ⟨other, held, lines⟩ := Option.map_eq_some_iff.mp same.symm
    obtain ⟨audio, video⟩ := Prod.mk.inj lines
    refine ⟨source, other, held, ?_⟩
    rcases holds with rfl | rfl
    · exact .inl audio.symm
    · exact .inr (.inl video.symm)
  · rintro ⟨source, slot, stored, holds⟩
    have same := matched.pairs source
    rw [stored, Option.map_some] at same
    obtain ⟨other, held, lines⟩ := Option.map_eq_some_iff.mp same
    obtain ⟨audio, video⟩ := Prod.mk.inj lines
    refine ⟨other, ⟨source, held⟩, ?_⟩
    rcases holds with rfl | rfl | screen
    · exact .inl audio.symm
    · exact .inr video.symm
    · rw [matched.bare source slot stored] at screen
      cases screen

variable {allMids : List (Mid × MediaKind)} {ownAudioMid ownVideoMid : Option Mid}

/-- Both searches find the same free audio line. -/
theorem freeAudio (matched : Matched facade sfu) :
    Facade.freeLine .audio ownAudioMid allMids facade =
      Lines.freeAudio { allMids, ownAudioMid, ownVideoMid, ownScreenMid := none } sfu := by
  have same : ∀ mid, decide (mid ∉ Facade.usedMids facade) = decide (mid ∉ usedMids sfu) :=
    fun mid => decide_eq_decide.mpr (not_congr (matched.mem_usedMids mid))
  simp only [Facade.freeLine, Lines.freeAudio, same]

/-- Both searches find the same free video line: without a screen of its own the
receiver keeps back one line only. -/
theorem freeVideo (matched : Matched facade sfu) :
    Facade.freeLine .video ownVideoMid allMids facade =
      Lines.freeVideo { allMids, ownAudioMid, ownVideoMid, ownScreenMid := none } sfu := by
  have same : ∀ mid, decide (mid ∉ Facade.usedMids facade) = decide (mid ∉ usedMids sfu) :=
    fun mid => decide_eq_decide.mpr (not_congr (matched.mem_usedMids mid))
  have unshared : ∀ mid : Mid, decide (some mid ≠ none) = true := fun mid => rfl
  simp only [Facade.freeLine, Lines.freeVideo, same, unshared, Bool.and_true]

/-- A source is given the same lines in both tables. -/
theorem insert (matched : Matched facade sfu) (source : ParticipantId)
    (given : Facade.SourceSlot) (slot : SourceSlot) (lines : given.pair = slot.pair)
    (unscreened : slot.screenMid = none) :
    Matched (facade.insert source given) (sfu.insert source slot) := by
  refine ⟨?_, ?_⟩
  · intro tested
    rw [Table.lookup_insert_eq, Table.lookup_insert_eq]
    split
    · exact congrArg some lines
    · exact matched.pairs tested
  · intro tested found stored
    rw [Table.lookup_insert_eq] at stored
    split at stored
    · cases stored
      exact unscreened
    · exact matched.bare tested found stored

/-- The SFU writes a known source's slot back as it is. -/
theorem rewritten (matched : Matched facade sfu) {source : ParticipantId} {slot : SourceSlot}
    (stored : sfu.lookup source = some slot) : Matched facade (sfu.insert source slot) := by
  have same : ∀ tested, (sfu.insert source slot).lookup tested = sfu.lookup tested := by
    intro tested
    rw [Table.lookup_insert_eq]
    split
    · rename_i here
      rw [here, stored]
    · rfl
  refine ⟨?_, ?_⟩
  · intro tested
    rw [same]
    exact matched.pairs tested
  · intro tested
    rw [same]
    exact matched.bare tested

/-- One call answers the same in both, and leaves the tables matched. The cases are
those of the SFU's allocator. -/
theorem step (matched : Matched facade sfu) (audioPt videoPt : UInt8)
    (ownAudioPt ownVideoPt : Nat) (source : ParticipantId) :
    Matched (Facade.allocate allMids ownAudioMid ownVideoMid audioPt videoPt facade source).1
        (allocate allMids ownAudioMid ownVideoMid ownAudioPt ownVideoPt sfu source).1 ∧
      (Facade.allocate allMids ownAudioMid ownVideoMid audioPt videoPt facade source).2 =
        (allocate allMids ownAudioMid ownVideoMid ownAudioPt ownVideoPt sfu source).2 := by
  have outcome := getOrCreateSlot_outcome source sfu
    { allMids, ownAudioMid, ownVideoMid, ownScreenMid := none } ownAudioPt ownVideoPt ∅ false
  have same := matched.pairs source
  have audio := @freeAudio _ _ allMids ownAudioMid ownVideoMid matched
  have video := @freeVideo _ _ allMids ownAudioMid ownVideoMid matched
  simp only [allocate, Facade.allocate, Facade.getOrCreateSlot]
  generalize getOrCreateSlot source sfu
    { allMids, ownAudioMid, ownVideoMid, ownScreenMid := none } ownAudioPt ownVideoPt ∅ false =
      asked at outcome
  cases outcome with
  | kept slot stored =>
    rw [stored, Option.map_some] at same
    obtain ⟨given, held, lines⟩ := Option.map_eq_some_iff.mp same
    rw [held]
    exact ⟨matched.rewritten stored, congrArg (fun pair => [some pair]) lines⟩
  | gainedScreen _ _ _ screen => cases screen
  | created audioLine videoLine absent isAudio isVideo =>
    rw [absent, Option.map_none, Option.map_eq_none_iff] at same
    rw [same, audio, isAudio, video, isVideo]
    exact ⟨matched.insert source _ _ rfl rfl, rfl⟩
  | refused absent exhausted =>
    rw [absent, Option.map_none, Option.map_eq_none_iff] at same
    rw [same, audio, video]
    rcases exhausted with none | none
    · rw [none]
      exact ⟨matched, rfl⟩
    · rw [none]
      cases Lines.freeAudio { allMids, ownAudioMid, ownVideoMid, ownScreenMid := Option.none } sfu with
      | none => exact ⟨matched, rfl⟩
      | some line => exact ⟨matched, rfl⟩

end Matched

/-- The two allocators agree. Whatever the lists of lines, the receiver's own lines and
the calls, they succeed on the same calls and answer the same lines, and in the end
they keep the same lines for every source.

The two tables are kept alike, entry for entry, and each call is answered by the same free
line on either side. -/
theorem allocators_agree (allMids : List (Mid × MediaKind)) (ownAudioMid ownVideoMid : Option Mid)
    (audioPt videoPt : UInt8) (ownAudioPt ownVideoPt : Nat) (sources : List ParticipantId) :
    let facade := traced (Facade.allocate allMids ownAudioMid ownVideoMid audioPt videoPt) ∅ sources
    let sfu := traced (allocate allMids ownAudioMid ownVideoMid ownAudioPt ownVideoPt) ∅ sources
    facade.2 = sfu.2 ∧
      ∀ source, (facade.1.lookup source).map Facade.SourceSlot.pair =
        (sfu.1.lookup source).map SourceSlot.pair := by
  intro facade sfu
  have initial : Matched ∅ ∅ := ⟨fun _ => rfl, fun _ _ stored => by simp at stored⟩
  obtain ⟨matched, answers⟩ := traced_simulates Matched sources
    (fun _ _ source _ related => related.step audioPt videoPt ownAudioPt ownVideoPt source) initial
  exact ⟨answers, matched.pairs⟩

/-- Three sources ask for lines of a pool with one audio line too few. The third is
refused by both copies, and asking again changes nothing. -/
example :
    (traced (allocate [(⟨"0"⟩, .audio), (⟨"1"⟩, .video), (⟨"2"⟩, .audio), (⟨"3"⟩, .video),
        (⟨"4"⟩, .video), (⟨"5"⟩, .audio), (⟨"6"⟩, .video)] (some ⟨"0"⟩) (some ⟨"1"⟩) 111 96) ∅
      [⟨7⟩, ⟨8⟩, ⟨9⟩, ⟨7⟩]).2 =
      [some (⟨"2"⟩, ⟨"3"⟩), some (⟨"5"⟩, ⟨"4"⟩), none, some (⟨"2"⟩, ⟨"3"⟩)] := by
  decide +kernel

end Seameet
