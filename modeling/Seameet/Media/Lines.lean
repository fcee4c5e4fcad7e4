import Seameet.Library.Table
import Seameet.Library.Leases
import Seameet.Signaling.Message

/-!
# Media lines and source slots

A receiver's media task forwards each remote source on media lines of its own
peer connection, named by mids. `getOrCreateSlot` gives a source the first free
audio line and the first free video line of the task's list, and gives it a
second video line when screen media arrives. `needsRenegotiation` counts how
many pairs are missing.

The counter kept with each line is the next sequence number to use. It is a
64-bit integer in the source, incremented once for each packet.
-/

namespace Seameet

open Library

/-- A media-line identifier of the peer connection. -/
structure Mid where
  name : String
deriving DecidableEq

/-- The two kinds of media line. -/
inductive MediaKind where
  | audio
  | video
deriving DecidableEq

/-- The lines a receiver forwards one source on, with the next sequence number
of each use. -/
structure SourceSlot where
  audioMid : Mid
  videoMid : Mid
  screenMid : Option Mid
  audioTxSeq : Nat
  videoTxSeq : Nat
  screenTxSeq : Nat
  audioPt : Nat
  videoPt : Nat
deriving DecidableEq

/-- The lines a slot occupies. -/
def SourceSlot.mids (slot : SourceSlot) : List Mid :=
  [slot.audioMid, slot.videoMid] ++ slot.screenMid.toList

/-- The source slots of one media task. -/
abbrev SourceSlots := Table ParticipantId SourceSlot

/-- Mids already used by existing slots. -/
def usedMids (slots : SourceSlots) : List Mid := slots.values.flatMap SourceSlot.mids

/-- The task's list of lines and the lines it keeps for the receiver's own media. -/
structure Lines where
  allMids : List (Mid × MediaKind)
  ownAudioMid : Option Mid
  ownVideoMid : Option Mid
  ownScreenMid : Option Mid
deriving DecidableEq

namespace Lines

/-- The first free audio line, in list order. -/
def freeAudio (lines : Lines) (slots : SourceSlots) : Option (Mid × MediaKind) :=
  lines.allMids.find? fun line =>
    line.2 = .audio && some line.1 ≠ lines.ownAudioMid && line.1 ∉ usedMids slots

/-- The first free video line, in list order. Camera and screen lines are both
taken from here. -/
def freeVideo (lines : Lines) (slots : SourceSlots) : Option (Mid × MediaKind) :=
  lines.allMids.find? fun line =>
    line.2 = .video && some line.1 ≠ lines.ownVideoMid && some line.1 ≠ lines.ownScreenMid &&
      line.1 ∉ usedMids slots

end Lines

/-- The high-water mark of a line, zero where none was recorded. -/
def watermarkOf (midSeqWatermark : Table Mid Nat) (mid : Mid) : Nat :=
  (midSeqWatermark.lookup mid).getD 0

/-- Give a slot a screen line if the packet is screen media, the slot has none
and a video line is free. Its screen counter stays as it is. -/
def updateScreen (slots : SourceSlots) (lines : Lines) (mediaIsScreen : Bool) (slot : SourceSlot) :
    SourceSlot :=
  if mediaIsScreen && slot.screenMid.isNone then
    match lines.freeVideo slots with
    | some (mid, _) => { slot with screenMid := some mid }
    | none => slot
  else slot

/-- The slot of a source, created on the first free lines if it has none. The
result is the slot, if there is one now, and the updated slot table. -/
def getOrCreateSlot (sourcePid : ParticipantId) (slots : SourceSlots) (lines : Lines)
    (ownAudioPt ownVideoPt : Nat) (midSeqWatermark : Table Mid Nat) (mediaIsScreen : Bool) :
    Option SourceSlot × SourceSlots :=
  match slots.lookup sourcePid with
  | some slot =>
      let updated := updateScreen slots lines mediaIsScreen slot
      (some updated, slots.insert sourcePid updated)
  | none =>
      match lines.freeAudio slots, lines.freeVideo slots with
      | some (audioMid, _), some (videoMid, _) =>
          -- The screen line is never allocated here, only when screen media arrives.
          let slot : SourceSlot :=
            { audioMid, videoMid, screenMid := none,
              audioTxSeq := watermarkOf midSeqWatermark audioMid,
              videoTxSeq := watermarkOf midSeqWatermark videoMid,
              screenTxSeq := 0, audioPt := ownAudioPt, videoPt := ownVideoPt }
          (some slot, slots.insert sourcePid slot)
      | _, _ => (none, slots)

/-- The number of 32-bit values; `as u32` truncates. -/
def u32Range : Nat := 4294967296

/-- How many audio and video pairs are missing to give every remote peer a
slot, none when the lines suffice. -/
def needsRenegotiation (allMids : List (Mid × MediaKind)) (ownCount : Nat) (slots : SourceSlots)
    (remotePeerCount : Nat) : Option Nat :=
  if remotePeerCount = 0 then none
  else
    let free := fun kind =>
      (allMids.filter fun line => line.2 = kind && line.1 ∉ usedMids slots).length
    let freeAudio := free .audio - min ownCount 1
    let freeVideo := free .video - (ownCount - 1)
    let slotsAvailable := min freeAudio freeVideo
    let peersWithoutSlot := remotePeerCount - slots.entries.length
    if slotsAvailable < peersWithoutSlot then some ((peersWithoutSlot - slotsAvailable) % u32Range)
    else none

/-- A line is used exactly when some slot holds it. -/
theorem mem_usedMids (mid : Mid) (slots : SourceSlots) :
    mid ∈ usedMids slots ↔ ∃ source slot, slots.lookup source = some slot ∧ mid ∈ slot.mids := by
  simp only [usedMids, List.mem_flatMap, Table.mem_values]
  constructor
  · rintro ⟨slot, ⟨source, stored⟩, holds⟩
    exact ⟨source, slot, stored, holds⟩
  · rintro ⟨source, slot, stored, holds⟩
    exact ⟨slot, ⟨source, stored⟩, holds⟩

/-- The lines of a slot, by use. -/
theorem mem_slot_mids (mid : Mid) (slot : SourceSlot) :
    mid ∈ slot.mids ↔ mid = slot.audioMid ∨ mid = slot.videoMid ∨ slot.screenMid = some mid := by
  simp [SourceSlot.mids]

/-- What a free audio line is: listed as audio, not the receiver's own, and in
no slot. -/
theorem freeAudio_spec {lines : Lines} {slots : SourceSlots} {line : Mid × MediaKind}
    (found : lines.freeAudio slots = some line) :
    (line.1, MediaKind.audio) ∈ lines.allMids ∧ lines.ownAudioMid ≠ some line.1 ∧
      line.1 ∉ usedMids slots := by
  have listed : line ∈ lines.allMids := List.mem_of_find?_eq_some found
  have passed := List.find?_some found
  simp only [Bool.and_eq_true, decide_eq_true_eq] at passed
  obtain ⟨⟨kind, notOwn⟩, unused⟩ := passed
  exact ⟨kind ▸ listed, fun own => notOwn own.symm, unused⟩

/-- What a free video line is: listed as video, neither the receiver's camera
nor its screen, and in no slot. -/
theorem freeVideo_spec {lines : Lines} {slots : SourceSlots} {line : Mid × MediaKind}
    (found : lines.freeVideo slots = some line) :
    (line.1, MediaKind.video) ∈ lines.allMids ∧ lines.ownVideoMid ≠ some line.1 ∧
      lines.ownScreenMid ≠ some line.1 ∧ line.1 ∉ usedMids slots := by
  have listed : line ∈ lines.allMids := List.mem_of_find?_eq_some found
  have passed := List.find?_some found
  simp only [Bool.and_eq_true, decide_eq_true_eq] at passed
  obtain ⟨⟨⟨kind, notCamera⟩, notScreen⟩, unused⟩ := passed
  exact ⟨kind ▸ listed, fun own => notCamera own.symm, fun own => notScreen own.symm, unused⟩

/-- What asking for a source's slot can do, with the guards of each outcome. -/
inductive SlotOutcome (source : ParticipantId) (slots : SourceSlots) (lines : Lines)
    (ownAudioPt ownVideoPt : Nat) (midSeqWatermark : Table Mid Nat) (mediaIsScreen : Bool) :
    Option SourceSlot × SourceSlots → Prop
  /-- The slot stays as it is. -/
  | kept (slot : SourceSlot) (stored : slots.lookup source = some slot)
      (settled : mediaIsScreen = true → slot.screenMid = none → lines.freeVideo slots = none) :
      SlotOutcome source slots lines ownAudioPt ownVideoPt midSeqWatermark mediaIsScreen
        (some slot, slots.insert source slot)
  /-- The slot gains a free video line for screen media, keeping its counter. -/
  | gainedScreen (slot : SourceSlot) (line : Mid × MediaKind)
      (stored : slots.lookup source = some slot) (screen : mediaIsScreen = true)
      (bare : slot.screenMid = none) (free : lines.freeVideo slots = some line) :
      SlotOutcome source slots lines ownAudioPt ownVideoPt midSeqWatermark mediaIsScreen
        (some { slot with screenMid := some line.1 },
          slots.insert source { slot with screenMid := some line.1 })
  /-- A slot is created on the first free lines, its counters at the watermarks. -/
  | created (audioLine videoLine : Mid × MediaKind) (absent : slots.lookup source = none)
      (freeAudio : lines.freeAudio slots = some audioLine)
      (freeVideo : lines.freeVideo slots = some videoLine) :
      SlotOutcome source slots lines ownAudioPt ownVideoPt midSeqWatermark mediaIsScreen
        (some { audioMid := audioLine.1, videoMid := videoLine.1, screenMid := none,
                audioTxSeq := watermarkOf midSeqWatermark audioLine.1,
                videoTxSeq := watermarkOf midSeqWatermark videoLine.1,
                screenTxSeq := 0, audioPt := ownAudioPt, videoPt := ownVideoPt },
          slots.insert source
            { audioMid := audioLine.1, videoMid := videoLine.1, screenMid := none,
              audioTxSeq := watermarkOf midSeqWatermark audioLine.1,
              videoTxSeq := watermarkOf midSeqWatermark videoLine.1,
              screenTxSeq := 0, audioPt := ownAudioPt, videoPt := ownVideoPt })
  /-- The source has no slot and one of the two kinds of line is used up. -/
  | refused (absent : slots.lookup source = none)
      (exhausted : lines.freeAudio slots = none ∨ lines.freeVideo slots = none) :
      SlotOutcome source slots lines ownAudioPt ownVideoPt midSeqWatermark mediaIsScreen
        (none, slots)

/-- `getOrCreateSlot` does one of these four things. -/
theorem getOrCreateSlot_outcome (source : ParticipantId) (slots : SourceSlots) (lines : Lines)
    (ownAudioPt ownVideoPt : Nat) (midSeqWatermark : Table Mid Nat) (mediaIsScreen : Bool) :
    SlotOutcome source slots lines ownAudioPt ownVideoPt midSeqWatermark mediaIsScreen
      (getOrCreateSlot source slots lines ownAudioPt ownVideoPt midSeqWatermark mediaIsScreen) := by
  unfold getOrCreateSlot
  cases stored : slots.lookup source with
  | some slot =>
    by_cases wanted : mediaIsScreen = true ∧ slot.screenMid = none
    · cases free : lines.freeVideo slots with
      | some line =>
        simpa [updateScreen, wanted.1, wanted.2, free] using
          SlotOutcome.gainedScreen slot line stored wanted.1 wanted.2 free
      | none =>
        simpa [updateScreen, wanted.1, wanted.2, free] using
          SlotOutcome.kept slot stored (fun _ _ => free)
    · have unchanged : updateScreen slots lines mediaIsScreen slot = slot := by
        simp only [updateScreen, Bool.and_eq_true, Option.isNone_iff_eq_none, wanted, ↓reduceIte]
      simpa only [unchanged] using SlotOutcome.kept slot stored
        (fun screen bare => absurd ⟨screen, bare⟩ wanted)
  | none =>
    cases freeAudio : lines.freeAudio slots with
    | none => exact SlotOutcome.refused stored (Or.inl freeAudio)
    | some audioLine =>
      cases freeVideo : lines.freeVideo slots with
      | none => exact SlotOutcome.refused stored (Or.inr freeVideo)
      | some videoLine => exact SlotOutcome.created audioLine videoLine stored freeAudio freeVideo

end Seameet
