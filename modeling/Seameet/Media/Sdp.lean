import Seameet.Library.Text
import Seameet.Library.Traced
import Seameet.Media.Lines

/-!
# Session descriptions as text

Two small readers of session descriptions work on lines. One collects the mids of the
audio and video sections, in one pass that remembers the kind of the last such section
whose mid is yet to come. The other turns receive-only sections around, except those
that are switched off, and writes every line back with the same ending.

What the first one should collect is said by sections: an m-line and the lines up to
the next one.
-/

namespace Seameet

open Library Text

namespace Sdp

/-- The kind of section that a line is taken to begin. -/
def takenFor (line : Text) : Option MediaKind :=
  if "m=audio".toList.isPrefixOf (trim line) then some .audio
  else if "m=video".toList.isPrefixOf (trim line) then some .video
  else none

/-- The mid that a line names. -/
def midOn (midFrom : Text → Mid) (line : Text) : Option Mid :=
  (stripBeginning "a=mid:".toList (trim line)).map fun name => midFrom (trim name)

/-- One line: the kind whose mid is yet to come, and the pair it completes. -/
def parseLine (midFrom : Text → Mid) (currentKind : Option MediaKind) (line : Text) :
    Option MediaKind × List (Mid × MediaKind) :=
  match takenFor line with
  | some kind => (some kind, [])
  | none =>
      match currentKind, midOn midFrom line with
      | some kind, some mid => (none, [(mid, kind)])
      | _, _ => (currentKind, [])

end Sdp

/-- The mids of a session description with their kinds. How a mid is made of its name
is not known here. -/
def parseMidsFromSdp (midFrom : Text → Mid) (sdp : String) : List (Mid × MediaKind) :=
  (traced (Sdp.parseLine midFrom) none (lines sdp.toList)).2

namespace Sdp

/-- Whether a line begins a section. -/
def isMLine (line : Text) : Bool := "m=".toList.isPrefixOf (trim line)

/-- The kind of section that a line begins, by its first word. -/
def mediaKind (line : Text) : Option MediaKind :=
  let media := ((stripBeginning "m=".toList (trim line)).getD []).takeWhile (!isWhiteSpace ·)
  if media = "audio".toList then some .audio else if media = "video".toList then some .video else none

/-- The lines before the next section. -/
def untilMLine (lines : List Text) : List Text := lines.takeWhile (!isMLine ·)

/-- The lines before the next section that is taken for audio or video. -/
def untilTaken (lines : List Text) : List Text := lines.takeWhile fun line => (takenFor line).isNone

/-- The first mid that lines name. -/
def firstMid (midFrom : Text → Mid) (lines : List Text) : Option Mid := lines.findSome? (midOn midFrom)

/-- The mid and kind of each audio or video section that has a mid, in order. -/
def mediaSections (midFrom : Text → Mid) : List Text → List (Mid × MediaKind)
  | [] => []
  | line :: rest =>
      match mediaKind line, firstMid midFrom (untilMLine rest) with
      | some kind, some mid => (mid, kind) :: mediaSections midFrom rest
      | _, _ => mediaSections midFrom rest

/-- A mid between one line taken to begin audio or video and the next comes only where
that line does begin such a section and the section has a mid of its own. -/
def Attributed (midFrom : Text → Mid) : List Text → Prop
  | [] => True
  | line :: rest =>
      ((takenFor line).isSome = true →
        mediaKind line = none ∨ firstMid midFrom (untilMLine rest) = none →
        firstMid midFrom (untilTaken rest) = none) ∧ Attributed midFrom rest

/-- The prefixes the audio section's first line is searched for are read in one piece. -/
theorem begins_audio : "m=".toList ++ "audio".toList = "m=audio".toList := by decide +kernel

/-- The prefixes the video section's first line is searched for are read in one piece. -/
theorem begins_video : "m=".toList ++ "video".toList = "m=video".toList := by decide +kernel

/-- A line that begins an audio or video section is taken for one. -/
theorem takenFor_of_mediaKind {line : Text} {kind : MediaKind} (begins : mediaKind line = some kind) :
    takenFor line = some kind := by
  unfold mediaKind at begins
  cases stripped : stripBeginning "m=".toList (trim line) with
  | none =>
    rw [stripped] at begins
    cases begins
  | some after =>
    rw [stripped] at begins
    dsimp only [Option.getD_some] at begins
    unfold stripBeginning at stripped
    split at stripped
    · rename_i beginning
      have whole := List.prefix_iff_eq_append.mp (List.isPrefixOf_iff_prefix.mp beginning)
      rw [Option.some.inj stripped] at whole
      have first := List.takeWhile_prefix (!isWhiteSpace ·) (l := after)
      have longer : ∀ media : Text, after.takeWhile (!isWhiteSpace ·) = media →
          "m=".toList ++ media <+: trim line := by
        rintro media rfl
        rw [← whole]
        exact (List.prefix_append_right_inj _).mpr first
      split at begins
      · rename_i audio
        cases begins
        have audio := longer _ audio
        rw [begins_audio] at audio
        exact if_pos (List.isPrefixOf_iff_prefix.mpr audio)
      · split at begins
        · rename_i video
          cases begins
          have video := longer _ video
          rw [begins_video] at video
          unfold takenFor
          rw [if_neg, if_pos (List.isPrefixOf_iff_prefix.mpr video)]
          intro audio
          have audio := List.isPrefixOf_iff_prefix.mp audio
          have length : "m=audio".toList.length = "m=video".toList.length := by decide +kernel
          have same := List.prefix_of_prefix_length_le audio video (Nat.le_of_eq length)
          exact absurd (same.eq_of_length length) (by decide +kernel)
        · cases begins
    · cases stripped

/-- Only a line that begins a section is taken for audio or video. -/
theorem isMLine_of_takenFor {line : Text} {kind : MediaKind} (taken : takenFor line = some kind) :
    isMLine line = true := by
  have longer : ∀ media : Text, ("m=".toList ++ media).isPrefixOf (trim line) = true →
      isMLine line = true := by
    intro media begins
    have whole := List.isPrefixOf_iff_prefix.mp begins
    exact List.isPrefixOf_iff_prefix.mpr ((List.prefix_append _ _).trans whole)
  unfold takenFor at taken
  split at taken
  · rename_i audio
    rw [← begins_audio] at audio
    exact longer _ audio
  · split at taken
    · rename_i video
      rw [← begins_video] at video
      exact longer _ video
    · cases taken

variable (midFrom : Text → Mid)

/-- With a kind pending, the first mid up to the next line taken for audio or video is
given that kind. The rest is read as if nothing were pending. -/
theorem parse_pending (kind : MediaKind) (lines : List Text) :
    (traced (parseLine midFrom) (some kind) lines).2 =
      ((firstMid midFrom (untilTaken lines)).map fun mid => (mid, kind)).toList ++
        (traced (parseLine midFrom) none lines).2 := by
  induction lines with
  | nil => rfl
  | cons line rest inductionHypothesis =>
    cases taken : takenFor line with
    | some next =>
      have nothing : untilTaken (line :: rest) = [] := by simp [untilTaken, taken]
      rw [nothing]
      simp only [traced, parseLine, taken]
      rfl
    | none =>
      have reaches : untilTaken (line :: rest) = line :: untilTaken rest := by
        simp [untilTaken, taken]
      rw [reaches]
      cases named : midOn midFrom line with
      | some mid => simp [traced, parseLine, taken, named, firstMid]
      | none =>
        simp only [traced, parseLine, taken, named, firstMid, List.findSome?_cons, List.nil_append]
        exact inductionHypothesis

/-- A line taken for a kind gives it the first mid up to the next such line. -/
theorem parse_taken {line : Text} {kind : MediaKind} (taken : takenFor line = some kind)
    (rest : List Text) :
    (traced (parseLine midFrom) none (line :: rest)).2 =
      ((firstMid midFrom (untilTaken rest)).map fun mid => (mid, kind)).toList ++
        (traced (parseLine midFrom) none rest).2 := by
  rw [← parse_pending]
  simp only [traced, parseLine, taken, List.nil_append]

/-- Any other line leaves nothing when no kind is pending. -/
theorem parse_passed {line : Text} (passed : takenFor line = none) (rest : List Text) :
    (traced (parseLine midFrom) none (line :: rest)).2 =
      (traced (parseLine midFrom) none rest).2 := by
  simp only [traced, parseLine, passed, List.nil_append]

variable {midFrom}

/-- A section's own mid is the first one up to the next section taken for audio or
video, since such a line begins a section. -/
theorem firstMid_own {lines : List Text} {mid : Mid}
    (own : firstMid midFrom (untilMLine lines) = some mid) :
    firstMid midFrom (untilTaken lines) = some mid := by
  induction lines with
  | nil => exact own
  | cons line rest inductionHypothesis =>
    cases begins : isMLine line with
    | true =>
      have nothing : untilMLine (line :: rest) = [] := by simp [untilMLine, begins]
      rw [nothing] at own
      cases own
    | false =>
      have inside : untilMLine (line :: rest) = line :: untilMLine rest := by
        simp [untilMLine, begins]
      have passed : takenFor line = none := by
        cases taken : takenFor line with
        | none => rfl
        | some kind =>
          rw [isMLine_of_takenFor taken] at begins
          cases begins
      have reaches : untilTaken (line :: rest) = line :: untilTaken rest := by
        simp [untilTaken, passed]
      rw [inside] at own
      rw [reaches]
      simp only [firstMid, List.findSome?_cons] at own ⊢
      split
      · rename_i named
        rw [named] at own
        exact own
      · rename_i unnamed
        rw [unnamed] at own
        exact inductionHypothesis own

/-- What is collected is never fewer than what should be. -/
theorem mediaSections_length (lines : List Text) :
    (mediaSections midFrom lines).length ≤ (traced (parseLine midFrom) none lines).2.length := by
  induction lines with
  | nil => exact Nat.le_refl 0
  | cons line rest inductionHypothesis =>
    have shorter : (traced (parseLine midFrom) none rest).2.length ≤
        (traced (parseLine midFrom) none (line :: rest)).2.length := by
      cases taken : takenFor line with
      | none => rw [parse_passed midFrom taken]
      | some kind =>
        rw [parse_taken midFrom taken, List.length_append]
        exact Nat.le_add_left _ _
    unfold mediaSections
    split
    · rename_i kind mid begins own
      rw [parse_taken midFrom (takenFor_of_mediaKind begins), firstMid_own own]
      exact Nat.succ_le_succ inductionHypothesis
    · exact Nat.le_trans inductionHypothesis shorter

/-- A pair too many is not made up for later. -/
theorem stray_differs (lines : List Text) (pair : Mid × MediaKind) :
    [pair] ++ (traced (parseLine midFrom) none lines).2 ≠ mediaSections midFrom lines := by
  intro same
  have lengths := congrArg List.length same
  have fewer := @mediaSections_length midFrom lines
  rw [List.length_append, List.length_singleton] at lengths
  omega

/-- The pass over the lines collects what it should exactly when every mid is
attributed. The induction is on the lines: a line adds the same pair to both lists, or
none to either, or one to the collected list alone, which can never be made up for. -/
theorem parse_eq_iff (lines : List Text) :
    (traced (parseLine midFrom) none lines).2 = mediaSections midFrom lines ↔
      Attributed midFrom lines := by
  induction lines with
  | nil => exact ⟨fun _ => trivial, fun _ => rfl⟩
  | cons line rest inductionHypothesis =>
    cases taken : takenFor line with
    | none =>
      have unkind : mediaKind line = none := by
        cases begins : mediaKind line with
        | none => rfl
        | some kind =>
          rw [takenFor_of_mediaKind begins] at taken
          cases taken
      rw [parse_passed midFrom taken, mediaSections, unkind, Attributed, taken]
      simpa using inductionHypothesis
    | some kind =>
      rw [parse_taken midFrom taken, mediaSections, Attributed, taken]
      cases begins : mediaKind line with
      | none =>
        cases stray : firstMid midFrom (untilTaken rest) with
        | none => simpa using inductionHypothesis
        | some mid =>
          refine ⟨fun same => absurd same (stray_differs rest (mid, kind)), fun attributed => ?_⟩
          exact absurd (attributed.1 rfl (.inl rfl)) nofun
      | some other =>
        have same := takenFor_of_mediaKind begins
        rw [taken] at same
        obtain rfl := Option.some.inj same
        cases own : firstMid midFrom (untilMLine rest) with
        | some mid =>
          rw [firstMid_own own]
          simpa using inductionHypothesis
        | none =>
          cases stray : firstMid midFrom (untilTaken rest) with
          | none => simpa using inductionHypothesis
          | some mid =>
            refine ⟨fun same => absurd same (stray_differs rest (mid, kind)), fun attributed => ?_⟩
            exact absurd (attributed.1 rfl (.inr rfl)) nofun

end Sdp

/-- The mids collected are those of the audio and video sections, each with its kind,
exactly when no mid comes where it would be attributed to another section.

Both sides go through the lines with the section they are in. They part where a mid comes
for a section that was not told from the one before. -/
theorem parseMids_exact_iff (midFrom : Text → Mid) (sdp : String) :
    parseMidsFromSdp midFrom sdp = Sdp.mediaSections midFrom (lines sdp.toList) ↔
      Sdp.Attributed midFrom (lines sdp.toList) :=
  Sdp.parse_eq_iff (lines sdp.toList)

/-- An audio section without a mid is given the one of the data section after it. -/
theorem data_mid_taken_for_audio :
    let sdp := "m=audio 9 RTP/AVP 0\r\nm=application 9 UDP/DTLS/SCTP webrtc\r\na=mid:2\r\n"
    let midFrom : Text → Mid := fun name => ⟨String.ofList name⟩
    parseMidsFromSdp midFrom sdp = [(⟨"2"⟩, .audio)] ∧
      Sdp.mediaSections midFrom (lines sdp.toList) = [] := by
  decide +kernel

namespace Sdp

/-- The attribute of a receive-only section, and the one it is given instead. -/
def recvonly : Text := "a=recvonly".toList

/-- The direction attribute of a line that sends and receives. -/
def sendrecv : Text := "a=sendrecv".toList

/-- One line: whether the section it is in is switched on, and the line written. -/
def patchLine (mSectionActive : Bool) (line : Text) : Bool × List Text :=
  let active : Bool :=
    if "m=".toList.isPrefixOf line then
      ((words line)[1]?.map fun port => decide (port ≠ "0".toList)).getD true
    else mSectionActive
  (active, [if active && line = recvonly then sendrecv else line])

end Sdp

/-- The session description with its receive-only sections turned around, except those
with port zero. -/
def patchSdpDirections (sdp : String) : String :=
  String.ofList (unlines (traced Sdp.patchLine true (lines sdp.toList)).2)

namespace Sdp

/-- The port of the last section that lines begin: the second word of its m-line. -/
def portOf (lines : List Text) : Option Text :=
  (lines.reverse.find? ("m=".toList.isPrefixOf ·)).bind fun line => (words line)[1]?

/-- Whether a line lies in a section with port zero. -/
def Disabled (lines : List Text) (index : Nat) : Prop :=
  portOf (lines.take (index + 1)) = some "0".toList

instance (lines : List Text) (index : Nat) : Decidable (Disabled lines index) :=
  inferInstanceAs (Decidable (portOf (lines.take (index + 1)) = some "0".toList))

/-- The port after one more line. -/
theorem portOf_append (lines : List Text) (line : Text) :
    portOf (lines ++ [line]) =
      if "m=".toList.isPrefixOf line then (words line)[1]? else portOf lines := by
  unfold portOf
  rw [List.reverse_append, List.reverse_singleton, List.singleton_append, List.find?_cons]
  cases "m=".toList.isPrefixOf line with
  | true => rfl
  | false => rfl

/-- A section is on unless its port is zero. -/
theorem active_eq (lines : List Text) :
    (traced patchLine true lines).1 = decide (portOf lines ≠ some "0".toList) := by
  induction lines using List.reverseRecOn with
  | nil => rfl
  | append_singleton lines line inductionHypothesis =>
    rw [traced_append, portOf_append]
    simp only [traced, patchLine]
    split
    · cases (words line)[1]? with
      | none => rfl
      | some port => simp
    · exact inductionHypothesis

/-- A line is written as it is, or is the attribute and is turned around. -/
theorem patchLine_written (active : Bool) (line : Text) :
    (patchLine active line).2 = [line] ∨ line = recvonly ∧ (patchLine active line).2 = [sendrecv] := by
  by_cases turned : line = recvonly
  · subst turned
    cases active with
    | true => exact .inr ⟨rfl, by decide +kernel⟩
    | false => exact .inl (by decide +kernel)
  · exact .inl (by simp [patchLine, turned])

/-- As many lines are written as are read. -/
theorem patched_length (active : Bool) (lines : List Text) :
    (traced patchLine active lines).2.length = lines.length := by
  induction lines generalizing active with
  | nil => rfl
  | cons line rest inductionHypothesis =>
    simp only [traced, patchLine, List.length_append, List.length_cons, inductionHypothesis]
    exact Nat.add_comm 1 _

/-- The last line is turned around where its section is on. -/
theorem patched_append (lines : List Text) (line : Text) :
    (traced patchLine true (lines ++ [line])).2 = (traced patchLine true lines).2 ++
      [if line = recvonly ∧ ¬ portOf (lines ++ [line]) = some "0".toList then sendrecv else line] := by
  have last := active_eq (lines ++ [line])
  rw [traced_append] at last ⊢
  simp only [traced, patchLine, List.append_nil] at last ⊢
  rw [last]
  simp [and_comm]

/-- A line is written as it is, or turned around where its section is on. The induction
adds lines at the end. -/
theorem patched_getElem (lines : List Text) (index : Nat) :
    (traced patchLine true lines).2[index]? = lines[index]?.map fun line =>
      if line = recvonly ∧ ¬ Disabled lines index then sendrecv else line := by
  induction lines using List.reverseRecOn with
  | nil => rfl
  | append_singleton lines line inductionHypothesis =>
    have length := patched_length true lines
    rw [patched_append]
    rcases Nat.lt_trichotomy index lines.length with inside | last | beyond
    · have same : Disabled (lines ++ [line]) index ↔ Disabled lines index := by
        unfold Disabled
        rw [List.take_append_of_le_length inside]
      rw [List.getElem?_append_left (by omega), List.getElem?_append_left inside, inductionHypothesis]
      simp only [same]
    · subst last
      have whole : (lines ++ [line]).take (lines.length + 1) = lines ++ [line] :=
        List.take_of_length_le (by simp)
      rw [List.getElem?_append_right (by omega), length, Nat.sub_self,
        List.getElem?_append_right (Nat.le_refl _), Nat.sub_self]
      simp only [List.getElem?_cons_zero, Option.map_some, Disabled, whole]
    · rw [List.getElem?_eq_none (by simp; omega), List.getElem?_eq_none (by simp; omega)]
      rfl

/-- A written line counts for the sections as the line it was, and is written again as
it is. -/
theorem patchLine_again (active : Bool) (line : Text) :
    traced patchLine active (patchLine active line).2 = patchLine active line := by
  by_cases turned : line = recvonly
  · subst turned
    cases active with
    | true => decide +kernel
    | false => decide +kernel
  · have kept : (patchLine active line).2 = [line] := by simp [patchLine, turned]
    rw [kept]
    simp [traced]

/-- Written lines are written again as they are, and leave the same section. -/
theorem patched_again (active : Bool) (lines : List Text) :
    traced patchLine active (traced patchLine active lines).2 = traced patchLine active lines := by
  induction lines generalizing active with
  | nil => rfl
  | cons line rest inductionHypothesis =>
    have again := patchLine_again active line
    simp only [traced]
    rw [traced_append, again, inductionHypothesis]

/-- The sections of the written lines are those of the lines read. -/
theorem disabled_patched (lines : List Text) (index : Nat) :
    Disabled (traced patchLine true lines).2 index ↔ Disabled lines index := by
  have beginning : (traced patchLine true lines).2.take (index + 1) =
      (traced patchLine true (lines.take (index + 1))).2 := by
    have whole := congrArg Prod.snd (traced_append patchLine (lines.take (index + 1))
      (lines.drop (index + 1)) true)
    rw [List.take_append_drop] at whole
    have length := patched_length true (lines.take (index + 1))
    rw [whole]
    by_cases inside : index + 1 ≤ lines.length
    · rw [List.length_take_of_le inside] at length
      exact List.take_left' length
    · rw [List.drop_eq_nil_of_le (by omega), traced, List.append_nil, List.take_of_length_le]
      rw [length, List.length_take]
      omega
  have one := active_eq (lines.take (index + 1))
  have other := active_eq (traced patchLine true (lines.take (index + 1))).2
  rw [patched_again, one, decide_eq_decide] at other
  unfold Disabled
  rw [beginning]
  exact not_iff_not.mp other.symm

/-- Turning lines around completes no pair and changes no kind. -/
theorem parse_patched (midFrom : Text → Mid) (active : Bool) (kind : Option MediaKind)
    (lines : List Text) :
    traced (parseLine midFrom) kind (traced patchLine active lines).2 =
      traced (parseLine midFrom) kind lines := by
  induction lines generalizing active kind with
  | nil => rfl
  | cons line rest inductionHypothesis =>
    have same : traced (parseLine midFrom) kind (patchLine active line).2 =
        parseLine midFrom kind line := by
      rcases patchLine_written active line with kept | ⟨rfl, turned⟩
      · rw [kept]
        simp [traced]
      · rw [turned]
        cases kind with
        | none => rfl
        | some kind => rfl
    simp only [traced]
    rw [traced_append, same, inductionHypothesis]

/-- A written line holds no newline, as no line read does. -/
theorem newline_notMem_patched (active : Bool) (lines : List Text)
    (unended : ∀ line ∈ lines, '\n' ∉ line) :
    ∀ line ∈ (traced patchLine active lines).2, '\n' ∉ line := by
  induction lines generalizing active with
  | nil =>
    intro line member
    cases member
  | cons first rest inductionHypothesis =>
    intro line member
    rcases List.mem_append.mp member with written | later
    · rcases patchLine_written active first with kept | ⟨_, turned⟩
      · rw [kept] at written
        rw [List.mem_singleton.mp written]
        exact unended first List.mem_cons_self
      · rw [turned] at written
        rw [List.mem_singleton.mp written]
        decide +kernel
    · exact inductionHypothesis _ (fun other inside => unended other (List.mem_cons_of_mem _ inside))
        line later

/-- The lines written are those read back. -/
theorem lines_patched (sdp : String) :
    lines (patchSdpDirections sdp).toList = (traced patchLine true (lines sdp.toList)).2 := by
  rw [patchSdpDirections, String.toList_ofList]
  exact lines_unlines _ (newline_notMem_patched true _ (newline_notMem_lines sdp.toList))

end Sdp

/-- Turning a description around touches what it should only. Line by line, it writes
what it reads, except receive-only attributes outside sections with port zero; none of
those is left, and the lines of such sections stay. The mids collected are the same
before and after, and a second pass changes nothing.

The pass is a scan with one bit of state, whether the section is switched on. A line is
therefore changed as the lines before it in the text read, and the rest follows index by
index. -/
theorem patch_exact (midFrom : Text → Mid) (sdp : String) :
    let before := lines sdp.toList
    let after := lines (patchSdpDirections sdp).toList
    after.length = before.length ∧
    (∀ index : Nat, after[index]? = before[index]?.map fun line =>
      if line = "a=recvonly".toList ∧ ¬ Sdp.Disabled before index then "a=sendrecv".toList else line) ∧
    (∀ index : Nat, after[index]? = some "a=recvonly".toList → Sdp.Disabled after index) ∧
    (∀ index : Nat, Sdp.Disabled before index → after[index]? = before[index]?) ∧
    parseMidsFromSdp midFrom (patchSdpDirections sdp) = parseMidsFromSdp midFrom sdp ∧
    patchSdpDirections (patchSdpDirections sdp) = patchSdpDirections sdp := by
  intro before after
  have written : after = (traced Sdp.patchLine true before).2 := Sdp.lines_patched sdp
  have each : ∀ index : Nat, after[index]? = before[index]?.map fun line =>
      if line = Sdp.recvonly ∧ ¬ Sdp.Disabled before index then Sdp.sendrecv else line := by
    intro index
    rw [written]
    exact Sdp.patched_getElem before index
  refine ⟨?_, each, ?_, ?_, ?_, ?_⟩
  · rw [written]
    exact Sdp.patched_length true before
  · intro index left
    rw [written, Sdp.disabled_patched]
    by_contra on
    rw [each index] at left
    obtain ⟨line, _, same⟩ := Option.map_eq_some_iff.mp left
    by_cases turned : line = Sdp.recvonly
    · rw [if_pos ⟨turned, on⟩] at same
      exact absurd same (by decide +kernel)
    · rw [if_neg fun both => turned both.1] at same
      exact turned same
  · intro index off
    rw [each index]
    cases before[index]? with
    | none => rfl
    | some line => simp [off]
  · unfold parseMidsFromSdp
    rw [Sdp.lines_patched, Sdp.parse_patched]
  · conv_lhs => rw [patchSdpDirections, Sdp.lines_patched, Sdp.patched_again]
    rfl

end Seameet
