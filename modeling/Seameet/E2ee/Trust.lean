import Seameet.Library.Since
import Seameet.Library.Table

/-!
# What the page says of a verified peer

A user compares a safety number with the peer and marks the peer as verified. From then on
the page answers for the number: it says `verified` exactly as long as every safety number it
has displayed for the peer is the one that was confirmed. Once it has displayed another, it
says `changed`, whatever it displays later, until the user marks or clears the peer, or the
peer has no number any more.
-/

namespace Seameet.E2ee

open Library

/-- How a peer stands with the verification: as the panel shows it. -/
inductive VerificationStatus where
  | unverified
  | verified
  | changed
deriving DecidableEq

/-- The hook, with the safety numbers it was last rendered with. -/
structure UseVerification where
  safetyNumbers : Table String String
  statuses : Table String VerificationStatus
  /-- The safety number on display when a peer was marked. -/
  verifiedAt : Table String String

/-- The hook is rendered with new safety numbers, or the user marks or clears a peer. -/
inductive VerificationEvent where
  | renders (safetyNumbers : Table String String)
  | marks (peerId : String)
  | clears (peerId : String)

namespace UseVerification

/-- The hook as it is mounted: nothing is verified. -/
def new : UseVerification := { safetyNumbers := ∅, statuses := ∅, verifiedAt := ∅ }

/-- The comparison of one peer's number with its snapshot. -/
def compare (hook : UseVerification) (peerId snapshot : String) : UseVerification :=
  match hook.safetyNumbers.lookup peerId with
  | none =>
      { hook with
        statuses := hook.statuses.erase peerId
        verifiedAt := hook.verifiedAt.erase peerId }
  | some current =>
      if current ≠ snapshot ∧ hook.statuses.lookup peerId ≠ some .changed then
        { hook with statuses := hook.statuses.insert peerId .changed }
      else hook

/-- The effect of a render: all snapshots are compared. -/
def render (hook : UseVerification) (safetyNumbers : Table String String) : UseVerification :=
  hook.verifiedAt.entries.foldl (fun hook entry => hook.compare entry.1 entry.2)
    { hook with safetyNumbers }

/-- A peer is marked as verified, with the safety number as it stands. -/
def markVerified (hook : UseVerification) (peerId : String) : UseVerification :=
  match hook.safetyNumbers.lookup peerId with
  | none => hook
  | some current =>
      if current = "" then hook
      else
        { hook with
          statuses := hook.statuses.insert peerId .verified
          verifiedAt := hook.verifiedAt.insert peerId current }

/-- A peer's verification is dropped. -/
def clear (hook : UseVerification) (peerId : String) : UseVerification :=
  { hook with
    statuses := hook.statuses.erase peerId
    verifiedAt := hook.verifiedAt.erase peerId }

/-- The status the panel shows of a peer: unverified where none is kept. -/
def status (hook : UseVerification) (peerId : String) : VerificationStatus :=
  (hook.statuses.lookup peerId).getD .unverified

/-- One event of the hook: a render with new safety numbers, a mark or a clearing. -/
def step (hook : UseVerification) : VerificationEvent → UseVerification
  | .renders safetyNumbers => hook.render safetyNumbers
  | .marks peerId => hook.markVerified peerId
  | .clears peerId => hook.clear peerId

/-- The hook after the events of a session. -/
def after (events : List VerificationEvent) : UseVerification := events.foldl step new

end UseVerification

/-- The safety numbers on display after the events. -/
def displayed (events : List VerificationEvent) : Table String String :=
  events.foldl (fun shown event =>
    match event with
    | .renders safetyNumbers => safetyNumbers
    | _ => shown) ∅

section Verdicts

variable (peerId : String)

/-- The peer is marked while the number is on display. -/
def Confirms (number : String) (earlier : List VerificationEvent) (event : VerificationEvent) : Prop :=
  event = .marks peerId ∧ (displayed earlier).lookup peerId = some number ∧ number ≠ ""

/-- The peer is not cleared, and any number then displayed is the confirmed one. -/
def Upholds (number : String) (event : VerificationEvent) : Prop :=
  event ≠ .clears peerId ∧ ∀ safetyNumbers, event = .renders safetyNumbers →
    safetyNumbers.lookup peerId = some number

/-- While the peer is verified, another number than before is displayed. -/
def Contradicts (earlier : List VerificationEvent) (event : VerificationEvent) : Prop :=
  (UseVerification.after earlier).status peerId = .verified ∧
    ∃ safetyNumbers other, event = .renders safetyNumbers ∧
      safetyNumbers.lookup peerId = some other ∧ (displayed earlier).lookup peerId ≠ some other

/-- The peer is not cleared, nor marked beside a number, and some number is displayed. -/
def Suspends (earlier : List VerificationEvent) (event : VerificationEvent) : Prop :=
  event ≠ .clears peerId ∧
    (event = .marks peerId → (displayed earlier).lookup peerId = some "") ∧
      ∀ safetyNumbers, event = .renders safetyNumbers →
        (safetyNumbers.lookup peerId).isSome = true

end Verdicts

namespace UseVerification

section Comparing

/-- What a comparison makes of a peer's status. -/
def judged (current : Option String) (snapshot : String) (status : Option VerificationStatus) :
    Option VerificationStatus :=
  match current with
  | none => none
  | some current => if current = snapshot then status else some .changed

/-- A comparison judges the one peer's status and leaves the others' alone. -/
theorem compare_status (hook : UseVerification) (peerId snapshot tested : String) :
    (hook.compare peerId snapshot).statuses.lookup tested =
      if tested = peerId then
        judged (hook.safetyNumbers.lookup peerId) snapshot (hook.statuses.lookup peerId)
      else hook.statuses.lookup tested := by
  unfold compare
  cases hook.safetyNumbers.lookup peerId with
  | none => exact Table.lookup_erase_eq peerId tested hook.statuses
  | some current =>
    by_cases same : current = snapshot
    · simp only [judged, same, ne_eq, not_true, false_and, if_true, if_false]
      split
      · next here => rw [here]
      · rfl
    · by_cases known : hook.statuses.lookup peerId = some .changed
      · simp only [judged, same, known, ne_eq, not_true, and_false, if_false]
        split
        · next here => rw [here, known]
        · rfl
      · simp [judged, same, known, Table.lookup_insert_eq]

/-- A comparison drops the snapshot of the one peer where there is no number any more. -/
theorem compare_verifiedAt (hook : UseVerification) (peerId snapshot tested : String) :
    (hook.compare peerId snapshot).verifiedAt.lookup tested =
      if tested = peerId ∧ hook.safetyNumbers.lookup peerId = none then none
      else hook.verifiedAt.lookup tested := by
  unfold compare
  cases hook.safetyNumbers.lookup peerId with
  | none => simp [Table.lookup_erase_eq]
  | some current =>
    simp only [reduceCtorEq, and_false, if_false]
    split <;> rfl

/-- A comparison changes no safety number. -/
theorem compare_safetyNumbers (hook : UseVerification) (peerId snapshot : String) :
    (hook.compare peerId snapshot).safetyNumbers = hook.safetyNumbers := by
  unfold compare
  cases hook.safetyNumbers.lookup peerId with
  | none => rfl
  | some current =>
    simp only
    split <;> rfl

/-- The comparisons of some snapshots, one for each peer at most. -/
theorem compared (entries : List (Sigma fun _ : String => String)) (distinct : entries.NodupKeys)
    (hook : UseVerification) (tested : String) :
    let compared := entries.foldl (fun hook entry => hook.compare entry.1 entry.2) hook
    compared.safetyNumbers = hook.safetyNumbers ∧
      compared.statuses.lookup tested =
        (match entries.dlookup tested with
          | none => hook.statuses.lookup tested
          | some snapshot =>
              judged (hook.safetyNumbers.lookup tested) snapshot (hook.statuses.lookup tested)) ∧
      compared.verifiedAt.lookup tested =
        if (entries.dlookup tested).isSome = true ∧ hook.safetyNumbers.lookup tested = none then none
        else hook.verifiedAt.lookup tested := by
  induction entries generalizing hook with
  | nil => exact ⟨rfl, rfl, by simp⟩
  | cons entry rest inductionHypothesis =>
    obtain ⟨peerId, snapshot⟩ := entry
    obtain ⟨fresh, others⟩ := List.nodupKeys_cons.mp distinct
    obtain ⟨numbers, statuses, snapshots⟩ :=
      inductionHypothesis others (hook.compare peerId snapshot)
    rw [compare_safetyNumbers] at numbers statuses snapshots
    rw [compare_status] at statuses
    rw [compare_verifiedAt] at snapshots
    refine ⟨numbers, statuses.trans ?_, snapshots.trans ?_⟩
    · by_cases here : tested = peerId
      · subst here
        have absent : rest.dlookup tested = none := List.dlookup_eq_none.mpr fresh
        simp [absent]
      · rw [List.dlookup_cons_ne rest ⟨peerId, snapshot⟩ here, if_neg here]
    · by_cases here : tested = peerId
      · subst here
        have absent : rest.dlookup tested = none := List.dlookup_eq_none.mpr fresh
        simp [absent]
      · rw [List.dlookup_cons_ne rest ⟨peerId, snapshot⟩ here]
        simp [here]

/-- What a render makes of a peer. -/
theorem render_peer (hook : UseVerification) (safetyNumbers : Table String String) (tested : String) :
    (hook.render safetyNumbers).statuses.lookup tested =
        (match hook.verifiedAt.lookup tested with
          | none => hook.statuses.lookup tested
          | some snapshot =>
              judged (safetyNumbers.lookup tested) snapshot (hook.statuses.lookup tested)) ∧
      (hook.render safetyNumbers).verifiedAt.lookup tested =
        (hook.verifiedAt.lookup tested).filter fun _ => (safetyNumbers.lookup tested).isSome := by
  obtain ⟨_, statuses, snapshots⟩ := compared hook.verifiedAt.entries hook.verifiedAt.nodupKeys
    { hook with safetyNumbers } tested
  refine ⟨statuses, snapshots.trans ?_⟩
  change (if (hook.verifiedAt.lookup tested).isSome = true ∧ safetyNumbers.lookup tested = none then none
    else hook.verifiedAt.lookup tested) = _
  cases hook.verifiedAt.lookup tested <;> cases safetyNumbers.lookup tested <;> rfl

/-- A render installs the safety numbers it is given, whatever it compares. -/
theorem render_safetyNumbers (hook : UseVerification) (safetyNumbers : Table String String) :
    (hook.render safetyNumbers).safetyNumbers = safetyNumbers :=
  (compared hook.verifiedAt.entries hook.verifiedAt.nodupKeys { hook with safetyNumbers } "").1

end Comparing

end UseVerification

/-- What the hook knows of one peer. -/
structure Standing where
  shown : Option String
  status : Option VerificationStatus
  snapshot : Option String

namespace Standing

/-- The standings a peer can have: nobody marked it, it shows what was confirmed, or it has
shown something else. -/
inductive Sound : Standing → Prop where
  | unmarked (shown : Option String) : Sound ⟨shown, none, none⟩
  | verified (number : String) : Sound ⟨some number, some .verified, some number⟩
  | changed (current number : String) : Sound ⟨some current, some .changed, some number⟩

/-- What an event makes of a peer. -/
def step (peerId : String) (standing : Standing) : VerificationEvent → Standing
  | .renders safetyNumbers =>
      { shown := safetyNumbers.lookup peerId
        status :=
          match standing.snapshot with
          | none => standing.status
          | some snapshot =>
              UseVerification.judged (safetyNumbers.lookup peerId) snapshot standing.status
        snapshot := standing.snapshot.filter fun _ => (safetyNumbers.lookup peerId).isSome }
  | .marks other =>
      if other = peerId then
        match standing.shown with
        | none => standing
        | some current =>
            if current = "" then standing
            else { standing with status := some .verified, snapshot := some current }
      else standing
  | .clears other =>
      if other = peerId then { standing with status := none, snapshot := none } else standing

variable {peerId : String} {standing : Standing}

/-- One event keeps the standing of a peer sound. -/
theorem Sound.step (sound : standing.Sound) (event : VerificationEvent) :
    (standing.step peerId event).Sound := by
  cases event with
  | renders safetyNumbers =>
    simp only [Standing.step]
    cases safetyNumbers.lookup peerId with
    | none => cases sound <;> exact .unmarked none
    | some current =>
      cases sound with
      | unmarked => exact .unmarked _
      | verified number =>
        by_cases same : current = number
        · subst same
          simpa [UseVerification.judged] using .verified current
        · simpa [UseVerification.judged, same] using .changed current number
      | changed _ number => simpa [UseVerification.judged] using .changed current number
  | marks other =>
    by_cases here : other = peerId
    · cases shown : standing.shown with
      | none => simpa [Standing.step, here, shown] using sound
      | some current =>
        by_cases empty : current = ""
        · simpa [Standing.step, here, shown, empty] using sound
        · simpa [Standing.step, here, shown, empty] using .verified current
    · simpa [Standing.step, here] using sound
  | clears other =>
    by_cases here : other = peerId
    · simpa [Standing.step, here] using .unmarked standing.shown
    · simpa [Standing.step, here] using sound

/-- What makes the page say `verified` of a number, and what lets it go on. -/
theorem verified_step (sound : standing.Sound) (event : VerificationEvent) (number : String) :
    ((standing.step peerId event).status = some .verified ∧
        (standing.step peerId event).snapshot = some number) ↔
      (event = .marks peerId ∧ standing.shown = some number ∧ number ≠ "") ∨
        (standing.status = some .verified ∧ standing.snapshot = some number) ∧
          event ≠ .clears peerId ∧
            ∀ safetyNumbers, event = .renders safetyNumbers →
              safetyNumbers.lookup peerId = some number := by
  cases event with
  | renders safetyNumbers =>
    cases shown : safetyNumbers.lookup peerId with
    | none => cases sound <;> simp [Standing.step, UseVerification.judged, shown]
    | some current =>
      cases sound with
      | unmarked | changed => simp [Standing.step, UseVerification.judged, shown]
      | verified marked =>
        by_cases same : current = marked
        · simp [Standing.step, UseVerification.judged, shown, same]
        · simp [Standing.step, UseVerification.judged, shown, same]
          rintro rfl
          exact same
  | marks other =>
    by_cases here : other = peerId
    · cases sound with
      | unmarked shown =>
        cases shown with
        | none => simp [Standing.step, here]
        | some current =>
          by_cases empty : current = ""
          · simp [Standing.step, here, empty, eq_comm]
          · simp [Standing.step, here, empty]
            rintro rfl
            exact empty
      | verified marked =>
        by_cases empty : marked = ""
        · simp [Standing.step, here, empty, eq_comm]
        · simp [Standing.step, here, empty]
          exact fun same _ => same
      | changed current marked =>
        by_cases empty : current = ""
        · simp [Standing.step, here, empty, eq_comm]
        · simp [Standing.step, here, empty]
          rintro rfl
          exact empty
    · simp [Standing.step, here]
  | clears other =>
    by_cases here : other = peerId
    · simp [Standing.step, here]
    · simp [Standing.step, here]

/-- What makes the page say `changed`, and what lets it go on. -/
theorem changed_step (sound : standing.Sound) (event : VerificationEvent) :
    (standing.step peerId event).status = some .changed ↔
      (standing.status = some .verified ∧ ∃ safetyNumbers other, event = .renders safetyNumbers ∧
          safetyNumbers.lookup peerId = some other ∧ standing.shown ≠ some other) ∨
        standing.status = some .changed ∧ event ≠ .clears peerId ∧
          (event = .marks peerId → standing.shown = some "") ∧
            ∀ safetyNumbers, event = .renders safetyNumbers →
              (safetyNumbers.lookup peerId).isSome = true := by
  cases event with
  | renders safetyNumbers =>
    cases shown : safetyNumbers.lookup peerId with
    | none => cases sound <;> simp [Standing.step, UseVerification.judged, shown]
    | some current =>
      cases sound with
      | unmarked | changed => simp [Standing.step, UseVerification.judged, shown]
      | verified marked =>
        by_cases same : current = marked
        · simp [Standing.step, UseVerification.judged, shown, same]
        · simp [Standing.step, UseVerification.judged, shown, same, Ne.symm same]
  | marks other =>
    by_cases here : other = peerId
    · cases sound with
      | unmarked shown =>
        cases shown with
        | none => simp [Standing.step, here]
        | some current => by_cases empty : current = "" <;> simp [Standing.step, here, empty]
      | verified current | changed current =>
        by_cases empty : current = "" <;> simp [Standing.step, here, empty]
    · simp [Standing.step, here]
  | clears other =>
    by_cases here : other = peerId <;> simp [Standing.step, here]

end Standing

namespace UseVerification

/-- What the hook knows of a peer. -/
def standing (hook : UseVerification) (peerId : String) : Standing :=
  { shown := hook.safetyNumbers.lookup peerId
    status := hook.statuses.lookup peerId
    snapshot := hook.verifiedAt.lookup peerId }

/-- The hook handles each peer apart from the others. -/
theorem standing_step (hook : UseVerification) (peerId : String) (event : VerificationEvent) :
    (hook.step event).standing peerId = (hook.standing peerId).step peerId event := by
  cases event with
  | renders safetyNumbers =>
    obtain ⟨status, snapshot⟩ := hook.render_peer safetyNumbers peerId
    simp only [UseVerification.step, standing, render_safetyNumbers, status, snapshot, Standing.step]
  | marks other =>
    simp only [UseVerification.step, markVerified, Standing.step]
    by_cases here : other = peerId
    · subst here
      cases shown : hook.safetyNumbers.lookup other with
      | none => simp [standing, shown]
      | some current =>
        by_cases empty : current = "" <;>
          simp [standing, shown, empty]
    · have apart : peerId ≠ other := Ne.symm here
      cases hook.safetyNumbers.lookup other with
      | none => simp [here]
      | some current =>
        by_cases empty : current = "" <;>
          simp [standing, here, apart, empty]
  | clears other =>
    by_cases here : other = peerId
    · simp [UseVerification.step, clear, standing, Standing.step, here]
    · simp [UseVerification.step, clear, standing, Standing.step, here, Ne.symm here]

/-- The hook after one more event is the hook after the rest, stepped once. -/
theorem after_append_one (events : List VerificationEvent) (last : VerificationEvent) :
    after (events ++ [last]) = (after events).step last := by
  rw [after, List.foldl_append]
  rfl

/-- The hook shows what is on display. -/
theorem after_displayed (events : List VerificationEvent) :
    (after events).safetyNumbers = displayed events := by
  induction events using List.reverseRecOn with
  | nil => rfl
  | append_singleton events last inductionHypothesis =>
    rw [after_append_one, displayed, List.foldl_append]
    cases last with
    | renders safetyNumbers => exact render_safetyNumbers _ safetyNumbers
    | marks peerId =>
      change ((after events).markVerified peerId).safetyNumbers = displayed events
      rw [← inductionHypothesis, markVerified]
      split
      · rfl
      · split <;> rfl
    | clears peerId => exact inductionHypothesis

/-- The standing of every peer is sound after any list of events. -/
theorem after_sound (events : List VerificationEvent) (peerId : String) :
    ((after events).standing peerId).Sound := by
  induction events using List.reverseRecOn with
  | nil => exact .unmarked none
  | append_singleton events last inductionHypothesis =>
    rw [after_append_one, standing_step]
    exact inductionHypothesis.step last

/-- A status other than unverified is shown exactly where it is kept. -/
theorem status_eq {hook : UseVerification} {peerId : String} {status : VerificationStatus}
    (told : status ≠ .unverified) :
    hook.status peerId = status ↔ hook.statuses.lookup peerId = some status := by
  unfold UseVerification.status
  cases hook.statuses.lookup peerId with
  | none => simp [told.symm]
  | some stored => simp

/-- What a peer's standing shows is what was displayed last. -/
theorem shown_eq (events : List VerificationEvent) (peerId : String) :
    ((after events).standing peerId).shown = (displayed events).lookup peerId := by
  rw [← after_displayed]
  rfl

/-- The page has answered for a number since the peer was marked beside it. -/
theorem verified_since (events : List VerificationEvent) (peerId number : String) :
    (((after events).standing peerId).status = some .verified ∧
        ((after events).standing peerId).snapshot = some number) ↔
      Since (Confirms peerId number) (fun _ => Upholds peerId number) events := by
  refine @holds_iff_since _ _ _ (fun events => ((after events).standing peerId).status = some .verified ∧
    ((after events).standing peerId).snapshot = some number) ?_ ?_ events
  · rintro ⟨absent, _⟩
    cases absent
  · intro events last
    rw [after_append_one, standing_step, Standing.verified_step (after_sound events peerId), shown_eq]
    exact Iff.rfl

/-- The page has said `changed` since another number was displayed. -/
theorem changed_since (events : List VerificationEvent) (peerId : String) :
    ((after events).standing peerId).status = some .changed ↔
      Since (Contradicts peerId) (Suspends peerId) events := by
  refine @holds_iff_since _ _ _ (fun events =>
    ((after events).standing peerId).status = some .changed) ?_ ?_ events
  · intro absent
    cases absent
  · intro events last
    rw [after_append_one, standing_step, Standing.changed_step (after_sound events peerId), shown_eq,
      Contradicts, status_eq (by decide)]
    exact Iff.rfl

/-- A peer is said to be verified exactly if the user has marked it while a number was on
display, has not cleared it since, and every number displayed since is that one. It is said
to have changed exactly if another number was displayed while it was verified, and since then
the user has not cleared it nor marked it beside a number, and some number was always
displayed.

The hook is followed for one peer, as a standing that changes with each event. The events
are taken from the end, where a mark, a clearing or another number decides. -/
theorem verdict_exact (events : List VerificationEvent) (peerId : String) :
    ((after events).status peerId = .verified ↔
        ∃ number, Since (Confirms peerId number) (fun _ => Upholds peerId number) events) ∧
      ((after events).status peerId = .changed ↔
        Since (Contradicts peerId) (Suspends peerId) events) := by
  constructor
  · rw [status_eq (by decide)]
    constructor
    · intro verified
      have sound := after_sound events peerId
      generalize standing : (after events).standing peerId = known at sound
      have status : known.status = some .verified := standing ▸ verified
      cases sound with
      | unmarked | changed => cases status
      | verified number =>
        refine ⟨number, (verified_since events peerId number).mp ?_⟩
        rw [standing]
        exact ⟨rfl, rfl⟩
    · rintro ⟨number, since⟩
      exact ((verified_since events peerId number).mpr since).1
  · rw [status_eq (by decide)]
    exact changed_since events peerId

end UseVerification

end Seameet.E2ee
