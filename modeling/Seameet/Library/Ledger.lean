import Mathlib.Data.List.Nodup
import Seameet.Library.Alternation

/-!
# Announced openings and closings

Things come into being and go, and a record of each is kept by agents that do not act
at one moment. An opening is announced before the thing is there, a closing after it
is gone. In between, the agent that announced has yet to act, or the agent that acted
has yet to announce, and the record is ahead of the thing or behind it.

A ledger is mirrored when each record alternates and stands open exactly for what is
there, announced to be, or gone without the record saying so. Each move of one agent
has a rule that says when it keeps the ledger mirrored. Once no agent is in between,
a record stands open exactly while the thing is there.
-/

namespace Library

universe u v

/-- What is there, what each agent has announced and has yet to bring about, what each
agent has ended and has yet to announce, and the records. -/
structure Ledger (ι : Type u) (ρ : Type v) where
  present : ρ → Bool
  opening : ι → Option ρ
  closing : ι → List ρ
  record : ρ → List Bool

namespace Ledger

variable {ι : Type u} {ρ : Type v}

/-- An announced opening has yet to take place. -/
def Underway (ledger : Ledger ι ρ) (item : ρ) : Prop := ∃ agent, ledger.opening agent = some item

/-- A closing has yet to be announced. -/
def Due (ledger : Ledger ι ρ) (item : ρ) : Prop := ∃ agent, item ∈ ledger.closing agent

/-- The records alternate and say what is there, up to what is in between; a closing
is announced once. -/
structure Mirrored (ledger : Ledger ι ρ) : Prop where
  alternates : ∀ item, Alternates (ledger.record item)
  stands : ∀ item, standsOpen (ledger.record item) = true ↔
    ledger.present item = true ∨ ledger.Underway item ∨ ledger.Due item
  absent : ∀ item, ledger.Due item → ledger.present item = false
  once : ∀ agent, (ledger.closing agent).Nodup
  alone : ∀ item first second, item ∈ ledger.closing first → item ∈ ledger.closing second →
    first = second

/-- One agent acts: what the others have in hand is as before. -/
structure Only (agent : ι) (before after : Ledger ι ρ) : Prop where
  opening : ∀ other, other ≠ agent → after.opening other = before.opening other
  closing : ∀ other, other ≠ agent → after.closing other = before.closing other

/-- Nothing is there, and nothing has been announced. -/
theorem Mirrored.empty {ledger : Ledger ι ρ} (present : ∀ item, ledger.present item = false)
    (opening : ∀ agent, ledger.opening agent = none) (closing : ∀ agent, ledger.closing agent = [])
    (record : ∀ item, ledger.record item = []) : ledger.Mirrored := by
  constructor
  · intro item
    rw [record]
    trivial
  · intro item
    simp [record, present, Underway, Due, opening, closing]
  · rintro item ⟨agent, due⟩
    simp [closing] at due
  · intro agent
    rw [closing]
    exact List.nodup_nil
  · intro item first second due
    simp [closing] at due

section Only

variable {before after : Ledger ι ρ} {agent : ι} {item : ρ}

/-- What is underway after one agent's move. -/
theorem Only.underway (only : Only agent before after) :
    after.Underway item ↔ after.opening agent = some item ∨
      ∃ other, other ≠ agent ∧ before.opening other = some item := by
  constructor
  · rintro ⟨other, opens⟩
    by_cases same : other = agent
    · exact .inl (same ▸ opens)
    · exact .inr ⟨other, same, only.opening other same ▸ opens⟩
  · rintro (opens | ⟨other, apart, opens⟩)
    · exact ⟨agent, opens⟩
    · exact ⟨other, (only.opening other apart).trans opens⟩

/-- What is due after one agent's move. -/
theorem Only.due (only : Only agent before after) :
    after.Due item ↔ item ∈ after.closing agent ∨
      ∃ other, other ≠ agent ∧ item ∈ before.closing other := by
  constructor
  · rintro ⟨other, closes⟩
    by_cases same : other = agent
    · exact .inl (same ▸ closes)
    · exact .inr ⟨other, same, only.closing other same ▸ closes⟩
  · rintro (closes | ⟨other, apart, closes⟩)
    · exact ⟨agent, closes⟩
    · exact ⟨other, (only.closing other apart).symm ▸ closes⟩

/-- Nobody moves. -/
theorem Only.refl (agent : ι) (ledger : Ledger ι ρ) : Only agent ledger ledger :=
  ⟨fun _ _ => rfl, fun _ _ => rfl⟩

end Only

namespace Mirrored

variable {before after : Ledger ι ρ} {agent : ι} {item : ρ}

/-- A move of one agent that takes away from its closings keeps each closing single. -/
theorem closings (mirrored : before.Mirrored) (only : Only agent before after)
    (fewer : (after.closing agent).Sublist (before.closing agent)) :
    (∀ agent, (after.closing agent).Nodup) ∧
      ∀ item first second, item ∈ after.closing first → item ∈ after.closing second →
        first = second := by
  have member : ∀ item other, item ∈ after.closing other → item ∈ before.closing other := by
    intro item other closes
    by_cases same : other = agent
    · subst same
      exact fewer.subset closes
    · rwa [only.closing other same] at closes
  constructor
  · intro other
    by_cases same : other = agent
    · subst same
      exact fewer.nodup (mirrored.once other)
    · rw [only.closing other same]
      exact mirrored.once other
  · intro item first second closes too
    exact mirrored.alone item first second (member item first closes) (member item second too)

/-- A ledger that reads the same stays mirrored. -/
theorem keep (mirrored : before.Mirrored)
    (present : ∀ item, after.present item = before.present item)
    (opening : ∀ agent, after.opening agent = before.opening agent)
    (closing : ∀ agent, after.closing agent = before.closing agent)
    (record : ∀ item, after.record item = before.record item) : after.Mirrored := by
  have same : after = before := by
    cases after
    cases before
    simp only [mk.injEq]
    exact ⟨funext present, funext opening, funext closing, funext record⟩
  exact same ▸ mirrored

/-- An opening is announced: the thing is not there, nobody else is about to bring it
about, and no closing of it is due. -/
theorem announce (mirrored : before.Mirrored) (only : Only agent before after)
    (free : before.opening agent = none) (opens : after.opening agent = some item)
    (closing : after.closing agent = before.closing agent)
    (present : ∀ tested, after.present tested = before.present tested)
    (recorded : after.record item = before.record item ++ [true])
    (unrecorded : ∀ tested, tested ≠ item → after.record tested = before.record tested)
    (absent : before.present item = false) (alone : ¬ before.Underway item)
    (settled : ¬ before.Due item) : after.Mirrored := by
  obtain ⟨once, single⟩ := mirrored.closings only (closing ▸ List.Sublist.refl _)
  have due : ∀ tested, after.Due tested ↔ before.Due tested := by
    intro tested
    rw [only.due, closing, (Only.refl agent before).due]
  have closed : standsOpen (before.record item) = false := by
    rw [Bool.eq_false_iff, Ne, mirrored.stands]
    rintro (there | opening | closes)
    · simp [absent] at there
    · exact alone opening
    · exact settled closes
  refine ⟨?_, ?_, ?_, once, single⟩
  · intro tested
    by_cases same : tested = item
    · subst same
      rw [recorded, alternates_append_one, closed]
      exact ⟨mirrored.alternates tested, rfl⟩
    · rw [unrecorded tested same]
      exact mirrored.alternates tested
  · intro tested
    by_cases same : tested = item
    · subst same
      rw [recorded, standsOpen_append_one]
      exact iff_of_true rfl (.inr (.inl ⟨agent, opens⟩))
    · rw [unrecorded tested same, mirrored.stands, present, due, only.underway, opens,
        (Only.refl agent before).underway, free]
      simp [Ne.symm same]
  · intro tested closes
    rw [present]
    exact mirrored.absent tested ((due tested).mp closes)

/-- What was announced takes place: the thing is there already, or it has been
announced and no closing of it is due. The agent's own announcement is done with. -/
theorem appear (mirrored : before.Mirrored) (only : Only agent before after)
    (own : before.opening agent = none ∨ before.opening agent = some item)
    (done : after.opening agent = none) (closing : after.closing agent = before.closing agent)
    (there : after.present item = true)
    (present : ∀ tested, tested ≠ item → after.present tested = before.present tested)
    (record : ∀ tested, after.record tested = before.record tested)
    (expected : before.present item = true ∨ (before.Underway item ∧ ¬ before.Due item)) :
    after.Mirrored := by
  obtain ⟨once, single⟩ := mirrored.closings only (closing ▸ List.Sublist.refl _)
  have due : ∀ tested, after.Due tested ↔ before.Due tested := by
    intro tested
    rw [only.due, closing, (Only.refl agent before).due]
  refine ⟨?_, ?_, ?_, once, single⟩
  · intro tested
    rw [record]
    exact mirrored.alternates tested
  · intro tested
    by_cases same : tested = item
    · subst same
      rw [record, mirrored.stands]
      refine iff_of_true ?_ (.inl there)
      rcases expected with already | ⟨announced, _⟩
      · exact .inl already
      · exact .inr (.inl announced)
    · rw [record, mirrored.stands, present tested same, due, only.underway, done,
        (Only.refl agent before).underway]
      have other : before.opening agent ≠ some tested := by
        rcases own with free | opens
        · simp [free]
        · simpa [opens] using Ne.symm same
      simp [other]
  · intro tested closes
    have before_due := (due tested).mp closes
    by_cases same : tested = item
    · subst same
      rcases expected with already | ⟨_, settled⟩
      · rw [mirrored.absent tested before_due] at already
        cases already
      · exact absurd before_due settled
    · rw [present tested same]
      exact mirrored.absent tested before_due

/-- A thing goes without anybody having to announce it, while its return is underway. -/
theorem vanish (mirrored : before.Mirrored)
    (opening : ∀ agent, after.opening agent = before.opening agent)
    (closing : ∀ agent, after.closing agent = before.closing agent)
    (gone : after.present item = false)
    (present : ∀ tested, tested ≠ item → after.present tested = before.present tested)
    (record : ∀ tested, after.record tested = before.record tested)
    (returns : before.present item = true → before.Underway item) : after.Mirrored := by
  have underway : ∀ tested, after.Underway tested ↔ before.Underway tested := by
    intro tested
    simp only [Underway, opening]
  have due : ∀ tested, after.Due tested ↔ before.Due tested := by
    intro tested
    simp only [Due, closing]
  refine ⟨?_, ?_, ?_, ?_, ?_⟩
  · intro tested
    rw [record]
    exact mirrored.alternates tested
  · intro tested
    rw [record, mirrored.stands, underway, due]
    by_cases same : tested = item
    · subst same
      simp only [gone, Bool.false_eq_true, false_or]
      exact or_iff_right_of_imp fun there => .inl (returns there)
    · rw [present tested same]
  · intro tested closes
    by_cases same : tested = item
    · exact same ▸ gone
    · rw [present tested same]
      exact mirrored.absent tested ((due tested).mp closes)
  · intro agent
    rw [closing]
    exact mirrored.once agent
  · intro tested first second closes too
    rw [closing] at closes too
    exact mirrored.alone tested first second closes too

/-- An agent ends several things that are all there, each of them once. -/
theorem depart (mirrored : before.Mirrored) (only : Only agent before after)
    (opening : after.opening agent = before.opening agent) (idle : before.closing agent = [])
    (distinct : (after.closing agent).Nodup)
    (there : ∀ item ∈ after.closing agent, before.present item = true)
    (gone : ∀ item ∈ after.closing agent, after.present item = false)
    (present : ∀ item, item ∉ after.closing agent → after.present item = before.present item)
    (record : ∀ item, after.record item = before.record item) : after.Mirrored := by
  have underway : ∀ tested, after.Underway tested ↔ before.Underway tested := by
    intro tested
    rw [only.underway, opening, (Only.refl agent before).underway]
  have due : ∀ tested, after.Due tested ↔ tested ∈ after.closing agent ∨ before.Due tested := by
    intro tested
    rw [only.due, (Only.refl agent before).due, idle]
    simp
  have apart : ∀ item other, item ∈ after.closing agent → other ≠ agent →
      item ∉ after.closing other := by
    intro item other closes different too
    rw [only.closing other different] at too
    have present := there item closes
    rw [mirrored.absent item ⟨other, too⟩] at present
    cases present
  refine ⟨?_, ?_, ?_, ?_, ?_⟩
  · intro tested
    rw [record]
    exact mirrored.alternates tested
  · intro tested
    rw [record, mirrored.stands, underway, due]
    by_cases closes : tested ∈ after.closing agent
    · exact iff_of_true (.inl (there tested closes)) (.inr (.inr (.inl closes)))
    · simp [present tested closes, closes]
  · intro tested closes
    rcases (due tested).mp closes with own | earlier
    · exact gone tested own
    · by_cases own : tested ∈ after.closing agent
      · exact gone tested own
      · rw [present tested own]
        exact mirrored.absent tested earlier
  · intro other
    by_cases same : other = agent
    · exact same ▸ distinct
    · rw [only.closing other same]
      exact mirrored.once other
  · intro tested first second closes too
    by_cases own : first = agent
    · subst own
      by_contra different
      exact apart tested second closes (Ne.symm different) too
    · by_cases also : second = agent
      · subst also
        exact absurd closes (apart tested first too own)
      · rw [only.closing first own] at closes
        rw [only.closing second also] at too
        exact mirrored.alone tested first second closes too

/-- A closing is announced while no opening of the thing is underway. -/
theorem report (mirrored : before.Mirrored) (only : Only agent before after)
    (opening : after.opening agent = before.opening agent)
    (closing : before.closing agent = item :: after.closing agent)
    (present : ∀ tested, after.present tested = before.present tested)
    (recorded : after.record item = before.record item ++ [false])
    (unrecorded : ∀ tested, tested ≠ item → after.record tested = before.record tested)
    (alone : ¬ before.Underway item) : after.Mirrored := by
  obtain ⟨once, single⟩ := mirrored.closings only (closing ▸ List.sublist_cons_self _ _)
  have underway : ∀ tested, after.Underway tested ↔ before.Underway tested := by
    intro tested
    rw [only.underway, opening, (Only.refl agent before).underway]
  have closes : item ∈ before.closing agent := by simp [closing]
  have due : before.Due item := ⟨agent, closes⟩
  have settled : ¬ after.Due item := by
    rw [only.due]
    rintro (again | ⟨other, apart, also⟩)
    · have distinct := mirrored.once agent
      rw [closing] at distinct
      exact (List.nodup_cons.mp distinct).1 again
    · exact apart (mirrored.alone item other agent also closes)
  have others : ∀ tested, tested ≠ item → (after.Due tested ↔ before.Due tested) := by
    intro tested apart
    rw [only.due, (Only.refl agent before).due, closing]
    simp [apart]
  refine ⟨?_, ?_, ?_, once, single⟩
  · intro tested
    by_cases same : tested = item
    · subst same
      have opened := (mirrored.stands tested).mpr (.inr (.inr due))
      rw [recorded, alternates_append_one, opened]
      exact ⟨mirrored.alternates tested, rfl⟩
    · rw [unrecorded tested same]
      exact mirrored.alternates tested
  · intro tested
    by_cases same : tested = item
    · subst same
      rw [recorded, standsOpen_append_one, present, underway]
      refine iff_of_false (by simp) ?_
      rintro (there | opening | later)
      · rw [mirrored.absent tested due] at there
        cases there
      · exact alone opening
      · exact settled later
    · rw [unrecorded tested same, mirrored.stands, present, underway, others tested same]
  · intro tested later
    rw [present]
    by_cases same : tested = item
    · exact same ▸ mirrored.absent item due
    · exact mirrored.absent tested ((others tested same).mp later)

end Mirrored

/-- Once nothing is in between, a record stands open exactly while the thing is there. -/
theorem Mirrored.settled {ledger : Ledger ι ρ} (mirrored : ledger.Mirrored)
    (opening : ∀ agent, ledger.opening agent = none) (closing : ∀ agent, ledger.closing agent = [])
    (item : ρ) :
    standsOpen (ledger.record item) = true ↔ ledger.present item = true := by
  rw [mirrored.stands]
  simp [Underway, Due, opening, closing]

end Ledger

end Library
