import Mathlib.Data.List.Basic

/-!
# Folds that leave a record

A machine takes its inputs in order; each input changes the state and appends
outputs to a record. `traced` is the fold. A law relating the state to all
outputs so far holds of the whole fold when each single input keeps it, and
`Along` says that a condition on the state, the record and the next input held
before every input of the fold.
-/

namespace Library

universe u v w
variable {σ : Type u} {α : Type v} {ω : Type w}

/-- Feed the inputs in order, collecting the outputs. -/
def traced (step : σ → α → σ × List ω) : σ → List α → σ × List ω
  | state, [] => (state, [])
  | state, input :: rest =>
      let taken := step state input
      let remaining := traced step taken.1 rest
      (remaining.1, taken.2 ++ remaining.2)

/-- Feeding two lists one after the other. -/
theorem traced_append (step : σ → α → σ × List ω) (first second : List α) (state : σ) :
    traced step state (first ++ second) =
      ((traced step (traced step state first).1 second).1,
        (traced step state first).2 ++ (traced step (traced step state first).1 second).2) := by
  induction first generalizing state with
  | nil => simp [traced]
  | cons input rest inductionHypothesis => simp [traced, inductionHypothesis]

/-- A condition that holds before every input of a fold. -/
def Along (step : σ → α → σ × List ω) (condition : σ → List ω → α → Prop) :
    σ → List ω → List α → Prop
  | _, _, [] => True
  | state, past, input :: rest =>
      condition state past input ∧
        Along step condition (step state input).1 (past ++ (step state input).2) rest

/-- Whether a decidable condition holds along a fold can be computed. -/
instance Along.decidable (step : σ → α → σ × List ω) (condition : σ → List ω → α → Prop)
    [∀ state past input, Decidable (condition state past input)] :
    ∀ state past inputs, Decidable (Along step condition state past inputs)
  | _, _, [] => isTrue trivial
  | state, past, input :: rest =>
      have := Along.decidable step condition (step state input).1 (past ++ (step state input).2) rest
      inferInstanceAs (Decidable (condition state past input ∧
        Along step condition (step state input).1 (past ++ (step state input).2) rest))

variable {step : σ → α → σ × List ω}

/-- A law that also speaks of the inputs taken so far, kept by every input taken
under the condition, is kept by the fold. -/
theorem Along.keeps_inputs {condition : σ → List ω → α → Prop} {state : σ} {past : List ω}
    {inputs : List α} (along : Along step condition state past inputs)
    (law : σ → List α → List ω → Prop) (taken : List α)
    (each : ∀ state taken past input, law state taken past → condition state past input →
      law (step state input).1 (taken ++ [input]) (past ++ (step state input).2))
    (initial : law state taken past) :
    law (traced step state inputs).1 (taken ++ inputs) (past ++ (traced step state inputs).2) := by
  induction inputs generalizing state past taken with
  | nil => simpa [traced] using initial
  | cons input rest inductionHypothesis =>
    obtain ⟨here, later⟩ := along
    have kept := inductionHypothesis later (taken ++ [input])
      (each state taken past input initial here)
    simpa only [traced, List.append_assoc, List.singleton_append] using kept

/-- A law kept by every input taken under the condition is kept by the fold. -/
theorem Along.keeps {condition : σ → List ω → α → Prop} {state : σ} {past : List ω}
    {inputs : List α} (along : Along step condition state past inputs)
    (law : σ → List ω → Prop)
    (each : ∀ state past input, law state past → condition state past input →
      law (step state input).1 (past ++ (step state input).2))
    (initial : law state past) :
    law (traced step state inputs).1 (past ++ (traced step state inputs).2) :=
  along.keeps_inputs (fun state _ past => law state past) []
    (fun state _ past input => each state past input) initial

/-- A condition may be strengthened by what is known of the listed inputs. -/
theorem Along.imp_mem {condition stronger : σ → List ω → α → Prop} {state : σ} {past : List ω}
    {inputs : List α} (along : Along step condition state past inputs)
    (each : ∀ state past, ∀ input ∈ inputs, condition state past input →
      stronger state past input) : Along step stronger state past inputs := by
  induction inputs generalizing state past with
  | nil => trivial
  | cons input rest inductionHypothesis =>
    obtain ⟨here, later⟩ := along
    refine ⟨each state past input List.mem_cons_self here, ?_⟩
    exact inductionHypothesis later fun state past later member =>
      each state past later (List.mem_cons_of_mem input member)

/-- A condition that only looks at the input holds along every fold of such inputs. -/
theorem Along.of_forall {condition : σ → List ω → α → Prop} (inputs : List α)
    (met : ∀ state past, ∀ input ∈ inputs, condition state past input)
    (state : σ) (past : List ω) : Along step condition state past inputs := by
  induction inputs generalizing state past with
  | nil => trivial
  | cons input rest inductionHypothesis =>
    refine ⟨met state past input List.mem_cons_self, ?_⟩
    exact inductionHypothesis (fun state past later member =>
      met state past later (List.mem_cons_of_mem input member)) _ _

/-- A law every listed input keeps is kept by the fold. -/
theorem traced_keeps (law : σ → List ω → Prop) (inputs : List α)
    (each : ∀ state past, ∀ input ∈ inputs, law state past →
      law (step state input).1 (past ++ (step state input).2))
    (state : σ) (past : List ω) (initial : law state past) :
    law (traced step state inputs).1 (past ++ (traced step state inputs).2) := by
  have along : Along step (fun _ _ input => input ∈ inputs) state past inputs :=
    Along.of_forall inputs (fun _ _ _ member => member) state past
  refine along.keeps law ?_ initial
  intro state past input held member
  exact each state past input member held

/-- The record-free form: a property of the state that every listed input keeps. -/
theorem traced_keeps_state (property : σ → Prop) (inputs : List α)
    (each : ∀ state, ∀ input ∈ inputs, property state → property (step state input).1)
    (state : σ) (initial : property state) : property (traced step state inputs).1 :=
  traced_keeps (fun state _ => property state) inputs
    (fun state _ input member held => each state input member held) state [] initial

/-- A condition on the state and the next input holds before every step of a machine
that leaves no record. -/
def Throughout (next : σ → α → σ) (condition : σ → α → Prop) : σ → List α → Prop
  | _, [] => True
  | state, input :: rest => condition state input ∧ Throughout next condition (next state input) rest

instance Throughout.decidable (next : σ → α → σ) (condition : σ → α → Prop)
    [∀ state input, Decidable (condition state input)] :
    ∀ state inputs, Decidable (Throughout next condition state inputs)
  | _, [] => isTrue trivial
  | state, input :: rest =>
      have := Throughout.decidable next condition (next state input) rest
      inferInstanceAs (Decidable (condition state input ∧
        Throughout next condition (next state input) rest))

/-- Two conditions that agree where a law holds, and keep it, hold throughout the same
inputs. -/
theorem throughout_iff {next : σ → α → σ} {condition other : σ → α → Prop} (law : σ → Prop)
    (agree : ∀ state input, law state → (condition state input ↔ other state input))
    (kept : ∀ state input, law state → other state input → law (next state input))
    (inputs : List α) {state : σ} (initial : law state) :
    Throughout next condition state inputs ↔ Throughout next other state inputs := by
  induction inputs generalizing state with
  | nil => exact Iff.rfl
  | cons input rest inductionHypothesis =>
    have here := agree state input initial
    constructor
    · rintro ⟨met, later⟩
      have met := here.mp met
      exact ⟨met, (inductionHypothesis (kept state input initial met)).mp later⟩
    · rintro ⟨met, later⟩
      exact ⟨here.mpr met, (inductionHypothesis (kept state input initial met)).mpr later⟩

/-- Two machines that answer every listed input alike and stay related leave the same
record. -/
theorem traced_simulates {τ : Type*} {other : τ → α → τ × List ω} (relation : σ → τ → Prop)
    (inputs : List α)
    (each : ∀ state image, ∀ input ∈ inputs, relation state image →
      relation (step state input).1 (other image input).1 ∧
        (step state input).2 = (other image input).2)
    {state : σ} {image : τ} (initial : relation state image) :
    relation (traced step state inputs).1 (traced other image inputs).1 ∧
      (traced step state inputs).2 = (traced other image inputs).2 := by
  induction inputs generalizing state image with
  | nil => exact ⟨initial, rfl⟩
  | cons input rest inductionHypothesis =>
    obtain ⟨related, answered⟩ := each state image input List.mem_cons_self initial
    obtain ⟨later, record⟩ := inductionHypothesis
      (fun state image later member => each state image later (List.mem_cons_of_mem input member))
      related
    refine ⟨later, ?_⟩
    rw [traced, traced, answered, record]

/-- A machine may take inputs that a related machine does not have, and say more on the
others. What the second says is then part of what the first says, and of what is kept the
two say the same. -/
theorem traced_stutters {τ : Type*} {β : Type*} {other : τ → β → τ × List ω} (project : α → Option β)
    (keep : ω → Bool) (relation : σ → τ → Prop)
    (visible : ∀ state image input taken, project input = some taken → relation state image →
      relation (step state input).1 (other image taken).1 ∧
        (other image taken).2.Sublist (step state input).2 ∧
          (step state input).2.filter keep = (other image taken).2.filter keep)
    (hidden : ∀ state image input, project input = none → relation state image →
      relation (step state input).1 image ∧ (step state input).2.filter keep = [])
    (inputs : List α) {state : σ} {image : τ} (initial : relation state image) :
    relation (traced step state inputs).1 (traced other image (inputs.filterMap project)).1 ∧
      (traced other image (inputs.filterMap project)).2.Sublist (traced step state inputs).2 ∧
        (traced step state inputs).2.filter keep =
          (traced other image (inputs.filterMap project)).2.filter keep := by
  induction inputs generalizing state image with
  | nil => exact ⟨initial, .slnil, rfl⟩
  | cons input rest inductionHypothesis =>
    cases projected : project input with
    | none =>
      obtain ⟨related, silent⟩ := hidden state image input projected initial
      obtain ⟨later, among, same⟩ := inductionHypothesis related
      rw [List.filterMap_cons_none projected, traced]
      refine ⟨later, among.trans (List.sublist_append_right _ _), ?_⟩
      rw [List.filter_append, silent, List.nil_append, same]
    | some taken =>
      obtain ⟨related, part, kept⟩ := visible state image input taken projected initial
      obtain ⟨later, among, same⟩ := inductionHypothesis related
      rw [List.filterMap_cons_some projected, traced, traced]
      refine ⟨later, part.append among, ?_⟩
      rw [List.filter_append, List.filter_append, kept, same]

end Library
