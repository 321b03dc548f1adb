import Mathlib

/-!
# Labelled machines and their runs

A machine is a partial step function: a label names everything that a step may choose, so
the label and the state before determine the state after, and `none` means that the step
cannot be taken there. Interleavings are lists of labels. This module owns the run of a list
of labels, the invariant rules, the conditions on the steps of a run, and history variables.
It names no particular system.
-/

/-- A transition system whose successor state is determined by the label. -/
structure Machine (State Label : Type*) where
  /-- One step, refused where the label is not enabled. -/
  step : State → Label → Option State

namespace Machine

variable {State Label History : Type*}

/-- The state after a list of steps, refused as soon as one step is. -/
def run (machine : Machine State Label) : State → List Label → Option State
  | state, [] => some state
  | state, label :: labels => (machine.step state label).bind fun next => machine.run next labels

/-- Every step of the run is taken in a state where it meets the condition. -/
def Along (machine : Machine State Label) (condition : State → Label → Prop) :
    State → List Label → Prop
  | _, [] => True
  | state, label :: labels => condition state label ∧
      ∀ next, machine.step state label = some next → machine.Along condition next labels

/-- Every state of the run, the first and the last included, has the property. -/
def Always (machine : Machine State Label) (property : State → Prop) :
    State → List Label → Prop
  | state, [] => property state
  | state, label :: labels => property state ∧
      ∀ next, machine.step state label = some next → machine.Always property next labels

/-- A decidable condition can be checked along a concrete run. -/
instance decidableAlong (machine : Machine State Label) (condition : State → Label → Prop)
    [∀ state label, Decidable (condition state label)] :
    ∀ state labels, Decidable (machine.Along condition state labels)
  | _, [] => isTrue trivial
  | state, label :: labels =>
    match taken : machine.step state label with
    | none => decidable_of_iff (condition state label) (by simp [Along, taken])
    | some next =>
      have := machine.decidableAlong condition next labels
      decidable_of_iff (condition state label ∧ machine.Along condition next labels)
        (by simp [Along, taken])

variable {machine : Machine State Label}

/-- The empty run stays where it is. -/
@[simp] theorem run_nil (state : State) : machine.run state [] = some state := rfl

/-- A run of at least one step is its first step and a run from there. -/
theorem run_cons {state final : State} {label : Label} {labels : List Label} :
    machine.run state (label :: labels) = some final ↔
      ∃ next, machine.step state label = some next ∧ machine.run next labels = some final := by
  simp [run, Option.bind_eq_some_iff]

/-- Runs compose. -/
theorem run_append {state final : State} {first second : List Label} :
    machine.run state (first ++ second) = some final ↔
      ∃ middle, machine.run state first = some middle ∧
        machine.run middle second = some final := by
  induction first generalizing state with
  | nil => simp
  | cons label labels ih =>
    simp only [List.cons_append, run_cons, ih]
    constructor
    · rintro ⟨next, stepped, middle, ran, rest⟩
      exact ⟨middle, ⟨next, stepped, ran⟩, rest⟩
    · rintro ⟨middle, ⟨next, stepped, ran⟩, rest⟩
      exact ⟨next, stepped, middle, ran, rest⟩

/-- A property kept by every step that meets the condition holds at the end of every run
whose steps all meet it. -/
theorem run_invariant_along (invariant : State → Prop) {condition : State → Label → Prop}
    (keep : ∀ state label next, invariant state → condition state label →
      machine.step state label = some next → invariant next)
    {state final : State} {labels : List Label} (start : invariant state)
    (along : machine.Along condition state labels)
    (ran : machine.run state labels = some final) : invariant final := by
  induction labels generalizing state with
  | nil =>
    obtain rfl := Option.some.inj ran
    exact start
  | cons label labels ih =>
    obtain ⟨next, stepped, rest⟩ := run_cons.mp ran
    exact ih (keep state label next start along.1 stepped) (along.2 next stepped) rest

/-- Any condition that holds of every step holds along every run. -/
theorem along_of_forall {condition : State → Label → Prop}
    (all : ∀ state label, condition state label) (state : State) (labels : List Label) :
    machine.Along condition state labels := by
  induction labels generalizing state with
  | nil => trivial
  | cons label labels ih => exact ⟨all state label, fun next _ => ih next⟩

/-- A condition on labels alone holds along a run when it holds of each of its labels. -/
theorem along_of_mem {condition : Label → Prop} {labels : List Label}
    (all : ∀ label ∈ labels, condition label) (state : State) :
    machine.Along (fun _ label => condition label) state labels := by
  induction labels generalizing state with
  | nil => trivial
  | cons label labels ih =>
    exact ⟨all label List.mem_cons_self,
      fun next _ => ih (fun other later => all other (List.mem_cons_of_mem _ later)) next⟩

/-- A condition on labels alone that holds along a run holds of each of its labels. -/
theorem forall_of_along {condition : Label → Prop} {state final : State} {labels : List Label}
    (along : machine.Along (fun _ label => condition label) state labels)
    (ran : machine.run state labels = some final) : ∀ label ∈ labels, condition label := by
  induction labels generalizing state with
  | nil => exact fun _ member => (by cases member)
  | cons label labels ih =>
    obtain ⟨next, stepped, rest⟩ := run_cons.mp ran
    intro other member
    rcases List.mem_cons.mp member with same | later
    · rw [same]
      exact along.1
    · exact ih (along.2 next stepped) rest other later

/-- What a condition implies holds along every run along which the condition does. -/
theorem along_mono {first second : State → Label → Prop} {state : State} {labels : List Label}
    (along : machine.Along first state labels)
    (implies : ∀ state label, first state label → second state label) :
    machine.Along second state labels := by
  induction labels generalizing state with
  | nil => trivial
  | cons label labels ih =>
    exact ⟨implies state label along.1, fun next stepped => ih (along.2 next stepped)⟩

/-- Two conditions hold along a run when each does. -/
theorem along_and {first second : State → Label → Prop} {state : State} {labels : List Label}
    (left : machine.Along first state labels) (right : machine.Along second state labels) :
    machine.Along (fun state label => first state label ∧ second state label) state labels := by
  induction labels generalizing state with
  | nil => trivial
  | cons label labels ih =>
    exact ⟨⟨left.1, right.1⟩, fun next stepped => ih (left.2 next stepped) (right.2 next stepped)⟩

/-- Conditions along a run and the steps after it. -/
theorem along_append {condition : State → Label → Prop} {state middle : State}
    {first second : List Label} (ran : machine.run state first = some middle)
    (along : machine.Along condition state (first ++ second)) :
    machine.Along condition state first ∧ machine.Along condition middle second := by
  induction first generalizing state with
  | nil =>
    obtain rfl := Option.some.inj ran
    exact ⟨trivial, along⟩
  | cons label first ih =>
    obtain ⟨next, stepped, rest⟩ := run_cons.mp ran
    obtain ⟨before, after⟩ := ih rest (along.2 next stepped)
    refine ⟨⟨along.1, fun other taken => ?_⟩, after⟩
    obtain rfl := Option.some.inj (stepped.symm.trans taken)
    exact before

/-- Under an invariant, two conditions that agree hold along the same runs. -/
theorem along_congr (invariant : State → Prop) {first second : State → Label → Prop}
    (keep : ∀ state label next, invariant state →
      machine.step state label = some next → invariant next)
    (agree : ∀ state label, invariant state → (first state label ↔ second state label))
    {state : State} (start : invariant state) (labels : List Label) :
    machine.Along first state labels ↔ machine.Along second state labels := by
  induction labels generalizing state with
  | nil => exact Iff.rfl
  | cons label labels ih =>
    exact and_congr (agree state label start) (forall_congr' fun next =>
      forall_congr' fun stepped => ih (keep state label next start stepped))

/-- The invariant rule: a property kept by every step holds at the end of every run. -/
theorem run_invariant (invariant : State → Prop)
    (keep : ∀ state label next, invariant state →
      machine.step state label = some next → invariant next)
    {state final : State} {labels : List Label} (start : invariant state)
    (ran : machine.run state labels = some final) : invariant final := by
  have unconditional : machine.Along (fun _ _ => True) state labels :=
    along_of_forall (fun _ _ => trivial) state labels
  exact run_invariant_along invariant (fun state label next holds _ stepped =>
    keep state label next holds stepped) start unconditional ran

/-- When, under an invariant, a step meets the condition exactly if it leads to a state with
the property, the conditions along a run characterise the property of all its states. -/
theorem along_iff_always (invariant : State → Prop) {property : State → Prop}
    {condition : State → Label → Prop}
    (keep : ∀ state label next, invariant state →
      machine.step state label = some next → invariant next)
    (exact_step : ∀ state label next, invariant state → property state →
      machine.step state label = some next → (condition state label ↔ property next))
    (refused : ∀ state label, invariant state → machine.step state label = none →
      condition state label)
    {state : State} (labels : List Label) (start : invariant state) (initial : property state) :
    machine.Along condition state labels ↔ machine.Always property state labels := by
  induction labels generalizing state with
  | nil => exact ⟨fun _ => initial, fun _ => trivial⟩
  | cons label labels ih =>
    cases stepped : machine.step state label with
    | none =>
      simp only [Along, Always, stepped, reduceCtorEq, false_implies, implies_true, and_true]
      exact ⟨fun _ => initial, fun _ => refused state label start stepped⟩
    | some next =>
      have local_exact := exact_step state label next start initial stepped
      have later := keep state label next start stepped
      simp only [Along, Always, stepped, Option.some.injEq, forall_eq']
      constructor
      · rintro ⟨here, rest⟩
        exact ⟨initial, (ih later (local_exact.mp here)).mp rest⟩
      · rintro ⟨_, rest⟩
        have there : property next := by
          cases labels with
          | nil => exact rest
          | cons _ _ => exact rest.1
        exact ⟨local_exact.mpr there, (ih later there).mpr rest⟩

/-- When no step lowers a measure, and a step meets the condition exactly if it leaves the measure
as it is, a run meets the condition throughout exactly if it ends with the measure it started
with. -/
theorem along_iff_measure_eq {Measure : Type*} [PartialOrder Measure] (measure : State → Measure)
    (invariant : State → Prop) (condition : State → Label → Prop)
    (keep : ∀ state label next, invariant state →
      machine.step state label = some next → invariant next)
    (grows : ∀ state label next, invariant state →
      machine.step state label = some next → measure state ≤ measure next)
    (exact_step : ∀ state label next, invariant state →
      machine.step state label = some next →
        (condition state label ↔ measure next = measure state))
    {state final : State} {labels : List Label} (start : invariant state)
    (ran : machine.run state labels = some final) :
    machine.Along condition state labels ↔ measure final = measure state := by
  have bounded : ∀ {state labels}, invariant state → machine.run state labels = some final →
      measure state ≤ measure final := by
    intro state labels holds run
    induction labels generalizing state with
    | nil =>
      obtain rfl := Option.some.inj run
      exact le_rfl
    | cons label labels ih =>
      obtain ⟨next, stepped, rest⟩ := run_cons.mp run
      exact (grows state label next holds stepped).trans
        (ih (keep state label next holds stepped) rest)
  induction labels generalizing state with
  | nil =>
    obtain rfl := Option.some.inj ran
    exact iff_of_true trivial rfl
  | cons label labels ih =>
    obtain ⟨next, stepped, rest⟩ := run_cons.mp ran
    have later := keep state label next start stepped
    have here := exact_step state label next start stepped
    have after := ih later rest
    constructor
    · rintro ⟨meets, along⟩
      exact (after.mp (along next stepped)).trans (here.mp meets)
    · intro same
      have upper : measure next ≤ measure state := (bounded later rest).trans same.le
      have middle : measure next = measure state :=
        le_antisymm upper (grows state label next start stepped)
      refine ⟨here.mpr middle, fun other taken => ?_⟩
      obtain rfl := Option.some.inj (stepped.symm.trans taken)
      exact after.mpr (same.trans middle.symm)

/-! ## History variables -/

/-- The machine with a history that is updated from each step taken and never read by it. -/
def observed (machine : Machine State Label) (observe : History → State → Label → History) :
    Machine (State × History) Label where
  step := fun (state, history) label =>
    (machine.step state label).map fun next => (next, observe history state label)

variable {observe : History → State → Label → History}

/-- A step with its history is the step, with the observation made in the state before. -/
theorem observed_step {state next : State} {before after : History} {label : Label} :
    (machine.observed observe).step (state, before) label = some (next, after) ↔
      machine.step state label = some next ∧ observe before state label = after := by
  simp [observed]

/-- A condition that does not read the history holds along an observed run exactly if it holds along
the run. -/
theorem along_observed {condition : State → Label → Prop} {state : State} {history : History}
    {labels : List Label} :
    (machine.observed observe).Along (fun both label => condition both.1 label) (state, history)
        labels ↔
      machine.Along condition state labels := by
  induction labels generalizing state history with
  | nil => exact Iff.rfl
  | cons label labels ih =>
    constructor
    · rintro ⟨here, rest⟩
      exact ⟨here, fun next stepped => ih.mp (rest _ (observed_step.mpr ⟨stepped, rfl⟩))⟩
    · rintro ⟨here, rest⟩
      refine ⟨here, ?_⟩
      rintro ⟨next, after⟩ stepped
      exact ih.mpr (rest next (observed_step.mp stepped).1)

/-- Every run has a history. -/
theorem observed_of_run {state final : State} {labels : List Label}
    (ran : machine.run state labels = some final) (before : History) :
    ∃ after, (machine.observed observe).run (state, before) labels = some (final, after) := by
  induction labels generalizing state before with
  | nil => exact ⟨before, by simpa using ran⟩
  | cons label labels ih =>
    obtain ⟨next, stepped, rest⟩ := run_cons.mp ran
    obtain ⟨after, later⟩ := ih rest (observe before state label)
    exact ⟨after, run_cons.mpr ⟨_, observed_step.mpr ⟨stepped, rfl⟩, later⟩⟩

end Machine
