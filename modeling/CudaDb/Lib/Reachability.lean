import CudaDb.Lib.Machine

/-!
# What a machine can still do

Progress without a scheduler: from a state, some steps of an allowed kind lead to a goal. Such facts
compose, carry every invariant of the allowed steps with them, and follow from a rank that can
always be lowered. It names no particular system.
-/

namespace Machine

variable {State Label : Type*}

/-- Some allowed steps lead from the state to the goal. -/
def CanReach (machine : Machine State Label) (allowed : Label → Prop) (goal : State → Prop)
    (state : State) : Prop :=
  ∃ labels final, (∀ label ∈ labels, allowed label) ∧ machine.run state labels = some final ∧
    goal final

variable {machine : Machine State Label} {allowed : Label → Prop} {goal middle : State → Prop}
  {state next : State} {label : Label}

/-- A goal that is met can be reached. -/
theorem CanReach.here (met : goal state) : machine.CanReach allowed goal state :=
  ⟨[], state, fun _ member => (by cases member), rfl, met⟩

/-- What a goal implies can be reached where the goal can. -/
theorem CanReach.mono (reach : machine.CanReach allowed middle state)
    (implies : ∀ state, middle state → goal state) : machine.CanReach allowed goal state := by
  rcases reach with ⟨labels, final, allows, ran, met⟩
  exact ⟨labels, final, allows, ran, implies final met⟩

/-- A goal that can be reached from one goal after another can be reached. -/
theorem CanReach.trans (first : machine.CanReach allowed middle state)
    (second : ∀ state, middle state → machine.CanReach allowed goal state) :
    machine.CanReach allowed goal state := by
  rcases first with ⟨labels, between, allows, ran, here⟩
  rcases second between here with ⟨more, final, also, later, there⟩
  refine ⟨labels ++ more, final, ?_, run_append.mpr ⟨between, ran, later⟩, there⟩
  intro label member
  rcases List.mem_append.mp member with before | after
  · exact allows label before
  · exact also label after

/-- An allowed step leads to what can be reached after it. -/
theorem CanReach.step (allows : allowed label) (stepped : machine.step state label = some next)
    (rest : machine.CanReach allowed goal next) : machine.CanReach allowed goal state := by
  rcases rest with ⟨labels, final, also, ran, met⟩
  refine ⟨label :: labels, final, ?_, run_cons.mpr ⟨next, stepped, ran⟩, met⟩
  intro other member
  rcases List.mem_cons.mp member with rfl | later
  · exact allows
  · exact also other later

/-- What allowed steps keep holds where they lead. -/
theorem CanReach.keeps (invariant : State → Prop)
    (keep : ∀ state label next, invariant state → allowed label →
      machine.step state label = some next → invariant next)
    (start : invariant state) (reach : machine.CanReach allowed goal state) :
    machine.CanReach allowed (fun final => invariant final ∧ goal final) state := by
  rcases reach with ⟨labels, final, allows, ran, met⟩
  have along : machine.Along (fun _ label => allowed label) state labels :=
    along_of_mem allows state
  exact ⟨labels, final, allows, ran, run_invariant_along invariant keep start along ran, met⟩

/-- The progress rule: a goal can be reached when, under an invariant, a rank can be lowered as long
as the goal is not met. -/
theorem CanReach.of_rank (invariant : State → Prop) (rank : State → Nat)
    (lower : ∀ state, invariant state → ¬ goal state →
      machine.CanReach allowed (fun next => invariant next ∧ rank next < rank state) state)
    (start : invariant state) :
    machine.CanReach allowed (fun final => invariant final ∧ goal final) state := by
  induction left : rank state using Nat.strong_induction_on generalizing state with
  | _ bound ih =>
    by_cases met : goal state
    · exact CanReach.here ⟨start, met⟩
    · apply (lower state start met).trans
      intro next holds
      have fewer : rank next < bound := by omega
      exact ih (rank next) fewer holds.1 rfl

end Machine
