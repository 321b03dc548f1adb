import CudaDb.Lib.Machine

/-!
# Machines whose steps commute

Where two steps in a row may always be taken in the other order, and end in states that no later
step tells apart, a run may be reordered as a whole. This module states the two conditions, over
an invariant and over the equivalence that is meant, and the rule for permuted runs. It names no
particular system.
-/

namespace Machine

variable {State Label : Type*}

/-- No step tells equivalent states apart. -/
structure Congruence (machine : Machine State Label) (same : State → State → Prop) : Prop where
  /-- A state is equivalent to itself. -/
  refl : ∀ state, same state state
  /-- Equivalences compose. -/
  trans : ∀ first second third, same first second → same second third → same first third
  /-- A step of a state can be taken in an equivalent state, to an equivalent one. -/
  step : ∀ first second label next, same first second → machine.step first label = some next →
    ∃ other, machine.step second label = some other ∧ same next other

/-- Two steps in a row can be taken in the other order, to an equivalent state. -/
def Commutes (machine : Machine State Label) (invariant : State → Prop)
    (same : State → State → Prop) : Prop :=
  ∀ state first second middle final, invariant state → machine.step state first = some middle →
    machine.step middle second = some final →
    ∃ between other, machine.step state second = some between ∧
      machine.step between first = some other ∧ same final other

variable {machine : Machine State Label} {invariant : State → Prop}
  {same : State → State → Prop}

/-- A run of a state can be taken in an equivalent state, to an equivalent one. -/
theorem Congruence.run (congruence : machine.Congruence same) {first second final : State}
    {labels : List Label} (alike : same first second)
    (ran : machine.run first labels = some final) :
    ∃ other, machine.run second labels = some other ∧ same final other := by
  induction labels generalizing first second with
  | nil =>
    obtain rfl := Option.some.inj ran
    exact ⟨second, rfl, alike⟩
  | cons label labels ih =>
    obtain ⟨next, stepped, rest⟩ := run_cons.mp ran
    obtain ⟨middle, taken, close⟩ := congruence.step _ _ _ _ alike stepped
    obtain ⟨other, later, equivalent⟩ := ih close rest
    exact ⟨other, run_cons.mpr ⟨middle, taken, later⟩, equivalent⟩

/-- If all steps commute, a permuted run is possible and ends in an equivalent state. -/
theorem run_perm (congruence : machine.Congruence same)
    (commutes : machine.Commutes invariant same)
    (keep : ∀ state label next, invariant state →
      machine.step state label = some next → invariant next)
    {state final : State} {labels permuted : List Label} (reorder : labels.Perm permuted)
    (start : invariant state) (ran : machine.run state labels = some final) :
    ∃ other, machine.run state permuted = some other ∧ same final other := by
  induction reorder generalizing state final with
  | nil => exact ⟨final, ran, congruence.refl final⟩
  | cons label _ ih =>
    obtain ⟨next, stepped, rest⟩ := run_cons.mp ran
    obtain ⟨other, later, equivalent⟩ := ih (keep _ _ _ start stepped) rest
    exact ⟨other, run_cons.mpr ⟨next, stepped, later⟩, equivalent⟩
  | swap second first labels =>
    obtain ⟨middle, one, rest⟩ := run_cons.mp ran
    obtain ⟨next, two, after⟩ := run_cons.mp rest
    obtain ⟨between, swapped, here, there, alike⟩ := commutes _ _ _ _ _ start one two
    obtain ⟨other, later, equivalent⟩ := congruence.run alike after
    exact ⟨other, run_cons.mpr ⟨between, here, run_cons.mpr ⟨swapped, there, later⟩⟩, equivalent⟩
  | trans _ _ ih_first ih_second =>
    obtain ⟨middle, once, near⟩ := ih_first start ran
    obtain ⟨other, twice, far⟩ := ih_second start once
    exact ⟨other, twice, congruence.trans _ _ _ near far⟩

end Machine
