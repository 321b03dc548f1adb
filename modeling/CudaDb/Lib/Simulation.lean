import CudaDb.Lib.Machine

/-!
# Simulation with stuttering

A machine is simulated by another when every step of it, between related states, is imitated by
one step of the other or by none. Then each of its runs is imitated by one of the other, and an
invariant of the other holds of an image of every state reached. The imitating steps may be
required to meet a condition, which the invariant may rely on. This module names no particular
system.
-/

namespace Machine

variable {State Label Abstract Event : Type*}

/-- The second machine imitates every step of the first between related states, by no step or by
one that meets the condition. -/
def Simulates (concrete : Machine State Label) (abstract : Machine Abstract Event)
    (related : State → Abstract → Prop) (condition : Abstract → Event → Prop) : Prop :=
  ∀ state image label next, related state image → concrete.step state label = some next →
    related next image ∨ ∃ event after, condition image event ∧
      abstract.step image event = some after ∧ related next after

/-- An invariant of the second machine holds of an image of every state that the first one
reaches. -/
theorem Simulates.keeps {concrete : Machine State Label} {abstract : Machine Abstract Event}
    {related : State → Abstract → Prop} {condition : Abstract → Event → Prop}
    (simulates : Simulates concrete abstract related condition) (invariant : Abstract → Prop)
    (keep : ∀ image event after, invariant image → condition image event →
      abstract.step image event = some after → invariant after)
    {state next : State} {label : Label} (stepped : concrete.step state label = some next)
    (holds : ∃ image, related state image ∧ invariant image) :
    ∃ image, related next image ∧ invariant image := by
  obtain ⟨image, here, invariants⟩ := holds
  rcases simulates state image label next here stepped with
    stutters | ⟨event, after, meets, taken, moved⟩
  · exact ⟨image, stutters, invariants⟩
  · exact ⟨after, moved, keep image event after invariants meets taken⟩

/-- Every run of the first machine is imitated by a run of the second one. -/
theorem Simulates.runs {concrete : Machine State Label} {abstract : Machine Abstract Event}
    {related : State → Abstract → Prop} {condition : Abstract → Event → Prop}
    (simulates : Simulates concrete abstract related condition) {state final : State}
    {image : Abstract} {labels : List Label} (here : related state image)
    (ran : concrete.run state labels = some final) :
    ∃ events after, abstract.run image events = some after ∧
      abstract.Along condition image events ∧ related final after := by
  induction labels generalizing state image with
  | nil =>
    obtain rfl := Option.some.inj ran
    exact ⟨[], image, rfl, trivial, here⟩
  | cons label labels ih =>
    obtain ⟨next, stepped, rest⟩ := run_cons.mp ran
    rcases simulates state image label next here stepped with
      stutters | ⟨event, middle, meets, taken, moved⟩
    · exact ih stutters rest
    · obtain ⟨events, after, later, along, there⟩ := ih moved rest
      refine ⟨event :: events, after, run_cons.mpr ⟨middle, taken, later⟩, ⟨meets, ?_⟩, there⟩
      intro other same
      obtain rfl := Option.some.inj (taken.symm.trans same)
      exact along

end Machine
