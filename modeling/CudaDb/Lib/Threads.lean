import Mathlib

/-!
# Threads and what they total

The local states of a family of threads are a function of the thread. A step of the family moves
one thread. This module says what a move does to a property of all threads, to the resources that
they hold exclusively, and to the total of a quantity over finitely many of them. It names no
particular system.
-/

namespace Threads

variable {Thread Local : Type*} [DecidableEq Thread]

/-- After one thread has moved, every thread has a property if that thread has it and each other
had it. -/
theorem forall_move (property : Local → Prop) {locals : Thread → Local} {thread : Thread}
    {moved : Local} (here : property moved)
    (others : ∀ other, other ≠ thread → property (locals other)) (other : Thread) :
    property (Function.update locals thread moved other) := by
  by_cases same : other = thread
  · rw [same, Function.update_self]
    exact here
  · rw [Function.update_of_ne same]
    exact others other same

/-- After one thread has moved, every thread has a property if that thread has it and all threads
had it. -/
theorem forall_update (property : Local → Prop) {locals : Thread → Local} {thread : Thread}
    {moved : Local} (here : property moved) (others : ∀ other, property (locals other))
    (other : Thread) : property (Function.update locals thread moved other) :=
  forall_move property here (fun other _ => others other) other

/-- After one thread has moved, every thread has its own property if that thread has its own and all
threads had theirs. -/
theorem each_update (property : Thread → Local → Prop) {locals : Thread → Local} {thread : Thread}
    {moved : Local} (here : property thread moved) (others : ∀ other, property other (locals other))
    (other : Thread) : property other (Function.update locals thread moved other) := by
  by_cases same : other = thread
  · rw [same, Function.update_self]
    exact here
  · rw [Function.update_of_ne same]
    exact others other

section Exclusive

variable {Resource : Type*}

/-- No two threads hold one resource. -/
def Exclusive (held : Local → Option Resource) (locals : Thread → Local) : Prop :=
  ∀ first second resource, held (locals first) = some resource →
    held (locals second) = some resource → first = second

omit [DecidableEq Thread] in
/-- Different threads hold different resources. -/
theorem Exclusive.ne {held : Local → Option Resource} {locals : Thread → Local}
    {first second : Thread} {left right : Resource} (exclusive : Exclusive held locals)
    (apart : first ≠ second) (here : held (locals first) = some left)
    (there : held (locals second) = some right) : left ≠ right := by
  rintro rfl
  exact apart (exclusive first second left here there)

/-- A thread may move to hold what no other thread holds. -/
theorem Exclusive.take {held : Local → Option Resource} {locals : Thread → Local} {thread : Thread}
    {moved : Local} (exclusive : Exclusive held locals)
    (free : ∀ other resource, held moved = some resource →
      held (locals other) = some resource → other = thread) :
    Exclusive held (Function.update locals thread moved) := by
  intro first second resource left right
  by_cases here : first = thread
  · by_cases there : second = thread
    · exact here.trans there.symm
    · rw [here, Function.update_self] at left
      rw [Function.update_of_ne there] at right
      exact absurd (free second resource left right) there
  · rw [Function.update_of_ne here] at left
    by_cases there : second = thread
    · rw [there, Function.update_self] at right
      exact absurd (free first resource right left) here
    · rw [Function.update_of_ne there] at right
      exact exclusive first second resource left right

/-- A thread may keep what it holds or release it. -/
theorem Exclusive.keep {held : Local → Option Resource} {locals : Thread → Local} {thread : Thread}
    {moved : Local} (exclusive : Exclusive held locals)
    (kept : ∀ resource, held moved = some resource → held (locals thread) = some resource) :
    Exclusive held (Function.update locals thread moved) :=
  exclusive.take fun other resource holds held =>
    exclusive other thread resource held (kept resource holds)

end Exclusive

variable [Fintype Thread]

/-- The total of a quantity over all threads. -/
def total (measure : Local → Nat) (locals : Thread → Local) : Nat :=
  ∑ thread, measure (locals thread)

/-- A move replaces what its thread measured. -/
theorem total_update (measure : Local → Nat) (locals : Thread → Local) (thread : Thread)
    (moved : Local) :
    total measure (Function.update locals thread moved) + measure (locals thread) =
      total measure locals + measure moved := by
  have others : ∑ other ∈ Finset.univ.erase thread,
      measure (Function.update locals thread moved other) =
      ∑ other ∈ Finset.univ.erase thread, measure (locals other) := by
    apply Finset.sum_congr rfl
    intro other member
    rw [Function.update_of_ne (Finset.ne_of_mem_erase member)]
  have after := Finset.add_sum_erase Finset.univ
    (fun other => measure (Function.update locals thread moved other)) (Finset.mem_univ thread)
  have before := Finset.add_sum_erase Finset.univ (fun other => measure (locals other))
    (Finset.mem_univ thread)
  rw [Function.update_self, others] at after
  unfold total
  omega

omit [DecidableEq Thread] in
/-- A bound for every thread bounds the total. -/
theorem total_le (measure : Local → Nat) {locals : Thread → Local} {bound : Nat}
    (bounded : ∀ thread, measure (locals thread) ≤ bound) :
    total measure locals ≤ Fintype.card Thread * bound := by
  have sum := Finset.sum_le_card_nsmul Finset.univ (fun thread => measure (locals thread)) bound
    fun thread _ => bounded thread
  rwa [smul_eq_mul, Finset.card_univ] at sum

omit [DecidableEq Thread] in
/-- A smaller quantity has a smaller total. -/
theorem total_mono {smaller larger : Local → Nat} {locals : Thread → Local}
    (below : ∀ thread, smaller (locals thread) ≤ larger (locals thread)) :
    total smaller locals ≤ total larger locals :=
  Finset.sum_le_sum fun thread _ => below thread

omit [DecidableEq Thread] in
/-- A quantity that no thread has totals nothing. -/
theorem total_eq_zero {measure : Local → Nat} {locals : Thread → Local}
    (nothing : ∀ thread, measure (locals thread) = 0) : total measure locals = 0 :=
  Finset.sum_eq_zero fun thread _ => nothing thread

end Threads
