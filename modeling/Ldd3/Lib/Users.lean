import Mathlib.Tactic
import Ldd3.Lib.Counting
import Ldd3.Lib.Semaphore

/-!
A count of users: it is the number of processes at a point where they use what is counted.
-/

open scoped BigOperators

namespace Users

open Semaphore (weight weight_nonneg weight_held weight_free)

variable {Pid Point : Type} [Fintype Pid] {uses : Point → Bool} {count : Int}
  {points : Pid → Point}

def Counted (uses : Point → Bool) (count : Int) (points : Pid → Point) : Prop :=
  count = ∑ pid, weight uses (points pid)

theorem Counted.nonneg (counted : Counted uses count points) : 0 ≤ count := by
  rw [counted]
  exact Finset.sum_nonneg fun pid _ => weight_nonneg uses (points pid)

theorem Counted.pos (counted : Counted uses count points) {pid : Pid}
    (used : uses (points pid) = true) : 0 < count := by
  have single := Counting.weight_le_sum points pid (weight uses) (weight_nonneg uses)
  rw [weight_held used] at single
  rw [counted]
  omega

theorem Counted.zero_iff (counted : Counted uses count points) :
    count = 0 ↔ ∀ pid, uses (points pid) = false := by
  constructor
  · intro unused pid
    cases used : uses (points pid) with
    | false => rfl
    | true =>
        have positive := counted.pos used
        omega
  · intro unused
    rw [counted]
    exact Finset.sum_eq_zero fun pid _ => weight_free (unused pid)

variable [DecidableEq Pid] {pid : Pid} {point : Point}

theorem Counted.enter (counted : Counted uses count points) (before : uses (points pid) = false)
    (after : uses point = true) : Counted uses (count + 1) (Function.update points pid point) := by
  rw [Counted, Counting.sum_update, ← counted, weight_free before, weight_held after]
  omega

theorem Counted.leave (counted : Counted uses count points) (before : uses (points pid) = true)
    (after : uses point = false) : Counted uses (count - 1) (Function.update points pid point) := by
  rw [Counted, Counting.sum_update, ← counted, weight_free after, weight_held before]
  omega

theorem Counted.move (counted : Counted uses count points)
    (same : uses point = uses (points pid)) :
    Counted uses count (Function.update points pid point) := by
  rw [Counted, Counting.sum_update, ← counted, weight, weight, same]
  omega

end Users
