import Mathlib.Tactic
import Ldd3.Lib.Counting

/-!
A binary semaphore: its value and the number of processes at a point where they hold
it add up to one.
-/

open scoped BigOperators

namespace Semaphore

variable {Pid Point : Type} [Fintype Pid]

def weight (holds : Point → Bool) (point : Point) : Int := if holds point then 1 else 0

structure Balanced (holds : Point → Bool) (sem : Int) (points : Pid → Point) : Prop where
  nonneg : 0 ≤ sem
  total : sem + ∑ pid, weight holds (points pid) = 1

variable {holds : Point → Bool} {sem : Int} {points : Pid → Point}

theorem weight_nonneg (holds : Point → Bool) (point : Point) : 0 ≤ weight holds point := by
  simp only [weight]
  split <;> omega

theorem weight_le_one (holds : Point → Bool) (point : Point) : weight holds point ≤ 1 := by
  simp only [weight]
  split <;> omega

theorem weight_held {point : Point} (held : holds point = true) : weight holds point = 1 := by
  simp only [weight, if_pos held]

theorem weight_free {point : Point} (free : holds point = false) : weight holds point = 0 := by
  simp only [weight, free, Bool.false_eq_true, if_false]

theorem Balanced.binary (balanced : Balanced holds sem points) : sem = 0 ∨ sem = 1 := by
  have nonneg := balanced.nonneg
  have total := balanced.total
  have held : 0 ≤ ∑ pid, weight holds (points pid) :=
    Finset.sum_nonneg fun pid _ => weight_nonneg holds (points pid)
  omega

theorem Balanced.free_iff (balanced : Balanced holds sem points) :
    0 < sem ↔ ∀ pid, holds (points pid) = false := by
  have total := balanced.total
  constructor
  · intro free pid
    cases held : holds (points pid) with
    | false => rfl
    | true =>
        have counted := Counting.weight_le_sum points pid (weight holds) (weight_nonneg holds)
        rw [weight_held held] at counted
        omega
  · intro free
    have none : ∑ pid, weight holds (points pid) = 0 := by
      apply Finset.sum_eq_zero
      intro pid _
      exact weight_free (free pid)
    omega

theorem Balanced.congr {moved : Pid → Point} (balanced : Balanced holds sem points)
    (same : ∀ pid, holds (moved pid) = holds (points pid)) : Balanced holds sem moved := by
  refine ⟨balanced.nonneg, ?_⟩
  have total := balanced.total
  simp only [weight, same] at total ⊢
  exact total

variable [DecidableEq Pid]

theorem Balanced.exclusive (balanced : Balanced holds sem points) {first second : Pid}
    (firstHolds : holds (points first) = true) (secondHolds : holds (points second) = true) :
    first = second := by
  by_contra different
  have total := balanced.total
  have nonneg := balanced.nonneg
  have both := Counting.pair_le_sum points different (weight holds) (weight_nonneg holds)
  rw [weight_held firstHolds, weight_held secondHolds] at both
  omega

theorem Balanced.taken_iff (balanced : Balanced holds sem points) :
    sem = 0 ↔ ∃! pid, holds (points pid) = true := by
  have free := balanced.free_iff
  constructor
  · intro taken
    have someone : ¬ ∀ pid, holds (points pid) = false := by
      rw [← free]
      omega
    simp only [not_forall, Bool.not_eq_false] at someone
    obtain ⟨pid, held⟩ := someone
    exact ⟨pid, held, fun other otherHeld => balanced.exclusive otherHeld held⟩
  · rintro ⟨pid, held, _⟩
    rcases balanced.binary with taken | value
    · exact taken
    · have none := free.mp (by omega) pid
      rw [held] at none
      contradiction

theorem Balanced.move (balanced : Balanced holds sem points) {pid : Pid} {point : Point}
    (same : holds point = holds (points pid)) :
    Balanced holds sem (Function.update points pid point) := by
  refine ⟨balanced.nonneg, ?_⟩
  have total := balanced.total
  rw [Counting.sum_update]
  simp only [weight, same] at total ⊢
  omega

theorem Balanced.down (balanced : Balanced holds sem points) {pid : Pid} {point : Point}
    (free : 0 < sem) (held : holds point = true) :
    Balanced holds (sem - 1) (Function.update points pid point) := by
  have before := balanced.free_iff.mp free pid
  have total := balanced.total
  refine ⟨by omega, ?_⟩
  rw [Counting.sum_update, weight_free before, weight_held held]
  omega

theorem Balanced.up (balanced : Balanced holds sem points) {pid : Pid} {point : Point}
    (held : holds (points pid) = true) (free : holds point = false) :
    Balanced holds (sem + 1) (Function.update points pid point) := by
  have total := balanced.total
  have nonneg := balanced.nonneg
  refine ⟨by omega, ?_⟩
  rw [Counting.sum_update, weight_held held, weight_free free]
  omega

end Semaphore
