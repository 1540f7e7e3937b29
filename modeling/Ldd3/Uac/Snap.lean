import Mathlib.Tactic
import Ldd3.Uac.RawVolume

/-!
What `snap_to_res` promises of the volume that it returns, and when it keeps such a volume.
-/

namespace Ldd3.Uac

open CInt (FitsInt)

section Grid

variable {step lo hi res n : Int}

theorem nearestMultiple_of_dvd (positive : 0 < step) {offset : Int} (grid : step ∣ offset) :
    nearestMultiple step offset = offset := by
  obtain ⟨steps, rfl⟩ := grid
  have split : 2 * (step * steps) + step = step + 2 * step * steps := by ring
  rw [nearestMultiple, split, Int.add_mul_ediv_left _ _ (by omega : 2 * step ≠ 0),
    Int.ediv_eq_zero_of_lt positive.le (by omega), zero_add, Int.mul_comm]

theorem idealVolume_bounds (ordered : lo ≤ hi) (n res : Int) :
    lo ≤ idealVolume n lo hi res ∧ idealVolume n lo hi res ≤ hi := by
  simp only [idealVolume]
  omega

theorem idealVolume_grid (n lo hi res : Int) :
    idealVolume n lo hi res = hi ∨ stepOf res ∣ idealVolume n lo hi res - lo := by
  have grid := (nearestMultiple_near (stepOf_pos res) (n - lo)).1
  have cases : idealVolume n lo hi res = hi ∨ idealVolume n lo hi res = lo ∨
      idealVolume n lo hi res = lo + nearestMultiple (stepOf res) (n - lo) := by
    simp only [idealVolume]
    omega
  rcases cases with top | bottom | rounded
  · exact .inl top
  · rw [bottom, sub_self]
    exact .inr (dvd_zero _)
  · rw [rounded, add_sub_cancel_left]
    exact .inr grid

theorem idealVolume_of_grid (above : lo ≤ n) (below : n ≤ hi) (grid : stepOf res ∣ n - lo) :
    idealVolume n lo hi res = n := by
  rw [idealVolume, nearestMultiple_of_dvd (stepOf_pos res) grid]
  omega

theorem idealVolume_near (above : lo ≤ n) (below : n ≤ hi) (res : Int) :
    2 * |n - idealVolume n lo hi res| ≤ stepOf res := by
  obtain ⟨_, fromBelow, fromAbove⟩ := nearestMultiple_near (stepOf_pos res) (n - lo)
  have within : 2 * (n - idealVolume n lo hi res) ≤ stepOf res ∧
      2 * (idealVolume n lo hi res - n) ≤ stepOf res := by
    simp only [idealVolume]
    omega
  rcases abs_cases (n - idealVolume n lo hi res) with ⟨same, _⟩ | ⟨same, _⟩
  · rw [same]
    exact within.1
  · rw [same, neg_sub]
    exact within.2

theorem topFrom_self (lo res : Int) : topFrom lo lo res ≤ lo := by
  have positive := stepOf_pos res
  have none : (lo - lo + stepOf res - 1) / stepOf res = 0 :=
    Int.ediv_eq_zero_of_lt (by omega) (by omega)
  rw [topFrom, none, zero_mul]
  omega

theorem idealVolume_again_iff (ordered : lo ≤ hi) :
    idealVolume (idealVolume n lo hi res) lo hi res = idealVolume n lo hi res ↔
      n ≤ hi ∨ n < topFrom lo hi res ∨ topFrom lo hi res ≤ hi := by
  have top (m : Int) : idealVolume m lo hi res = hi ↔ lo = hi ∨ topFrom lo hi res ≤ m :=
    idealVolume_eq_hi_iff ordered
  by_cases clamped : idealVolume n lo hi res = hi
  · rw [clamped, top]
    constructor
    · rintro (same | reached)
      · subst same
        exact .inr (.inr (topFrom_self lo res))
      · exact .inr (.inr reached)
    · have reached := (top n).mp clamped
      omega
  · have bounds := idealVolume_bounds ordered n res
    have grid := (idealVolume_grid n lo hi res).resolve_left clamped
    have below : n < topFrom lo hi res := by
      by_contra reached
      exact clamped ((top n).mpr (.inr (not_lt.mp reached)))
    exact iff_of_true (idealVolume_of_grid bounds.1 bounds.2 grid) (.inr (.inl below))

end Grid

/-- The returned volume is in the range and on the grid of the steps, or the top of the range; it
is near a volume of the range, and no quieter one is snapped to a louder one. -/
structure Snaps (v lo hi res : Int) : Prop where
  inRange : lo ≤ snapToRes v lo hi res ∧ snapToRes v lo hi res ≤ hi
  onGrid : snapToRes v lo hi res = hi ∨ stepOf res ∣ snapToRes v lo hi res - lo
  near : lo ≤ v → v ≤ hi → 2 * |v - snapToRes v lo hi res| ≤ stepOf res
  quieter : ∀ n ≤ v, snapToRes n lo hi res ≤ snapToRes v lo hi res

/-- Snapping twice is snapping once, except for a volume above the range that is clamped to a top
which itself is snapped to the step below. -/
theorem snapToRes_snaps {lo hi : Int} (ordered : lo ≤ hi) (v res : Int) :
    Snaps v lo hi res ∧
      (snapToRes (snapToRes v lo hi res) lo hi res = snapToRes v lo hi res ↔
        v ≤ hi ∨ v < topFrom lo hi res ∨ topFrom lo hi res ≤ hi) := by
  have ideal (n : Int) : snapToRes n lo hi res = idealVolume n lo hi res :=
    snapToRes_eq_ideal ordered n
  constructor
  · constructor
    · rw [ideal]
      exact idealVolume_bounds ordered v res
    · rw [ideal]
      exact idealVolume_grid v lo hi res
    · intro above below
      rw [ideal]
      exact idealVolume_near above below res
    · intro n less
      rw [ideal, ideal]
      exact idealVolume_mono less
  · simp only [ideal]
    exact idealVolume_again_iff ordered

theorem snapToRes_snaps_offGrid :
    Snaps 13 0 10 8 ∧
      (snapToRes (snapToRes 13 0 10 8) 0 10 8 = snapToRes 13 0 10 8 ↔
        (13 : Int) ≤ 10 ∨ 13 < topFrom 0 10 8 ∨ topFrom 0 10 8 ≤ 10) :=
  snapToRes_snaps (by decide) 13 8

/-- 12 is snapped to 16 and clamped to 10, and 10 is snapped to 8. -/
theorem snapToRes_not_idempotent :
    ¬∀ v lo hi res : Int, FitsInt v → -32768 ≤ lo → lo ≤ hi → hi ≤ 32767 →
      -32768 ≤ res ∧ res ≤ 32767 →
        snapToRes (snapToRes v lo hi res) lo hi res = snapToRes v lo hi res := by
  intro claimed
  have again := claimed 12 0 10 8 ⟨by decide, by decide⟩ (by decide) (by decide) (by decide)
    (by decide)
  exact absurd again (by decide)

end Ldd3.Uac
