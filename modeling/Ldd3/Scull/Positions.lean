import Mathlib.Tactic
import Ldd3.Scull.FlatFile

/-!
How far the position arithmetic of scull is exact. `item` is an `int`, so the
number of a set wraps from 2^31 on, and positions 2^32 sets apart have the same
three numbers.
-/

namespace Ldd3.Scull

def Position.Exact (geometry : Geometry) (fPos : Int) (pos : Position) : Prop :=
  pos.item * (geometry.quantum * geometry.qset) + pos.sPos * geometry.quantum + pos.qPos = fPos ∧
    0 ≤ pos.item ∧ (0 ≤ pos.sPos ∧ pos.sPos < geometry.qset) ∧
    0 ≤ pos.qPos ∧ pos.qPos < geometry.quantum

/-- `quantum * qset`, when it does not overflow. -/
def Geometry.itemsize (geometry : Geometry) : Nat := geometry.quantum.toNat * geometry.qset.toNat

theorem int32_nonneg_iff (value : Nat) (bound : value < 9223372036854775808) :
    CInt.int32 value = value ↔ value < 2147483648 := by
  simp only [CInt.int32]
  omega

theorem digits_sum (quantum qset position : Nat) :
    position / (quantum * qset) * (quantum * qset) +
      position % (quantum * qset) / quantum * quantum + position % quantum = position := by
  have outer := Nat.div_add_mod' position (quantum * qset)
  have inner := Nat.div_add_mod' (position % (quantum * qset)) quantum
  rw [Nat.mod_mul_right_mod] at inner
  omega

theorem digits_below_eq_iff {quantum qset : Nat} (position other : Nat) :
    (position % (quantum * qset) / quantum = other % (quantum * qset) / quantum ∧
        position % quantum = other % quantum) ↔
      position % (quantum * qset) = other % (quantum * qset) := by
  constructor
  · rintro ⟨sameEntry, sameOffset⟩
    have first := Nat.div_add_mod' (position % (quantum * qset)) quantum
    have second := Nat.div_add_mod' (other % (quantum * qset)) quantum
    rw [Nat.mod_mul_right_mod] at first second
    rw [← first, ← second, sameEntry, sameOffset]
  · intro same
    have offsets := congrArg (· % quantum) same
    simp only [Nat.mod_mul_right_mod] at offsets
    exact ⟨by rw [same], offsets⟩

theorem mod_mul_eq_iff {size count : Nat} (position other : Nat) :
    position % (size * count) = other % (size * count) ↔
      position / size % count = other / size % count ∧ position % size = other % size := by
  constructor
  · intro same
    have quotient := congrArg (· / size) same
    have rest := congrArg (· % size) same
    simp only [Nat.mod_mul_right_div_self, Nat.mod_mul_right_mod] at quotient rest
    exact ⟨quotient, rest⟩
  · rintro ⟨quotient, rest⟩
    rw [Nat.mod_mul, Nat.mod_mul, quotient, rest]

theorem int32_eq_iff (value other : Nat) :
    CInt.int32 value = CInt.int32 other ↔ value % 4294967296 = other % 4294967296 := by
  simp only [CInt.int32]
  omega

section Digits

variable {quantum qset : Nat} (quantumPositive : 0 < quantum) (qsetPositive : 0 < qset)
  (fits : quantum * qset < 2147483648)

include quantumPositive qsetPositive fits

theorem exact_iff {position : Nat} (offset : position < 9223372036854775808) :
    (∃ pos, calculatePositions quantum qset position = .ok pos ∧
        pos.Exact ⟨quantum, qset⟩ position) ↔
      position / (quantum * qset) < 2147483648 := by
  have sizePositive : 0 < quantum * qset := Nat.mul_pos quantumPositive qsetPositive
  have setBound : position / (quantum * qset) < 9223372036854775808 :=
    (Nat.div_le_self _ _).trans_lt offset
  have sum := digits_sum quantum qset position
  have entryBound : position % (quantum * qset) / quantum < qset :=
    Nat.div_lt_of_lt_mul (Nat.mod_lt position sizePositive)
  have offsetBound := Nat.mod_lt position quantumPositive
  rw [calculatePositions_wrapped quantumPositive qsetPositive fits position,
    ← int32_nonneg_iff _ setBound]
  simp only [Except.ok.injEq, exists_eq_left', Position.Exact]
  constructor
  · rintro ⟨total, _⟩
    have sumInt : ((position / (quantum * qset) : Nat) : Int) * (quantum * qset) +
        (position % (quantum * qset) / quantum : Nat) * quantum + (position % quantum : Nat) =
          position := by
      exact_mod_cast sum
    have sameProduct := total.trans sumInt.symm
    simp only [add_left_inj] at sameProduct
    have sizeNonzero : ((quantum : Int) * qset) ≠ 0 := by
      exact_mod_cast sizePositive.ne'
    exact mul_right_cancel₀ sizeNonzero sameProduct
  · intro unwrapped
    rw [unwrapped]
    exact ⟨by exact_mod_cast sum, Int.natCast_nonneg _,
      ⟨Int.natCast_nonneg _, by exact_mod_cast entryBound⟩,
      Int.natCast_nonneg _, by exact_mod_cast offsetBound⟩

theorem sameDigits_iff (position other : Nat) :
    calculatePositions quantum qset position = calculatePositions quantum qset other ↔
      position % (quantum * qset * 4294967296) = other % (quantum * qset * 4294967296) := by
  rw [calculatePositions_wrapped quantumPositive qsetPositive fits position,
    calculatePositions_wrapped quantumPositive qsetPositive fits other, mod_mul_eq_iff,
    ← int32_eq_iff, ← digits_below_eq_iff]
  simp only [Except.ok.injEq, Position.mk.injEq, Nat.cast_inj]

end Digits

/-- The position is split exactly when the number of its set is an `int`. Two positions get
the same three numbers when they are a multiple of 2^32 sets apart, which two positions
whose set numbers are `int`s never are. -/
theorem positions_exact_iff {geometry : Geometry} (fits : geometry.Fits) :
    (∀ position : Nat, position < 9223372036854775808 →
      ((∃ pos, calculatePositions geometry.quantum geometry.qset position = .ok pos ∧
          pos.Exact geometry position) ↔
        position / geometry.itemsize < 2147483648)) ∧
    (∀ position other : Nat, position < 9223372036854775808 → other < 9223372036854775808 →
      (calculatePositions geometry.quantum geometry.qset position =
          calculatePositions geometry.quantum geometry.qset other ↔
        position % (geometry.itemsize * 4294967296) =
          other % (geometry.itemsize * 4294967296))) ∧
    ∀ position other : Nat, position / geometry.itemsize < 2147483648 →
      other / geometry.itemsize < 2147483648 →
      calculatePositions geometry.quantum geometry.qset position =
        calculatePositions geometry.quantum geometry.qset other → position = other := by
  obtain ⟨quantum, qset⟩ := geometry
  obtain ⟨quantumPositive, qsetPositive, product⟩ := fits
  obtain ⟨quantum, rfl⟩ := Int.eq_ofNat_of_zero_le quantumPositive.le
  obtain ⟨qset, rfl⟩ := Int.eq_ofNat_of_zero_le qsetPositive.le
  simp only at quantumPositive qsetPositive product
  have quantumNat : 0 < quantum := by exact_mod_cast quantumPositive
  have qsetNat : 0 < qset := by exact_mod_cast qsetPositive
  have productNat : quantum * qset < 2147483648 := by exact_mod_cast product
  have size : Geometry.itemsize ⟨quantum, qset⟩ = quantum * qset := rfl
  have sizePositive : 0 < quantum * qset := Nat.mul_pos quantumNat qsetNat
  rw [size]
  refine ⟨?_, ?_, ?_⟩
  · intro position offset
    exact exact_iff quantumNat qsetNat productNat offset
  · intro position other _ _
    exact sameDigits_iff quantumNat qsetNat productNat position other
  · intro position other positionFits otherFits same
    have residues := (sameDigits_iff quantumNat qsetNat productNat position other).mp same
    have below (value : Nat) (valueFits : value / (quantum * qset) < 2147483648) :
        value < quantum * qset * 4294967296 := by
      have := (Nat.div_lt_iff_lt_mul sizePositive).mp valueFits
      omega
    rwa [Nat.mod_eq_of_lt (below position positionFits),
      Nat.mod_eq_of_lt (below other otherFits)] at residues

theorem positions_exact_smallest :
    ((∃ pos, calculatePositions 1 1 2147483647 = .ok pos ∧ pos.Exact ⟨1, 1⟩ 2147483647) ↔
      2147483647 / 1 < 2147483648) ∧
      (calculatePositions 1 1 0 = calculatePositions 1 1 5 → 0 = 5) := by
  have result := @positions_exact_iff ⟨1, 1⟩ (by decide)
  exact ⟨result.1 2147483647 (by decide), result.2.2 0 5 (by decide) (by decide)⟩

theorem positions_inexact :
    ¬∀ geometry : Geometry, geometry.Fits →
      (∀ position : Nat, position < 9223372036854775808 →
        ∃ pos, calculatePositions geometry.quantum geometry.qset position = .ok pos ∧
          pos.Exact geometry position) ∧
      ∀ position other : Nat, position < 9223372036854775808 → other < 9223372036854775808 →
        calculatePositions geometry.quantum geometry.qset position =
          calculatePositions geometry.quantum geometry.qset other → position = other := by
  intro claimed
  obtain ⟨exact, _⟩ := claimed ⟨1, 1⟩ (by decide)
  obtain ⟨pos, computed, total, nonneg, _⟩ := exact 2147483648 (by decide)
  have wrapped : calculatePositions 1 1 (2147483648 : Nat) = .ok ⟨-2147483648, 0, 0⟩ := by decide
  rw [wrapped, Except.ok.injEq] at computed
  rw [← computed] at nonneg
  exact absurd nonneg (by decide)

end Ldd3.Scull
