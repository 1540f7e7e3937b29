import Mathlib.Tactic

/-!
C integer types of a 64-bit Linux kernel, over mathematical integers. Signed
arithmetic wraps, as the kernel is built with `-fno-strict-overflow`; division
truncates towards zero, which is Lean's `Int.tdiv` and `Int.tmod`.
-/

namespace CInt

def int32 (value : Int) : Int := (value + 2147483648) % 4294967296 - 2147483648

def int64 (value : Int) : Int :=
  (value + 9223372036854775808) % 18446744073709551616 - 9223372036854775808

def uint32 (value : Int) : Nat := (value % 4294967296).toNat

def uint64 (value : Int) : Nat := (value % 18446744073709551616).toNat

def FitsInt (value : Int) : Prop := -2147483648 ≤ value ∧ value < 2147483648

instance (value : Int) : Decidable (FitsInt value) := by
  unfold FitsInt
  infer_instance

theorem int32_fits (value : Int) : FitsInt (int32 value) := by
  simp only [FitsInt, int32]
  omega

theorem int32_of_fits {value : Int} (fits : FitsInt value) : int32 value = value := by
  simp only [FitsInt] at fits
  simp only [int32]
  omega

theorem int32_natCast {value : Nat} (bound : value < 2147483648) : int32 value = value :=
  int32_of_fits ⟨by omega, by omega⟩

theorem uint64_of_range {value : Int} (lower : 0 ≤ value)
    (upper : value < 18446744073709551616) : uint64 value = value.toNat := by
  simp only [uint64]
  omega

theorem int64_natCast {value : Nat} (bound : value < 9223372036854775808) :
    int64 value = value := by
  simp only [int64]
  omega

theorem uint64_natCast {value : Nat} (bound : value < 18446744073709551616) :
    uint64 value = value := by
  simp only [uint64]
  omega

theorem uint32_of_range {value : Int} (lower : 0 ≤ value) (upper : value < 4294967296) :
    uint32 value = value.toNat := by
  simp only [uint32]
  omega

theorem natAbs_int32_le {value : Int} (positive : 0 ≤ value) :
    (int32 value).natAbs ≤ value.toNat := by
  simp only [int32]
  omega

end CInt
