import Mathlib.Data.List.TakeWhile
import Mathlib.Tactic
import Ldd3.Uac.Tool

/-!
A raw volume on the command line of `uacctl`, against the same rounding over unbounded integers.
-/

namespace Ldd3.Uac

open CInt (int32 FitsInt)

/-! The rule. -/

/-- A step of zero or less counts as 1. -/
def stepOf (res : Int) : Int := if res ≤ 0 then 1 else res

/-- The multiple of `step` nearest to `offset`, the greater of two equally near. -/
def nearestMultiple (step offset : Int) : Int := (2 * offset + step) / (2 * step) * step

def idealVolume (n lo hi res : Int) : Int :=
  max lo (min hi (lo + nearestMultiple (stepOf res) (n - lo)))

theorem stepOf_pos (res : Int) : 0 < stepOf res := by
  simp only [stepOf]
  split <;> omega

section Rule

variable {step n lo hi res : Int}

theorem nearestMultiple_near (positive : 0 < step) (offset : Int) :
    step ∣ nearestMultiple step offset ∧ 2 * (offset - nearestMultiple step offset) < step ∧
      2 * (nearestMultiple step offset - offset) ≤ step := by
  have split := Int.ediv_mul_add_emod (2 * offset + step) (2 * step)
  have lower := Int.emod_nonneg (2 * offset + step) (by omega : 2 * step ≠ 0)
  have upper := Int.emod_lt_of_pos (2 * offset + step) (by omega : 0 < 2 * step)
  have double : (2 * offset + step) / (2 * step) * (2 * step) =
      2 * ((2 * offset + step) / (2 * step) * step) := by ring
  rw [double] at split
  simp only [nearestMultiple]
  exact ⟨Int.dvd_mul_left _ _, by omega, by omega⟩

theorem nearestStep_mul (step lo n : Int) :
    nearestStep lo step n * step = nearestMultiple step (n - lo) := by
  have halved : (2 * (n - lo) + step) / 2 = n - lo + step / 2 := by omega
  rw [nearestMultiple, ← Int.ediv_ediv_of_nonneg (by decide), halved, nearestStep]

theorem nearestMultiple_mono (positive : 0 < step) {offset other : Int} (less : offset ≤ other) :
    nearestMultiple step offset ≤ nearestMultiple step other :=
  Int.mul_le_mul_of_nonneg_right (Int.ediv_le_ediv (by omega) (by omega)) positive.le

theorem idealVolume_mono {m : Int} (less : m ≤ n) :
    idealVolume m lo hi res ≤ idealVolume n lo hi res := by
  have steps := nearestMultiple_mono (stepOf_pos res) (Int.sub_le_sub_right less lo)
  simp only [idealVolume]
  omega

theorem idealVolume_of_above (ordered : lo ≤ hi) (above : hi + stepOf res ≤ n) :
    idealVolume n lo hi res = hi := by
  have near := (nearestMultiple_near (stepOf_pos res) (n - lo)).2.1
  have positive := stepOf_pos res
  simp only [idealVolume]
  omega

theorem nearestMultiple_nonpos (positive : 0 < step) {offset : Int}
    (below : offset + step / 2 < step) : nearestMultiple step offset ≤ 0 := by
  have none : (2 * offset + step) / (2 * step) < 1 := by
    rw [Int.ediv_lt_iff_lt_mul (by omega)]
    omega
  exact Int.mul_nonpos_of_nonpos_of_nonneg (by omega) positive.le

theorem idealVolume_of_below (below : n < lo + stepOf res - stepOf res / 2) :
    idealVolume n lo hi res = lo := by
  have nonpos := @nearestMultiple_nonpos _ (stepOf_pos res) (n - lo) (by omega)
  simp only [idealVolume]
  omega

def topFrom (lo hi res : Int) : Int :=
  lo + (hi - lo + stepOf res - 1) / stepOf res * stepOf res - stepOf res / 2

theorem idealVolume_eq_hi_iff (ordered : lo ≤ hi) :
    idealVolume n lo hi res = hi ↔ lo = hi ∨ topFrom lo hi res ≤ n := by
  have positive := stepOf_pos res
  have reaches : hi - lo ≤ nearestMultiple (stepOf res) (n - lo) ↔ topFrom lo hi res ≤ n := by
    rw [← nearestStep_mul]
    calc
      hi - lo ≤ nearestStep lo (stepOf res) n * stepOf res ↔
          (hi - lo + stepOf res - 1) / stepOf res < nearestStep lo (stepOf res) n + 1 := by
        rw [Int.ediv_lt_iff_lt_mul positive, add_mul, one_mul]
        omega
      _ ↔ topFrom lo hi res ≤ n := by
        rw [Int.lt_add_one_iff, nearestStep, Int.le_ediv_iff_mul_le positive, topFrom]
        omega
  rw [← reaches]
  simp only [idealVolume]
  omega

theorem idealVolume_eq_lo_iff (ordered : lo ≤ hi) :
    idealVolume n lo hi res = lo ↔ lo = hi ∨ n < lo + stepOf res - stepOf res / 2 := by
  constructor
  · intro least
    by_contra above
    rw [not_or, not_lt] at above
    have positive := stepOf_pos res
    have reaches : stepOf res ≤ nearestMultiple (stepOf res) (n - lo) := by
      have one : 1 ≤ (2 * (n - lo) + stepOf res) / (2 * stepOf res) := by
        rw [Int.le_ediv_iff_mul_le (by omega)]
        omega
      have scaled := Int.mul_le_mul_of_nonneg_right one positive.le
      rwa [one_mul] at scaled
    simp only [idealVolume] at least
    omega
  · rintro (same | below)
    · simp only [idealVolume, same]
      omega
    · exact idealVolume_of_below below

/-- `snap_to_res` follows the rule on every volume; below the range its division truncates the
other way, and the volume is clamped. -/
theorem snapToRes_eq_ideal (ordered : lo ≤ hi) (v : Int) :
    snapToRes v lo hi res = idealVolume v lo hi res := by
  have positive := stepOf_pos res
  have normal : snapToRes v lo hi res = snapToRes v lo hi (stepOf res) := by
    have own : stepOf (stepOf res) = stepOf res := if_neg (by omega)
    simp only [snapToRes, ← stepOf.eq_def, own]
  rw [normal]
  by_cases above : lo ≤ v
  · have nonneg := Int.mul_nonneg (nearestStep_nonneg positive above) positive.le
    rw [snapToRes_eq positive above, idealVolume, ← nearestStep_mul]
    split <;> omega
  · rw [idealVolume_of_below (by omega)]
    have half : (stepOf res).tdiv 2 = stepOf res / 2 := Int.tdiv_eq_ediv_of_nonneg positive.le
    have steps : (v - lo + stepOf res / 2).tdiv (stepOf res) ≤ 0 := by
      by_cases nonneg : 0 ≤ v - lo + stepOf res / 2
      · rw [Int.tdiv_eq_ediv_of_nonneg nonneg, Int.ediv_eq_zero_of_lt nonneg (by omega)]
      · rw [← neg_neg (v - lo + stepOf res / 2), Int.neg_tdiv]
        have := Int.tdiv_nonneg (by omega : 0 ≤ -(v - lo + stepOf res / 2)) positive.le
        omega
    have low := Int.mul_nonpos_of_nonpos_of_nonneg steps positive.le
    simp only [snapToRes, positive.not_ge, ↓reduceIte, half]
    split
    · exact if_neg (by omega)
    · rw [if_neg (by omega)]
      omega

theorem snapped_eq_ideal (ordered : lo ≤ hi) (q : Int) :
    snapped q lo hi res = idealVolume q lo hi res := by
  have inside : lo ≤ idealVolume q lo hi res ∧ idealVolume q lo hi res ≤ hi := by
    simp only [idealVolume]
    omega
  rw [snapped, snapToRes_eq_ideal ordered, clampi, if_neg (by omega), if_neg (by omega)]

end Rule

/-! The argument. -/

/-- `strtol` reads the whole argument, and its number is in a `long`. -/
def Accepted (s : List Char) : Prop :=
  (strtol s).consumed ≠ 0 ∧ (strtol s).consumed = s.length ∧ (strtol s).erange = false

instance (s : List Char) : Decidable (Accepted s) := inferInstanceAs (Decidable (_ ∧ _))

theorem strtolBase_le (s : List Char) : (strtolBase s).1 ≤ 16 := by
  unfold strtolBase
  split
  · split <;> decide
  · decide
  · decide

theorem strtolDigits_base_le (s : List Char) : (strtolDigits s).2 ≤ 16 := strtolBase_le _

theorem strtol_consumed (s : List Char) :
    (strtol s).consumed = 0 ∨
      leadingDigits (strtolDigits s).2 (s.drop (strtolDigits s).1) ≠ [] ∧
        (strtol s).consumed = (strtolDigits s).1 +
          (leadingDigits (strtolDigits s).2 (s.drop (strtolDigits s).1)).length := by
  simp only [strtol]
  split
  · exact .inl rfl
  · rename_i some
    refine .inr ⟨some, ?_⟩
    simp only [apply_ite Strtol.consumed, ite_self]

theorem Accepted.digits {s : List Char} (accepted : Accepted s) :
    s.drop (strtolDigits s).1 ≠ [] ∧ ∀ c ∈ s.drop (strtolDigits s).1, digitValue c < 16 := by
  obtain ⟨some, whole, _⟩ := accepted
  obtain ⟨digits, consumed⟩ := (strtol_consumed s).resolve_left some
  have base := strtolDigits_base_le s
  generalize strtolDigits s = found at digits consumed base ⊢
  have positive := List.length_pos_iff.mpr digits
  have shorter : (leadingDigits found.2 (s.drop found.1)).length ≤ (s.drop found.1).length :=
    (List.takeWhile_prefix _).length_le.trans (List.length_map _).le
  rw [List.length_drop] at shorter
  have all : leadingDigits found.2 (s.drop found.1) = (s.drop found.1).map digitValue := by
    apply (List.takeWhile_prefix _).eq_of_length
    rw [List.length_map, List.length_drop]
    exact (by omega : (leadingDigits found.2 (s.drop found.1)).length = s.length - found.1)
  refine ⟨List.length_pos_iff.mp (by rw [List.length_drop]; omega), ?_⟩
  intro c listed
  have below := List.takeWhile_eq_self_iff.mp all _ (List.mem_map_of_mem listed)
  rw [decide_eq_true_eq] at below
  omega

theorem Accepted.length_pos {s : List Char} (accepted : Accepted s) : 0 < s.length := by
  obtain ⟨some, whole, _⟩ := accepted
  omega

theorem Accepted.not_endsInPercent {s : List Char} (accepted : Accepted s) :
    endsInPercent s = false := by
  obtain ⟨some, digits⟩ := accepted.digits
  rw [endsInPercent, beq_eq_false_iff_ne]
  intro last
  have sameLast : (s.drop (strtolDigits s).1).getLast? = Option.some '%' := by
    rw [List.getLast?_drop, if_neg, last]
    rwa [← List.drop_eq_nil_iff]
  exact absurd (digits '%' (List.mem_of_getLast? sameLast)) (by decide)

/-- What the narrowing to an `int` does no harm to: a number that fits, a range of one volume,
and a number beyond an `int` whose low 32 bits round to the same end of the range. -/
def NarrowsHarmlessly (n lo hi res : Int) : Prop :=
  FitsInt n ∨ lo = hi ∨ (2147483648 ≤ n ∧ topFrom lo hi res ≤ int32 n) ∨
    (n < -2147483648 ∧ int32 n < lo + stepOf res - stepOf res / 2)

/-- The result follows the rule for the number that the argument writes. -/
structure FollowsRule (strtod : Strtod) (s : List Char) (hint : Volfmt) (lo hi res : Int) :
    Prop where
  value : parseVolumeArg strtod s hint lo hi res = .ok (idealVolume (strtol s).value lo hi res)
  top : hi + stepOf res ≤ (strtol s).value → parseVolumeArg strtod s hint lo hi res = .ok hi
  bottom : (strtol s).value ≤ lo → parseVolumeArg strtod s hint lo hi res = .ok lo
  quieter : ∀ n ≤ (strtol s).value,
    idealVolume n lo hi res ≤ idealVolume (strtol s).value lo hi res

section Parse

variable {strtod : Strtod} {s : List Char} {hint : Volfmt} {lo hi res : Int}

theorem parseVolumeArg_raw (accepted : Accepted s) (noSuffix : endsInDb s = false)
    (raw : hint ≠ .FMT_DB ∧ hint ≠ .FMT_PCT) (ordered : lo ≤ hi) :
    parseVolumeArg strtod s hint lo hi res =
      .ok (idealVolume (int32 (strtol s).value) lo hi res) := by
  obtain ⟨some, whole, inRange⟩ := accepted
  have reads : ¬((strtol s).consumed = 0 ∨ (strtol s).consumed < s.length ∨
      (strtol s).erange = true) := by
    rw [inRange]
    rintro (none | short | range)
    · exact some none
    · omega
    · contradiction
  have noPercent := Accepted.not_endsInPercent ⟨some, whole, inRange⟩
  cases hint with
  | FMT_DB => exact absurd rfl raw.1
  | FMT_PCT => exact absurd rfl raw.2
  | FMT_DEFAULT =>
      simp only [parseVolumeArg, noSuffix, noPercent, Bool.false_eq_true, ↓reduceIte, reads,
        snapped_eq_ideal ordered]
  | FMT_RAW =>
      simp only [parseVolumeArg, noSuffix, noPercent, Bool.false_eq_true, ↓reduceIte, reads,
        snapped_eq_ideal ordered]

theorem parseVolumeArg_db (accepted : Accepted s) (whole : (strtod s).2 = s.length)
    (suffix : endsInDb s = true) : parseVolumeArg strtod s hint lo hi res = .error (-EINVAL) := by
  have positive := accepted.length_pos
  simp only [parseVolumeArg, suffix, ↓reduceIte]
  rw [if_pos (by omega)]

theorem followsRule_of_value (ordered : lo ≤ hi)
    (value : parseVolumeArg strtod s hint lo hi res =
      .ok (idealVolume (strtol s).value lo hi res)) :
    FollowsRule strtod s hint lo hi res where
  value := value
  top := fun above => by rw [value, idealVolume_of_above ordered above]
  bottom := fun below => by
    have positive := stepOf_pos res
    rw [value, idealVolume_of_below (by omega)]
  quieter := fun _ less => idealVolume_mono less

theorem idealVolume_int32_iff {n : Int} (ordered : lo ≤ hi) (lower : -32768 ≤ lo)
    (upper : hi ≤ 32767) (step : res ≤ 32767) :
    idealVolume (int32 n) lo hi res = idealVolume n lo hi res ↔ NarrowsHarmlessly n lo hi res := by
  have positive := stepOf_pos res
  have stepUpper : stepOf res ≤ 32767 := by
    simp only [stepOf]
    split <;> omega
  by_cases fits : FitsInt n
  · simp only [NarrowsHarmlessly, fits, CInt.int32_of_fits fits, true_or]
  by_cases large : 2147483648 ≤ n
  · have small : ¬n < -2147483648 := by omega
    rw [idealVolume_of_above ordered (by omega : hi + stepOf res ≤ n),
      idealVolume_eq_hi_iff ordered]
    simp only [NarrowsHarmlessly, fits, large, small, false_or, true_and, false_and, or_false]
  · have small : n < -2147483648 := by
      simp only [FitsInt, not_and] at fits
      omega
    rw [idealVolume_of_below (by omega : n < lo + stepOf res - stepOf res / 2),
      idealVolume_eq_lo_iff ordered]
    simp only [NarrowsHarmlessly, fits, large, small, false_or, true_and, false_and]

end Parse

/-- A raw argument follows the rule exactly when it does not read as a number of decibels, and
narrowing it to an `int` does no harm. The real `strtod` reads whatever `strtol` reads. -/
theorem parse_followsRule_iff {strtod : Strtod} {s : List Char} {hint : Volfmt} {lo hi res : Int}
    (reads : ∀ s, Accepted s → (strtod s).2 = s.length) (accepted : Accepted s)
    (raw : hint ≠ .FMT_DB ∧ hint ≠ .FMT_PCT) (ordered : lo ≤ hi) (lower : -32768 ≤ lo)
    (upper : hi ≤ 32767) (step : -32768 ≤ res ∧ res ≤ 32767) :
    FollowsRule strtod s hint lo hi res ↔
      endsInDb s = false ∧ NarrowsHarmlessly (strtol s).value lo hi res := by
  rw [← idealVolume_int32_iff ordered lower upper step.2]
  constructor
  · intro follows
    have value := follows.value
    cases suffix : endsInDb s with
    | true =>
        rw [parseVolumeArg_db accepted (reads s accepted) suffix] at value
        contradiction
    | false =>
        rw [parseVolumeArg_raw accepted suffix raw ordered, Except.ok.injEq] at value
        exact ⟨rfl, value⟩
  · rintro ⟨suffix, harmless⟩
    apply followsRule_of_value ordered
    rw [parseVolumeArg_raw accepted suffix raw ordered, harmless]

def wholeStrtod : Strtod := fun s => (Float.ofInt (strtol s).value, s.length)

theorem parse_followsRule_iff_quarter :
    FollowsRule wholeStrtod ['-', '0', 'x', '4', '0'] .FMT_RAW (-256) 0 16 ↔
      endsInDb ['-', '0', 'x', '4', '0'] = false ∧
        NarrowsHarmlessly (strtol ['-', '0', 'x', '4', '0']).value (-256) 0 16 :=
  parse_followsRule_iff (fun _ _ => rfl) (by decide +kernel) (by decide) (by decide) (by decide)
    (by decide) (by decide)

/-- 4294967296 is read as 0, in the middle of the range. -/
theorem parse_wraps :
    ¬∀ (strtod : Strtod) (s : List Char) (hint : Volfmt) (lo hi res : Int),
      (∀ s, Accepted s → (strtod s).2 = s.length) → Accepted s →
        hint ≠ .FMT_DB ∧ hint ≠ .FMT_PCT → lo ≤ hi → -32768 ≤ lo → hi ≤ 32767 →
          -32768 ≤ res ∧ res ≤ 32767 → FollowsRule strtod s hint lo hi res := by
  intro claimed
  have accepted : Accepted ['4', '2', '9', '4', '9', '6', '7', '2', '9', '6'] := by decide +kernel
  have follows := claimed wholeStrtod ['4', '2', '9', '4', '9', '6', '7', '2', '9', '6'] .FMT_RAW
    (-256) 256 16 (fun _ _ => rfl) accepted (by decide) (by decide) (by decide) (by decide)
    (by decide)
  have value := follows.value
  rw [parseVolumeArg_raw accepted (by decide) (by decide) (by decide), Except.ok.injEq] at value
  exact absurd value (by decide +kernel)

end Ldd3.Uac
