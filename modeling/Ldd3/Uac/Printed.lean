import Mathlib.Data.List.TakeWhile
import Mathlib.Tactic
import Ldd3.Uac.Tool

/-!
The volumes that `uacctl --raw get-vol` prints are arguments of `set-vol`: `strtol` in base 0 reads
what `printf` wrote with `%d`.
-/

namespace Ldd3.Uac

def decimal (v : Int) : List Char :=
  if v < 0 then '-' :: Nat.toDigits 10 v.natAbs else Nat.toDigits 10 v.natAbs

def printRaw (q88 : Int) : List Char := decimal q88 ++ ['\n']

section Digits

variable {n : Nat} {digit : Char}

theorem digitValue_of_isDigit (isDigit : digit.isDigit = true) :
    digitValue digit = digit.toNat - '0'.toNat ∧ digitValue digit < 10 := by
  simp only [Char.isDigit, Bool.and_eq_true, decide_eq_true_eq, UInt32.le_iff_toNat_le] at isDigit
  change 48 ≤ digit.toNat ∧ digit.toNat ≤ 57 at isDigit
  have value : digitValue digit = digit.toNat - 48 := if_pos isDigit
  exact ⟨value, by omega⟩

theorem isSpace_of_isDigit (isDigit : digit.isDigit = true) : isSpace digit = false := by
  simp only [Char.isDigit, Bool.and_eq_true, decide_eq_true_eq, UInt32.le_iff_toNat_le] at isDigit
  change 48 ≤ digit.toNat ∧ digit.toNat ≤ 57 at isDigit
  simp only [isSpace, Bool.or_eq_false_iff, beq_eq_false_iff_ne, Bool.and_eq_false_iff,
    decide_eq_false_iff_not]
  omega

theorem isDigit_toDigits (listed : digit ∈ Nat.toDigits 10 n) : digit.isDigit = true :=
  Nat.isDigit_of_mem_toDigits (by decide) (by decide) listed

theorem toDigits_head (positive : 0 < n) : (Nat.toDigits 10 n).head? ≠ some '0' := by
  induction n using Nat.strongRecOn with
  | ind n ih =>
      by_cases small : n < 10
      · rw [Nat.toDigits_of_lt_base small]
        interval_cases n <;> decide
      · rw [Nat.toDigits_of_base_le (by decide) (by omega), List.head?_append]
        have shorter := ih (n / 10) (by omega) (by omega)
        cases first : (Nat.toDigits 10 (n / 10)).head? with
        | none =>
            rw [List.head?_eq_none_iff] at first
            exact absurd first Nat.toDigits_ne_nil
        | some digit =>
            rw [first] at shorter
            exact shorter

theorem leadingDigits_toDigits (n : Nat) :
    leadingDigits 10 (Nat.toDigits 10 n) = (Nat.toDigits 10 n).map digitValue := by
  rw [leadingDigits, List.takeWhile_eq_self_iff]
  intro value listed
  obtain ⟨digit, member, rfl⟩ := List.mem_map.mp listed
  exact decide_eq_true (digitValue_of_isDigit (isDigit_toDigits member)).2

theorem foldl_toDigits (n : Nat) :
    ((Nat.toDigits 10 n).map digitValue).foldl
      (fun (total : Int) (digit : Nat) => total * (10 : Nat) + digit) 0 = n := by
  have general : ∀ (digits : List Char) (start : Nat), (∀ digit ∈ digits, digit.isDigit = true) →
      (digits.map digitValue).foldl
        (fun (total : Int) (digit : Nat) => total * (10 : Nat) + digit) start =
          (Nat.ofDigitChars 10 digits start : Nat) := by
    intro digits
    induction digits with
    | nil => exact fun _ _ => rfl
    | cons digit rest ih =>
        intro start decimal
        have value := (digitValue_of_isDigit (decimal digit List.mem_cons_self)).1
        rw [List.map_cons, List.foldl_cons, Nat.ofDigitChars_cons,
          ← ih _ fun other listed => decimal other (List.mem_cons_of_mem _ listed)]
        congr 1
        rw [value]
        push_cast
        ring
  have read := general (Nat.toDigits 10 n) 0 fun _ listed => isDigit_toDigits listed
  rwa [Nat.ofDigitChars_ten_toDigits] at read

end Digits

/-! `strtol` -/

theorem strtolDigits_toDigits {n : Nat} (positive : 0 < n) :
    strtolDigits (Nat.toDigits 10 n) = (0, 10) ∧
      strtolDigits ('-' :: Nat.toDigits 10 n) = (1, 10) := by
  have head := toDigits_head positive
  cases digits : Nat.toDigits 10 n with
  | nil => exact absurd digits Nat.toDigits_ne_nil
  | cons first rest =>
      rw [digits] at head
      have isDigit : first.isDigit = true :=
        isDigit_toDigits (n := n) (by rw [digits]; exact List.mem_cons_self)
      have notSpace := isSpace_of_isDigit isDigit
      have notZero : first ≠ '0' := fun zero => head (congrArg some zero)
      have notSign : ¬(some first = some '-' ∨ some first = some '+') := by
        rintro (minus | plus)
        · rw [Option.some.inj minus] at isDigit
          contradiction
        · rw [Option.some.inj plus] at isDigit
          contradiction
      have base : strtolBase (first :: rest) = (10, 0) := by
        rw [strtolBase]
        · intro x digit more same
          exact notZero (List.cons.inj same).1
        · intro more same
          exact notZero (List.cons.inj same).1
      constructor
      · simp only [strtolDigits, List.takeWhile_cons, notSpace, Bool.false_eq_true, if_false,
          List.length_nil, List.getElem?_cons_zero, if_neg notSign, List.drop_zero, base, add_zero]
      · have minus : isSpace '-' = false := by decide
        simp only [strtolDigits, List.takeWhile_cons, minus, Bool.false_eq_true, if_false,
          List.length_nil, List.getElem?_cons_zero, true_or, if_true, zero_add, List.drop_succ_cons,
          List.drop_zero, base]

theorem strtol_decimal {v : Int} (lower : LONG_MIN ≤ v) (upper : v ≤ LONG_MAX) :
    strtol (decimal v) = ⟨v, (decimal v).length, false⟩ := by
  obtain rfl | nonzero := eq_or_ne v 0
  · decide
  have positive : 0 < v.natAbs := Int.natAbs_pos.mpr nonzero
  obtain ⟨plain, signed⟩ := strtolDigits_toDigits positive
  have some : (Nat.toDigits 10 v.natAbs).map digitValue ≠ [] := by
    rw [Ne, List.map_eq_nil_iff]
    exact Nat.toDigits_ne_nil
  by_cases negative : v < 0
  · have minus : isSpace '-' = false := by decide
    have value : -(v.natAbs : Int) = v := by omega
    rw [decimal, if_pos negative, strtol, signed]
    simp only [List.drop_succ_cons, List.drop_zero, leadingDigits_toDigits, foldl_toDigits, some,
      if_false, List.dropWhile_cons, minus, Bool.false_eq_true, List.head?_cons, if_true, value,
      if_neg (not_lt.mpr lower), if_neg (not_lt.mpr upper), List.length_map, List.length_cons,
      Nat.add_comm]
  · have value : (v.natAbs : Int) = v := by omega
    have unsigned : ((Nat.toDigits 10 v.natAbs).dropWhile isSpace).head? ≠ Option.some '-' := by
      intro minus
      have digit := isDigit_toDigits (List.dropWhile_subset isSpace (List.mem_of_head? minus))
      contradiction
    rw [decimal, if_neg negative, strtol, plain]
    simp only [List.drop_zero, leadingDigits_toDigits, foldl_toDigits, some, if_false,
      if_neg unsigned, value, if_neg (not_lt.mpr lower), if_neg (not_lt.mpr upper),
      List.length_map, zero_add]

end Ldd3.Uac
