import Mathlib.Tactic

/-! Reading and overwriting a range of a block of memory, given as a list of cells. -/

namespace Block

variable {α : Type}

def slice (block : List α) (start count : Nat) : List α := (block.drop start).take count

def overwrite (block : List α) (start : Nat) (cells : List α) : List α :=
  block.take start ++ cells ++ block.drop (start + cells.length)

theorem length_slice {block : List α} {start count : Nat} (fits : start + count ≤ block.length) :
    (slice block start count).length = count := by
  simp only [slice, List.length_take, List.length_drop]
  omega

theorem getElem?_slice (block : List α) (start count index : Nat) :
    (slice block start count)[index]? = if index < count then block[start + index]? else none := by
  simp only [slice, List.getElem?_take, List.getElem?_drop]

theorem head?_slice (block : List α) {start count : Nat} (some : 0 < count) :
    (slice block start count).head? = block[start]? := by
  rw [List.head?_eq_getElem?, getElem?_slice, if_pos some, Nat.add_zero]

theorem length_overwrite {block cells : List α} {start : Nat}
    (fits : start + cells.length ≤ block.length) :
    (overwrite block start cells).length = block.length := by
  simp only [overwrite, List.length_append, List.length_take, List.length_drop]
  omega

theorem getElem?_overwrite {block cells : List α} {start : Nat}
    (fits : start + cells.length ≤ block.length) (index : Nat) :
    (overwrite block start cells)[index]? =
      if start ≤ index ∧ index < start + cells.length then cells[index - start]?
      else block[index]? := by
  have takeLength : (block.take start).length = start := by
    simp only [List.length_take]
    omega
  simp only [overwrite, List.append_assoc]
  by_cases before : index < start
  · rw [List.getElem?_append_left (by omega), List.getElem?_take_of_lt before, if_neg (by omega)]
  · rw [List.getElem?_append_right (by omega), takeLength]
    by_cases inside : index < start + cells.length
    · rw [List.getElem?_append_left (by omega), if_pos ⟨by omega, inside⟩]
    · rw [List.getElem?_append_right (by omega), List.getElem?_drop, if_neg (by omega)]
      congr 1
      omega

theorem overwrite_all {block cells : List α} (covers : block.length ≤ cells.length) :
    overwrite block 0 cells = cells := by
  simp only [overwrite, List.take_zero, List.nil_append, Nat.zero_add]
  rw [List.drop_eq_nil_of_le covers, List.append_nil]

theorem slice_append (buffer : List α) (start first second : Nat) :
    slice buffer start (first + second) =
      slice buffer start first ++ slice buffer (start + first) second := by
  simp only [slice, List.take_add, List.drop_drop]

theorem slice_to_end (buffer : List α) {start count : Nat} (reaches : buffer.length ≤ start + count) :
    slice buffer start count = buffer.drop start := by
  simp only [slice]
  apply List.take_of_length_le
  simp only [List.length_drop]
  omega

theorem slice_overwrite_before {buffer cells : List α} {start count position : Nat}
    (before : start + count ≤ position) (fits : position + cells.length ≤ buffer.length) :
    slice (overwrite buffer position cells) start count =
      slice buffer start count := by
  apply List.ext_getElem?
  intro index
  rw [getElem?_slice, getElem?_slice]
  split
  · rw [getElem?_overwrite fits, if_neg (by omega)]
  · rfl

theorem drop_overwrite_after {buffer cells : List α} {position start : Nat}
    (after : position + cells.length ≤ start) (fits : position + cells.length ≤ buffer.length) :
    (overwrite buffer position cells).drop start = buffer.drop start := by
  apply List.ext_getElem?
  intro index
  rw [List.getElem?_drop, List.getElem?_drop, getElem?_overwrite fits, if_neg (by omega)]

theorem slice_overwrite_same {buffer cells : List α} {position : Nat}
    (fits : position + cells.length ≤ buffer.length) :
    slice (overwrite buffer position cells) position cells.length = cells := by
  apply List.ext_getElem?
  intro index
  rw [getElem?_slice, getElem?_overwrite fits]
  split
  · rw [if_pos (by omega), Nat.add_sub_cancel_left]
  · symm
    apply List.getElem?_eq_none
    omega

theorem overwrite_append {block first second : List α} {start : Nat}
    (fits : start + first.length + second.length ≤ block.length) :
    overwrite block start (first ++ second) =
      overwrite (overwrite block start first) (start + first.length) second := by
  have firstFits : start + first.length ≤ block.length := by omega
  have length := length_overwrite firstFits
  apply List.ext_getElem?
  intro index
  rw [getElem?_overwrite (by rw [List.length_append]; omega), List.length_append,
    getElem?_overwrite (by rw [length]; omega), getElem?_overwrite firstFits]
  by_cases inFirst : start ≤ index ∧ index < start + first.length
  · rw [if_pos ⟨inFirst.1, by omega⟩, if_neg (by omega), if_pos inFirst,
      List.getElem?_append_left (by omega)]
  · by_cases inSecond : start + first.length ≤ index ∧
        index < start + first.length + second.length
    · rw [if_pos ⟨by omega, by omega⟩, if_pos inSecond, List.getElem?_append_right (by omega)]
      congr 1
      omega
    · rw [if_neg (by omega), if_neg inSecond, if_neg inFirst]

theorem take_eq_slice (buffer : List α) (count : Nat) :
    buffer.take count = slice buffer 0 count := rfl

theorem set_eq_overwrite {block : List α} {position : Nat} (inside : position < block.length)
    (cell : α) : block.set position cell = overwrite block position [cell] := by
  rw [List.set_eq_take_append_cons_drop, if_pos inside, overwrite, List.append_assoc]
  rfl

end Block
