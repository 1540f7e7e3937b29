import Mathlib.Tactic
import Ldd3.Lib.Block

/-!
A circular buffer with a read and a write position, where equal positions mean
empty. Both ends stop at the physical end of the buffer and wrap only when they
have reached it.
-/

namespace Ring

variable {α : Type}

/-- The stored cells, oldest first. -/
def contents (buffer : List α) (rp wp : Nat) : List α :=
  if rp ≤ wp then Block.slice buffer rp (wp - rp) else buffer.drop rp ++ buffer.take wp

def stored (size rp wp : Nat) : Nat := if rp ≤ wp then wp - rp else size - rp + wp

def wrap (size position : Nat) : Nat := if position = size then 0 else position

def readable (size rp wp : Nat) : Nat := if rp ≤ wp then wp - rp else size - rp

def writable (size rp wp : Nat) : Nat :=
  if rp ≤ wp then min (size - 1 - (wp - rp)) (size - wp) else rp - wp - 1

structure Inside (size rp wp : Nat) : Prop where
  reader : rp < size
  writer : wp < size

theorem contents_empty (buffer : List α) (position : Nat) : contents buffer position position = [] := by
  simp [contents, Block.slice]

theorem length_contents {buffer : List α} {rp wp : Nat} (inside : Inside buffer.length rp wp) :
    (contents buffer rp wp).length = stored buffer.length rp wp := by
  obtain ⟨reader, writer⟩ := inside
  simp only [contents, stored]
  split
  · exact Block.length_slice (by omega)
  · simp only [List.length_append, List.length_drop, List.length_take]
    omega

theorem stored_lt {size rp wp : Nat} (inside : Inside size rp wp) : stored size rp wp < size := by
  obtain ⟨reader, writer⟩ := inside
  simp only [stored]
  split <;> omega

theorem wrap_lt {size position : Nat} (bound : position ≤ size) (positive : 0 < size) :
    wrap size position < size := by
  simp only [wrap]
  split <;> omega

theorem contents_take {buffer : List α} {rp wp count : Nat} (inside : Inside buffer.length rp wp)
    (available : count ≤ readable buffer.length rp wp) :
    contents buffer rp wp =
      Block.slice buffer rp count ++ contents buffer (wrap buffer.length (rp + count)) wp := by
  obtain ⟨reader, writer⟩ := inside
  by_cases ahead : rp ≤ wp
  · simp only [readable, if_pos ahead] at available
    have notEnd : rp + count ≠ buffer.length := by omega
    have rest : wp - rp = count + (wp - (rp + count)) := by omega
    simp only [contents, wrap, if_pos ahead, if_neg notEnd, if_pos (show rp + count ≤ wp by omega)]
    rw [rest, Block.slice_append]
  · simp only [readable, if_neg ahead] at available
    by_cases atEnd : rp + count = buffer.length
    · simp only [contents, wrap, if_neg ahead, if_pos atEnd, if_pos (Nat.zero_le wp), Nat.sub_zero]
      rw [Block.slice_to_end buffer atEnd.ge]
      rfl
    · have split : buffer.drop rp = Block.slice buffer rp count ++ buffer.drop (rp + count) := by
        rw [← List.drop_drop, Block.slice, List.take_append_drop]
      simp only [contents, wrap, if_neg ahead, if_neg atEnd,
        if_neg (show ¬ rp + count ≤ wp by omega)]
      rw [split, List.append_assoc]

theorem contents_overwrite {buffer cells : List α} {rp wp : Nat}
    (inside : Inside buffer.length rp wp)
    (free : cells.length ≤ writable buffer.length rp wp) :
    contents (Block.overwrite buffer wp cells) rp wp = contents buffer rp wp := by
  obtain ⟨reader, writer⟩ := inside
  by_cases ahead : rp ≤ wp
  · simp only [writable, if_pos ahead] at free
    simp only [contents, if_pos ahead]
    exact Block.slice_overwrite_before (by omega) (by omega)
  · simp only [writable, if_neg ahead] at free
    simp only [contents, if_neg ahead, Block.take_eq_slice]
    rw [Block.drop_overwrite_after (by omega) (by omega), Block.slice_overwrite_before (by omega) (by omega)]

theorem contents_put {buffer cells : List α} {rp wp : Nat} (inside : Inside buffer.length rp wp)
    (free : cells.length ≤ writable buffer.length rp wp) :
    contents (Block.overwrite buffer wp cells) rp (wrap buffer.length (wp + cells.length)) =
      contents buffer rp wp ++ cells := by
  have unseen := contents_overwrite inside free
  obtain ⟨reader, writer⟩ := inside
  by_cases ahead : rp ≤ wp
  · simp only [writable, if_pos ahead] at free
    have fits : wp + cells.length ≤ buffer.length := by omega
    simp only [contents, if_pos ahead] at unseen ⊢
    by_cases atEnd : wp + cells.length = buffer.length
    · have behind : ¬ rp ≤ 0 := by omega
      simp only [wrap, if_pos atEnd, if_neg behind, List.take_zero, List.append_nil]
      have whole := Block.slice_append (Block.overwrite buffer wp cells) rp (wp - rp) cells.length
      rw [Block.slice_to_end _ (by rw [Block.length_overwrite fits]; omega), unseen,
        Nat.add_sub_cancel' ahead, Block.slice_overwrite_same fits] at whole
      exact whole
    · simp only [wrap, if_neg atEnd, if_pos (show rp ≤ wp + cells.length by omega)]
      have count : wp + cells.length - rp = wp - rp + cells.length := by omega
      rw [count, Block.slice_append, unseen, Nat.add_sub_cancel' ahead, Block.slice_overwrite_same fits]
  · simp only [writable, if_neg ahead] at free
    have fits : wp + cells.length ≤ buffer.length := by omega
    have notEnd : wp + cells.length ≠ buffer.length := by omega
    simp only [contents, if_neg ahead, Block.take_eq_slice] at unseen
    simp only [contents, wrap, if_neg ahead, if_neg notEnd,
      if_neg (show ¬ rp ≤ wp + cells.length by omega), Block.take_eq_slice]
    rw [Block.slice_append, Nat.zero_add, Block.slice_overwrite_same fits, ← List.append_assoc, unseen]

theorem wrap_ne_of_put {size rp wp count : Nat} (inside : Inside size rp wp) (some : 0 < count)
    (free : count ≤ writable size rp wp) : rp ≠ wrap size (wp + count) := by
  obtain ⟨reader, writer⟩ := inside
  simp only [writable] at free
  simp only [wrap]
  split at free <;> split <;> omega

theorem getElem?_contents {buffer : List α} {rp wp index : Nat}
    (inside : Inside buffer.length rp wp) (within : index < stored buffer.length rp wp) :
    (contents buffer rp wp)[index]? = buffer[(rp + index) % buffer.length]? := by
  obtain ⟨reader, writer⟩ := inside
  by_cases ahead : rp ≤ wp
  · simp only [stored, if_pos ahead] at within
    rw [contents, if_pos ahead, Block.getElem?_slice, if_pos within,
      Nat.mod_eq_of_lt (by omega)]
  · simp only [stored, if_neg ahead] at within
    rw [contents, if_neg ahead]
    by_cases first : index < buffer.length - rp
    · rw [List.getElem?_append_left (by rwa [List.length_drop]), List.getElem?_drop,
        Nat.mod_eq_of_lt (by omega)]
    · have wrapped : (rp + index) % buffer.length = index - (buffer.length - rp) := by
        rw [Nat.mod_eq_sub_mod (by omega), Nat.mod_eq_of_lt (by omega)]
        omega
      rw [List.getElem?_append_right (by rw [List.length_drop]; omega), List.length_drop, wrapped,
        List.getElem?_take_of_lt (by omega)]

/-! One cell at a time. -/

theorem contents_set_put {buffer : List α} {rp wp : Nat} (inside : Inside buffer.length rp wp)
    (room : stored buffer.length rp wp < buffer.length - 1) (cell : α) :
    contents (buffer.set wp cell) rp (wrap buffer.length (wp + 1)) =
      contents buffer rp wp ++ [cell] := by
  rw [Block.set_eq_overwrite inside.writer]
  apply contents_put inside
  obtain ⟨reader, writer⟩ := inside
  simp only [stored] at room
  simp only [writable, List.length_singleton]
  split at room <;> split <;> omega

theorem contents_set_behind {buffer : List α} {rp wp : Nat} (inside : Inside buffer.length rp wp)
    (cell : α) :
    contents (buffer.set rp cell) (wrap buffer.length (rp + 1)) wp =
      contents buffer (wrap buffer.length (rp + 1)) wp := by
  obtain ⟨reader, writer⟩ := inside
  by_cases atEnd : rp + 1 = buffer.length
  · simp only [wrap, if_pos atEnd, contents, Nat.zero_le, if_true, Block.slice, List.drop_zero]
    exact List.take_set_of_le (by omega)
  · have later : (buffer.set rp cell).drop (rp + 1) = buffer.drop (rp + 1) :=
      List.drop_set_of_lt (Nat.lt_succ_self rp)
    simp only [wrap, if_neg atEnd, contents, Block.slice, later]
    split
    · rfl
    · rw [List.take_set_of_le (by omega)]

theorem contents_set_take {buffer : List α} {rp wp : Nat} (inside : Inside buffer.length rp wp)
    (some : rp ≠ wp) (cell : α) :
    contents buffer rp wp =
      buffer.get ⟨rp, inside.reader⟩ :: contents (buffer.set rp cell) (wrap buffer.length (rp + 1)) wp := by
  have available : 1 ≤ readable buffer.length rp wp := by
    obtain ⟨reader, writer⟩ := inside
    simp only [readable]
    split <;> omega
  have first : Block.slice buffer rp 1 = [buffer.get ⟨rp, inside.reader⟩] := by
    rw [Block.slice, List.drop_eq_getElem_cons inside.reader, List.take_succ_cons, List.take_zero]
    rfl
  rw [contents_set_behind inside, contents_take inside available, first]
  rfl

end Ring
