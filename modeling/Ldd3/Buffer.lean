import Mathlib.Tactic
import Ldd3.Kernel
import Ldd3.Lib.Block

/-!
An array of C, with the bounds of its accesses and the cells that nothing has been written to.
-/

namespace Ldd3

/-- `none` is a cell without a value yet. -/
abbrev Buffer (α : Type) := List (Option α)

namespace Buffer

variable {α : Type}

def uninit (size : Nat) : Buffer α := List.replicate size none

def store (buffer : Buffer α) (start : Nat) (values : List α) : Except Oops (Buffer α) :=
  if start + values.length ≤ buffer.length then
    .ok (Block.overwrite buffer start (values.map some))
  else .error .outOfBounds

def load (buffer : Buffer α) (start count : Nat) : Except Oops (List α) :=
  if start + count ≤ buffer.length then
    match (Block.slice buffer start count).mapM id with
    | none => .error .uninitialised
    | some values => .ok values
  else .error .outOfBounds

theorem mapM_map_some (values : List α) : (values.map some).mapM id = some values := by
  induction values with
  | nil => rfl
  | cons value rest ih =>
      rw [List.map_cons, List.mapM_cons, ih]
      rfl

theorem store_outside {buffer : Buffer α} {start : Nat} {values : List α}
    (outside : buffer.length < start + values.length) :
    buffer.store start values = .error .outOfBounds :=
  if_neg outside.not_ge

theorem store_one {buffer : Buffer α} {start : Nat} (inside : start < buffer.length) (value : α) :
    ∃ stored, buffer.store start [value] = .ok stored ∧ stored.length = buffer.length ∧
      ∀ cell : Nat, stored[cell]? = if cell = start then some (some value) else buffer[cell]? := by
  refine ⟨_, if_pos inside, Block.length_overwrite inside, ?_⟩
  intro cell
  have cells : [value].map some = [some value] := rfl
  rw [cells, ← Block.set_eq_overwrite inside, List.getElem?_set]
  by_cases here : cell = start
  · rw [if_pos here.symm, if_pos inside, if_pos here]
  · rw [if_neg (Ne.symm here), if_neg here]

theorem load_cells {buffer : Buffer α} {start count : Nat} {value : Nat → α}
    (inside : start + count ≤ buffer.length)
    (cells : ∀ index < count, buffer[start + index]? = some (some (value index))) :
    buffer.load start count = .ok ((List.range count).map value) := by
  have slice : Block.slice buffer start count = ((List.range count).map value).map some := by
    apply List.ext_getElem?
    intro index
    rw [Block.getElem?_slice, List.getElem?_map, List.getElem?_map]
    split
    · rename_i within
      rw [cells index within, List.getElem?_range within]
      rfl
    · rename_i beyond
      rw [List.getElem?_eq_none (by rwa [List.length_range, ← Nat.not_lt])]
      rfl
  rw [load, if_pos inside, slice, mapM_map_some]

theorem load_written {values : List α} {rest : Buffer α} {start count : Nat}
    (written : start + count ≤ values.length) :
    load (values.map some ++ rest) start count = .ok (Block.slice values start count) := by
  have inside : start + count ≤ (values.map some ++ rest).length := by
    rw [List.length_append, List.length_map]
    exact Nat.le_add_right_of_le written
  have cells : Block.slice (values.map some ++ rest) start count =
      (Block.slice values start count).map some := by
    rw [Block.slice, Block.slice, List.map_take, List.map_drop,
      List.drop_append_of_le_length (by rw [List.length_map]; omega),
      List.take_append_of_le_length (by rw [List.length_drop, List.length_map]; omega)]
  rw [load, if_pos inside, cells, mapM_map_some]

theorem store_written {values more : List α} {rest : Buffer α} {start : Nat}
    (within : start ≤ values.length)
    (inside : start + more.length ≤ values.length + rest.length) :
    ∃ left, store (values.map some ++ rest) start more =
        .ok ((values.take start ++ more).map some ++ left) ∧
      start + more.length + left.length = values.length + rest.length := by
  have fits : start + more.length ≤ (values.map some ++ rest).length := by
    rwa [List.length_append, List.length_map]
  refine ⟨(values.map some ++ rest).drop (start + more.length), ?_, ?_⟩
  · rw [store, if_pos fits, Block.overwrite, List.length_map, List.map_append, List.map_take,
      List.take_append_of_le_length (by rwa [List.length_map])]
  · rw [List.length_drop, List.length_append, List.length_map]
    omega

theorem store_uninit {size : Nat} {values : List α} (fits : values.length ≤ size) :
    ∃ left, store (uninit size) 0 values = .ok (values.map some ++ left) ∧
      values.length + left.length = size := by
  have blank : (([] : List α).map some ++ uninit size) = uninit size := rfl
  have inside : 0 + values.length ≤ ([] : List α).length + (uninit (α := α) size).length := by
    rw [uninit, List.length_replicate]
    simpa using fits
  obtain ⟨left, stored, length⟩ := store_written (Nat.zero_le _) inside
  refine ⟨left, stored, ?_⟩
  simpa [uninit] using length

end Buffer

end Ldd3
