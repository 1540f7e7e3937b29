import Mathlib.Tactic
import Ldd3.Lib.Block

/-!
Transfers between one run of cells and a list of pieces, each of them a range of
some block: gathering the pieces in their order, and scattering cells over them.
-/

namespace Scatter

structure Piece (Id : Type) where
  block : Id
  start : Nat
  count : Nat

section Transfers

variable {Id α : Type}

def total (pieces : List (Piece Id)) : Nat := (pieces.map Piece.count).sum

def gather (blocks : Id → List α) (pieces : List (Piece Id)) : List α :=
  pieces.flatMap fun piece => Block.slice (blocks piece.block) piece.start piece.count

def Inside (blocks : Id → List α) (piece : Piece Id) : Prop :=
  piece.start + piece.count ≤ (blocks piece.block).length

def Apart (piece other : Piece Id) : Prop :=
  piece.block = other.block →
    piece.start + piece.count ≤ other.start ∨ other.start + other.count ≤ piece.start

@[simp] theorem total_nil : total ([] : List (Piece Id)) = 0 := rfl

@[simp] theorem total_cons (piece : Piece Id) (rest : List (Piece Id)) :
    total (piece :: rest) = piece.count + total rest := by
  simp only [total, List.map_cons, List.sum_cons]

theorem gather_cons (blocks : Id → List α) (piece : Piece Id) (rest : List (Piece Id)) :
    gather blocks (piece :: rest) =
      Block.slice (blocks piece.block) piece.start piece.count ++ gather blocks rest := by
  simp only [gather, List.flatMap_cons]

theorem length_gather {blocks : Id → List α} {pieces : List (Piece Id)}
    (inside : ∀ piece ∈ pieces, Inside blocks piece) :
    (gather blocks pieces).length = total pieces := by
  induction pieces with
  | nil => rfl
  | cons piece rest ih =>
      have first := Block.length_slice (inside piece List.mem_cons_self)
      have later := ih fun other listed => inside other (List.mem_cons_of_mem piece listed)
      rw [gather_cons, List.length_append, first, later, total_cons]

variable [DecidableEq Id]

def fill (blocks : Id → List α) (piece : Piece Id) (cells : List α) : Id → List α :=
  Function.update blocks piece.block (Block.overwrite (blocks piece.block) piece.start cells)

/-- The cells go to the pieces in order, as many to each as it has room for. -/
def scatter (blocks : Id → List α) : List (Piece Id) → List α → Id → List α
  | [], _ => blocks
  | piece :: rest, cells =>
      scatter (fill blocks piece (cells.take piece.count)) rest (cells.drop piece.count)

theorem length_fill {blocks : Id → List α} {piece : Piece Id} {cells : List α}
    (inside : Inside blocks piece) (fits : cells.length ≤ piece.count) (block : Id) :
    (fill blocks piece cells block).length = (blocks block).length := by
  simp only [Inside] at inside
  by_cases same : block = piece.block
  · rw [fill, same, Function.update_self, Block.length_overwrite (by omega)]
  · rw [fill, Function.update_of_ne same]

theorem inside_fill {blocks : Id → List α} {piece other : Piece Id} {cells : List α}
    (inside : Inside blocks piece) (fits : cells.length ≤ piece.count)
    (otherInside : Inside blocks other) : Inside (fill blocks piece cells) other := by
  rw [Inside, length_fill inside fits]
  exact otherInside

theorem slice_fill_self {blocks : Id → List α} {piece : Piece Id} {cells : List α}
    (inside : Inside blocks piece) (full : cells.length = piece.count) :
    Block.slice (fill blocks piece cells piece.block) piece.start piece.count = cells := by
  simp only [Inside] at inside
  rw [fill, Function.update_self, ← full]
  exact Block.slice_overwrite_same (by omega)

theorem slice_fill_apart {blocks : Id → List α} {piece other : Piece Id} {cells : List α}
    (inside : Inside blocks piece) (fits : cells.length ≤ piece.count) (apart : Apart piece other) :
    Block.slice (fill blocks piece cells other.block) other.start other.count =
      Block.slice (blocks other.block) other.start other.count := by
  simp only [Inside] at inside
  by_cases same : other.block = piece.block
  · rw [fill, same, Function.update_self]
    rcases apart same.symm with before | after
    · simp only [Block.slice]
      rw [Block.drop_overwrite_after (by omega) (by omega)]
    · exact Block.slice_overwrite_before after (by omega)
  · rw [fill, Function.update_of_ne same]

theorem slice_scatter_apart {blocks : Id → List α} {pieces : List (Piece Id)} {cells : List α}
    {other : Piece Id} (inside : ∀ piece ∈ pieces, Inside blocks piece)
    (apart : ∀ piece ∈ pieces, Apart piece other) :
    Block.slice (scatter blocks pieces cells other.block) other.start other.count =
      Block.slice (blocks other.block) other.start other.count := by
  induction pieces generalizing blocks cells with
  | nil => rfl
  | cons piece rest ih =>
      have here := inside piece List.mem_cons_self
      have fits := List.length_take_le piece.count cells
      rw [scatter, ih, slice_fill_apart here fits (apart piece List.mem_cons_self)]
      · intro later listed
        exact inside_fill here fits (inside later (List.mem_cons_of_mem piece listed))
      · intro later listed
        exact apart later (List.mem_cons_of_mem piece listed)

theorem gather_scatter {blocks : Id → List α} {pieces : List (Piece Id)} {cells : List α}
    (inside : ∀ piece ∈ pieces, Inside blocks piece) (apart : pieces.Pairwise Apart)
    (full : cells.length = total pieces) :
    gather (scatter blocks pieces cells) pieces = cells := by
  induction pieces generalizing blocks cells with
  | nil => exact (List.length_eq_zero_iff.mp full).symm
  | cons piece rest ih =>
      obtain ⟨first, later⟩ := List.pairwise_cons.mp apart
      have here := inside piece List.mem_cons_self
      rw [total_cons] at full
      have taken : (cells.take piece.count).length = piece.count := by
        rw [List.length_take]
        omega
      have insideLater : ∀ other ∈ rest, Inside (fill blocks piece (cells.take piece.count)) other :=
        fun other listed => inside_fill here taken.le (inside other (List.mem_cons_of_mem piece listed))
      have backwards : ∀ other ∈ rest, Apart other piece := by
        intro other listed same
        exact (first other listed same.symm).symm
      have dropped : (cells.drop piece.count).length = total rest := by
        rw [List.length_drop]
        omega
      rw [gather_cons, scatter, slice_scatter_apart insideLater backwards,
        slice_fill_self here taken, ih insideLater later dropped, List.take_append_drop]

end Transfers

end Scatter
