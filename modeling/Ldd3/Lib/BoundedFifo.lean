import Mathlib.Tactic

/-! A bounded first-in first-out queue together with all that went in and came out. -/

structure BoundedFifo (α : Type) (capacity : Nat) where
  accepted : List α
  returned : List α
  contents : List α
  conserved : returned ++ contents = accepted
  bounded : contents.length ≤ capacity

namespace BoundedFifo

variable {α : Type} {capacity : Nat}

def empty : BoundedFifo α capacity :=
  { accepted := [], returned := [], contents := [], conserved := rfl, bounded := Nat.zero_le _ }

def room (queue : BoundedFifo α capacity) : Nat := capacity - queue.contents.length

def push (queue : BoundedFifo α capacity) (cells : List α) (fits : cells.length ≤ queue.room) :
    BoundedFifo α capacity where
  accepted := queue.accepted ++ cells
  returned := queue.returned
  contents := queue.contents ++ cells
  conserved := by rw [← List.append_assoc, queue.conserved]
  bounded := by
    have bounded := queue.bounded
    simp only [room] at fits
    simp only [List.length_append]
    omega

def pop (queue : BoundedFifo α capacity) (count : Nat) : BoundedFifo α capacity where
  accepted := queue.accepted
  returned := queue.returned ++ queue.contents.take count
  contents := queue.contents.drop count
  conserved := by rw [List.append_assoc, List.take_append_drop, queue.conserved]
  bounded := by
    have bounded := queue.bounded
    simp only [List.length_drop]
    omega

theorem pop_front (queue : BoundedFifo α capacity) {cells rest : List α}
    (contents : queue.contents = cells ++ rest) :
    (queue.pop cells.length).returned = queue.returned ++ cells ∧
      (queue.pop cells.length).contents = rest := by
  simp only [pop, contents, List.take_left, List.drop_left, and_self]

end BoundedFifo
