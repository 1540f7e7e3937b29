import Mathlib.Tactic

/-!
A bounded first-in first-out queue that makes room by discarding its oldest entries: all
that was recorded, how many entries have left at the front, and those that were returned.
-/

structure DropFifo (α : Type) (capacity : Nat) where
  recorded : List α
  gone : Nat
  returned : List α
  past : gone ≤ recorded.length
  bounded : recorded.length ≤ gone + capacity
  ordered : returned.Sublist (recorded.take gone)

namespace DropFifo

variable {α : Type} {capacity : Nat}

def empty : DropFifo α capacity :=
  { recorded := [], gone := 0, returned := [], past := Nat.le_refl _, bounded := Nat.zero_le _,
    ordered := List.nil_sublist _ }

def size (queue : DropFifo α capacity) : Nat := queue.recorded.length - queue.gone

def front? (queue : DropFifo α capacity) : Option α := queue.recorded[queue.gone]?

def push (queue : DropFifo α capacity) (entry : α) : DropFifo α capacity where
  recorded := queue.recorded ++ [entry]
  gone := max queue.gone (queue.recorded.length + 1 - capacity)
  returned := queue.returned
  past := by
    have past := queue.past
    simp only [List.length_append, List.length_singleton]
    omega
  bounded := by
    simp only [List.length_append, List.length_singleton]
    omega
  ordered := by
    have kept : (queue.recorded.take queue.gone).Sublist
        ((queue.recorded ++ [entry]).take (max queue.gone (queue.recorded.length + 1 - capacity))) := by
      rw [← List.take_append_of_le_length queue.past]
      exact (List.take_sublist_take_left (Nat.le_max_left _ _))
    exact queue.ordered.trans kept

def pop (queue : DropFifo α capacity) : DropFifo α capacity where
  recorded := queue.recorded
  gone := min (queue.gone + 1) queue.recorded.length
  returned := queue.returned ++ queue.front?.toList
  past := Nat.min_le_right _ _
  bounded := by
    have bounded := queue.bounded
    omega
  ordered := by
    rw [← List.take_eq_take_min, List.take_add_one]
    exact queue.ordered.append (List.Sublist.refl _)

theorem push_room {queue : DropFifo α capacity} {entry : α} (room : queue.size < capacity) :
    (queue.push entry).gone = queue.gone := by
  have past := queue.past
  simp only [size] at room
  simp only [push]
  omega

theorem push_full {queue : DropFifo α capacity} {entry : α} (full : queue.size = capacity) :
    (queue.push entry).gone = queue.gone + 1 := by
  have past := queue.past
  simp only [size] at full
  simp only [push]
  omega

theorem size_le (queue : DropFifo α capacity) : queue.size ≤ capacity := by
  have bounded := queue.bounded
  simp only [size]
  omega

theorem pop_gone {queue : DropFifo α capacity} (some : 0 < queue.size) :
    queue.pop.gone = queue.gone + 1 := by
  simp only [size] at some
  simp only [pop]
  omega

theorem foldl_push {queue : DropFifo α capacity} {entries : List α}
    (room : queue.size + entries.length ≤ capacity) :
    (entries.foldl push queue).recorded = queue.recorded ++ entries ∧
      (entries.foldl push queue).gone = queue.gone := by
  induction entries generalizing queue with
  | nil => exact ⟨(List.append_nil _).symm, rfl⟩
  | cons entry rest ih =>
      rw [List.length_cons] at room
      have kept : (queue.push entry).gone = queue.gone := push_room (by omega)
      have past := queue.past
      have size : (queue.push entry).size = queue.size + 1 := by
        simp only [DropFifo.size, kept]
        simp only [push, List.length_append, List.length_singleton]
        omega
      have later := @ih (queue.push entry) (by omega)
      rw [List.foldl_cons, later.1, later.2, kept]
      refine ⟨?_, rfl⟩
      simp only [push, List.append_assoc, List.singleton_append]

end DropFifo
