import Mathlib.Tactic

/-!
Blocks of memory obtained from an allocator that numbers its attempts, and what becomes of the
list of blocks that a structure is made of.
-/

/-- The attempts from `first` up to `last` obtained some blocks, and with these `old` became
`new`. -/
structure Obtains (first last : Nat) (old new obtained : List Nat) : Prop where
  ordered : first ≤ last
  perm : new.Perm (obtained ++ old)
  nodup : obtained.Nodup
  range : ∀ id ∈ obtained, first ≤ id ∧ id < last

namespace Obtains

variable {first middle last : Nat} {old between new obtained more : List Nat}

theorem nothing (ordered : first ≤ last) (old : List Nat) : Obtains first last old old [] :=
  ⟨ordered, .rfl, List.nodup_nil, by simp⟩

theorem one (first : Nat) (perm : new.Perm (first :: old)) :
    Obtains first (first + 1) old new [first] :=
  ⟨by omega, perm, List.nodup_singleton first, by simp⟩

theorem trans (before : Obtains first middle old between obtained)
    (after : Obtains middle last between new more) :
    Obtains first last old new (more ++ obtained) where
  ordered := before.ordered.trans after.ordered
  perm := by
    rw [List.append_assoc]
    exact after.perm.trans (before.perm.append_left more)
  nodup := by
    refine after.nodup.append before.nodup ?_
    intro id late early
    have lower := (after.range id late).1
    have upper := (before.range id early).2
    omega
  range := by
    have beforeOrdered := before.ordered
    have afterOrdered := after.ordered
    intro id member
    rcases List.mem_append.mp member with late | early
    · have bounds := after.range id late
      omega
    · have bounds := before.range id early
      omega

theorem of_perm (step : Obtains first last old new obtained) (same : more.Perm obtained) :
    Obtains first last old new more where
  ordered := step.ordered
  perm := step.perm.trans (same.symm.append_right old)
  nodup := same.nodup_iff.mpr step.nodup
  range id member := step.range id (same.mem_iff.mp member)

theorem cons (step : Obtains first last old new obtained) (id : Nat) :
    Obtains first last (id :: old) (id :: new) obtained :=
  ⟨step.ordered, (step.perm.cons id).trans List.perm_middle.symm, step.nodup, step.range⟩

theorem append_left (step : Obtains first last old new obtained) (kept : List Nat) :
    Obtains first last (kept ++ old) (kept ++ new) obtained := by
  induction kept with
  | nil => exact step
  | cons id kept ih => exact ih.cons id

theorem append_right (step : Obtains first last old new obtained) (kept : List Nat) :
    Obtains first last (old ++ kept) (new ++ kept) obtained := by
  refine ⟨step.ordered, ?_, step.nodup, step.range⟩
  rw [← List.append_assoc]
  exact step.perm.append_right kept

theorem mem_iff (step : Obtains first last old new obtained) (id : Nat) :
    id ∈ new ↔ id ∈ obtained ++ old :=
  step.perm.mem_iff

theorem kept_nodup (step : Obtains first last old new obtained) (nodup : old.Nodup)
    (below : ∀ id ∈ old, id < first) : new.Nodup := by
  refine step.perm.nodup_iff.mpr (step.nodup.append nodup ?_)
  intro id fresh member
  have lower := (step.range id fresh).1
  have upper := below id member
  omega

theorem kept_below (step : Obtains first last old new obtained) (below : ∀ id ∈ old, id < first) :
    ∀ id ∈ new, id < last := by
  have ordered := step.ordered
  intro id member
  rcases List.mem_append.mp ((step.mem_iff id).mp member) with fresh | kept
  · exact (step.range id fresh).2
  · exact (below id kept).trans_le ordered

theorem flatMap_set {Part : Type} {blocks : Part → List Nat} {parts : List Part} {index : Nat}
    {part other : Part} (found : parts[index]? = some part)
    (step : Obtains first last (blocks part) (blocks other) obtained) :
    Obtains first last (parts.flatMap blocks) ((parts.set index other).flatMap blocks) obtained := by
  induction parts generalizing index with
  | nil => simp at found
  | cons head rest ih =>
      cases index with
      | zero =>
          simp only [List.getElem?_cons_zero, Option.some.injEq] at found
          subst found
          simp only [List.set_cons_zero, List.flatMap_cons]
          exact step.append_right _
      | succ index =>
          simp only [List.getElem?_cons_succ] at found
          simp only [List.set_cons_succ, List.flatMap_cons]
          exact (ih found).append_left _

end Obtains
