import Mathlib.Tactic

/-!
Changes of a memory whose cells can be looked at one by one. A change with a footprint
writes only the cells of one set, and what it writes there is decided by the cells of
another. Two changes commute when neither writes what the other one uses.
-/

namespace Footprint

variable {Memory Cell Value : Type}

/-- What a change does to a memory, among those of the same shape. -/
structure Touches (look : Memory → Cell → Value) (shape : Memory → Prop)
    (change : Memory → Memory) (reads writes : Cell → Prop) : Prop where
  shaped : ∀ memory, shape memory → shape (change memory)
  frame : ∀ memory cell, shape memory → ¬ writes cell →
    look (change memory) cell = look memory cell
  decided : ∀ memory other cell, shape memory → shape other →
    (∀ read, reads read → look memory read = look other read) → writes cell →
    look (change memory) cell = look (change other) cell

def Apart (reads writes otherReads otherWrites : Cell → Prop) : Prop :=
  ∀ cell, (writes cell → ¬ otherReads cell ∧ ¬ otherWrites cell) ∧
    (otherWrites cell → ¬ reads cell)

variable {look : Memory → Cell → Value} {shape : Memory → Prop}
variable {change otherChange : Memory → Memory}
variable {reads writes otherReads otherWrites : Cell → Prop}

theorem Touches.unmoved (touches : Touches look shape change reads writes)
    (otherTouches : Touches look shape otherChange otherReads otherWrites)
    (apart : ∀ cell, otherWrites cell → ¬ reads cell ∧ ¬ writes cell)
    {memory : Memory} (shaped : shape memory) {cell : Cell} (written : writes cell) :
    look (change (otherChange memory)) cell = look (otherChange (change memory)) cell := by
  have unread : ∀ read, reads read → look (otherChange memory) read = look memory read := by
    intro read isRead
    exact otherTouches.frame memory read shaped fun touched => (apart read touched).1 isRead
  rw [otherTouches.frame (change memory) cell (touches.shaped memory shaped)
    fun touched => (apart cell touched).2 written]
  exact touches.decided _ _ cell (otherTouches.shaped memory shaped) shaped unread written

theorem Touches.commute (touches : Touches look shape change reads writes)
    (otherTouches : Touches look shape otherChange otherReads otherWrites)
    (apart : Apart reads writes otherReads otherWrites)
    (extensional : ∀ memory other, (∀ cell, look memory cell = look other cell) → memory = other)
    {memory : Memory} (shaped : shape memory) :
    change (otherChange memory) = otherChange (change memory) := by
  apply extensional
  intro cell
  by_cases written : writes cell
  · exact touches.unmoved otherTouches
      (fun cell touched => ⟨(apart cell).2 touched, fun mine => ((apart cell).1 mine).2 touched⟩)
      shaped written
  by_cases otherWritten : otherWrites cell
  · exact (otherTouches.unmoved touches (fun cell touched => (apart cell).1 touched)
      shaped otherWritten).symm
  -- a cell that neither of them writes
  rw [touches.frame _ cell (otherTouches.shaped memory shaped) written,
    otherTouches.frame _ cell shaped otherWritten,
    otherTouches.frame _ cell (touches.shaped memory shaped) otherWritten,
    touches.frame _ cell shaped written]

end Footprint
