import Mathlib.Tactic
import Ldd3.Lib.StepMachine
import Ldd3.Scullv.Fault
import Ldd3.Scullv.Driver

/-!
Page faults at or beyond the end of the device. `no_page_fault` keeps the file offset in an
`unsigned`, so it looks up the offset modulo 2^32, and it reads `ptr->data` of whatever node
its walk ends on, which `scull_find_item` may have made without a pointer array.
-/

namespace Ldd3.Scullv

open Scull

/-- `(address - vm_start) + (vm_pgoff << PAGE_SHIFT)` in the `unsigned long` of its operands. -/
def fileOffset64 (vma : Vma) (address : Nat) : Nat :=
  CInt.uint64 ((address : Int) - vma.start + vma.pgoff * pageSize)

/-- The low half of the file offset, which is what `offset` holds. -/
def lowOffset (vma : Vma) (address : Nat) : Nat := fileOffset64 vma address % 4294967296

/-- What a fault owes its caller: no page at or beyond the end, no access outside an array. -/
def FaultSound (dev : ScullDev) (vma : Vma) (address : Nat) : Prop :=
  (dev.size ≤ fileOffset64 vma address → noPageFault dev vma address = .ok .sigbus) ∧
    ∀ oops, noPageFault dev vma address ≠ .error oops

/-- A node that a fault may look into: it has a pointer array with an entry for the page, and
that entry is `NULL` unless the fault is inside the device. -/
def NodeAnswers (node : ScullQset) (entry : Nat) (inside : Prop) : Prop :=
  match node.data with
  | none => False
  | some array => entry < array.length ∧ (array.getD entry none = none ∨ inside)

/-- The low half of the offset is beyond the end, or the walk runs off the list, or it stops
at a node that it may look into. -/
def FaultAnswers (dev : ScullDev) (vma : Vma) (address : Nat) : Prop :=
  let page := lowOffset vma address / pageSize
  let qset := CInt.uint32 dev.qset
  dev.size ≤ lowOffset vma address ∨ qset = 0 ∨
    ∀ node, dev.data[page / qset]? = some node →
      NodeAnswers node (page % qset) (fileOffset64 vma address < dev.size)

theorem uint32_eq_lowOffset (vma : Vma) (address : Nat) :
    CInt.uint32 ((address : Int) - vma.start + vma.pgoff * pageSize) = lowOffset vma address := by
  simp only [lowOffset, fileOffset64, CInt.uint32, CInt.uint64]
  omega

/-! Where the walk of a fault ends, for any `dev->qset`. -/

theorem faultWalk_zero (nodes : List ScullQset) (offset : Nat) :
    (faultWalk 0 nodes offset).node = nodes.length := by
  induction nodes generalizing offset with
  | nil => rfl
  | cons node after ih => simp only [faultWalk, Nat.zero_le, ↓reduceIte, ih, List.length_cons]

theorem faultWalk_node {qset : Nat} (positive : 0 < qset) (nodes : List ScullQset)
    (offset : Nat) : (faultWalk qset nodes offset).node = min (offset / qset) nodes.length := by
  induction nodes generalizing offset with
  | nil => simp only [faultWalk, List.length_nil, Nat.min_zero]
  | cons node after ih =>
      simp only [faultWalk, List.length_cons]
      by_cases further : qset ≤ offset
      · have quotient : offset / qset = (offset - qset) / qset + 1 :=
          Nat.div_eq_sub_div positive further
        simp only [further, ↓reduceIte, ih, quotient]
        omega
      · have first : offset / qset = 0 := Nat.div_eq_of_lt (by omega)
        simp only [further, ↓reduceIte, first, Nat.zero_min]

theorem faultWalk_getElem {qset : Nat} (positive : 0 < qset) (nodes : List ScullQset)
    (offset : Nat) : nodes[(faultWalk qset nodes offset).node]? = nodes[offset / qset]? := by
  rw [faultWalk_node positive]
  by_cases inList : offset / qset ≤ nodes.length
  · rw [Nat.min_eq_left inList]
  · rw [Nat.min_eq_right (by omega), List.getElem?_eq_none (le_refl _),
      List.getElem?_eq_none (by omega)]

/-! The answer of a fault, from where its walk ends. -/

theorem noPageFault_beyond {dev : ScullDev} {vma : Vma} {address : Nat}
    (beyond : dev.size ≤ lowOffset vma address) : noPageFault dev vma address = .ok .sigbus := by
  simp only [noPageFault, uint32_eq_lowOffset, beyond, ↓reduceIte]

theorem noPageFault_missing {dev : ScullDev} {vma : Vma} {address : Nat}
    (missing : dev.data[(faultWalk (CInt.uint32 dev.qset) dev.data
      (lowOffset vma address / pageSize)).node]? = none) :
    noPageFault dev vma address = .ok .sigbus := by
  simp only [noPageFault, uint32_eq_lowOffset, missing]
  split <;> rfl

section Inside

variable {dev : ScullDev} {vma : Vma} {address : Nat} {node : ScullQset}

theorem noPageFault_hole (inside : ¬ dev.size ≤ lowOffset vma address)
    (positive : 0 < CInt.uint32 dev.qset)
    (found : dev.data[lowOffset vma address / pageSize / CInt.uint32 dev.qset]? = some node)
    (hole : node.data = none) : noPageFault dev vma address = .error .outOfBounds := by
  simp only [noPageFault, uint32_eq_lowOffset, inside, ↓reduceIte, faultWalk_getElem positive,
    found, hole]

theorem noPageFault_entry (inside : ¬ dev.size ≤ lowOffset vma address)
    (positive : 0 < CInt.uint32 dev.qset)
    (found : dev.data[lowOffset vma address / pageSize / CInt.uint32 dev.qset]? = some node)
    {array : PointerArray} (present : node.data = some array) :
    noPageFault dev vma address =
      match entryAt array (lowOffset vma address / pageSize % CInt.uint32 dev.qset : Nat) with
      | .error oops => .error oops
      | .ok none => .ok .sigbus
      | .ok (some _) => .ok (.installed
          (lowOffset vma address / pageSize / CInt.uint32 dev.qset)
          (lowOffset vma address / pageSize % CInt.uint32 dev.qset)) := by
  have walked := faultWalk_found positive dev.data (lowOffset vma address / pageSize) (by
    rw [← faultWalk_getElem positive] at found
    exact (List.getElem?_eq_some_iff.mp found).1)
  rcases read : entryAt array (lowOffset vma address / pageSize % CInt.uint32 dev.qset : Nat)
    with oops | _ | block <;>
    simp only [noPageFault, uint32_eq_lowOffset, inside, ↓reduceIte, walked, found, present, read]

theorem nodeAnswers_iff (inside : ¬ dev.size ≤ lowOffset vma address)
    (positive : 0 < CInt.uint32 dev.qset)
    (found : dev.data[lowOffset vma address / pageSize / CInt.uint32 dev.qset]? = some node) :
    FaultSound dev vma address ↔
      NodeAnswers node (lowOffset vma address / pageSize % CInt.uint32 dev.qset)
        (fileOffset64 vma address < dev.size) := by
  simp only [FaultSound, NodeAnswers]
  cases present : node.data with
  | none =>
      rw [noPageFault_hole inside positive found present]
      simp
  | some array =>
      rw [noPageFault_entry inside positive found present]
      generalize lowOffset vma address / pageSize % CInt.uint32 dev.qset = entry
      by_cases inArray : entry < array.length
      · simp only [entryAt, Int.toNat_natCast, inArray, Int.natCast_nonneg, and_self, ↓reduceIte,
          true_and]
        cases stored : array.getD entry none with
        | none => simp
        | some block => simp
      · simp [entryAt, inArray]

end Inside

/-- In any state of the device, whatever calls led to it, a fault at any address of any
mapping answers as it should exactly when the truncated offset leads it nowhere or to an
entry that it may use. -/
theorem noPageFault_sound_iff (dev : ScullDev) (vma : Vma) (address : Nat) :
    FaultSound dev vma address ↔ FaultAnswers dev vma address := by
  by_cases beyond : dev.size ≤ lowOffset vma address
  · have answer := noPageFault_beyond beyond
    simp only [FaultSound, FaultAnswers, answer, beyond]
    simp
  · have missed : ∀ {missing : Prop}, missing → (missing → noPageFault dev vma address = .ok .sigbus) →
        FaultSound dev vma address := by
      intro missing holds answer
      simp only [FaultSound, answer holds]
      simp
    simp only [FaultAnswers, beyond, false_or]
    rcases Nat.eq_zero_or_pos (CInt.uint32 dev.qset) with zero | positive
    · have off : dev.data[(faultWalk (CInt.uint32 dev.qset) dev.data
          (lowOffset vma address / pageSize)).node]? = none := by
        rw [zero, faultWalk_zero]
        exact List.getElem?_eq_none (le_refl _)
      exact ⟨fun _ => Or.inl zero, fun _ => missed off noPageFault_missing⟩
    · cases found : dev.data[lowOffset vma address / pageSize / CInt.uint32 dev.qset]? with
      | none =>
          have off := faultWalk_getElem positive dev.data (lowOffset vma address / pageSize)
          rw [found] at off
          exact ⟨fun _ => Or.inr (by simp), fun _ => missed off noPageFault_missing⟩
      | some node =>
          rw [nodeAnswers_iff beyond positive found]
          simp [positive.ne']

/-! One byte written to a fresh device with quantum sets of one page. -/

def onePage : Geometry := ⟨4096, 1⟩

def oneByte (position : Nat) : ScullvCall := .write (.good fun _ => 0) [7] position

def sparseDev (block : List Byte) : ScullDev :=
  { data := [.empty, ⟨some [some block]⟩], quantum := 4096, qset := 1, size := 8193 }

/-- The byte is in the third page, whose node is the second of the list: a fault on the first
page finds a node without a pointer array, and one 2^32 bytes after the second page installs
the page of that byte. -/
theorem noPageFault_unsound_sparse :
    ∃ sys, StepMachine.run driverStep (.loaded 0 onePage) [.call (oneByte 8192)] = some sys ∧
      ¬ FaultSound sys.dev ⟨0, 0⟩ 0 ∧ ¬ FaultSound sys.dev ⟨0, 1048577⟩ 0 := by
  obtain ⟨block, stepped⟩ : ∃ block, scullvStep (.fresh onePage) (oneByte 8192) =
      some (sparseDev block) :=
    scullvStep_fresh onePage 8192 (by decide)
      (by decide : _ = Except.ok (Position.mk 2 (0 : Nat) (0 : Nat)))
      (by decide : _ = Found.mk [.empty, .empty] (some 1) 2) rfl (by decide) (by decide)
  have hole : noPageFault (sparseDev block) ⟨0, 0⟩ 0 = .error .outOfBounds := rfl
  have shown : noPageFault (sparseDev block) ⟨0, 1048577⟩ 0 = .ok (.installed 1 0) := rfl
  have beyond : (sparseDev block).size ≤ fileOffset64 ⟨0, 1048577⟩ 0 := by
    show 8193 ≤ fileOffset64 ⟨0, 1048577⟩ 0
    decide
  refine ⟨{ dev := sparseDev block, globals := onePage, vmas := 0, mappings := [] }, ?_, ?_, ?_⟩
  · simp only [StepMachine.run, driverStep, DriverSys.loaded, stepped]
    rfl
  · intro sound
    exact sound.2 .outOfBounds hole
  · intro sound
    have refused := sound.1 beyond
    rw [shown] at refused
    simp at refused

end Ldd3.Scullv
