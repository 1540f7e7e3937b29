import Mathlib.Tactic
import Ldd3.Lib.StepMachine
import Ldd3.Scull.FlatFile
import Ldd3.Scullv.Core

/-!
The cell that a page fault maps at a file offset against the cell that `scull_read` and
`scull_write` use there. A fault counts pages and subtracts `dev->qset` from node to node;
a read or a write divides by `quantum * qset` and walks with `scull_find_item`.
-/

namespace Ldd3.Scullv

open Scull

structure Cell where
  node : Nat
  index : Nat
  offset : Nat
  deriving DecidableEq, Repr

def Cell.value (dev : ScullDev) (cell : Cell) : Byte :=
  byteAt dev.data cell.node cell.index cell.offset

/-- The cell of the first byte that `scull_read` or `scull_write` moves at a position. -/
def storageCell (dev : ScullDev) (position : Nat) : Except Oops Cell := do
  let pos ← calculatePositions dev.quantum dev.qset position
  .ok ⟨findRounds pos.item, pos.sPos.toNat, pos.qPos.toNat⟩

def fileOffset (vma : Vma) (address : Nat) : Nat := address - vma.start + vma.pgoff * pageSize

/-- With the product of `quantum` and `qset` as an int, `forward` where it is positive and
`backward` where it is negative: the page starts at the place of its entry in the item one further
on than its set; in the first set the item may also be the first one, and for a negative product
any. -/
def WrappedAgree (quantum qset position : Nat) : Prop :=
  let page := position / pageSize
  let byte := position % pageSize
  let place := quantum * (page % qset)
  let forward := (CInt.int32 (quantum * qset : Nat)).toNat
  let backward := (-CInt.int32 (quantum * qset : Nat)).toNat
  byte < quantum ∧
    (place + byte < forward ∧
        (pageSize * page = forward * (page / qset + 1) + place ∨
          page < qset ∧ pageSize * page = place) ∨
      place + byte < backward ∧ page < qset ∧ place ≤ pageSize * page ∧
        backward ∣ pageSize * page - place)

/-- The two computations agree at `position`: with products that fit an `int`, when the
quantum is one page and the position is in the first quantum set, or when the position is
in the first page and in the first quantum, or when the page number and the quantum number,
one set further on, start at the same byte; otherwise by the product as an int. -/
def PathsAgree (quantum qset position : Nat) : Prop :=
  let page := position / pageSize
  let byte := position % pageSize
  let itemsize := quantum * qset
  if itemsize < 2147483648 ∧ position / itemsize < 2147483648 then
    quantum = pageSize ∧ page < qset ∨ page = 0 ∧ position < quantum ∨
      quantum * (page + qset) = pageSize * page ∧ byte < quantum
  else WrappedAgree quantum qset position

instance (quantum qset position : Nat) : Decidable (WrappedAgree quantum qset position) := by
  unfold WrappedAgree
  infer_instance

instance (quantum qset position : Nat) : Decidable (PathsAgree quantum qset position) := by
  unfold PathsAgree
  infer_instance

/-! The fault. -/

theorem faultWalk_found {qset : Nat} (positive : 0 < qset) (nodes : List ScullQset)
    (offset : Nat) (found : (faultWalk qset nodes offset).node < nodes.length) :
    faultWalk qset nodes offset = ⟨offset / qset, offset % qset⟩ := by
  induction nodes generalizing offset with
  | nil => simp at found
  | cons node after ih =>
      simp only [faultWalk] at found ⊢
      split
      · rename_i further
        rw [if_pos further] at found
        have rest := ih (offset - qset) (by simpa using found)
        have quotient : offset / qset = (offset - qset) / qset + 1 := by
          rw [Nat.div_eq_sub_div positive further]
        have remainder : offset % qset = (offset - qset) % qset := Nat.mod_eq_sub_mod further
        rw [rest, quotient, remainder]
      · rename_i here
        rw [Nat.div_eq_of_lt (by omega), Nat.mod_eq_of_lt (by omega)]

theorem noPageFault_installed {dev : ScullDev} {vma : Vma} {address node index : Nat}
    (qsetPositive : 0 < dev.qset) (qsetFits : CInt.FitsInt dev.qset)
    (mapped : vma.start ≤ address) (small : fileOffset vma address < 4294967296)
    (installed : noPageFault dev vma address = .ok (.installed node index)) :
    node = fileOffset vma address / pageSize / dev.qset.toNat ∧
      index = fileOffset vma address / pageSize % dev.qset.toNat := by
  have offset : CInt.uint32 ((address : Int) - vma.start + vma.pgoff * pageSize) =
      fileOffset vma address := by
    have same : (address : Int) - vma.start + vma.pgoff * pageSize = fileOffset vma address := by
      simp only [fileOffset]
      push_cast [mapped]
      ring
    rw [same, CInt.uint32_of_range (by omega) (by omega), Int.toNat_natCast]
  have qset : CInt.uint32 dev.qset = dev.qset.toNat := by
    simp only [CInt.FitsInt] at qsetFits
    exact CInt.uint32_of_range qsetPositive.le (by omega)
  simp only [noPageFault, offset, qset] at installed
  split at installed
  · simp at installed
  · split at installed
    · simp at installed
    · rename_i found inList
      have inside := (List.getElem?_eq_some_iff.mp inList).1
      have walk := faultWalk_found (by omega) dev.data (fileOffset vma address / pageSize) inside
      split at installed
      · contradiction
      · split at installed
        · contradiction
        · simp at installed
        · simp only [Except.ok.injEq, FaultReply.installed.injEq, walk] at installed
          exact ⟨installed.1.symm, installed.2.symm⟩

/-! The position arithmetic. -/

theorem walked_iff {qset : Nat} (positive : 0 < qset) (number page : Nat) :
    (number / qset - 1 = page / qset ∧ number % qset = page % qset) ↔
      (number < qset ∧ page = number) ∨ number = page + qset := by
  have numberParts := Nat.div_add_mod number qset
  have pageParts := Nat.div_add_mod page qset
  constructor
  · rintro ⟨node, entry⟩
    by_cases first : number < qset
    · left
      rw [Nat.div_eq_of_lt first] at node
      rw [Nat.mod_eq_of_lt first] at entry
      rw [← node, Nat.zero_sub, Nat.mul_zero] at pageParts
      omega
    · right
      have atLeast : 1 ≤ number / qset := (Nat.le_div_iff_mul_le positive).mpr (by omega)
      have next : number / qset = page / qset + 1 := by omega
      rw [next, Nat.mul_add, Nat.mul_one] at numberParts
      omega
  · rintro (⟨first, same⟩ | next)
    · subst same
      rw [Nat.div_eq_of_lt first]
      exact ⟨rfl, rfl⟩
    · subst next
      rw [Nat.add_div_right page positive, Nat.add_mod_right]
      exact ⟨rfl, rfl⟩

theorem pathsAgree_closed {quantum qset position : Nat} (quantumPositive : 0 < quantum)
    (qsetPositive : 0 < qset) :
    (position / quantum / qset - 1 = position / pageSize / qset ∧
        position / quantum % qset = position / pageSize % qset) ∧
        position % quantum = position % pageSize ↔
      quantum = pageSize ∧ position / pageSize < qset ∨
        position / pageSize = 0 ∧ position < quantum ∨
        quantum * (position / pageSize + qset) = pageSize * (position / pageSize) ∧
          position % pageSize < quantum := by
  have quantumParts := Nat.div_add_mod position quantum
  have pageParts := Nat.div_add_mod position pageSize
  have byteBound := Nat.mod_lt position quantumPositive
  rw [walked_iff qsetPositive]
  constructor
  · rintro ⟨⟨first, same⟩ | next, byte⟩
    · have products : quantum * (position / pageSize) = pageSize * (position / pageSize) := by
        rw [same]
        rw [same] at pageParts
        omega
      rcases Nat.eq_zero_or_pos (position / pageSize) with zero | pages
      · right
        left
        refine ⟨zero, ?_⟩
        rw [← same, zero, Nat.mul_zero] at quantumParts
        omega
      · left
        exact ⟨Nat.eq_of_mul_eq_mul_right pages products, by omega⟩
    · right
      right
      rw [next] at quantumParts
      exact ⟨by omega, by omega⟩
  · rintro (⟨page, inSet⟩ | ⟨zero, inQuantum⟩ | ⟨shifted, inQuantum⟩)
    · subst page
      exact ⟨Or.inl ⟨inSet, rfl⟩, rfl⟩
    · have first : position / quantum = 0 := Nat.div_eq_of_lt inQuantum
      rw [zero, Nat.mul_zero] at pageParts
      rw [first, Nat.mul_zero] at quantumParts
      exact ⟨Or.inl ⟨by omega, by omega⟩, by omega⟩
    · have sum : position = quantum * (position / pageSize + qset) + position % pageSize := by
        omega
      have number : position / quantum = position / pageSize + qset := by
        apply Nat.div_eq_of_lt_le
        · rw [Nat.mul_comm]
          omega
        · rw [Nat.add_mul, Nat.one_mul, Nat.mul_comm]
          omega
      rw [number] at quantumParts
      exact ⟨Or.inr number, by omega⟩

theorem storageCell_nat {dev : ScullDev} {quantum qset position : Nat}
    (quantumSame : dev.quantum = quantum) (qsetSame : dev.qset = qset)
    (quantumPositive : 0 < quantum) (qsetPositive : 0 < qset)
    (fits : quantum * qset < 2147483648) (itemFits : position / (quantum * qset) < 2147483648) :
    storageCell dev position = .ok
      ⟨position / quantum / qset - 1, position / quantum % qset, position % quantum⟩ := by
  rw [storageCell, quantumSame, qsetSame,
    calculatePositions_nat quantumPositive qsetPositive fits itemFits]
  simp only [ok_bind, findRounds_nat itemFits, Int.toNat_natCast, Nat.div_div_eq_div_mul,
    Nat.mod_mul_right_div_self]

theorem tdiv_tmod_iff {rest : Int} {quantum entry byte : Nat} (nonneg : 0 ≤ rest)
    (positive : 0 < quantum) :
    ((rest.tdiv quantum).toNat = entry ∧ (rest.tmod quantum).toNat = byte) ↔
      rest = (quantum * entry + byte : Nat) ∧ byte < quantum := by
  obtain ⟨number, rfl⟩ := Int.eq_ofNat_of_zero_le nonneg
  simp only [← Int.ofNat_tdiv, ← Int.ofNat_tmod, Int.toNat_natCast]
  have parts := Nat.div_add_mod number quantum
  have bound := Nat.mod_lt number positive
  constructor
  · rintro ⟨rfl, rfl⟩
    exact ⟨by exact_mod_cast parts.symm, bound⟩
  · rintro ⟨sum, small⟩
    have total : number = byte + quantum * entry := by
      have cast : number = quantum * entry + byte := Int.ofNat.inj sum
      omega
    subst total
    rw [Nat.add_mul_div_left _ _ positive, Nat.add_mul_mod_self_left, Nat.div_eq_of_lt small,
      Nat.mod_eq_of_lt small]
    exact ⟨Nat.zero_add _, rfl⟩

theorem storageCell_wrapped {dev : ScullDev} {quantum qset position : Nat}
    (quantumSame : dev.quantum = quantum) (qsetSame : dev.qset = qset)
    (quantumPositive : 0 < quantum) (qsetPositive : 0 < qset) (node entry byte : Nat) :
    storageCell dev position = .ok ⟨node, entry, byte⟩ ↔
      CInt.int32 (quantum * qset : Nat) ≠ 0 ∧
        (position : Int).tmod (CInt.int32 (quantum * qset : Nat)) =
          (quantum * entry + byte : Nat) ∧
        byte < quantum ∧
        findRounds (CInt.int32 ((position : Int).tdiv (CInt.int32 (quantum * qset : Nat)))) =
          node := by
  have quantumNonzero : (quantum : Int) ≠ 0 := by omega
  have product : (quantum : Int) * qset = (quantum * qset : Nat) := by push_cast; rfl
  by_cases zero : CInt.int32 (quantum * qset : Nat) = 0
  · simp only [storageCell, calculatePositions, quantumSame, qsetSame, product, zero, if_true,
      error_bind, ne_eq, not_true_eq_false, false_and, reduceCtorEq]
  · have bounds := tmod_int32_bounds (by omega : 0 < (quantum : Int))
      (by omega : 0 < (qset : Int)) (by omega : 0 ≤ (position : Int)) (by rw [product]; exact zero)
    rw [product] at bounds
    have rest := CInt.int32_of_fits bounds.2.2
    have nonneg := bounds.1
    simp only [storageCell, calculatePositions, quantumSame, qsetSame, product]
    generalize CInt.int32 (quantum * qset : Nat) = wrapped at zero rest nonneg ⊢
    generalize CInt.int32 ((position : Int).tdiv wrapped) = item
    rw [if_neg zero, if_neg quantumNonzero, rest, ok_bind, and_iff_right zero, ← and_assoc,
      ← tdiv_tmod_iff nonneg quantumPositive, Except.ok.injEq, Cell.mk.injEq]
    exact and_comm

/-! Where the product wraps around. -/

theorem findRounds_low {item : Nat} (low : item < 2147483648) (steps : Nat) :
    findRounds (CInt.int32 item) = steps ↔ item = steps + 1 ∨ steps = 0 ∧ item = 0 := by
  rw [CInt.int32_natCast low, findRounds_nat low]
  omega

theorem findRounds_high {item : Nat} (high : 2147483648 ≤ item) (small : item < 4294967296) :
    findRounds (CInt.int32 item) = 0 ∨ findRounds (CInt.int32 item) = 2147483647 := by
  simp only [findRounds, CInt.int32]
  omega

theorem findRounds_negative {item : Nat} (low : item < 2147483648) :
    findRounds (CInt.int32 (-(item : Int))) = 0 := by
  simp only [findRounds, CInt.int32]
  omega

theorem findRounds_negative_high {item : Nat} (high : 2147483648 ≤ item)
    (small : item < 4294967296) :
    findRounds (CInt.int32 (-(item : Int))) = 2147483647 ∨
      findRounds (CInt.int32 (-(item : Int))) = 4294967295 - item := by
  simp only [findRounds, CInt.int32]
  omega

theorem placed_iff {size position place item : Nat} :
    (position % size = place + position % pageSize ∧ position / size = item) ∧ 0 < size ↔
      pageSize * (position / pageSize) = size * item + place ∧
        place + position % pageSize < size := by
  have pageParts := Nat.div_add_mod position pageSize
  constructor
  · rintro ⟨⟨rest, rfl⟩, positive⟩
    have parts := Nat.div_add_mod position size
    have bound := Nat.mod_lt position positive
    omega
  · rintro ⟨start, inside⟩
    have sum : position = size * item + (place + position % pageSize) := by omega
    have positive : 0 < size := by omega
    have remainder := Nat.mul_add_mod size item (place + position % pageSize)
    have quotient := Nat.mul_add_div positive item (place + position % pageSize)
    rw [← sum, Nat.mod_eq_of_lt inside] at remainder
    rw [← sum, Nat.div_eq_of_lt inside, Nat.add_zero] at quotient
    exact ⟨⟨remainder, quotient⟩, positive⟩

theorem oneByte_items {size quantum qset position : Nat} (small : position < 4294967296)
    (inQuantum : position % pageSize < quantum)
    (inside : quantum * (position / pageSize % qset) + position % pageSize < size)
    (high : 2147483648 ≤ position / size) :
    size = 1 ∧ position % pageSize = 0 ∧ position / pageSize % qset = 0 := by
  have one : size = 1 := by
    have items := Nat.div_mul_le_self position size
    have bound : position / size * size ≥ 2147483648 * size := Nat.mul_le_mul_right size high
    omega
  subst one
  have none : quantum * (position / pageSize % qset) = 0 := by omega
  rcases Nat.mul_eq_zero.mp none with zero | zero <;> omega

section Wrapped

variable (size quantum qset : Nat) {position : Nat}

theorem forward_iff (sizePositive : 0 < size) (small : position < 4294967296)
    (inQuantum : position % pageSize < quantum) :
    position % size = quantum * (position / pageSize % qset) + position % pageSize ∧
        findRounds (CInt.int32 (position / size : Nat)) = position / pageSize / qset ↔
      quantum * (position / pageSize % qset) + position % pageSize < size ∧
        (pageSize * (position / pageSize) =
            size * (position / pageSize / qset + 1) + quantum * (position / pageSize % qset) ∨
          position / pageSize / qset = 0 ∧
            pageSize * (position / pageSize) = quantum * (position / pageSize % qset)) := by
  have pages : position / pageSize < 1048576 := Nat.div_lt_of_lt_mul small
  have steps : position / pageSize / qset ≤ position / pageSize := Nat.div_le_self _ _
  have parts := Nat.div_add_mod (position / pageSize) qset
  have pageParts := Nat.div_add_mod position pageSize
  constructor
  · rintro ⟨rest, rounds⟩
    obtain ⟨start, inside⟩ := placed_iff.mp ⟨⟨rest, rfl⟩, sizePositive⟩
    refine ⟨inside, ?_⟩
    by_cases low : position / size < 2147483648
    · rcases (findRounds_low low _).mp rounds with next | ⟨first, zero⟩
      · exact .inl (next ▸ start)
      · rw [zero, Nat.mul_zero, Nat.zero_add] at start
        exact .inr ⟨first, start⟩
    · have itemSmall : position / size < 4294967296 :=
        Nat.lt_of_le_of_lt (Nat.div_le_self _ _) small
      obtain ⟨_, byte, entry⟩ := oneByte_items small inQuantum inside (by omega)
      rcases findRounds_high (by omega) itemSmall with none | far
      · rw [← rounds, none, Nat.mul_zero, entry] at parts
        rw [← parts, byte, Nat.mul_zero] at pageParts
        have items := Nat.div_le_self position size
        omega
      · omega
  · rintro ⟨inside, start | ⟨first, start⟩⟩
    · obtain ⟨⟨rest, item⟩, _⟩ := placed_iff.mpr ⟨start, inside⟩
      exact ⟨rest, by rw [item, findRounds_low (by omega)]; exact .inl rfl⟩
    · have whole : pageSize * (position / pageSize) =
          size * 0 + quantum * (position / pageSize % qset) := by omega
      obtain ⟨⟨rest, item⟩, _⟩ := placed_iff.mpr ⟨whole, inside⟩
      exact ⟨rest, by rw [item, findRounds_low (by decide), first]; exact .inr ⟨rfl, rfl⟩⟩

theorem oddSets_whole : ∀ qset < 257, qset % 2 = 1 → 4294967295 % (4096 * qset + 1) ≠ 0 := by
  decide +kernel

theorem backward_iff (sizePositive : 0 < size) (small : position < 4294967296)
    (odd : size = 1 → qset % 2 = 1) (inQuantum : position % pageSize < quantum) :
    position % size = quantum * (position / pageSize % qset) + position % pageSize ∧
        findRounds (CInt.int32 (-((position / size : Nat) : Int))) = position / pageSize / qset ↔
      quantum * (position / pageSize % qset) + position % pageSize < size ∧
        position / pageSize / qset = 0 ∧
          ∃ item, pageSize * (position / pageSize) =
            size * item + quantum * (position / pageSize % qset) := by
  have pages : position / pageSize < 1048576 := Nat.div_lt_of_lt_mul small
  have parts := Nat.div_add_mod (position / pageSize) qset
  have pageParts := Nat.div_add_mod position pageSize
  constructor
  · rintro ⟨rest, rounds⟩
    obtain ⟨start, inside⟩ := placed_iff.mp ⟨⟨rest, rfl⟩, sizePositive⟩
    refine ⟨inside, ?_, _, start⟩
    by_cases low : position / size < 2147483648
    · rw [← rounds, findRounds_negative low]
    · have itemSmall : position / size < 4294967296 :=
        Nat.lt_of_le_of_lt (Nat.div_le_self _ _) small
      obtain ⟨rfl, byte, entry⟩ := oneByte_items small inQuantum inside (by omega)
      have steps : position / pageSize / qset ≤ position / pageSize := Nat.div_le_self _ _
      rcases findRounds_negative_high (by omega) itemSmall with far | near
      · omega
      · -- the product is -1: qset is odd, and page, sets and qset would make up 2 ^ 32 - 1
        rw [rounds, Nat.div_one] at near
        rw [Nat.div_one] at low
        rw [entry, Nat.add_zero] at parts
        rw [byte, Nat.add_zero] at pageParts
        have start : 4096 * (position / pageSize) = position := pageParts
        generalize position / pageSize / qset = sets at near steps parts
        have whole : sets * (4096 * qset + 1) = 4294967295 := by
          have sum : sets + 4096 * (qset * sets) = 4294967295 := by
            rw [parts]
            omega
          linarith
        have many : 4095 ≤ sets := by omega
        have few : qset < 257 := by
          by_contra more
          have product := Nat.mul_le_mul many (by omega : 4096 * 257 + 1 ≤ 4096 * qset + 1)
          omega
        exact absurd (Nat.mod_eq_zero_of_dvd ⟨sets, by rw [Nat.mul_comm, whole]⟩)
          (oddSets_whole qset few (odd rfl))
  · rintro ⟨inside, first, item, start⟩
    obtain ⟨⟨rest, quotient⟩, _⟩ := placed_iff.mpr ⟨start, inside⟩
    refine ⟨rest, ?_⟩
    rw [first]
    by_cases low : position / size < 2147483648
    · exact findRounds_negative low
    · obtain ⟨_, byte, entry⟩ := oneByte_items small inQuantum inside (by omega)
      rw [first, entry] at parts
      rw [← parts, byte] at pageParts
      have items := Nat.div_le_self position size
      omega

theorem exists_item_iff {start place : Nat} :
    (∃ item, start = size * item + place) ↔ place ≤ start ∧ size ∣ start - place := by
  constructor
  · rintro ⟨item, rfl⟩
    exact ⟨Nat.le_add_left _ _, by rw [Nat.add_sub_cancel]; exact Nat.dvd_mul_right _ _⟩
  · rintro ⟨before, item, whole⟩
    exact ⟨item, by omega⟩

theorem odd_of_product (wrapped : CInt.int32 (quantum * qset : Nat) = -1) : qset % 2 = 1 := by
  have product : quantum * qset % 4294967296 = 4294967295 := by
    simp only [CInt.int32] at wrapped
    omega
  have parity := Nat.mul_mod quantum qset 2
  rcases Nat.mod_two_eq_zero_or_one qset with even | odd
  · rw [even, Nat.mul_zero, Nat.zero_mod] at parity
    omega
  · exact odd

theorem pathsAgree_wrapped (qsetPositive : 0 < qset) (small : position < 4294967296) :
    (CInt.int32 (quantum * qset : Nat) ≠ 0 ∧
        (position : Int).tmod (CInt.int32 (quantum * qset : Nat)) =
          (quantum * (position / pageSize % qset) + position % pageSize : Nat) ∧
        position % pageSize < quantum ∧
        findRounds (CInt.int32 ((position : Int).tdiv (CInt.int32 (quantum * qset : Nat)))) =
          position / pageSize / qset) ↔
      WrappedAgree quantum qset position := by
  have inSet : position / pageSize / qset = 0 ↔ position / pageSize < qset := by
    rw [Nat.div_eq_zero_iff]
    omega
  simp only [WrappedAgree]
  by_cases inQuantum : position % pageSize < quantum
  · have odd := odd_of_product quantum qset
    generalize CInt.int32 (quantum * qset : Nat) = wrapped at odd ⊢
    rcases lt_trichotomy wrapped 0 with negative | zero | positive
    · obtain ⟨size, rfl⟩ : ∃ size : Nat, wrapped = -(size : Int) :=
        ⟨(-wrapped).toNat, by omega⟩
      have forward : (-(size : Int)).toNat = 0 := by omega
      have backward : (- -(size : Int)).toNat = size := by omega
      have whole := backward_iff size quantum qset (by omega) small
        (fun one => odd (by rw [one]; rfl)) inQuantum
      rw [Int.tmod_neg, Int.tdiv_neg, ← Int.ofNat_tmod, ← Int.ofNat_tdiv, Int.ofNat_inj, forward,
        backward]
      rw [exists_item_iff, inSet] at whole
      simp only [inQuantum, true_and, Nat.not_lt_zero, false_and, false_or]
      exact (and_iff_right negative.ne).trans whole
    · simp [zero]
    · obtain ⟨size, rfl⟩ := Int.eq_ofNat_of_zero_le positive.le
      have backward : (-(size : Int)).toNat = 0 := by omega
      have whole := forward_iff size quantum qset (by omega) small
        inQuantum
      rw [← Int.ofNat_tmod, ← Int.ofNat_tdiv, Int.ofNat_inj, backward, Int.toNat_natCast]
      rw [inSet] at whole
      simp only [inQuantum, true_and, Nat.not_lt_zero, false_and, or_false]
      exact (and_iff_right positive.ne').trans whole
  · simp only [inQuantum, false_and, and_false]

end Wrapped

/-! The cells of reads and writes. -/

theorem scullvRead_cell {env : Env} {dev : ScullDev} {count position : Nat} {reply : Reply}
    (replied : scullvRead env dev count position = .ok reply) (some : 0 < reply.ret) :
    ∃ cell, storageCell dev position = .ok cell ∧
      reply.out.head? = .some (cell.value reply.dev) := by
  rcases scullRead_cases replied with ⟨ret, failed, rfl⟩ | ⟨_, pos, computed, result, inside⟩
  · exact absurd some failed.not_gt
  refine ⟨⟨findRounds pos.item, pos.sPos.toNat, pos.qPos.toNat⟩, ?_, ?_⟩
  · rw [storageCell, computed, ok_bind]
  obtain ⟨block, stored, inBlock⟩ := inside some
  cases result with
  | interrupted _ | endOfFile _ | noNode _ _ _ | hole _ _ | faulted _ _ _ _ =>
      simp [ERESTARTSYS, EFAULT] at some
  | copied extra other found _ =>
      rw [found, Option.some.injEq] at stored
      subst stored
      have count : 0 < limitToQuantum dev.quantum pos.qPos
          (clipToSize dev.size position count) := by simpa using some
      have first : pos.qPos.toNat < other.length := by
        have bound := inBlock.2
        omega
      simp only [Cell.value, byteAt, found, Option.getD_some]
      rw [Block.head?_slice other count, List.getElem?_eq_getElem first,
        List.getD_eq_getElem _ _ first]

theorem blockAt_set {nodes : List ScullQset} {index sPos : Nat} {array : PointerArray}
    (inList : index < nodes.length) (inArray : sPos < array.length) (block : List Byte) :
    blockAt (nodes.set index ⟨some (array.set sPos (some block))⟩) index sPos = some block := by
  simp only [blockAt, List.getD_eq_getElem?_getD, List.getElem?_set_self inList, Option.getD_some,
    Option.bind_some, List.getElem?_set_self inArray]

theorem copyIntoQuantum_first {env : Env} {quantum fPos qPos : Int} {dev : ScullDev}
    {data : List Byte} {index sPos : Nat} {array : PointerArray} {block : List Byte}
    {reply : Reply} (inList : index < dev.data.length) (inArray : sPos < array.length)
    (replied : copyIntoQuantum env quantum dev data fPos qPos index array sPos block = .ok reply)
    (some : 0 < reply.ret) :
    data.head? = .some (byteAt reply.dev.data index sPos qPos.toNat) := by
  have within := limitToQuantum_le_count quantum qPos data.length
  simp only [copyIntoQuantum] at replied
  split at replied
  · rename_i inBlock
    split at replied
    · cases replied
      simp [EFAULT] at some
    · rename_i complete
      cases replied
      have count : 0 < limitToQuantum quantum qPos data.length := by simpa using some
      have length : (data.take (limitToQuantum quantum qPos data.length)).length =
          limitToQuantum quantum qPos data.length := by
        rw [List.length_take]
        omega
      have copied : env.copied (data.take (limitToQuantum quantum qPos data.length)) =
          data.take (limitToQuantum quantum qPos data.length) := by
        apply Env.copied_of_no_fault
        rw [length]
        simpa using complete
      have fits : qPos.toNat +
          (data.take (limitToQuantum quantum qPos data.length)).length ≤ block.length := by
        rw [length]
        exact inBlock.2
      have present : 0 < data.length := by omega
      simp only [byteAt, blockAt_set inList inArray, copied, Option.getD_some,
        List.getD_eq_getElem?_getD, Block.getElem?_overwrite fits, length]
      rw [if_pos ⟨le_refl _, by omega⟩, Nat.sub_self, List.getElem?_take_of_lt count,
        List.head?_eq_getElem?, List.getElem?_eq_getElem present, Option.getD_some]
  · contradiction

theorem scullvWrite_cell {env : Env} {dev : ScullDev} {data : List Byte} {position : Nat}
    {reply : Reply} (replied : scullvWrite env dev data position = .ok reply)
    (some : 0 < reply.ret) :
    ∃ cell, storageCell dev position = .ok cell ∧ data.head? = .some (cell.value reply.dev) := by
  rcases scullWriteWith_cases replied with ⟨extra, ret, failed, rfl⟩ |
    ⟨pos, extra, nodes, array, _, computed, bound, here, stored⟩
  · have negative : ret ≤ 0 := by rcases failed with rfl | rfl <;> decide
    exact absurd some negative.not_gt
  refine ⟨⟨findRounds pos.item, pos.sPos.toNat, pos.qPos.toNat⟩, ?_, ?_⟩
  · rw [storageCell, computed, ok_bind]
  have inList : findRounds pos.item < nodes.length := by
    rcases here with ⟨_, rfl⟩ | ⟨_, _, rfl⟩
    · exact bound
    · rwa [List.length_set]
  rcases withArray_cases stored with rfl | ⟨entry, block, entered, _, copied⟩
  · simp [ENOMEM] at some
  · exact copyIntoQuantum_first inList (entryAt_inside entered).1 copied some

theorem scullvStep_read {dev next : ScullDev} {env : Env} {count position : Nat}
    (taken : scullvStep dev (.read env count position) = some next) :
    ∃ extra, next = { dev with data := grow dev.data extra } := by
  simp only [scullvStep] at taken
  split at taken
  · rename_i reply replied
    obtain ⟨extra, device⟩ := scullRead_device replied
    rw [Option.some.injEq] at taken
    exact ⟨extra, taken.symm.trans device⟩
  · contradiction

theorem scullvStep_write {dev next : ScullDev} {env : Env} {data : List Byte} {position : Nat}
    (taken : scullvStep dev (.write env data position) = some next) :
    ∃ reply, scullvWrite env dev data position = .ok reply ∧ next = reply.dev := by
  simp only [scullvStep] at taken
  split at taken
  · rename_i reply replied
    rw [Option.some.injEq] at taken
    exact ⟨reply, replied, taken.symm⟩
  · contradiction

theorem scullvStep_geometry {dev next : ScullDev} {call : ScullvCall}
    (sized : ArraysSized dev.qset.toNat dev.data) (taken : scullvStep dev call = some next) :
    ArraysSized next.qset.toNat next.data ∧ next.quantum = dev.quantum ∧ next.qset = dev.qset := by
  cases call with
  | read env count position =>
      obtain ⟨extra, rfl⟩ := scullvStep_read taken
      exact ⟨arraysSized_grow sized extra, rfl, rfl⟩
  | write env data position =>
      obtain ⟨reply, replied, rfl⟩ := scullvStep_write taken
      obtain ⟨arrays, qsetSame, quantumSame⟩ := scullWriteWith_arrays sized replied
      rw [qsetSame, quantumSame]
      exact ⟨arrays, rfl, rfl⟩

theorem reachable_geometry {geometry : Geometry} {dev : ScullDev}
    (reached : StepMachine.Reachable scullvStep (.fresh geometry) dev) :
    ArraysSized dev.qset.toNat dev.data ∧ dev.quantum = geometry.quantum ∧
      dev.qset = geometry.qset := by
  let invariant (dev : ScullDev) := ArraysSized dev.qset.toNat dev.data ∧
    dev.quantum = geometry.quantum ∧ dev.qset = geometry.qset
  have initial : invariant (.fresh geometry) := by
    refine ⟨?_, rfl, rfl⟩
    intro node member
    simp [ScullDev.fresh] at member
  apply StepMachine.reachable_invariant _ initial reached
  rintro dev call next ⟨sized, quantumSame, qsetSame⟩ taken
  obtain ⟨nextSized, quantumKept, qsetKept⟩ := scullvStep_geometry sized taken
  exact ⟨nextSized, quantumKept.trans quantumSame, qsetKept.trans qsetSame⟩

/-- The page that a fault installs shows, at a file offset, the cell of reads and writes
there exactly when the two address computations agree on it. -/
theorem noPageFault_cell_iff {geometry : Geometry} (positive : geometry.Positive)
    {dev : ScullDev} (reached : StepMachine.Reachable scullvStep (.fresh geometry) dev)
    {vma : Vma} {address position node index : Nat} (mapped : vma.start ≤ address)
    (samePage : fileOffset vma address / pageSize = position / pageSize)
    (small : position < 4294967296)
    (installed : noPageFault dev vma address = .ok (.installed node index)) :
    storageCell dev position = .ok ⟨node, index, position % pageSize⟩ ↔
      PathsAgree dev.quantum.toNat dev.qset.toNat position := by
  obtain ⟨_, quantumSame, qsetSame⟩ := reachable_geometry reached
  have quantumPositive : 0 < dev.quantum := quantumSame ▸ positive.quantum
  have qsetPositive : 0 < dev.qset := qsetSame ▸ positive.qset
  have qsetFits : CInt.FitsInt dev.qset := qsetSame ▸ positive.qsetFits
  have smallPage : fileOffset vma address < 4294967296 := by
    simp only [pageSize] at samePage
    omega
  obtain ⟨nodeSame, indexSame⟩ :=
    noPageFault_installed qsetPositive qsetFits mapped smallPage installed
  rw [samePage] at nodeSame indexSame
  have quantumNat : dev.quantum = dev.quantum.toNat := by omega
  have qsetNat : dev.qset = dev.qset.toNat := by omega
  simp only [PathsAgree]
  split
  · rename_i fits
    rw [storageCell_nat quantumNat qsetNat (by omega) (by omega) fits.1 fits.2,
      ← pathsAgree_closed (by omega) (by omega), nodeSame, indexSame, Except.ok.injEq,
      Cell.mk.injEq, and_assoc]
  · rw [storageCell_wrapped quantumNat qsetNat (by omega) (by omega), nodeSame, indexSame]
    exact pathsAgree_wrapped _ _ (by omega) small

/-! One byte written to a device that has nothing yet. -/

theorem scullWriteWith_fresh {allocQuantum : Env → Nat → Except Oops (Option (List Byte))}
    {geometry : Geometry} {block : List Byte} {position item : Int} {slot byte index used : Nat}
    {nodes : List ScullQset} (room : byte < block.length)
    (allocated : ∀ used, allocQuantum (.good fun _ => 0) used = .ok (some block))
    (calculated : calculatePositions geometry.quantum geometry.qset position =
      .ok ⟨item, slot, byte⟩)
    (found : scullFindItem (fun _ => true) [] item = ⟨nodes, some index, used⟩)
    (made : nodes.getD index .empty = .empty) (inArray : slot < geometry.qset.toNat)
    (limit : limitToQuantum geometry.quantum byte 1 = 1) :
    scullWriteWith allocQuantum (.good fun _ => 0) geometry.quantum geometry.qset
        (.fresh geometry) [7] position = .ok
      ⟨{ data := nodes.set index ⟨some ((List.replicate geometry.qset.toNat none).set slot
            (some (Block.overwrite block byte [7])))⟩
         quantum := geometry.quantum, qset := geometry.qset
         size := CInt.uint64 (CInt.int64 (position + 1)) },
        CInt.int64 (position + 1), 1, []⟩ := by
  have nonneg : 0 ≤ geometry.qset := by omega
  simp only [Env.good] at allocated
  simp only [scullWriteWith, ScullDev.fresh, Env.good, calculated, ok_bind, found, made]
  simp [scullWriteWith.withArray, entryAt, allocated, copyIntoQuantum, limit, InBlock, room,
    Env.copied, Env.faults, ScullQset.empty, inArray, nonneg]

theorem scullvStep_fresh (geometry : Geometry) (position : Nat) {item : Int}
    {slot byte index used : Nat} {nodes : List ScullQset}
    (room : byte < pageSize <<< scullvOrder)
    (calculated : calculatePositions geometry.quantum geometry.qset position =
      .ok ⟨item, slot, byte⟩)
    (found : scullFindItem (fun _ => true) [] item = ⟨nodes, some index, used⟩)
    (made : nodes.getD index .empty = .empty) (inArray : slot < geometry.qset.toNat)
    (limit : limitToQuantum geometry.quantum byte 1 = 1) :
    ∃ block, scullvStep (.fresh geometry) (.write (.good fun _ => 0) [7] position) = some
      { data := nodes.set index
          ⟨some ((List.replicate geometry.qset.toNat none).set slot (some block))⟩
        quantum := geometry.quantum, qset := geometry.qset
        size := CInt.uint64 (CInt.int64 (position + 1)) } := by
  have zeroed : ∃ block : List Byte, byte < block.length ∧
      ∀ used, scullvAllocQuantum scullvOrder (.good fun _ => 0) used = .ok (some block) := by
    refine ⟨List.replicate (pageSize <<< scullvOrder) 0, ?_, ?_⟩
    · rwa [List.length_replicate]
    · simp only [scullvAllocQuantum, Env.good, ↓reduceIte, implies_true]
  obtain ⟨block, inBlock, allocated⟩ := zeroed
  have written := scullWriteWith_fresh inBlock allocated calculated found made inArray limit
  have replied : scullvWrite (.good fun _ => 0) (.fresh geometry) [7] position = _ := written
  refine ⟨Block.overwrite block byte [7], ?_⟩
  rw [scullvStep, replied]

theorem noPageFault_slot {dev : ScullDev} {vma : Vma} {address offset node index : Nat}
    {array : PointerArray} {block : List Byte}
    (computed : CInt.uint32 ((address : Int) - vma.start + vma.pgoff * pageSize) = offset)
    (inside : ¬ dev.size ≤ offset)
    (walked : faultWalk (CInt.uint32 dev.qset) dev.data (offset / pageSize) = ⟨node, index⟩)
    (found : dev.data[node]? = some ⟨some array⟩)
    (slot : entryAt array index = .ok (some block)) :
    noPageFault dev vma address = .ok (.installed node index) := by
  simp only [noPageFault, computed, inside, walked, found, slot, ↓reduceIte]

theorem entryAt_stored {count slot : Nat} (inside : slot < count) (block : List Byte) :
    entryAt ((List.replicate count none).set slot (some block)) slot = .ok (some block) := by
  rw [entryAt_ok _ (Int.natCast_nonneg slot) (by simpa using inside), Int.toNat_natCast]
  simp [inside]

/-- One byte written far into a device with the default geometry, at the start of the third
quantum set; its node is the second of the list. -/
def farWrite : ScullvCall := .write (.good fun _ => 0) [7] 8192000

def oneQuantumDev (before : List ScullQset) (slot : Nat) (block : List Byte) (size : Nat) :
    ScullDev :=
  { data := before ++ [⟨some ((List.replicate 1000 none).set slot (some block))⟩]
    quantum := 4096, qset := 1000, size := size }

theorem noPageFault_cell_iff_nearWrite :
    ∃ dev, StepMachine.run scullvStep (.fresh ⟨4096, 1000⟩)
        [.write (.good fun _ => 0) [7] 4100] = some dev ∧
      noPageFault dev ⟨0, 0⟩ 4096 = .ok (.installed 0 1) ∧
      storageCell dev 4100 = .ok ⟨0, 1, 4100 % pageSize⟩ := by
  obtain ⟨block, stepped⟩ : ∃ block, scullvStep (.fresh ⟨4096, 1000⟩)
      (.write (.good fun _ => 0) [7] 4100) = some (oneQuantumDev [] 1 block 4101) :=
    scullvStep_fresh ⟨4096, 1000⟩ 4100 (by decide)
      (by decide : _ = Except.ok (Position.mk 0 (1 : Nat) (4 : Nat)))
      (by decide : _ = Found.mk [.empty] (some 0) 1) rfl (by decide) (by decide)
  have ran := StepMachine.run_cons_some stepped (StepMachine.run_nil _)
  have installed : noPageFault (oneQuantumDev [] 1 block 4101) ⟨0, 0⟩ 4096 =
      .ok (.installed 0 1) :=
    noPageFault_slot (by decide : _ = 4096) (by decide : ¬ 4101 ≤ 4096) rfl rfl
      (entryAt_stored (by decide : 1 < 1000) block)
  have agrees := noPageFault_cell_iff (by decide) ⟨_, ran⟩ (by decide)
    (by decide : fileOffset ⟨0, 0⟩ 4096 / pageSize = 4100 / pageSize) (by decide) installed
  exact ⟨_, ran, installed, agrees.mpr (by decide : PathsAgree 4096 1000 4100)⟩

theorem noPageFault_shows_other_cell :
    ∃ dev, StepMachine.run scullvStep (.fresh ⟨4096, 1000⟩) [farWrite] = some dev ∧
      4096000 < dev.size ∧ noPageFault dev ⟨0, 0⟩ 4096000 = .ok (.installed 1 0) ∧
      storageCell dev 4096000 = .ok ⟨0, 0, 0⟩ := by
  obtain ⟨block, stepped⟩ : ∃ block, scullvStep (.fresh ⟨4096, 1000⟩) farWrite =
      some (oneQuantumDev [.empty] 0 block 8192001) :=
    scullvStep_fresh ⟨4096, 1000⟩ 8192000 (by decide)
      (by decide : _ = Except.ok (Position.mk 2 (0 : Nat) (0 : Nat)))
      (by decide : _ = Found.mk [.empty, .empty] (some 1) 2) rfl (by decide) (by decide)
  have installed : noPageFault (oneQuantumDev [.empty] 0 block 8192001) ⟨0, 0⟩ 4096000 =
      .ok (.installed 1 0) :=
    noPageFault_slot (by decide : _ = 4096000) (by decide : ¬ 8192001 ≤ 4096000) rfl rfl
      (entryAt_stored (by decide : 0 < 1000) block)
  have stored : storageCell (oneQuantumDev [.empty] 0 block 8192001) 4096000 =
      .ok ⟨0, 0, 0⟩ := rfl
  exact ⟨_, StepMachine.run_cons_some stepped (StepMachine.run_nil _),
    (by decide : 4096000 < 8192001), installed, stored⟩

end Ldd3.Scullv
