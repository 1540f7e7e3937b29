import Mathlib.Tactic
import Mathlib.Order.Interval.Finset.Nat
import Ldd3.Edu.Stream

/-!
The scatterlist of `do_sg_dma`: the page count from masked 64-bit addresses, and
the loop that fills the entries, against the pages that the user range touches.
-/

namespace Ldd3.Edu

def PAGE_SHIFT : Nat := 12

def PAGE_MASK : BitVec 64 := ~~~4095#64

/-- `struct edu_stream_desc` in the widths of the ioctl; `dir` is not used here. -/
structure EduStreamDesc where
  userAddr : BitVec 64
  length : BitVec 32
  deriving DecidableEq, Repr

namespace EduStreamDesc

def firstPage (desc : EduStreamDesc) : BitVec 64 := desc.userAddr &&& PAGE_MASK

def offset (desc : EduStreamDesc) : BitVec 64 := desc.userAddr &&& ~~~PAGE_MASK

def lastPage (desc : EduStreamDesc) : BitVec 64 :=
  (desc.userAddr + desc.length.zeroExtend 64 - 1) &&& PAGE_MASK

def nrPages (desc : EduStreamDesc) : BitVec 64 :=
  (desc.lastPage - desc.firstPage) >>> PAGE_SHIFT + 1

/-- The loop of `sg_set_page`, over the pages that were pinned from the first one on. -/
def scatterlist (desc : EduStreamDesc) (pinned : Nat) : List SgEntry × Nat :=
  buildSg pinned (desc.firstPage.toNat / PAGE_SIZE) desc.offset.toNat desc.length.toNat

end EduStreamDesc

/-! Masks. -/

theorem unmasked_toNat (value : BitVec 64) :
    (value &&& ~~~PAGE_MASK).toNat = value.toNat % PAGE_SIZE := by
  have mask : ~~~PAGE_MASK = 4095#64 := by decide
  rw [mask, BitVec.toNat_and]
  exact Nat.and_two_pow_sub_one_eq_mod value.toNat 12

theorem masked_add (value mask : BitVec 64) :
    (value &&& mask) + (value &&& ~~~mask) = value := by
  have disjoint : (value &&& mask) &&& (value &&& ~~~mask) = 0#64 := by
    ext index bound
    simp only [BitVec.getElem_and, BitVec.getElem_not, BitVec.getElem_zero]
    cases value[index] <;> cases mask[index] <;> rfl
  rw [BitVec.add_eq_or_of_and_eq_zero _ _ disjoint]
  ext index bound
  simp only [BitVec.getElem_and, BitVec.getElem_not, BitVec.getElem_or]
  cases value[index] <;> cases mask[index] <;> rfl

theorem masked_toNat (value : BitVec 64) :
    (value &&& PAGE_MASK).toNat = value.toNat / PAGE_SIZE * PAGE_SIZE := by
  have sum := congrArg BitVec.toNat (masked_add value PAGE_MASK)
  have valueBound := value.isLt
  have maskedBound := (value &&& PAGE_MASK).isLt
  rw [BitVec.toNat_add, unmasked_toNat] at sum
  simp only [PAGE_SIZE] at sum ⊢
  omega

/-! The range. -/

namespace EduStreamDesc

def start (desc : EduStreamDesc) : Nat := desc.userAddr.toNat

def stop (desc : EduStreamDesc) : Nat := desc.userAddr.toNat + desc.length.toNat

structure InSpace (desc : EduStreamDesc) : Prop where
  some : 0 < desc.length.toNat
  top : desc.start + desc.length.toNat ≤ 18446744073709551616

variable {desc : EduStreamDesc}

theorem InSpace.lastByte (inSpace : desc.InSpace) :
    (desc.userAddr + desc.length.zeroExtend 64 - 1).toNat = desc.stop - 1 := by
  obtain ⟨some, top⟩ := inSpace
  have lengthBound := desc.length.isLt
  have extended : (desc.length.zeroExtend 64).toNat = desc.length.toNat := by
    rw [BitVec.toNat_setWidth, Nat.mod_eq_of_lt (by omega)]
  have one : (1 : BitVec 64).toNat = 1 := rfl
  rw [BitVec.toNat_sub, BitVec.toNat_add, extended, one]
  simp only [start, stop] at top ⊢
  omega

theorem InSpace.nrPages_eq (inSpace : desc.InSpace) :
    desc.nrPages.toNat = (desc.stop - 1) / PAGE_SIZE - desc.start / PAGE_SIZE + 1 := by
  have last : desc.lastPage.toNat = (desc.stop - 1) / PAGE_SIZE * PAGE_SIZE := by
    rw [lastPage, masked_toNat, inSpace.lastByte]
  have first : desc.firstPage.toNat = desc.start / PAGE_SIZE * PAGE_SIZE := by
    rw [firstPage, masked_toNat, start]
  obtain ⟨some, top⟩ := inSpace
  have one : (1 : BitVec 64).toNat = 1 := rfl
  rw [nrPages, BitVec.toNat_add, BitVec.toNat_ushiftRight, BitVec.toNat_sub, last, first, one,
    Nat.shiftRight_eq_div_pow]
  simp only [start, stop, PAGE_SIZE, PAGE_SHIFT] at top ⊢
  omega

def stream (desc : EduStreamDesc) (dir : Int) : StreamDesc := ⟨desc.start, desc.length.toNat, dir⟩

theorem InSpace.stream_nrPages (inSpace : desc.InSpace) (dir : Int) :
    (desc.stream dir).nrPages = desc.nrPages.toNat :=
  inSpace.nrPages_eq.symm

theorem stream_scatterlist (desc : EduStreamDesc) (dir : Int) (pinned : Nat) :
    buildSg pinned (desc.stream dir).firstPage (desc.stream dir).offset (desc.stream dir).length =
      desc.scatterlist pinned := by
  rw [scatterlist, firstPage, offset, masked_toNat, unmasked_toNat,
    Nat.mul_div_cancel _ (by decide)]
  rfl

end EduStreamDesc

/-! The loop. -/

def pagePart (start stop page : Nat) : SgEntry where
  page := page
  len := min stop ((page + 1) * PAGE_SIZE) - max start (page * PAGE_SIZE)
  offset := max start (page * PAGE_SIZE) - page * PAGE_SIZE

def SgEntry.userAddr (entry : SgEntry) : Nat := entry.page * PAGE_SIZE + entry.offset

def touchedPages (start stop : Nat) : List Nat :=
  List.range' (start / PAGE_SIZE) ((stop - 1) / PAGE_SIZE - start / PAGE_SIZE + 1)

theorem touchedPages_last {start stop : Nat} (within : stop ≤ (start / PAGE_SIZE + 1) * PAGE_SIZE)
    (some : start < stop) : touchedPages start stop = [start / PAGE_SIZE] := by
  have count : (stop - 1) / PAGE_SIZE - start / PAGE_SIZE = 0 := by
    simp only [PAGE_SIZE] at within ⊢
    omega
  rw [touchedPages, count]
  rfl

theorem touchedPages_next {start stop : Nat} (past : (start / PAGE_SIZE + 1) * PAGE_SIZE < stop) :
    touchedPages start stop =
      start / PAGE_SIZE :: touchedPages ((start / PAGE_SIZE + 1) * PAGE_SIZE) stop := by
  have next : (start / PAGE_SIZE + 1) * PAGE_SIZE / PAGE_SIZE = start / PAGE_SIZE + 1 :=
    Nat.mul_div_cancel _ (by decide)
  have count : (stop - 1) / PAGE_SIZE - start / PAGE_SIZE =
      (stop - 1) / PAGE_SIZE - (start / PAGE_SIZE + 1) + 1 := by
    simp only [PAGE_SIZE] at past ⊢
    omega
  rw [touchedPages, touchedPages, next, count, List.range'_succ]

theorem buildSg_eq {stop : Nat} (pages : Nat) {start : Nat} (some : start < stop)
    (enough : (stop - 1) / PAGE_SIZE - start / PAGE_SIZE < pages) :
    buildSg pages (start / PAGE_SIZE) (start % PAGE_SIZE) (stop - start) =
      ((touchedPages start stop).map (pagePart start stop), 0) := by
  induction pages generalizing start with
  | zero => omega
  | succ pages ih =>
      have first : pagePart start stop (start / PAGE_SIZE) =
          ⟨start / PAGE_SIZE, min (PAGE_SIZE - start % PAGE_SIZE) (stop - start),
            start % PAGE_SIZE⟩ := by
        simp only [pagePart, SgEntry.mk.injEq, true_and, PAGE_SIZE]
        omega
      rw [buildSg, if_neg (by omega)]
      simp only [← first]
      by_cases within : stop ≤ (start / PAGE_SIZE + 1) * PAGE_SIZE
      · have whole : stop - start - min (PAGE_SIZE - start % PAGE_SIZE) (stop - start) = 0 := by
          simp only [PAGE_SIZE] at within ⊢
          omega
        have ended : buildSg pages (start / PAGE_SIZE + 1) 0 0 = ([], 0) := by
          cases pages with
          | zero => rfl
          | succ pages => rfl
        rw [whole, ended, touchedPages_last within some]
        rfl
      · have past : (start / PAGE_SIZE + 1) * PAGE_SIZE < stop := by omega
        have rest : stop - start - min (PAGE_SIZE - start % PAGE_SIZE) (stop - start) =
            stop - (start / PAGE_SIZE + 1) * PAGE_SIZE := by
          simp only [PAGE_SIZE] at past ⊢
          omega
        have aligned : (start / PAGE_SIZE + 1) * PAGE_SIZE % PAGE_SIZE = 0 := Nat.mul_mod_left _ _
        have next : (start / PAGE_SIZE + 1) * PAGE_SIZE / PAGE_SIZE = start / PAGE_SIZE + 1 :=
          Nat.mul_div_cancel _ (by decide)
        have fewer : (stop - 1) / PAGE_SIZE -
            (start / PAGE_SIZE + 1) * PAGE_SIZE / PAGE_SIZE < pages := by
          simp only [PAGE_SIZE] at past enough ⊢
          omega
        have built := ih past fewer
        rw [aligned, next] at built
        rw [rest, built, touchedPages_next past, List.map_cons]
        have later : (touchedPages ((start / PAGE_SIZE + 1) * PAGE_SIZE) stop).map
              (pagePart ((start / PAGE_SIZE + 1) * PAGE_SIZE) stop) =
            (touchedPages ((start / PAGE_SIZE + 1) * PAGE_SIZE) stop).map (pagePart start stop) := by
          apply List.map_congr_left
          intro page member
          rw [touchedPages, next, List.mem_range'_1] at member
          simp only [pagePart, SgEntry.mk.injEq, true_and, PAGE_SIZE] at member ⊢
          omega
        rw [later]

theorem buildSg_sum (pages page offset remaining : Nat) :
    ((buildSg pages page offset remaining).1.map SgEntry.len).sum +
      (buildSg pages page offset remaining).2 = remaining := by
  induction pages generalizing page offset remaining with
  | zero => simp [buildSg]
  | succ pages ih =>
      rw [buildSg]
      split
      · rename_i consumed
        exact consumed.symm
      · have rest := ih (page + 1) 0 (remaining - min (PAGE_SIZE - offset) remaining)
        simp only [List.map_cons, List.sum_cons]
        omega

theorem touched_card {start stop : Nat} (some : start < stop) :
    ((Finset.Ico start stop).image (· / PAGE_SIZE)).card =
      (stop - 1) / PAGE_SIZE - start / PAGE_SIZE + 1 := by
  have pages : (Finset.Ico start stop).image (· / PAGE_SIZE) =
      Finset.Icc (start / PAGE_SIZE) ((stop - 1) / PAGE_SIZE) := by
    ext page
    simp only [Finset.mem_image, Finset.mem_Ico, Finset.mem_Icc]
    constructor
    · rintro ⟨addr, ⟨lower, upper⟩, rfl⟩
      exact ⟨Nat.div_le_div_right lower, Nat.div_le_div_right (by omega)⟩
    · rintro ⟨lower, upper⟩
      refine ⟨max start (page * PAGE_SIZE), ⟨by omega, ?_⟩, ?_⟩
      all_goals
        simp only [PAGE_SIZE] at lower upper ⊢
        omega
  have ordered : start / PAGE_SIZE ≤ (stop - 1) / PAGE_SIZE := Nat.div_le_div_right (by omega)
  rw [pages, Nat.card_Icc]
  omega

structure Tiles (desc : EduStreamDesc) (entries : List SgEntry) (remaining : Nat) : Prop where
  nrPages : desc.nrPages.toNat = ((Finset.Ico desc.start desc.stop).image (· / PAGE_SIZE)).card
  filled : entries.length = desc.nrPages.toNat
  page : ∀ index (_ : index < entries.length),
    entries[index].page = desc.start / PAGE_SIZE + index
  inPage : ∀ entry ∈ entries, 0 < entry.len ∧ entry.offset + entry.len ≤ PAGE_SIZE
  first : ∀ (_ : 0 < entries.length), entries[0].userAddr = desc.start
  adjacent : ∀ index (_ : index + 1 < entries.length),
    entries[index].userAddr + entries[index].len = entries[index + 1].userAddr
  sum : (entries.map SgEntry.len).sum = desc.length.toNat
  consumed : remaining = 0

namespace EduStreamDesc

variable {desc : EduStreamDesc}

theorem scatterlist_eq (inSpace : desc.InSpace) {pinned : Nat} (all : desc.nrPages.toNat ≤ pinned) :
    desc.scatterlist pinned =
      ((touchedPages desc.start desc.stop).map (pagePart desc.start desc.stop), 0) := by
  rw [inSpace.nrPages_eq] at all
  have some : desc.start < desc.stop := by
    have := inSpace.some
    simp only [start, stop]
    omega
  have length : desc.length.toNat = desc.stop - desc.start := by
    simp only [start, stop]
    omega
  rw [scatterlist, firstPage, offset, masked_toNat, unmasked_toNat, length,
    Nat.mul_div_cancel _ (by decide), ← start]
  exact buildSg_eq pinned some (by omega)

/-- Once all pages are pinned, the scatterlist tiles the user range and the loop has used up
the length. -/
theorem scatterlist_tiles (inSpace : desc.InSpace) {pinned : Nat}
    (all : desc.nrPages.toNat ≤ pinned) :
    Tiles desc (desc.scatterlist pinned).1 (desc.scatterlist pinned).2 := by
  have sum := buildSg_sum pinned (desc.firstPage.toNat / PAGE_SIZE) desc.offset.toNat
    desc.length.toNat
  have nrPages := inSpace.nrPages_eq
  have some : desc.start < desc.stop := by
    have := inSpace.some
    simp only [start, stop]
    omega
  rw [← scatterlist] at sum
  rw [scatterlist_eq inSpace all] at sum ⊢
  simp only [Nat.add_zero] at sum ⊢
  have count : ((touchedPages desc.start desc.stop).map (pagePart desc.start desc.stop)).length =
      desc.nrPages.toNat := by
    rw [List.length_map, touchedPages, List.length_range', nrPages]
  have entry (index : Nat) (inside : index <
      ((touchedPages desc.start desc.stop).map (pagePart desc.start desc.stop)).length) :
      ((touchedPages desc.start desc.stop).map (pagePart desc.start desc.stop))[index] =
        pagePart desc.start desc.stop (desc.start / PAGE_SIZE + index) := by
    simp only [touchedPages, List.getElem_map, List.getElem_range', Nat.one_mul]
  refine ⟨nrPages.trans (touched_card some).symm, count, ?_, ?_, ?_, ?_, sum, rfl⟩
  · intro index inside
    rw [entry index inside]
    rfl
  · intro entry member
    obtain ⟨page, touched, rfl⟩ := List.mem_map.mp member
    rw [touchedPages, List.mem_range'_1] at touched
    simp only [pagePart, PAGE_SIZE] at touched ⊢
    omega
  · intro inside
    rw [entry 0 inside]
    simp only [SgEntry.userAddr, pagePart, PAGE_SIZE]
    omega
  · intro index inside
    rw [entry index (by omega), entry (index + 1) inside]
    rw [count, nrPages] at inside
    simp only [SgEntry.userAddr, pagePart, PAGE_SIZE] at inside ⊢
    omega

theorem scatterlist_tiles_twoPages :
    EduStreamDesc.InSpace ⟨8191, 4097⟩ ∧
      Tiles ⟨8191, 4097⟩ (EduStreamDesc.scatterlist ⟨8191, 4097⟩ 2).1
        (EduStreamDesc.scatterlist ⟨8191, 4097⟩ 2).2 := by
  have inSpace : EduStreamDesc.InSpace ⟨8191, 4097⟩ := ⟨by decide, by decide⟩
  exact ⟨inSpace, scatterlist_tiles inSpace (by decide)⟩

end EduStreamDesc

end Ldd3.Edu
