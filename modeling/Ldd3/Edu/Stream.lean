import Mathlib.Tactic
import Ldd3.Edu.Core

/-!
`EDU_IOC_STREAM_DMA` (`do_sg_dma` of `ch15_mmap_dma/main.c`): one DMA for each segment of
a user buffer, all of them from or to the start of the one device buffer.
-/

namespace Ldd3.Edu

def PAGE_SIZE : Nat := 4096

structure StreamDesc where
  userAddr : Nat
  length : Nat
  dir : Int
  deriving DecidableEq, Repr

def StreamDesc.firstPage (desc : StreamDesc) : Nat := desc.userAddr / PAGE_SIZE

def StreamDesc.offset (desc : StreamDesc) : Nat := desc.userAddr % PAGE_SIZE

def StreamDesc.nrPages (desc : StreamDesc) : Nat :=
  (desc.userAddr + desc.length - 1) / PAGE_SIZE - desc.firstPage + 1

structure SgEntry where
  page : Nat
  len : Nat
  offset : Nat
  deriving DecidableEq, Repr

/-- The loop of `sg_set_page`, for the pages that are left: the entries, and what of the
length remains. -/
def buildSg : (pages page offset remaining : Nat) → List SgEntry × Nat
  | 0, _, _, remaining => ([], remaining)
  | pages + 1, page, offset, remaining =>
      if remaining = 0 then ([], 0)
      else
        let len := min (PAGE_SIZE - offset) remaining
        let built := buildSg pages (page + 1) 0 (remaining - len)
        (⟨page, len, offset⟩ :: built.1, built.2)

def dmaSegments (interruptsEnabled : Bool) (dir : Int) : Memory → List (Nat × Nat) → Int × Memory
  | memory, [] => (0, memory)
  | memory, (dmaAddr, len) :: rest =>
      let done := eduDmaTransfers interruptsEnabled memory ⟨dmaAddr, dir, len⟩
      if done.1 ≠ 0 then done else dmaSegments interruptsEnabled dir done.2 rest

/-- What the rest of the kernel answers: the allocations, how many pages are pinned, and
the segments that `dma_map_sg` makes of the scatterlist. -/
structure StreamEnv where
  pagesAlloc : Bool
  pinFast : Int
  pinSlow : Int
  sgAlloc : Bool
  mapSg : List SgEntry → List (Nat × Nat)

def doSgDma (env : StreamEnv) (interruptsEnabled : Bool) (memory : Memory) (desc : StreamDesc) :
    Int × Memory :=
  if !env.pagesAlloc then (-ENOMEM, memory)
  else
    let pinned := if env.pinFast = desc.nrPages then env.pinFast else env.pinSlow
    if pinned < 0 then (pinned, memory)
    else if pinned < desc.nrPages then (-EFAULT, memory)
    else if !env.sgAlloc then (-ENOMEM, memory)
    else
      let sg := buildSg pinned.toNat desc.firstPage desc.offset desc.length
      if sg.2 ≠ 0 then (-EFAULT, memory)
      else if (env.mapSg sg.1).isEmpty then (-ENOMEM, memory)
      else dmaSegments interruptsEnabled desc.dir memory (env.mapSg sg.1)

/-- The page frames of a buffer, below `DMA_BIT_MASK(28)`; two pages may be the same frame. -/
structure UserPages (desc : StreamDesc) where
  pfn : Nat → Nat
  masked : ∀ page < desc.nrPages, pfn (desc.firstPage + page) < 65536

variable {desc : StreamDesc}

/-- Where a page is on the bus. -/
def UserPages.frame (pages : UserPages desc) (page : Nat) : Nat := PAGE_SIZE * pages.pfn page

theorem UserPages.frame_masked (pages : UserPages desc) {page : Nat} (inside : page < desc.nrPages) :
    pages.frame (desc.firstPage + page) + PAGE_SIZE ≤ 268435456 := by
  have masked := pages.masked page inside
  simp only [UserPages.frame, PAGE_SIZE]
  omega

theorem UserPages.frames (pages : UserPages desc) (page other : Nat) :
    pages.frame page = pages.frame other ∨ pages.frame page + PAGE_SIZE ≤ pages.frame other ∨
      pages.frame other + PAGE_SIZE ≤ pages.frame page := by
  simp only [UserPages.frame, PAGE_SIZE]
  omega

def UserPages.env (pages : UserPages desc) : StreamEnv where
  pagesAlloc := true
  pinFast := desc.nrPages
  pinSlow := desc.nrPages
  sgAlloc := true
  mapSg := fun sg => sg.map fun entry => (pages.frame entry.page + entry.offset, entry.len)

def UserPages.busAddr (pages : UserPages desc) (index : Nat) : Nat :=
  pages.frame ((desc.userAddr + index) / PAGE_SIZE) + (desc.userAddr + index) % PAGE_SIZE

def UserPages.byte (pages : UserPages desc) (memory : Memory) (index : Nat) : Byte :=
  memory.ram (pages.busAddr index)

def StreamDesc.inFirst (desc : StreamDesc) : Nat := min (PAGE_SIZE - desc.offset) desc.length

def UserPages.Mirrors (pages : UserPages desc) (memory : Memory) : Prop :=
  ∀ index < desc.length, pages.byte memory index = memory.dev index

/-- What the second page's DMA, which starts at the device's byte 0 again, has to meet:
nothing when there is none, else bytes that happen to be those of the right place. -/
def UserPages.Coincides (pages : UserPages desc) (memory : Memory) : Prop :=
  if desc.dir = EDU_DMA_DIR_DEV_TO_RAM then
    ∀ index < desc.length - desc.inFirst, memory.dev index = memory.dev (desc.inFirst + index)
  else
    (∀ index < desc.length - desc.inFirst,
        pages.byte memory (desc.inFirst + index) = pages.byte memory index) ∧
      ∀ index < desc.length, desc.inFirst ≤ index → desc.length - desc.inFirst ≤ index →
        memory.dev index = pages.byte memory index

theorem busAddr_inFirst (pages : UserPages desc) {index : Nat} (inside : index < desc.inFirst) :
    pages.busAddr index = pages.frame desc.firstPage + desc.offset + index := by
  simp only [StreamDesc.inFirst, StreamDesc.offset, PAGE_SIZE] at inside
  have page : (desc.userAddr + index) / PAGE_SIZE = desc.firstPage := by
    simp only [StreamDesc.firstPage, PAGE_SIZE]
    omega
  have offset : (desc.userAddr + index) % PAGE_SIZE = desc.offset + index := by
    simp only [StreamDesc.offset, PAGE_SIZE]
    omega
  rw [UserPages.busAddr, page, offset, Nat.add_assoc]

theorem busAddr_inSecond (pages : UserPages desc) (fits : desc.length ≤ DMA_BUF_SIZE) {index : Nat}
    (inside : index < desc.length - desc.inFirst) :
    pages.busAddr (desc.inFirst + index) = pages.frame (desc.firstPage + 1) + index := by
  simp only [StreamDesc.inFirst, StreamDesc.offset, PAGE_SIZE, DMA_BUF_SIZE] at fits inside
  have page : (desc.userAddr + (desc.inFirst + index)) / PAGE_SIZE = desc.firstPage + 1 := by
    simp only [StreamDesc.inFirst, StreamDesc.offset, StreamDesc.firstPage, PAGE_SIZE]
    omega
  have offset : (desc.userAddr + (desc.inFirst + index)) % PAGE_SIZE = index := by
    simp only [StreamDesc.inFirst, StreamDesc.offset, PAGE_SIZE]
    omega
  rw [UserPages.busAddr, page, offset]

theorem inFirst_le (desc : StreamDesc) : desc.inFirst ≤ desc.length := Nat.min_le_right _ _

theorem nrPages_one {desc : StreamDesc} (some : 0 < desc.length)
    (within : desc.offset + desc.length ≤ PAGE_SIZE) : desc.nrPages = 1 ∧ desc.inFirst = desc.length := by
  simp only [StreamDesc.nrPages, StreamDesc.inFirst, StreamDesc.firstPage, StreamDesc.offset,
    PAGE_SIZE] at within ⊢
  omega

theorem nrPages_two {desc : StreamDesc} (fits : desc.length ≤ DMA_BUF_SIZE)
    (crosses : PAGE_SIZE < desc.offset + desc.length) :
    desc.nrPages = 2 ∧ desc.inFirst = PAGE_SIZE - desc.offset ∧ desc.inFirst < desc.length ∧
      desc.length - desc.inFirst ≤ PAGE_SIZE := by
  simp only [StreamDesc.nrPages, StreamDesc.inFirst, StreamDesc.firstPage, StreamDesc.offset,
    PAGE_SIZE, DMA_BUF_SIZE] at fits crosses ⊢
  omega

theorem doSgDma_segments (pages : UserPages desc) (interruptsEnabled : Bool) (memory : Memory)
    (some : 0 < desc.length) (fits : desc.length ≤ DMA_BUF_SIZE) :
    doSgDma pages.env interruptsEnabled memory desc =
      dmaSegments interruptsEnabled desc.dir memory
        ((pages.frame desc.firstPage + desc.offset, desc.inFirst) ::
          if desc.inFirst = desc.length then []
          else [(pages.frame (desc.firstPage + 1), desc.length - desc.inFirst)]) := by
  by_cases within : desc.offset + desc.length ≤ PAGE_SIZE
  · obtain ⟨one, whole⟩ := nrPages_one some within
    have built : buildSg 1 desc.firstPage desc.offset desc.length =
        ([⟨desc.firstPage, desc.length, desc.offset⟩], 0) := by
      simp only [buildSg, if_neg some.ne', Prod.mk.injEq, List.cons.injEq, SgEntry.mk.injEq, true_and,
        and_true]
      omega
    simp [doSgDma, UserPages.env, one, built, whole]
  · obtain ⟨two, first, more, second⟩ := nrPages_two fits (by omega)
    have built : buildSg 2 desc.firstPage desc.offset desc.length =
        ([⟨desc.firstPage, desc.inFirst, desc.offset⟩,
          ⟨desc.firstPage + 1, desc.length - desc.inFirst, 0⟩], 0) := by
      have left : desc.length - min (PAGE_SIZE - desc.offset) desc.length ≠ 0 := by
        have length : desc.inFirst < desc.length := more
        simp only [StreamDesc.inFirst] at length
        omega
      simp only [buildSg, if_neg some.ne', if_neg left, Prod.mk.injEq, List.cons.injEq, SgEntry.mk.injEq,
        true_and, and_true, Nat.sub_zero, StreamDesc.inFirst]
      simp only [StreamDesc.inFirst] at second
      omega
    simp [doSgDma, UserPages.env, two, built, more.ne]

theorem offset_lt (desc : StreamDesc) : desc.offset < PAGE_SIZE := Nat.mod_lt _ (by decide)

theorem firstAddr_lt (pages : UserPages desc) :
    pages.frame desc.firstPage + desc.offset < 4294967296 := by
  have masked := pages.frame_masked (Nat.succ_pos _ : 0 < desc.nrPages)
  have offset := offset_lt desc
  rw [Nat.add_zero] at masked
  omega

theorem secondAddr_lt (pages : UserPages desc) (fits : desc.length ≤ DMA_BUF_SIZE)
    (crosses : PAGE_SIZE < desc.offset + desc.length) :
    pages.frame (desc.firstPage + 1) < 4294967296 := by
  have two := (nrPages_two fits crosses).1
  have masked := pages.frame_masked (by omega : 1 < desc.nrPages)
  simp only [PAGE_SIZE] at masked
  omega

theorem doSgDma_each (pages : UserPages desc) (interruptsEnabled : Bool) (memory : Memory)
    (some : 0 < desc.length) (fits : desc.length ≤ DMA_BUF_SIZE) (effect : Nat → Nat → Memory → Memory)
    (each : ∀ dmaAddr size memory, size ≤ DMA_BUF_SIZE → dmaAddr < 4294967296 →
      eduDmaTransfers interruptsEnabled memory ⟨dmaAddr, desc.dir, size⟩ = (0, effect dmaAddr size memory))
    (nothing : ∀ dmaAddr memory, effect dmaAddr 0 memory = memory) :
    doSgDma pages.env interruptsEnabled memory desc =
      (0, effect (pages.frame (desc.firstPage + 1)) (desc.length - desc.inFirst)
        (effect (pages.frame desc.firstPage + desc.offset) desc.inFirst memory)) := by
  have first := each _ desc.inFirst memory ((inFirst_le desc).trans fits) (firstAddr_lt pages)
  rw [doSgDma_segments pages interruptsEnabled memory some fits]
  split
  · rename_i whole
    simp only [dmaSegments, first, ne_eq, not_true_eq_false, ↓reduceIte]
    rw [← whole, Nat.sub_self, nothing]
  · rename_i crosses
    have crosses : PAGE_SIZE < desc.offset + desc.length := by
      simp only [StreamDesc.inFirst] at crosses
      omega
    have second := each _ (desc.length - desc.inFirst)
      (effect (pages.frame desc.firstPage + desc.offset) desc.inFirst memory)
      ((Nat.sub_le _ _).trans fits) (secondAddr_lt pages fits crosses)
    simp only [dmaSegments, first, second, ne_eq, not_true_eq_false, ↓reduceIte]

theorem doSgDma_toRam (pages : UserPages desc) (interruptsEnabled : Bool) (memory : Memory)
    (some : 0 < desc.length) (fits : desc.length ≤ DMA_BUF_SIZE)
    (toRam : desc.dir = EDU_DMA_DIR_DEV_TO_RAM) :
    doSgDma pages.env interruptsEnabled memory desc =
      (0, { memory with
        ram := copyBytes (copyBytes memory.ram (pages.frame desc.firstPage + desc.offset) memory.dev 0
          desc.inFirst) (pages.frame (desc.firstPage + 1)) memory.dev 0
            (desc.length - desc.inFirst) }) := by
  apply doSgDma_each pages interruptsEnabled memory some fits fun dmaAddr size memory =>
    { memory with ram := copyBytes memory.ram dmaAddr memory.dev 0 size }
  · intro dmaAddr size memory sized bound
    rw [toRam]
    exact eduDmaTransfers_toRam interruptsEnabled memory sized bound
  · intro dmaAddr memory
    simp only [copyBytes_zero]

theorem doSgDma_toDev (pages : UserPages desc) (interruptsEnabled : Bool) (memory : Memory)
    (some : 0 < desc.length) (fits : desc.length ≤ DMA_BUF_SIZE)
    (toDev : desc.dir = EDU_DMA_DIR_RAM_TO_DEV) :
    doSgDma pages.env interruptsEnabled memory desc =
      (0, { memory with
        dev := copyBytes (copyBytes memory.dev 0 memory.ram (pages.frame desc.firstPage + desc.offset)
          desc.inFirst) 0 memory.ram (pages.frame (desc.firstPage + 1))
            (desc.length - desc.inFirst) }) := by
  apply doSgDma_each pages interruptsEnabled memory some fits fun dmaAddr size memory =>
    { memory with dev := copyBytes memory.dev 0 memory.ram dmaAddr size }
  · intro dmaAddr size memory sized bound
    rw [toDev]
    exact eduDmaTransfers_toDev interruptsEnabled memory sized bound
  · intro dmaAddr memory
    simp only [copyBytes_zero]

theorem index_cases {desc : StreamDesc} {index : Nat} (inside : index < desc.length) :
    index < desc.inFirst ∨ ∃ later < desc.length - desc.inFirst, index = desc.inFirst + later := by
  by_cases first : index < desc.inFirst
  · exact .inl first
  · exact .inr ⟨index - desc.inFirst, by omega, by omega⟩

theorem byte_toRam (pages : UserPages desc) (memory : Memory) (fits : desc.length ≤ DMA_BUF_SIZE)
    {index : Nat} (inside : index < desc.length) :
    pages.byte { memory with
        ram := copyBytes (copyBytes memory.ram (pages.frame desc.firstPage + desc.offset) memory.dev 0
          desc.inFirst) (pages.frame (desc.firstPage + 1)) memory.dev 0
            (desc.length - desc.inFirst) } index =
      if index < desc.inFirst then memory.dev index else memory.dev (index - desc.inFirst) := by
  simp only [UserPages.byte]
  rcases index_cases inside with first | ⟨later, second, rfl⟩
  · have fitsFirst : desc.offset + desc.inFirst ≤ PAGE_SIZE := by
      have offset := offset_lt desc
      simp only [StreamDesc.inFirst]
      omega
    rw [if_pos first, busAddr_inFirst pages first]
    by_cases crosses : PAGE_SIZE < desc.offset + desc.length
    · obtain ⟨_, inFirst, _, within⟩ := nrPages_two fits crosses
      have frames := pages.frames desc.firstPage (desc.firstPage + 1)
      -- in one frame the second segment ends before the first begins
      have before : desc.length - desc.inFirst ≤ desc.offset := by
        simp only [DMA_BUF_SIZE] at fits
        simp only [PAGE_SIZE] at crosses inFirst
        omega
      rw [copyBytes_outside _ _ _ (by omega), copyBytes_inside _ _ _ first, Nat.zero_add]
    · have whole := (nrPages_one (by omega) (Nat.not_lt.mp crosses)).2
      rw [whole, Nat.sub_self, copyBytes_zero, copyBytes_inside _ _ _ (whole ▸ first), Nat.zero_add]
  · rw [if_neg (by omega), busAddr_inSecond pages fits second, copyBytes_inside _ _ _ second,
      Nat.zero_add, Nat.add_sub_cancel_left]

theorem dev_toDev (pages : UserPages desc) (memory : Memory) (fits : desc.length ≤ DMA_BUF_SIZE)
    (index : Nat) :
    copyBytes (copyBytes memory.dev 0 memory.ram (pages.frame desc.firstPage + desc.offset)
        desc.inFirst) 0 memory.ram (pages.frame (desc.firstPage + 1)) (desc.length - desc.inFirst)
          index =
      if index < desc.length - desc.inFirst then pages.byte memory (desc.inFirst + index)
      else if index < desc.inFirst then pages.byte memory index else memory.dev index := by
  simp only [UserPages.byte]
  by_cases second : index < desc.length - desc.inFirst
  · rw [if_pos second, busAddr_inSecond pages fits second]
    rw [← Nat.zero_add index, copyBytes_inside _ _ _ second, Nat.zero_add]
  · rw [if_neg second, copyBytes_outside _ _ _ (by omega)]
    by_cases first : index < desc.inFirst
    · rw [if_pos first, busAddr_inFirst pages first]
      rw [← Nat.zero_add index, copyBytes_inside _ _ _ first, Nat.zero_add]
    · rw [if_neg first, copyBytes_outside _ _ _ (by omega)]

theorem mirrors_toRam_iff (pages : UserPages desc) (interruptsEnabled : Bool) (memory : Memory)
    (some : 0 < desc.length) (fits : desc.length ≤ DMA_BUF_SIZE)
    (toRam : desc.dir = EDU_DMA_DIR_DEV_TO_RAM) :
    pages.Mirrors (doSgDma pages.env interruptsEnabled memory desc).2 ↔ pages.Coincides memory := by
  rw [doSgDma_toRam pages interruptsEnabled memory some fits toRam]
  simp only [UserPages.Mirrors, UserPages.Coincides, if_pos toRam]
  constructor
  · intro mirrors later second
    have same := mirrors (desc.inFirst + later) (by omega)
    rwa [byte_toRam pages memory fits (by omega), if_neg (by omega), Nat.add_sub_cancel_left] at same
  · intro coincides index inside
    rw [byte_toRam pages memory fits inside]
    rcases index_cases inside with first | ⟨later, second, rfl⟩
    · rw [if_pos first]
    · rw [if_neg (by omega), Nat.add_sub_cancel_left]
      exact coincides later second

theorem mirrors_toDev_iff (pages : UserPages desc) (interruptsEnabled : Bool) (memory : Memory)
    (some : 0 < desc.length) (fits : desc.length ≤ DMA_BUF_SIZE)
    (toDev : desc.dir = EDU_DMA_DIR_RAM_TO_DEV) :
    pages.Mirrors (doSgDma pages.env interruptsEnabled memory desc).2 ↔ pages.Coincides memory := by
  have notRam : desc.dir ≠ EDU_DMA_DIR_DEV_TO_RAM := by
    rw [toDev]
    decide
  have dev := dev_toDev pages memory fits
  rw [doSgDma_toDev pages interruptsEnabled memory some fits toDev]
  simp only [UserPages.Mirrors, UserPages.Coincides, if_neg notRam]
  constructor
  · intro mirrors
    constructor
    · intro index second
      have same := mirrors index (by omega)
      rw [dev index, if_pos second] at same
      exact same.symm
    · intro index inside past beyond
      have same := mirrors index inside
      rw [dev index, if_neg (by omega), if_neg (by omega)] at same
      exact same.symm
  · rintro ⟨repeats, kept⟩ index inside
    rw [dev index]
    split
    · rename_i second
      exact (repeats index second).symm
    · split
      · rfl
      · exact (kept index inside (by omega) (by omega)).symm

/-- After a stream DMA the first bytes of the two buffers agree exactly when the second
page's DMA did no harm. -/
theorem doSgDma_mirrors_iff (pages : UserPages desc) (interruptsEnabled : Bool) (memory : Memory)
    (some : 0 < desc.length) (fits : desc.length ≤ DMA_BUF_SIZE)
    (directed : desc.dir = EDU_DMA_DIR_RAM_TO_DEV ∨ desc.dir = EDU_DMA_DIR_DEV_TO_RAM) :
    (doSgDma pages.env interruptsEnabled memory desc).1 = 0 ∧
      (pages.Mirrors (doSgDma pages.env interruptsEnabled memory desc).2 ↔
        pages.Coincides memory) := by
  rcases directed with toDev | toRam
  · refine ⟨?_, mirrors_toDev_iff pages interruptsEnabled memory some fits toDev⟩
    rw [doSgDma_toDev pages interruptsEnabled memory some fits toDev]
  · refine ⟨?_, mirrors_toRam_iff pages interruptsEnabled memory some fits toRam⟩
    rw [doSgDma_toRam pages interruptsEnabled memory some fits toRam]

theorem doSgDma_onePage (pages : UserPages desc) (interruptsEnabled : Bool) (memory : Memory)
    (some : 0 < desc.length) (within : desc.offset + desc.length ≤ PAGE_SIZE)
    (directed : desc.dir = EDU_DMA_DIR_RAM_TO_DEV ∨ desc.dir = EDU_DMA_DIR_DEV_TO_RAM) :
    pages.Mirrors (doSgDma pages.env interruptsEnabled memory desc).2 := by
  have fits : desc.length ≤ DMA_BUF_SIZE := by
    simp only [PAGE_SIZE] at within
    simp only [DMA_BUF_SIZE]
    omega
  have whole := (nrPages_one some within).2
  have harmless : pages.Coincides memory := by
    simp only [UserPages.Coincides, whole, Nat.sub_self]
    split
    · intro index impossible
      omega
    · exact ⟨fun index impossible => by omega, fun index inside past => by omega⟩
  rcases directed with toDev | toRam
  · exact (mirrors_toDev_iff pages interruptsEnabled memory some fits toDev).mpr harmless
  · exact (mirrors_toRam_iff pages interruptsEnabled memory some fits toRam).mpr harmless

/-- Two bytes, the last of one page and the first of the next. -/
def acrossPages (dir : Int) : StreamDesc := { userAddr := 8191, length := 2, dir := dir }

theorem acrossPages_nrPages (dir : Int) : (acrossPages dir).nrPages = 2 := by
  simp only [StreamDesc.nrPages, StreamDesc.firstPage, acrossPages, PAGE_SIZE]

def framesApart (dir : Int) : UserPages (acrossPages dir) where
  pfn := fun page => 2 * page
  masked := by
    rw [acrossPages_nrPages]
    intro page inside
    simp only [StreamDesc.firstPage, acrossPages, PAGE_SIZE]
    omega

def counting : Memory := { ram := fun addr => UInt8.ofNat (addr / 4096), dev := fun index => UInt8.ofNat index }

theorem doSgDma_mirrors_iff_acrossPages :
    (doSgDma (framesApart EDU_DMA_DIR_DEV_TO_RAM).env true counting (acrossPages EDU_DMA_DIR_DEV_TO_RAM)).1 = 0 ∧
      ((framesApart EDU_DMA_DIR_DEV_TO_RAM).Mirrors
          (doSgDma (framesApart EDU_DMA_DIR_DEV_TO_RAM).env true counting
            (acrossPages EDU_DMA_DIR_DEV_TO_RAM)).2 ↔
        (framesApart EDU_DMA_DIR_DEV_TO_RAM).Coincides counting) :=
  doSgDma_mirrors_iff (framesApart EDU_DMA_DIR_DEV_TO_RAM) true counting (by decide) (by decide)
    (by decide)

theorem doSgDma_breaks_acrossPages :
    ¬ (framesApart EDU_DMA_DIR_DEV_TO_RAM).Mirrors
        (doSgDma (framesApart EDU_DMA_DIR_DEV_TO_RAM).env true counting
          (acrossPages EDU_DMA_DIR_DEV_TO_RAM)).2 ∧
      ¬ (framesApart EDU_DMA_DIR_RAM_TO_DEV).Mirrors
        (doSgDma (framesApart EDU_DMA_DIR_RAM_TO_DEV).env true counting
          (acrossPages EDU_DMA_DIR_RAM_TO_DEV)).2 := by
  constructor
  · intro mirrors
    have last := mirrors 1 (by decide)
    revert last
    decide +kernel
  · intro mirrors
    have first := mirrors 0 (by decide)
    revert first
    decide +kernel

end Ldd3.Edu
