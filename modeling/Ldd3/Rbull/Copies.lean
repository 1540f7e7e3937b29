import Mathlib.Tactic
import Ldd3.Rbull.Core
import Ldd3.Lib.Footprint

/-!
The copy of one segment as a change of the store and the pages, with the bytes that it
reads and the bytes that it writes.
-/

namespace Ldd3.Rbull

structure Copy where
  op : ReqOp
  devOff : Nat
  seg : BioVec
  deriving DecidableEq, Repr

structure Memory where
  data : List Byte
  pages : Pages

inductive Cell
  | store (index : Nat)
  | page (page index : Nat)

def Memory.look (memory : Memory) : Cell → Option Byte
  | .store index => memory.data[index]?
  | .page page index => (memory.pages page)[index]?

theorem Memory.extensional (memory other : Memory)
    (same : ∀ cell, memory.look cell = other.look cell) : memory = other := by
  obtain ⟨data, pages⟩ := memory
  obtain ⟨otherData, otherPages⟩ := other
  have sameData : data = otherData := List.ext_getElem? fun index => same (.store index)
  have samePages : pages = otherPages :=
    funext fun page => List.ext_getElem? fun index => same (.page page index)
  rw [sameData, samePages]

def Memory.Shaped (sizeBytes : Nat) (pages : Pages) (memory : Memory) : Prop :=
  memory.data.length = sizeBytes ∧ ∀ page, (memory.pages page).length = (pages page).length

namespace Copy

def fits (copy : Copy) (sizeBytes : Nat) (pages : Pages) : Bool :=
  match copy.op with
  | .read | .write => decide (copy.devOff + copy.seg.len ≤ sizeBytes) && inPage pages copy.seg
  | .discard | .writeZeroes => decide (copy.devOff + copy.seg.len ≤ sizeBytes)
  | .flush | .other _ | .driver _ => false

def apply (copy : Copy) (memory : Memory) : Memory :=
  let seg := copy.seg
  match copy.op with
  | .read =>
      { memory with
        pages := Function.update memory.pages seg.page
          (Block.overwrite (memory.pages seg.page) seg.offset
            (Block.slice memory.data copy.devOff seg.len)) }
  | .write =>
      { memory with
        data := Block.overwrite memory.data copy.devOff
          (Block.slice (memory.pages seg.page) seg.offset seg.len) }
  | .discard | .writeZeroes =>
      { memory with
        data := Block.overwrite memory.data copy.devOff (List.replicate seg.len 0) }
  | .flush | .other _ | .driver _ => memory

def inStoreRange (copy : Copy) (index : Nat) : Prop :=
  copy.devOff ≤ index ∧ index < copy.devOff + copy.seg.len

def inPageRange (copy : Copy) (page index : Nat) : Prop :=
  page = copy.seg.page ∧ copy.seg.offset ≤ index ∧ index < copy.seg.offset + copy.seg.len

def reads (copy : Copy) : Cell → Prop
  | .store index => copy.op = .read ∧ copy.inStoreRange index
  | .page page index => copy.op = .write ∧ copy.inPageRange page index

def writes (copy : Copy) : Cell → Prop
  | .store index => copy.op ≠ .read ∧ copy.inStoreRange index
  | .page page index => copy.op = .read ∧ copy.inPageRange page index

def storeOverlaps (copy made : Copy) : Bool :=
  decide (max copy.devOff made.devOff <
    min (copy.devOff + copy.seg.len) (made.devOff + made.seg.len))

def pageOverlaps (copy made : Copy) : Bool :=
  decide (copy.seg.page = made.seg.page ∧ max copy.seg.offset made.seg.offset <
    min (copy.seg.offset + copy.seg.len) (made.seg.offset + made.seg.len))

/-- Both copies use a byte of the store, or of a page, that one of them writes. -/
def conflicts (copy made : Copy) : Bool :=
  (copy.storeOverlaps made && !(copy.op == .read && made.op == .read)) ||
    (copy.pageOverlaps made &&
      ((copy.op == .read && (made.op == .read || made.op == .write)) ||
        (copy.op == .write && made.op == .read)))

theorem storeOverlaps_of_both {copy made : Copy} {index : Nat} (mine : copy.inStoreRange index)
    (other : made.inStoreRange index) : copy.storeOverlaps made = true := by
  obtain ⟨lower, upper⟩ := mine
  obtain ⟨otherLower, otherUpper⟩ := other
  simp only [storeOverlaps, decide_eq_true_eq]
  omega

theorem pageOverlaps_of_both {copy made : Copy} {page index : Nat}
    (mine : copy.inPageRange page index) (other : made.inPageRange page index) :
    copy.pageOverlaps made = true := by
  obtain ⟨samePage, lower, upper⟩ := mine
  obtain ⟨otherPage, otherLower, otherUpper⟩ := other
  simp only [pageOverlaps, decide_eq_true_eq]
  exact ⟨samePage.symm.trans otherPage, by omega⟩

theorem apart_of_not_conflicts {copy made : Copy} (clear : copy.conflicts made = false) :
    Footprint.Apart copy.reads copy.writes made.reads made.writes := by
  simp only [conflicts, Bool.or_eq_false_iff, Bool.and_eq_false_iff] at clear
  obtain ⟨storeClear, pageClear⟩ := clear
  intro cell
  cases cell with
  | store index =>
      have oneReads (mine : copy.inStoreRange index) (other : made.inStoreRange index) :
          copy.op = .read ∧ made.op = .read := by
        have overlaps := storeOverlaps_of_both mine other
        simpa [overlaps] using storeClear
      simp only [reads, writes]
      constructor
      · rintro ⟨notRead, mine⟩
        exact ⟨fun other => notRead (oneReads mine other.2).1,
          fun other => notRead (oneReads mine other.2).1⟩
      · rintro ⟨notRead, other⟩ mine
        exact notRead (oneReads mine.2 other).2
  | page page index =>
      have clearOps (mine : copy.inPageRange page index) (other : made.inPageRange page index) :
          (copy.op = .read → made.op ≠ .read ∧ made.op ≠ .write) ∧
            (copy.op = .write → made.op ≠ .read) := by
        have overlaps := pageOverlaps_of_both mine other
        simp only [overlaps, Bool.true_eq_false, false_or, beq_eq_false_iff_ne] at pageClear
        constructor
        · intro isRead
          exact pageClear.1.resolve_left fun notRead => notRead isRead
        · intro isWrite
          exact pageClear.2.resolve_left fun notWrite => notWrite isWrite
      simp only [reads, writes]
      constructor
      · rintro ⟨isRead, mine⟩
        exact ⟨fun other => ((clearOps mine other.2).1 isRead).2 other.1,
          fun other => ((clearOps mine other.2).1 isRead).1 other.1⟩
      · rintro ⟨isRead, other⟩ mine
        exact (clearOps mine.2 other).2 mine.1 isRead

variable {sizeBytes : Nat} {pages : Pages} {copy made : Copy} {memory : Memory}

theorem fits_store (inside : copy.fits sizeBytes pages = true) :
    copy.devOff + copy.seg.len ≤ sizeBytes := by
  unfold fits at inside
  split at inside <;> simp_all

theorem fits_page (inside : copy.fits sizeBytes pages = true)
    (uses : copy.op = .read ∨ copy.op = .write) :
    copy.seg.offset + copy.seg.len ≤ (pages copy.seg.page).length := by
  rcases uses with isRead | isWrite
  · simp only [fits, isRead, inPage, Bool.and_eq_true, decide_eq_true_eq] at inside
    exact inside.2
  · simp only [fits, isWrite, inPage, Bool.and_eq_true, decide_eq_true_eq] at inside
    exact inside.2

theorem fits_congr {other : Pages}
    (same : ∀ page, (other page).length = (pages page).length) :
    copy.fits sizeBytes other = copy.fits sizeBytes pages := by
  simp only [fits, inPage, same]

def source (copy : Copy) (memory : Memory) : Cell → Option Byte
  | .store index =>
      if copy.op = .write then
        memory.look (.page copy.seg.page (copy.seg.offset + (index - copy.devOff)))
      else some 0
  | .page _ index => memory.look (.store (copy.devOff + (index - copy.seg.offset)))

theorem source_congr {other : Memory} {cell : Cell} (written : copy.writes cell)
    (same : ∀ read, copy.reads read → memory.look read = other.look read) :
    copy.source memory cell = copy.source other cell := by
  cases cell with
  | store index =>
      obtain ⟨_, lower, upper⟩ := written
      simp only [source]
      by_cases isWrite : copy.op = .write
      · rw [if_pos isWrite, if_pos isWrite]
        exact same (.page _ _) ⟨isWrite, rfl, by omega, by omega⟩
      · rw [if_neg isWrite, if_neg isWrite]
  | page page index =>
      obtain ⟨isRead, _, lower, upper⟩ := written
      exact same (.store _) ⟨isRead, by omega, by omega⟩

theorem op_cases (inside : copy.fits sizeBytes pages = true) :
    copy.op = .read ∨ copy.op = .write ∨ copy.op = .discard ∨ copy.op = .writeZeroes := by
  unfold fits at inside
  split at inside <;> simp_all

def Gives (copy : Copy) (memory : Memory) (cell : Cell) : Prop :=
  (copy.writes cell → (copy.apply memory).look cell = copy.source memory cell) ∧
    (¬ copy.writes cell → (copy.apply memory).look cell = memory.look cell)

theorem gives_of_store (shaped : memory.Shaped sizeBytes pages)
    (inside : copy.fits sizeBytes pages = true) (notRead : copy.op ≠ .read) {bytes : List Byte}
    (sized : bytes.length = copy.seg.len)
    (changed : copy.apply memory =
      { memory with data := Block.overwrite memory.data copy.devOff bytes })
    (moved : ∀ index, copy.inStoreRange index →
      bytes[index - copy.devOff]? = copy.source memory (.store index))
    (cell : Cell) : copy.Gives memory cell := by
  have room : copy.devOff + bytes.length ≤ memory.data.length := by
    rw [sized, shaped.1]
    exact fits_store inside
  cases cell with
  | store index =>
      have looked : (copy.apply memory).look (.store index) =
          if copy.devOff ≤ index ∧ index < copy.devOff + copy.seg.len then
            bytes[index - copy.devOff]?
          else memory.data[index]? := by
        rw [changed]
        simp only [Memory.look]
        rw [Block.getElem?_overwrite room, sized]
      constructor
      · rintro ⟨_, written⟩
        rw [looked, if_pos ⟨written.1, written.2⟩]
        exact moved index written
      · intro untouched
        rw [looked, if_neg fun (written : _ ∧ _) => untouched ⟨notRead, written⟩]
        rfl
  | page page index =>
      constructor
      · rintro ⟨isRead, _⟩
        exact absurd isRead notRead
      · intro _
        rw [changed]
        rfl

theorem gives_of_read (shaped : memory.Shaped sizeBytes pages)
    (inside : copy.fits sizeBytes pages = true) (isRead : copy.op = .read) (cell : Cell) :
    copy.Gives memory cell := by
  have storeRoom := fits_store inside
  have sized : (Block.slice memory.data copy.devOff copy.seg.len).length = copy.seg.len :=
    Block.length_slice (by rw [shaped.1]; exact storeRoom)
  have room : copy.seg.offset + (Block.slice memory.data copy.devOff copy.seg.len).length ≤
      (memory.pages copy.seg.page).length := by
    rw [sized, shaped.2]
    exact fits_page inside (.inl isRead)
  cases cell with
  | store index =>
      constructor
      · rintro ⟨notRead, _⟩
        exact absurd isRead notRead
      · intro _
        simp only [apply, isRead, Memory.look]
  | page page index =>
      by_cases mine : page = copy.seg.page
      · subst mine
        have looked : (copy.apply memory).look (.page copy.seg.page index) =
            if copy.seg.offset ≤ index ∧ index < copy.seg.offset + copy.seg.len then
              (Block.slice memory.data copy.devOff copy.seg.len)[index - copy.seg.offset]?
            else (memory.pages copy.seg.page)[index]? := by
          simp only [apply, isRead, Memory.look, Function.update_self]
          rw [Block.getElem?_overwrite room, sized]
        constructor
        · rintro ⟨_, _, written⟩
          rw [looked, if_pos written, Block.getElem?_slice, if_pos (by omega)]
          rfl
        · intro untouched
          rw [looked, if_neg fun written => untouched ⟨isRead, rfl, written⟩]
          rfl
      · constructor
        · rintro ⟨_, same, _⟩
          exact absurd same mine
        · intro _
          simp only [apply, isRead, Memory.look, Function.update_of_ne mine]

theorem gives_of_zeroes (shaped : memory.Shaped sizeBytes pages)
    (inside : copy.fits sizeBytes pages = true)
    (zeroes : copy.op = .discard ∨ copy.op = .writeZeroes) (cell : Cell) :
    copy.Gives memory cell := by
  have changed : copy.apply memory =
      { memory with
        data := Block.overwrite memory.data copy.devOff (List.replicate copy.seg.len 0) } := by
    rcases zeroes with isDiscard | isZeroes
    · simp only [apply, isDiscard]
    · simp only [apply, isZeroes]
  have notWrite : copy.op ≠ .write := by
    rcases zeroes with isDiscard | isZeroes
    · simp only [isDiscard, ne_eq, reduceCtorEq, not_false_eq_true]
    · simp only [isZeroes, ne_eq, reduceCtorEq, not_false_eq_true]
  have notRead : copy.op ≠ .read := by
    rcases zeroes with isDiscard | isZeroes
    · simp only [isDiscard, ne_eq, reduceCtorEq, not_false_eq_true]
    · simp only [isZeroes, ne_eq, reduceCtorEq, not_false_eq_true]
  refine gives_of_store shaped inside notRead List.length_replicate changed ?_ cell
  rintro index ⟨lower, upper⟩
  rw [List.getElem?_replicate, if_pos (by omega), source, if_neg notWrite]

theorem gives_of_write (shaped : memory.Shaped sizeBytes pages)
    (inside : copy.fits sizeBytes pages = true) (isWrite : copy.op = .write) (cell : Cell) :
    copy.Gives memory cell := by
  have room := fits_page inside (.inr isWrite)
  have changed : copy.apply memory =
      { memory with
        data := Block.overwrite memory.data copy.devOff
          (Block.slice (memory.pages copy.seg.page) copy.seg.offset copy.seg.len) } := by
    simp only [apply, isWrite]
  refine gives_of_store shaped inside (by rw [isWrite]; decide)
    (Block.length_slice (by rw [shaped.2]; exact room)) changed ?_ cell
  rintro index ⟨lower, upper⟩
  rw [Block.getElem?_slice, if_pos (by omega), source, if_pos isWrite]
  rfl

theorem gives (shaped : memory.Shaped sizeBytes pages)
    (inside : copy.fits sizeBytes pages = true) (cell : Cell) : copy.Gives memory cell := by
  rcases op_cases inside with isRead | isWrite | zeroes
  · exact gives_of_read shaped inside isRead cell
  · exact gives_of_write shaped inside isWrite cell
  · exact gives_of_zeroes shaped inside zeroes cell

theorem apply_shaped (shaped : memory.Shaped sizeBytes pages)
    (inside : copy.fits sizeBytes pages = true) : (copy.apply memory).Shaped sizeBytes pages := by
  have storeRoom := fits_store inside
  have inData : copy.devOff + copy.seg.len ≤ memory.data.length := by
    rw [shaped.1]
    exact storeRoom
  rcases op_cases inside with isRead | isWrite | zeroes
  · have room := fits_page inside (.inl isRead)
    rw [← shaped.2] at room
    refine ⟨by simp only [apply, isRead, shaped.1], ?_⟩
    intro page
    simp only [apply, isRead]
    by_cases mine : page = copy.seg.page
    · subst mine
      rw [Function.update_self, Block.length_overwrite (by rwa [Block.length_slice inData])]
      exact shaped.2 copy.seg.page
    · rw [Function.update_of_ne mine]
      exact shaped.2 page
  · have room := fits_page inside (.inr isWrite)
    rw [← shaped.2] at room
    refine ⟨?_, by simpa only [apply, isWrite] using shaped.2⟩
    simp only [apply, isWrite]
    rw [Block.length_overwrite (by rwa [Block.length_slice room]), shaped.1]
  · have stored : (Block.overwrite memory.data copy.devOff
        (List.replicate copy.seg.len 0)).length = sizeBytes := by
      rw [Block.length_overwrite (by rwa [List.length_replicate]), shaped.1]
    rcases zeroes with isDiscard | isZeroes
    · refine ⟨by simpa only [apply, isDiscard] using stored, ?_⟩
      simpa only [apply, isDiscard] using shaped.2
    · refine ⟨by simpa only [apply, isZeroes] using stored, ?_⟩
      simpa only [apply, isZeroes] using shaped.2

theorem touches (inside : copy.fits sizeBytes pages = true) :
    Footprint.Touches Memory.look (Memory.Shaped sizeBytes pages) copy.apply copy.reads
      copy.writes where
  shaped _ shaped := apply_shaped shaped inside
  frame _ cell shaped untouched := (gives shaped inside cell).2 untouched
  decided memory other cell shaped otherShaped same written := by
    rw [(gives shaped inside cell).1 written, (gives otherShaped inside cell).1 written]
    exact source_congr written same

theorem apply_comm (shaped : memory.Shaped sizeBytes pages)
    (inside : copy.fits sizeBytes pages = true) (madeInside : made.fits sizeBytes pages = true)
    (clear : copy.conflicts made = false) :
    copy.apply (made.apply memory) = made.apply (copy.apply memory) :=
  (touches inside).commute (touches madeInside) (apart_of_not_conflicts clear)
    Memory.extensional shaped

end Copy

end Ldd3.Rbull
