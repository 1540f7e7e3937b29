import Mathlib.Tactic
import Ldd3.Lib.StepMachine
import Ldd3.Lib.WriteLog
import Ldd3.Scull.Reset

/-!
The scull device against a flat byte file. A byte at a position lives in the cell
(node, index in the pointer array, offset in the quantum) that `scull_find_item`
and the position arithmetic select; the first two quantum sets select the same
node, so each of their positions shares its cell with a twin.
-/

namespace Ldd3.Scull

/-! Cells. -/

def byteAt (nodes : List ScullQset) (index sPos qPos : Nat) : Byte :=
  ((blockAt nodes index sPos).getD []).getD qPos 0

/-- The other position that scull keeps in the same cell, if there is one. -/
def twin (itemsize position : Nat) : Nat :=
  if position < itemsize then position + itemsize
  else if position < 2 * itemsize then position - itemsize
  else position

def cellByte (quantum qset : Nat) (nodes : List ScullQset) (position : Nat) : Byte :=
  byteAt nodes (position / (quantum * qset) - 1) (position % (quantum * qset) / quantum)
    (position % quantum)

theorem getD_grow (nodes : List ScullQset) (extra index : Nat) :
    ((grow nodes extra).getD index .empty).data = (nodes.getD index .empty).data := by
  simp only [grow, List.getD_eq_getElem?_getD]
  by_cases inside : index < nodes.length
  · rw [List.getElem?_append_left inside]
  · rw [List.getElem?_append_right (by omega), List.getElem?_replicate,
      List.getElem?_eq_none (by omega : nodes.length ≤ index)]
    split <;> rfl

@[simp] theorem blockAt_grow (nodes : List ScullQset) (extra index sPos : Nat) :
    blockAt (grow nodes extra) index sPos = blockAt nodes index sPos := by
  simp only [blockAt, getD_grow]

theorem nodeArray_entry (qset : Nat) (nodes : List ScullQset) (index sPos : Nat) :
    (nodeArray qset nodes index).getD sPos none = blockAt nodes index sPos := by
  simp only [nodeArray, blockAt]
  cases (nodes.getD index .empty).data with
  | none =>
      simp only [Option.getD_none, Option.bind_none, List.getD_eq_getElem?_getD,
        List.getElem?_replicate]
      split <;> rfl
  | some array => rfl

theorem blockAt_storedNodes {qset blockSize : Nat} {nodes : List ScullQset} {pos : Position}
    {bytes : List Byte} (shaped : Shaped qset blockSize nodes)
    (nodeBound : findRounds pos.item < nodes.length) (entryBound : pos.sPos.toNat < qset)
    (index sPos : Nat) :
    blockAt (storedNodes qset blockSize nodes pos bytes) index sPos =
      if index = findRounds pos.item ∧ sPos = pos.sPos.toNat then
        some (Block.overwrite ((blockAt nodes index sPos).getD (List.replicate blockSize 0))
          pos.qPos.toNat bytes)
      else blockAt nodes index sPos := by
  simp only [blockAt, storedNodes, List.getD_eq_getElem?_getD]
  by_cases node : index = findRounds pos.item
  · subst node
    simp only [List.getElem?_set_self nodeBound, Option.getD_some, Option.bind_some, true_and]
    by_cases entry : sPos = pos.sPos.toNat
    · subst entry
      rw [List.getElem?_set_self (by rw [nodeArray_length shaped]; exact entryBound)]
      have entry := nodeArray_entry qset nodes (findRounds pos.item) pos.sPos.toNat
      simp only [blockAt, List.getD_eq_getElem?_getD] at entry
      simp only [↓reduceIte, Option.getD_some, arrayBlock, List.getD_eq_getElem?_getD, entry]
    · rw [List.getElem?_set_ne (Ne.symm entry), if_neg entry, ← List.getD_eq_getElem?_getD,
        nodeArray_entry]
      simp only [blockAt, List.getD_eq_getElem?_getD]
  · rw [List.getElem?_set_ne (Ne.symm node), if_neg (fun both => node both.1)]

theorem blockAt_length {qset blockSize : Nat} {nodes : List ScullQset} {index sPos : Nat}
    {block : List Byte} (shaped : Shaped qset blockSize nodes)
    (found : blockAt nodes index sPos = some block) : block.length = blockSize := by
  rw [← nodeArray_entry qset] at found
  exact nodeArray_blocks shaped _ block (getD_mem found)

theorem byteAt_storedNodes {qset blockSize : Nat} {nodes : List ScullQset} {pos : Position}
    {bytes : List Byte} (shaped : Shaped qset blockSize nodes)
    (nodeBound : findRounds pos.item < nodes.length) (entryBound : pos.sPos.toNat < qset)
    (fits : pos.qPos.toNat + bytes.length ≤ blockSize) (index sPos qPos : Nat) :
    byteAt (storedNodes qset blockSize nodes pos bytes) index sPos qPos =
      if (index = findRounds pos.item ∧ sPos = pos.sPos.toNat) ∧
          pos.qPos.toNat ≤ qPos ∧ qPos < pos.qPos.toNat + bytes.length then
        bytes.getD (qPos - pos.qPos.toNat) 0
      else byteAt nodes index sPos qPos := by
  simp only [byteAt, blockAt_storedNodes shaped nodeBound entryBound]
  by_cases same : index = findRounds pos.item ∧ sPos = pos.sPos.toNat
  · have oldLength : ((blockAt nodes index sPos).getD (List.replicate blockSize 0)).length =
        blockSize := by
      cases found : blockAt nodes index sPos with
      | none => simp
      | some block => exact blockAt_length shaped found
    simp only [same, and_self, ↓reduceIte, true_and, Option.getD_some, List.getD_eq_getElem?_getD]
    rw [← same.1, ← same.2, Block.getElem?_overwrite (by rw [oldLength]; exact fits)]
    split
    · rfl
    · cases blockAt nodes index sPos with
      | some block => rfl
      | none =>
          simp only [Option.getD_none, List.getElem?_replicate, List.getElem?_nil]
          split <;> rfl
  · simp only [same, ↓reduceIte, false_and]

/-! Position arithmetic for a set size that fits an `int`. -/

section Arithmetic

variable {quantum qset : Nat}

theorem calculatePositions_wrapped (quantumPositive : 0 < quantum) (qsetPositive : 0 < qset)
    (fits : quantum * qset < 2147483648) (position : Nat) :
    calculatePositions quantum qset position = .ok
      { item := CInt.int32 (position / (quantum * qset) : Nat)
        sPos := (position % (quantum * qset) / quantum : Nat)
        qPos := (position % quantum : Nat) } := by
  have sizePositive : 0 < quantum * qset := Nat.mul_pos quantumPositive qsetPositive
  have restBound := Nat.mod_lt position sizePositive
  have size : CInt.int32 ((quantum : Int) * qset) = (quantum * qset : Nat) := by
    rw [← Nat.cast_mul]
    exact CInt.int32_natCast fits
  have rest := CInt.int32_natCast (restBound.trans fits)
  have sizeNonzero : ((quantum * qset : Nat) : Int) ≠ 0 := by omega
  have quantumNonzero : (quantum : Int) ≠ 0 := by omega
  simp only [calculatePositions, size, sizeNonzero, quantumNonzero, ↓reduceIte,
    ← Int.ofNat_tdiv, ← Int.ofNat_tmod, rest, Nat.mod_mul_right_mod]

theorem calculatePositions_nat (quantumPositive : 0 < quantum) (qsetPositive : 0 < qset)
    (fits : quantum * qset < 2147483648) {position : Nat}
    (itemFits : position / (quantum * qset) < 2147483648) :
    calculatePositions quantum qset position = .ok
      { item := (position / (quantum * qset) : Nat)
        sPos := (position % (quantum * qset) / quantum : Nat)
        qPos := (position % quantum : Nat) } := by
  rw [calculatePositions_wrapped quantumPositive qsetPositive fits, CInt.int32_natCast itemFits]

theorem findRounds_nat {item : Nat} (fits : item < 2147483648) : findRounds item = item - 1 := by
  have inRange : CInt.int32 ((item : Int) - 1) = (item : Int) - 1 :=
    CInt.int32_of_fits ⟨by omega, by omega⟩
  simp only [findRounds, inRange]
  omega

theorem div_eq_zero_or_one_cases (size position : Nat) (positive : 0 < size) :
    (position < size ∧ position / size = 0) ∨
      (size ≤ position ∧ position < 2 * size ∧ position / size = 1) ∨
      (2 * size ≤ position ∧ 2 ≤ position / size) := by
  by_cases first : position < size
  · exact Or.inl ⟨first, Nat.div_eq_of_lt first⟩
  · right
    by_cases second : position < 2 * size
    · exact Or.inl ⟨by omega, second, Nat.div_eq_of_lt_le (by omega) (by omega)⟩
    · exact Or.inr ⟨by omega, (Nat.le_div_iff_mul_le positive).mpr (by omega)⟩

theorem sameNode_iff (positive : 0 < qset) (left right : Nat) :
    (left / qset - 1 = right / qset - 1 ∧ left % qset = right % qset) ↔
      left = right ∨ twin qset left = right := by
  have leftParts := Nat.div_add_mod left qset
  have rightParts := Nat.div_add_mod right qset
  simp only [twin]
  rcases div_eq_zero_or_one_cases qset left positive with
    ⟨leftFirst, leftItem⟩ | ⟨leftLower, leftUpper, leftItem⟩ | ⟨leftLower, leftItem⟩
  · have leftMod := Nat.mod_eq_of_lt leftFirst
    rw [if_pos leftFirst, leftItem, leftMod]
    constructor
    · rintro ⟨node, offset⟩
      have rightItem : right / qset = 0 ∨ right / qset = 1 := by
        generalize right / qset = item at node ⊢
        omega
      rcases rightItem with zero | one
      · rw [zero, Nat.mul_zero] at rightParts
        omega
      · rw [one, Nat.mul_one] at rightParts
        omega
    · rintro (same | shifted)
      · subst same
        exact ⟨by rw [leftItem], leftMod.symm⟩
      · subst shifted
        rw [Nat.add_div_right _ positive, Nat.add_mod_right, leftItem]
        exact ⟨by omega, leftMod.symm⟩
  · have leftMod : left % qset = left - qset := by
      rw [leftItem, Nat.mul_one] at leftParts
      omega
    rw [if_neg (by omega), if_pos leftUpper, leftItem, leftMod]
    constructor
    · rintro ⟨node, offset⟩
      have rightItem : right / qset = 0 ∨ right / qset = 1 := by
        generalize right / qset = item at node ⊢
        omega
      rcases rightItem with zero | one
      · rw [zero, Nat.mul_zero] at rightParts
        omega
      · rw [one, Nat.mul_one] at rightParts
        omega
    · rintro (same | shifted)
      · subst same
        exact ⟨by rw [leftItem], leftMod.symm⟩
      · subst shifted
        have small : left - qset < qset := by omega
        exact ⟨by rw [Nat.div_eq_of_lt small], (Nat.mod_eq_of_lt small).symm⟩
  · rw [if_neg (by omega), if_neg (by omega), or_self]
    constructor
    · rintro ⟨node, offset⟩
      have items : left / qset = right / qset := by
        generalize right / qset = item at node ⊢
        omega
      rw [← leftParts, ← rightParts, items, offset]
    · rintro rfl
      exact ⟨rfl, rfl⟩

theorem twin_div (quantumPositive : 0 < quantum) (position : Nat) :
    twin (quantum * qset) position / quantum = twin qset (position / quantum) := by
  have lower (bound : Nat) : position < quantum * bound ↔ position / quantum < bound := by
    rw [Nat.div_lt_iff_lt_mul quantumPositive, Nat.mul_comm]
  have lowerTwice : position < 2 * (quantum * qset) ↔ position / quantum < 2 * qset := by
    rw [← lower (2 * qset)]
    constructor <;> intro bound <;> nlinarith
  simp only [twin, lower, lowerTwice]
  split
  · rw [Nat.add_mul_div_left _ _ quantumPositive]
  · split
    · rw [Nat.sub_mul_div]
    · rfl

theorem twin_mod (position : Nat) :
    twin (quantum * qset) position % quantum = position % quantum := by
  simp only [twin]
  split
  · rw [Nat.add_mul_mod_self_left]
  · split
    · rename_i notFirst _
      exact Nat.sub_mul_mod (by omega)
    · rfl

theorem covers_iff {start count position : Nat}
    (short : start % quantum + count ≤ quantum) :
    (start ≤ position ∧ position < start + count) ↔
      position / quantum = start / quantum ∧ start % quantum ≤ position % quantum ∧
        position % quantum < start % quantum + count := by
  have startParts := Nat.div_add_mod start quantum
  have positionParts := Nat.div_add_mod position quantum
  constructor
  · rintro ⟨lower, upper⟩
    have same : position / quantum = start / quantum := by
      apply Nat.div_eq_of_lt_le
      · rw [Nat.mul_comm]
        omega
      · rw [Nat.add_mul, Nat.mul_comm, Nat.one_mul]
        omega
    rw [same] at positionParts
    exact ⟨same, by omega, by omega⟩
  · rintro ⟨same, lower, upper⟩
    rw [same] at positionParts
    omega

theorem add_in_quantum {start index : Nat} (inside : start % quantum + index < quantum) :
    (start + index) / quantum = start / quantum ∧
      (start + index) % quantum = start % quantum + index := by
  have startParts := Nat.div_add_mod start quantum
  have same : (start + index) / quantum = start / quantum := by
    apply Nat.div_eq_of_lt_le
    · rw [Nat.mul_comm]
      omega
    · rw [Nat.add_mul, Nat.mul_comm, Nat.one_mul]
      omega
  have indexParts := Nat.div_add_mod (start + index) quantum
  rw [same] at indexParts
  exact ⟨same, by omega⟩

theorem cellByte_add {start index : Nat} (nodes : List ScullQset)
    (inside : start % quantum + index < quantum) :
    cellByte quantum qset nodes (start + index) =
      byteAt nodes (start / (quantum * qset) - 1) (start % (quantum * qset) / quantum)
        (start % quantum + index) := by
  obtain ⟨same, offset⟩ := add_in_quantum inside
  simp only [cellByte, ← Nat.div_div_eq_div_mul, Nat.mod_mul_right_div_self, same, offset]

theorem value_of_covers {start position : Nat} {bytes : List Byte}
    (short : start % quantum + bytes.length ≤ quantum)
    (hit : WriteLog.covers (start, bytes) position = true) :
    WriteLog.Entry.value 0 (start, bytes) position =
      bytes.getD (position % quantum - start % quantum) 0 := by
  simp only [WriteLog.covers, decide_eq_true_eq] at hit
  have same := ((covers_iff short).mp hit).1
  have startParts := Nat.div_add_mod start quantum
  have positionParts := Nat.div_add_mod position quantum
  rw [same] at positionParts
  have distance : position - start = position % quantum - start % quantum := by omega
  simp only [WriteLog.Entry.value, distance]

end Arithmetic

/-! Runs of calls, one at a time and with nothing failing, and the log of what they wrote. -/

structure Session where
  dev : ScullDev
  log : List (WriteLog.Entry Byte)
  deriving DecidableEq, Repr

def Session.start (geometry : Geometry) : Session := { dev := .fresh geometry, log := [] }

inductive FileCall
  | read (junk : Nat → Byte) (count position : Nat)
  | write (junk : Nat → Byte) (data : List Byte) (position : Nat)
  | reset (fuel : Nat) (globals : Geometry)

def Geometry.Fits (geometry : Geometry) : Prop :=
  0 < geometry.quantum ∧ 0 < geometry.qset ∧ geometry.quantum * geometry.qset < 2147483648

instance (geometry : Geometry) : Decidable geometry.Fits := by
  unfold Geometry.Fits
  infer_instance

def ScullDev.itemsize (dev : ScullDev) : Nat := dev.quantum.toNat * dev.qset.toNat

def ItemFits (dev : ScullDev) (position : Nat) : Prop := position / dev.itemsize < 2147483648

instance (dev : ScullDev) (position : Nat) : Decidable (ItemFits dev position) := by
  unfold ItemFits
  infer_instance

def fileStep (session : Session) : FileCall → Option Session
  | .read junk count position =>
      if ItemFits session.dev position then
        match perform session.dev (.read (.good junk) count position) with
        | .ok reply => some { session with dev := reply.dev }
        | .error _ => none
      else none
  | .write junk data position =>
      if ItemFits session.dev position then
        match perform session.dev (.write (.good junk) data position) with
        | .ok reply =>
            some { dev := reply.dev, log := (position, data.take reply.ret.toNat) :: session.log }
        | .error _ => none
      else none
  | .reset fuel globals =>
      if globals.Fits then
        match scullDevReset fuel globals session.dev with
        | .returned dev _ => some { dev := dev, log := [] }
        | _ => none
      else none

def delivered (dev : ScullDev) (count position : Nat) : Nat :=
  limitToQuantum dev.quantum (position % dev.quantum.toNat : Nat) (clipToSize dev.size position count)

structure FileInvariant (session : Session) : Prop where
  fits : Geometry.Fits ⟨session.dev.quantum, session.dev.qset⟩
  shaped : Shaped session.dev.qset.toNat session.dev.quantum.toNat session.dev.data
  cells : ∀ position,
    cellByte session.dev.quantum.toNat session.dev.qset.toNat session.dev.data position =
      WriteLog.lastShared 0 session.log position (twin session.dev.itemsize position)

theorem fileInvariant_fresh {geometry : Geometry} (fits : geometry.Fits) :
    FileInvariant (.start geometry) := by
  refine ⟨fits, ?_, ?_⟩
  · intro node member
    simp [Session.start, ScullDev.fresh] at member
  · intro position
    simp [Session.start, ScullDev.fresh, cellByte, byteAt, blockAt, ScullQset.empty,
      WriteLog.lastShared]

theorem FileInvariant.grown {session : Session} (invariant : FileInvariant session) (extra : Nat) :
    FileInvariant
      { session with dev := { session.dev with data := grow session.dev.data extra } } := by
  refine ⟨invariant.fits, shaped_append_empty invariant.shaped extra, ?_⟩
  intro position
  have cell := invariant.cells position
  simp only [cellByte, byteAt, blockAt_grow] at cell ⊢
  exact cell

theorem located {dev : ScullDev} (fits : Geometry.Fits ⟨dev.quantum, dev.qset⟩) {position : Nat}
    (inRange : ItemFits dev position) :
    ∃ pos, calculatePositions dev.quantum dev.qset position = .ok pos ∧
      PositionInside dev.quantum dev.qset dev.quantum.toNat pos ∧
      findRounds pos.item = position / dev.itemsize - 1 ∧
      pos.sPos.toNat = position % dev.itemsize / dev.quantum.toNat ∧
      pos.qPos = (position % dev.quantum.toNat : Nat) := by
  have quantumPositive : 0 < dev.quantum := fits.1
  have qsetPositive : 0 < dev.qset := fits.2.1
  have productFits : dev.quantum * dev.qset < 2147483648 := fits.2.2
  obtain ⟨quantum, quantumEq⟩ := Int.eq_ofNat_of_zero_le quantumPositive.le
  obtain ⟨qset, qsetEq⟩ := Int.eq_ofNat_of_zero_le qsetPositive.le
  simp only [ItemFits, ScullDev.itemsize, quantumEq, qsetEq, Int.toNat_natCast]
    at quantumPositive qsetPositive productFits inRange ⊢
  have quantumNat : 0 < quantum := by omega
  have qsetNat : 0 < qset := by omega
  have productNat : quantum * qset < 2147483648 := by exact_mod_cast productFits
  have quantumLe : quantum ≤ quantum * qset := Nat.le_mul_of_pos_right _ qsetNat
  refine ⟨_, calculatePositions_nat quantumNat qsetNat productNat inRange, ?_, ?_, ?_, ?_⟩
  · have restBound := Nat.mod_lt position (Nat.mul_pos quantumNat qsetNat)
    have sBound : position % (quantum * qset) / quantum < qset := Nat.div_lt_of_lt_mul restBound
    have qBound := Nat.mod_lt position quantumNat
    constructor
    · exact Int.natCast_nonneg _
    · exact Int.ofNat_lt.mpr sBound
    · exact Int.natCast_nonneg _
    · exact Int.ofNat_lt.mpr qBound
    · exact ⟨by omega, by omega⟩
    · omega
  · exact findRounds_nat inRange
  · exact Int.toNat_natCast _
  · rfl

theorem WriteResult.good {junk : Nat → Byte} {quantum qset fPos : Int} {blockSize : Nat}
    {dev : ScullDev} {data : List Byte} {pos : Position} {reply : Reply}
    (result : WriteResult (.good junk) quantum qset.toNat blockSize dev data fPos pos reply) :
    ∃ extra, findRounds pos.item < dev.data.length + extra ∧
      reply.ret = limitToQuantum quantum pos.qPos data.length ∧
      reply.dev.data = storedNodes qset.toNat blockSize (grow dev.data extra) pos
        (data.take (limitToQuantum quantum pos.qPos data.length)) ∧
      reply.dev.quantum = dev.quantum ∧ reply.dev.qset = dev.qset := by
  cases result with
  | interrupted impossible => simp [Env.good] at impossible
  | noNode _ _ impossible => simp [Env.good] at impossible
  | noQuantum _ _ impossible => simp [Env.good] at impossible
  | faulted _ impossible => simp [Env.good, Env.faults] at impossible
  | stored extra _ bound => exact ⟨extra, bound, rfl, rfl, rfl, rfl⟩

theorem cellByte_stored {quantum qset : Nat} (quantumPositive : 0 < quantum)
    (qsetPositive : 0 < qset) {nodes : List ScullQset} {pos : Position} {bytes : List Byte}
    {start : Nat} (shaped : Shaped qset quantum nodes)
    (nodeBound : findRounds pos.item < nodes.length)
    (node : findRounds pos.item = start / (quantum * qset) - 1)
    (entry : pos.sPos.toNat = start % (quantum * qset) / quantum)
    (offset : pos.qPos = (start % quantum : Nat))
    (short : start % quantum + bytes.length ≤ quantum) (position : Nat) :
    cellByte quantum qset (storedNodes qset quantum nodes pos bytes) position =
      if WriteLog.covers (start, bytes) position || WriteLog.covers (start, bytes)
          (twin (quantum * qset) position) then
        bytes.getD (position % quantum - start % quantum) 0
      else cellByte quantum qset nodes position := by
  have startRest := Nat.mod_lt start (Nat.mul_pos quantumPositive qsetPositive)
  have entryBound : pos.sPos.toNat < qset := by
    rw [entry]
    exact Nat.div_lt_of_lt_mul startRest
  have offsetNat : pos.qPos.toNat = start % quantum := by rw [offset, Int.toNat_natCast]
  have shared : ((position / (quantum * qset) - 1 = findRounds pos.item ∧
        position % (quantum * qset) / quantum = pos.sPos.toNat) ∧
      pos.qPos.toNat ≤ position % quantum ∧
        position % quantum < pos.qPos.toNat + bytes.length) ↔
      WriteLog.covers (start, bytes) position = true ∨
        WriteLog.covers (start, bytes) (twin (quantum * qset) position) = true := by
    simp only [WriteLog.covers, decide_eq_true_eq, covers_iff short, twin_div quantumPositive,
      twin_mod, node, entry, offsetNat, ← Nat.div_div_eq_div_mul, Nat.mod_mul_right_div_self,
      sameNode_iff qsetPositive]
    tauto
  have fits : pos.qPos.toNat + bytes.length ≤ quantum := by rw [offsetNat]; exact short
  simp only [cellByte, byteAt_storedNodes shaped nodeBound entryBound fits, Bool.or_eq_true, ← shared]
  rw [offsetNat]

theorem fileStep_write {session next : Session} {junk : Nat → Byte} {data : List Byte}
    {position : Nat} (invariant : FileInvariant session)
    (taken : fileStep session (.write junk data position) = some next) : FileInvariant next := by
  simp only [fileStep] at taken
  split at taken
  case isFalse => contradiction
  rename_i inRange
  obtain ⟨pos, computed, inside, node, entry, offset⟩ := located invariant.fits inRange
  have quantumPositive : 0 < session.dev.quantum := invariant.fits.1
  have qsetPositive : 0 < session.dev.qset := invariant.fits.2.1
  have zeroed := kmallocQuantum_zeroed quantumPositive.le inside.quantumFits (.good junk)
  obtain ⟨reply, replied, result⟩ :=
    scullWriteWith_result data zeroed computed inside invariant.shaped
  have replied' : perform session.dev (.write (.good junk) data position) = .ok reply := replied
  simp only [replied', Option.some.injEq] at taken
  subst taken
  have resultShaped := result.shaped inside invariant.shaped
  obtain ⟨extra, bound, ret, stored, quantumSame, qsetSame⟩ := result.good
  have short : position % session.dev.quantum.toNat +
      (data.take (limitToQuantum session.dev.quantum pos.qPos data.length)).length ≤
        session.dev.quantum.toNat := by
    have copyFits := inside.copyFits (.good junk) data
    rw [offset, Int.toNat_natCast] at copyFits
    rw [offset]
    exact copyFits
  refine ⟨?_, ?_, ?_⟩
  · simp only [quantumSame, qsetSame]
    exact invariant.fits
  · simp only [quantumSame, qsetSame]
    exact resultShaped
  · intro other
    have cell := (invariant.grown extra).cells other
    simp only [ScullDev.itemsize, quantumSame, qsetSame, stored, ret, Int.toNat_natCast] at cell ⊢
    rw [cellByte_stored (by omega) (by omega) (shaped_append_empty invariant.shaped extra)
      (by simpa using bound) node entry offset short, cell, WriteLog.lastShared_cons]
    by_cases hit : WriteLog.covers (position,
        data.take (limitToQuantum session.dev.quantum pos.qPos data.length)) other = true
    · simp only [hit, Bool.true_or, ↓reduceIte, value_of_covers short hit]
    · by_cases shared : WriteLog.covers (position,
          data.take (limitToQuantum session.dev.quantum pos.qPos data.length))
          (twin (session.dev.quantum.toNat * session.dev.qset.toNat) other) = true
      · simp only [hit, shared, Bool.or_true, Bool.false_eq_true, ↓reduceIte,
          value_of_covers short shared, twin_mod]
      · simp only [hit, shared, Bool.or_self, Bool.false_eq_true, ↓reduceIte]

theorem fileStep_read {session next : Session} {junk : Nat → Byte} {count position : Nat}
    (invariant : FileInvariant session)
    (taken : fileStep session (.read junk count position) = some next) : FileInvariant next := by
  simp only [fileStep] at taken
  split at taken
  case isFalse => contradiction
  rename_i inRange
  obtain ⟨pos, computed, inside, _⟩ := located invariant.fits inRange
  obtain ⟨reply, replied, result⟩ :=
    scullRead_result (.good junk) count computed inside invariant.shaped
  have replied' : perform session.dev (.read (.good junk) count position) = .ok reply := replied
  simp only [replied', Option.some.injEq] at taken
  obtain ⟨extra, device⟩ := result.device
  subst taken
  rw [device]
  exact invariant.grown extra

theorem fileStep_reset {session next : Session} {fuel : Nat} {globals : Geometry}
    (taken : fileStep session (.reset fuel globals) = some next) : FileInvariant next := by
  simp only [fileStep] at taken
  split at taken
  case isFalse => contradiction
  rename_i fits
  split at taken
  · rename_i after visited returned
    simp only [Option.some.injEq] at taken
    rw [← taken, resetLoop_fresh _ _ _ _ returned]
    exact fileInvariant_fresh fits
  · contradiction

theorem fileInvariant_run {geometry : Geometry} {calls : List FileCall} {session : Session}
    (fits : geometry.Fits) (ran : StepMachine.run fileStep (.start geometry) calls = some session) :
    FileInvariant session := by
  apply StepMachine.reachable_invariant _ (fileInvariant_fresh fits) ⟨calls, ran⟩
  intro state call next invariant taken
  cases call with
  | read junk count position => exact fileStep_read invariant taken
  | write junk data position => exact fileStep_write invariant taken
  | reset fuel globals => exact fileStep_reset taken

theorem ReadResult.good {junk : Nat → Byte} {quantum fPos : Int} {count : Nat} {dev : ScullDev}
    {pos : Position} {reply : Reply}
    (result : ReadResult (.good junk) quantum dev count fPos pos reply) (some : 0 < reply.ret) :
    ∃ block, blockAt dev.data (findRounds pos.item) pos.sPos.toNat = .some block ∧
      reply.ret = limitToQuantum quantum pos.qPos (clipToSize dev.size fPos count) ∧
      reply.out = Block.slice block pos.qPos.toNat
        (limitToQuantum quantum pos.qPos (clipToSize dev.size fPos count)) := by
  cases result with
  | interrupted impossible => simp [Env.good] at impossible
  | endOfFile _ => simp at some
  | noNode _ _ _ => simp at some
  | hole _ _ => simp at some
  | faulted _ _ _ impossible => simp [Env.good, Env.faults] at impossible
  | copied extra block found _ =>
      rw [blockAt_grow] at found
      exact ⟨block, found, rfl, rfl⟩

/-- A read that returns bytes returns the flat file's bytes exactly when none of the positions
it delivers is stale: when the last write that touched the position or its twin in the other
of the first two quantum sets was one to the position, or stored the same byte there. -/
theorem scullRead_flat_iff {geometry : Geometry} {calls : List FileCall} {session : Session}
    (fits : geometry.Fits) (ran : StepMachine.run fileStep (.start geometry) calls = some session)
    {junk : Nat → Byte} {count position : Nat} {reply : Reply}
    (inRange : ItemFits session.dev position)
    (replied : perform session.dev (.read (.good junk) count position) = .ok reply)
    (some : 0 < reply.ret) :
    (reply.ret = reply.out.length ∧ ∀ index < reply.out.length,
        reply.out[index]? = .some (WriteLog.last 0 session.log (position + index))) ↔
      ∀ index < delivered session.dev count position,
        WriteLog.Fresh 0 session.log (position + index)
          (twin session.dev.itemsize (position + index)) := by
  have invariant := fileInvariant_run fits ran
  obtain ⟨pos, computed, inside, node, entry, offset⟩ := located invariant.fits inRange
  obtain ⟨reply', replied', result⟩ :=
    scullRead_result (.good junk) count computed inside invariant.shaped
  have same : reply' = reply := by
    have both : perform session.dev (.read (.good junk) count position) = .ok reply' := replied'
    rw [replied] at both
    simpa using both.symm
  subst same
  obtain ⟨block, found, ret, out⟩ := result.good some
  have amount : limitToQuantum session.dev.quantum pos.qPos
      (clipToSize session.dev.size position count) = delivered session.dev count position := by
    rw [delivered, offset]
  rw [amount] at ret out
  have blockLength := blockAt_length invariant.shaped found
  have fits := inside.inBlock blockLength (clipToSize session.dev.size position count)
  rw [amount] at fits
  simp only [InBlock, offset, Int.toNat_natCast, blockLength] at fits
  have length : reply'.out.length = delivered session.dev count position := by
    rw [out, Block.length_slice]
    rw [offset, Int.toNat_natCast, blockLength]
    exact fits.2
  have bytes (index : Nat) (bound : index < delivered session.dev count position) :
      reply'.out[index]? = .some (WriteLog.lastShared 0 session.log (position + index)
        (twin session.dev.itemsize (position + index))) := by
    have inside : position % session.dev.quantum.toNat + index < session.dev.quantum.toNat := by
      omega
    rw [← invariant.cells, cellByte_add _ inside, out, Block.getElem?_slice, if_pos bound]
    have entry' := entry
    simp only [ScullDev.itemsize] at node entry'
    rw [byteAt, ← node, ← entry', found, offset, Int.toNat_natCast, Option.getD_some,
      List.getD_eq_getElem _ _ (by omega), List.getElem?_eq_getElem (by omega)]
  rw [length]
  constructor
  · rintro ⟨_, agree⟩ index bound
    have agreeHere := agree index bound
    rw [bytes index bound, Option.some.injEq] at agreeHere
    exact (WriteLog.lastShared_eq_last_iff 0 _ _ _).mp agreeHere
  · intro fresh
    refine ⟨ret, ?_⟩
    intro index bound
    rw [bytes index bound, Option.some.injEq]
    exact (WriteLog.lastShared_eq_last_iff 0 _ _ _).mpr (fresh index bound)

def twoSets : List FileCall :=
  [.write (fun _ => 0) [7] 0, .write (fun _ => 0) [9] 2]

def twoSetsSession : Session :=
  { dev := { data := [⟨some [some [9, 0]]⟩], quantum := 2, qset := 1, size := 3 }
    log := [(2, [9]), (0, [7])] }

theorem scullRead_flat_iff_twoSets :
    StepMachine.run fileStep (.start ⟨2, 1⟩) twoSets = some twoSetsSession ∧
      ((1 : Int) = ([9] : List Byte).length ∧ ∀ index < ([9] : List Byte).length,
        ([9] : List Byte)[index]? = some (WriteLog.last 0 twoSetsSession.log (2 + index))) := by
  have ran : StepMachine.run fileStep (.start ⟨2, 1⟩) twoSets = some twoSetsSession := by
    decide +kernel
  have replied : perform twoSetsSession.dev (.read (.good fun _ => 0) 1 (2 : Nat)) =
      .ok ⟨twoSetsSession.dev, 3, 1, [9]⟩ := by decide +kernel
  have agree := scullRead_flat_iff (by decide) ran (by decide) replied (by decide)
  exact ⟨ran, agree.mpr (by decide)⟩

theorem scullWrite_changes_twin :
    StepMachine.run fileStep (.start ⟨2, 1⟩) twoSets = some twoSetsSession ∧
      perform twoSetsSession.dev (.read (.good fun _ => 0) 1 (0 : Nat)) =
        .ok ⟨twoSetsSession.dev, 1, 1, [9]⟩ ∧
      WriteLog.last 0 twoSetsSession.log 0 = 7 := by
  decide +kernel

end Ldd3.Scull
