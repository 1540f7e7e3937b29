import Mathlib.Tactic
import Ldd3.Scull.FlatFile
import Ldd3.Scull.Ownership

/-!
What one `scull_write` does to a well-formed device, block by block, and what it leaves as it is.
-/

namespace Ldd3.Scull

structure HeapDev.WellFormed (dev : HeapDev) : Prop where
  fits : Geometry.Fits ⟨dev.quantum, dev.qset⟩
  arrays : ∀ node ∈ dev.data, ∀ array, node.data = some array →
    array.entries.length = dev.qset.toNat ∧
      ∀ block, some block ∈ array.entries → block.bytes.length = dev.quantum.toNat

def quantumAt (nodes : List HeapQset) (index sPos : Nat) : Option HeapQuantum :=
  (nodes.getD index (.empty 0)).data.bind fun array => array.entries.getD sPos none

/-! Pointers that were not `NULL` and still are what they were. -/

structure HeapArray.Kept (old new : HeapArray) : Prop where
  named : new.id = old.id
  entries : ∀ (sPos : Nat) (block : HeapQuantum), old.entries[sPos]? = some (some block) →
    ∃ later : HeapQuantum, new.entries[sPos]? = some (some later) ∧ later.id = block.id

structure HeapQset.Kept (old new : HeapQset) : Prop where
  named : new.id = old.id
  data : ∀ array, old.data = some array → ∃ later, new.data = some later ∧ array.Kept later

def NodesKept (old new : List HeapQset) : Prop :=
  ∀ (index : Nat) (node : HeapQset), old[index]? = some node →
    ∃ later, new[index]? = some later ∧ node.Kept later

theorem HeapArray.Kept.refl (array : HeapArray) : array.Kept array :=
  ⟨rfl, fun _ block found => ⟨block, found, rfl⟩⟩

theorem HeapArray.Kept.trans {old between new : HeapArray} (first : old.Kept between)
    (second : between.Kept new) : old.Kept new := by
  refine ⟨second.named.trans first.named, ?_⟩
  intro sPos block found
  obtain ⟨middle, foundMiddle, sameMiddle⟩ := first.entries sPos block found
  obtain ⟨later, foundLater, sameLater⟩ := second.entries sPos middle foundMiddle
  exact ⟨later, foundLater, sameLater.trans sameMiddle⟩

theorem HeapQset.Kept.refl (node : HeapQset) : node.Kept node :=
  ⟨rfl, fun array found => ⟨array, found, .refl array⟩⟩

theorem HeapQset.Kept.trans {old between new : HeapQset} (first : old.Kept between)
    (second : between.Kept new) : old.Kept new := by
  refine ⟨second.named.trans first.named, ?_⟩
  intro array found
  obtain ⟨middle, foundMiddle, keptMiddle⟩ := first.data array found
  obtain ⟨later, foundLater, keptLater⟩ := second.data middle foundMiddle
  exact ⟨later, foundLater, keptMiddle.trans keptLater⟩

theorem HeapQset.Kept.of_none {node : HeapQset} (missing : node.data = none) (array : HeapArray) :
    node.Kept ⟨node.id, some array⟩ := by
  refine ⟨rfl, ?_⟩
  intro held present
  rw [missing] at present
  contradiction

theorem NodesKept.refl (nodes : List HeapQset) : NodesKept nodes nodes :=
  fun _ node found => ⟨node, found, .refl node⟩

theorem NodesKept.trans {old between new : List HeapQset} (first : NodesKept old between)
    (second : NodesKept between new) : NodesKept old new := by
  intro index node found
  obtain ⟨middle, foundMiddle, keptMiddle⟩ := first index node found
  obtain ⟨later, foundLater, keptLater⟩ := second index middle foundMiddle
  exact ⟨later, foundLater, keptMiddle.trans keptLater⟩

theorem NodesKept.cons {old new : List HeapQset} (kept : NodesKept old new) (node : HeapQset) :
    NodesKept (node :: old) (node :: new) := by
  intro index other found
  cases index with
  | zero => exact ⟨other, found, .refl other⟩
  | succ index => exact kept index other found

theorem NodesKept.set {nodes : List HeapQset} {index : Nat} {node other : HeapQset}
    (found : nodes[index]? = some node) (kept : node.Kept other) :
    NodesKept nodes (nodes.set index other) := by
  intro place old held
  by_cases same : place = index
  · subst same
    rw [found, Option.some.injEq] at held
    subst held
    exact ⟨other, List.getElem?_set_self (List.getElem?_eq_some_iff.mp found).1, kept⟩
  · exact ⟨old, by rw [List.getElem?_set_ne (Ne.symm same)]; exact held, .refl old⟩

theorem NodesKept.quantumAt {old new : List HeapQset} (kept : NodesKept old new)
    {index sPos : Nat} {block : HeapQuantum} (found : quantumAt old index sPos = some block) :
    ∃ later, quantumAt new index sPos = some later ∧ later.id = block.id := by
  obtain ⟨array, present, entered⟩ := Option.bind_eq_some_iff.mp found
  have inside : index < old.length := by
    by_contra outside
    rw [List.getD_eq_default _ _ (Nat.le_of_not_lt outside)] at present
    contradiction
  rw [List.getD_eq_getElem _ _ inside] at present
  obtain ⟨node, foundNode, keptNode⟩ := kept index _ (List.getElem?_eq_getElem inside)
  obtain ⟨newArray, newPresent, keptArray⟩ := keptNode.data array present
  have inArray : sPos < array.entries.length := by
    by_contra outside
    rw [List.getD_eq_default _ _ (Nat.le_of_not_lt outside)] at entered
    contradiction
  rw [List.getD_eq_getElem _ _ inArray] at entered
  obtain ⟨later, foundLater, same⟩ := keptArray.entries sPos block (by
    rw [List.getElem?_eq_getElem inArray, entered])
  refine ⟨later, ?_, same⟩
  simp only [Scull.quantumAt, List.getD_eq_getElem?_getD, foundNode, Option.getD_some, newPresent,
    Option.bind_some, foundLater]

theorem heapFollowNext_kept (alloc : Nat → Bool) (base : BlockId) (count : Nat)
    (after : List HeapQset) (used : Nat) :
    NodesKept after (heapFollowNext alloc base count after used).nodes := by
  induction count generalizing after used with
  | zero => exact .refl after
  | succ count ih =>
      cases after with
      | nil => exact fun _ _ found => nomatch found
      | cons node after => exact (ih after used).cons node

theorem heapFindItem_kept (alloc : Nat → Bool) (base : BlockId) (nodes : List HeapQset)
    (item : Int) : NodesKept nodes (heapFindItem alloc base nodes item).nodes := by
  cases nodes with
  | nil => exact fun _ _ found => nomatch found
  | cons curr after => exact (heapFollowNext_kept alloc base (findRounds item) after 0).cons curr

theorem NodesKept.entry {nodes : List HeapQset} {index sPos : Nat} {id : BlockId}
    {array : HeapArray} {old : Option HeapQuantum} {new : HeapQuantum}
    (found : nodes[index]? = some ⟨id, some array⟩) (entered : array.entries[sPos]? = some old)
    (same : ∀ held, old = some held → new.id = held.id) :
    NodesKept nodes (nodes.set index
      ⟨id, some { array with entries := array.entries.set sPos (some new) }⟩) := by
  refine .set found ⟨rfl, ?_⟩
  intro held present
  simp only [Option.some.injEq] at present
  subst present
  refine ⟨_, rfl, rfl, ?_⟩
  intro place block heldAt
  by_cases here : place = sPos
  · subst here
    rw [entered, Option.some.injEq] at heldAt
    exact ⟨new, List.getElem?_set_self (List.getElem?_eq_some_iff.mp entered).1, same block heldAt⟩
  · exact ⟨block, by rw [List.getElem?_set_ne (Ne.symm here)]; exact heldAt, rfl⟩

theorem Linked.kept {base : BlockId} {before nodes : List HeapQset} {used : Nat}
    {obtained : List BlockId} (linked : Linked base before used nodes obtained) :
    NodesKept before nodes := by
  induction linked with
  | untouched => exact .refl before
  | walked alloc item => exact heapFindItem_kept alloc base before item
  | failed _ ih => exact ih
  | array _ found _ ih => exact ih.trans (.set found (.of_none rfl _))
  | quantum _ found entered _ ih =>
      refine ih.trans (.entry found entered ?_)
      intro held absent
      contradiction
  | stored _ found entered _ ih =>
      refine ih.trans (.entry found entered ?_)
      intro held same
      rw [Option.some.inj same]

/-! The bytes. -/

theorem quantumAt_forget (nodes : List HeapQset) (index sPos : Nat) :
    (quantumAt nodes index sPos).map HeapQuantum.bytes =
      blockAt (nodes.map HeapQset.forget) index sPos := by
  simp only [quantumAt, blockAt, entryData_forget]
  cases (nodes.getD index (.empty 0)).data with
  | none => rfl
  | some array =>
      simp only [Option.bind_some, Option.map_some, HeapArray.forget, List.getD_eq_getElem?_getD,
        List.getElem?_map]
      cases array.entries[sPos]? <;> rfl

theorem shaped_forget (nodes : List HeapQset) (size blockSize : Nat) :
    Shaped size blockSize (nodes.map HeapQset.forget) ↔
      ∀ node ∈ nodes, ∀ array, node.data = some array →
        array.entries.length = size ∧
          ∀ block, some block ∈ array.entries → block.bytes.length = blockSize := by
  constructor
  · intro shaped node member array present
    have here := shaped node.forget (List.mem_map_of_mem member) array.forget (by
      simp only [HeapQset.forget, present, Option.map_some])
    rw [HeapArray.length_forget] at here
    exact ⟨here.1, fun block entered => here.2 block.bytes (List.mem_map_of_mem entered)⟩
  · intro arrays node member array present
    obtain ⟨named, listed, rfl⟩ := List.mem_map.mp member
    obtain ⟨held, found, rfl⟩ := Option.map_eq_some_iff.mp present
    obtain ⟨length, blocks⟩ := arrays named listed held found
    refine ⟨by rw [HeapArray.length_forget]; exact length, ?_⟩
    intro bytes entered
    obtain ⟨entry, listedEntry, named⟩ := List.mem_map.mp entered
    obtain ⟨block, rfl, rfl⟩ := Option.map_eq_some_iff.mp named
    exact blocks block listedEntry

def HeapDev.place (dev : HeapDev) (position : Nat) : Nat × Nat :=
  (position / dev.forget.itemsize - 1, position % dev.forget.itemsize / dev.quantum.toNat)

def HeapDev.Covers (dev : HeapDev) (position count : Nat) (place : Nat × Nat) (offset : Nat) :
    Prop :=
  place = dev.place position ∧ position % dev.quantum.toNat ≤ offset ∧
    offset < position % dev.quantum.toNat + count

structure Stored (dev : HeapDev) (data : List Byte) (position : Nat) (reply : HeapReply) :
    Prop where
  count : reply.ret.toNat = min data.length (dev.quantum.toNat - position % dev.quantum.toNat)
  fPos : reply.fPos = position + reply.ret
  size : reply.dev.size = max dev.size (position + reply.ret.toNat)
  written : ∃ block,
    quantumAt reply.dev.data (dev.place position).1 (dev.place position).2 = some block ∧
      Block.slice block.bytes (position % dev.quantum.toNat) reply.ret.toNat =
        data.take reply.ret.toNat
  others : ∀ index sPos old, quantumAt dev.data index sPos = some old →
    ∃ later, quantumAt reply.dev.data index sPos = some later ∧ later.id = old.id ∧
      ∀ offset, ¬dev.Covers position reply.ret.toNat (index, sPos) offset →
        later.bytes[offset]? = old.bytes[offset]?
  fresh : ∀ index sPos block, quantumAt reply.dev.data index sPos = some block →
    quantumAt dev.data index sPos = none → (index, sPos) = dev.place position ∧
      ∀ offset < dev.quantum.toNat, ¬dev.Covers position reply.ret.toNat (index, sPos) offset →
        block.bytes[offset]? = some 0

theorem WriteResult.positive {env : Env} {quantum fPos : Int} {qset blockSize : Nat}
    {dev : ScullDev} {data : List Byte} {pos : Position} {reply : Reply}
    (result : WriteResult env quantum qset blockSize dev data fPos pos reply)
    (positive : 0 < reply.ret) :
    ∃ extra, env.faults (limitToQuantum quantum pos.qPos data.length) = false ∧
      findRounds pos.item < dev.data.length + extra ∧
      reply.dev.data = storedNodes qset blockSize (grow dev.data extra) pos
        (env.copied (data.take (limitToQuantum quantum pos.qPos data.length))) ∧
      reply.dev.size = max dev.size
        (CInt.uint64 (CInt.int64 (fPos + limitToQuantum quantum pos.qPos data.length))) ∧
      reply.fPos = CInt.int64 (fPos + limitToQuantum quantum pos.qPos data.length) ∧
      reply.ret = limitToQuantum quantum pos.qPos data.length := by
  cases result with
  | interrupted _ => exact absurd positive (by simp [ERESTARTSYS])
  | noNode _ _ _ => exact absurd positive (by simp [ENOMEM])
  | noQuantum _ _ _ _ => exact absurd positive (by simp [ENOMEM])
  | faulted _ _ _ => exact absurd positive (by simp [EFAULT])
  | stored extra complete bound => exact ⟨extra, complete, bound, rfl, rfl, rfl, rfl⟩

section Write

variable {dev : HeapDev} {data bytes : List Byte} {position : Nat} {reply : HeapReply}

def HeapDev.Overwritten (dev : HeapDev) (position : Nat) (bytes : List Byte)
    (nodes : List HeapQset) : Prop :=
  ∀ index sPos, (quantumAt nodes index sPos).map HeapQuantum.bytes =
    if (index, sPos) = dev.place position then
      some (Block.overwrite (((quantumAt dev.data index sPos).map HeapQuantum.bytes).getD
        (List.replicate dev.quantum.toNat 0)) (position % dev.quantum.toNat) bytes)
    else (quantumAt dev.data index sPos).map HeapQuantum.bytes

theorem quantumAt_length (wellFormed : dev.WellFormed) {index sPos : Nat} {block : HeapQuantum}
    (found : quantumAt dev.data index sPos = some block) :
    block.bytes.length = dev.quantum.toNat := by
  have shaped := (shaped_forget dev.data dev.qset.toNat dev.quantum.toNat).mpr wellFormed.arrays
  have held := quantumAt_forget dev.data index sPos
  rw [found] at held
  exact blockAt_length shaped held.symm

theorem overwritten_written {nodes : List HeapQset} (wellFormed : dev.WellFormed)
    (fits : position % dev.quantum.toNat + bytes.length ≤ dev.quantum.toNat)
    (overwritten : dev.Overwritten position bytes nodes) :
    ∃ block, quantumAt nodes (dev.place position).1 (dev.place position).2 = some block ∧
      Block.slice block.bytes (position % dev.quantum.toNat) bytes.length = bytes := by
  have here := overwritten (dev.place position).1 (dev.place position).2
  rw [if_pos rfl] at here
  obtain ⟨block, found, stored⟩ := Option.map_eq_some_iff.mp here
  refine ⟨block, found, ?_⟩
  rw [stored]
  apply Block.slice_overwrite_same
  cases held : quantumAt dev.data (dev.place position).1 (dev.place position).2 with
  | none => simpa using fits
  | some old =>
      rw [Option.map_some, Option.getD_some, quantumAt_length wellFormed held]
      exact fits

theorem overwritten_others {nodes : List HeapQset} (wellFormed : dev.WellFormed)
    (fits : position % dev.quantum.toNat + bytes.length ≤ dev.quantum.toNat)
    (overwritten : dev.Overwritten position bytes nodes) {index sPos : Nat}
    {old later : HeapQuantum} (found : quantumAt dev.data index sPos = some old)
    (foundLater : quantumAt nodes index sPos = some later) {offset : Nat}
    (outside : ¬dev.Covers position bytes.length (index, sPos) offset) :
    later.bytes[offset]? = old.bytes[offset]? := by
  have here := overwritten index sPos
  simp only [found, foundLater, Option.map_some, Option.getD_some] at here
  by_cases place : (index, sPos) = dev.place position
  · rw [if_pos place, Option.some.injEq] at here
    have length := quantumAt_length wellFormed found
    rw [here, Block.getElem?_overwrite (by rw [length]; exact fits), if_neg]
    exact fun covered => outside ⟨place, covered⟩
  · rw [if_neg place, Option.some.injEq] at here
    rw [here]

theorem overwritten_fresh {nodes : List HeapQset}
    (fits : position % dev.quantum.toNat + bytes.length ≤ dev.quantum.toNat)
    (overwritten : dev.Overwritten position bytes nodes) {index sPos : Nat} {block : HeapQuantum}
    (found : quantumAt nodes index sPos = some block)
    (missing : quantumAt dev.data index sPos = none) :
    (index, sPos) = dev.place position ∧ ∀ offset < dev.quantum.toNat,
      ¬dev.Covers position bytes.length (index, sPos) offset → block.bytes[offset]? = some 0 := by
  have here := overwritten index sPos
  simp only [found, missing, Option.map_some, Option.map_none, Option.getD_none] at here
  by_cases place : (index, sPos) = dev.place position
  · refine ⟨place, ?_⟩
    intro offset inside outside
    rw [if_pos place, Option.some.injEq] at here
    rw [here, Block.getElem?_overwrite (by simpa using fits), if_neg,
      List.getElem?_replicate, if_pos inside]
    exact fun covered => outside ⟨place, covered⟩
  · rw [if_neg place] at here
    contradiction

structure HeapDev.Locates (dev : HeapDev) (position : Nat) (pos : Position) : Prop where
  inside : PositionInside dev.quantum dev.qset dev.quantum.toNat pos
  place : (findRounds pos.item, pos.sPos.toNat) = dev.place position
  offset : pos.qPos.toNat = position % dev.quantum.toNat

theorem overwritten_of_stored (wellFormed : dev.WellFormed) {nodes : List HeapQset}
    {pos : Position} {extra : Nat} (bound : findRounds pos.item < dev.data.length + extra)
    (located : dev.Locates position pos)
    (stored : nodes.map HeapQset.forget = storedNodes dev.qset.toNat dev.quantum.toNat
      (grow dev.forget.data extra) pos bytes) : dev.Overwritten position bytes nodes := by
  have shaped : Shaped dev.qset.toNat dev.quantum.toNat dev.forget.data :=
    (shaped_forget dev.data dev.qset.toNat dev.quantum.toNat).mpr wellFormed.arrays
  have nodeBound : findRounds pos.item < (grow dev.forget.data extra).length := by
    simpa [HeapDev.forget] using bound
  have entryBound : pos.sPos.toNat < dev.qset.toNat := by
    have lower := located.inside.sLower
    have upper := located.inside.sUpper
    omega
  intro index sPos
  rw [quantumAt_forget, quantumAt_forget, stored,
    blockAt_storedNodes (shaped_append_empty shaped extra) nodeBound entryBound, blockAt_grow,
    ← located.place, located.offset]
  simp only [Prod.mk.injEq]
  rfl

theorem position_bound (wellFormed : dev.WellFormed) (itemFits : ItemFits dev.forget position) :
    position < 4611686018427387904 ∧ dev.quantum.toNat < 2147483648 := by
  obtain ⟨quantumPositive, qsetPositive, productFits⟩ := wellFormed.fits
  simp only at quantumPositive qsetPositive productFits
  have product : (dev.quantum.toNat : Int) * dev.qset.toNat = dev.quantum * dev.qset := by
    rw [Int.toNat_of_nonneg quantumPositive.le, Int.toNat_of_nonneg qsetPositive.le]
  have itemsize : dev.quantum.toNat * dev.qset.toNat < 2147483648 := by
    rw [← product] at productFits
    exact_mod_cast productFits
  have positive : 0 < dev.quantum.toNat * dev.qset.toNat :=
    Nat.mul_pos (by omega) (by omega)
  have quantumLe : dev.quantum.toNat ≤ dev.quantum.toNat * dev.qset.toNat :=
    Nat.le_mul_of_pos_right _ (by omega)
  have beyond := (Nat.div_lt_iff_lt_mul positive).mp itemFits
  exact ⟨by omega, by omega⟩

theorem written_end (wellFormed : dev.WellFormed) (itemFits : ItemFits dev.forget position)
    {count : Nat} (fits : position % dev.quantum.toNat + count ≤ dev.quantum.toNat) :
    CInt.int64 (position + count) = (position + count : Nat) ∧
      CInt.uint64 (position + count : Nat) = position + count := by
  obtain ⟨positionBound, quantumBound⟩ := position_bound wellFormed itemFits
  have endBound : position + count < 9223372036854775808 := by omega
  constructor
  · rw [← Nat.cast_add]
    exact CInt.int64_natCast endBound
  · exact CInt.uint64_natCast (endBound.trans (by decide))

theorem HeapDev.Locates.limit {pos : Position} (located : dev.Locates position pos) (count : Nat) :
    limitToQuantum dev.quantum pos.qPos count =
      min count (dev.quantum.toNat - position % dev.quantum.toNat) := by
  have lower := located.inside.qLower
  have offset := located.offset
  rw [limitToQuantum_le count lower located.inside.qUpper located.inside.quantumFits]
  omega

theorem heapWrite_result (env : Env) (base : BlockId) (data : List Byte)
    (wellFormed : dev.WellFormed) (itemFits : ItemFits dev.forget position) :
    ∃ pos reply, dev.Locates position pos ∧
      heapWrite env base dev.quantum dev.qset dev data position = .ok reply ∧
      WriteResult env dev.quantum dev.qset.toNat dev.quantum.toNat dev.forget data position pos
        reply.forget := by
  obtain ⟨pos, computed, inside, node, entry, offset⟩ := located wellFormed.fits itemFits
  have quantumPositive : 0 < dev.quantum := wellFormed.fits.1
  have shaped : Shaped dev.qset.toNat dev.quantum.toNat dev.forget.data :=
    (shaped_forget dev.data dev.qset.toNat dev.quantum.toNat).mpr wellFormed.arrays
  have zeroed := kmallocQuantum_zeroed quantumPositive.le inside.quantumFits env
  obtain ⟨plain, replied, result⟩ : ∃ plain,
      scullWrite env dev.quantum dev.qset dev.forget data position = .ok plain ∧
        WriteResult env dev.quantum dev.qset.toNat dev.quantum.toNat dev.forget data position pos
          plain := scullWriteWith_result data zeroed computed inside shaped
  have forgets : (heapWrite env base dev.quantum dev.qset dev data position).map HeapReply.forget =
      .ok plain := (heapWrite_forget env base dev.quantum dev.qset dev data position).trans replied
  cases written : heapWrite env base dev.quantum dev.qset dev data position with
  | error oops => simp [written, Except.map] at forgets
  | ok reply =>
      simp only [written, Except.map, Except.ok.injEq] at forgets
      rw [← forgets] at result
      refine ⟨pos, reply, ⟨inside, ?_, ?_⟩, rfl, result⟩
      · rw [node, entry]
        rfl
      · rw [offset]
        exact Int.toNat_natCast _

theorem stored_of_result {env : Env} {pos : Position} (wellFormed : dev.WellFormed)
    (itemFits : ItemFits dev.forget position) (located : dev.Locates position pos)
    (result : WriteResult env dev.quantum dev.qset.toNat dev.quantum.toNat dev.forget data position
      pos reply.forget)
    (kept : NodesKept dev.data reply.dev.data) (positive : 0 < reply.ret) :
    Stored dev data position reply := by
  obtain ⟨extra, complete, bound, stored, size, fPos, ret⟩ := result.positive positive
  obtain ⟨count, limited⟩ : ∃ count, limitToQuantum dev.quantum pos.qPos data.length = count :=
    ⟨_, rfl⟩
  have limit := located.limit data.length
  have inQuantum : position % dev.quantum.toNat < dev.quantum.toNat :=
    Nat.mod_lt position (by have positive := wellFormed.fits.1; simp only at positive; omega)
  rw [limited] at complete stored size fPos ret limit
  have length : (data.take count).length = count := by
    rw [List.length_take]
    omega
  have fits : position % dev.quantum.toNat + (data.take count).length ≤ dev.quantum.toNat := by
    omega
  have whole : env.copied (data.take count) = data.take count :=
    Env.copied_of_no_fault (by rw [length]; exact complete)
  rw [whole] at stored
  have overwritten : dev.Overwritten position (data.take count) reply.dev.data :=
    overwritten_of_stored wellFormed (by simpa [HeapDev.forget] using bound) located stored
  obtain ⟨end64, endNat⟩ := written_end wellFormed itemFits (length ▸ fits)
  have answered : reply.ret = count := ret
  have returned : reply.ret.toNat = count := by
    rw [answered]
    exact Int.toNat_natCast count
  constructor
  · rw [returned, limit]
  · rw [answered, ← Nat.cast_add]
    exact fPos.trans end64
  · rw [end64, endNat] at size
    rw [returned]
    exact size
  · have written := overwritten_written wellFormed fits overwritten
    rw [length] at written
    rw [returned]
    exact written
  · intro index sPos old found
    obtain ⟨later, foundLater, named⟩ := kept.quantumAt found
    refine ⟨later, foundLater, named, ?_⟩
    intro offset outside
    rw [returned, ← length] at outside
    exact overwritten_others wellFormed fits overwritten found foundLater outside
  · intro index sPos block found missing
    have fresh := overwritten_fresh fits overwritten found missing
    rw [length] at fresh
    rw [returned]
    exact fresh

/-- On a well-formed device `scull_write` makes no access out of bounds and keeps the device
well formed, and when it returns `n > 0` it has stored `n` bytes of one quantum and nothing
else has changed. -/
theorem scullWrite_stores (env : Env) (base : BlockId) (data : List Byte)
    (wellFormed : dev.WellFormed) (itemFits : ItemFits dev.forget position) :
    ∃ reply, heapWrite env base dev.quantum dev.qset dev data position = .ok reply ∧
      reply.dev.WellFormed ∧ NodesKept dev.data reply.dev.data ∧
      (0 < reply.ret → Stored dev data position reply) := by
  obtain ⟨pos, reply, located, written, result⟩ :=
    heapWrite_result env base data wellFormed itemFits
  have shaped : Shaped dev.qset.toNat dev.quantum.toNat dev.forget.data :=
    (shaped_forget dev.data dev.qset.toNat dev.quantum.toNat).mpr wellFormed.arrays
  have kept := (heapWrite_linked written).kept
  obtain ⟨quantumSame, qsetSame⟩ : reply.dev.quantum = dev.quantum ∧ reply.dev.qset = dev.qset :=
    result.geometry
  refine ⟨reply, written, ⟨?_, ?_⟩, kept, ?_⟩
  · rw [quantumSame, qsetSame]
    exact wellFormed.fits
  · rw [quantumSame, qsetSame]
    exact (shaped_forget _ _ _).mp (result.shaped located.inside shaped)
  · exact stored_of_result wellFormed itemFits located result kept

def oneQuantum : HeapDev :=
  { data := [⟨0, some ⟨1, [some ⟨2, [5, 6]⟩, none]⟩⟩], quantum := 2, qset := 2, size := 2 }

theorem scullWrite_stores_beside :
    ∃ reply, heapWrite (.good fun _ => 0) 3 oneQuantum.quantum oneQuantum.qset oneQuantum [7, 8, 9]
        ((3 : Nat) : Int) = .ok reply ∧
      reply.dev.WellFormed ∧ NodesKept oneQuantum.data reply.dev.data ∧
      (0 < reply.ret → Stored oneQuantum [7, 8, 9] 3 reply) := by
  have wellFormed : oneQuantum.WellFormed := ⟨by decide, by simp [oneQuantum]⟩
  have itemFits : ItemFits oneQuantum.forget 3 := by decide
  exact scullWrite_stores (.good fun _ => 0) 3 [7, 8, 9] wellFormed itemFits

end Write

end Ldd3.Scull
