import Mathlib.Tactic
import Ldd3.Scull.Core

/-!
What one call does to the list of quantum sets, for any answers of the
environment: the list grows by empty nodes, at most one node gets a pointer
array, and at most one quantum gets new bytes.
-/

namespace Ldd3.Scull

structure Geometry.Positive (geometry : Geometry) : Prop where
  quantum : 0 < geometry.quantum
  qset : 0 < geometry.qset
  quantumFits : CInt.FitsInt geometry.quantum
  qsetFits : CInt.FitsInt geometry.qset

instance (geometry : Geometry) : Decidable geometry.Positive :=
  decidable_of_iff (0 < geometry.quantum ∧ 0 < geometry.qset ∧ CInt.FitsInt geometry.quantum ∧
    CInt.FitsInt geometry.qset)
    ⟨fun parts => ⟨parts.1, parts.2.1, parts.2.2.1, parts.2.2.2⟩,
      fun positive => ⟨positive.quantum, positive.qset, positive.quantumFits, positive.qsetFits⟩⟩

def grow (nodes : List ScullQset) (extra : Nat) : List ScullQset :=
  nodes ++ List.replicate extra .empty

@[simp] theorem length_grow (nodes : List ScullQset) (extra : Nat) :
    (grow nodes extra).length = nodes.length + extra := by
  simp [grow]

@[simp] theorem grow_cons (node : ScullQset) (nodes : List ScullQset) (extra : Nat) :
    grow (node :: nodes) extra = node :: grow nodes extra := by
  rw [grow, List.cons_append, grow]

@[simp] theorem grow_zero (nodes : List ScullQset) : grow nodes 0 = nodes := by
  simp [grow]

theorem grow_nil_succ (extra : Nat) : grow [] (extra + 1) = .empty :: grow [] extra := by
  rw [grow, grow, List.nil_append, List.nil_append, List.replicate_succ]

def Shaped (qset blockSize : Nat) (nodes : List ScullQset) : Prop :=
  ∀ node ∈ nodes, ∀ array, node.data = some array →
    array.length = qset ∧ ∀ block, some block ∈ array → block.length = blockSize

theorem shaped_append_empty {qset blockSize : Nat} {nodes : List ScullQset}
    (shaped : Shaped qset blockSize nodes) (extra : Nat) :
    Shaped qset blockSize (grow nodes extra) := by
  intro node member array found
  rcases List.mem_append.mp member with old | fresh
  · exact shaped node old array found
  · rw [List.eq_of_mem_replicate fresh] at found
    simp [ScullQset.empty] at found

theorem shaped_set {qset blockSize : Nat} {nodes : List ScullQset} {index : Nat}
    {array : PointerArray} (shaped : Shaped qset blockSize nodes) (length : array.length = qset)
    (blocks : ∀ block, some block ∈ array → block.length = blockSize) :
    Shaped qset blockSize (nodes.set index ⟨some array⟩) := by
  intro node member other found
  rcases List.mem_or_eq_of_mem_set member with old | same
  · exact shaped node old other found
  · subst same
    simp only [Option.some.injEq] at found
    subst found
    exact ⟨length, blocks⟩

/-! Positions. -/

theorem tmod_int32_bounds {quantum qset fPos : Int} (quantumPositive : 0 < quantum)
    (qsetPositive : 0 < qset) (nonneg : 0 ≤ fPos) (nonzero : CInt.int32 (quantum * qset) ≠ 0) :
    0 ≤ fPos.tmod (CInt.int32 (quantum * qset)) ∧
      fPos.tmod (CInt.int32 (quantum * qset)) < quantum * qset ∧
      CInt.FitsInt (fPos.tmod (CInt.int32 (quantum * qset))) := by
  have product : 0 < quantum * qset := Int.mul_pos quantumPositive qsetPositive
  have magnitude := CInt.natAbs_int32_le product.le
  have fits := CInt.int32_fits (quantum * qset)
  have lower := Int.tmod_nonneg (CInt.int32 (quantum * qset)) nonneg
  have upper : (fPos.tmod (CInt.int32 (quantum * qset))).natAbs <
      (CInt.int32 (quantum * qset)).natAbs := by
    rw [Int.natAbs_tmod]
    exact Nat.mod_lt _ (by omega)
  simp only [CInt.FitsInt] at fits ⊢
  omega

theorem tdiv_lt_of_lt_mul {value quantum qset : Int} (quantumPositive : 0 < quantum)
    (nonneg : 0 ≤ value) (bound : value < quantum * qset) :
    0 ≤ value.tdiv quantum ∧ value.tdiv quantum < qset := by
  rw [Int.tdiv_eq_ediv_of_nonneg nonneg]
  refine ⟨Int.ediv_nonneg nonneg quantumPositive.le, ?_⟩
  exact Int.ediv_lt_of_lt_mul quantumPositive (by rwa [Int.mul_comm] at bound)

theorem tmod_bounds {value quantum : Int} (quantumPositive : 0 < quantum) (nonneg : 0 ≤ value) :
    0 ≤ value.tmod quantum ∧ value.tmod quantum < quantum := by
  rw [Int.tmod_eq_emod_of_nonneg nonneg]
  exact ⟨Int.emod_nonneg _ quantumPositive.ne', Int.emod_lt_of_pos _ quantumPositive⟩

/-- For positive `int` values of the geometry the indices are in range even where
`quantum * qset` overflows; the only failure is a product that wraps to zero. -/
theorem calculatePositions_bounds {quantum qset fPos : Int} (quantumPositive : 0 < quantum)
    (qsetPositive : 0 < qset) (nonneg : 0 ≤ fPos) :
    calculatePositions quantum qset fPos = .error .divide ∨
      ∃ pos, calculatePositions quantum qset fPos = .ok pos ∧ 0 ≤ pos.sPos ∧ pos.sPos < qset ∧
        0 ≤ pos.qPos ∧ pos.qPos < quantum := by
  by_cases zero : CInt.int32 (quantum * qset) = 0
  · left
    simp only [calculatePositions, zero, ↓reduceIte]
  · right
    obtain ⟨lower, upper, fits⟩ := tmod_int32_bounds quantumPositive qsetPositive nonneg zero
    refine ⟨_, by simp only [calculatePositions, zero, quantumPositive.ne', ↓reduceIte]; rfl, ?_⟩
    simp only [CInt.int32_of_fits fits]
    have sBounds := tdiv_lt_of_lt_mul quantumPositive lower upper
    have qBounds := tmod_bounds quantumPositive lower
    exact ⟨sBounds.1, sBounds.2, qBounds.1, qBounds.2⟩

/-! The list walk. -/

theorem followNext_spec (alloc : Nat → Bool) (count : Nat) (after : List ScullQset) (used : Nat) :
    ∃ extra, (followNext alloc count after used).nodes = grow after extra ∧
      ∀ index, (followNext alloc count after used).index = some index →
        index = count ∧ index ≤ after.length + extra := by
  induction count generalizing after used with
  | zero => exact ⟨0, by simp [followNext], by simp [followNext]⟩
  | succ count ih =>
      cases after with
      | nil =>
          simp only [followNext]
          split
          · obtain ⟨extra, nodes, indices⟩ := ih [] (used + 1)
            refine ⟨extra + 1, by simp [nodes, grow_nil_succ], ?_⟩
            intro index found
            obtain ⟨inner, innerFound, rfl⟩ := Option.map_eq_some_iff.mp found
            have bound := indices inner innerFound
            simp only [List.length_nil] at bound ⊢
            omega
          · exact ⟨0, by simp, by simp⟩
      | cons node after =>
          simp only [followNext]
          obtain ⟨extra, nodes, indices⟩ := ih after used
          refine ⟨extra, by simp [nodes], ?_⟩
          intro index found
          obtain ⟨inner, innerFound, rfl⟩ := Option.map_eq_some_iff.mp found
          have bound := indices inner innerFound
          simp only [List.length_cons]
          omega

theorem followNext_found {alloc : Nat → Bool} (succeeds : ∀ index, alloc index = true)
    (count : Nat) (after : List ScullQset) (used : Nat) :
    (followNext alloc count after used).index = some count := by
  induction count generalizing after used with
  | zero => rfl
  | succ count ih =>
      cases after with
      | nil => simp only [followNext, succeeds, ↓reduceIte, ih, Option.map_some]
      | cons node after => simp only [followNext, ih, Option.map_some]

theorem scullFindItem_spec (alloc : Nat → Bool) (nodes : List ScullQset) (item : Int) :
    ∃ extra, (scullFindItem alloc nodes item).nodes = grow nodes extra ∧
      ∀ index, (scullFindItem alloc nodes item).index = some index →
        index = findRounds item ∧ index < nodes.length + extra := by
  cases nodes with
  | nil =>
      simp only [scullFindItem]
      split
      · obtain ⟨extra, grown, indices⟩ := followNext_spec alloc (findRounds item) [] 1
        refine ⟨extra + 1, by simp [grown, grow_nil_succ], ?_⟩
        intro index found
        have bound := indices index found
        simp only [List.length_nil] at bound ⊢
        omega
      · exact ⟨0, by simp, by simp⟩
  | cons curr after =>
      obtain ⟨extra, grown, indices⟩ := followNext_spec alloc (findRounds item) after 0
      refine ⟨extra, by simp [scullFindItem, grown], ?_⟩
      intro index found
      have bound := indices index found
      simp only [List.length_cons]
      omega

theorem scullFindItem_found {alloc : Nat → Bool} (succeeds : ∀ index, alloc index = true)
    (nodes : List ScullQset) (item : Int) :
    (scullFindItem alloc nodes item).index = some (findRounds item) := by
  cases nodes with
  | nil => simp only [scullFindItem, succeeds, ↓reduceIte, followNext_found succeeds]
  | cons curr after => simp only [scullFindItem, followNext_found succeeds]

theorem scullFindItem_none {alloc : Nat → Bool} {nodes : List ScullQset} {item : Int}
    (missing : (scullFindItem alloc nodes item).index = none) : ∃ failed, alloc failed = false := by
  by_contra noFailure
  have succeeds (index : Nat) : alloc index = true := by
    by_contra failed
    exact noFailure ⟨index, by simpa using failed⟩
  rw [scullFindItem_found succeeds] at missing
  contradiction

/-! Writing. -/

def nodeArray (qset : Nat) (nodes : List ScullQset) (index : Nat) : PointerArray :=
  (nodes.getD index .empty).data.getD (List.replicate qset none)

def arrayBlock (blockSize : Nat) (array : PointerArray) (sPos : Nat) : List Byte :=
  (array.getD sPos none).getD (List.replicate blockSize 0)

def storedNodes (qset blockSize : Nat) (nodes : List ScullQset) (pos : Position)
    (bytes : List Byte) : List ScullQset :=
  let array := nodeArray qset nodes (findRounds pos.item)
  let block := Block.overwrite (arrayBlock blockSize array pos.sPos.toNat) pos.qPos.toNat bytes
  nodes.set (findRounds pos.item) ⟨some (array.set pos.sPos.toNat (some block))⟩

inductive WriteResult (env : Env) (quantum : Int) (qset blockSize : Nat) (dev : ScullDev)
    (data : List Byte) (fPos : Int) (pos : Position) : Reply → Prop
  | interrupted : env.interrupted = true →
      WriteResult env quantum qset blockSize dev data fPos pos ⟨dev, fPos, -ERESTARTSYS, []⟩
  | noNode (extra failed : Nat) : env.alloc failed = false →
      WriteResult env quantum qset blockSize dev data fPos pos
        ⟨{ dev with data := grow dev.data extra }, fPos, -ENOMEM, []⟩
  | noQuantum (extra failed : Nat) : env.alloc failed = false →
      findRounds pos.item < dev.data.length + extra →
      WriteResult env quantum qset blockSize dev data fPos pos
        ⟨{ dev with
            data := (grow dev.data extra).set (findRounds pos.item)
              ⟨some (nodeArray qset (grow dev.data extra)
                (findRounds pos.item))⟩ }, fPos, -ENOMEM, []⟩
  | faulted (extra : Nat) : env.faults (limitToQuantum quantum pos.qPos data.length) = true →
      findRounds pos.item < dev.data.length + extra →
      WriteResult env quantum qset blockSize dev data fPos pos
        ⟨{ dev with
            data := storedNodes qset blockSize (grow dev.data extra) pos
              (env.copied (data.take (limitToQuantum quantum pos.qPos data.length))) },
          fPos, -EFAULT, []⟩
  | stored (extra : Nat) : env.faults (limitToQuantum quantum pos.qPos data.length) = false →
      findRounds pos.item < dev.data.length + extra →
      WriteResult env quantum qset blockSize dev data fPos pos
        ⟨{ dev with
            data := storedNodes qset blockSize (grow dev.data extra) pos
              (env.copied (data.take (limitToQuantum quantum pos.qPos data.length)))
            size := max dev.size
              (CInt.uint64 (CInt.int64 (fPos + limitToQuantum quantum pos.qPos data.length))) },
          CInt.int64 (fPos + limitToQuantum quantum pos.qPos data.length),
          limitToQuantum quantum pos.qPos data.length, []⟩

theorem limitToQuantum_le {quantum qPos : Int} (count : Nat) (lower : 0 ≤ qPos)
    (upper : qPos < quantum) (fits : CInt.FitsInt quantum) :
    limitToQuantum quantum qPos count = min count (quantum - qPos).toNat := by
  simp only [CInt.FitsInt] at fits
  simp only [limitToQuantum, CInt.uint64_of_range (by omega : 0 ≤ quantum - qPos) (by omega)]
  split <;> omega

theorem entryAt_ok (array : PointerArray) {sPos : Int} (lower : 0 ≤ sPos)
    (upper : sPos.toNat < array.length) : entryAt array sPos = .ok (array.getD sPos.toNat none) := by
  simp only [entryAt, lower, upper, and_self, ↓reduceIte]

theorem entryAt_inside {array : PointerArray} {sPos : Int} {entry : Option (List Byte)}
    (entered : entryAt array sPos = .ok entry) :
    sPos.toNat < array.length ∧ entry = array.getD sPos.toNat none := by
  simp only [entryAt] at entered
  split at entered
  · rename_i inside
    simp only [Except.ok.injEq] at entered
    exact ⟨inside.2, entered.symm⟩
  · contradiction

theorem limitToQuantum_le_count (quantum qPos : Int) (count : Nat) :
    limitToQuantum quantum qPos count ≤ count := by
  simp only [limitToQuantum]
  split <;> omega

section Write

variable {allocQuantum : Env → Nat → Except Oops (Option (List Byte))} {env : Env}
  {quantum qset fPos : Int} {blockSize : Nat} {dev : ScullDev} {data : List Byte} {pos : Position}

def ZeroedAlloc (allocQuantum : Env → Nat → Except Oops (Option (List Byte))) (env : Env)
    (blockSize : Nat) : Prop :=
  ∀ used, allocQuantum env used =
    if env.alloc used then .ok (some (List.replicate blockSize 0)) else .ok none

structure PositionInside (quantum qset : Int) (blockSize : Nat) (pos : Position) : Prop where
  sLower : 0 ≤ pos.sPos
  sUpper : pos.sPos < qset
  qLower : 0 ≤ pos.qPos
  qUpper : pos.qPos < quantum
  quantumFits : CInt.FitsInt quantum
  quantumInBlock : quantum ≤ blockSize

theorem PositionInside.inBlock (inside : PositionInside quantum qset blockSize pos)
    {block : List Byte} (length : block.length = blockSize) (count : Nat) :
    InBlock block pos.qPos (limitToQuantum quantum pos.qPos count) := by
  have bounds := inside.quantumInBlock
  have qLower := inside.qLower
  have qUpper := inside.qUpper
  rw [limitToQuantum_le count qLower qUpper inside.quantumFits]
  simp only [InBlock]
  omega

theorem copyIntoQuantum_result (inside : PositionInside quantum qset blockSize pos)
    {nodes : List ScullQset} {array : PointerArray} {block : List Byte}
    (length : block.length = blockSize) :
    copyIntoQuantum env quantum { dev with data := nodes } data fPos pos.qPos
        (findRounds pos.item) array pos.sPos.toNat block =
      let count := limitToQuantum quantum pos.qPos data.length
      let stored := nodes.set (findRounds pos.item) ⟨some (array.set pos.sPos.toNat
        (some (Block.overwrite block pos.qPos.toNat (env.copied (data.take count)))))⟩
      if env.faults count then .ok ⟨{ dev with data := stored }, fPos, -EFAULT, []⟩
      else .ok ⟨{ dev with
        data := stored, size := max dev.size (CInt.uint64 (CInt.int64 (fPos + count))) },
        CInt.int64 (fPos + count), count, []⟩ := by
  simp only [copyIntoQuantum, inside.inBlock length data.length, ↓reduceIte]

theorem nodeArray_length {nodes : List ScullQset} {index qset : Nat}
    (shaped : Shaped qset blockSize nodes) : (nodeArray qset nodes index).length = qset := by
  simp only [nodeArray]
  by_cases inside : index < nodes.length
  · rw [List.getD_eq_getElem _ _ inside]
    cases found : nodes[index].data with
    | none => simp
    | some array => exact (shaped _ (List.getElem_mem inside) array found).1
  · rw [List.getD_eq_default _ _ (by omega)]
    simp [ScullQset.empty]

theorem nodeArray_blocks {nodes : List ScullQset} {qset : Nat}
    (shaped : Shaped qset blockSize nodes) (index : Nat) :
    ∀ block, some block ∈ nodeArray qset nodes index → block.length = blockSize := by
  intro block member
  simp only [nodeArray] at member
  by_cases inside : index < nodes.length
  · rw [List.getD_eq_getElem _ _ inside] at member
    cases found : nodes[index].data with
    | none => simp [found] at member
    | some array =>
        simp only [found, Option.getD_some] at member
        exact (shaped _ (List.getElem_mem inside) array found).2 block member
  · rw [List.getD_eq_default _ _ (by omega)] at member
    simp [ScullQset.empty] at member

theorem arrayBlock_length {array : PointerArray}
    (blocks : ∀ block, some block ∈ array → block.length = blockSize) (sPos : Nat) :
    (arrayBlock blockSize array sPos).length = blockSize := by
  simp only [arrayBlock]
  by_cases inside : sPos < array.length
  · rw [List.getD_eq_getElem _ _ inside]
    cases found : array[sPos] with
    | none => simp
    | some block => exact blocks block (found ▸ List.getElem_mem inside)
  · rw [List.getD_eq_default _ _ (by omega)]
    simp

theorem getD_mem {array : PointerArray} {sPos : Nat} {block : List Byte}
    (found : array.getD sPos none = some block) : some block ∈ array := by
  by_cases inside : sPos < array.length
  · rw [List.getD_eq_getElem _ _ inside] at found
    exact found ▸ List.getElem_mem inside
  · rw [List.getD_eq_default _ _ (by omega)] at found
    contradiction

theorem withArray_result (data : List Byte) (fPos : Int)
    (zeroed : ZeroedAlloc allocQuantum env blockSize)
    (inside : PositionInside quantum qset blockSize pos)
    (shaped : Shaped qset.toNat blockSize dev.data) {extra : Nat}
    (bound : findRounds pos.item < dev.data.length + extra) :
    let grown := grow dev.data extra
    let array := nodeArray qset.toNat grown (findRounds pos.item)
    ∀ used, ∃ reply, scullWriteWith.withArray allocQuantum env quantum data fPos
        { dev with data := grown.set (findRounds pos.item) ⟨some array⟩ } (findRounds pos.item)
        array used pos = .ok reply ∧
      WriteResult env quantum qset.toNat blockSize dev data fPos pos reply := by
  intro grown array used
  have sLower := inside.sLower
  have sUpper := inside.sUpper
  have grownShaped : Shaped qset.toNat blockSize grown := shaped_append_empty shaped extra
  have length : array.length = qset.toNat := nodeArray_length grownShaped
  have blocks := nodeArray_blocks grownShaped (findRounds pos.item)
  have entry := entryAt_ok array sLower (by omega)
  have copies (block : List Byte) (blockLength : block.length = blockSize)
      (blockEq : block = arrayBlock blockSize array pos.sPos.toNat) :
      ∃ reply, copyIntoQuantum env quantum
          { dev with data := grown.set (findRounds pos.item) ⟨some array⟩ } data fPos pos.qPos
          (findRounds pos.item) array pos.sPos.toNat block = .ok reply ∧
        WriteResult env quantum qset.toNat blockSize dev data fPos pos reply := by
    rw [copyIntoQuantum_result inside blockLength]
    simp only [List.set_set]
    subst blockEq
    cases faults : env.faults (limitToQuantum quantum pos.qPos data.length) with
    | true => exact ⟨_, by simp only [↓reduceIte]; rfl, .faulted extra faults bound⟩
    | false =>
        exact ⟨_, by simp only [Bool.false_eq_true, ↓reduceIte]; rfl, .stored extra faults bound⟩
  simp only [scullWriteWith.withArray, entry, ok_bind]
  cases present : array.getD pos.sPos.toNat none with
  | some block =>
      exact copies block (blocks block (getD_mem present)) (by simp only [arrayBlock, present, Option.getD_some])
  | none =>
      simp only [zeroed used]
      cases allocated : env.alloc used with
      | true =>
          simp only [↓reduceIte, ok_bind]
          exact copies _ (by simp) (by simp only [arrayBlock, present, Option.getD_none])
      | false =>
          simp only [Bool.false_eq_true, ↓reduceIte, ok_bind]
          exact ⟨_, rfl, .noQuantum extra used allocated bound⟩

theorem scullWriteWith_result (data : List Byte) (zeroed : ZeroedAlloc allocQuantum env blockSize)
    (computed : calculatePositions quantum qset fPos = .ok pos)
    (inside : PositionInside quantum qset blockSize pos)
    (shaped : Shaped qset.toNat blockSize dev.data) :
    ∃ reply, scullWriteWith allocQuantum env quantum qset dev data fPos = .ok reply ∧
      WriteResult env quantum qset.toNat blockSize dev data fPos pos reply := by
  obtain ⟨extra, nodes, indices⟩ := scullFindItem_spec env.alloc dev.data pos.item
  have qsetNonneg : 0 ≤ qset := by
    have lower := inside.sLower
    have upper := inside.sUpper
    omega
  simp only [scullWriteWith, computed, ok_bind, nodes]
  cases interrupted : env.interrupted with
  | true => exact ⟨_, by simp only [↓reduceIte], .interrupted interrupted⟩
  | false =>
      simp only [Bool.false_eq_true, ↓reduceIte]
      cases found : (scullFindItem env.alloc dev.data pos.item).index with
      | none =>
          obtain ⟨failed, failure⟩ := scullFindItem_none found
          exact ⟨_, rfl, .noNode extra failed failure⟩
      | some index =>
          obtain ⟨rfl, bound⟩ := indices index found
          have walk := withArray_result data fPos zeroed inside shaped bound
          have inGrown : findRounds pos.item < (grow dev.data extra).length := by simpa using bound
          simp only [nodeArray, List.getD_eq_getElem _ _ inGrown] at walk ⊢
          cases present : (grow dev.data extra)[findRounds pos.item].data with
          | some array =>
              -- the node is stored back unchanged
              have same : (grow dev.data extra).set (findRounds pos.item) ⟨some array⟩ =
                  grow dev.data extra := by
                rw [← present]
                exact List.set_getElem_self inGrown
              simp only [present, Option.getD_some, same] at walk
              exact walk _
          | none =>
              simp only [present, Option.getD_none] at walk
              cases allocated : env.alloc (scullFindItem env.alloc dev.data pos.item).used with
              | true =>
                  simp only [qsetNonneg, and_self, ↓reduceIte]
                  exact walk _
              | false =>
                  simp only [Bool.false_eq_true, false_and, ↓reduceIte]
                  exact ⟨_, rfl, .noNode extra _ allocated⟩

theorem WriteResult.geometry {qsetSize : Nat} {reply : Reply}
    (result : WriteResult env quantum qsetSize blockSize dev data fPos pos reply) :
    reply.dev.quantum = dev.quantum ∧ reply.dev.qset = dev.qset := by
  cases result <;> exact ⟨rfl, rfl⟩

theorem PositionInside.copyFits (inside : PositionInside quantum qset blockSize pos)
    (env : Env) (data : List Byte) :
    pos.qPos.toNat + (env.copied (data.take (limitToQuantum quantum pos.qPos data.length))).length ≤
      blockSize := by
  have bounds := inside.quantumInBlock
  have qLower := inside.qLower
  have qUpper := inside.qUpper
  rw [Env.copied_length, List.length_take, limitToQuantum_le _ qLower qUpper inside.quantumFits]
  omega

theorem storedNodes_shaped {nodes : List ScullQset} {qsetSize : Nat} {bytes : List Byte}
    (shaped : Shaped qsetSize blockSize nodes) (fits : pos.qPos.toNat + bytes.length ≤ blockSize) :
    Shaped qsetSize blockSize (storedNodes qsetSize blockSize nodes pos bytes) := by
  have blocks := nodeArray_blocks shaped (findRounds pos.item)
  have blockLength := arrayBlock_length blocks pos.sPos.toNat
  apply shaped_set shaped
  · rw [List.length_set]
    exact nodeArray_length shaped
  · intro block member
    rcases List.mem_or_eq_of_mem_set member with old | same
    · exact blocks block old
    · simp only [Option.some.injEq] at same
      rw [same, Block.length_overwrite (by rw [blockLength]; exact fits)]
      exact blockLength

theorem WriteResult.shaped {reply : Reply}
    (result : WriteResult env quantum qset.toNat blockSize dev data fPos pos reply)
    (inside : PositionInside quantum qset blockSize pos)
    (shaped : Shaped qset.toNat blockSize dev.data) :
    Shaped qset.toNat blockSize reply.dev.data := by
  cases result with
  | interrupted _ => exact shaped
  | noNode extra _ _ => exact shaped_append_empty shaped extra
  | noQuantum extra _ _ _ =>
      have grown := shaped_append_empty shaped extra
      exact shaped_set grown (nodeArray_length grown) (nodeArray_blocks grown _)
  | faulted extra _ _ =>
      exact storedNodes_shaped (shaped_append_empty shaped extra) (inside.copyFits env data)
  | stored extra _ _ =>
      exact storedNodes_shaped (shaped_append_empty shaped extra) (inside.copyFits env data)

theorem withArray_cases {index used : Nat} {array : PointerArray} {reply : Reply}
    (replied : scullWriteWith.withArray allocQuantum env quantum data fPos dev index array used pos =
      .ok reply) :
    reply = ⟨dev, fPos, -ENOMEM, []⟩ ∨
      ∃ entry block, entryAt array pos.sPos = .ok entry ∧
        (entry = some block ∨ entry = none ∧ allocQuantum env used = .ok (some block)) ∧
        copyIntoQuantum env quantum dev data fPos pos.qPos index array pos.sPos.toNat block =
          .ok reply := by
  simp only [scullWriteWith.withArray] at replied
  obtain ⟨entry, entered, replied⟩ := bind_eq_ok_iff.mp replied
  cases entry with
  | some block => exact .inr ⟨_, block, entered, .inl rfl, replied⟩
  | none =>
      obtain ⟨allocation, allocated, replied⟩ := bind_eq_ok_iff.mp replied
      cases allocation with
      | none =>
          simp only [Except.ok.injEq] at replied
          exact .inl replied.symm
      | some block => exact .inr ⟨_, block, entered, .inr ⟨rfl, allocated⟩, replied⟩

def ArrayAt (qset : Int) (grown nodes : List ScullQset) (index : Nat) (array : PointerArray) :
    Prop :=
  (grown.getD index .empty).data = some array ∧ nodes = grown ∨
    (grown.getD index .empty).data = none ∧ array = List.replicate qset.toNat none ∧
      nodes = grown.set index ⟨some array⟩

theorem scullWriteWith_cases {reply : Reply}
    (replied : scullWriteWith allocQuantum env quantum qset dev data fPos = .ok reply) :
    (∃ extra ret, (ret = -ERESTARTSYS ∨ ret = -ENOMEM) ∧
        reply = ⟨{ dev with data := grow dev.data extra }, fPos, ret, []⟩) ∨
      ∃ pos extra nodes array used, calculatePositions quantum qset fPos = .ok pos ∧
        findRounds pos.item < (grow dev.data extra).length ∧
        ArrayAt qset (grow dev.data extra) nodes (findRounds pos.item) array ∧
        scullWriteWith.withArray allocQuantum env quantum data fPos { dev with data := nodes }
          (findRounds pos.item) array used pos = .ok reply := by
  simp only [scullWriteWith] at replied
  split at replied
  · simp only [Except.ok.injEq] at replied
    exact .inl ⟨0, _, .inl rfl, by rw [← replied, grow_zero]⟩
  obtain ⟨pos, computed, replied⟩ := bind_eq_ok_iff.mp replied
  obtain ⟨extra, nodes, indices⟩ := scullFindItem_spec env.alloc dev.data pos.item
  rw [nodes] at replied
  split at replied
  · simp only [Except.ok.injEq] at replied
    exact .inl ⟨extra, _, .inr rfl, replied.symm⟩
  rename_i index walked
  obtain ⟨rfl, bound⟩ := indices index walked
  rw [← length_grow] at bound
  split at replied
  · rename_i array present
    exact .inr ⟨pos, extra, _, array, _, computed, bound, .inl ⟨present, rfl⟩, replied⟩
  rename_i missing
  split at replied
  · exact .inr ⟨pos, extra, _, _, _, computed, bound, .inr ⟨missing, rfl, rfl⟩, replied⟩
  · simp only [Except.ok.injEq] at replied
    exact .inl ⟨extra, _, .inr rfl, replied.symm⟩

end Write

theorem kmallocQuantum_zeroed {quantum : Int} (nonneg : 0 ≤ quantum)
    (fits : CInt.FitsInt quantum) (env : Env) :
    ZeroedAlloc (kmallocQuantum quantum quantum) env quantum.toNat := by
  intro used
  simp only [CInt.FitsInt] at fits
  have size := CInt.uint64_of_range nonneg (by omega)
  cases allocated : env.alloc used with
  | false => simp [kmallocQuantum, allocated]
  | true =>
      have inBlock : InBlock ((List.range quantum.toNat).map env.junk) 0 quantum.toNat := by
        simp [InBlock]
      simp only [kmallocQuantum, allocated, nonneg, and_self, ↓reduceIte, size, inBlock]
      rw [Block.overwrite_all (by simp)]

/-! Reading. -/

def blockAt (nodes : List ScullQset) (index sPos : Nat) : Option (List Byte) :=
  (nodes.getD index .empty).data.bind fun array => array.getD sPos none

inductive ReadResult (env : Env) (quantum : Int) (dev : ScullDev) (count : Nat) (fPos : Int)
    (pos : Position) : Reply → Prop
  | interrupted : env.interrupted = true →
      ReadResult env quantum dev count fPos pos ⟨dev, fPos, -ERESTARTSYS, []⟩
  | endOfFile : dev.size ≤ CInt.uint64 fPos →
      ReadResult env quantum dev count fPos pos ⟨dev, fPos, 0, []⟩
  | noNode (extra failed : Nat) : env.alloc failed = false →
      ReadResult env quantum dev count fPos pos
        ⟨{ dev with data := grow dev.data extra }, fPos, 0, []⟩
  | hole (extra : Nat) :
      blockAt (grow dev.data extra) (findRounds pos.item) pos.sPos.toNat = none →
      ReadResult env quantum dev count fPos pos
        ⟨{ dev with data := grow dev.data extra }, fPos, 0, []⟩
  | faulted (extra : Nat) (block : List Byte) :
      blockAt (grow dev.data extra) (findRounds pos.item) pos.sPos.toNat = some block →
      env.faults (limitToQuantum quantum pos.qPos (clipToSize dev.size fPos count)) = true →
      ReadResult env quantum dev count fPos pos
        ⟨{ dev with data := grow dev.data extra }, fPos, -EFAULT,
          (Block.slice block pos.qPos.toNat (limitToQuantum quantum pos.qPos
            (clipToSize dev.size fPos count))).take (env.fault.getD 0)⟩
  | copied (extra : Nat) (block : List Byte) :
      blockAt (grow dev.data extra) (findRounds pos.item) pos.sPos.toNat = some block →
      env.faults (limitToQuantum quantum pos.qPos (clipToSize dev.size fPos count)) = false →
      ReadResult env quantum dev count fPos pos
        ⟨{ dev with data := grow dev.data extra },
          CInt.int64 (fPos + limitToQuantum quantum pos.qPos (clipToSize dev.size fPos count)),
          limitToQuantum quantum pos.qPos (clipToSize dev.size fPos count),
          Block.slice block pos.qPos.toNat
            (limitToQuantum quantum pos.qPos (clipToSize dev.size fPos count))⟩

section Read

variable {env : Env} {quantum qset fPos : Int} {blockSize count : Nat} {dev : ScullDev}
  {pos : Position}

theorem scullRead_result (env : Env) (count : Nat)
    (computed : calculatePositions quantum qset fPos = .ok pos)
    (inside : PositionInside quantum qset blockSize pos)
    (shaped : Shaped qset.toNat blockSize dev.data) :
    ∃ reply, scullRead env quantum qset dev count fPos = .ok reply ∧
      ReadResult env quantum dev count fPos pos reply := by
  obtain ⟨extra, nodes, indices⟩ := scullFindItem_spec env.alloc dev.data pos.item
  simp only [scullRead, computed, ok_bind, nodes]
  cases interrupted : env.interrupted with
  | true => exact ⟨_, by simp only [↓reduceIte], .interrupted interrupted⟩
  | false =>
      simp only [Bool.false_eq_true, ↓reduceIte]
      by_cases ended : dev.size ≤ CInt.uint64 fPos
      · exact ⟨_, by simp only [ended, ↓reduceIte], .endOfFile ended⟩
      simp only [ended, ↓reduceIte]
      cases found : (scullFindItem env.alloc dev.data pos.item).index with
      | none =>
          obtain ⟨failed, failure⟩ := scullFindItem_none found
          exact ⟨_, rfl, .noNode extra failed failure⟩
      | some index =>
          obtain ⟨rfl, bound⟩ := indices index found
          have inGrown : findRounds pos.item < (grow dev.data extra).length := by simpa using bound
          simp only [Option.bind_some]
          cases present : ((grow dev.data extra).getD (findRounds pos.item) .empty).data with
          | none => exact ⟨_, rfl, .hole extra (by simp only [blockAt, present, Option.bind_none])⟩
          | some array =>
              have sLower := inside.sLower
              have sUpper := inside.sUpper
              rw [List.getD_eq_getElem _ _ inGrown] at present
              obtain ⟨length, blocks⟩ :=
                shaped_append_empty shaped extra _ (List.getElem_mem inGrown) array present
              have entry := entryAt_ok array sLower (by omega)
              simp only [entry, ok_bind]
              have at_array : blockAt (grow dev.data extra) (findRounds pos.item) pos.sPos.toNat =
                  array.getD pos.sPos.toNat none := by
                simp only [blockAt, List.getD_eq_getElem _ _ inGrown, present, Option.bind_some]
              cases stored : array.getD pos.sPos.toNat none with
              | none => exact ⟨_, rfl, .hole extra (at_array.trans stored)⟩
              | some block =>
                  have fits := inside.inBlock (blocks block (getD_mem stored))
                    (clipToSize dev.size fPos count)
                  simp only [fits, ↓reduceIte]
                  cases faults : env.faults (limitToQuantum quantum pos.qPos
                      (clipToSize dev.size fPos count)) with
                  | true =>
                      exact ⟨_, by simp only [↓reduceIte],
                        .faulted extra block (at_array.trans stored) faults⟩
                  | false =>
                      exact ⟨_, by simp only [Bool.false_eq_true, ↓reduceIte],
                        .copied extra block (at_array.trans stored) faults⟩

theorem ReadResult.device {reply : Reply} (result : ReadResult env quantum dev count fPos pos reply) :
    ∃ extra, reply.dev = { dev with data := grow dev.data extra } := by
  cases result with
  | interrupted _ => exact ⟨0, by simp⟩
  | endOfFile _ => exact ⟨0, by simp⟩
  | noNode extra _ _ => exact ⟨extra, rfl⟩
  | hole extra _ => exact ⟨extra, rfl⟩
  | faulted extra _ _ _ => exact ⟨extra, rfl⟩
  | copied extra _ _ _ => exact ⟨extra, rfl⟩

theorem scullRead_cases {reply : Reply}
    (replied : scullRead env quantum qset dev count fPos = .ok reply) :
    (∃ ret : Int, ret ≤ 0 ∧ reply = ⟨dev, fPos, ret, []⟩) ∨
      CInt.uint64 fPos < dev.size ∧ ∃ pos, calculatePositions quantum qset fPos = .ok pos ∧
        ReadResult env quantum dev count fPos pos reply ∧
        (0 < reply.ret → ∃ block,
          blockAt reply.dev.data (findRounds pos.item) pos.sPos.toNat = some block ∧
          InBlock block pos.qPos
            (limitToQuantum quantum pos.qPos (clipToSize dev.size fPos count))) := by
  simp only [scullRead] at replied
  split at replied
  · simp only [Except.ok.injEq] at replied
    exact .inl ⟨_, by decide, replied.symm⟩
  split at replied
  · simp only [Except.ok.injEq] at replied
    exact .inl ⟨0, le_rfl, replied.symm⟩
  rename_i unfinished
  obtain ⟨pos, computed, replied⟩ := bind_eq_ok_iff.mp replied
  refine .inr ⟨not_le.mp unfinished, pos, computed, ?_⟩
  obtain ⟨extra, nodes, indices⟩ := scullFindItem_spec env.alloc dev.data pos.item
  rw [nodes] at replied
  cases found : (scullFindItem env.alloc dev.data pos.item).index with
  | none =>
      simp only [found, Option.bind_none, Except.ok.injEq] at replied
      obtain ⟨failed, failure⟩ := scullFindItem_none found
      exact ⟨replied ▸ .noNode extra failed failure, by simp [← replied]⟩
  | some index =>
      obtain ⟨rfl, _⟩ := indices index found
      simp only [found, Option.bind_some] at replied
      cases present : ((grow dev.data extra).getD (findRounds pos.item) .empty).data with
      | none =>
          simp only [present, Except.ok.injEq] at replied
          have hole : blockAt (grow dev.data extra) (findRounds pos.item) pos.sPos.toNat = none := by
            rw [blockAt, present, Option.bind_none]
          exact ⟨replied ▸ .hole extra hole, by simp [← replied]⟩
      | some array =>
          simp only [present] at replied
          obtain ⟨entry, entered, replied⟩ := bind_eq_ok_iff.mp replied
          have stored : blockAt (grow dev.data extra) (findRounds pos.item) pos.sPos.toNat =
              entry := by
            rw [blockAt, present, Option.bind_some, (entryAt_inside entered).2]
          cases entry with
          | none =>
              simp only [Except.ok.injEq] at replied
              exact ⟨replied ▸ .hole extra stored, by simp [← replied]⟩
          | some block =>
              simp only at replied
              split at replied
              · rename_i inBlock
                split at replied
                · rename_i faults
                  simp only [Except.ok.injEq] at replied
                  exact ⟨replied ▸ .faulted extra block stored faults, by simp [← replied, EFAULT]⟩
                · rename_i complete
                  simp only [Except.ok.injEq] at replied
                  refine ⟨replied ▸ .copied extra block stored ?_, fun _ => ⟨block, ?_, inBlock⟩⟩
                  · exact Bool.eq_false_of_not_eq_true complete
                  · rw [← replied]
                    exact stored
              · contradiction

end Read

end Ldd3.Scull
