import Mathlib.Tactic
import Ldd3.Scull.Core

/-!
The scull device with the memory blocks it is made of. Every `kzalloc`, `kcalloc` and `kmalloc`
that succeeds obtains a block with a name of its own, and `scull_dev_reset` lists the names that
it passes to `kfree`. Without the names the calls are those of the bare device.
-/

namespace Ldd3.Scull

abbrev BlockId := Nat

structure HeapQuantum where
  id : BlockId
  bytes : List Byte
  deriving DecidableEq, Repr

structure HeapArray where
  id : BlockId
  entries : List (Option HeapQuantum)
  deriving DecidableEq, Repr

structure HeapQset where
  id : BlockId
  data : Option HeapArray
  deriving DecidableEq, Repr

def HeapQset.empty (id : BlockId) : HeapQset := ⟨id, none⟩

structure HeapDev where
  data : List HeapQset
  quantum : Int
  qset : Int
  size : Nat
  deriving DecidableEq, Repr

def HeapDev.fresh (geometry : Geometry) : HeapDev :=
  { data := [], quantum := geometry.quantum, qset := geometry.qset, size := 0 }

/-- The allocations of a call are numbered from `base` on, the failing ones too; `used` of
them have been made, and those of `obtained` succeeded. -/
structure HeapFound where
  nodes : List HeapQset
  index : Option Nat
  used : Nat
  obtained : List BlockId
  deriving DecidableEq, Repr

structure HeapReply where
  dev : HeapDev
  fPos : Int
  ret : Int
  out : List Byte
  used : Nat
  obtained : List BlockId
  deriving DecidableEq, Repr

section Calls

variable (alloc : Nat → Bool) (base : BlockId)

def heapFollowNext : Nat → List HeapQset → Nat → HeapFound
  | 0, after, used => ⟨after, some 0, used, []⟩
  | count + 1, [], used =>
      if alloc used then
        let found := heapFollowNext count [] (used + 1)
        ⟨.empty (base + used) :: found.nodes, found.index.map (· + 1), found.used,
          (base + used) :: found.obtained⟩
      else ⟨[], none, used + 1, []⟩
  | count + 1, node :: after, used =>
      let found := heapFollowNext count after used
      { found with nodes := node :: found.nodes, index := found.index.map (· + 1) }

def heapFindItem (nodes : List HeapQset) (item : Int) : HeapFound :=
  match nodes with
  | [] =>
      if alloc 0 then
        let found := heapFollowNext alloc base (findRounds item) [] 1
        { found with nodes := .empty base :: found.nodes, obtained := base :: found.obtained }
      else ⟨[], none, 1, []⟩
  | curr :: after =>
      let found := heapFollowNext alloc base (findRounds item) after 0
      { found with nodes := curr :: found.nodes }

end Calls

section Calls

variable (env : Env) (base : BlockId)

def heapEntryAt (array : HeapArray) (sPos : Int) : Except Oops (Option HeapQuantum) :=
  if 0 ≤ sPos ∧ sPos.toNat < array.entries.length then .ok (array.entries.getD sPos.toNat none)
  else .error .outOfBounds

def heapRead (quantum qset : Int) (dev : HeapDev) (count : Nat) (fPos : Int) :
    Except Oops HeapReply :=
  if env.interrupted then .ok ⟨dev, fPos, -ERESTARTSYS, [], 0, []⟩
  else if dev.size ≤ CInt.uint64 fPos then .ok ⟨dev, fPos, 0, [], 0, []⟩
  else do
    let count := clipToSize dev.size fPos count
    let pos ← calculatePositions quantum qset fPos
    let found := heapFindItem env.alloc base dev.data pos.item
    let dev := { dev with data := found.nodes }
    match found.index.bind fun index => (found.nodes.getD index (.empty 0)).data with
    | none => .ok ⟨dev, fPos, 0, [], found.used, found.obtained⟩
    | some array =>
        match ← heapEntryAt array pos.sPos with
        | none => .ok ⟨dev, fPos, 0, [], found.used, found.obtained⟩
        | some block =>
            let count := limitToQuantum quantum pos.qPos count
            if InBlock block.bytes pos.qPos count then
              let bytes := Block.slice block.bytes pos.qPos.toNat count
              if env.faults count then
                .ok ⟨dev, fPos, -EFAULT, bytes.take (env.fault.getD 0), found.used, found.obtained⟩
              else
                .ok ⟨dev, CInt.int64 (fPos + count), count, bytes, found.used, found.obtained⟩
            else .error .outOfBounds

def heapKmallocQuantum (quantum devQuantum : Int) (used : Nat) :
    Except Oops (Option HeapQuantum) :=
  (kmallocQuantum quantum devQuantum env used).map
    fun allocated => allocated.map fun bytes => ⟨base + used, bytes⟩

def heapCopyIntoQuantum (quantum : Int) (dev : HeapDev) (data : List Byte) (fPos : Int)
    (qPos : Int) (index : Nat) (node : BlockId) (array : HeapArray) (sPos : Nat)
    (block : HeapQuantum) (used : Nat) (obtained : List BlockId) : Except Oops HeapReply :=
  let count := limitToQuantum quantum qPos data.length
  if InBlock block.bytes qPos count then
    let block := { block with
      bytes := Block.overwrite block.bytes qPos.toNat (env.copied (data.take count)) }
    let array := { array with entries := array.entries.set sPos (some block) }
    let dev := { dev with data := dev.data.set index ⟨node, some array⟩ }
    if env.faults count then .ok ⟨dev, fPos, -EFAULT, [], used, obtained⟩
    else
      let fPos := CInt.int64 (fPos + count)
      .ok ⟨{ dev with size := max dev.size (CInt.uint64 fPos) }, fPos, count, [], used, obtained⟩
  else .error .outOfBounds

def heapWithArray (quantum devQuantum : Int) (dev : HeapDev) (data : List Byte) (fPos : Int)
    (index : Nat) (node : BlockId) (array : HeapArray) (pos : Position) (used : Nat)
    (obtained : List BlockId) : Except Oops HeapReply := do
  match ← heapEntryAt array pos.sPos with
  | some block =>
      heapCopyIntoQuantum env quantum dev data fPos pos.qPos index node array pos.sPos.toNat
        block used obtained
  | none =>
      match ← heapKmallocQuantum env base quantum devQuantum used with
      | none => .ok ⟨dev, fPos, -ENOMEM, [], used + 1, obtained⟩
      | some block =>
          heapCopyIntoQuantum env quantum dev data fPos pos.qPos index node array pos.sPos.toNat
            block (used + 1) (block.id :: obtained)

def heapWrite (quantum qset : Int) (dev : HeapDev) (data : List Byte) (fPos : Int) :
    Except Oops HeapReply :=
  if env.interrupted then .ok ⟨dev, fPos, -ERESTARTSYS, [], 0, []⟩
  else do
    let pos ← calculatePositions quantum qset fPos
    let found := heapFindItem env.alloc base dev.data pos.item
    let devQuantum := dev.quantum
    let dev := { dev with data := found.nodes }
    match found.index with
    | none => .ok ⟨dev, fPos, -ENOMEM, [], found.used, found.obtained⟩
    | some index =>
        let node := dev.data.getD index (.empty 0)
        match node.data with
        | some array =>
            heapWithArray env base quantum devQuantum dev data fPos index node.id array pos
              found.used found.obtained
        | none =>
            if env.alloc found.used ∧ 0 ≤ qset then
              let array := ⟨base + found.used, List.replicate qset.toNat none⟩
              heapWithArray env base quantum devQuantum
                { dev with data := dev.data.set index ⟨node.id, some array⟩ } data fPos index
                node.id array pos (found.used + 1) (array.id :: found.obtained)
            else .ok ⟨dev, fPos, -ENOMEM, [], found.used + 1, found.obtained⟩

end Calls

/-- `freed` lists the arguments of `kfree` in the order of the calls. -/
inductive HeapReset
  | returned (dev : HeapDev) (freed : List BlockId)
  | oops (oops : Oops)
  | running
  deriving DecidableEq, Repr

def HeapArray.quanta (array : HeapArray) : List BlockId :=
  array.entries.filterMap fun entry => entry.map HeapQuantum.id

def heapResetLoop (globals : Geometry) (dev : HeapDev) :
    Nat → Option Nat → Nat → List BlockId → HeapReset
  | 0, _, _, _ => .running
  | fuel + 1, next, curr, freed =>
      match dev.data[curr]? with
      | none => .returned (.fresh globals) freed
      | some node =>
          match node.data with
          | some array =>
              if dev.qset ≤ array.entries.length then
                let walked := { array with entries := array.entries.take dev.qset.toNat }
                heapResetLoop globals dev fuel (some (curr + 1)) (curr + 1)
                  (freed ++ (walked.quanta ++ [node.id]))
              else .oops .outOfBounds
          | none =>
              match next with
              | some stale => heapResetLoop globals dev fuel next stale freed
              | none => .oops .uninitialised

def heapDevReset (fuel : Nat) (globals : Geometry) (dev : HeapDev) : HeapReset :=
  heapResetLoop globals dev fuel none 0 []

/-! The bare device. -/

def HeapArray.forget (array : HeapArray) : PointerArray :=
  array.entries.map fun entry => entry.map HeapQuantum.bytes

def HeapQset.forget (node : HeapQset) : ScullQset := ⟨node.data.map HeapArray.forget⟩

def HeapDev.forget (dev : HeapDev) : ScullDev :=
  { data := dev.data.map HeapQset.forget, quantum := dev.quantum, qset := dev.qset
    size := dev.size }

def HeapReply.forget (reply : HeapReply) : Reply :=
  ⟨reply.dev.forget, reply.fPos, reply.ret, reply.out⟩

def HeapFound.forget (found : HeapFound) : Found :=
  ⟨found.nodes.map HeapQset.forget, found.index, found.used⟩

@[simp] theorem HeapArray.length_forget (array : HeapArray) :
    array.forget.length = array.entries.length := by
  simp only [forget, List.length_map]

theorem heapFollowNext_forget (alloc : Nat → Bool) (base : BlockId) (count : Nat)
    (after : List HeapQset) (used : Nat) :
    (heapFollowNext alloc base count after used).forget =
      followNext alloc count (after.map HeapQset.forget) used := by
  induction count generalizing after used with
  | zero => rfl
  | succ count ih =>
      cases after with
      | nil =>
          have rest := ih [] (used + 1)
          simp only [List.map_nil] at rest
          simp only [heapFollowNext, followNext, List.map_nil, ← rest]
          split <;> rfl
      | cons node after =>
          simp only [heapFollowNext, followNext, List.map_cons, ← ih after used]
          rfl

theorem heapFindItem_forget (alloc : Nat → Bool) (base : BlockId) (nodes : List HeapQset)
    (item : Int) :
    (heapFindItem alloc base nodes item).forget =
      scullFindItem alloc (nodes.map HeapQset.forget) item := by
  cases nodes with
  | nil =>
      have rest := heapFollowNext_forget alloc base (findRounds item) [] 1
      simp only [List.map_nil] at rest
      simp only [heapFindItem, scullFindItem, List.map_nil, ← rest]
      split <;> rfl
  | cons curr after =>
      simp only [heapFindItem, scullFindItem, List.map_cons, ← heapFollowNext_forget alloc base]
      rfl

theorem heapEntryAt_forget (array : HeapArray) (sPos : Int) :
    (heapEntryAt array sPos).map (Option.map HeapQuantum.bytes) = entryAt array.forget sPos := by
  simp only [heapEntryAt, entryAt, HeapArray.length_forget]
  split
  · simp only [Except.map, HeapArray.forget, List.getD_eq_getElem?_getD, List.getElem?_map]
    cases array.entries[sPos.toNat]? <;> rfl
  · rfl

theorem getD_forget (nodes : List HeapQset) (index : Nat) :
    (nodes.getD index (.empty 0)).forget = (nodes.map HeapQset.forget).getD index .empty := by
  simp only [List.getD_eq_getElem?_getD, List.getElem?_map]
  cases nodes[index]? <;> rfl

theorem entryData_forget (nodes : List HeapQset) (index : Nat) :
    ((nodes.map HeapQset.forget).getD index .empty).data =
      (nodes.getD index (.empty 0)).data.map HeapArray.forget := by
  rw [← getD_forget]
  rfl

section Forget

variable (env : Env) (base : BlockId) (quantum qset : Int) (dev : HeapDev)

theorem heapRead_forget (count : Nat) (fPos : Int) :
    (heapRead env base quantum qset dev count fPos).map HeapReply.forget =
      scullRead env quantum qset dev.forget count fPos := by
  simp only [heapRead, scullRead]
  cases interrupted : env.interrupted with
  | true => rfl
  | false =>
      simp only [Bool.false_eq_true, ↓reduceIte]
      by_cases ended : dev.size ≤ CInt.uint64 fPos
      · rw [if_pos ended, if_pos (by exact ended)]
        rfl
      rw [if_neg ended, if_neg (by exact ended)]
      cases computed : calculatePositions quantum qset fPos with
      | error oops => rfl
      | ok pos =>
          have walked := heapFindItem_forget env.alloc base dev.data pos.item
          simp only [ok_bind, HeapDev.forget, ← walked, HeapFound.forget]
          cases (heapFindItem env.alloc base dev.data pos.item).index with
          | none => rfl
          | some index =>
              simp only [Option.bind_some, entryData_forget]
              cases ((heapFindItem env.alloc base dev.data pos.item).nodes.getD index
                  (.empty 0)).data with
              | none => rfl
              | some array =>
                  simp only [Option.map_some, ← heapEntryAt_forget]
                  cases heapEntryAt array pos.sPos with
                  | error oops => rfl
                  | ok entry =>
                      cases entry with
                      | none => rfl
                      | some block =>
                          let copied := limitToQuantum quantum pos.qPos (clipToSize dev.size fPos count)
                          by_cases inside : InBlock block.bytes pos.qPos copied
                          · simp only [ok_bind, Except.map, Option.map_some, inside, copied,
                              ↓reduceIte]
                            cases env.faults (limitToQuantum quantum pos.qPos
                              (clipToSize dev.size fPos count)) <;> rfl
                          · simp only [ok_bind, Except.map, Option.map_some, inside, copied,
                              ↓reduceIte]

theorem heapCopyIntoQuantum_forget (data : List Byte) (fPos qPos : Int) (index : Nat)
    (node : BlockId) (array : HeapArray) (sPos : Nat) (block : HeapQuantum) (used : Nat)
    (obtained : List BlockId) :
    (heapCopyIntoQuantum env quantum dev data fPos qPos index node array sPos block used
        obtained).map HeapReply.forget =
      copyIntoQuantum env quantum dev.forget data fPos qPos index array.forget sPos block.bytes := by
  have stored (bytes : List Byte) :
      (dev.data.set index ⟨node, some { array with
          entries := array.entries.set sPos (some { block with bytes := bytes }) }⟩).map
            HeapQset.forget =
        (dev.data.map HeapQset.forget).set index ⟨some (array.forget.set sPos (some bytes))⟩ := by
    rw [List.map_set]
    simp only [HeapQset.forget, HeapArray.forget, Option.map_some, List.map_set]
  simp only [heapCopyIntoQuantum, copyIntoQuantum]
  by_cases inside : InBlock block.bytes qPos (limitToQuantum quantum qPos data.length)
  · simp only [inside, ↓reduceIte]
    cases env.faults (limitToQuantum quantum qPos data.length) with
    | true =>
        simp only [↓reduceIte, Except.map, HeapReply.forget, HeapDev.forget, stored]
    | false =>
        simp only [Bool.false_eq_true, ↓reduceIte, Except.map, HeapReply.forget, HeapDev.forget,
          stored]
  · simp only [inside, ↓reduceIte, Except.map]

theorem heapWithArray_forget (devQuantum : Int) (data : List Byte) (fPos : Int) (index : Nat)
    (node : BlockId) (array : HeapArray) (pos : Position) (used : Nat) (obtained : List BlockId) :
    (heapWithArray env base quantum devQuantum dev data fPos index node array pos used
        obtained).map HeapReply.forget =
      scullWriteWith.withArray (kmallocQuantum quantum devQuantum) env quantum data fPos dev.forget
        index array.forget used pos := by
  simp only [heapWithArray, scullWriteWith.withArray, ← heapEntryAt_forget]
  cases heapEntryAt array pos.sPos with
  | error oops => rfl
  | ok entry =>
      cases entry with
      | some block => exact heapCopyIntoQuantum_forget env quantum dev data fPos _ _ _ _ _ _ _ _
      | none =>
          simp only [heapKmallocQuantum]
          cases kmallocQuantum quantum devQuantum env used with
          | error oops => rfl
          | ok allocated =>
              cases allocated with
              | none => rfl
              | some bytes =>
                  exact heapCopyIntoQuantum_forget env quantum dev data fPos _ _ _ _ _
                    ⟨base + used, bytes⟩ _ _

theorem heapWrite_forget (data : List Byte) (fPos : Int) :
    (heapWrite env base quantum qset dev data fPos).map HeapReply.forget =
      scullWrite env quantum qset dev.forget data fPos := by
  simp only [heapWrite, scullWrite, scullWriteWith]
  cases interrupted : env.interrupted with
  | true => rfl
  | false =>
      simp only [Bool.false_eq_true, ↓reduceIte]
      cases computed : calculatePositions quantum qset fPos with
      | error oops => rfl
      | ok pos =>
          have walked := heapFindItem_forget env.alloc base dev.data pos.item
          have sameNodes : dev.forget.data = dev.data.map HeapQset.forget := rfl
          simp only [ok_bind, sameNodes, ← walked, HeapFound.forget]
          cases (heapFindItem env.alloc base dev.data pos.item).index with
          | none => rfl
          | some index =>
              simp only [entryData_forget]
              generalize (heapFindItem env.alloc base dev.data pos.item).nodes.getD index
                (.empty 0) = node
              cases node.data with
              | some array =>
                  exact heapWithArray_forget env base quantum
                    { dev with data := (heapFindItem env.alloc base dev.data pos.item).nodes }
                    dev.quantum data fPos index node.id array pos _ _
              | none =>
                  simp only [Option.map_none]
                  by_cases allocated :
                      env.alloc (heapFindItem env.alloc base dev.data pos.item).used ∧ 0 ≤ qset
                  · simp only [allocated, and_self, ↓reduceIte]
                    rw [heapWithArray_forget]
                    simp only [HeapDev.forget, List.map_set, HeapQset.forget, HeapArray.forget,
                      Option.map_some, List.map_replicate, Option.map_none]
                  · simp only [allocated, ↓reduceIte]
                    rfl

end Forget

def ResetOutcome.result : ResetOutcome → Option (Except Oops ScullDev)
  | .returned dev _ => some (.ok dev)
  | .oops failure => some (.error failure)
  | .running => none

def HeapReset.result : HeapReset → Option (Except Oops ScullDev)
  | .returned dev _ => some (.ok dev.forget)
  | .oops failure => some (.error failure)
  | .running => none

theorem heapResetLoop_forget (globals : Geometry) (dev : HeapDev) (fuel : Nat)
    (next : Option Nat) (curr : Nat) (freed : List BlockId) (visited : List Nat) :
    (heapResetLoop globals dev fuel next curr freed).result =
      (resetLoop globals dev.forget fuel next curr visited).result := by
  induction fuel generalizing next curr freed visited with
  | zero => rfl
  | succ fuel ih =>
      have node : dev.forget.data[curr]? = dev.data[curr]?.map HeapQset.forget := by
        simp only [HeapDev.forget, List.getElem?_map]
      simp only [heapResetLoop, resetLoop, node]
      cases dev.data[curr]? with
      | none => rfl
      | some node =>
          simp only [Option.map_some, HeapQset.forget]
          cases node.data with
          | some array =>
              have sameQset : dev.forget.qset = dev.qset := rfl
              simp only [Option.map_some, sameQset, HeapArray.length_forget]
              by_cases enough : dev.qset ≤ array.entries.length
              · rw [if_pos enough, if_pos enough]
                exact ih _ _ _ _
              · rw [if_neg enough, if_neg enough]
                rfl
          | none =>
              cases next with
              | some stale => exact ih _ _ _ _
              | none => rfl

theorem heapDevReset_forget (fuel : Nat) (globals : Geometry) (dev : HeapDev) :
    (heapDevReset fuel globals dev).result = (scullDevReset fuel globals dev.forget).result :=
  heapResetLoop_forget globals dev fuel none 0 [] []

end Ldd3.Scull
