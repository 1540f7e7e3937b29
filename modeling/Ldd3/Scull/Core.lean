import Mathlib.Data.List.GetD
import Mathlib.Tactic
import Ldd3.Lib.Block
import Ldd3.Lib.CInt
import Ldd3.Kernel

/-!
The bare scull device (`common_scull/scull_core.c`): a linked list of quantum
sets, each with an array of pointers to quanta. `dev->data` is the list of its
nodes, `NULL` is `none`, and an access that C leaves undefined ends the call in
an `Oops`. The bodies of `scull_read` and `scull_write` take the local copies of
the geometry as arguments, as the source reads these before it takes `dev->sem`.
-/

namespace Ldd3.Scull

abbrev PointerArray := List (Option (List Byte))

/-- `struct scull_qset`; its `next` is the rest of the list it stands in. -/
structure ScullQset where
  data : Option PointerArray
  deriving DecidableEq, Repr

def ScullQset.empty : ScullQset := ⟨none⟩

structure Geometry where
  quantum : Int
  qset : Int
  deriving DecidableEq, Repr

structure ScullDev where
  data : List ScullQset
  quantum : Int
  qset : Int
  size : Nat
  deriving DecidableEq, Repr

def ScullDev.fresh (geometry : Geometry) : ScullDev :=
  { data := [], quantum := geometry.quantum, qset := geometry.qset, size := 0 }

structure Reply where
  dev : ScullDev
  fPos : Int
  ret : Int
  out : List Byte
  deriving DecidableEq, Repr

structure Found where
  nodes : List ScullQset
  index : Option Nat
  used : Nat
  deriving DecidableEq, Repr

/-- `count` rounds of `curr = curr->next`; the list is what follows `curr`, and the
index of the answer counts from `curr`. -/
def followNext (alloc : Nat → Bool) : Nat → List ScullQset → Nat → Found
  | 0, after, used => ⟨after, some 0, used⟩
  | count + 1, [], used =>
      if alloc used then
        let found := followNext alloc count [] (used + 1)
        ⟨.empty :: found.nodes, found.index.map (· + 1), found.used⟩
      else ⟨[], none, used + 1⟩
  | count + 1, node :: after, used =>
      let found := followNext alloc count after used
      ⟨node :: found.nodes, found.index.map (· + 1), found.used⟩

/-- How often the body of `while (--n > 0)` runs when `n` starts at `item`. -/
def findRounds (item : Int) : Nat := (CInt.int32 (item - 1)).toNat

def scullFindItem (alloc : Nat → Bool) (nodes : List ScullQset) (item : Int) : Found :=
  match nodes with
  | [] =>
      if alloc 0 then
        let found := followNext alloc (findRounds item) [] 1
        { found with nodes := .empty :: found.nodes }
      else ⟨[], none, 1⟩
  | curr :: after =>
      let found := followNext alloc (findRounds item) after 0
      { found with nodes := curr :: found.nodes }

structure Position where
  item : Int
  sPos : Int
  qPos : Int
  deriving DecidableEq, Repr

/-- The lines "Calculate positions" of both `scull_read` and `scull_write`. -/
def calculatePositions (quantum qset fPos : Int) : Except Oops Position :=
  let itemsize := CInt.int32 (quantum * qset)
  if itemsize = 0 then .error .divide
  else
    let item := CInt.int32 (fPos.tdiv itemsize)
    let rest := CInt.int32 (fPos.tmod itemsize)
    if quantum = 0 then .error .divide
    else .ok { item := item, sPos := rest.tdiv quantum, qPos := rest.tmod quantum }

def entryAt (array : PointerArray) (sPos : Int) : Except Oops (Option (List Byte)) :=
  if 0 ≤ sPos ∧ sPos.toNat < array.length then .ok (array.getD sPos.toNat none)
  else .error .outOfBounds

def InBlock (block : List Byte) (qPos : Int) (count : Nat) : Prop :=
  0 ≤ qPos ∧ qPos.toNat + count ≤ block.length

instance (block : List Byte) (qPos : Int) (count : Nat) : Decidable (InBlock block qPos count) := by
  unfold InBlock
  infer_instance

/-- `if (count > quantum - q_pos) count = quantum - q_pos` with `count` a `size_t`. -/
def limitToQuantum (quantum qPos : Int) (count : Nat) : Nat :=
  if CInt.uint64 (quantum - qPos) < count then CInt.uint64 (quantum - qPos) else count

/-- `if (*f_pos + count > dev->size) count = dev->size - *f_pos`; the sum is a `size_t`. -/
def clipToSize (size : Nat) (fPos : Int) (count : Nat) : Nat :=
  if size < CInt.uint64 (fPos + count) then CInt.uint64 (size - fPos) else count

/-- `scull_read`, with `quantum` and `qset` as copied before `down_interruptible`. -/
def scullRead (env : Env) (quantum qset : Int) (dev : ScullDev) (count : Nat) (fPos : Int) :
    Except Oops Reply :=
  if env.interrupted then .ok ⟨dev, fPos, -ERESTARTSYS, []⟩
  else if dev.size ≤ CInt.uint64 fPos then .ok ⟨dev, fPos, 0, []⟩
  else do
    let count := clipToSize dev.size fPos count
    let pos ← calculatePositions quantum qset fPos
    let found := scullFindItem env.alloc dev.data pos.item
    let dev := { dev with data := found.nodes }
    match found.index.bind fun index => (found.nodes.getD index .empty).data with
    | none => .ok ⟨dev, fPos, 0, []⟩
    | some array =>
        match ← entryAt array pos.sPos with
        | none => .ok ⟨dev, fPos, 0, []⟩
        | some block =>
            let count := limitToQuantum quantum pos.qPos count
            if InBlock block pos.qPos count then
              let bytes := Block.slice block pos.qPos.toNat count
              if env.faults count then .ok ⟨dev, fPos, -EFAULT, bytes.take (env.fault.getD 0)⟩
              else .ok ⟨dev, CInt.int64 (fPos + count), count, bytes⟩
            else .error .outOfBounds

def kmallocQuantum (quantum devQuantum : Int) (env : Env) (used : Nat) :
    Except Oops (Option (List Byte)) :=
  if env.alloc used ∧ 0 ≤ quantum then
    let block := (List.range quantum.toNat).map env.junk
    if InBlock block 0 (CInt.uint64 devQuantum) then
      .ok (some (Block.overwrite block 0 (List.replicate (CInt.uint64 devQuantum) 0)))
    else .error .outOfBounds
  else .ok none

/-- The part of `scull_write` that copies into the quantum at `array[sPos]` of node `index`. -/
def copyIntoQuantum (env : Env) (quantum : Int) (dev : ScullDev) (data : List Byte) (fPos : Int)
    (qPos : Int) (index : Nat) (array : PointerArray) (sPos : Nat) (block : List Byte) :
    Except Oops Reply :=
  let count := limitToQuantum quantum qPos data.length
  if InBlock block qPos count then
    let block := Block.overwrite block qPos.toNat (env.copied (data.take count))
    let dev := { dev with data := dev.data.set index ⟨some (array.set sPos (some block))⟩ }
    if env.faults count then .ok ⟨dev, fPos, -EFAULT, []⟩
    else
      let fPos := CInt.int64 (fPos + count)
      .ok ⟨{ dev with size := max dev.size (CInt.uint64 fPos) }, fPos, count, []⟩
  else .error .outOfBounds

/-- `scull_write` over a way to get a zeroed quantum, which is all that the scull
variants change. -/
def scullWriteWith (allocQuantum : Env → Nat → Except Oops (Option (List Byte))) (env : Env)
    (quantum qset : Int) (dev : ScullDev) (data : List Byte) (fPos : Int) : Except Oops Reply :=
  if env.interrupted then .ok ⟨dev, fPos, -ERESTARTSYS, []⟩
  else do
    let pos ← calculatePositions quantum qset fPos
    let found := scullFindItem env.alloc dev.data pos.item
    let dev := { dev with data := found.nodes }
    match found.index with
    | none => .ok ⟨dev, fPos, -ENOMEM, []⟩
    | some index =>
        -- a node without a pointer array gets one from kcalloc, which the node keeps
        -- also when the allocation of the quantum fails afterwards
        match (dev.data.getD index .empty).data with
        | some array => withArray dev index array found.used pos
        | none =>
            if env.alloc found.used ∧ 0 ≤ qset then
              let array := List.replicate qset.toNat none
              withArray { dev with data := dev.data.set index ⟨some array⟩ } index array
                (found.used + 1) pos
            else .ok ⟨dev, fPos, -ENOMEM, []⟩
where
  withArray (dev : ScullDev) (index : Nat) (array : PointerArray) (used : Nat) (pos : Position) :
      Except Oops Reply := do
    match ← entryAt array pos.sPos with
    | some block => copyIntoQuantum env quantum dev data fPos pos.qPos index array pos.sPos.toNat block
    | none =>
        match ← allocQuantum env used with
        | none => .ok ⟨dev, fPos, -ENOMEM, []⟩
        | some block =>
            copyIntoQuantum env quantum dev data fPos pos.qPos index array pos.sPos.toNat block

def scullWrite (env : Env) (quantum qset : Int) (dev : ScullDev) (data : List Byte) (fPos : Int) :
    Except Oops Reply :=
  scullWriteWith (kmallocQuantum quantum dev.quantum) env quantum qset dev data fPos

inductive ResetOutcome
  | returned (dev : ScullDev) (visited : List Nat)
  | oops (oops : Oops)
  | running
  deriving DecidableEq, Repr

/-- The outer loop of `scull_dev_reset`. `curr` and `next` are positions in the list, one
past the end being `NULL`; `next` is `none` until the loop first assigns it, and only a
node with a pointer array assigns it. `visited` lists the nodes in the order of the walk. -/
def resetLoop (globals : Geometry) (dev : ScullDev) :
    Nat → Option Nat → Nat → List Nat → ResetOutcome
  | 0, _, _, _ => .running
  | fuel + 1, next, curr, visited =>
      match dev.data[curr]? with
      | none => .returned (.fresh globals) visited
      | some node =>
          match node.data with
          | some array =>
              if dev.qset ≤ array.length then
                resetLoop globals dev fuel (some (curr + 1)) (curr + 1) (visited ++ [curr])
              else .oops .outOfBounds
          | none =>
              match next with
              | some stale => resetLoop globals dev fuel next stale (visited ++ [curr])
              | none => .oops .uninitialised

def scullDevReset (fuel : Nat) (globals : Geometry) (dev : ScullDev) : ResetOutcome :=
  resetLoop globals dev fuel none 0 []

/-! Calls made one at a time copy the geometry of the device as it is. -/

inductive Call
  | read (env : Env) (count : Nat) (fPos : Int)
  | write (env : Env) (data : List Byte) (fPos : Int)

def perform (dev : ScullDev) : Call → Except Oops Reply
  | .read env count fPos => scullRead env dev.quantum dev.qset dev count fPos
  | .write env data fPos => scullWrite env dev.quantum dev.qset dev data fPos

def callStep (dev : ScullDev) (call : Call) : Option ScullDev :=
  match perform dev call with
  | .ok reply => some reply.dev
  | .error _ => none

end Ldd3.Scull
