import Mathlib.Tactic
import Ldd3.Scull.Core

/-!
The scullv device of `ch15_mmap_dma/scullv.c`: `scull_read`, `scull_write` and
`scull_find_item` are those of the bare device, a quantum is a zeroed `vmalloc` block
of `PAGE_SIZE << scullv_order` bytes, and a page fault on a mapping looks up a quantum
on its own.
-/

namespace Ldd3.Scullv

open Scull

def pageSize : Nat := 4096

def scullvOrder : Nat := 4

def scullvAllocQuantum (order : Nat) (env : Env) (used : Nat) :
    Except Oops (Option (List Byte)) :=
  if env.alloc used then .ok (some (List.replicate (pageSize <<< order) 0)) else .ok none

def scullvWrite (env : Env) (dev : ScullDev) (data : List Byte) (fPos : Int) :
    Except Oops Reply :=
  scullWriteWith (scullvAllocQuantum scullvOrder) env dev.quantum dev.qset dev data fPos

def scullvRead (env : Env) (dev : ScullDev) (count : Nat) (fPos : Int) : Except Oops Reply :=
  scullRead env dev.quantum dev.qset dev count fPos

structure Vma where
  start : Nat
  pgoff : Nat
  deriving DecidableEq, Repr

structure FaultPlace where
  node : Nat
  offset : Nat
  deriving DecidableEq, Repr

/-- `for (ptr = dev->data; ptr && offset >= dev->qset; ptr = ptr->next) offset -= dev->qset` -/
def faultWalk (qset : Nat) : List ScullQset → Nat → FaultPlace
  | [], offset => ⟨0, offset⟩
  | _ :: after, offset =>
      if qset ≤ offset then
        let place := faultWalk qset after (offset - qset)
        { place with node := place.node + 1 }
      else ⟨0, offset⟩

inductive FaultReply
  | sigbus
  | installed (node index : Nat)
  deriving DecidableEq, Repr

/-- `no_page_fault`. The page it installs is the first page of the quantum it finds. -/
def noPageFault (dev : ScullDev) (vma : Vma) (address : Nat) : Except Oops FaultReply :=
  let offset := CInt.uint32 ((address : Int) - vma.start + vma.pgoff * pageSize)
  if dev.size ≤ offset then .ok .sigbus
  else
    let place := faultWalk (CInt.uint32 dev.qset) dev.data (offset / pageSize)
    match dev.data[place.node]? with
    | none => .ok .sigbus
    | some node =>
        match node.data with
        | none => .error .outOfBounds
        | some array =>
            match entryAt array place.offset with
            | .error oops => .error oops
            | .ok none => .ok .sigbus
            | .ok (some _) => .ok (.installed place.node place.offset)

inductive ScullvCall
  | read (env : Env) (count position : Nat)
  | write (env : Env) (data : List Byte) (position : Nat)

def scullvStep (dev : ScullDev) : ScullvCall → Option ScullDev
  | .read env count position =>
      match scullvRead env dev count position with
      | .ok reply => some reply.dev
      | .error _ => none
  | .write env data position =>
      match scullvWrite env dev data position with
      | .ok reply => some reply.dev
      | .error _ => none

end Ldd3.Scullv
