import Mathlib.Tactic
import Ldd3.Scull.Geometry
import Ldd3.Scullv.Core

/-!
The three scull devices of `ch08_memory`, which differ in where a quantum comes from:
scullc takes an object of a `kmem_cache` made at module load, scullp and scullv take
whole pages. Everything else is the bare device, with calls made one at a time.
-/

namespace Ldd3.Memory

open Scull
open Scullv (pageSize scullvAllocQuantum scullvOrder)

inductive Driver
  | scullc
  | scullp
  | scullv
  deriving DecidableEq, Repr

def scullpOrder : Nat := 0

/-- `objectSize` is the size that `scullc_cache` was created with and `quantum` the value
of `scull_quantum` now, which is how much of the object is cleared. -/
def scullcAllocQuantum (objectSize : Nat) (quantum : Int) (env : Env) (used : Nat) :
    Except Oops (Option (List Byte)) :=
  if env.alloc used then
    let object := (List.range objectSize).map env.junk
    let count := CInt.uint64 quantum
    if InBlock object 0 count then
      .ok (some (Block.overwrite object 0 (List.replicate count 0)))
    else .error .outOfBounds
  else .ok none

def scullpAllocQuantum (order : Nat) (env : Env) (used : Nat) : Except Oops (Option (List Byte)) :=
  if env.alloc used then .ok (some (List.replicate (pageSize <<< order) 0)) else .ok none

/-- The allocator of a driver that was loaded with `load`, while the parameters are `globals`. -/
def allocQuantum (load globals : Geometry) : Driver → Env → Nat → Except Oops (Option (List Byte))
  | .scullc => scullcAllocQuantum load.quantum.toNat globals.quantum
  | .scullp => scullpAllocQuantum scullpOrder
  | .scullv => scullvAllocQuantum scullvOrder

def bufferSize (load : Geometry) : Driver → Nat
  | .scullc => load.quantum.toNat
  | .scullp => pageSize <<< scullpOrder
  | .scullv => pageSize <<< scullvOrder

structure MemorySys where
  dev : ScullDev
  globals : Geometry

inductive MemoryCall
  | read (env : Env) (count : Nat) (fPos : Int)
  | write (env : Env) (data : List Byte) (fPos : Int)

def MemoryCall.fPos : MemoryCall → Int
  | .read _ _ fPos => fPos
  | .write _ _ fPos => fPos

def performMemory (driver : Driver) (load : Geometry) (sys : MemorySys) :
    MemoryCall → Except Oops Reply
  | .read env count fPos => scullRead env sys.dev.quantum sys.dev.qset sys.dev count fPos
  | .write env data fPos =>
      scullWriteWith (allocQuantum load sys.globals driver) env sys.dev.quantum sys.dev.qset
        sys.dev data fPos

inductive MemoryAction
  | call (call : MemoryCall)
  | openWriteOnly (fuel : Nat)
  | ioctl (globals : Geometry)

/-- The ioctls that matter are the privileged ones that leave positive parameters. -/
def memoryStep (driver : Driver) (load : Geometry) (sys : MemorySys) :
    MemoryAction → Option MemorySys
  | .call call =>
      if 0 ≤ call.fPos then
        match performMemory driver load sys call with
        | .ok reply => some { sys with dev := reply.dev }
        | .error _ => none
      else none
  | .openWriteOnly fuel =>
      match scullDevReset fuel sys.globals sys.dev with
      | .returned dev _ => some { sys with dev := dev }
      | _ => none
  | .ioctl globals => if globals.Positive then some { sys with globals := globals } else none

def MemorySys.loaded (load : Geometry) : MemorySys :=
  { dev := .fresh load, globals := load }

end Ldd3.Memory
