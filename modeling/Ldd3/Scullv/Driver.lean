import Mathlib.Tactic
import Ldd3.Scullv.Core

/-!
The scullv driver as a machine: calls on one device made one at a time, beside the
mappings of the device and the counter `dev->vmas` that `vm_ops` keeps of them.
-/

namespace Ldd3.Scullv

open Scull

/-- A live `vm_area_struct` of the device, with the quanta whose first page is installed in it. -/
structure Mapping where
  vma : Vma
  pages : List FaultPlace
  deriving DecidableEq, Repr

structure DriverSys where
  dev : ScullDev
  globals : Geometry
  vmas : Int
  mappings : List Mapping
  deriving DecidableEq, Repr

/-- The device after `short_init`, which sets every field but `vmas`; `memory` is what
`kmalloc` left there. -/
def DriverSys.loaded (memory : Int) (load : Geometry) : DriverSys :=
  { dev := .fresh load, globals := load, vmas := CInt.int32 memory, mappings := [] }

def scullvVmaOpen (sys : DriverSys) : DriverSys := { sys with vmas := CInt.int32 (sys.vmas + 1) }

def scullvVmaClose (sys : DriverSys) : DriverSys := { sys with vmas := CInt.int32 (sys.vmas - 1) }

def scullvMmap (sys : DriverSys) (vma : Vma) : DriverSys :=
  scullvVmaOpen { sys with mappings := sys.mappings ++ [⟨vma, []⟩] }

inductive DevReset
  | busy
  | walked (outcome : ResetOutcome)
  deriving DecidableEq, Repr

def scullvDevReset (fuel : Nat) (sys : DriverSys) : DevReset :=
  if sys.vmas ≠ 0 then .busy else .walked (scullDevReset fuel sys.globals sys.dev)

inductive DriverAction
  | call (call : ScullvCall)
  | openWriteOnly (fuel : Nat)
  | mmap (vma : Vma)
  | fork (index : Nat)
  | unmap (index : Nat)
  | fault (index address : Nat)
  | ioctl (globals : Geometry)

/-- A fork, or the split of a mapping, copies its page tables. `scull_open` drops the answer
of the reset. -/
def driverStep (sys : DriverSys) : DriverAction → Option DriverSys
  | .call call => (scullvStep sys.dev call).map fun dev => { sys with dev := dev }
  | .openWriteOnly fuel =>
      match scullvDevReset fuel sys with
      | .busy => some sys
      | .walked (.returned dev _) => some { sys with dev := dev }
      | .walked _ => none
  | .mmap vma => some (scullvMmap sys vma)
  | .fork index =>
      match sys.mappings[index]? with
      | some mapping => some (scullvVmaOpen { sys with mappings := sys.mappings ++ [mapping] })
      | none => none
  | .unmap index =>
      if index < sys.mappings.length then
        some (scullvVmaClose { sys with mappings := sys.mappings.eraseIdx index })
      else none
  | .fault index address =>
      match sys.mappings[index]? with
      | none => none
      | some mapping =>
          match noPageFault sys.dev mapping.vma address with
          | .ok .sigbus => some sys
          | .ok (.installed node entry) =>
              let installed := { mapping with pages := ⟨node, entry⟩ :: mapping.pages }
              some { sys with mappings := sys.mappings.set index installed }
          | .error _ => none
  | .ioctl globals =>
      if CInt.FitsInt globals.quantum ∧ CInt.FitsInt globals.qset then
        some { sys with globals := globals }
      else none

end Ldd3.Scullv
