import Mathlib.Tactic
import Ldd3.Kernel

/-!
The mint bus (`ch14_device_model/mint_bus.c`) and its class (`mint_class.c`): the sysfs files
that add and remove devices, and writes to `/dev/mint0`, which select one. Of the device core
the model has what these use: each device with the references that the driver holds.
-/

namespace Ldd3.Mint

def ENODEV : Int := 19
def EEXIST : Int := 17
def MAX_MINT_ID_LEN : Nat := 32

abbrev Name := List Byte

/-- `struct mint_dev`; `released` counts the runs of `mint_release`, and `classDev` tells
whether `device_create` made the class device. -/
structure MintDev where
  name : Name
  refs : Nat
  onBus : Bool
  classDev : Bool
  privData : Option (List Byte)
  released : Nat
  deriving DecidableEq, Repr

structure MintSys where
  devices : List MintDev
  selectedDev : Option Nat
  deriving DecidableEq, Repr

def MintSys.loaded : MintSys := { devices := [], selectedDev := none }

/-! The device core. -/

def mintRelease (device : MintDev) : MintDev :=
  { device with privData := none, released := device.released + 1 }

def getDevice (device : MintDev) : MintDev := { device with refs := device.refs + 1 }

def putDevice (device : MintDev) : MintDev :=
  if device.refs = 1 then mintRelease { device with refs := 0 }
  else { device with refs := device.refs - 1 }

def deviceUnregister (device : MintDev) : MintDev := putDevice { device with onBus := false }

/-- Slashes are not allowed in the names of kernel objects. -/
def devSetName (name : Name) : Name := name.map fun char => if char = 47 then 33 else char

def MintSys.update (sys : MintSys) (index : Nat) (change : MintDev → MintDev) : MintSys :=
  { sys with devices := sys.devices.modify index change }

def MintSys.lookup (sys : MintSys) (name : Name) : Option Nat :=
  sys.devices.findIdx? fun device => device.onBus && device.name == name

/-- The device it returns is one whose reference count it has raised. -/
def busFindDeviceByName (sys : MintSys) (name : Name) : MintSys × Option Nat :=
  match sys.lookup name with
  | some index => (sys.update index getDevice, some index)
  | none => (sys, none)

/-! The files. -/

/-- `strcspn(buf, "\\n")` characters of a C string. -/
def firstLine (buf : List Byte) : Name := buf.takeWhile fun char => char ≠ 10 && char ≠ 0

structure AddEnv where
  alloc : Bool
  deviceAdd : Int
  classDev : Bool

def addDeviceStore (env : AddEnv) (sys : MintSys) (buf : List Byte) : MintSys × Int :=
  let name := firstLine buf
  if name.length = 0 ∨ MAX_MINT_ID_LEN ≤ name.length then (sys, -EINVAL)
  else
    match busFindDeviceByName sys name with
    | (sys, some _) => (sys, -EEXIST)
    | (sys, none) =>
        if env.alloc then
          let device : MintDev :=
            { name := devSetName name, refs := 1, onBus := false, classDev := false
              privData := none, released := 0 }
          if env.deviceAdd = 0 then
            let added := { device with onBus := true, classDev := env.classDev }
            ({ sys with devices := sys.devices ++ [added] }, buf.length)
          else ({ sys with devices := sys.devices ++ [putDevice device] }, env.deviceAdd)
        else (sys, -ENOMEM)

/-- Without a class device `mdev->class_dev` is an error number, and unregistering it is no
step that the system survives. -/
def removeDeviceStore (sys : MintSys) (buf : List Byte) : Option (MintSys × Int) :=
  let name := firstLine buf
  if name.length = 0 ∨ MAX_MINT_ID_LEN ≤ name.length then some (sys, -EINVAL)
  else
    match busFindDeviceByName sys name with
    | (sys, none) => some (sys, -ENODEV)
    | (sys, some index) =>
        if (sys.devices[index]?.map MintDev.classDev).getD false then
          some (sys.update index deviceUnregister, buf.length)
        else none

structure WriteEnv where
  faults : Bool
  kstrdup : Bool

def mintWrite (env : WriteEnv) (sys : MintSys) (data : List Byte) : MintSys × Int :=
  let data := data.take (MAX_MINT_ID_LEN - 1)
  if env.faults then (sys, -EFAULT)
  else
    let name := firstLine data
    match busFindDeviceByName sys name with
    | (sys, some index) => ({ sys with selectedDev := some index }, data.length)
    | (sys, none) =>
        match sys.selectedDev with
        | none => (sys, -ENODEV)
        | some selected =>
            let copy := if env.kstrdup then some name else none
            (sys.update selected fun device => { device with privData := copy },
              if env.kstrdup then data.length else -ENOMEM)

inductive MintAction
  | add (env : AddEnv) (buf : List Byte)
  | remove (buf : List Byte)
  | write (env : WriteEnv) (data : List Byte)

def mintStep (sys : MintSys) : MintAction → Option MintSys
  | .add env buf => some (addDeviceStore env sys buf).1
  | .remove buf => (removeDeviceStore sys buf).map Prod.fst
  | .write env data => some (mintWrite env sys data).1

end Ldd3.Mint
