import Mathlib.Tactic
import Ldd3.Kernel
import Ldd3.Lib.Resources

/-!
Loading and unloading of modules, or probing and removing of a device, as far as resources go:
every failure of a kernel function that the init function calls, and the labels it goes to.
-/

namespace Ldd3.Loading

open Resources (Use acquireAll releaseAll Leaves)

inductive Status
  | failed (errno : Nat)
  | ok
  deriving DecidableEq, Repr

def Status.ret : Status → Int
  | failed errno => -(errno + 1)
  | ok => 0

theorem Status.neg {status : Status} (failed : status.ret ≠ 0) : status.ret < 0 := by
  cases status with
  | failed errno => rw [Status.ret]; omega
  | ok => exact absurd rfl failed

/-- What the init function returns, none when it oopses, and what it and the exit function acquire
and release. -/
structure Loadable (Env Item : Type) where
  init : Env → Option Int × List (Use Item)
  exit : Env → List (Use Item)

/-- A module that was loaded is unloaded some time later. Only a negative value fails. -/
def Loadable.attempt {Env Item : Type} (loadable : Loadable Env Item) (env : Env) :
    List (Use Item) :=
  (loadable.init env).2 ++
    match (loadable.init env).1 with
    | some ret => if 0 ≤ ret then loadable.exit env else []
    | none => []

structure Loadable.Accounts {Env Item : Type} [DecidableEq Item] (loadable : Loadable Env Item)
    (sound : Env → Prop) (leaks : Env → Multiset Item) : Prop where
  leaves : ∀ env, sound env → Leaves (loadable.attempt env) (leaks env)
  stuck : ∀ env, ¬sound env → ∀ left, ¬Leaves (loadable.attempt env) left

section Attempts

variable {Env Item : Type} [DecidableEq Item] {loadable : Loadable Env Item} {env : Env}
  {left : Multiset Item} {ret : Int} {uses : List (Use Item)}

theorem attempt_failed (failed : loadable.init env = (some ret, uses)) (error : ret < 0)
    (leaves : Leaves uses left) : Leaves (loadable.attempt env) left := by
  simpa only [Loadable.attempt, failed, if_neg (not_le.mpr error), List.append_nil] using leaves

theorem attempt_loaded (loaded : loadable.init env = (some ret, uses)) (fine : 0 ≤ ret)
    (leaves : Leaves (uses ++ loadable.exit env) left) : Leaves (loadable.attempt env) left := by
  simpa only [Loadable.attempt, loaded, if_pos fine] using leaves

end Attempts

/-! `ch09_hw_communication/short.c` -/

inductive ShortItem
  | memRegion
  | ioRegion
  | mmio
  | misc
  deriving DecidableEq, Repr

structure ShortEnv where
  useMem : Bool
  region : Bool
  ioremap : Bool
  misc : Status

def shortUnmap (env : ShortEnv) : List (Use ShortItem) :=
  if env.useMem then [.release .mmio, .release .memRegion] else [.release .ioRegion]

def shortInit (env : ShortEnv) : Option Int × List (Use ShortItem) :=
  let mapped : List (Use ShortItem) :=
    if env.useMem then [.acquire .memRegion, .acquire .mmio] else [.acquire .ioRegion]
  if !env.region then (some (-EBUSY), [])
  else if env.useMem && !env.ioremap then
    (some (-ENOMEM), [.acquire .memRegion, .release .memRegion])
  else if env.misc.ret ≠ 0 then (some env.misc.ret, mapped ++ shortUnmap env)
  else (some 0, mapped ++ [.acquire .misc])

def shortExit (env : ShortEnv) : List (Use ShortItem) :=
  .release .misc :: shortUnmap env

def short : Loadable ShortEnv ShortItem where
  init := shortInit
  exit := shortExit

/-! `ch10_interrupts/shortirq.c` -/

inductive ShortirqItem
  | region
  | misc
  | irq
  deriving DecidableEq, Repr

structure ShortirqEnv where
  region : Bool
  misc : Status
  irq : Status

/-- The failure of `request_threaded_irq` is not returned. -/
def shortirqInit (env : ShortirqEnv) : Option Int × List (Use ShortirqItem) :=
  if !env.region then (some (-EBUSY), [])
  else if env.misc.ret ≠ 0 then (some env.misc.ret, [.acquire .region, .release .region])
  else
    let registered : List (Use ShortirqItem) := [.acquire .region, .acquire .misc]
    if env.irq.ret ≠ 0 then (some 0, registered ++ [.release .misc, .release .region])
    else (some 0, registered ++ [.acquire .irq])

def shortirqExit (_ : ShortirqEnv) : List (Use ShortirqItem) :=
  [.release .irq, .release .misc, .release .region]

def shortirq : Loadable ShortirqEnv ShortirqItem where
  init := shortirqInit
  exit := shortirqExit

/-! `ch10_interrupts/pci_eduirq.c`: `edu_probe` and `edu_remove` -/

inductive EduirqItem
  | enabled
  | regions
  | bar0
  | vectors
  | irq
  | misc
  deriving DecidableEq, Repr

structure EduirqEnv where
  enable : Status
  regions : Status
  iomap : Bool
  vectors : Bool
  irq : Status
  misc : Status

def ENODEV : Int := 19

def disableDev : List (Use EduirqItem) := [.release .enabled]

def releaseMem : List (Use EduirqItem) := .release .regions :: disableDev

def unmap : List (Use EduirqItem) := .release .bar0 :: releaseMem

def errVectors : List (Use EduirqItem) := .release .vectors :: unmap

def errIrq : List (Use EduirqItem) := .release .irq :: errVectors

def eduProbe (env : EduirqEnv) : Option Int × List (Use EduirqItem) :=
  if env.enable.ret ≠ 0 then (some env.enable.ret, [])
  else if env.regions.ret ≠ 0 then
    (some env.regions.ret, acquireAll [EduirqItem.enabled] ++ disableDev)
  else if !env.iomap then
    (some (-ENODEV), acquireAll [EduirqItem.enabled, .regions] ++ releaseMem)
  else if !env.vectors then
    (some (-ENODEV), acquireAll [EduirqItem.enabled, .regions, .bar0] ++ unmap)
  else if env.irq.ret < 0 then
    (some env.irq.ret, acquireAll [EduirqItem.enabled, .regions, .bar0, .vectors] ++ errVectors)
  else if env.misc.ret ≠ 0 then
    (some env.misc.ret, acquireAll [EduirqItem.enabled, .regions, .bar0, .vectors, .irq] ++ errIrq)
  else (some 0, acquireAll [EduirqItem.enabled, .regions, .bar0, .vectors, .irq, .misc])

def eduRemove (_ : EduirqEnv) : List (Use EduirqItem) :=
  errIrq ++ [.release .misc]

def eduirq : Loadable EduirqEnv EduirqItem where
  init := eduProbe
  exit := eduRemove

/-! `ch17_net/impair_main.c` -/

inductive ImpairItem
  | netdev
  | registered
  deriving DecidableEq, Repr

structure ImpairEnv where
  alloc : Bool
  register : Status

def netImpairInit (env : ImpairEnv) : Option Int × List (Use ImpairItem) :=
  if !env.alloc then (some (-ENOMEM), [])
  else if env.register.ret ≠ 0 then
    (some env.register.ret, [.acquire .netdev, .release .netdev])
  else (some 0, [.acquire .netdev, .acquire .registered])

def netImpairExit (_ : ImpairEnv) : List (Use ImpairItem) :=
  [.release .registered, .release .netdev]

def impair : Loadable ImpairEnv ImpairItem where
  init := netImpairInit
  exit := netImpairExit

/-! What they leave behind. -/

theorem short_accounts : short.Accounts (fun _ => True) fun _ => 0 where
  leaves := by
    rintro ⟨useMem, region, ioremap, misc⟩ _
    obtain _ | _ := region
    · rfl
    obtain _ | _ := useMem
    · obtain _ | _ := misc <;> rfl
    obtain _ | _ := ioremap
    · rfl
    obtain _ | _ := misc <;> rfl
  stuck := fun _ unsound => absurd trivial unsound

def ShortirqEnv.Requests (env : ShortirqEnv) : Prop :=
  env.region = true → env.misc = .ok → env.irq = .ok

theorem shortirq_accounts : shortirq.Accounts ShortirqEnv.Requests fun _ => 0 where
  leaves := by
    rintro ⟨region, misc, irq⟩ requests
    obtain _ | _ := region
    · rfl
    obtain _ | _ := misc
    · rfl
    obtain rfl : irq = .ok := requests rfl rfl
    rfl
  stuck := by
    rintro ⟨region, misc, irq⟩ unsound left leaves
    obtain _ | _ := region
    · exact unsound (by rintro ⟨⟩)
    obtain _ | _ := misc
    · exact unsound (by rintro _ ⟨⟩)
    obtain _ | _ := irq
    · contradiction
    · exact unsound fun _ _ => rfl

theorem eduirq_accounts : eduirq.Accounts (fun _ => True) fun _ => 0 where
  leaves := by
    rintro ⟨enable, regions, iomap, vectors, irq, misc⟩ _
    obtain _ | _ := enable
    · rfl
    obtain _ | _ := regions
    · rfl
    obtain _ | _ := iomap
    · rfl
    obtain _ | _ := vectors
    · rfl
    obtain errno | _ := irq
    · cases errno <;> rfl
    obtain _ | _ := misc <;> rfl
  stuck := fun _ unsound => absurd trivial unsound

theorem impair_accounts : impair.Accounts (fun _ => True) fun _ => 0 where
  leaves := by
    rintro ⟨alloc, register⟩ _
    obtain _ | _ := alloc
    · rfl
    obtain _ | _ := register <;> rfl
  stuck := fun _ unsound => absurd trivial unsound

end Ldd3.Loading
