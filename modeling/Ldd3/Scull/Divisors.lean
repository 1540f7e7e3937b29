import Mathlib.Tactic
import Ldd3.Lib.StepMachine
import Ldd3.Scull.Ioctl
import Ldd3.Scull.Reset

/-!
The divisors of `scull_read` and `scull_write`. They come from the parameters, which the ioctls
set to anything and a reset copies into the device unchecked.
-/

namespace Ldd3.Scull

open CInt (int32 uint64)

structure ModuleSys where
  dev : ScullDev
  globals : Geometry
  deriving DecidableEq

def ModuleSys.loaded (load : Geometry) : ModuleSys := ⟨.fresh load, load⟩

inductive ModuleAction
  | ioctl (call : IoctlCall)
  | openWriteOnly (interrupted : Bool) (fuel : Nat)
  | call (call : Call)

def moduleStep (sys : ModuleSys) : ModuleAction → Option ModuleSys
  | .ioctl call => some { sys with globals := (call.reply sys.globals).globals }
  | .openWriteOnly true _ => some sys
  | .openWriteOnly false fuel =>
      match scullDevReset fuel sys.globals sys.dev with
      | .returned dev _ => some { sys with dev := dev }
      | _ => none
  | .call call => (callStep sys.dev call).map fun dev => { sys with dev := dev }

/-- The call gets to the lines "Calculate positions". -/
def Divides (dev : ScullDev) : Call → Prop
  | .read env _ fPos => env.interrupted = false ∧ uint64 fPos < dev.size
  | .write env _ _ => env.interrupted = false

def Geometry.Divisors (geometry : Geometry) : Prop :=
  0 < geometry.quantum ∧ 0 < int32 (geometry.quantum * geometry.qset)

instance (geometry : Geometry) : Decidable geometry.Divisors := by
  unfold Geometry.Divisors
  infer_instance

structure DivisorsPositive (sys : ModuleSys) : Prop where
  divisors : ∀ call, Divides sys.dev call → Geometry.Divisors ⟨sys.dev.quantum, sys.dev.qset⟩
  dividesByZero : ∀ call, perform sys.dev call ≠ .error .divide

def ResetsToDivisors (sys : ModuleSys) : ModuleAction → Prop
  | .openWriteOnly false _ => sys.globals.Divisors
  | _ => True

/-! Nothing else in a call divides. -/

theorem calculatePositions_cases (quantum qset fPos : Int) :
    (int32 (quantum * qset) = 0 ∨ quantum = 0) ∧
        calculatePositions quantum qset fPos = .error .divide ∨
      ¬(int32 (quantum * qset) = 0 ∨ quantum = 0) ∧
        ∃ pos, calculatePositions quantum qset fPos = .ok pos := by
  by_cases wrapped : int32 (quantum * qset) = 0
  · exact .inl ⟨.inl wrapped, by simp only [calculatePositions, wrapped, ↓reduceIte]⟩
  · by_cases zero : quantum = 0
    · refine .inl ⟨.inr zero, ?_⟩
      rw [calculatePositions, if_neg wrapped, if_pos zero]
    · exact .inr ⟨by simp [wrapped, zero], _, by
        simp only [calculatePositions, wrapped, zero, ↓reduceIte]; rfl⟩

theorem entryAt_ne_divide (array : PointerArray) (sPos : Int) :
    entryAt array sPos ≠ .error .divide := by
  simp only [entryAt]
  split <;> simp

theorem kmallocQuantum_ne_divide (quantum devQuantum : Int) (env : Env) (used : Nat) :
    kmallocQuantum quantum devQuantum env used ≠ .error .divide := by
  simp only [kmallocQuantum]
  split
  · split <;> simp
  · simp

theorem copyIntoQuantum_ne_divide (env : Env) (quantum : Int) (dev : ScullDev) (data : List Byte)
    (fPos qPos : Int) (index : Nat) (array : PointerArray) (sPos : Nat) (block : List Byte) :
    copyIntoQuantum env quantum dev data fPos qPos index array sPos block ≠ .error .divide := by
  simp only [copyIntoQuantum]
  split
  · split <;> simp
  · simp

theorem withArray_ne_divide (quantum devQuantum : Int) (env : Env) (dev : ScullDev)
    (data : List Byte) (fPos : Int) (index used : Nat) (array : PointerArray) (pos : Position) :
    scullWriteWith.withArray (kmallocQuantum quantum devQuantum) env quantum data fPos dev index
      array used pos ≠ .error .divide := by
  simp only [scullWriteWith.withArray]
  cases entered : entryAt array pos.sPos with
  | error oops =>
      have other := entryAt_ne_divide array pos.sPos
      simpa [entered] using other
  | ok entry =>
      rw [ok_bind]
      cases entry with
      | some block => exact copyIntoQuantum_ne_divide _ _ _ _ _ _ _ _ _ _
      | none =>
          cases allocated : kmallocQuantum quantum devQuantum env used with
          | error oops =>
              have other := kmallocQuantum_ne_divide quantum devQuantum env used
              simpa [allocated] using other
          | ok allocation =>
              rw [ok_bind]
              cases allocation with
              | none => simp
              | some block => exact copyIntoQuantum_ne_divide _ _ _ _ _ _ _ _ _ _

theorem scullWrite_divides_iff (env : Env) (dev : ScullDev) (data : List Byte) (fPos : Int) :
    scullWrite env dev.quantum dev.qset dev data fPos = .error .divide ↔
      env.interrupted = false ∧ (int32 (dev.quantum * dev.qset) = 0 ∨ dev.quantum = 0) := by
  simp only [scullWrite, scullWriteWith]
  cases interrupted : env.interrupted with
  | true => simp
  | false =>
      simp only [Bool.false_eq_true, ↓reduceIte, true_and]
      rcases calculatePositions_cases dev.quantum dev.qset fPos with
        ⟨zero, failed⟩ | ⟨nonzero, pos, computed⟩
      · simp only [failed, error_bind, zero]
      · simp only [computed, ok_bind, nonzero, iff_false]
        split
        · simp
        · split
          · exact withArray_ne_divide _ _ _ _ _ _ _ _ _ _
          · split
            · exact withArray_ne_divide _ _ _ _ _ _ _ _ _ _
            · simp

theorem scullRead_divides_iff (env : Env) (dev : ScullDev) (count : Nat) (fPos : Int) :
    scullRead env dev.quantum dev.qset dev count fPos = .error .divide ↔
      (env.interrupted = false ∧ uint64 fPos < dev.size) ∧
        (int32 (dev.quantum * dev.qset) = 0 ∨ dev.quantum = 0) := by
  simp only [scullRead]
  cases interrupted : env.interrupted with
  | true => simp
  | false =>
      simp only [Bool.false_eq_true, ↓reduceIte, true_and]
      by_cases ended : dev.size ≤ uint64 fPos
      · simp [ended]
      rcases calculatePositions_cases dev.quantum dev.qset fPos with
        ⟨zero, failed⟩ | ⟨nonzero, pos, computed⟩
      · simp only [ended, ↓reduceIte, failed, error_bind, zero, Nat.lt_of_not_le ended, and_self]
      · simp only [ended, ↓reduceIte, computed, ok_bind, nonzero, and_false, iff_false]
        split
        · simp
        · rename_i array _
          cases entered : entryAt array pos.sPos with
          | error oops =>
              have other := entryAt_ne_divide array pos.sPos
              simpa [entered] using other
          | ok entry =>
              rw [ok_bind]
              cases entry with
              | none => simp
              | some block =>
                  simp only
                  split
                  · split <;> simp
                  · simp

theorem perform_divides_iff (dev : ScullDev) (call : Call) :
    perform dev call = .error .divide ↔
      Divides dev call ∧ (int32 (dev.quantum * dev.qset) = 0 ∨ dev.quantum = 0) := by
  cases call with
  | read env count fPos => exact scullRead_divides_iff env dev count fPos
  | write env data fPos => exact scullWrite_divides_iff env dev data fPos

/-! The divisors over a run. -/

theorem callStep_geometry {dev next : ScullDev} {call : Call}
    (sized : ArraysSized dev.qset.toNat dev.data) (taken : callStep dev call = some next) :
    next.quantum = dev.quantum ∧ next.qset = dev.qset := by
  obtain ⟨reply, replied, rfl⟩ := callStep_replied taken
  cases call with
  | read env count fPos =>
      obtain ⟨extra, device⟩ := scullRead_device replied
      rw [device]
      exact ⟨rfl, rfl⟩
  | write env data fPos =>
      obtain ⟨_, qset, quantum⟩ := scullWriteWith_arrays sized replied
      exact ⟨quantum, qset⟩

theorem moduleStep_openWriteOnly {sys next : ModuleSys} {fuel : Nat}
    (taken : moduleStep sys (.openWriteOnly false fuel) = some next) :
    next = { sys with dev := .fresh sys.globals } := by
  simp only [moduleStep] at taken
  split at taken
  · rename_i dev visited returned
    rw [Option.some.injEq] at taken
    rw [← taken, resetLoop_fresh _ _ _ _ returned]
  · contradiction

theorem moduleStep_cases {sys next : ModuleSys} {action : ModuleAction}
    (taken : moduleStep sys action = some next) :
    next.dev = sys.dev ∧ ResetsToDivisors sys action ∨
      next.dev = .fresh sys.globals ∧ (ResetsToDivisors sys action ↔ sys.globals.Divisors) ∨
      ∃ call, action = .call call ∧ callStep sys.dev call = some next.dev ∧
        ResetsToDivisors sys action := by
  cases action with
  | ioctl call =>
      simp only [moduleStep, Option.some.injEq] at taken
      subst taken
      exact .inl ⟨rfl, trivial⟩
  | openWriteOnly interrupted fuel =>
      cases interrupted with
      | true =>
          simp only [moduleStep, Option.some.injEq] at taken
          subst taken
          exact .inl ⟨rfl, trivial⟩
      | false =>
          have reset := moduleStep_openWriteOnly taken
          subst reset
          exact .inr (.inl ⟨rfl, Iff.rfl⟩)
  | call call =>
      obtain ⟨dev, stepped, built⟩ := Option.map_eq_some_iff.mp taken
      subst built
      exact .inr (.inr ⟨call, rfl, stepped, trivial⟩)

theorem moduleStep_arrays {sys next : ModuleSys} {action : ModuleAction}
    (sized : ArraysSized sys.dev.qset.toNat sys.dev.data)
    (taken : moduleStep sys action = some next) :
    ArraysSized next.dev.qset.toNat next.dev.data := by
  rcases moduleStep_cases taken with ⟨same, _⟩ | ⟨fresh, _⟩ | ⟨call, _, stepped, _⟩
  · rwa [same]
  · rw [fresh]
    intro node member
    simp [ScullDev.fresh] at member
  · exact callStep_arrays sized stepped

theorem divisorsPositive_iff (sys : ModuleSys) :
    DivisorsPositive sys ↔ Geometry.Divisors ⟨sys.dev.quantum, sys.dev.qset⟩ := by
  constructor
  · intro positive
    exact positive.divisors (.write (.good fun _ => 0) [] 0) rfl
  · intro divisors
    obtain ⟨quantum, itemsize⟩ := divisors
    refine ⟨fun _ _ => ⟨quantum, itemsize⟩, ?_⟩
    intro call divides
    rcases ((perform_divides_iff sys.dev call).mp divides).2 with zero | zero
    · exact absurd zero itemsize.ne'
    · exact absurd zero quantum.ne'

theorem divisorsPositive_next_iff {sys next : ModuleSys} {action : ModuleAction}
    (sized : ArraysSized sys.dev.qset.toNat sys.dev.data) (good : DivisorsPositive sys)
    (taken : moduleStep sys action = some next) :
    DivisorsPositive next ↔ ResetsToDivisors sys action := by
  rw [divisorsPositive_iff] at good ⊢
  rcases moduleStep_cases taken with ⟨same, meets⟩ | ⟨fresh, exactly⟩ |
    ⟨call, _, stepped, meets⟩
  · rw [same]
    exact iff_of_true good meets
  · rw [fresh]
    exact exactly.symm
  · obtain ⟨quantum, qset⟩ := callStep_geometry sized stepped
    rw [quantum, qset]
    exact iff_of_true good meets

/-- No call divides by zero or by a negative number exactly when the parameters are good divisors
at load and at every reset. -/
theorem scull_divisors_iff (load : Geometry) (actions : List ModuleAction) :
    StepMachine.Always moduleStep DivisorsPositive (.loaded load) actions ↔
      load.Divisors ∧ StepMachine.Meets moduleStep ResetsToDivisors (.loaded load) actions := by
  have sized : ArraysSized (ModuleSys.loaded load).dev.qset.toNat (ModuleSys.loaded load).dev.data := by
    intro node member
    simp [ModuleSys.loaded, ScullDev.fresh] at member
  have whole (good : load.Divisors) :
      StepMachine.Always moduleStep DivisorsPositive (.loaded load) actions ↔
        StepMachine.Meets moduleStep ResetsToDivisors (.loaded load) actions :=
    StepMachine.always_iff_meets
      (fun _ _ _ invariant _ taken => moduleStep_arrays invariant taken)
      (fun _ _ _ invariant good taken => divisorsPositive_next_iff invariant good taken) actions
      sized ((divisorsPositive_iff (.loaded load)).mpr good)
  constructor
  · intro always
    have good : load.Divisors := (divisorsPositive_iff (.loaded load)).mp always.head
    exact ⟨good, (whole good).mp always⟩
  · rintro ⟨good, meets⟩
    exact (whole good).mpr meets

def zeroQuantum : List ModuleAction :=
  [.ioctl
    { env := { capable := true, accessOk := fun _ _ => true, userInt := some 0, putFaults := false }
      cmd := (IocCommand.set .quantum).word
      arg := 4096 },
    .openWriteOnly false 1]

theorem zeroQuantum_divides :
    ¬ StepMachine.Always moduleStep DivisorsPositive (.loaded ⟨SCULL_QUANTUM, SCULL_QSET⟩)
      zeroQuantum := by
  intro always
  have ran : StepMachine.run moduleStep (.loaded ⟨SCULL_QUANTUM, SCULL_QSET⟩) zeroQuantum =
      some (.loaded ⟨0, SCULL_QSET⟩) := by decide +kernel
  exact absurd ((divisorsPositive_iff _).mp (always.last ran)) (by decide)

end Ldd3.Scull
