import Mathlib.Tactic
import Ldd3.Kernel
import Ldd3.Lib.StepMachine

/-!
PCI error recovery (`edu_err_handlers` of `common_edu/edu_core.c`): the disable depth of
`pdev->irq` over the callbacks, in the order in which the comments of the file give them.
-/

namespace Ldd3.Edu

inductive ChannelState
  | ioNormal
  | ioFrozen
  | ioPermFailure
  deriving DecidableEq, Repr

inductive ErsResult
  | canRecover
  | needReset
  | disconnect
  | recovered
  deriving DecidableEq, Repr

/-- The depth of `disable_irq`, and whether `enable_irq` was ever called at depth 0. -/
structure IrqLine where
  depth : Nat
  unbalanced : Bool
  deriving DecidableEq, Repr

def IrqLine.disableIrq (irq : IrqLine) : IrqLine := { irq with depth := irq.depth + 1 }

def IrqLine.enableIrq (irq : IrqLine) : IrqLine :=
  if irq.depth = 0 then { irq with unbalanced := true } else { irq with depth := irq.depth - 1 }

structure EduPci where
  irq : IrqLine
  irqStatus : Nat
  inFlight : Bool
  deriving DecidableEq, Repr

def eduErrorDetected (dev : EduPci) : ChannelState → ErsResult × EduPci
  | .ioPermFailure => (.disconnect, dev)
  | .ioFrozen => (.needReset, dev)
  | .ioNormal =>
      (.canRecover, { dev with irq := dev.irq.disableIrq, irqStatus := 0, inFlight := false })

/-- `reg` is what the liveness register reads back. -/
def eduMmioEnabled (dev : EduPci) (reg : Nat) : ErsResult × EduPci :=
  if reg ≠ 0 then (.needReset, dev) else (.recovered, dev)

def eduSlotReset (dev : EduPci) (enableError : Int) (reg : Nat) : ErsResult × EduPci :=
  if enableError ≠ 0 then (.disconnect, dev)
  else if reg ≠ 0 then (.disconnect, dev)
  else (.recovered, { dev with irq := dev.irq.enableIrq })

def eduResume (dev : EduPci) : EduPci := dev

/-- A recovery: what the last callback returned, none when the device operates; the state
that began it, the depth before it, and whether the slot was reset. -/
structure Recovery where
  dev : EduPci
  status : Option ErsResult
  channel : ChannelState
  before : Nat
  slotReset : Bool
  deriving DecidableEq, Repr

def Recovery.operating (depth irqStatus : Nat) (inFlight : Bool) : Recovery :=
  { dev := { irq := { depth := depth, unbalanced := false }, irqStatus := irqStatus, inFlight := inFlight }
    status := none
    channel := .ioNormal
    before := depth
    slotReset := false }

inductive RecoveryAction
  | errorDetected (state : ChannelState)
  | mmioEnabled (reg : Nat)
  | slotReset (enableError : Int) (reg : Nat)
  | resume
  deriving DecidableEq, Repr

def Recovery.answered (recovery : Recovery) (answer : ErsResult × EduPci) : Recovery :=
  { recovery with dev := answer.2, status := some answer.1 }

def recoveryStep (recovery : Recovery) : RecoveryAction → Option Recovery
  | .errorDetected state =>
      if recovery.status = none then
        some ({ recovery with
          channel := state
          before := recovery.dev.irq.depth
          slotReset := false }.answered (eduErrorDetected recovery.dev state))
      else none
  | .mmioEnabled reg =>
      if recovery.status = some .canRecover then
        some (recovery.answered (eduMmioEnabled recovery.dev reg))
      else none
  | .slotReset enableError reg =>
      if recovery.status = some .needReset then
        some ({ recovery with slotReset := true }.answered
          (eduSlotReset recovery.dev enableError reg))
      else none
  | .resume =>
      if recovery.status = some .recovered then
        some { recovery with dev := eduResume recovery.dev, status := none }
      else none

/-- A completed recovery has left the depth as it was, and no enable came at depth 0. -/
def DepthKept (recovery : Recovery) : Prop :=
  (recovery.status = none → recovery.dev.irq.depth = recovery.before) ∧
    recovery.dev.irq.unbalanced = false

/-- The slot is reset successfully only after a non-fatal error (or when someone else had
disabled the interrupt), and a recovery that resumes is one of a non-fatal error that went
through a slot reset. -/
def RestoresIrq (recovery : Recovery) : RecoveryAction → Prop
  | .slotReset enableError reg =>
      enableError = 0 → reg = 0 → recovery.channel = .ioNormal ∨ 0 < recovery.before
  | .resume => recovery.channel = .ioNormal ∧ recovery.slotReset = true
  | _ => True

instance (recovery : Recovery) (action : RecoveryAction) :
    Decidable (RestoresIrq recovery action) := by
  cases action <;> simp only [RestoresIrq] <;> infer_instance

def InRecovery (recovery : Recovery) : Prop :=
  match recovery.status with
  | none => True
  | some .canRecover =>
      recovery.channel = .ioNormal ∧ recovery.slotReset = false ∧
        recovery.dev.irq.depth = recovery.before + 1
  | some .needReset =>
      recovery.slotReset = false ∧
        (recovery.channel = .ioNormal ∧ recovery.dev.irq.depth = recovery.before + 1 ∨
          recovery.channel = .ioFrozen ∧ recovery.dev.irq.depth = recovery.before)
  | some .recovered =>
      recovery.channel = .ioNormal ∧ recovery.slotReset = true ∧
          recovery.dev.irq.depth = recovery.before ∨
        recovery.channel = .ioNormal ∧ recovery.slotReset = false ∧
          recovery.dev.irq.depth = recovery.before + 1 ∨
        recovery.channel = .ioFrozen ∧
          (recovery.dev.irq.depth + 1 = recovery.before ∨ recovery.dev.irq.unbalanced = true)
  | some .disconnect => True

section Moves

variable {recovery next : Recovery}

theorem recoveryStep_errorDetected {state : ChannelState}
    (taken : recoveryStep recovery (.errorDetected state) = some next) :
    recovery.status = none ∧ next = { recovery with
      channel := state
      before := recovery.dev.irq.depth
      slotReset := false }.answered (eduErrorDetected recovery.dev state) := by
  rw [recoveryStep, Option.ite_none_right_eq_some, Option.some.injEq] at taken
  exact ⟨taken.1, taken.2.symm⟩

theorem recoveryStep_mmioEnabled {reg : Nat}
    (taken : recoveryStep recovery (.mmioEnabled reg) = some next) :
    recovery.status = some .canRecover ∧
      next = recovery.answered (eduMmioEnabled recovery.dev reg) := by
  rw [recoveryStep, Option.ite_none_right_eq_some, Option.some.injEq] at taken
  exact ⟨taken.1, taken.2.symm⟩

theorem recoveryStep_slotReset {enableError : Int} {reg : Nat}
    (taken : recoveryStep recovery (.slotReset enableError reg) = some next) :
    recovery.status = some .needReset ∧
      next = { recovery with slotReset := true }.answered
        (eduSlotReset recovery.dev enableError reg) := by
  rw [recoveryStep, Option.ite_none_right_eq_some, Option.some.injEq] at taken
  exact ⟨taken.1, taken.2.symm⟩

theorem recoveryStep_resume (taken : recoveryStep recovery .resume = some next) :
    recovery.status = some .recovered ∧
      next = { recovery with dev := eduResume recovery.dev, status := none } := by
  rw [recoveryStep, Option.ite_none_right_eq_some, Option.some.injEq] at taken
  exact ⟨taken.1, taken.2.symm⟩

end Moves

theorem inRecovery_step {recovery next : Recovery} {action : RecoveryAction}
    (inside : InRecovery recovery) (taken : recoveryStep recovery action = some next) :
    InRecovery next := by
  cases action with
  | errorDetected state =>
      obtain ⟨_, rfl⟩ := recoveryStep_errorDetected taken
      cases state with
      | ioNormal => exact ⟨rfl, rfl, rfl⟩
      | ioFrozen => exact ⟨rfl, .inr ⟨rfl, rfl⟩⟩
      | ioPermFailure => trivial
  | mmioEnabled reg =>
      obtain ⟨here, rfl⟩ := recoveryStep_mmioEnabled taken
      simp only [InRecovery, here] at inside
      obtain ⟨normal, unreset, depth⟩ := inside
      by_cases alive : reg = 0
      · simp [Recovery.answered, eduMmioEnabled, alive, InRecovery, normal, unreset, depth]
      · simp [Recovery.answered, eduMmioEnabled, alive, InRecovery, normal, unreset, depth]
  | slotReset enableError reg =>
      obtain ⟨here, rfl⟩ := recoveryStep_slotReset taken
      simp only [InRecovery, here] at inside
      simp only [Recovery.answered, eduSlotReset]
      split
      · trivial
      · split
        · trivial
        · rcases inside.2 with ⟨normal, depth⟩ | ⟨frozen, depth⟩
          · left
            refine ⟨normal, rfl, ?_⟩
            simp [IrqLine.enableIrq, depth]
          · right
            right
            refine ⟨frozen, ?_⟩
            simp only [IrqLine.enableIrq]
            split
            · exact .inr rfl
            · left
              simp only
              omega
  | resume =>
      obtain ⟨_, rfl⟩ := recoveryStep_resume taken
      trivial

theorem depthKept_step_iff {recovery next : Recovery} {action : RecoveryAction}
    (inside : InRecovery recovery) (kept : DepthKept recovery)
    (taken : recoveryStep recovery action = some next) :
    DepthKept next ↔ RestoresIrq recovery action := by
  have balanced := kept.2
  cases action with
  | errorDetected state =>
      obtain ⟨_, rfl⟩ := recoveryStep_errorDetected taken
      simp only [RestoresIrq, iff_true]
      refine ⟨fun ended => by contradiction, ?_⟩
      cases state <;> exact balanced
  | mmioEnabled reg =>
      obtain ⟨_, rfl⟩ := recoveryStep_mmioEnabled taken
      simp only [RestoresIrq, iff_true, Recovery.answered, eduMmioEnabled]
      split <;> exact ⟨fun ended => by contradiction, balanced⟩
  | slotReset enableError reg =>
      obtain ⟨here, rfl⟩ := recoveryStep_slotReset taken
      simp only [InRecovery, here] at inside
      simp only [DepthKept, RestoresIrq, Recovery.answered, eduSlotReset]
      split
      · rename_i failed
        simp [failed, balanced]
      · rename_i enabled
        split
        · rename_i dead
          simp [dead, balanced]
        · rename_i alive
          simp only [ne_eq, not_not] at enabled alive
          simp only [enabled, alive, forall_const, reduceCtorEq, false_implies, true_and,
            IrqLine.enableIrq]
          rcases inside.2 with ⟨normal, depth⟩ | ⟨frozen, depth⟩
          · simp [normal, depth, balanced]
          · by_cases zero : recovery.before = 0
            · simp [frozen, depth, zero]
            · simp [frozen, depth, zero, balanced, Nat.pos_of_ne_zero zero]
  | resume =>
      obtain ⟨here, rfl⟩ := recoveryStep_resume taken
      simp only [InRecovery, here, balanced, Bool.false_eq_true, or_false] at inside
      simp only [DepthKept, RestoresIrq, eduResume, forall_const, balanced, and_true]
      rcases inside with ⟨normal, reset, depth⟩ | ⟨normal, unreset, depth⟩ | ⟨frozen, depth⟩
      · simp [normal, reset, depth]
      · simp [normal, unreset, depth]
      · simp only [frozen, reduceCtorEq, false_and, iff_false]
        omega

/-- Over any number of recoveries the interrupt is left as it was, and never enabled at
depth 0, exactly when each that completes is a non-fatal error whose slot was reset. -/
theorem recovery_depthKept_iff (depth irqStatus : Nat) (inFlight : Bool)
    (actions : List RecoveryAction) :
    StepMachine.Always recoveryStep DepthKept (.operating depth irqStatus inFlight) actions ↔
      StepMachine.Meets recoveryStep RestoresIrq (.operating depth irqStatus inFlight) actions := by
  have begins : InRecovery (.operating depth irqStatus inFlight) := trivial
  have kept : DepthKept (.operating depth irqStatus inFlight) := ⟨fun _ => rfl, rfl⟩
  apply StepMachine.always_iff_meets _ _ actions begins kept
  · intro recovery action next inside _ taken
    exact inRecovery_step inside taken
  · intro recovery action next inside kept taken
    exact depthKept_step_iff inside kept taken

/-- A non-fatal error that the liveness check finds harmless: nothing enables the
interrupt again. -/
def harmlessError : List RecoveryAction := [.errorDetected .ioNormal, .mmioEnabled 0, .resume]

/-- A fatal error: the interrupt, never disabled, is enabled after the reset. -/
def fatalError : List RecoveryAction := [.errorDetected .ioFrozen, .slotReset 0 0]

theorem harmlessError_depth :
    (StepMachine.run recoveryStep (.operating 0 0 false) harmlessError).map
      (fun recovery => (recovery.status, recovery.dev.irq.depth, recovery.before)) =
        some (none, 1, 0) := by
  decide

theorem fatalError_unbalanced :
    (StepMachine.run recoveryStep (.operating 0 0 false) fatalError).map
      (fun recovery => recovery.dev.irq.unbalanced) = some true := by
  decide

theorem recovery_depth_lost :
    ¬ StepMachine.Always recoveryStep DepthKept (.operating 0 0 false) harmlessError ∧
      ¬ StepMachine.Always recoveryStep DepthKept (.operating 0 0 false) fatalError := by
  constructor
  · intro always
    obtain ⟨recovery, kept, depths⟩ := always.observed harmlessError_depth
    simp only [Prod.mk.injEq] at depths
    have same := kept.1 depths.1
    rw [depths.2.1, depths.2.2] at same
    contradiction
  · intro always
    obtain ⟨recovery, kept, unbalanced⟩ := always.observed fatalError_unbalanced
    have balanced := kept.2
    rw [unbalanced] at balanced
    contradiction

end Ldd3.Edu
