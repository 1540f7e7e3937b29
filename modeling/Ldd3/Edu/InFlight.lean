import Mathlib.Tactic
import Ldd3.Lib.StepMachine
import Ldd3.Edu.Recovery
import Ldd3.Edu.Steps

/-!
`in_flight` under its two locks: the transfers of `edu_dma_transfers`, the threaded
interrupt handler, and the branch of `edu_error_detected` for a non-fatal error. The
critical sections of `isr_lock` are taken apart here, so that other parties step while
one is in such a section.
-/

namespace Ldd3.Edu

inductive IsrOwner (Pid : Type)
  | caller (pid : Pid)
  | handler
  deriving DecidableEq

inductive RecoveryPoint
  | idle
  | locking
  | reading
  | acking (status : List Nat)
  | clearing
  | unlocking
  | returned (answer : ErsResult)
  deriving DecidableEq, Repr

def RecoveryPoint.holdsLock : RecoveryPoint → Bool
  | .idle | .locking | .returned _ => false
  | _ => true

def Point.isCritical : Point → Bool
  | .locked _ | .ending _ => true
  | _ => false

def Point.inTransfer : Point → Bool
  | .choosing _ | .writing _ _ | .waiting _ | .polling _ | .ending _ => true
  | _ => false

def Handler.isCritical : Handler → Bool
  | .completing _ => true
  | _ => false

/-- `xfer_lock` is held by a transfer or by an error callback. -/
structure InFlightSys (Pid Aer : Type) where
  edu : EduSys (Pid ⊕ Aer)
  isrLock : Option (IsrOwner Pid)
  recovery : Aer → RecoveryPoint

def InFlightSys.loaded (Pid Aer : Type) (memory : Memory) : InFlightSys Pid Aer :=
  { edu := .loaded _ memory, isrLock := none, recovery := fun _ => .idle }

inductive InFlightAction (Pid Aer : Type)
  | call (pid : Pid) (request : DmaRequest)
  | proceed (pid : Pid) (interrupted expired : Bool)
  | finish (dma : Nat)
  | raise (dma : Nat)
  | irq (resumed : Bool)
  | errorDetected (aer : Aer) (state : ChannelState)
  | recover (aer : Aer)

section Machine

variable {Pid Aer : Type} [DecidableEq Pid] [DecidableEq Aer]

def InFlightSys.lift (interruptsEnabled : Bool) (sys : InFlightSys Pid Aer)
    (action : EduAction (Pid ⊕ Aer)) : Option (InFlightSys Pid Aer) :=
  (eduStep interruptsEnabled sys.edu action).map fun edu => { sys with edu := edu }

omit [DecidableEq Aer] in
def InFlightSys.underIsrLock (sys : InFlightSys Pid Aer) (owner : IsrOwner Pid) (isCritical : Bool)
    (body : Option (InFlightSys Pid Aer)) : Option (InFlightSys Pid Aer) :=
  if sys.isrLock = some owner then
    if isCritical then body else some { sys with isrLock := none }
  else if isCritical then
    if sys.isrLock = none then some { sys with isrLock := some owner } else none
  else body

def InFlightSys.setRecovery (sys : InFlightSys Pid Aer) (aer : Aer) (point : RecoveryPoint) :
    InFlightSys Pid Aer :=
  { sys with recovery := Function.update sys.recovery aer point }

/-- One step of `edu_error_detected`. Only the non-fatal branch takes `xfer_lock`, which it
waits for without being interrupted; acking the one status bit clears all that is latched. -/
def eduErrorProceed (sys : InFlightSys Pid Aer) (aer : Aer) :
    RecoveryPoint → Option (InFlightSys Pid Aer)
  | .idle | .returned _ => none
  | .locking =>
      if sys.edu.xferLock = none then
        some ({ sys with
          edu := { sys.edu with xferLock := some (.inr aer) } }.setRecovery aer .reading)
      else none
  | .reading => some (sys.setRecovery aer (.acking sys.edu.irqStatus))
  | .acking status =>
      if status = [] then some (sys.setRecovery aer .clearing)
      else some ({ sys with edu := { sys.edu with irqStatus := [] } }.setRecovery aer .clearing)
  | .clearing =>
      some ({ sys with edu := { sys.edu with inFlight := false } }.setRecovery aer .unlocking)
  | .unlocking =>
      some ({ sys with
        edu := { sys.edu with xferLock := none } }.setRecovery aer (.returned .canRecover))

def inFlightStep (interruptsEnabled : Bool) (sys : InFlightSys Pid Aer) :
    InFlightAction Pid Aer → Option (InFlightSys Pid Aer)
  | .call pid request => sys.lift interruptsEnabled (.call (.inl pid) request)
  | .proceed pid interrupted expired =>
      sys.underIsrLock (.caller pid) (sys.edu.points (.inl pid)).isCritical
        (sys.lift interruptsEnabled (.proceed (.inl pid) interrupted expired))
  | .finish dma => sys.lift interruptsEnabled (.finish dma)
  | .raise dma => sys.lift interruptsEnabled (.raise dma)
  | .irq resumed =>
      sys.underIsrLock .handler sys.edu.handler.isCritical (sys.lift interruptsEnabled (.irq resumed))
  | .errorDetected aer state =>
      if (sys.recovery aer).holdsLock ∨ sys.recovery aer = .locking then none
      else
        match state with
        | .ioPermFailure => some (sys.setRecovery aer (.returned .disconnect))
        | .ioFrozen => some (sys.setRecovery aer (.returned .needReset))
        | .ioNormal => some (sys.setRecovery aer .locking)
  | .recover aer => eduErrorProceed sys aer (sys.recovery aer)

/-- `in_flight` belongs to a transfer that holds `xfer_lock`, nobody finds it set, a caller that
has returned holds nothing, and with both locks free the next transfer gets past its test. -/
structure TransfersSafe (interruptsEnabled : Bool) (sys : InFlightSys Pid Aer) : Prop where
  inFlight_held : sys.edu.inFlight = true →
    ∃ pid, sys.edu.xferLock = some (.inl pid) ∧ (sys.edu.points (.inl pid)).inTransfer = true
  notBusy : ∀ pid request, sys.edu.points (.inl pid) = .locked request → sys.edu.inFlight = false
  cleared : ∀ pid outcome, sys.edu.points (.inl pid) = .unlocking outcome →
    sys.edu.inFlight = false
  returned : ∀ pid outcome, sys.edu.points (.inl pid) = .returned outcome →
    sys.edu.xferLock ≠ some (.inl pid) ∧ sys.isrLock ≠ some (.caller pid) ∧
      (sys.edu.inFlight = true → ∃ other, other ≠ pid ∧ sys.edu.xferLock = some (.inl other))
  starts : ∀ pid request, sys.edu.points (.inl pid) = .locking request →
    sys.edu.xferLock = none → sys.isrLock = none →
    ∃ next, StepMachine.run (inFlightStep interruptsEnabled) sys
        (List.replicate 3 (.proceed pid false false)) = some next ∧
      next.edu.points (.inl pid) = .choosing request
  xferLock_inside : ∀ pid, sys.edu.xferLock = some (.inl pid) →
    (sys.edu.points (.inl pid)).holdsLock = true
  xferLock_recovery : ∀ aer, sys.edu.xferLock = some (.inr aer) →
    (sys.recovery aer).holdsLock = true
  isrLock_inside : ∀ pid, sys.isrLock = some (.caller pid) →
    (sys.edu.points (.inl pid)).holdsLock = true

/-! The first steps of a transfer. -/

section Steps

variable {sys : InFlightSys Pid Aer} {pid : Pid} (interruptsEnabled : Bool)

theorem proceed_takesMutex {request : DmaRequest}
    (here : sys.edu.points (.inl pid) = .locking request) (free : sys.edu.xferLock = none)
    (outside : sys.isrLock ≠ some (.caller pid)) :
    ∃ next, inFlightStep interruptsEnabled sys (.proceed pid false false) = some next ∧
      next.edu.points (.inl pid) = .locked request ∧ next.edu.inFlight = sys.edu.inFlight ∧
      next.isrLock = sys.isrLock := by
  refine ⟨{ sys with
    edu := ({ sys.edu with xferLock := some (Sum.inl pid) }.setPoint (.inl pid)
      (.locked request)) }, ?_, Function.update_self .., rfl, rfl⟩
  simp [inFlightStep, InFlightSys.underIsrLock, InFlightSys.lift, eduStep, eduDmaProceed, here,
    free, outside, Point.isCritical]

theorem proceed_takesIsrLock (critical : (sys.edu.points (.inl pid)).isCritical = true)
    (free : sys.isrLock = none) :
    inFlightStep interruptsEnabled sys (.proceed pid false false) =
      some { sys with isrLock := some (.caller pid) } := by
  simp [inFlightStep, InFlightSys.underIsrLock, critical, free]

theorem proceed_setsInFlight {request : DmaRequest} (held : sys.isrLock = some (.caller pid))
    (here : sys.edu.points (.inl pid) = .locked request) (clear : sys.edu.inFlight = false) :
    ∃ next, inFlightStep interruptsEnabled sys (.proceed pid false false) = some next ∧
      next.edu.points (.inl pid) = .choosing request := by
  refine ⟨{ sys with
    edu := ({ sys.edu with inFlight := true, done := [] }.setPoint (.inl pid)
      (.choosing request)) }, ?_, Function.update_self ..⟩
  simp [inFlightStep, InFlightSys.underIsrLock, InFlightSys.lift, eduStep, eduDmaProceed, here,
    held, clear, Point.isCritical]

end Steps

/-! Who holds the locks. -/

structure LockInvariant (sys : InFlightSys Pid Aer) : Prop where
  owner : ∀ pid, (sys.edu.points (.inl pid)).holdsLock = true ↔ sys.edu.xferLock = some (.inl pid)
  recovering : ∀ aer, (sys.recovery aer).holdsLock = true ↔ sys.edu.xferLock = some (.inr aer)
  flight : sys.edu.inFlight = true → ∃ pid, (sys.edu.points (.inl pid)).inTransfer = true
  isrLock : ∀ pid, sys.isrLock = some (.caller pid) →
    (sys.edu.points (.inl pid)).holdsLock = true

theorem Point.holdsLock_of_inTransfer {point : Point} (transfer : point.inTransfer = true) :
    point.holdsLock = true := by
  cases point <;> first | rfl | simp [Point.inTransfer] at transfer

theorem Point.unlocked_of_isFree {point : Point} (free : point.isFree = true) :
    point.holdsLock = false := by
  cases point <;> first | rfl | simp [Point.isFree] at free

namespace LockInvariant

variable {sys : InFlightSys Pid Aer}

omit [DecidableEq Pid] [DecidableEq Aer] in
theorem inFlight_of_holder (inv : LockInvariant sys) {pid : Pid}
    (holds : (sys.edu.points (.inl pid)).holdsLock = true)
    (inFlight : sys.edu.inFlight = true) : (sys.edu.points (.inl pid)).inTransfer = true := by
  obtain ⟨other, transfer⟩ := inv.flight inFlight
  have owner := (inv.owner pid).mp holds
  have otherOwner := (inv.owner other).mp (Point.holdsLock_of_inTransfer transfer)
  rw [owner, Option.some.injEq, Sum.inl.injEq] at otherOwner
  exact otherOwner ▸ transfer

omit [DecidableEq Pid] [DecidableEq Aer] in
theorem unlocked_inFlight (inv : LockInvariant sys) (free : sys.edu.xferLock = none) :
    sys.edu.inFlight = false := by
  by_contra inFlight
  obtain ⟨pid, transfer⟩ := inv.flight (Bool.not_eq_false _ ▸ inFlight)
  have owner := (inv.owner pid).mp (Point.holdsLock_of_inTransfer transfer)
  rw [free] at owner
  contradiction

theorem starts (inv : LockInvariant sys) (interruptsEnabled : Bool) {pid : Pid}
    {request : DmaRequest} (here : sys.edu.points (.inl pid) = .locking request)
    (xferFree : sys.edu.xferLock = none) (isrFree : sys.isrLock = none) :
    ∃ next, StepMachine.run (inFlightStep interruptsEnabled) sys
        (List.replicate 3 (.proceed pid false false)) = some next ∧
      next.edu.points (.inl pid) = .choosing request := by
  obtain ⟨locked, takesMutex, atLocked, sameFlight, sameIsr⟩ :=
    proceed_takesMutex interruptsEnabled here xferFree (by rw [isrFree]; simp)
  have takesSpin : inFlightStep interruptsEnabled locked (.proceed pid false false) =
      some { locked with isrLock := some (.caller pid) } :=
    proceed_takesIsrLock interruptsEnabled (by rw [atLocked]; rfl) (sameIsr.trans isrFree)
  have clear : locked.edu.inFlight = false := sameFlight.trans (inv.unlocked_inFlight xferFree)
  let held : InFlightSys Pid Aer := { locked with isrLock := some (.caller pid) }
  have heldAt : held.edu.points (.inl pid) = .locked request := atLocked
  obtain ⟨next, sets, atChoosing⟩ := proceed_setsInFlight interruptsEnabled rfl heldAt clear
  exact ⟨next, StepMachine.run_cons_some takesMutex (StepMachine.run_cons_some takesSpin
    (StepMachine.run_cons_some sets (StepMachine.run_nil _))), atChoosing⟩

theorem transfersSafe (inv : LockInvariant sys) (interruptsEnabled : Bool) :
    TransfersSafe interruptsEnabled sys where
  inFlight_held := by
    intro inFlight
    obtain ⟨pid, transfer⟩ := inv.flight inFlight
    exact ⟨pid, (inv.owner pid).mp (Point.holdsLock_of_inTransfer transfer), transfer⟩
  notBusy := by
    intro pid request here
    by_contra inFlight
    have transfer := inv.inFlight_of_holder (by rw [here]; rfl) (Bool.not_eq_false _ ▸ inFlight)
    rw [here] at transfer
    contradiction
  cleared := by
    intro pid outcome here
    by_contra inFlight
    have transfer := inv.inFlight_of_holder (by rw [here]; rfl) (Bool.not_eq_false _ ▸ inFlight)
    rw [here] at transfer
    contradiction
  returned := by
    intro pid outcome here
    have outside : ¬(sys.edu.points (.inl pid)).holdsLock = true := by
      rw [here]
      simp [Point.holdsLock]
    refine ⟨mt (inv.owner pid).mpr outside, mt (inv.isrLock pid) outside, ?_⟩
    intro inFlight
    obtain ⟨other, transfer⟩ := inv.flight inFlight
    have holds := Point.holdsLock_of_inTransfer transfer
    refine ⟨other, ?_, (inv.owner other).mp holds⟩
    rintro rfl
    exact outside holds
  starts := fun _ _ here xferFree isrFree => inv.starts interruptsEnabled here xferFree isrFree
  xferLock_inside := fun pid => (inv.owner pid).mpr
  xferLock_recovery := fun aer => (inv.recovering aer).mpr
  isrLock_inside := inv.isrLock

end LockInvariant

omit [DecidableEq Pid] [DecidableEq Aer] in
theorem lockInvariant_loaded (memory : Memory) :
    LockInvariant (InFlightSys.loaded Pid Aer memory) where
  owner := fun pid => by simp [InFlightSys.loaded, EduSys.loaded, Point.holdsLock]
  recovering := fun aer => by simp [InFlightSys.loaded, EduSys.loaded, RecoveryPoint.holdsLock]
  flight := by simp [InFlightSys.loaded, EduSys.loaded]
  isrLock := by simp [InFlightSys.loaded]

/-! What the steps keep. -/

namespace LockInvariant

variable {sys : InFlightSys Pid Aer} {base : EduSys (Pid ⊕ Aer)}

omit [DecidableEq Pid] [DecidableEq Aer] in
theorem kept (inv : LockInvariant sys) (points : base.points = sys.edu.points)
    (lock : base.xferLock = sys.edu.xferLock)
    (flight : base.inFlight = true → sys.edu.inFlight = true) :
    LockInvariant { sys with edu := base } where
  owner := fun pid => by
    simp only [points, lock]
    exact inv.owner pid
  recovering := fun aer => by
    simp only [lock]
    exact inv.recovering aer
  flight := fun inFlight => by
    simp only [points]
    exact inv.flight (flight inFlight)
  isrLock := fun pid owner => by
    simp only [points]
    exact inv.isrLock pid owner

theorem moved (inv : LockInvariant sys) {party : Pid ⊕ Aer} {point : Point}
    (points : base.points = sys.edu.points) (lock : base.xferLock = sys.edu.xferLock)
    (holds : point.holdsLock = (sys.edu.points party).holdsLock)
    (flight : base.inFlight = true →
      sys.edu.inFlight = true ∧
          ((sys.edu.points party).inTransfer = true → point.inTransfer = true) ∨
        point.inTransfer = true ∧ ∃ pid, party = .inl pid) :
    LockInvariant { sys with edu := base.setPoint party point } := by
  have held (pid : Pid) : (Function.update base.points party point (.inl pid)).holdsLock =
      (sys.edu.points (.inl pid)).holdsLock := by
    by_cases same : .inl pid = party
    · rw [same, Function.update_self, holds]
    · rw [Function.update_of_ne same, points]
  refine ⟨?_, ?_, ?_, ?_⟩
  · intro pid
    simp only [EduSys.setPoint, held, lock]
    exact inv.owner pid
  · intro aer
    simp only [EduSys.setPoint, lock]
    exact inv.recovering aer
  · intro inFlight
    simp only [EduSys.setPoint] at inFlight ⊢
    rcases flight inFlight with ⟨before, kept⟩ | ⟨transfer, pid, same⟩
    · obtain ⟨pid, transfer⟩ := inv.flight before
      refine ⟨pid, ?_⟩
      by_cases same : .inl pid = party
      · rw [same, Function.update_self]
        exact kept (same ▸ transfer)
      · rw [Function.update_of_ne same, points]
        exact transfer
    · exact ⟨pid, by rw [same, Function.update_self, transfer]⟩
  · intro pid owner
    simp only [EduSys.setPoint, held]
    exact inv.isrLock pid owner

theorem locks (inv : LockInvariant sys) {pid : Pid} {point : Point}
    (free : sys.edu.xferLock = none) (holds : point.holdsLock = true) :
    LockInvariant { sys with
      edu := ({ sys.edu with xferLock := some (Sum.inl pid) }.setPoint (.inl pid) point) } := by
  have clear := inv.unlocked_inFlight free
  refine ⟨?_, ?_, ?_, ?_⟩
  · intro other
    simp only [EduSys.setPoint, Option.some.injEq, Sum.inl.injEq]
    by_cases same : other = pid
    · rw [same, Function.update_self, holds]
      exact iff_of_true rfl rfl
    · rw [Function.update_of_ne (fun equal => same (Sum.inl.inj equal)), inv.owner other, free]
      exact iff_of_false (by simp) (Ne.symm same)
  · intro aer
    simp only [EduSys.setPoint, inv.recovering aer, free, Option.some.injEq]
    exact iff_of_false (by simp) (by simp)
  · intro inFlight
    simp only [EduSys.setPoint, clear] at inFlight
    contradiction
  · intro other owner
    have held := (inv.owner other).mp (inv.isrLock other owner)
    rw [free] at held
    contradiction

theorem unlocks (inv : LockInvariant sys) {pid : Pid} {outcome : Outcome}
    (here : sys.edu.points (.inl pid) = .unlocking outcome)
    (outside : sys.isrLock ≠ some (.caller pid)) :
    LockInvariant { sys with
      edu := ({ sys.edu with xferLock := none }.setPoint (.inl pid) (.returned outcome)) } := by
  have owner := (inv.owner pid).mp (by rw [here]; rfl)
  have clear := (inv.transfersSafe true).cleared pid outcome here
  have others (other : Pid) (different : other ≠ pid) :
      (sys.edu.points (.inl other)).holdsLock = false := by
    by_contra holds
    have otherOwner := (inv.owner other).mp (Bool.not_eq_false _ ▸ holds)
    rw [owner, Option.some.injEq, Sum.inl.injEq] at otherOwner
    exact different otherOwner.symm
  refine ⟨?_, ?_, ?_, ?_⟩
  · intro other
    simp only [EduSys.setPoint]
    refine iff_of_false ?_ (by simp)
    by_cases same : other = pid
    · rw [same, Function.update_self]
      simp [Point.holdsLock]
    · rw [Function.update_of_ne (fun equal => same (Sum.inl.inj equal)), others other same]
      simp
  · intro aer
    simp only [EduSys.setPoint, inv.recovering aer, owner]
    exact iff_of_false (by simp) (by simp)
  · intro inFlight
    simp only [EduSys.setPoint, clear] at inFlight
    contradiction
  · intro other isrOwner
    have different : other ≠ pid := by
      rintro rfl
      exact outside isrOwner
    have holds := inv.isrLock other isrOwner
    rw [others other different] at holds
    contradiction

theorem lifted (inv : LockInvariant sys) {action : EduAction (Pid ⊕ Aer)}
    (caller : ∀ party interrupted expired, action = .proceed party interrupted expired →
      ∃ pid, party = .inl pid ∧
        (sys.isrLock = some (.caller pid) → (sys.edu.points party).isCritical = true))
    (move : EduMove sys.edu action base) : LockInvariant { sys with edu := base } := by
  have same (party : Pid ⊕ Aer) {before after : Point} (here : sys.edu.points party = before)
      (transfer : before.inTransfer = true → after.inTransfer = true) :
      sys.edu.inFlight = true → sys.edu.inFlight = true ∧
          ((sys.edu.points party).inTransfer = true → after.inTransfer = true) ∨
        after.inTransfer = true ∧ ∃ pid, party = .inl pid := by
    intro inFlight
    exact .inl ⟨inFlight, by rwa [here]⟩
  have outside (party : Pid ⊕ Aer) {after : Point}
      (unlocked : (sys.edu.points party).holdsLock = false) :
      sys.edu.inFlight = true → sys.edu.inFlight = true ∧
          ((sys.edu.points party).inTransfer = true → after.inTransfer = true) ∨
        after.inTransfer = true ∧ ∃ pid, party = .inl pid := by
    intro inFlight
    refine .inl ⟨inFlight, fun transfer => ?_⟩
    rw [Point.holdsLock_of_inTransfer transfer] at unlocked
    contradiction
  cases move with
  | enters free =>
      have unlocked := Point.unlocked_of_isFree free
      exact inv.moved rfl rfl (by rw [unlocked]; rfl) (outside _ unlocked)
  | fails unlocked nonzero =>
      exact inv.moved rfl rfl (by rw [unlocked]; rfl) (outside _ unlocked)
  | locks here free =>
      obtain ⟨pid, rfl, _⟩ := caller _ _ _ rfl
      exact inv.locks free rfl
  | busy here inFlight =>
      exact inv.moved rfl rfl (by rw [here]; rfl) (same _ here (by simp [Point.inTransfer]))
  | starts here clear =>
      obtain ⟨pid, rfl, _⟩ := caller _ _ _ rfl
      exact inv.moved rfl rfl (by rw [here]; rfl) fun _ => .inr ⟨rfl, pid, rfl⟩
  | chooses here directed =>
      exact inv.moved rfl rfl (by rw [here]; rfl) (same _ here fun _ => rfl)
  | writes here =>
      exact inv.moved rfl rfl (by rw [here]; rfl) (same _ here fun _ => rfl)
  | commands here goesOn =>
      refine inv.moved rfl rfl ?_ (same _ here fun _ => ?_)
      · rw [here]
        rcases goesOn with rfl | rfl <;> rfl
      · rcases goesOn with rfl | rfl <;> rfl
  | completes here done =>
      exact inv.moved rfl rfl (by rw [here]; rfl) (same _ here fun _ => rfl)
  | pollsDone here stopped =>
      exact inv.moved rfl rfl (by rw [here]; rfl) (same _ here fun _ => rfl)
  | givesUp holds nonzero =>
      exact inv.moved rfl rfl (by rw [holds]; rfl) (same _ rfl fun _ => rfl)
  | ends here =>
      exact inv.moved rfl rfl (by rw [here]; rfl) (by simp)
  | unlocks here =>
      obtain ⟨pid, rfl, critical⟩ := caller _ _ _ rfl
      refine inv.unlocks here ?_
      intro owner
      have inside := critical owner
      rw [here] at inside
      contradiction
  | finishes runs raised => exact inv.kept rfl rfl id
  | raises here => exact inv.kept rfl rfl id
  | reads idle latched => exact inv.kept rfl rfl id
  | acks here => exact inv.kept rfl rfl id
  | signals here inFlight => exact inv.kept rfl rfl id
  | ignores here => exact inv.kept rfl rfl id
  | same => exact inv.kept rfl rfl id

omit [DecidableEq Pid] in
theorem recovers (inv : LockInvariant sys) {aer : Aer} {point : RecoveryPoint}
    (points : base.points = sys.edu.points) (lock : base.xferLock = sys.edu.xferLock)
    (flight : base.inFlight = true → sys.edu.inFlight = true)
    (holds : point.holdsLock = (sys.recovery aer).holdsLock) :
    LockInvariant ({ sys with edu := base }.setRecovery aer point) := by
  have kept := inv.kept points lock flight
  refine ⟨kept.owner, ?_, kept.flight, kept.isrLock⟩
  intro other
  have before := kept.recovering other
  simp only [InFlightSys.setRecovery]
  by_cases same : other = aer
  · rw [same, Function.update_self, holds, ← same]
    exact before
  · rw [Function.update_of_ne same]
    exact before

omit [DecidableEq Pid] in
theorem recovery_locks (inv : LockInvariant sys) {aer : Aer} {point : RecoveryPoint}
    (free : sys.edu.xferLock = none) (holds : point.holdsLock = true) :
    LockInvariant ({ sys with
      edu := { sys.edu with xferLock := some (Sum.inr aer) } }.setRecovery aer point) := by
  have clear := inv.unlocked_inFlight free
  refine ⟨?_, ?_, ?_, inv.isrLock⟩
  · intro pid
    refine iff_of_false ?_ (by simp [InFlightSys.setRecovery])
    intro held
    have owner := (inv.owner pid).mp held
    rw [free] at owner
    contradiction
  · intro other
    simp only [InFlightSys.setRecovery, Option.some.injEq, Sum.inr.injEq]
    by_cases same : other = aer
    · rw [same, Function.update_self, holds]
      exact iff_of_true rfl rfl
    · rw [Function.update_of_ne same, inv.recovering other, free]
      exact iff_of_false (by simp) (Ne.symm same)
  · intro inFlight
    simp only [InFlightSys.setRecovery, clear] at inFlight
    contradiction

omit [DecidableEq Pid] in
theorem recovery_unlocks (inv : LockInvariant sys) {aer : Aer} {point : RecoveryPoint}
    (held : (sys.recovery aer).holdsLock = true) (leaves : point.holdsLock = false) :
    LockInvariant ({ sys with
      edu := { sys.edu with xferLock := none } }.setRecovery aer point) := by
  have owner := (inv.recovering aer).mp held
  have outside (pid : Pid) : (sys.edu.points (.inl pid)).holdsLock ≠ true := by
    rw [ne_eq, inv.owner pid, owner]
    simp
  refine ⟨?_, ?_, ?_, inv.isrLock⟩
  · intro pid
    exact iff_of_false (outside pid) (by simp [InFlightSys.setRecovery])
  · intro other
    simp only [InFlightSys.setRecovery]
    refine iff_of_false ?_ (by simp)
    by_cases same : other = aer
    · rw [same, Function.update_self, leaves]
      simp
    · rw [Function.update_of_ne same, inv.recovering other, owner]
      simp only [Option.some.injEq, Sum.inr.injEq]
      exact Ne.symm same
  · intro inFlight
    obtain ⟨pid, transfer⟩ := inv.flight inFlight
    exact absurd (Point.holdsLock_of_inTransfer transfer) (outside pid)

end LockInvariant

theorem lift_invariant {interruptsEnabled : Bool} {sys next : InFlightSys Pid Aer}
    {action : EduAction (Pid ⊕ Aer)} (inv : LockInvariant sys)
    (caller : ∀ party interrupted expired, action = .proceed party interrupted expired →
      ∃ pid, party = .inl pid ∧
        (sys.isrLock = some (.caller pid) → (sys.edu.points party).isCritical = true))
    (taken : sys.lift interruptsEnabled action = some next) : LockInvariant next := by
  obtain ⟨edu, stepped, built⟩ := Option.map_eq_some_iff.mp taken
  exact built ▸ inv.lifted caller (eduStep_move stepped)

omit [DecidableEq Aer] in
theorem underIsrLock_invariant {sys next : InFlightSys Pid Aer} {owner : IsrOwner Pid}
    {isCritical : Bool} {body : Option (InFlightSys Pid Aer)} (inv : LockInvariant sys)
    (inside : isCritical = true → ∀ pid, owner = .caller pid →
      (sys.edu.points (.inl pid)).holdsLock = true)
    (safe : (sys.isrLock = some owner → isCritical = true) → body = some next →
      LockInvariant next)
    (taken : sys.underIsrLock owner isCritical body = some next) : LockInvariant next := by
  simp only [InFlightSys.underIsrLock] at taken
  split at taken
  · split at taken
    · rename_i critical
      exact safe (fun _ => critical) taken
    · cases taken
      exact ⟨inv.owner, inv.recovering, inv.flight, fun pid => by simp⟩
  · rename_i unheld
    split at taken
    · rename_i critical
      split at taken
      · cases taken
        refine ⟨inv.owner, inv.recovering, inv.flight, ?_⟩
        intro pid same
        exact inside critical pid (Option.some.inj same)
      · contradiction
    · exact safe (fun held => absurd held unheld) taken

theorem lockInvariant_step {interruptsEnabled : Bool} {sys next : InFlightSys Pid Aer}
    {action : InFlightAction Pid Aer} (inv : LockInvariant sys)
    (taken : inFlightStep interruptsEnabled sys action = some next) : LockInvariant next := by
  cases action with
  | call pid request => exact lift_invariant inv (by simp) taken
  | finish dma => exact lift_invariant inv (by simp) taken
  | raise dma => exact lift_invariant inv (by simp) taken
  | proceed pid interrupted expired =>
      refine underIsrLock_invariant inv ?_ ?_ taken
      · rintro critical other ⟨⟩
        cases here : sys.edu.points (.inl pid) <;>
          first | rfl | simp [here, Point.isCritical] at critical
      · intro critical body
        refine lift_invariant inv ?_ body
        rintro party _ _ ⟨⟩
        exact ⟨pid, rfl, critical⟩
  | irq resumed =>
      refine underIsrLock_invariant inv (by simp) ?_ taken
      intro _ body
      exact lift_invariant inv (by simp) body
  | errorDetected aer state =>
      simp only [inFlightStep] at taken
      split at taken
      · contradiction
      · rename_i outside
        have unlocked : (sys.recovery aer).holdsLock = false := by
          by_contra holds
          exact outside (.inl (Bool.not_eq_false _ ▸ holds))
        split at taken
        all_goals
          cases taken
          exact inv.recovers rfl rfl id (by rw [unlocked]; rfl)
  | recover aer =>
      simp only [inFlightStep] at taken
      cases here : sys.recovery aer with
      | idle => simp [here, eduErrorProceed] at taken
      | returned answer => simp [here, eduErrorProceed] at taken
      | locking =>
          simp only [here, eduErrorProceed] at taken
          split at taken
          · rename_i free
            cases taken
            exact inv.recovery_locks free rfl
          · contradiction
      | reading =>
          simp only [here, eduErrorProceed, Option.some.injEq] at taken
          exact taken ▸ inv.recovers rfl rfl id (by rw [here]; rfl)
      | acking status =>
          simp only [here, eduErrorProceed] at taken
          split at taken
          all_goals
            cases taken
            exact inv.recovers rfl rfl id (by rw [here]; rfl)
      | clearing =>
          simp only [here, eduErrorProceed, Option.some.injEq] at taken
          exact taken ▸ inv.recovers rfl rfl (by simp) (by rw [here]; rfl)
      | unlocking =>
          simp only [here, eduErrorProceed, Option.some.injEq] at taken
          exact taken ▸ inv.recovery_unlocks (by rw [here]; rfl) rfl

theorem transfers_safe (interruptsEnabled : Bool) (memory : Memory)
    (actions : List (InFlightAction Pid Aer)) :
    StepMachine.Always (inFlightStep interruptsEnabled) (TransfersSafe interruptsEnabled)
      (.loaded Pid Aer memory) actions :=
  StepMachine.always_of_meets (fun _ _ _ inv _ taken => lockInvariant_step inv taken)
    (fun _ inv => inv.transfersSafe interruptsEnabled) (lockInvariant_loaded memory)
    (StepMachine.meets_true _ actions)

end Machine

end Ldd3.Edu
