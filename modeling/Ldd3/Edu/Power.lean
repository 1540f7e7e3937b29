import Mathlib.Tactic
import Ldd3.Lib.StepMachine
import Ldd3.Lib.Token
import Ldd3.Lib.Users

/-!
Runtime power management of the EDU driver: the usage count that `edu_read`, `edu_write`,
`edu_ioctl` and `edu_irq_threaded` hold around their register accesses, against
`edu_pm_suspend` and `edu_pm_resume`, which the PM core calls.
-/

namespace Ldd3.Edu

/-- Where `edu_pm_suspend` is, called as the runtime suspend callback. -/
inductive SuspendPoint
  | wantLock
  | readStatus
  | ack
  | unlock
  | returning
  deriving DecidableEq, Repr

def SuspendPoint.locked : SuspendPoint → Bool
  | .readStatus | .ack | .unlock => true
  | .wantLock | .returning => false

inductive RpmStatus
  | active
  | suspending (point : SuspendPoint)
  | suspended
  | resuming
  deriving DecidableEq, Repr

def RpmStatus.pmLocked : RpmStatus → Bool
  | .suspending point => point.locked
  | .active | .suspended | .resuming => false

/-- A process that uses the device: in `pm_runtime_resume_and_get` (from `poweringUp` to `resumed`
it runs the resume itself, with the statements of `edu_pm_resume`), between the get and the put,
and in `edu_dma_transfers` under `xfer_lock`. -/
inductive PowerPoint
  | outside
  | getting
  | poweringUp
  | resumeRead
  | resumeAck
  | resumed
  | holding
  | programming
  | waiting
  | unlocking
  deriving DecidableEq, Repr

def PowerPoint.counted : PowerPoint → Bool
  | .outside => false
  | .getting | .poweringUp | .resumeRead | .resumeAck | .resumed | .holding | .programming
  | .waiting | .unlocking => true

def PowerPoint.powered : PowerPoint → Bool
  | .holding | .programming | .waiting | .unlocking => true
  | .outside | .getting | .poweringUp | .resumeRead | .resumeAck | .resumed => false

def PowerPoint.locked : PowerPoint → Bool
  | .programming | .waiting | .unlocking => true
  | .outside | .getting | .poweringUp | .resumeRead | .resumeAck | .resumed | .holding => false

def PowerPoint.resumes : PowerPoint → Bool
  | .poweringUp | .resumeRead | .resumeAck | .resumed => true
  | .outside | .getting | .holding | .programming | .waiting | .unlocking => false

def PowerPoint.poweredUp : PowerPoint → Bool
  | .resumeRead | .resumeAck | .resumed => true
  | .outside | .getting | .poweringUp | .holding | .programming | .waiting | .unlocking => false

inductive XferOwner (Pid : Type)
  | process (pid : Pid)
  | pmCore
  deriving DecidableEq, Repr

inductive Accessor (Pid : Type)
  | caller (pid : Pid)
  | pmSuspend
  | pmResume (pid : Pid)
  deriving DecidableEq, Repr

structure RegAccess (Pid : Type) where
  accessor : Accessor Pid
  power : Bool
  status : RpmStatus
  owner : Option (XferOwner Pid)
  deriving DecidableEq, Repr

structure PowerSys (Pid : Type) where
  status : RpmStatus
  power : Bool
  usage : Int
  xferLock : Option (XferOwner Pid)
  points : Pid → PowerPoint
  accesses : List (RegAccess Pid)

/-- After `edu_probe`, which has dropped the count that the PCI core held. -/
def PowerSys.probed (Pid : Type) : PowerSys Pid :=
  { status := .active, power := true, usage := 0, xferLock := none, points := fun _ => .outside,
    accesses := [] }

inductive PowerAction (Pid : Type)
  | get (pid : Pid)
  | proceed (pid : Pid) (ok : Bool)
  | access (pid : Pid)
  | lock (pid : Pid)
  | put (pid : Pid)
  | autosuspend
  | pmSuspend (sticky : Bool)
  deriving DecidableEq, Repr

section Machine

variable {Pid : Type} [DecidableEq Pid]

def PowerSys.setPoint (sys : PowerSys Pid) (pid : Pid) (point : PowerPoint) : PowerSys Pid :=
  { sys with points := Function.update sys.points pid point }

def PowerSys.touch (sys : PowerSys Pid) (accessor : Accessor Pid) : PowerSys Pid :=
  { sys with accesses := ⟨accessor, sys.power, sys.status, sys.xferLock⟩ :: sys.accesses }

/-- `ok` is whether the device powers up, `IRQ_STATUS` is not zero, the registers accept the
request, or the DMA finishes in time. -/
def powerProceed (sys : PowerSys Pid) (pid : Pid) (ok : Bool) :
    PowerPoint → Option (PowerSys Pid)
  | .outside => none
  | .getting =>
      match sys.status with
      | .active => some (sys.setPoint pid .holding)
      | .suspended => some ({ sys with status := .resuming }.setPoint pid .poweringUp)
      | .suspending _ | .resuming => none
  | .poweringUp =>
      if ok then some ({ sys with power := true }.setPoint pid .resumeRead)
      else some ({ sys with status := .suspended, usage := sys.usage - 1 }.setPoint pid .outside)
  | .resumeRead =>
      some ((sys.touch (.pmResume pid)).setPoint pid (if ok then .resumeAck else .resumed))
  | .resumeAck => some ((sys.touch (.pmResume pid)).setPoint pid .resumed)
  | .resumed => some ({ sys with status := .active }.setPoint pid .holding)
  | .holding => none
  | .programming =>
      if ok then some ((sys.touch (.caller pid)).setPoint pid .waiting)
      else some (sys.setPoint pid .unlocking)
  | .waiting => some (sys.setPoint pid .unlocking)
  | .unlocking => some ({ sys with xferLock := none }.setPoint pid .holding)

/-- The bus takes the power off the device when `edu_pm_suspend` has returned. -/
def suspendProceed (sys : PowerSys Pid) (sticky : Bool) : SuspendPoint → Option (PowerSys Pid)
  | .wantLock =>
      if sys.xferLock = none then
        some { sys with status := .suspending .readStatus, xferLock := some .pmCore }
      else none
  | .readStatus =>
      some { sys.touch .pmSuspend with status := .suspending (if sticky then .ack else .unlock) }
  | .ack => some { sys.touch .pmSuspend with status := .suspending .unlock }
  | .unlock => some { sys with status := .suspending .returning, xferLock := none }
  | .returning => some { sys with status := .suspended, power := false }

def powerStep (sys : PowerSys Pid) : PowerAction Pid → Option (PowerSys Pid)
  | .get pid =>
      if sys.points pid = .outside then
        some ({ sys with usage := sys.usage + 1 }.setPoint pid .getting)
      else none
  | .proceed pid ok => powerProceed sys pid ok (sys.points pid)
  | .access pid =>
      if (sys.points pid).powered then some (sys.touch (.caller pid)) else none
  | .lock pid =>
      if sys.points pid = .holding ∧ sys.xferLock = none then
        some ({ sys with xferLock := some (.process pid) }.setPoint pid .programming)
      else none
  | .put pid =>
      if sys.points pid = .holding then
        some ({ sys with usage := sys.usage - 1 }.setPoint pid .outside)
      else none
  | .autosuspend =>
      if sys.status = .active ∧ sys.usage = 0 then
        some { sys with status := .suspending .wantLock }
      else none
  | .pmSuspend sticky =>
      match sys.status with
      | .suspending point => suspendProceed sys sticky point
      | .active | .suspended | .resuming => none

end Machine

/-- What an access is allowed in: a call's while the device is active, `edu_pm_suspend`'s under
`xfer_lock` and `edu_pm_resume`'s while the device resumes, all with the power on. -/
structure RegAccess.InOrder {Pid : Type} (access : RegAccess Pid) : Prop where
  power : access.power = true
  caller : ∀ pid, access.accessor = .caller pid → access.status = .active
  suspend : access.accessor = .pmSuspend → access.owner = some .pmCore
  resume : ∀ pid, access.accessor = .pmResume pid → access.status = .resuming

section Invariant

variable {Pid : Type} [Fintype Pid] {sys next : PowerSys Pid} {action : PowerAction Pid}

def PowerSys.lockHolder (sys : PowerSys Pid) : Option Pid :=
  match sys.xferLock with
  | some (.process pid) => some pid
  | some .pmCore => none
  | none => none

structure PowerInvariant (sys : PowerSys Pid) : Prop where
  usage : Users.Counted PowerPoint.counted sys.usage sys.points
  powered : ∀ pid, (sys.points pid).powered = true → sys.status = .active
  resuming : ∃ resumer, Token.HeldBy PowerPoint.resumes sys.points resumer ∧
    (sys.status = .resuming ↔ resumer ≠ none)
  locked : Token.HeldBy PowerPoint.locked sys.points sys.lockHolder
  pmLocked : sys.xferLock = some .pmCore ↔ sys.status.pmLocked = true
  poweredUp : ∀ pid, (sys.points pid).poweredUp = true → sys.power = true
  on : sys.status ≠ .suspended → sys.status ≠ .resuming → sys.power = true
  accesses : ∀ access ∈ sys.accesses, access.InOrder

theorem PowerPoint.counted_of_powered {point : PowerPoint} (powered : point.powered = true) :
    point.counted = true := by
  cases point with
  | outside | getting | poweringUp | resumeRead | resumeAck | resumed => contradiction
  | holding | programming | waiting | unlocking => rfl

theorem PowerPoint.not_resumes_of_powered {point : PowerPoint} (powered : point.powered = true) :
    point.resumes = false := by
  cases point with
  | outside | getting | poweringUp | resumeRead | resumeAck | resumed => contradiction
  | holding | programming | waiting | unlocking => rfl

theorem PowerPoint.powered_of_locked {point : PowerPoint} (locked : point.locked = true) :
    point.powered = true := by
  cases point with
  | programming | waiting | unlocking => rfl
  | _ => contradiction

theorem PowerPoint.resumes_of_poweredUp {point : PowerPoint} (up : point.poweredUp = true) :
    point.resumes = true := by
  cases point with
  | resumeRead | resumeAck | resumed => rfl
  | _ => contradiction

theorem PowerPoint.of_resumes {point : PowerPoint} (resumes : point.resumes = true) :
    point.counted = true ∧ point.locked = false ∧ point.powered = false := by
  cases point with
  | poweringUp | resumeRead | resumeAck | resumed => exact ⟨rfl, rfl, rfl⟩
  | _ => contradiction

theorem PowerInvariant.touch (invariant : PowerInvariant sys) {accessor : Accessor Pid}
    (order : RegAccess.InOrder ⟨accessor, sys.power, sys.status, sys.xferLock⟩) :
    PowerInvariant (sys.touch accessor) where
  usage := invariant.usage
  powered := invariant.powered
  resuming := invariant.resuming
  locked := invariant.locked
  pmLocked := invariant.pmLocked
  poweredUp := invariant.poweredUp
  on := invariant.on
  accesses := List.forall_mem_cons.mpr ⟨order, invariant.accesses⟩

theorem PowerInvariant.inOrder_caller (invariant : PowerInvariant sys) {pid : Pid}
    (powered : (sys.points pid).powered = true) :
    RegAccess.InOrder ⟨.caller pid, sys.power, sys.status, sys.xferLock⟩ := by
  have active := invariant.powered pid powered
  refine ⟨invariant.on ?_ ?_, fun _ _ => active, by simp, by simp⟩
  · simp [active]
  · simp [active]

theorem PowerInvariant.not_pmLocked (invariant : PowerInvariant sys)
    (elsewhere : sys.status.pmLocked = false) : sys.xferLock ≠ some .pmCore := by
  intro locked
  rw [invariant.pmLocked.mp locked] at elsewhere
  contradiction

theorem PowerInvariant.resumer (invariant : PowerInvariant sys) {pid : Pid}
    (here : (sys.points pid).resumes = true) :
    sys.status = .resuming ∧ Token.HeldBy PowerPoint.resumes sys.points (some pid) := by
  obtain ⟨resumer, held, status⟩ := invariant.resuming
  have holds : resumer = some pid := (held pid).mp here
  subst holds
  exact ⟨status.mpr (Option.some_ne_none pid), held⟩

theorem PowerInvariant.inOrder_resume (invariant : PowerInvariant sys) {pid : Pid}
    (up : (sys.points pid).poweredUp = true) :
    RegAccess.InOrder ⟨.pmResume pid, sys.power, sys.status, sys.xferLock⟩ := by
  have resuming := (invariant.resumer (PowerPoint.resumes_of_poweredUp up)).1
  exact ⟨invariant.poweredUp pid up, by simp, by simp, fun _ _ => resuming⟩

theorem PowerInvariant.suspending (invariant : PowerInvariant sys) {point : SuspendPoint}
    (status : sys.status = .suspending point) :
    (∀ pid, (sys.points pid).powered = false) ∧
      Token.HeldBy PowerPoint.resumes sys.points none := by
  constructor
  · intro pid
    cases powered : (sys.points pid).powered with
    | false => rfl
    | true =>
        rw [invariant.powered pid powered] at status
        contradiction
  · obtain ⟨resumer, held, resuming⟩ := invariant.resuming
    cases resumer with
    | none => exact held
    | some pid =>
        rw [resuming.mpr (Option.some_ne_none pid)] at status
        contradiction

variable [DecidableEq Pid]

theorem PowerInvariant.move (invariant : PowerInvariant sys) {pid : Pid} {point : PowerPoint}
    {usage : Int}
    (counted : Users.Counted PowerPoint.counted usage (Function.update sys.points pid point))
    (powered : point.powered = true → sys.status = .active)
    (resumes : point.resumes = (sys.points pid).resumes)
    (locked : point.locked = (sys.points pid).locked)
    (up : point.poweredUp = true → sys.power = true) :
    PowerInvariant ({ sys with usage := usage }.setPoint pid point) where
  usage := counted
  powered := (Function.forall_update_iff sys.points fun _ point =>
    point.powered = true → sys.status = .active).mpr ⟨powered, fun other _ =>
      invariant.powered other⟩
  resuming := by
    obtain ⟨resumer, held, status⟩ := invariant.resuming
    exact ⟨resumer, held.move resumes, status⟩
  locked := invariant.locked.move locked
  pmLocked := invariant.pmLocked
  poweredUp := (Function.forall_update_iff sys.points fun _ point =>
    point.poweredUp = true → sys.power = true).mpr ⟨up, fun other _ => invariant.poweredUp other⟩
  on := invariant.on
  accesses := invariant.accesses

/-- A process begins a resume or ends its own. -/
theorem PowerInvariant.handOver (invariant : PowerInvariant sys) {pid : Pid} {point : PowerPoint}
    {status : RpmStatus} {usage : Int} {resumer : Option Pid}
    (counted : Users.Counted PowerPoint.counted usage (Function.update sys.points pid point))
    (inactive : sys.status ≠ .active) (unlocked : sys.status.pmLocked = false)
    (held : Token.HeldBy PowerPoint.resumes (Function.update sys.points pid point) resumer)
    (resuming : status = .resuming ↔ resumer ≠ none)
    (locked : point.locked = (sys.points pid).locked)
    (notUp : point.poweredUp = false) (powered : point.powered = true → status = .active)
    (released : status.pmLocked = false)
    (on : status ≠ .suspended → status ≠ .resuming → sys.power = true) :
    PowerInvariant ({ sys with status := status, usage := usage }.setPoint pid point) where
  usage := counted
  powered := (Function.forall_update_iff sys.points fun _ point =>
    point.powered = true → status = .active).mpr ⟨powered, fun other _ there =>
      absurd (invariant.powered other there) inactive⟩
  resuming := ⟨resumer, held, resuming⟩
  locked := invariant.locked.move locked
  pmLocked := iff_of_false (invariant.not_pmLocked unlocked) (by
    simp [PowerSys.setPoint, released])
  poweredUp := (Function.forall_update_iff sys.points fun _ point =>
    point.poweredUp = true → sys.power = true).mpr ⟨by simp [notUp], fun other _ =>
      invariant.poweredUp other⟩
  on := on
  accesses := invariant.accesses

theorem PowerInvariant.begins (invariant : PowerInvariant sys) {pid : Pid}
    (here : sys.points pid = .getting) (suspended : sys.status = .suspended) :
    PowerInvariant ({ sys with status := .resuming }.setPoint pid .poweringUp) := by
  obtain ⟨resumer, held, status⟩ := invariant.resuming
  have nobody : resumer = none := by
    by_contra somebody
    rw [status.mpr somebody] at suspended
    contradiction
  subst nobody
  exact invariant.handOver (invariant.usage.move (here ▸ rfl)) (by simp [suspended])
    (by rw [suspended]; rfl) (held.take rfl) (iff_of_true rfl (Option.some_ne_none pid))
    (here ▸ rfl) rfl (by rintro ⟨⟩) rfl (by simp)

theorem PowerInvariant.resumes (invariant : PowerInvariant sys) {pid : Pid} {point : PowerPoint}
    {status : RpmStatus} {usage : Int} (here : (sys.points pid).resumes = true)
    (counted : Users.Counted PowerPoint.counted usage (Function.update sys.points pid point))
    (ends : point.resumes = false) (locked : point.locked = false)
    (notUp : point.poweredUp = false) (powered : point.powered = true → status = .active)
    (released : status.pmLocked = false) (settled : status ≠ .resuming)
    (on : status ≠ .suspended → sys.power = true) :
    PowerInvariant ({ sys with status := status, usage := usage }.setPoint pid point) := by
  obtain ⟨resuming, held⟩ := invariant.resumer here
  obtain ⟨_, unlocked, _⟩ := PowerPoint.of_resumes here
  exact invariant.handOver counted (by simp [resuming]) (by rw [resuming]; rfl) (held.give ends)
    (iff_of_false settled (by simp)) (locked.trans unlocked.symm) notUp powered released
    fun other _ => on other

/-- An access of `edu_pm_resume`, and on to a later one of its points. -/
theorem PowerInvariant.resumesOn (invariant : PowerInvariant sys) {pid : Pid}
    {point : PowerPoint} (up : (sys.points pid).poweredUp = true)
    (after : point.poweredUp = true) :
    PowerInvariant ((sys.touch (.pmResume pid)).setPoint pid point) := by
  have touched := invariant.touch (invariant.inOrder_resume up)
  have before := PowerPoint.resumes_of_poweredUp up
  have later := PowerPoint.resumes_of_poweredUp after
  obtain ⟨counted, unlocked, _⟩ := PowerPoint.of_resumes before
  obtain ⟨laterCounted, laterUnlocked, unpowered⟩ := PowerPoint.of_resumes later
  exact touched.move (invariant.usage.move (laterCounted.trans counted.symm))
    (by simp [unpowered]) (later.trans before.symm) (laterUnlocked.trans unlocked.symm)
    fun _ => invariant.poweredUp pid up

/-- Inside a powered section `xfer_lock` goes to a process or is given up. -/
theorem PowerInvariant.relocks (invariant : PowerInvariant sys) {pid : Pid} {point : PowerPoint}
    {holder : Option Pid} (here : (sys.points pid).powered = true) (powered : point.powered = true)
    (locked : Token.HeldBy PowerPoint.locked (Function.update sys.points pid point) holder) :
    PowerInvariant ({ sys with xferLock := holder.map .process }.setPoint pid point) := by
  have active := invariant.powered pid here
  have on := invariant.on (by simp [active]) (by simp [active])
  obtain ⟨resumer, held, status⟩ := invariant.resuming
  have counted := (PowerPoint.counted_of_powered powered).trans
    (PowerPoint.counted_of_powered here).symm
  have resumes := (PowerPoint.not_resumes_of_powered powered).trans
    (PowerPoint.not_resumes_of_powered here).symm
  refine ⟨invariant.usage.move counted, fun _ _ => active, ⟨resumer, held.move resumes, status⟩,
    ?_, ?_, fun _ _ => on, fun _ _ => on, invariant.accesses⟩
  · cases holder with
    | none => exact locked
    | some pid => exact locked
  · refine iff_of_false ?_ (by simp [PowerSys.setPoint, active, RpmStatus.pmLocked])
    cases holder with
    | none => exact Option.some_ne_none _ |>.symm
    | some pid => simp [PowerSys.setPoint]

theorem PowerInvariant.moveOn (invariant : PowerInvariant sys) {pid : Pid} {point : PowerPoint}
    (active : sys.status = .active) (counted : point.counted = (sys.points pid).counted)
    (resumes : point.resumes = (sys.points pid).resumes)
    (locked : point.locked = (sys.points pid).locked) :
    PowerInvariant (sys.setPoint pid point) :=
  invariant.move (invariant.usage.move counted) (fun _ => active) resumes locked
    fun _ => invariant.on (by simp [active]) (by simp [active])

theorem PowerInvariant.proceeds (invariant : PowerInvariant sys) {pid : Pid} {ok : Bool}
    (taken : powerProceed sys pid ok (sys.points pid) = some next) : PowerInvariant next := by
  cases here : sys.points pid with
  | outside | holding =>
      rw [here] at taken
      contradiction
  | getting =>
      rw [here, powerProceed] at taken
      split at taken
      · rename_i active
        rw [Option.some.injEq] at taken
        subst taken
        exact invariant.moveOn active (here ▸ rfl) (here ▸ rfl) (here ▸ rfl)
      · rename_i suspended
        rw [Option.some.injEq] at taken
        subst taken
        exact invariant.begins here suspended
      · contradiction
      · contradiction
  | poweringUp =>
      rw [here, powerProceed] at taken
      split at taken
      all_goals
        rw [Option.some.injEq] at taken
        subst taken
      · have up : PowerInvariant { sys with power := true } :=
          ⟨invariant.usage, invariant.powered, invariant.resuming, invariant.locked,
            invariant.pmLocked, fun _ _ => rfl, fun _ _ => rfl, invariant.accesses⟩
        exact up.move (invariant.usage.move (here ▸ rfl)) (by simp [PowerPoint.powered])
          (here ▸ rfl) (here ▸ rfl) (fun _ => rfl)
      · exact invariant.resumes (here ▸ rfl) (invariant.usage.leave (here ▸ rfl) rfl) rfl rfl rfl
          (by simp [PowerPoint.powered]) rfl (by simp) (by simp)
  | resumeRead =>
      rw [here, powerProceed, Option.some.injEq] at taken
      subst taken
      refine invariant.resumesOn (here ▸ rfl) ?_
      cases ok with
      | false => rfl
      | true => rfl
  | resumeAck =>
      rw [here, powerProceed, Option.some.injEq] at taken
      subst taken
      exact invariant.resumesOn (here ▸ rfl) rfl
  | resumed =>
      have up : (sys.points pid).poweredUp = true := here ▸ rfl
      rw [here, powerProceed, Option.some.injEq] at taken
      subst taken
      exact invariant.resumes (here ▸ rfl) (invariant.usage.move (here ▸ rfl)) rfl rfl rfl
        (fun _ => rfl) rfl (by simp) (fun _ => invariant.poweredUp pid up)
  | programming =>
      have powered : (sys.points pid).powered = true := here ▸ rfl
      have active := invariant.powered pid powered
      rw [here, powerProceed] at taken
      split at taken
      all_goals
        rw [Option.some.injEq] at taken
        subst taken
      · have touched := invariant.touch (invariant.inOrder_caller powered)
        exact touched.moveOn active (here ▸ rfl) (here ▸ rfl) (here ▸ rfl)
      · exact invariant.moveOn active (here ▸ rfl) (here ▸ rfl) (here ▸ rfl)
  | waiting =>
      have active := invariant.powered pid (here ▸ rfl)
      rw [here, powerProceed, Option.some.injEq] at taken
      subst taken
      exact invariant.moveOn active (here ▸ rfl) (here ▸ rfl) (here ▸ rfl)
  | unlocking =>
      have holder : sys.lockHolder = some pid := (invariant.locked pid).mp (here ▸ rfl)
      have locked := invariant.locked
      rw [holder] at locked
      rw [here, powerProceed, Option.some.injEq] at taken
      subst taken
      exact invariant.relocks (here ▸ rfl) rfl (locked.give rfl)

def PowerSys.Goes (sys : PowerSys Pid) (action : PowerAction Pid) : Prop :=
  ∃ next, powerStep sys action = some next

omit [DecidableEq Pid] in
theorem PowerInvariant.count (invariant : PowerInvariant sys) :
    sys.usage = ((Finset.univ.filter fun pid => sys.points pid ≠ .outside).card : Int) := by
  rw [invariant.usage, Finset.card_filter, Nat.cast_sum]
  apply Finset.sum_congr rfl
  intro pid _
  cases sys.points pid with
  | outside => rfl
  | _ => rfl

omit [DecidableEq Pid] in
theorem PowerInvariant.unblocked (invariant : PowerInvariant sys)
    (suspending : sys.status = .suspending .wantLock) : sys.xferLock = none := by
  cases lock : sys.xferLock with
  | none => rfl
  | some owner =>
      cases owner with
      | pmCore =>
          have locked := invariant.pmLocked.mp lock
          rw [suspending] at locked
          contradiction
      | process pid =>
          have holder : sys.lockHolder = some pid := by
            rw [PowerSys.lockHolder, lock]
          have powered := PowerPoint.powered_of_locked ((invariant.locked pid).mpr holder)
          rw [invariant.powered pid powered] at suspending
          contradiction

theorem PowerInvariant.goesOn (invariant : PowerInvariant sys) {pid : Pid}
    (inside : sys.points pid ≠ .outside) :
    sys.Goes (.proceed pid true) ∨ sys.Goes (.put pid) ∨
      sys.points pid = .getting ∧ (sys.Goes (.pmSuspend true) ∨
        ∃ other, (sys.points other).resumes = true ∧ sys.Goes (.proceed other true)) := by
  cases here : sys.points pid with
  | outside => contradiction
  | holding => exact .inr (.inl ⟨_, if_pos here⟩)
  | poweringUp | resumeRead | resumeAck | resumed | programming | waiting | unlocking =>
      exact .inl ⟨_, by rw [powerStep, here]; rfl⟩
  | getting =>
      cases status : sys.status with
      | active | suspended =>
          left
          simp only [PowerSys.Goes, powerStep, here, powerProceed, status]
          exact ⟨_, rfl⟩
      | suspending point =>
          refine .inr (.inr ⟨rfl, .inl ?_⟩)
          simp only [PowerSys.Goes, powerStep, status]
          cases point with
          | wantLock =>
              rw [suspendProceed, if_pos (invariant.unblocked status)]
              exact ⟨_, rfl⟩
          | readStatus | ack | unlock | returning => exact ⟨_, rfl⟩
      | resuming =>
          obtain ⟨resumer, held, resumes⟩ := invariant.resuming
          obtain ⟨other, same⟩ := Option.ne_none_iff_exists'.mp (resumes.mp status)
          have there : (sys.points other).resumes = true := (held other).mpr same
          refine .inr (.inr ⟨rfl, .inr ⟨other, there, ?_⟩⟩)
          rw [PowerSys.Goes, powerStep]
          cases point : sys.points other with
          | poweringUp | resumeRead | resumeAck | resumed => exact ⟨_, rfl⟩
          | outside | getting | holding | programming | waiting | unlocking =>
              rw [point] at there
              contradiction

end Invariant

end Ldd3.Edu
