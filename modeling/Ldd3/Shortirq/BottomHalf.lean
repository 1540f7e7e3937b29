import Mathlib.Tactic
import Ldd3.Kernel
import Ldd3.Text
import Ldd3.Lib.StepMachine
import Ldd3.Lib.WaitQueue
import Ldd3.Shortirq.Core

/-!
The bottom halves of the interrupt timestamp drivers, which wake the readers: the tasklet, the
thread and the work of `shortirq.c`, with a `bh_mode` that may change at any time, and the work of
`pci_eduirq.c`.
-/

namespace Ldd3.Shortirq

open WaitQueue

inductive BhType
  | tasklet
  | threaded
  | workqueue
  deriving DecidableEq, Repr

def bhModes : BhType → List Char
  | .tasklet => "tasklet".toList
  | .threaded => "threaded".toList
  | .workqueue => "workqueue".toList

def paramSetBhMode (val : List Char) (bhMode : BhType) : Int × BhType :=
  match [.tasklet, .threaded, .workqueue].find? fun mode => sysfsStreq '\n' val (bhModes mode) with
  | some mode => (0, mode)
  | none => (-EINVAL, bhMode)

def paramGetBhMode (bhMode : BhType) : List Char := bhModes bhMode ++ ['\n']

theorem paramSetBhMode_paramGetBhMode (mode before : BhType) :
    paramSetBhMode (paramGetBhMode mode) before = (0, mode) := by
  cases mode <;> rfl

/-- `shortirq_tasklet`, `shortirq_threaded_handler` and `edu_work`, which have the same body. -/
inductive BhPoint
  | idle
  | testing
  | waking
  deriving DecidableEq, Repr

structure Deferred where
  scheduled : Bool
  point : BhPoint
  deriving DecidableEq, Repr

inductive HandlerPoint
  | idle
  | recording (tk : Int)
  | recorded
  | notThreaded
  deriving DecidableEq, Repr

inductive ReadCall
  | idle
  | testing
  | waiting (waiter : Waiter)
  | removing
  | gave (kt : Option Int)
  | interrupted
  deriving DecidableEq, Repr

namespace ReadCall

def waiting? : ReadCall → Option Waiter
  | waiting waiter => some waiter
  | idle | testing | removing | gave _ | interrupted => none

def wake : ReadCall → ReadCall
  | waiting waiter => waiting waiter.wake
  | idle => idle
  | testing => testing
  | removing => removing
  | gave kt => gave kt
  | interrupted => interrupted

def isOver : ReadCall → Bool
  | idle | gave _ | interrupted => true
  | testing | waiting _ | removing => false

def ofProgress : Progress → ReadCall
  | .waits waiter => waiting waiter
  | .passed => removing
  | .interrupted => interrupted

theorem waiting?_wake (call : ReadCall) : call.wake.waiting? = call.waiting?.map Waiter.wake := by
  cases call <;> rfl

end ReadCall

/-- `threadFn` tells whether the interrupt was requested with a thread. -/
structure BhSys (Pid : Type) where
  bhMode : BhType
  threadFn : Bool
  dev : EduDev
  handler : HandlerPoint
  deferred : BhType → Deferred
  calls : Pid → ReadCall

def BhSys.loaded (Pid : Type) (bhMode : BhType) : BhSys Pid :=
  { bhMode := bhMode, threadFn := bhMode == .threaded, dev := .loaded, handler := .idle,
    deferred := fun _ => ⟨false, .idle⟩, calls := fun _ => .idle }

inductive BhAction (Pid : Type)
  | interrupt (st : Nat) (tk : Int)
  | handler
  | start (bh : BhType)
  | bottomHalf (bh : BhType)
  | call (pid : Pid)
  | proceed (pid : Pid) (signal : Bool)
  | setMode (val : List Char)

section Machine

variable {Pid : Type}

def BhSys.setDeferred (sys : BhSys Pid) (bh : BhType) (deferred : Deferred) : BhSys Pid :=
  { sys with deferred := Function.update sys.deferred bh deferred }

def BhSys.schedule (sys : BhSys Pid) (bh : BhType) : BhSys Pid :=
  sys.setDeferred bh { sys.deferred bh with scheduled := true }

/-- The interrupt core on `IRQ_WAKE_THREAD`: without a thread function it only warns. -/
def BhSys.wakeThread (sys : BhSys Pid) : BhSys Pid :=
  if sys.threadFn then sys.schedule .threaded else sys

def handlerProceed (driver : Driver) (sys : BhSys Pid) : HandlerPoint → Option (BhSys Pid)
  | .idle => none
  | .recording tk => some { sys with dev := sys.dev.record tk, handler := .recorded }
  | .recorded =>
      match driver with
      | .pciEduirq => some { sys.schedule .workqueue with handler := .idle }
      | .shortirq =>
          if sys.bhMode = .threaded then some { sys.wakeThread with handler := .idle }
          else some { sys with handler := .notThreaded }
  | .notThreaded =>
      if sys.bhMode = .workqueue then some { sys.schedule .workqueue with handler := .idle }
      else some { sys.schedule .tasklet with handler := .idle }

def BhSys.wakeUp (sys : BhSys Pid) : BhSys Pid :=
  { sys with calls := fun pid => (sys.calls pid).wake }

def bhProceed (sys : BhSys Pid) (bh : BhType) : BhPoint → Option (BhSys Pid)
  | .idle => none
  | .testing =>
      some (sys.setDeferred bh { sys.deferred bh with
        point := if sys.dev.eventCount ≠ 0 then .waking else .idle })
  | .waking => some (sys.wakeUp.setDeferred bh { sys.deferred bh with point := .idle })

variable [DecidableEq Pid]

def BhSys.setCall (sys : BhSys Pid) (pid : Pid) (call : ReadCall) : BhSys Pid :=
  { sys with calls := Function.update sys.calls pid call }

def readProceed (sys : BhSys Pid) (pid : Pid) (signal : Bool) : ReadCall → Option (BhSys Pid)
  | .testing =>
      some (sys.setCall pid (if sys.dev.eventCount = 0 then .waiting .entering else .removing))
  | .waiting waiter =>
      (waiter.proceed (0 < sys.dev.eventCount) signal).map fun progress =>
        sys.setCall pid (.ofProgress progress)
  | .removing =>
      some ({ sys with dev := sys.dev.remove }.setCall pid (.gave (sys.dev.load sys.dev.readSlot)))
  | .idle | .gave _ | .interrupted => none

def bhStep (driver : Driver) (sys : BhSys Pid) : BhAction Pid → Option (BhSys Pid)
  | .interrupt st tk =>
      if sys.handler = .idle then
        some (if driver.records st then { sys with handler := .recording tk } else sys)
      else none
  | .handler => handlerProceed driver sys sys.handler
  | .start bh =>
      if (sys.deferred bh).scheduled ∧ (sys.deferred bh).point = .idle then
        some (sys.setDeferred bh ⟨false, .testing⟩)
      else none
  | .bottomHalf bh => bhProceed sys bh (sys.deferred bh).point
  | .call pid => if (sys.calls pid).isOver then some (sys.setCall pid .testing) else none
  | .proceed pid signal => readProceed sys pid signal (sys.calls pid)
  | .setMode val => some { sys with bhMode := (paramSetBhMode val sys.bhMode).2 }

end Machine

section Wakes

variable {Pid : Type}

def BhSys.waiters (sys : BhSys Pid) : Pid → Option Waiter := fun pid => (sys.calls pid).waiting?

def BottomHalfComing (sys : BhSys Pid) : Prop :=
  ∃ bh, (sys.deferred bh).scheduled = true ∨ (sys.deferred bh).point ≠ .idle

def WakeComing (sys : BhSys Pid) : Prop := sys.handler ≠ .idle ∨ BottomHalfComing sys

/-- A reader that sleeps although there is an unread timestamp is going to be woken. -/
def NoLostWake (sys : BhSys Pid) : Prop :=
  Covered (0 < sys.dev.eventCount) (WakeComing sys) sys.waiters

/-- The handler is about to wake a thread that the interrupt was requested without. -/
def Unserved (driver : Driver) (sys : BhSys Pid) : Prop :=
  driver = .shortirq ∧ sys.handler = .recorded ∧ sys.bhMode = .threaded ∧ sys.threadFn = false

/-- No interrupt goes to a missing thread, and no removal makes the event count positive by a
wrap, while a reader sleeps that no other bottom half is going to wake. -/
def Delivers (driver : Driver) (sys : BhSys Pid) : BhAction Pid → Prop
  | .handler =>
      Unserved driver sys → Covered (0 < sys.dev.eventCount) (BottomHalfComing sys) sys.waiters
  | .proceed pid _ =>
      sys.calls pid = .removing → sys.dev.eventCount = -2147483648 →
        Covered True (WakeComing sys) sys.waiters
  | .interrupt _ _ | .start _ | .bottomHalf _ | .call _ | .setMode _ => True

theorem NoLostWake.settled {sys : BhSys Pid} (covered : NoLostWake sys)
    (returned : sys.handler = .idle) (idle : ¬BottomHalfComing sys) {pid : Pid}
    (sleeps : sys.waiters pid = some .asleep) : sys.dev.eventCount ≤ 0 := by
  by_contra positive
  rcases covered pid sleeps (Int.not_le.mp positive) with running | coming
  · exact running returned
  · exact idle coming

theorem noLostWake_loaded (mode : BhType) : NoLostWake (.loaded Pid mode) :=
  Covered.of_awake nofun

theorem bottomHalfComing_schedule (sys : BhSys Pid) (bh : BhType) :
    BottomHalfComing (sys.schedule bh) := by
  refine ⟨bh, .inl ?_⟩
  simp only [BhSys.schedule, BhSys.setDeferred, Function.update_self]

theorem waiters_wakeUp (sys : BhSys Pid) :
    sys.wakeUp.waiters = fun pid => (sys.waiters pid).map Waiter.wake :=
  funext fun pid => (sys.calls pid).waiting?_wake

variable [DecidableEq Pid]

theorem waiters_setCall (sys : BhSys Pid) (pid : Pid) (call : ReadCall) :
    (sys.setCall pid call).waiters = Function.update sys.waiters pid call.waiting? := by
  funext other
  simp only [BhSys.waiters, BhSys.setCall, Function.update_apply]
  split <;> rfl

variable {driver : Driver} {sys next : BhSys Pid}

omit [DecidableEq Pid] in
theorem noLostWake_handler (taken : handlerProceed driver sys sys.handler = some next) :
    NoLostWake next ↔ Delivers driver sys (.handler : BhAction Pid) := by
  have served : WakeComing next → ¬Unserved driver sys →
      (NoLostWake next ↔ Delivers driver sys (.handler : BhAction Pid)) :=
    fun coming other => ⟨fun _ unserved => absurd unserved other, fun _ => .of_coming coming⟩
  cases here : sys.handler with
  | idle =>
      rw [here] at taken
      contradiction
  | recording tk =>
      rw [here, handlerProceed, Option.some.injEq] at taken
      subst taken
      refine served (.inl nofun) ?_
      rintro ⟨_, recorded, _⟩
      rw [here] at recorded
      contradiction
  | recorded =>
      rw [here, handlerProceed.eq_def] at taken
      dsimp only at taken
      split at taken
      · rw [Option.some.injEq] at taken
        subst taken
        exact served (.inr (bottomHalfComing_schedule sys .workqueue)) fun unserved =>
          absurd unserved.1 nofun
      · split at taken
        · rename_i mode
          rw [Option.some.injEq] at taken
          subst taken
          cases thread : sys.threadFn with
          | true =>
              have woken : sys.wakeThread = sys.schedule .threaded := if_pos thread
              rw [woken] at served ⊢
              refine served (.inr (bottomHalfComing_schedule sys .threaded)) ?_
              rintro ⟨_, _, _, none⟩
              rw [thread] at none
              contradiction
          | false =>
              have unserved : Unserved .shortirq sys := ⟨rfl, here, mode, thread⟩
              have kept : sys.wakeThread = sys := if_neg (by simp [thread])
              rw [kept]
              constructor
              · intro after _
                refine after.mono id ?_
                rintro (running | coming)
                · exact absurd rfl running
                · exact coming
              · intro delivers
                exact (delivers unserved).mono id .inr
        · rename_i mode
          rw [Option.some.injEq] at taken
          subst taken
          exact served (.inl nofun) fun unserved => mode unserved.2.2.1
  | notThreaded =>
      have other : ¬Unserved driver sys := by
        rintro ⟨_, recorded, _⟩
        rw [here] at recorded
        contradiction
      rw [here, handlerProceed] at taken
      split at taken
      · rw [Option.some.injEq] at taken
        subst taken
        exact served (.inr (bottomHalfComing_schedule sys .workqueue)) other
      · rw [Option.some.injEq] at taken
        subst taken
        exact served (.inr (bottomHalfComing_schedule sys .tasklet)) other

omit [DecidableEq Pid] in
theorem bottomHalfComing_setDeferred (sys : BhSys Pid) (bh : BhType) {deferred : Deferred}
    (runs : deferred.point ≠ .idle) : BottomHalfComing (sys.setDeferred bh deferred) := by
  refine ⟨bh, .inr ?_⟩
  simpa only [BhSys.setDeferred, Function.update_self] using runs

omit [DecidableEq Pid] in
theorem noLostWake_bottomHalf {bh : BhType}
    (taken : bhProceed sys bh (sys.deferred bh).point = some next) : NoLostWake next := by
  cases here : (sys.deferred bh).point with
  | idle =>
      rw [here] at taken
      contradiction
  | testing =>
      rw [here, bhProceed, Option.some.injEq] at taken
      subst taken
      intro pid _ unread
      have found : sys.dev.eventCount ≠ 0 := ne_of_gt unread
      refine .inr (bottomHalfComing_setDeferred sys bh ?_)
      simp [found]
  | waking =>
      rw [here, bhProceed, Option.some.injEq] at taken
      subst taken
      change Covered _ _ sys.wakeUp.waiters
      rw [waiters_wakeUp]
      exact Covered.woken sys.waiters

theorem remove_positive {dev : EduDev} (fits : CInt.FitsInt dev.eventCount)
    (above : dev.eventCount ≠ -2147483648) (positive : 0 < dev.remove.eventCount) :
    0 < dev.eventCount := by
  simp only [CInt.FitsInt] at fits
  simp only [EduDev.remove, CInt.int32] at positive
  omega

theorem remove_wrapped {dev : EduDev} (lowest : dev.eventCount = -2147483648) :
    0 < dev.remove.eventCount := by
  simp only [EduDev.remove, lowest]
  decide

theorem noLostWake_setCall (covered : NoLostWake sys) (pid : Pid) {call : ReadCall}
    (awake : 0 < sys.dev.eventCount → call.waiting? ≠ some .asleep) :
    NoLostWake (sys.setCall pid call) := by
  rw [NoLostWake, waiters_setCall]
  exact covered.update awake

theorem noLostWake_removed (covered : NoLostWake sys) (fits : CInt.FitsInt sys.dev.eventCount)
    {pid : Pid} (here : sys.calls pid = .removing) (kt : Option Int) :
    NoLostWake ({ sys with dev := sys.dev.remove }.setCall pid (.gave kt)) ↔
      (sys.dev.eventCount = -2147483648 → Covered True (WakeComing sys) sys.waiters) := by
  have apart : ∀ other, sys.waiters other = some .asleep → other ≠ pid := by
    rintro other sleeps rfl
    rw [BhSys.waiters, here] at sleeps
    contradiction
  rw [NoLostWake, waiters_setCall]
  constructor
  · intro after lowest other sleeps _
    refine after other ?_ (remove_wrapped lowest)
    exact (Function.update_of_ne (apart other sleeps) _ _).trans sleeps
  · intro delivers
    refine Covered.update ?_ fun _ => nofun
    by_cases lowest : sys.dev.eventCount = -2147483648
    · exact (delivers lowest).mono (fun _ => trivial) id
    · exact covered.mono (remove_positive fits lowest) id

theorem noLostWake_proceed (covered : NoLostWake sys) (fits : CInt.FitsInt sys.dev.eventCount)
    {pid : Pid} {signal : Bool} (taken : readProceed sys pid signal (sys.calls pid) = some next) :
    NoLostWake next ↔ Delivers driver sys (.proceed pid signal) := by
  have stays : ∀ {call : ReadCall}, sys.calls pid ≠ .removing →
      (0 < sys.dev.eventCount → call.waiting? ≠ some .asleep) →
      (NoLostWake (sys.setCall pid call) ↔ Delivers driver sys (.proceed pid signal)) :=
    fun other awake => ⟨fun _ here => absurd here other,
      fun _ => noLostWake_setCall covered pid awake⟩
  cases here : sys.calls pid with
  | idle | gave | interrupted =>
      rw [here] at taken
      contradiction
  | testing =>
      rw [here, readProceed, Option.some.injEq] at taken
      subst taken
      refine stays (here ▸ nofun) fun unread => ?_
      rw [if_neg (ne_of_gt unread)]
      nofun
  | waiting waiter =>
      rw [here, readProceed, Option.map_eq_some_iff] at taken
      obtain ⟨progress, taken, rfl⟩ := taken
      refine stays (here ▸ nofun) fun unread => ?_
      cases progress with
      | waits after =>
          have awake := Waiter.awake_of_proceed taken (decide_eq_true unread)
          exact fun sleeps => awake (Option.some.inj sleeps)
      | passed | interrupted => nofun
  | removing =>
      rw [here, readProceed, Option.some.injEq] at taken
      subst taken
      rw [noLostWake_removed covered fits here]
      exact ⟨fun delivers _ => delivers, fun delivers => delivers here⟩

theorem noLostWake_step (covered : NoLostWake sys) (fits : CInt.FitsInt sys.dev.eventCount)
    {action : BhAction Pid} (taken : bhStep driver sys action = some next) :
    NoLostWake next ↔ Delivers driver sys action := by
  have always : NoLostWake next → (NoLostWake next ↔ True) := fun holds => iff_true_intro holds
  cases action with
  | interrupt st tk =>
      rw [bhStep, Option.ite_none_right_eq_some, Option.some.injEq] at taken
      obtain ⟨_, rfl⟩ := taken
      apply always
      split
      · exact .of_coming (.inl nofun)
      · exact covered
  | handler => exact noLostWake_handler taken
  | start bh =>
      rw [bhStep, Option.ite_none_right_eq_some, Option.some.injEq] at taken
      obtain ⟨_, rfl⟩ := taken
      exact always (.of_coming (.inr (bottomHalfComing_setDeferred sys bh nofun)))
  | bottomHalf bh => exact always (noLostWake_bottomHalf taken)
  | call pid =>
      rw [bhStep, Option.ite_none_right_eq_some, Option.some.injEq] at taken
      obtain ⟨_, rfl⟩ := taken
      exact always (noLostWake_setCall covered pid fun _ => nofun)
  | proceed pid signal => exact noLostWake_proceed covered fits taken
  | setMode val =>
      rw [bhStep, Option.some.injEq] at taken
      subst taken
      exact always covered

end Wakes

section Stranded

variable {Pid : Type}

structure Stranded (sys : BhSys Pid) (pid : Pid) : Prop where
  handler : sys.handler = .idle
  bottomHalf : ¬BottomHalfComing sys
  asleep : sys.calls pid = .waiting .asleep

variable [DecidableEq Pid]

def BhAction.disturbs (driver : Driver) (pid : Pid) : BhAction Pid → Bool
  | .interrupt st _ => driver.records st
  | .proceed other signal => other == pid && signal
  | .handler | .start _ | .bottomHalf _ | .call _ | .setMode _ => false

variable {driver : Driver} {sys next : BhSys Pid} {pid : Pid}

theorem Stranded.setCall (stranded : Stranded sys pid) {other : Pid} (apart : pid ≠ other)
    (dev : EduDev) (call : ReadCall) :
    Stranded ({ sys with dev := dev }.setCall other call) pid where
  handler := stranded.handler
  bottomHalf := stranded.bottomHalf
  asleep := by
    simp only [BhSys.setCall, Function.update_of_ne apart]
    exact stranded.asleep

theorem Stranded.step (stranded : Stranded sys pid) {action : BhAction Pid}
    (quiet : action.disturbs driver pid = false)
    (taken : bhStep driver sys action = some next) : Stranded next pid := by
  have elsewhere : ∀ {other : Pid}, sys.calls other ≠ .waiting .asleep → pid ≠ other := by
    rintro other awake rfl
    exact awake stranded.asleep
  cases action with
  | interrupt st tk =>
      have ignored : ¬driver.records st = true := by simpa [BhAction.disturbs] using quiet
      rw [bhStep, if_pos stranded.handler, Option.some.injEq, if_neg ignored] at taken
      exact taken ▸ stranded
  | handler =>
      rw [bhStep, stranded.handler] at taken
      contradiction
  | start bh =>
      rw [bhStep, Option.ite_none_right_eq_some] at taken
      exact absurd ⟨bh, .inl taken.1.1⟩ stranded.bottomHalf
  | bottomHalf bh =>
      have idle : (sys.deferred bh).point = .idle := by
        by_contra runs
        exact stranded.bottomHalf ⟨bh, .inr runs⟩
      rw [bhStep, idle] at taken
      contradiction
  | call other =>
      rw [bhStep, Option.ite_none_right_eq_some, Option.some.injEq] at taken
      obtain ⟨ended, rfl⟩ := taken
      refine stranded.setCall (elsewhere ?_) sys.dev .testing
      intro sleeps
      rw [sleeps] at ended
      contradiction
  | proceed other signal =>
      rw [bhStep] at taken
      have apart : pid ≠ other := by
        rintro rfl
        have unsignalled : signal = false := by simpa [BhAction.disturbs] using quiet
        rw [stranded.asleep, readProceed, unsignalled, Waiter.proceed_asleep] at taken
        contradiction
      cases here : sys.calls other with
      | idle | gave | interrupted =>
          rw [here] at taken
          contradiction
      | testing =>
          rw [here, readProceed, Option.some.injEq] at taken
          subst taken
          exact stranded.setCall apart sys.dev _
      | waiting waiter =>
          rw [here, readProceed, Option.map_eq_some_iff] at taken
          obtain ⟨progress, _, rfl⟩ := taken
          exact stranded.setCall apart sys.dev _
      | removing =>
          rw [here, readProceed, Option.some.injEq] at taken
          subst taken
          exact stranded.setCall apart _ _
  | setMode val =>
      rw [bhStep, Option.some.injEq] at taken
      subst taken
      exact ⟨stranded.handler, stranded.bottomHalf, stranded.asleep⟩

theorem Stranded.run (stranded : Stranded sys pid) {later : List (BhAction Pid)}
    (quiet : ∀ action ∈ later, action.disturbs driver pid = false) {final : BhSys Pid}
    (ran : StepMachine.run (bhStep driver) sys later = some final) : Stranded final pid := by
  induction later generalizing sys with
  | nil =>
      rw [StepMachine.run_nil, Option.some.injEq] at ran
      exact ran ▸ stranded
  | cons action rest ih =>
      obtain ⟨next, taken, ranRest⟩ := StepMachine.run_cons_inv ran
      have kept := stranded.step (quiet action List.mem_cons_self) taken
      exact ih kept (fun later listed => quiet later (List.mem_cons_of_mem action listed)) ranRest

theorem bhStep_dev {action : BhAction Pid} (taken : bhStep driver sys action = some next) :
    next.dev = sys.dev ∨ (∃ tk, next.dev = sys.dev.record tk) ∨ next.dev = sys.dev.remove := by
  cases action with
  | interrupt st tk =>
      rw [bhStep, Option.ite_none_right_eq_some, Option.some.injEq] at taken
      obtain ⟨_, rfl⟩ := taken
      split <;> exact .inl rfl
  | handler =>
      rw [bhStep] at taken
      cases here : sys.handler with
      | idle =>
          rw [here] at taken
          contradiction
      | recording tk =>
          rw [here, handlerProceed, Option.some.injEq] at taken
          exact .inr (.inl ⟨tk, taken ▸ rfl⟩)
      | recorded =>
          have thread : sys.wakeThread.dev = sys.dev := by
            rw [BhSys.wakeThread]
            split <;> rfl
          rw [here, handlerProceed.eq_def] at taken
          dsimp only at taken
          left
          split at taken
          · rw [Option.some.injEq] at taken
            exact taken ▸ rfl
          · split at taken
            · rw [Option.some.injEq] at taken
              exact taken ▸ thread
            · rw [Option.some.injEq] at taken
              exact taken ▸ rfl
      | notThreaded =>
          rw [here, handlerProceed] at taken
          left
          split at taken
          · rw [Option.some.injEq] at taken
            exact taken ▸ rfl
          · rw [Option.some.injEq] at taken
            exact taken ▸ rfl
  | start bh =>
      rw [bhStep, Option.ite_none_right_eq_some, Option.some.injEq] at taken
      exact .inl (taken.2 ▸ rfl)
  | bottomHalf bh =>
      rw [bhStep] at taken
      cases here : (sys.deferred bh).point with
      | idle =>
          rw [here] at taken
          contradiction
      | testing | waking =>
          rw [here, bhProceed, Option.some.injEq] at taken
          exact .inl (taken ▸ rfl)
  | call other =>
      rw [bhStep, Option.ite_none_right_eq_some, Option.some.injEq] at taken
      exact .inl (taken.2 ▸ rfl)
  | proceed other signal =>
      rw [bhStep] at taken
      cases here : sys.calls other with
      | idle | gave | interrupted =>
          rw [here] at taken
          contradiction
      | testing =>
          rw [here, readProceed, Option.some.injEq] at taken
          exact .inl (taken ▸ rfl)
      | waiting waiter =>
          rw [here, readProceed, Option.map_eq_some_iff] at taken
          obtain ⟨progress, _, rfl⟩ := taken
          exact .inl rfl
      | removing =>
          rw [here, readProceed, Option.some.injEq] at taken
          exact .inr (.inr (taken ▸ rfl))
  | setMode val =>
      rw [bhStep, Option.some.injEq] at taken
      exact .inl (taken ▸ rfl)

theorem fits_step (fits : CInt.FitsInt sys.dev.eventCount) {action : BhAction Pid}
    (taken : bhStep driver sys action = some next) : CInt.FitsInt next.dev.eventCount := by
  rcases bhStep_dev taken with same | ⟨tk, recorded⟩ | removed
  · rw [same]
    exact fits
  · rw [recorded, EduDev.record]
    split
    · exact CInt.int32_fits _
    · exact fits
  · rw [removed]
    exact CInt.int32_fits _

structure WakeReport (driver : Driver) (sys : BhSys Pid) : Prop where
  settled : NoLostWake sys → sys.handler = .idle → ¬BottomHalfComing sys →
    ∀ pid, sys.calls pid = .waiting .asleep → sys.dev.eventCount ≤ 0
  stranded : ∀ pid, sys.calls pid = .waiting .asleep → 0 < sys.dev.eventCount → ¬WakeComing sys →
    ∀ later final, (∀ action ∈ later, action.disturbs driver pid = false) →
      StepMachine.run (bhStep driver) sys later = some final →
      final.calls pid = .waiting .asleep

/-- The bottom halves lose no wake-up exactly in the runs in which no interrupt goes to a thread
that does not exist while a reader is left asleep. -/
theorem bottom_halves_wake_iff (driver : Driver) (bhMode : BhType)
    (actions : List (BhAction Pid)) :
    (StepMachine.Always (bhStep driver) NoLostWake (.loaded Pid bhMode) actions ↔
        StepMachine.Meets (bhStep driver) (Delivers driver) (.loaded Pid bhMode) actions) ∧
      ∀ sys : BhSys Pid, WakeReport driver sys := by
  constructor
  · exact StepMachine.always_iff_meets (fun _ _ _ fits _ taken => fits_step fits taken)
      (fun _ _ _ fits covered taken => noLostWake_step covered fits taken) actions
      (by decide : CInt.FitsInt 0) (noLostWake_loaded bhMode)
  · intro sys
    refine ⟨?_, ?_⟩
    · intro covered returned idle pid sleeps
      have asleep : sys.waiters pid = some .asleep := by
        rw [BhSys.waiters, sleeps]
        rfl
      exact covered.settled returned idle asleep
    · intro pid sleeps _ alone later final quiet ran
      have stranded : Stranded sys pid :=
        ⟨not_not.mp fun runs => alone (.inl runs), fun coming => alone (.inr coming), sleeps⟩
      exact (stranded.run quiet ran).asleep

end Stranded

end Ldd3.Shortirq
