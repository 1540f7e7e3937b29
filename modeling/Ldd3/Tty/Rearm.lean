import Mathlib.Tactic
import Ldd3.Tty.Core

/-!
Who sends the bytes that wait in `tx_fifo`. `transmit_work` gives up on a port that is
disconnected or stopped, so every call that makes transmission possible again has to
schedule it: `tty_start` does, `activate_tty` does not.
-/

namespace Ldd3.Tty

variable {Pid : Type}

def Armed (sys : EchoSys Pid) : Prop :=
  sys.pending = true ∨ sys.worker ≠ .idle ∨ ∃ pid, (sys.points pid).willSchedule = true

def NothingStranded (sys : EchoSys Pid) : Prop :=
  sys.txFifo ≠ [] → sys.connected = true → sys.stopped = false → Armed sys

/-- An `activate_tty` finds the fifo empty, the port stopped or a transmission under way; and
a `tty_stop` that a `tty_start` has overtaken does not take the work item from a connected
port with bytes in its fifo, unless some call is about to schedule it again. -/
def KeepsArmed (sys : EchoSys Pid) : EchoAction Pid → Prop
  | .activate => sys.txFifo = [] ∨ sys.stopped = true ∨ Armed sys
  | .proceed pid =>
      sys.points pid = .stopCancel → sys.connected = true → sys.stopped = false →
        sys.txFifo = [] ∨ ∃ other, (sys.points other).willSchedule = true
  | _ => True

def Refilled (sys : EchoSys Pid) : Prop :=
  sys.worker = .wakeup →
    sys.txFifo = [] ∨ sys.pending = true ∨ ∃ pid, (sys.points pid).willSchedule = true

variable [DecidableEq Pid]

theorem willSchedule_set {points : Pid → Point} {pid : Pid} {point : Point}
    (goes : point.willSchedule = true) :
    ∃ other, (Function.update points pid point other).willSchedule = true :=
  ⟨pid, by rw [Function.update_self]; exact goes⟩

theorem willSchedule_kept {points : Pid → Point} {pid : Pid}
    (idle : (points pid).willSchedule = false) (point : Point)
    (some : ∃ other, (points other).willSchedule = true) :
    ∃ other, (Function.update points pid point other).willSchedule = true := by
  obtain ⟨other, goes⟩ := some
  have different : other ≠ pid := by
    intro same
    subst same
    rw [idle] at goes
    contradiction
  exact ⟨other, by rwa [Function.update_of_ne different]⟩

inductive ArmMove (sys next : EchoSys Pid) : Prop
  | quiet (fifo : next.txFifo = sys.txFifo) (connected : next.connected = true → sys.connected = true)
      (stopped : sys.stopped = true → next.stopped = true) (pending : next.pending = sys.pending)
      (worker : next.worker = sys.worker)
      (callers : (∃ pid, (sys.points pid).willSchedule = true) →
        ∃ pid, (next.points pid).willSchedule = true)
  | arms (armed : next.pending = true ∨ ∃ pid, (next.points pid).willSchedule = true)
  | empty (fifo : next.txFifo = [])
  | runs (busy : next.worker ≠ .idle) (early : next.worker ≠ .wakeup)
  | givesUp (closed : next.connected = false ∨ next.stopped = true) (worker : next.worker = .idle)
  | finishes (late : sys.worker = .wakeup) (worker : next.worker = .idle)
      (fifo : next.txFifo = sys.txFifo) (pending : next.pending = sys.pending)
      (callers : next.points = sys.points)

theorem ArmMove.setPoint {sys : EchoSys Pid} {pid : Pid} {point : Point}
    (idle : (sys.points pid).willSchedule = false) : ArmMove sys (sys.setPoint pid point) :=
  .quiet rfl id id rfl rfl (willSchedule_kept idle point)

theorem callStep_armMove {sys next : EchoSys Pid} {pid : Pid}
    (notCancel : sys.points pid ≠ .stopCancel)
    (taken : callStep sys pid (sys.points pid) = some next) : ArmMove sys next := by
  cases point : sys.points pid with
  | outside | returned ret => simp only [point, callStep, reduceCtorEq] at taken
  | writeTestConnected buf | writeTestStopped buf =>
      simp only [point, callStep, Option.some.injEq] at taken
      exact taken ▸ ArmMove.setPoint (by rw [point]; rfl)
  | writeFifo buf =>
      simp only [point, callStep, Option.some.injEq] at taken
      subst taken
      by_cases full : (kfifoCells sys.txFifo buf).length = 0
      · -- nothing fits, so nothing is put in
        have none := List.length_eq_zero_iff.mp full
        refine .quiet ?_ id id rfl rfl (willSchedule_kept (by rw [point]; rfl) _)
        simp only [EchoSys.setPoint, EchoSys.written, kfifoIn, none, List.append_nil]
      · rw [kfifoIn, if_neg full]
        exact .arms (.inr (willSchedule_set rfl))
  | writeSchedule n | startSchedule =>
      simp only [point, callStep, Option.some.injEq] at taken
      exact taken ▸ .arms (.inl rfl)
  | startClear =>
      simp only [point, callStep, Option.some.injEq] at taken
      exact taken ▸ .arms (.inr (willSchedule_set rfl))
  | startChars =>
      simp only [point, callStep, Option.some.injEq] at taken
      subst taken
      by_cases empty : sys.txFifo.length = 0
      · exact .empty (List.length_eq_zero_iff.mp empty)
      · rw [if_neg empty]
        exact .arms (.inr (willSchedule_set rfl))
  | stopSet =>
      simp only [point, callStep, Option.some.injEq] at taken
      subst taken
      exact .quiet rfl id (fun _ => rfl) rfl rfl (willSchedule_kept (by rw [point]; rfl) _)
  | stopCancel => exact absurd point notCancel

omit [DecidableEq Pid] in
theorem transmitWork_armMove {sys next : EchoSys Pid}
    (taken : transmitWork sys sys.worker = some next) : ArmMove sys next := by
  cases worker : sys.worker with
  | idle => simp only [worker, transmitWork, reduceCtorEq] at taken
  | test =>
      simp only [worker, transmitWork] at taken
      by_cases closed : sys.connected = false ∨ sys.stopped = true
      · rw [if_pos closed, Option.some.injEq] at taken
        subst taken
        exact .givesUp closed rfl
      · rw [if_neg closed, Option.some.injEq] at taken
        subst taken
        exact .runs (by simp) (by simp)
  | transfer =>
      simp only [worker, transmitWork] at taken
      by_cases empty : (sys.txFifo.take MAX_BUFFER).length = 0
      · rw [if_pos empty, Option.some.injEq] at taken
        subst taken
        rw [List.length_take, MAX_BUFFER] at empty
        have none : sys.txFifo.length = 0 := by omega
        exact .empty (List.length_eq_zero_iff.mp none)
      · rw [if_neg empty, Option.some.injEq] at taken
        subst taken
        exact .runs (by simp) (by simp)
  | insert tmp =>
      simp only [worker, transmitWork, Option.some.injEq] at taken
      subst taken
      exact .runs (by simp) (by simp)
  | wakeup =>
      simp only [worker, transmitWork, Option.some.injEq] at taken
      subst taken
      exact .finishes worker rfl rfl rfl rfl

theorem echoStep_armMove {sys next : EchoSys Pid} {action : EchoAction Pid}
    (notActivate : action ≠ .activate)
    (notCancel : ∀ pid, action = .proceed pid → sys.points pid ≠ .stopCancel)
    (taken : echoStep sys action = some next) : ArmMove sys next := by
  cases action with
  | activate => exact absurd rfl notActivate
  | shutdown =>
      simp only [echoStep, Option.some.injEq] at taken
      subst taken
      exact .quiet rfl (fun connected => by contradiction) id rfl rfl id
  | write pid buf | start pid | stop pid =>
      simp only [echoStep, Option.ite_none_right_eq_some, Option.some.injEq] at taken
      obtain ⟨ended, rfl⟩ := taken
      apply ArmMove.setPoint
      cases point : sys.points pid <;> simp_all [Point.isOver, Point.willSchedule]
  | proceed pid => exact callStep_armMove (notCancel pid rfl) taken
  | runWork =>
      simp only [echoStep, Option.ite_none_right_eq_some, Option.some.injEq] at taken
      obtain ⟨_, rfl⟩ := taken
      exact .runs (by simp) (by simp)
  | work => exact transmitWork_armMove taken

omit [DecidableEq Pid] in
theorem ArmMove.nothingStranded {sys next : EchoSys Pid} (move : ArmMove sys next)
    (refilled : Refilled sys) (good : NothingStranded sys) : NothingStranded next := by
  intro bytes connected running
  cases move with
  | quiet fifo wasConnected wasStopped pending worker callers =>
      have before : Armed sys := by
        apply good (fifo ▸ bytes) (wasConnected connected)
        cases stopped : sys.stopped with
        | false => rfl
        | true => exact absurd (wasStopped stopped) (by rw [running]; decide)
      rcases before with waits | busy | calls
      · exact .inl (pending.trans waits)
      · exact .inr (.inl (by rwa [worker]))
      · exact .inr (.inr (callers calls))
  | arms armed =>
      rcases armed with waits | calls
      · exact .inl waits
      · exact .inr (.inr calls)
  | empty fifo => exact absurd fifo bytes
  | runs busy => exact .inr (.inl busy)
  | givesUp closed =>
      rcases closed with disconnected | stopped
      · rw [disconnected] at connected
        contradiction
      · rw [stopped] at running
        contradiction
  | finishes late worker fifo pending callers =>
      rcases refilled late with empty | waits | calls
      · exact absurd (fifo.trans empty) bytes
      · exact .inl (pending.trans waits)
      · exact .inr (.inr (by rwa [callers]))

omit [DecidableEq Pid] in
theorem ArmMove.refilled {sys next : EchoSys Pid} (move : ArmMove sys next)
    (refilled : Refilled sys) : Refilled next := by
  intro late
  cases move with
  | quiet fifo wasConnected wasStopped pending worker callers =>
      rcases refilled (worker ▸ late) with empty | waits | calls
      · exact .inl (fifo.trans empty)
      · exact .inr (.inl (pending.trans waits))
      · exact .inr (.inr (callers calls))
  | arms armed => exact .inr armed
  | empty fifo => exact .inl fifo
  | runs busy early => exact absurd late early
  | givesUp closed worker =>
      rw [worker] at late
      contradiction
  | finishes _ worker =>
      rw [worker] at late
      contradiction

theorem stopCancel_cases {sys next : EchoSys Pid} {pid : Pid} (point : sys.points pid = .stopCancel)
    (taken : echoStep sys (.proceed pid) = some next) :
    sys.worker = .idle ∧
      next = { sys with pending := false, halted := sys.stopped }.setPoint pid (.returned 0) := by
  simp only [echoStep, point, callStep, Option.ite_none_right_eq_some, Option.some.injEq] at taken
  exact ⟨taken.1, taken.2.symm⟩

theorem refilled_step {sys next : EchoSys Pid} {action : EchoAction Pid} (refilled : Refilled sys)
    (taken : echoStep sys action = some next) : Refilled next := by
  by_cases activates : action = .activate
  · subst activates
    simp only [echoStep, Option.some.injEq] at taken
    exact taken ▸ refilled
  by_cases cancels : ∃ pid, action = .proceed pid ∧ sys.points pid = .stopCancel
  · obtain ⟨pid, rfl, point⟩ := cancels
    obtain ⟨idle, rfl⟩ := stopCancel_cases point taken
    intro late
    exact absurd (idle.symm.trans late) (by simp)
  · have notCancel : ∀ pid, action = .proceed pid → sys.points pid ≠ .stopCancel :=
      fun pid proceeds point => cancels ⟨pid, proceeds, point⟩
    exact (echoStep_armMove activates notCancel taken).refilled refilled

omit [DecidableEq Pid] in
theorem activate_step_iff (sys : EchoSys Pid) :
    NothingStranded (activateTty sys) ↔ KeepsArmed sys .activate := by
  constructor
  · intro goodNext
    by_cases empty : sys.txFifo = []
    · exact .inl empty
    cases running : sys.stopped with
    | true => exact .inr (.inl running)
    | false => exact .inr (.inr (goodNext empty rfl running))
  · rintro (empty | stopped | armed) bytes _ running
    · exact absurd empty bytes
    · exact absurd (running.symm.trans stopped) (by decide)
    · exact armed

theorem stopCancel_step_iff {sys : EchoSys Pid} {pid : Pid} (point : sys.points pid = .stopCancel)
    (idle : sys.worker = .idle) :
    NothingStranded
        ({ sys with pending := false, halted := sys.stopped }.setPoint pid (.returned 0)) ↔
      KeepsArmed sys (.proceed pid) := by
  have quietPoint : (sys.points pid).willSchedule = false := by
    rw [point]
    rfl
  constructor
  · intro goodNext _ connected running
    by_cases empty : sys.txFifo = []
    · exact .inl empty
    rcases goodNext empty connected running with waits | busy | ⟨other, calls⟩
    · contradiction
    · exact absurd idle busy
    · refine .inr ⟨other, ?_⟩
      by_cases same : other = pid
      · subst same
        simp only [EchoSys.setPoint, Function.update_self, Point.willSchedule] at calls
        contradiction
      · simpa only [EchoSys.setPoint, Function.update_of_ne same] using calls
  · intro keeps bytes connected running
    rcases keeps point connected running with empty | calls
    · exact absurd empty bytes
    · exact .inr (.inr (willSchedule_kept quietPoint _ calls))

theorem nothingStranded_step_iff {sys next : EchoSys Pid} {action : EchoAction Pid}
    (refilled : Refilled sys) (good : NothingStranded sys)
    (taken : echoStep sys action = some next) :
    NothingStranded next ↔ KeepsArmed sys action := by
  by_cases activates : action = .activate
  · subst activates
    simp only [echoStep, Option.some.injEq] at taken
    exact taken ▸ activate_step_iff sys
  by_cases cancels : ∃ pid, action = .proceed pid ∧ sys.points pid = .stopCancel
  · obtain ⟨pid, rfl, point⟩ := cancels
    obtain ⟨idle, rfl⟩ := stopCancel_cases point taken
    exact stopCancel_step_iff point idle
  · have notCancel : ∀ pid, action = .proceed pid → sys.points pid ≠ .stopCancel :=
      fun pid proceeds point => cancels ⟨pid, proceeds, point⟩
    have goodNext := (echoStep_armMove activates notCancel taken).nothingStranded refilled good
    refine iff_of_true goodNext ?_
    cases action with
    | activate => exact absurd rfl activates
    | proceed pid => exact fun point => absurd point (notCancel pid rfl)
    | _ => trivial

/-- Along any interleaving of the calls, no byte is stranded in the fifo exactly when no
activation finds bytes that nobody will send, and no stop that a start has overtaken takes
away the transmission which the start has scheduled. -/
theorem echoTty_rearmed_iff (actions : List (EchoAction Pid)) :
    StepMachine.Always echoStep NothingStranded (.init Pid) actions ↔
      StepMachine.Meets echoStep KeepsArmed (.init Pid) actions := by
  refine StepMachine.always_iff_meets
    (fun _ _ _ refilled _ taken => refilled_step refilled taken)
    (fun _ _ _ refilled good taken => nothingStranded_step_iff refilled good taken) actions ?_ ?_
  · intro late
    exact .inl rfl
  · intro bytes
    exact absurd rfl bytes

/-- The port is disconnected between a write and the work that it scheduled, and connected
again after the worker has given up. -/
def reconnected : List (EchoAction Unit) :=
  [.activate, .write () [7], .proceed (), .proceed (), .proceed (), .proceed (), .shutdown,
    .runWork, .work, .activate]

theorem echoTty_stranded : ¬ StepMachine.Always echoStep NothingStranded (.init Unit) reconnected := by
  intro always
  have ran : ∃ final, StepMachine.run echoStep (.init Unit) reconnected = some final ∧
      final.txFifo = [7] ∧ final.connected = true ∧ final.stopped = false ∧
      final.pending = false ∧ final.worker = .idle ∧ final.points () = .returned 1 :=
    ⟨_, rfl, rfl, rfl, rfl, rfl, rfl, rfl⟩
  obtain ⟨final, reached, fifo, connected, running, waits, idle, point⟩ := ran
  rcases always.last reached (by simp [fifo]) connected running with armed | busy | ⟨pid, calls⟩
  · rw [waits] at armed
    contradiction
  · exact busy idle
  · rw [point] at calls
    contradiction

end Ldd3.Tty
