import Mathlib.Tactic
import Ldd3.Jiq.Core

/-!
What a step of the reader does, said once: a show begins and prints, schedules, waits, and is
left. The invariants of the next modules follow these moves, not the statements.
-/

namespace Ldd3.Jiq

open WaitQueue

namespace PrintPoint

def unadded : PrintPoint → Bool
  | printing _ _ | adding _ _ => true
  | stamping _ => false

def adds : PrintPoint → Nat
  | adding count _ => count
  | printing _ _ | stamping _ => 0

end PrintPoint

namespace ReaderPoint

def suits (file : JiqFile) : ReaderPoint → Bool
  | outside | clearing | storing | starting => true
  | prepared _ | yielding _ | sleeping => file == .wq || file == .wqDelayed
  | inPrint _ | arming | stopping => file == .timer
  | waiting _ => file == .timer || file == .tasklet

def scheduled : ReaderPoint → Bool
  | yielding _ | sleeping | waiting _ => true
  | outside | clearing | storing | starting | prepared _ | inPrint _ | arming | stopping => false

def unadded : ReaderPoint → Bool
  | inPrint point => point.unadded
  | outside | clearing | storing | starting | prepared _ | yielding _ | sleeping | arming
  | waiting _ | stopping => false

def needsWake : ReaderPoint → Bool
  | yielding woken => !woken
  | sleeping => true
  | waiting waiter => waiter == .asleep
  | outside | clearing | storing | starting | prepared _ | inPrint _ | arming
  | stopping => false

def timerOff : ReaderPoint → Bool
  | outside | clearing | storing | starting | inPrint _ | arming => true
  | prepared _ | yielding _ | sleeping | waiting _ | stopping => false

def adds : ReaderPoint → Nat
  | inPrint point => point.adds
  | outside | clearing | storing | starting | prepared _ | yielding _ | sleeping | arming
  | waiting _ | stopping => 0

/-- `jiq_data.m` is still that of an earlier show. -/
def early : ReaderPoint → Bool
  | clearing | storing => true
  | outside | starting | prepared _ | yielding _ | sleeping | inPrint _ | arming | waiting _
  | stopping => false

def late : ReaderPoint → Bool
  | starting | prepared _ | yielding _ | sleeping | inPrint _ | arming | waiting _
  | stopping => true
  | outside | clearing | storing => false

def unscheduled : ReaderPoint → Bool
  | storing | starting | prepared _ | inPrint _ | arming => true
  | outside | clearing | yielding _ | sleeping | waiting _ | stopping => false

/-- The next step leaves the show, and what is scheduled is left alone. -/
def leaves (file : JiqFile) (full signal : Bool) : ReaderPoint → Bool
  | yielding woken => woken || signal
  | sleeping => signal
  | waiting waiter =>
      file != .timer && (waiter.proceed full signal == some .passed ||
        waiter.proceed full signal == some .interrupted)
  | outside | clearing | storing | starting | prepared _ | inPrint _ | arming | stopping => false

def work : ReaderPoint → Nat
  | outside => 0
  | clearing => 19 + 6 * (LIMIT + 1)
  | storing => 18
  | starting => 17
  | prepared _ => 12
  | yielding woken => if woken then 1 else 2
  | sleeping => 1
  | inPrint (.printing _ _) => 12
  | inPrint (.adding _ _) => 11
  | inPrint (.stamping _) => 16
  | arming => 15
  | waiting .asleep => 2
  | waiting (.queued woken) => if woken then 5 else 3
  | waiting .preparing => 4
  | waiting .entering => 5
  | stopping => 1

theorem suits_wake (file : JiqFile) (point : ReaderPoint) :
    point.wake.suits file = point.suits file := by
  cases point <;> rfl

theorem scheduled_wake (point : ReaderPoint) : point.wake.scheduled = point.scheduled := by
  cases point <;> rfl

theorem timerOff_wake (point : ReaderPoint) : point.wake.timerOff = point.timerOff := by
  cases point <;> rfl

theorem needsWake_wake (point : ReaderPoint) : point.wake.needsWake = false := by
  cases point with
  | waiting waiter => cases waiter <;> rfl
  | outside | clearing | storing | starting | prepared | yielding | sleeping | inPrint | arming
  | stopping => rfl

theorem work_wake (point : ReaderPoint) : point.wake.work ≤ point.work + 2 := by
  cases point with
  | waiting waiter =>
      cases waiter with
      | queued woken => cases woken <;> decide
      | entering | preparing | asleep => decide
  | yielding woken => cases woken <;> decide
  | outside | clearing | storing | starting | prepared | sleeping | inPrint | arming | stopping =>
      exact Nat.le_add_right _ _

theorem unadded_wake (point : ReaderPoint) : point.wake.unadded = point.unadded := by
  cases point <;> rfl

theorem early_wake (point : ReaderPoint) : point.wake.early = point.early := by
  cases point <;> rfl

theorem late_wake (point : ReaderPoint) : point.wake.late = point.late := by
  cases point <;> rfl

theorem unscheduled_wake (point : ReaderPoint) : point.wake.unscheduled = point.unscheduled := by
  cases point <;> rfl

theorem adds_wake (point : ReaderPoint) : point.wake.adds = point.adds := by
  cases point <;> rfl

theorem wake_inPrint {point : ReaderPoint} {print : PrintPoint}
    (here : point.wake = inPrint print) : point = inPrint print := by
  cases point <;> simp_all [wake]

theorem wake_outside {point : ReaderPoint} : point.wake = outside ↔ point = outside := by
  cases point <;> simp [wake]

theorem wake_storing {point : ReaderPoint} : point.wake = storing ↔ point = storing := by
  cases point <;> simp [wake]

theorem work_pos_of_scheduled {point : ReaderPoint} (scheduled : point.scheduled = true) :
    0 < point.work := by
  cases point with
  | yielding woken => cases woken <;> decide
  | sleeping => decide
  | waiting waiter =>
      cases waiter with
      | queued woken => cases woken <;> decide
      | entering | preparing | asleep => decide
  | outside | clearing | storing | starting | prepared | inPrint | arming | stopping =>
      contradiction

/-- A show that has scheduled something and is not yet left. -/
structure Settled (point : ReaderPoint) : Prop where
  late : point.late = true
  early : point.early = false
  scheduled : point.unscheduled = false
  timerOn : point.timerOff = false
  added : point.unadded = false
  nothing : point.adds = 0

theorem settled_iff {point : ReaderPoint} :
    point.Settled ↔ point.scheduled = true ∨ point = stopping := by
  constructor
  · intro settled
    cases point with
    | yielding | sleeping | waiting => exact .inl rfl
    | stopping => exact .inr rfl
    | outside | clearing | storing => exact absurd settled.late (by simp [late])
    | starting | prepared | inPrint | arming =>
        exact absurd settled.scheduled (by simp [unscheduled])
  · intro after
    cases point with
    | yielding | sleeping | waiting | stopping => exact ⟨rfl, rfl, rfl, rfl, rfl, rfl⟩
    | outside | clearing | storing | starting | prepared | inPrint | arming =>
        exact absurd after (by simp [scheduled])

theorem settled_of_scheduled {point : ReaderPoint} (scheduled : point.scheduled = true) :
    point.Settled :=
  settled_iff.mpr (.inl scheduled)

theorem Settled.ne_inPrint {point : ReaderPoint} (settled : point.Settled) (print : PrintPoint) :
    point ≠ inPrint print := by
  rintro rfl
  exact absurd settled.scheduled (by simp [unscheduled])

theorem ne_outside_of_late {point : ReaderPoint} (late : point.late = true) :
    point ≠ outside := by
  rintro rfl
  contradiction

theorem ne_storing_of_late {point : ReaderPoint} (late : point.late = true) :
    point ≠ storing := by
  rintro rfl
  contradiction

end ReaderPoint

section Moves

/-- `before` schedules, and goes on to `after`. -/
structure Schedules (file : JiqFile) (before after : ReaderPoint) : Prop where
  late : before.late = true
  stays : ∀ full signal, before.leaves file full signal = false
  nothing : before.adds = 0
  scheduled : after.scheduled = true
  suits : before.suits file = true → after.suits file = true
  work : after.work + 9 < before.work

/-- `before` has scheduled something, and goes on to `after`. -/
structure Waits (file : JiqFile) (full signal : Bool) (before after : ReaderPoint) : Prop where
  scheduled : before.scheduled = true
  stays : before.leaves file full signal = false
  settled : after.Settled
  suits : before.suits file = true → after.suits file = true
  asleep : after.needsWake = true → before.needsWake = true ∨ full = false
  work : signal = false → after.work < before.work

inductive ReaderMove (file : JiqFile) (sys : JiqSys) (signal : Bool) (moment : Moment) :
    JiqSys → Prop
  | clear (here : sys.reader = .clearing) :
      ReaderMove file sys signal moment { sys with len := 0, reader := .storing }
  | store (here : sys.reader = .storing) :
      ReaderMove file sys signal moment
        { sys with m := sys.shows, jiffies := moment.jiffies, reader := .starting }
  | prepare (here : sys.reader = .starting) (works : file = .wq ∨ file = .wqDelayed) :
      ReaderMove file sys signal moment (sys.at (.prepared false))
  | skip (here : sys.reader = .starting) (timer : file = .timer) :
      ReaderMove file sys signal moment (sys.at .arming)
  | begin (here : sys.reader = .starting) (timer : file = .timer) (few : sys.len ≤ LIMIT) :
      ReaderMove file sys signal moment (sys.at (.inPrint (.printing sys.m sys.len)))
  | print {point : PrintPoint} {next : JiqSys} (here : sys.reader = .inPrint point)
      (taken : readerProceed file sys signal moment (.inPrint point) = some next) :
      ReaderMove file sys signal moment next
  | schedule {before after : ReaderPoint} (here : sys.reader = before)
      (schedules : Schedules file before after) :
      ReaderMove file sys signal moment (sys.schedule.at after)
  | wait {before after : ReaderPoint} (here : sys.reader = before)
      (waits : Waits file (LIMIT < sys.len) signal before after) :
      ReaderMove file sys signal moment (sys.at after)
  | leave (scheduled : sys.reader.scheduled = true)
      (leaves : sys.reader.leaves file (LIMIT < sys.len) signal = true) :
      ReaderMove file sys signal moment (sys.at .outside)
  | stop (here : sys.reader = .stopping) (idle : sys.fn = .idle) :
      ReaderMove file sys signal moment { sys with pending := false, reader := .outside }

variable {file : JiqFile} {sys next : JiqSys} {moment : Moment} {signal : Bool}

theorem work_afterWait {waiter : Waiter} {progress : Progress} {holds : Bool}
    (taken : waiter.proceed holds false = some progress) :
    (afterWait file progress).work < (ReaderPoint.waiting waiter).work := by
  cases waiter with
  | asleep =>
      rw [Waiter.proceed_asleep] at taken
      contradiction
  | entering | preparing => cases holds <;> cases taken <;> cases file <;> decide
  | queued woken => cases holds <;> cases woken <;> cases taken <;> cases file <;> decide

theorem readerMove_waiting {waiter : Waiter} {progress : Progress}
    (here : sys.reader = .waiting waiter)
    (taken : waiter.proceed (LIMIT < sys.len) signal = some progress) :
    ReaderMove file sys signal moment (sys.at (afterWait file progress)) := by
  have leaves : (ReaderPoint.waiting waiter).leaves file (LIMIT < sys.len) signal =
      (file != .timer &&
        (some progress == some .passed || some progress == some .interrupted)) := by
    rw [ReaderPoint.leaves, taken]
  have less : signal = false →
      (afterWait file progress).work < (ReaderPoint.waiting waiter).work := by
    rintro rfl
    exact work_afterWait taken
  cases progress with
  | waits after =>
      refine .wait here ⟨rfl, ?_, ReaderPoint.settled_of_scheduled rfl, id, fun sleeps => .inr ?_, less⟩
      · rw [leaves]
        exact Bool.and_false _
      · by_contra many
        exact Waiter.awake_of_proceed taken (Bool.not_eq_false _ ▸ many) (beq_iff_eq.mp sleeps)
  | passed | interrupted =>
      by_cases timer : file = .timer
      · rw [afterWait, if_pos timer] at less ⊢
        refine .wait here ⟨rfl, ?_, ReaderPoint.settled_iff.mpr (.inr rfl),
          fun _ => beq_iff_eq.mpr timer, by rintro ⟨⟩, less⟩
        rw [leaves, timer]
        rfl
      · rw [afterWait, if_neg timer]
        refine .leave (here ▸ rfl) ?_
        rw [here, leaves, bne_iff_ne.mpr timer]
        rfl

theorem readerProceed_move
    (taken : readerProceed file sys signal moment sys.reader = some next) :
    ReaderMove file sys signal moment next := by
  cases here : sys.reader with
  | outside =>
      rw [here] at taken
      contradiction
  | clearing =>
      rw [here, readerProceed, Option.some.injEq] at taken
      exact taken ▸ .clear here
  | storing =>
      rw [here, readerProceed, Option.some.injEq] at taken
      exact taken ▸ .store here
  | starting =>
      cases file with
      | wq | wqDelayed =>
          rw [here, readerProceed, Option.some.injEq] at taken
          exact taken ▸ .prepare here (by simp)
      | timer =>
          rw [here, readerProceed] at taken
          split at taken
          · rw [Option.some.injEq] at taken
            exact taken ▸ .skip here rfl
          · rename_i few
            rw [Option.some.injEq] at taken
            exact taken ▸ .begin here rfl (Nat.not_lt.mp few)
      | tasklet =>
          rw [here, readerProceed, Option.some.injEq] at taken
          exact taken ▸ .schedule here ⟨rfl, fun _ _ => rfl, rfl, rfl, fun _ => rfl, by decide⟩
  | prepared woken =>
      rw [here, readerProceed, Option.some.injEq] at taken
      refine taken ▸ .schedule here ⟨rfl, fun _ _ => rfl, rfl, rfl, id, ?_⟩
      cases woken <;> decide
  | yielding woken =>
      rw [here, readerProceed, Option.some.injEq] at taken
      subst taken
      cases goes : woken || signal with
      | true => exact .leave (here ▸ rfl) (here ▸ goes)
      | false =>
          rw [Bool.or_eq_false_iff] at goes
          obtain ⟨rfl, rfl⟩ := goes
          exact .wait here ⟨rfl, rfl, ReaderPoint.settled_of_scheduled rfl, id, fun _ => .inl rfl,
            fun _ => by decide⟩
  | sleeping =>
      rw [here, readerProceed, Option.ite_none_right_eq_some, Option.some.injEq] at taken
      obtain ⟨signalled, rfl⟩ := taken
      exact .leave (here ▸ rfl) (here ▸ signalled)
  | inPrint point => exact .print here (here ▸ taken)
  | arming =>
      rw [here, readerProceed, Option.some.injEq] at taken
      refine taken ▸ .schedule here ⟨rfl, fun _ _ => rfl, rfl, rfl, fun timer => ?_, by decide⟩
      rw [ReaderPoint.suits, Bool.or_eq_true]
      exact .inl timer
  | waiting waiter =>
      rw [here, readerProceed, Option.map_eq_some_iff] at taken
      obtain ⟨progress, taken, rfl⟩ := taken
      exact readerMove_waiting here taken
  | stopping =>
      rw [here, readerProceed, Option.ite_none_right_eq_some, Option.some.injEq] at taken
      obtain ⟨idle, rfl⟩ := taken
      exact .stop here idle

end Moves

end Ldd3.Jiq
