import Mathlib.Tactic
import Ldd3.Locks.Spin
import Ldd3.Locks.Lines
import Ldd3.Lib.Measure

/-!
When the interrupt handler and the tasklet of the spinlock demo deadlock: `demo_tasklet_fn` takes
the lock with interrupts enabled.
-/

open scoped BigOperators

namespace Ldd3.Locks

variable {Cpu : Type} [DecidableEq Cpu] {sys next : SpinSys Cpu} {context : Context Cpu}
  {point : SpinPoint} {action : SpinAction Cpu} {cpu : Cpu}

/-- The handler needs the lock from the critical section that it has interrupted. -/
def Interrupted (sys : SpinSys Cpu) (cpu : Cpu) : Prop :=
  (sys.points (cpu, .irq)).asksIrq = true ∧ (sys.points (cpu, .base)).inSection = true

def Deadlocked (sys : SpinSys Cpu) : Prop := ∃ cpu, Interrupted sys cpu

/-- No interrupt arrives at a CPU that is between `spin_lock` and `spin_unlock`. -/
def Spares (sys : SpinSys Cpu) : SpinAction Cpu → Prop
  | .interrupt cpu => (sys.points (cpu, .base)).inSection = false
  | .procShow _ | .softirq _ | .proceed _ | .print _ => True

def SpinSys.work [Fintype Cpu] (sys : SpinSys Cpu) : Nat :=
  ∑ context, (sys.points context).toDo + 5 * sys.scheduled.isSome.toNat + sys.printing.length

def SpinAction.deferred : SpinAction Cpu → Bool
  | .softirq _ | .proceed _ | .print _ => true
  | .interrupt _ | .procShow _ => false

def Quiet (sys : SpinSys Cpu) : Prop :=
  (∀ context, sys.points context = .idle) ∧ sys.scheduled = none ∧ sys.printing = []

/-! What a step does at the context that takes it. -/

theorem spinProceed_cases (taken : spinProceed sys context (sys.points context) = some next) :
    ∃ point, next.points = Function.update sys.points context point ∧
      (point.asksIrq = true → (sys.points context).asksIrq = true) ∧
      point.toDo + 5 * next.scheduled.isSome.toNat + next.printing.length <
        (sys.points context).toDo + 5 * sys.scheduled.isSome.toNat + sys.printing.length := by
  cases here : sys.points context with
  | idle =>
      rw [here] at taken
      contradiction
  | showing since | tasklet | handler | showRead since irqc | showBoth since irqc bhc
  | taskletCounted | taskletDone | handlerCounted =>
      rw [here, spinProceed, Option.some.injEq] at taken
      subst taken
      refine ⟨_, rfl, by simp [SpinPoint.asksIrq], ?_⟩
      simp only [SpinSys.spinLock, SpinSys.spinUnlock, SpinSys.setPoint, SpinPoint.toDo,
        List.length_cons]
      omega
  | showLocking since | taskletLocking | handlerLocking =>
      rw [here, spinProceed, Option.ite_none_right_eq_some, Option.some.injEq] at taken
      obtain ⟨_, rfl⟩ := taken
      refine ⟨_, rfl, by simp [SpinPoint.asksIrq], ?_⟩
      simp only [SpinSys.setPoint, SpinPoint.toDo]
      omega
  | handlerUnlocked =>
      rw [here, spinProceed, Option.some.injEq] at taken
      subst taken
      refine ⟨_, rfl, by simp [SpinPoint.asksIrq], ?_⟩
      simp only [SpinSys.setPoint, taskletSchedule_some, SpinPoint.toDo, Bool.toNat_true]
      omega

theorem spinProceed_counts (queued : QueueLock.Queued SpinPoint.inSection SpinPoint.entered
      sys.lock sys.points)
    (taken : spinProceed sys context (sys.points context) = some next)
    (waits : sys.lock.head? ≠ some context) :
    next.irqCount = sys.irqCount ∧ next.bhCount = sys.bhCount ∧
      next.printing = sys.printing ∧ next.shown = sys.shown ∧ sys.lock <+: next.lock := by
  cases here : sys.points context with
  | idle =>
      rw [here] at taken
      contradiction
  | showing since | tasklet | handler =>
      rw [here, spinProceed, Option.some.injEq] at taken
      subst taken
      exact ⟨rfl, rfl, rfl, rfl, List.prefix_append _ _⟩
  | taskletDone | handlerUnlocked =>
      rw [here, spinProceed, Option.some.injEq] at taken
      subst taken
      exact ⟨rfl, rfl, rfl, rfl, List.prefix_rfl⟩
  | showLocking since | taskletLocking | handlerLocking =>
      rw [here, spinProceed, Option.ite_none_right_eq_some, owns_iff] at taken
      exact absurd taken.1 waits
  | showRead since irqc | showBoth since irqc bhc | taskletCounted | handlerCounted =>
      exact absurd (queued.owner context (here ▸ rfl)) waits

variable [Fintype Cpu]

/-! When a deadlock comes about. -/

theorem Interrupted.of_proceed (invariant : SpinInvariant sys)
    (taken : spinTake sys (.proceed context) = some next) (interrupted : Interrupted next cpu) :
    Interrupted sys cpu := by
  rw [spinTake, Option.ite_none_right_eq_some] at taken
  obtain ⟨onTop, proceeds⟩ := taken
  have busy : sys.points context ≠ .idle := by
    intro idle
    rw [idle] at proceeds
    contradiction
  obtain ⟨point, moved, asks, _⟩ := spinProceed_cases proceeds
  rw [Interrupted, moved] at interrupted
  obtain ⟨asksNext, inSection⟩ := interrupted
  by_cases irq : context = (cpu, .irq)
  · subst irq
    rw [Function.update_self] at asksNext
    rw [Function.update_of_ne (by simp)] at inSection
    exact ⟨asks asksNext, inSection⟩
  · rw [Function.update_of_ne (Ne.symm irq)] at asksNext
    by_cases base : context = (cpu, .base)
    · subst base
      rcases invariant.runs onTop busy with ⟨elsewhere, _⟩ | ⟨_, idle⟩
      · contradiction
      · rw [idle] at asksNext
        contradiction
    · rw [Function.update_of_ne (Ne.symm base)] at inSection
      exact ⟨asksNext, inSection⟩

theorem deadlocked_take (invariant : SpinInvariant sys) (free : ¬Deadlocked sys)
    (taken : spinTake sys action = some next) : ¬Deadlocked next ↔ Spares sys action := by
  cases action with
  | interrupt cpu =>
      rw [spinTake, Option.ite_none_right_eq_some, Option.some.injEq] at taken
      obtain ⟨_, rfl⟩ := taken
      have apart : ((cpu, .base) : Context Cpu) ≠ (cpu, .irq) := by simp
      constructor
      · intro freeNext
        by_contra inSection
        rw [Spares, Bool.not_eq_false] at inSection
        refine freeNext ⟨cpu, ?_, ?_⟩
        · simp only [SpinSys.setPoint, Function.update_self, SpinPoint.asksIrq]
        · simp only [SpinSys.setPoint, Function.update_of_ne apart, inSection]
      · rintro spares ⟨other, asks, inSection⟩
        simp only [SpinSys.setPoint] at asks inSection
        rw [Function.update_of_ne (by simp)] at inSection
        by_cases same : other = cpu
        · rw [Spares] at spares
          rw [same, spares] at inSection
          contradiction
        · rw [Function.update_of_ne (by simp [same])] at asks
          exact free ⟨other, asks, inSection⟩
  | procShow cpu | softirq cpu =>
      rw [spinTake, Option.ite_none_right_eq_some, Option.some.injEq] at taken
      obtain ⟨_, rfl⟩ := taken
      refine iff_of_true ?_ trivial
      rintro ⟨other, asks, inSection⟩
      simp only [SpinSys.setPoint] at asks inSection
      rw [Function.update_of_ne (by simp)] at asks
      by_cases same : other = cpu
      · rw [same, Function.update_self] at inSection
        contradiction
      · rw [Function.update_of_ne (by simp [same])] at inSection
        exact free ⟨other, asks, inSection⟩
  | proceed context =>
      refine iff_of_true ?_ trivial
      rintro ⟨other, interrupted⟩
      exact free ⟨other, interrupted.of_proceed invariant taken⟩
  | print index =>
      obtain ⟨line, _, rfl⟩ := Option.map_eq_some_iff.mp taken
      exact iff_of_true free trivial

theorem deadlocked_step (invariant : SpinInvariant sys) (free : ¬Deadlocked sys)
    (taken : spinStep sys action = some next) : ¬Deadlocked next ↔ Spares sys action := by
  obtain ⟨after, took, rfl⟩ := spinStep_inv taken
  have spared := deadlocked_take invariant free took
  exact spared

/-! That it stays. -/

omit [DecidableEq Cpu] in
theorem Interrupted.behind (invariant : SpinInvariant sys) (interrupted : Interrupted sys cpu)
    (waits : sys.points (cpu, .irq) = .handlerLocking) : sys.lock.head? ≠ some (cpu, .irq) := by
  intro owns
  have listed := invariant.ordered cpu waits interrupted.2
  obtain ⟨split, absent⟩ := invariant.queued.tail_of_head owns
  rw [split] at listed
  cases listed with
  | cons _ later => exact absent (later.subset (List.mem_cons_of_mem _ List.mem_cons_self))

omit [Fintype Cpu] in
theorem Interrupted.elsewhere {other : Cpu} {level : Level} (interrupted : Interrupted sys cpu)
    (apart : cpu ≠ other)
    (moved : next.points = Function.update sys.points (other, level) point) :
    Interrupted next cpu := by
  rw [Interrupted, moved, Function.update_of_ne (by simp [apart]),
    Function.update_of_ne (by simp [apart])]
  exact interrupted

theorem Interrupted.take (invariant : SpinInvariant sys) (interrupted : Interrupted sys cpu)
    (taken : spinTake sys action = some next) : Interrupted next cpu := by
  obtain ⟨asks, inSection⟩ := interrupted
  have busy : sys.points (cpu, .irq) ≠ .idle := by
    intro idle
    rw [idle] at asks
    contradiction
  cases action with
  | interrupt other =>
      rw [spinTake, Option.ite_none_right_eq_some, Option.some.injEq] at taken
      obtain ⟨⟨idle, _⟩, rfl⟩ := taken
      exact Interrupted.elsewhere ⟨asks, inSection⟩ (fun same => busy (same ▸ idle)) rfl
  | procShow other =>
      rw [spinTake, Option.ite_none_right_eq_some, Option.some.injEq, cpuIdle_iff] at taken
      obtain ⟨⟨_, idle⟩, rfl⟩ := taken
      exact Interrupted.elsewhere ⟨asks, inSection⟩ (fun same => busy (same ▸ idle)) rfl
  | softirq other =>
      rw [spinTake, Option.ite_none_right_eq_some, Option.some.injEq, cpuIdle_iff] at taken
      obtain ⟨⟨⟨_, idle⟩, _⟩, rfl⟩ := taken
      exact Interrupted.elsewhere ⟨asks, inSection⟩ (fun same => busy (same ▸ idle)) rfl
  | proceed context =>
      rw [spinTake, Option.ite_none_right_eq_some] at taken
      obtain ⟨onTop, proceeds⟩ := taken
      by_cases base : context = (cpu, .base)
      · subst base
        exact absurd (by simpa [SpinSys.onTop] using onTop) busy
      by_cases irq : context = (cpu, .irq)
      · subst irq
        -- the handler can only queue up behind what it has interrupted
        cases here : sys.points (cpu, .irq) with
        | handler =>
            rw [here, spinProceed, Option.some.injEq] at proceeds
            subst proceeds
            refine ⟨?_, ?_⟩
            · simp only [SpinSys.spinLock, SpinSys.setPoint, Function.update_self,
                SpinPoint.asksIrq]
            · simp only [SpinSys.spinLock, SpinSys.setPoint]
              rw [Function.update_of_ne (by simp)]
              exact inSection
        | handlerLocking =>
            rw [here, spinProceed, Option.ite_none_right_eq_some, owns_iff] at proceeds
            exact absurd proceeds.1 (Interrupted.behind invariant ⟨asks, inSection⟩ here)
        | idle | showing | showLocking | showRead | showBoth | tasklet | taskletLocking
        | taskletCounted | taskletDone | handlerCounted | handlerUnlocked =>
            rw [here] at asks
            contradiction
      · obtain ⟨point, moved, _⟩ := spinProceed_cases proceeds
        rw [Interrupted, moved, Function.update_of_ne (Ne.symm base),
          Function.update_of_ne (Ne.symm irq)]
        exact ⟨asks, inSection⟩
  | print index =>
      obtain ⟨line, _, rfl⟩ := Option.map_eq_some_iff.mp taken
      exact ⟨asks, inSection⟩

theorem Interrupted.step (invariant : SpinInvariant sys) (interrupted : Interrupted sys cpu)
    (taken : spinStep sys action = some next) : Interrupted next cpu := by
  obtain ⟨after, took, rfl⟩ := spinStep_inv taken
  have still := interrupted.take invariant took
  exact still

def SpinSys.linesRead (sys : SpinSys Cpu) : Nat := sys.printing.length + sys.shown.length

theorem Interrupted.frozen_take (invariant : SpinInvariant sys) (interrupted : Interrupted sys cpu)
    (owns : sys.lock.head? = some (cpu, .base)) (taken : spinTake sys action = some next) :
    next.irqCount = sys.irqCount ∧ next.bhCount = sys.bhCount ∧
      next.linesRead = sys.linesRead ∧ next.lock.head? = some (cpu, .base) := by
  cases action with
  | interrupt other | procShow other | softirq other =>
      rw [spinTake, Option.ite_none_right_eq_some, Option.some.injEq] at taken
      obtain ⟨_, rfl⟩ := taken
      exact ⟨rfl, rfl, rfl, owns⟩
  | proceed context =>
      rw [spinTake, Option.ite_none_right_eq_some] at taken
      obtain ⟨onTop, proceeds⟩ := taken
      have waits : sys.lock.head? ≠ some context := by
        intro also
        have base : context = (cpu, .base) := Option.some.inj (also.symm.trans owns)
        subst base
        have idle : sys.points (cpu, .irq) = .idle := by simpa [SpinSys.onTop] using onTop
        have asks := interrupted.1
        rw [idle] at asks
        contradiction
      obtain ⟨irqs, bhs, printing, shown, grown⟩ :=
        spinProceed_counts invariant.queued proceeds waits
      refine ⟨irqs, bhs, by rw [SpinSys.linesRead, printing, shown, SpinSys.linesRead], ?_⟩
      obtain ⟨later, split⟩ := grown
      rw [← split, List.head?_append, owns]
      rfl
  | print index =>
      obtain ⟨line, found, rfl⟩ := Option.map_eq_some_iff.mp taken
      have inside := (List.getElem?_eq_some_iff.mp found).choose
      refine ⟨rfl, rfl, ?_, owns⟩
      simp only [SpinSys.linesRead, List.length_eraseIdx_of_lt inside, List.length_cons]
      omega

theorem Interrupted.frozen_step (invariant : SpinInvariant sys) (interrupted : Interrupted sys cpu)
    (owns : sys.lock.head? = some (cpu, .base)) (taken : spinStep sys action = some next) :
    next.irqCount = sys.irqCount ∧ next.bhCount = sys.bhCount ∧
      next.linesRead = sys.linesRead ∧ next.lock.head? = some (cpu, .base) := by
  obtain ⟨after, took, rfl⟩ := spinStep_inv taken
  have frozen := interrupted.frozen_take invariant owns took
  exact frozen

/-! What happens otherwise. -/

omit [Fintype Cpu] in
theorem proceed_possible (onTop : sys.onTop context = true)
    (left : ∃ next, spinProceed sys context (sys.points context) = some next) :
    ∃ action next, action.deferred = true ∧ spinStep sys action = some next := by
  obtain ⟨next, proceeds⟩ := left
  exact ⟨.proceed context, next.record, rfl, spinStep_of_take ((if_pos onTop).trans proceeds)⟩

theorem SpinInvariant.quiet_or_busy (invariant : SpinInvariant sys)
    (unlocked : sys.lock = []) (notQuiet : ¬Quiet sys) :
    ∃ action next, action.deferred = true ∧ spinStep sys action = some next := by
  have outside : ∀ context, (sys.points context).inSection = false := by
    intro context
    by_contra inSection
    have listed := (invariant.queued.member context).mp (Bool.not_eq_false _ ▸ inSection)
    rw [unlocked] at listed
    contradiction
  have goesOn : ∀ context, sys.onTop context = true → sys.points context ≠ .idle →
      ∃ action next, action.deferred = true ∧ spinStep sys action = some next := by
    intro context onTop busy
    apply proceed_possible onTop
    have here := outside context
    cases point : sys.points context with
    | idle => contradiction
    | showing | tasklet | handler | taskletDone | handlerUnlocked => exact ⟨_, rfl⟩
    | showLocking | showRead | showBoth | taskletLocking | taskletCounted | handlerLocking
    | handlerCounted =>
        rw [point] at here
        contradiction
  by_cases handlers : ∀ cpu, sys.points (cpu, .irq) = .idle
  · by_cases bases : ∀ cpu, sys.points (cpu, .base) = .idle
    · have idle : ∀ context, sys.points context = .idle := by
        rintro ⟨cpu, level⟩
        cases level with
        | base => exact bases cpu
        | irq => exact handlers cpu
      cases scheduled : sys.scheduled with
      | none =>
          have waits : sys.printing ≠ [] := fun printed => notQuiet ⟨idle, scheduled, printed⟩
          have inside : 0 < sys.printing.length := List.length_pos_iff.mpr waits
          have first := List.getElem?_eq_getElem inside
          exact ⟨.print 0, _, rfl, spinStep_of_take (by rw [spinTake, first]; rfl)⟩
      | some cpu =>
          have nobody : sys.running = none := by
            by_contra somebody
            obtain ⟨context, holds⟩ := invariant.running.exists_iff.mpr somebody
            rw [idle context] at holds
            contradiction
          have cpuIdle := cpuIdle_iff.mpr ⟨bases cpu, handlers cpu⟩
          exact ⟨.softirq cpu, _, rfl, spinStep_of_take (if_pos ⟨cpuIdle, scheduled, nobody⟩)⟩
    · push Not at bases
      obtain ⟨cpu, busy⟩ := bases
      refine goesOn (cpu, .base) ?_ busy
      simp only [SpinSys.onTop, handlers cpu, beq_self_eq_true, Bool.or_true]
  · push Not at handlers
    obtain ⟨cpu, busy⟩ := handlers
    exact goesOn (cpu, .irq) rfl busy

theorem SpinInvariant.goes_on (invariant : SpinInvariant sys) (free : ¬Deadlocked sys)
    (notQuiet : ¬Quiet sys) :
    ∃ action next, action.deferred = true ∧ spinStep sys action = some next := by
  cases owner : sys.lock.head? with
  | none => exact invariant.quiet_or_busy (List.head?_eq_none_iff.mp owner) notQuiet
  | some context =>
      have listed : context ∈ sys.lock := List.mem_of_mem_head? owner
      have inSection := (invariant.queued.member context).mpr listed
      have owns := owns_iff.mpr owner
      have left : ∃ next, spinProceed sys context (sys.points context) = some next := by
        cases point : sys.points context with
        | idle | showing | tasklet | taskletDone | handler | handlerUnlocked =>
            rw [point] at inSection
            contradiction
        | showLocking | taskletLocking | handlerLocking => exact ⟨_, if_pos owns⟩
        | showRead | showBoth | taskletCounted | handlerCounted => exact ⟨_, rfl⟩
      by_cases onTop : sys.onTop context = true
      · exact proceed_possible onTop left
      · obtain ⟨cpu, level⟩ := context
        simp only [SpinSys.onTop, Bool.or_eq_true, beq_iff_eq, not_or] at onTop
        obtain ⟨base, busy⟩ := onTop
        have atBase : level = .base := by
          cases level with
          | base => rfl
          | irq => contradiction
        subst atBase
        -- the handler on top is neither before nor in its critical section
        have onTop : sys.onTop (cpu, .irq) = true := rfl
        apply proceed_possible onTop
        cases point : sys.points (cpu, .irq) with
        | idle => contradiction
        | handlerUnlocked => exact ⟨_, rfl⟩
        | handler | handlerLocking => exact absurd ⟨cpu, point ▸ rfl, inSection⟩ free
        | handlerCounted | showRead | showBoth | taskletCounted =>
            have elsewhere := invariant.queued.owner (cpu, .irq) (point ▸ rfl)
            rw [owner] at elsewhere
            simp at elsewhere
        | showing | showLocking | tasklet | taskletLocking | taskletDone =>
            have level := invariant.placed.level (cpu, .irq) .base (point ▸ rfl)
            contradiction

def Free (sys : SpinSys Cpu) : Prop := SpinBooks sys ∧ ¬Deadlocked sys

theorem work_take (deferred : action.deferred = true) (taken : spinTake sys action = some next) :
    next.work < sys.work := by
  cases action with
  | interrupt | procShow => contradiction
  | softirq cpu =>
      rw [spinTake, Option.ite_none_right_eq_some, Option.some.injEq, cpuIdle_iff] at taken
      obtain ⟨⟨⟨idle, _⟩, scheduled, _⟩, rfl⟩ := taken
      have sums := Counting.sum_update_nat sys.points (cpu, .base) .tasklet SpinPoint.toDo
      rw [idle] at sums
      simp only [SpinSys.work, SpinSys.setPoint, scheduled, Option.isSome_some, Option.isSome_none,
        Bool.toNat_true, Bool.toNat_false, SpinPoint.toDo] at sums ⊢
      omega
  | proceed context =>
      rw [spinTake, Option.ite_none_right_eq_some] at taken
      obtain ⟨point, moved, _, fewer⟩ := spinProceed_cases taken.2
      have sums := Counting.sum_update_nat sys.points context point SpinPoint.toDo
      rw [SpinSys.work, SpinSys.work, moved]
      omega
  | print index =>
      obtain ⟨line, found, rfl⟩ := Option.map_eq_some_iff.mp taken
      have inside := (List.getElem?_eq_some_iff.mp found).choose
      simp only [SpinSys.work, List.length_eraseIdx_of_lt inside]
      omega

theorem deferred_uses :
    StepMachine.Uses spinStep (@Free Cpu _) (fun action => action.deferred = true)
      SpinSys.work := by
  rintro sys action next ⟨books, free⟩ deferred taken
  have spares : Spares sys action := by
    cases action with
    | interrupt | procShow => contradiction
    | softirq | proceed | print => trivial
  refine ⟨⟨spinBooks_step books taken,
    (deadlocked_step books.toSpinInvariant free taken).mpr spares⟩, ?_⟩
  obtain ⟨after, took, rfl⟩ := spinStep_inv taken
  have fewer := work_take deferred took
  exact fewer

/-- What the counters of the demo are worth in a state of a run. A printed line is a snapshot;
any two are in order, as they are when the one was printed before the other show began. -/
structure SpinReport (sys : SpinSys Cpu) : Prop where
  snapshots : ∀ line ∈ sys.shown, line.SeenIn sys.history line.upTo ∧ line.bhc ≤ line.irqc
  comparable : ∀ first ∈ sys.shown, ∀ second ∈ sys.shown,
    NotAfter (first.irqc, first.bhc) (second.irqc, second.bhc) ∨
      NotAfter (second.irqc, second.bhc) (first.irqc, first.bhc)
  sorted : ∀ first ∈ sys.shown, ∀ second ∈ sys.shown, first.upTo ≤ second.since →
    NotAfter (first.irqc, first.bhc) (second.irqc, second.bhc)
  stuck : ∀ cpu, Interrupted sys cpu → ∀ later final,
    StepMachine.run spinStep sys later = some final → Interrupted final cpu ∧
      (sys.lock.head? = some (cpu, .base) → final.irqCount = sys.irqCount ∧
        final.bhCount = sys.bhCount ∧ final.linesRead = sys.linesRead)
  settles : ¬Deadlocked sys → ∀ later final, (∀ action ∈ later, action.deferred = true) →
    StepMachine.run spinStep sys later = some final →
      later.length ≤ sys.work ∧
        (Quiet final ∧ final.covered = final.irqCount ∨
          ∃ action next, action.deferred = true ∧ spinStep final action = some next)

omit [DecidableEq Cpu] in
theorem SpinInvariant.covered_of_quiet (invariant : SpinInvariant sys) (quiet : Quiet sys) :
    sys.covered = sys.irqCount := by
  rcases invariant.covered with covered | scheduled | ⟨context, schedules⟩
  · exact covered
  · exact absurd quiet.2.1 scheduled
  · rw [quiet.1 context] at schedules
    contradiction

theorem SpinBooks.report (books : SpinBooks sys) : SpinReport sys where
  snapshots := by
    intro line listed
    have seen := books.lines.shown line listed
    exact ⟨seen, books.lines.below _ seen.mem⟩
  comparable := by
    intro first firstListed second secondListed
    obtain ⟨firstMoment, _, _, atFirst⟩ := books.lines.shown first firstListed
    obtain ⟨secondMoment, _, _, atSecond⟩ := books.lines.shown second secondListed
    rcases le_total firstMoment secondMoment with order | order
    · exact .inl (getElem?_notAfter books.lines.later order atFirst atSecond)
    · exact .inr (getElem?_notAfter books.lines.later order atSecond atFirst)
  sorted := by
    intro first firstListed second secondListed apart
    obtain ⟨firstMoment, _, before, atFirst⟩ := books.lines.shown first firstListed
    obtain ⟨secondMoment, after, _, atSecond⟩ := books.lines.shown second secondListed
    have order : firstMoment ≤ secondMoment := before.le.trans (apart.trans after)
    exact getElem?_notAfter books.lines.later order atFirst atSecond
  stuck := by
    intro cpu interrupted later final ran
    constructor
    · have kept : ∀ state action next, SpinBooks state ∧ Interrupted state cpu →
          True → spinStep state action = some next →
          SpinBooks next ∧ Interrupted next cpu :=
        fun _ _ _ holds _ taken =>
          ⟨spinBooks_step holds.1 taken, holds.2.step holds.1.toSpinInvariant taken⟩
      exact (StepMachine.run_invariant kept ⟨books, interrupted⟩
        (StepMachine.meets_true _ _) ran).2
    · intro owns
      have kept : ∀ state action next,
          (SpinBooks state ∧ Interrupted state cpu) ∧
            state.irqCount = sys.irqCount ∧ state.bhCount = sys.bhCount ∧
            state.linesRead = sys.linesRead ∧ state.lock.head? = some (cpu, .base) →
          True → spinStep state action = some next →
          (SpinBooks next ∧ Interrupted next cpu) ∧
            next.irqCount = sys.irqCount ∧ next.bhCount = sys.bhCount ∧
            next.linesRead = sys.linesRead ∧ next.lock.head? = some (cpu, .base) := by
        rintro state action next ⟨⟨holds, still⟩, irqs, bhs, lines, first⟩ _ taken
        have invariant := holds.toSpinInvariant
        obtain ⟨sameIrqs, sameBhs, sameLines, sameFirst⟩ := still.frozen_step invariant first taken
        exact ⟨⟨spinBooks_step holds taken, still.step invariant taken⟩, sameIrqs.trans irqs,
          sameBhs.trans bhs, sameLines.trans lines, sameFirst⟩
      obtain ⟨_, irqs, bhs, lines, _⟩ := StepMachine.run_invariant kept
        ⟨⟨books, interrupted⟩, rfl, rfl, rfl, owns⟩ (StepMachine.meets_true _ _) ran
      exact ⟨irqs, bhs, lines⟩
  settles := by
    intro free later final listed ran
    obtain ⟨kept, bound⟩ := deferred_uses.run ⟨books, free⟩ listed ran
    refine ⟨by omega, ?_⟩
    by_cases quiet : Quiet final
    · exact .inl ⟨quiet, kept.1.covered_of_quiet quiet⟩
    · exact .inr (kept.1.goes_on kept.2 quiet)

/-- The demo never deadlocks exactly in the runs in which no interrupt arrives at a CPU inside of
its critical section. -/
theorem spin_demo_deadlocks_iff (actions : List (SpinAction Cpu)) :
    (StepMachine.Always spinStep (fun sys => ¬Deadlocked sys) (.loaded Cpu) actions ↔
        StepMachine.Meets spinStep Spares (.loaded Cpu) actions) ∧
      StepMachine.Always spinStep SpinReport (.loaded Cpu) actions := by
  constructor
  · have idle : ¬Deadlocked (.loaded Cpu) := by
      rintro ⟨cpu, asks, _⟩
      contradiction
    exact StepMachine.always_iff_meets
      (fun _ _ _ books _ taken => spinBooks_step books taken)
      (fun _ _ _ books free taken => deadlocked_step books.toSpinInvariant free taken)
      actions spinBooks_loaded idle
  · exact StepMachine.always_of_meets
      (fun _ _ _ books _ taken => spinBooks_step books taken)
      (fun _ books => books.report) spinBooks_loaded (StepMachine.meets_true _ _)

end Ldd3.Locks
