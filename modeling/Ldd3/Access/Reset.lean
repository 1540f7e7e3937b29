import Mathlib.Tactic
import Ldd3.Lib.Semaphore
import Ldd3.Lib.StepMachine
import Ldd3.Access.Core

/-!
When `scull_dev_reset` runs beside a critical section of `scull_read` or `scull_write`
on the same device. Only the open of the bare device takes `dev->sem` for the reset.
-/

namespace Ldd3.Access

variable {Pid File : Type}

def Point.isResetting : Point File → Bool
  | .resetting _ => true
  | _ => false

def Point.isInSection : Point File → Bool
  | .inSection _ => true
  | _ => false

def holdsSem (kind : Kind) (point : Point File) : Bool :=
  point.isInSection || point.isResetting && decide (kind = .bare)

def Point.belongs (kind : Kind) : Point File → Bool
  | .openDown _ => decide (kind = .bare)
  | .wuidTest _ _ _ => decide (kind = .wuid)
  | .wuidWait _ _ => decide (kind = .wuid)
  | .wuidAsleep _ _ => decide (kind = .wuid)
  | .entering _ _ => decide (kind ≠ .bare)
  | _ => true

def Apart (points : Pid → Point File) : Prop :=
  ∀ resetter caller, (points resetter).isResetting = true → (points caller).isInSection = false

def NoResetInSection (sys : AccessSys Pid File) : Prop := Apart sys.points

/-- The process goes on to the reset, which it makes without `dev->sem`. -/
def StartsReset (sys : AccessSys Pid File) : AccessAction Pid File → Prop
  | .proceed pid _ => ∃ file, sys.points pid = .entering file .writeOnly
  | _ => False

def TakesSem (sys : AccessSys Pid File) : AccessAction Pid File → Prop
  | .proceed pid interrupted =>
      (∃ file, sys.points pid = .callDown file) ∧ interrupted = false
  | _ => False

/-- A reset starts only while `dev->sem` is free, and no call takes it before the reset ends. -/
def ResetsAlone (sys : AccessSys Pid File) (action : AccessAction Pid File) : Prop :=
  (StartsReset sys action → 0 < sys.sem) ∧
    (TakesSem sys action → ∀ pid, (sys.points pid).isResetting = false)

structure LockInvariant [Fintype Pid] (kind : Kind) (sys : AccessSys Pid File) : Prop where
  balanced : Semaphore.Balanced (holdsSem kind) sys.sem sys.points
  belongs : ∀ pid, (sys.points pid).belongs kind = true

def Point.Outside (point : Point File) : Prop :=
  point.isResetting = false ∧ point.isInSection = false

inductive LockMove [DecidableEq Pid] (kind : Kind) (sys : AccessSys Pid File)
    (action : AccessAction Pid File) (next : AccessSys Pid File) : Prop
  | same (sem : next.sem = sys.sem) (points : next.points = sys.points)
      (starts : ¬ StartsReset sys action) (takes : ¬ TakesSem sys action)
  | outside {pid : Pid} {point : Point File} (sem : next.sem = sys.sem)
      (points : next.points = Function.update sys.points pid point)
      (before : (sys.points pid).Outside) (after : point.Outside)
      (belongs : point.belongs kind = true)
      (starts : ¬ StartsReset sys action) (takes : ¬ TakesSem sys action)
  | startsReset {pid : Pid} {file : File} (sem : next.sem = sys.sem)
      (points : next.points = Function.update sys.points pid (.resetting file))
      (before : (sys.points pid).Outside) (shared : kind ≠ .bare)
      (starts : StartsReset sys action) (takes : ¬ TakesSem sys action)
  | locksReset {pid : Pid} {file : File} (free : 0 < sys.sem) (sem : next.sem = sys.sem - 1)
      (points : next.points = Function.update sys.points pid (.resetting file))
      (before : (sys.points pid).Outside) (bare : kind = .bare)
      (starts : ¬ StartsReset sys action) (takes : ¬ TakesSem sys action)
  | endsReset {pid : Pid} {file : File} (here : sys.points pid = .resetting file)
      (sem : next.sem = if kind = .bare then sys.sem + 1 else sys.sem)
      (points : next.points = Function.update sys.points pid .idle)
      (starts : ¬ StartsReset sys action) (takes : ¬ TakesSem sys action)
  | locksCall {pid : Pid} {file : File} (free : 0 < sys.sem) (sem : next.sem = sys.sem - 1)
      (points : next.points = Function.update sys.points pid (.inSection file))
      (before : (sys.points pid).Outside)
      (starts : ¬ StartsReset sys action) (takes : TakesSem sys action)
  | endsCall {pid : Pid} {file : File} (here : sys.points pid = .inSection file)
      (sem : next.sem = sys.sem + 1)
      (points : next.points = Function.update sys.points pid .idle)
      (starts : ¬ StartsReset sys action) (takes : ¬ TakesSem sys action)
  | wakes {pid : Pid} (here : sys.points pid = .wakeOpeners) (sem : next.sem = sys.sem)
      (points : next.points =
        Function.update (fun other => wakeOpener (sys.points other)) pid .idle)
      (starts : ¬ StartsReset sys action) (takes : ¬ TakesSem sys action)

theorem holdsSem_outside (kind : Kind) {point : Point File} (outside : point.Outside) :
    holdsSem kind point = false := by
  simp only [holdsSem, outside.1, outside.2, Bool.false_and, Bool.or_self]

theorem holdsSem_inSection (kind : Kind) (file : File) :
    holdsSem kind (.inSection file) = true := rfl

theorem holdsSem_resetting (kind : Kind) (file : File) :
    holdsSem kind (.resetting file) = decide (kind = .bare) := rfl

theorem wakeOpener_same (kind : Kind) (point : Point File) :
    (wakeOpener point).isResetting = point.isResetting ∧
      (wakeOpener point).isInSection = point.isInSection ∧
      (wakeOpener point).belongs kind = point.belongs kind := by
  cases point <;> exact ⟨rfl, rfl, rfl⟩

theorem holdsSem_wakeOpener (kind : Kind) (point : Point File) :
    holdsSem kind (wakeOpener point) = holdsSem kind point := by
  obtain ⟨resets, calls, _⟩ := wakeOpener_same kind point
  simp only [holdsSem, resets, calls]

theorem LockInvariant.free_iff_shared [Fintype Pid] {kind : Kind} {sys : AccessSys Pid File}
    (invariant : LockInvariant kind sys) (shared : kind ≠ .bare) :
    0 < sys.sem ↔ ∀ pid, (sys.points pid).isInSection = false := by
  rw [invariant.balanced.free_iff]
  simp only [holdsSem, decide_eq_false shared, Bool.and_false, Bool.or_false]

theorem LockInvariant.free [Fintype Pid] {kind : Kind} {sys : AccessSys Pid File}
    (invariant : LockInvariant kind sys) (free : 0 < sys.sem) (pid : Pid) :
    (sys.points pid).isInSection = false ∧
      (kind = .bare → (sys.points pid).isResetting = false) := by
  have unheld := invariant.balanced.free_iff.mp free pid
  simp only [holdsSem, Bool.or_eq_false_iff, Bool.and_eq_false_iff] at unheld
  refine ⟨unheld.1, ?_⟩
  intro bare
  rcases unheld.2 with idle | shared
  · exact idle
  · simp [bare] at shared

theorem lockInvariant_loaded [Fintype Pid] (kind : Kind) (owner : Nat) :
    LockInvariant kind (AccessSys.loaded Pid File owner) := by
  constructor
  · refine ⟨by simp [AccessSys.loaded], ?_⟩
    have free : Semaphore.weight (holdsSem kind) (Point.idle : Point File) = 0 :=
      Semaphore.weight_free rfl
    simp only [AccessSys.loaded, free, Finset.sum_const_zero, add_zero]
  · intro pid
    rfl

variable [DecidableEq Pid]

theorem enter_move [DecidableEq File] {kind : Kind} {sys base : AccessSys Pid File}
    {action : AccessAction Pid File} {pid : Pid} {file : File} {mode : AccMode}
    (sem : base.sem = sys.sem) (points : base.points = sys.points)
    (before : (sys.points pid).Outside) (shared : kind ≠ .bare)
    (starts : ¬ StartsReset sys action) (takes : ¬ TakesSem sys action) :
    LockMove kind sys action (base.enter pid file mode) := by
  have moved : (base.enter pid file mode).points =
      Function.update sys.points pid (.entering file mode) := by
    simp only [AccessSys.enter, AccessSys.setPoint, AccessSys.setFile, points]
  exact .outside sem moved before ⟨rfl, rfl⟩ (decide_eq_true shared) starts takes

theorem accessProceed_move [DecidableEq File] [Fintype Pid] {kind : Kind} {creds : Pid → Cred}
    {sys next : AccessSys Pid File} {pid : Pid} {interrupted : Bool}
    (invariant : LockInvariant kind sys)
    (taken : accessProceed kind (creds pid) sys pid interrupted (sys.points pid) = some next) :
    LockMove kind sys (.proceed pid interrupted) next := by
  have belongs := invariant.belongs pid
  have quiet : (∀ file, sys.points pid ≠ .callDown file) →
      ¬ TakesSem sys (.proceed pid interrupted) := by
    rintro notDown ⟨⟨file, down⟩, _⟩
    exact notDown file down
  have still : (∀ file mode, sys.points pid ≠ .entering file mode) →
      ¬ StartsReset sys (.proceed pid interrupted) := by
    rintro notEntering ⟨file, entering⟩
    exact notEntering file .writeOnly entering
  cases here : sys.points pid with
  | idle => simp [here, accessProceed] at taken
  | wuidAsleep file mode => simp [here, accessProceed] at taken
  | wuidTest file mode nonblock =>
      have takes := quiet (by simp [here])
      have starts := still (by simp [here])
      have before : (sys.points pid).Outside := by rw [here]; exact ⟨rfl, rfl⟩
      have wuid : kind = .wuid := by simpa [here, Point.belongs] using belongs
      simp only [here, accessProceed, Option.some.injEq, scullWuidOpenLoop] at taken
      split at taken
      · subst taken
        refine enter_move ?_ ?_ before (by simp [wuid]) starts takes
        · rfl
        · rfl
      · split at taken
        · subst taken
          exact .outside rfl rfl before ⟨rfl, rfl⟩ rfl starts takes
        · subst taken
          exact .outside rfl rfl before ⟨rfl, rfl⟩ (by simp [Point.belongs, wuid]) starts takes
  | wuidWait file mode =>
      have takes := quiet (by simp [here])
      have starts := still (by simp [here])
      have before : (sys.points pid).Outside := by rw [here]; exact ⟨rfl, rfl⟩
      have wuid : kind = .wuid := by simpa [here, Point.belongs] using belongs
      simp only [here, accessProceed] at taken
      split at taken
      · cases taken
        exact .outside rfl rfl before ⟨rfl, rfl⟩ (by simp [Point.belongs, wuid]) starts takes
      · split at taken
        · cases taken
          exact .outside rfl rfl before ⟨rfl, rfl⟩ rfl starts takes
        · cases taken
          exact .outside rfl rfl before ⟨rfl, rfl⟩ (by simp [Point.belongs, wuid]) starts takes
  | openDown file =>
      have takes := quiet (by simp [here])
      have starts := still (by simp [here])
      have before : (sys.points pid).Outside := by rw [here]; exact ⟨rfl, rfl⟩
      have bare : kind = .bare := by simpa [here, Point.belongs] using belongs
      simp only [here, accessProceed] at taken
      split at taken
      · cases taken
        exact .outside rfl rfl before ⟨rfl, rfl⟩ rfl starts takes
      · split at taken
        · rename_i free
          cases taken
          exact .locksReset free rfl rfl before bare starts takes
        · contradiction
  | entering file mode =>
      have takes := quiet (by simp [here])
      have before : (sys.points pid).Outside := by rw [here]; exact ⟨rfl, rfl⟩
      have shared : kind ≠ .bare := by simpa [here, Point.belongs] using belongs
      simp only [here, accessProceed] at taken
      split at taken
      · rename_i writeOnly
        cases taken
        exact .startsReset rfl rfl before shared ⟨file, by rw [here, writeOnly]⟩ takes
      · rename_i reads
        cases taken
        refine .outside rfl rfl before ⟨rfl, rfl⟩ rfl ?_ takes
        rintro ⟨other, entering⟩
        rw [here, Point.entering.injEq] at entering
        exact reads entering.2
  | resetting file =>
      have takes := quiet (by simp [here])
      have starts := still (by simp [here])
      simp only [here, accessProceed, Option.some.injEq] at taken
      subst taken
      exact .endsReset here rfl rfl starts takes
  | callDown file =>
      have starts := still (by simp [here])
      have before : (sys.points pid).Outside := by rw [here]; exact ⟨rfl, rfl⟩
      simp only [here, accessProceed] at taken
      split at taken
      · rename_i signalled
        cases taken
        have takes : ¬ TakesSem sys (.proceed pid interrupted) := by
          simp [TakesSem, signalled]
        exact .outside rfl rfl before ⟨rfl, rfl⟩ rfl starts takes
      · rename_i unsignalled
        split at taken
        · rename_i free
          cases taken
          exact .locksCall free rfl rfl before starts ⟨⟨file, here⟩, by simpa using unsignalled⟩
        · contradiction
  | inSection file =>
      have takes := quiet (by simp [here])
      have starts := still (by simp [here])
      simp only [here, accessProceed, Option.some.injEq] at taken
      subst taken
      exact .endsCall here rfl rfl starts takes
  | wakeOpeners =>
      have takes := quiet (by simp [here])
      have starts := still (by simp [here])
      simp only [here, accessProceed, Option.some.injEq] at taken
      subst taken
      exact .wakes here rfl rfl starts takes

theorem openFile_move [DecidableEq File] [Fintype Pid] {kind : Kind} {creds : Pid → Cred}
    {sys next : AccessSys Pid File} {pid : Pid} {file : File} {mode : AccMode}
    {nonblock alloc : Bool}
    (taken : accessStep kind creds sys (.openFile pid file mode nonblock alloc) = some next) :
    LockMove kind sys (.openFile pid file mode nonblock alloc) next := by
  simp only [accessStep] at taken
  split at taken
  · rename_i allowed
    have before : (sys.points pid).Outside := by rw [allowed.1]; exact ⟨rfl, rfl⟩
    cases kind with
    | bare =>
        simp only [scullOpen, Option.some.injEq] at taken
        split at taken
        · subst taken
          exact .outside rfl rfl before ⟨rfl, rfl⟩ rfl id id
        · subst taken
          exact .outside rfl rfl before ⟨rfl, rfl⟩ rfl id id
    | uid =>
        simp only [scullUidOpen, Option.some.injEq] at taken
        split at taken
        · subst taken
          exact .same rfl rfl id id
        · subst taken
          refine enter_move ?_ ?_ before (by simp) id id
          · rfl
          · rfl
    | wuid =>
        cases taken
        exact .outside rfl rfl before ⟨rfl, rfl⟩ rfl id id
    | priv key =>
        simp only [scullPrivOpen] at taken
        split at taken
        · cases taken
          exact .same rfl rfl id id
        · split at taken
          · contradiction
          · split at taken
            · cases taken
              refine enter_move ?_ ?_ before (by simp) id id
              · rfl
              · rfl
            · cases taken
              exact .same rfl rfl id id
  · contradiction

theorem accessStep_move [DecidableEq File] [Fintype Pid] {kind : Kind} {creds : Pid → Cred}
    {sys next : AccessSys Pid File} {action : AccessAction Pid File}
    (invariant : LockInvariant kind sys) (taken : accessStep kind creds sys action = some next) :
    LockMove kind sys action next := by
  cases action with
  | openFile pid file mode nonblock alloc => exact openFile_move taken
  | proceed pid interrupted => exact accessProceed_move invariant taken
  | call pid file =>
      simp only [accessStep] at taken
      split at taken
      · rename_i allowed
        cases taken
        have before : (sys.points pid).Outside := by rw [allowed.1]; exact ⟨rfl, rfl⟩
        exact .outside rfl rfl before ⟨rfl, rfl⟩ rfl id id
      · contradiction
  | release pid file =>
      simp only [accessStep] at taken
      split at taken
      · rename_i allowed
        have before : (sys.points pid).Outside := by rw [allowed.1]; exact ⟨rfl, rfl⟩
        cases kind with
        | bare =>
            cases taken
            exact .same rfl rfl id id
        | uid =>
            cases taken
            exact .same rfl rfl id id
        | wuid =>
            simp only [scullWuidRelease, Option.some.injEq] at taken
            split at taken
            · subst taken
              exact .outside rfl rfl before ⟨rfl, rfl⟩ rfl id id
            · subst taken
              exact .same rfl rfl id id
        | priv key =>
            cases taken
            exact .same rfl rfl id id
      · contradiction
  | signal pid =>
      have belongs := invariant.belongs pid
      simp only [accessStep] at taken
      split at taken
      · rename_i file mode here
        have before : (sys.points pid).Outside := by rw [here]; exact ⟨rfl, rfl⟩
        have wuid : kind = .wuid := by simpa [here, Point.belongs] using belongs
        split at taken
        · cases taken
          exact .outside rfl rfl before ⟨rfl, rfl⟩ (by simp [Point.belongs, wuid]) id id
        · cases taken
          exact .outside rfl rfl before ⟨rfl, rfl⟩ rfl id id
      · contradiction

theorem belongs_update {kind : Kind} {points : Pid → Point File} {pid : Pid}
    {point : Point File} (all : ∀ other, (points other).belongs kind = true)
    (belongs : point.belongs kind = true) (other : Pid) :
    (Function.update points pid point other).belongs kind = true := by
  simp only [Function.update_apply]
  split
  · exact belongs
  · exact all other

theorem lockInvariant_step [Fintype Pid] {kind : Kind} {sys next : AccessSys Pid File}
    {action : AccessAction Pid File} (invariant : LockInvariant kind sys)
    (move : LockMove kind sys action next) :
    LockInvariant kind next := by
  obtain ⟨balanced, all⟩ := invariant
  cases move with
  | same sem points _ _ =>
      constructor
      · rw [sem, points]
        exact balanced
      · rw [points]
        exact all
  | outside sem points before after belongs _ _ =>
      constructor
      · rw [sem, points]
        apply balanced.move
        rw [holdsSem_outside kind before, holdsSem_outside kind after]
      · rw [points]
        exact belongs_update all belongs
  | startsReset sem points before shared _ _ =>
      constructor
      · rw [sem, points]
        apply balanced.move
        rw [holdsSem_outside kind before, holdsSem_resetting, decide_eq_false shared]
      · rw [points]
        exact belongs_update all rfl
  | locksReset free sem points before bare _ _ =>
      constructor
      · rw [sem, points]
        apply balanced.down free
        rw [holdsSem_resetting, decide_eq_true bare]
      · rw [points]
        exact belongs_update all rfl
  | endsReset here sem points _ _ =>
      constructor
      · rw [sem, points]
        split
        · rename_i bare
          apply balanced.up
          · rw [here, holdsSem_resetting, decide_eq_true bare]
          · rfl
        · rename_i shared
          apply balanced.move
          rw [here, holdsSem_resetting, decide_eq_false shared]
          rfl
      · rw [points]
        exact belongs_update all rfl
  | locksCall free sem points before _ _ =>
      constructor
      · rw [sem, points]
        exact balanced.down free (holdsSem_inSection kind _)
      · rw [points]
        exact belongs_update all rfl
  | endsCall here sem points _ _ =>
      constructor
      · rw [sem, points]
        apply balanced.up
        · rw [here, holdsSem_inSection]
        · rfl
      · rw [points]
        exact belongs_update all rfl
  | wakes here sem points _ _ =>
      have woken : Semaphore.Balanced (holdsSem kind) sys.sem
          (fun other => wakeOpener (sys.points other)) := by
        refine ⟨balanced.nonneg, ?_⟩
        simp only [Semaphore.weight, holdsSem_wakeOpener]
        exact balanced.total
      constructor
      · rw [sem, points]
        apply woken.move
        rw [holdsSem_wakeOpener, here]
        rfl
      · rw [points]
        apply belongs_update _ rfl
        intro other
        rw [(wakeOpener_same kind _).2.2]
        exact all other

theorem apart_outside {points : Pid → Point File} (apart : Apart points) (pid : Pid)
    {point : Point File} (outside : point.Outside) : Apart (Function.update points pid point) := by
  intro resetter caller resets
  simp only [Function.update_apply] at resets ⊢
  split at resets
  · rw [outside.1] at resets
    contradiction
  · split
    · exact outside.2
    · exact apart resetter caller resets

theorem apart_resetting_iff {points : Pid → Point File} {pid : Pid}
    (before : (points pid).Outside) (file : File) :
    Apart (Function.update points pid (.resetting file)) ↔
      ∀ caller, (points caller).isInSection = false := by
  constructor
  · intro after caller
    by_cases same : caller = pid
    · rw [same]
      exact before.2
    · have here : (Function.update points pid (.resetting file) pid).isResetting = true := by
        rw [Function.update_self]
        rfl
      have free := after pid caller here
      rwa [Function.update_of_ne same] at free
  · intro free resetter caller resets
    simp only [Function.update_apply]
    split
    · rfl
    · exact free caller

theorem apart_inSection_iff {points : Pid → Point File} {pid : Pid}
    (before : (points pid).Outside) (file : File) :
    Apart (Function.update points pid (.inSection file)) ↔
      ∀ resetter, (points resetter).isResetting = false := by
  constructor
  · intro after resetter
    by_contra resets
    have different : resetter ≠ pid := by
      rintro rfl
      exact resets before.1
    have here : (Function.update points pid (.inSection file) resetter).isResetting = true := by
      rw [Function.update_of_ne different]
      simpa using resets
    have free := after resetter pid here
    rw [Function.update_self] at free
    simp [Point.isInSection] at free
  · intro free resetter caller resets
    simp only [Function.update_apply] at resets
    split at resets
    · simp [Point.isResetting] at resets
    · rw [free resetter] at resets
      contradiction

theorem noReset_step_iff [Fintype Pid] {kind : Kind}
    {sys next : AccessSys Pid File} {action : AccessAction Pid File}
    (invariant : LockInvariant kind sys) (apart : NoResetInSection sys)
    (move : LockMove kind sys action next) :
    NoResetInSection next ↔ ResetsAlone sys action := by
  have harmless : ¬ StartsReset sys action → ¬ TakesSem sys action →
      ResetsAlone sys action :=
    fun starts takes => ⟨fun started => absurd started starts, fun taken => absurd taken takes⟩
  simp only [NoResetInSection] at apart ⊢
  cases move with
  | same sem points starts takes =>
      rw [points]
      exact ⟨fun _ => harmless starts takes, fun _ => apart⟩
  | outside sem points before after belongs starts takes =>
      rw [points]
      exact ⟨fun _ => harmless starts takes, fun _ => apart_outside apart _ after⟩
  | startsReset sem points before shared starts takes =>
      rw [points, apart_resetting_iff before, ← invariant.free_iff_shared shared]
      constructor
      · intro free
        exact ⟨fun _ => free, fun taken => absurd taken takes⟩
      · intro alone
        exact alone.1 starts
  | locksReset free sem points before bare starts takes =>
      rw [points, apart_resetting_iff before]
      exact ⟨fun _ => harmless starts takes, fun _ pid => (invariant.free free pid).1⟩
  | endsReset here sem points starts takes =>
      rw [points]
      exact ⟨fun _ => harmless starts takes, fun _ => apart_outside apart _ ⟨rfl, rfl⟩⟩
  | locksCall free sem points before starts takes =>
      rw [points, apart_inSection_iff before]
      constructor
      · intro alone
        exact ⟨fun started => absurd started starts, fun _ => alone⟩
      · intro alone
        exact alone.2 takes
  | endsCall here sem points starts takes =>
      rw [points]
      exact ⟨fun _ => harmless starts takes, fun _ => apart_outside apart _ ⟨rfl, rfl⟩⟩
  | wakes here sem points starts takes =>
      rw [points]
      refine ⟨fun _ => harmless starts takes, fun _ => apart_outside ?_ _ ⟨rfl, rfl⟩⟩
      intro resetter caller resets
      rw [(wakeOpener_same kind _).1] at resets
      rw [(wakeOpener_same kind _).2.1]
      exact apart resetter caller resets

/-- Along any interleaving, no reset runs beside a critical section exactly when each reset
starts with `dev->sem` free and no call takes `dev->sem` before the reset ends. -/
theorem resets_apart_iff [DecidableEq File] [Fintype Pid] (kind : Kind) (creds : Pid → Cred) (owner : Nat)
    (actions : List (AccessAction Pid File)) :
    StepMachine.Always (accessStep kind creds) NoResetInSection (.loaded Pid File owner) actions ↔
      StepMachine.Meets (accessStep kind creds) ResetsAlone
        (.loaded Pid File owner) actions := by
  apply StepMachine.always_iff_meets _ _ actions (lockInvariant_loaded kind owner)
  · intro resetter caller resets
    rfl
  · intro sys action next invariant _ taken
    exact lockInvariant_step invariant (accessStep_move invariant taken)
  · intro sys action next invariant apart taken
    exact noReset_step_iff invariant apart (accessStep_move invariant taken)

/-- `scull_open` resets the bare device under `dev->sem`, so there the condition always holds. -/
theorem bare_resets_apart [DecidableEq File] [Fintype Pid] {creds : Pid → Cred} {owner : Nat}
    {sys : AccessSys Pid File}
    (reached : StepMachine.Reachable (accessStep .bare creds) (.loaded Pid File owner) sys) :
    NoResetInSection sys := by
  have invariant : LockInvariant .bare sys := by
    apply StepMachine.reachable_invariant _ (lockInvariant_loaded .bare owner) reached
    intro sys action next invariant taken
    exact lockInvariant_step invariant (accessStep_move invariant taken)
  intro resetter caller resets
  by_contra calls
  have same : resetter = caller := by
    apply invariant.balanced.exclusive
    · simp [holdsSem, resets]
    · simpa [holdsSem] using Or.inl calls
  subst same
  cases here : sys.points resetter <;> simp [here, Point.isResetting, Point.isInSection] at *

def sameUser : Bool → Cred := fun _ => ⟨1000, 1000, false, some 5⟩

/-- `true` is inside `scull_write` when `false`, a process of the same user and terminal,
opens the device with O_WRONLY. -/
def overlapUid : List (AccessAction Bool Bool) :=
  [.openFile true true .readWrite false true, .proceed true false, .call true true,
    .proceed true false, .openFile false false .writeOnly false true, .proceed false false]

def overlapWuid : List (AccessAction Bool Bool) :=
  [.openFile true true .readWrite false true, .proceed true false, .proceed true false,
    .call true true, .proceed true false, .openFile false false .writeOnly false true,
    .proceed false false, .proceed false false]

theorem not_apart_of_overlap {kind : Kind} {creds : Bool → Cred} {owner : Nat}
    {actions : List (AccessAction Bool Bool)}
    (overlap : (StepMachine.run (accessStep kind creds) (.loaded Bool Bool owner) actions).map
      (fun sys => ((sys.points false).isResetting, (sys.points true).isInSection)) =
        some (true, true)) :
    ¬ StepMachine.Always (accessStep kind creds) NoResetInSection (.loaded Bool Bool owner)
      actions := by
  intro always
  obtain ⟨sys, apart, both⟩ := always.observed overlap
  simp only [Prod.mk.injEq] at both
  have free := apart false true both.1
  rw [both.2] at free
  contradiction

theorem resets_overlap_sameUser :
    ¬ StepMachine.Always (accessStep .uid sameUser) NoResetInSection (.loaded Bool Bool 0)
        overlapUid ∧
      ¬ StepMachine.Always (accessStep .wuid sameUser) NoResetInSection
        (.loaded Bool Bool 4294967295) overlapWuid ∧
      ¬ StepMachine.Always (accessStep (.priv 5) sameUser) NoResetInSection
        (.loaded Bool Bool 0) overlapUid := by
  refine ⟨not_apart_of_overlap ?_, not_apart_of_overlap ?_, not_apart_of_overlap ?_⟩
  · decide +kernel
  · decide +kernel
  · decide +kernel

end Ldd3.Access
