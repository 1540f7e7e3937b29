import Mathlib.Tactic
import Ldd3.Access.Owners

/-!
Processes asleep in `scull_wuid_open`. The release decides to wake them from a copy of the
count made under the lock and wakes them later, so the count and the owner may have
changed in between; whoever is left asleep on an available device is about to be woken.
-/

namespace Ldd3.Access

variable {Pid File : Type}

/-- Some release has dropped the count to 0 and has not yet woken `scull_wuid_wait`. -/
def WakePending (points : Pid → Point File) : Prop := ∃ releaser, points releaser = .wakeOpeners

def SleepsAvailable (creds : Pid → Cred) (sys : AccessSys Pid File) (pid : Pid) : Prop :=
  (sys.points pid).isAsleep = true ∧ scullWuidAvailable sys.own (creds pid) = true

/-- A process asleep on a device that is available to it has its wake-up on the way, so once
all releases have returned there is none. -/
structure NoLostWake (creds : Pid → Cred) (sys : AccessSys Pid File) : Prop where
  pending : ∀ pid, SleepsAvailable creds sys pid → WakePending sys.points
  settled : (∀ pid, sys.points pid ≠ .wakeOpeners) → ∀ pid, ¬ SleepsAvailable creds sys pid

structure WaitersInvariant [Fintype File] (creds : Pid → Cred) (sys : AccessSys Pid File) :
    Prop where
  opens : OpensInvariant sys.files sys.points
  counted : sys.own.count = sys.holders
  pending : ∀ pid, SleepsAvailable creds sys pid → WakePending sys.points

theorem not_asleep_wakeOpener (point : Point File) : (wakeOpener point).isAsleep = false := by
  cases point <;> rfl

theorem Point.not_asleep_of_calling {point : Point File} (calling : point.isCalling = true) :
    point.isAsleep = false := by
  cases point <;> simp_all [Point.isAsleep, Point.isCalling]

theorem Point.not_waking_of_waiting {point : Point File} {file : File}
    (waiting : point.waiting? = some file) : point ≠ .wakeOpeners := by
  rintro rfl
  contradiction

theorem Point.not_waking_of_entered {point : Point File} {file : File}
    (entered : point.entered? = some file) : point ≠ .wakeOpeners := by
  rintro rfl
  contradiction

theorem Point.not_waking_of_calling {point : Point File} (calling : point.isCalling = true) :
    point ≠ .wakeOpeners := by
  rintro rfl
  contradiction

theorem Allowed.of_take {own : Owner} {taker cred : Cred} (nonneg : 0 ≤ own.count)
    (allowed : Allowed (own.take taker) cred) : Allowed own cred := by
  simp only [Allowed, Owner.take] at allowed
  by_cases free : own.count = 0
  · exact Or.inl free
  · rcases allowed with taken | rights
    · omega
    · rw [if_neg free] at rights
      exact Or.inr rights

theorem Allowed.of_drop {own : Owner} {cred : Cred} (held : own.count - 1 ≠ 0)
    (allowed : Allowed { own with count := own.count - 1 } cred) : Allowed own cred := by
  rcases allowed with free | rights
  · exact absurd free held
  · exact Or.inr rights

section Step

variable [DecidableEq Pid] [DecidableEq File] {creds : Pid → Cred} {sys next : AccessSys Pid File}
  {action : AccessAction Pid File}

omit [DecidableEq File] in
theorem WakePending.update {points : Pid → Point File} (pending : WakePending points) {pid : Pid}
    (notWaking : points pid ≠ .wakeOpeners) (point : Point File) :
    WakePending (Function.update points pid point) := by
  obtain ⟨releaser, waking⟩ := pending
  refine ⟨releaser, ?_⟩
  rw [Function.update_of_ne]
  · exact waking
  · rintro rfl
    exact notWaking waking

omit [DecidableEq File] in
theorem asleep_update {points : Pid → Point File} {pid other : Pid} {point : Point File}
    (awake : point.isAsleep = false)
    (asleep : (Function.update points pid point other).isAsleep = true) :
    other ≠ pid ∧ (points other).isAsleep = true := by
  simp only [Function.update_apply] at asleep
  split at asleep
  · rw [awake] at asleep
    contradiction
  · rename_i different
    exact ⟨different, asleep⟩

theorem OwnerMove.pending [Fintype File] (move : OwnerMove .wuid creds sys action next)
    (invariant : WaitersInvariant creds sys) (other : Pid)
    (sleeps : SleepsAvailable creds next other) : WakePending next.points := by
  have nonneg : 0 ≤ sys.own.count := by
    rw [invariant.counted]
    exact sys.holders_nonneg
  -- a step that moves one process, away from no wake-up and to no sleep
  have moves : ∀ {pid : Pid} {point : Point File}, sys.points pid ≠ .wakeOpeners →
      point.isAsleep = false →
      (Function.update sys.points pid point other).isAsleep = true →
      Allowed sys.own (creds other) →
      WakePending (Function.update sys.points pid point) := by
    intro pid point notWaking awake asleep allowed
    have before := (asleep_update awake asleep).2
    have available := (scullWuidAvailable_iff _ _).mpr allowed
    exact (invariant.pending other ⟨before, available⟩).update notWaking point
  obtain ⟨asleep, available⟩ := sleeps
  have allowed := (scullWuidAvailable_iff _ _).mp available
  cases move with
  | refused => exact invariant.pending other ⟨asleep, available⟩
  | starts idle closed => exact moves (by rw [idle]; simp) rfl asleep allowed
  | waits waiting still falls =>
      rename_i pid file point
      cases sleepy : point.isAsleep with
      | false => exact moves (Point.not_waking_of_waiting waiting) sleepy asleep allowed
      | true =>
          have notAllowed := falls sleepy
          by_cases same : other = pid
          · subst same
            exact absurd allowed notAllowed
          · simp only [AccessSys.setPoint, Function.update_of_ne same] at asleep
            exact (invariant.pending other ⟨asleep, available⟩).update
              (Point.not_waking_of_waiting waiting) point
  | givesUp waiting => exact moves (Point.not_waking_of_waiting waiting) rfl asleep allowed
  | admitted actor entry taken =>
      rename_i pid file mode
      have notWaking : sys.points pid ≠ .wakeOpeners := by
        rcases entry with ⟨idle, _⟩ | waiting
        · rw [idle]
          simp
        · exact Point.not_waking_of_waiting waiting
      exact moves notWaking rfl asleep (allowed.of_take nonneg)
  | resets here => exact moves (Point.not_waking_of_entered here) rfl asleep allowed
  | released idle ready after wakes =>
      rename_i pid file point
      by_cases last : sys.own.count - 1 = 0
      · have waking := wakes rfl last
        refine ⟨pid, ?_⟩
        simp only [AccessSys.setPoint, Function.update_self, waking]
      · have awake : point.isAsleep = false := by
          rcases after with rfl | rfl <;> rfl
        exact moves (by rw [idle]; simp) awake asleep (allowed.of_drop last)
  | opened here => exact moves (Point.not_waking_of_entered here) rfl asleep allowed
  | calls before after =>
      exact moves (Point.not_waking_of_calling before) (Point.not_asleep_of_calling after) asleep
        allowed
  | wakes here =>
      have woken := (asleep_update rfl asleep).2
      rw [not_asleep_wakeOpener] at woken
      contradiction

theorem waitersInvariant_step [Fintype Pid] [Fintype File]
    (invariant : WaitersInvariant creds sys)
    (taken : accessStep .wuid creds sys action = some next) : WaitersInvariant creds next := by
  have move := accessStep_ownerMove (Or.inr rfl) invariant.opens.notDown taken
  exact ⟨move.opens invariant.opens, move.counted invariant.opens invariant.counted,
    move.pending invariant⟩

omit [DecidableEq Pid] [DecidableEq File] in
theorem WaitersInvariant.noLostWake [Fintype File] (invariant : WaitersInvariant creds sys) :
    NoLostWake creds sys := by
  refine ⟨invariant.pending, ?_⟩
  intro returned pid sleeps
  obtain ⟨releaser, waking⟩ := invariant.pending pid sleeps
  exact returned releaser waking

end Step

/-- Along any interleaving no wake-up of scullwuid is lost. -/
theorem scullWuid_noLostWake [DecidableEq Pid] [DecidableEq File] [Fintype Pid] [Fintype File]
    (creds : Pid → Cred) (actions : List (AccessAction Pid File)) :
    StepMachine.Always (accessStep .wuid creds) (NoLostWake creds) (.loaded Pid File 4294967295)
      actions := by
  have initial : WaitersInvariant creds (AccessSys.loaded Pid File 4294967295) := by
    refine ⟨opensInvariant_loaded, ?_, ?_⟩
    · simp [AccessSys.loaded, AccessSys.holders, Semaphore.weight, FileState.held]
    · rintro pid ⟨asleep, _⟩
      simp [AccessSys.loaded, Point.isAsleep] at asleep
  refine StepMachine.always_of_meets ?_ (fun _ => WaitersInvariant.noLostWake) initial
    (StepMachine.meets_true _ actions)
  intro sys action next invariant _ taken
  exact waitersInvariant_step invariant taken

end Ldd3.Access
