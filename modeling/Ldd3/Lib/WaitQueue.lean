import Mathlib.Tactic

/-!
A queue of parties that wait for a condition. A party gets on the queue before it tests the
condition for the last time, so that a wake-up in between keeps it from falling asleep.
-/

namespace WaitQueue

inductive Waiter
  | entering
  | preparing
  | queued (woken : Bool)
  | asleep
  deriving DecidableEq, Repr

inductive Progress
  | waits (waiter : Waiter)
  | passed
  | interrupted
  deriving DecidableEq, Repr

namespace Waiter

def proceed (holds signal : Bool) : Waiter → Option Progress
  | entering => some (if holds then .passed else .waits preparing)
  | preparing => some (.waits (queued false))
  | queued woken =>
      if holds then some .passed
      else if signal then some .interrupted
      else some (.waits (if woken then preparing else asleep))
  | asleep => if signal then some (.waits preparing) else none

def wake : Waiter → Waiter
  | entering => entering
  | preparing => preparing
  | queued _ => queued true
  | asleep => preparing

theorem wake_awake (waiter : Waiter) : waiter.wake ≠ asleep := by
  cases waiter <;> nofun

theorem awake_of_proceed {holds signal : Bool} {waiter after : Waiter}
    (taken : waiter.proceed holds signal = some (.waits after)) (holding : holds = true) :
    after ≠ asleep := by
  subst holding
  rintro rfl
  cases waiter with
  | entering => simp [proceed] at taken
  | preparing => simp [proceed] at taken
  | queued woken => simp [proceed] at taken
  | asleep => simp [proceed] at taken

theorem proceed_asleep {holds : Bool} : asleep.proceed holds false = none := rfl

end Waiter

variable {Pid : Type} {points : Pid → Option Waiter} {holds later coming expected : Prop}

/-- Whoever sleeps although the condition holds is going to be woken. -/
def Covered (holds coming : Prop) (points : Pid → Option Waiter) : Prop :=
  ∀ pid, points pid = some .asleep → holds → coming

theorem Covered.of_coming (expects : coming) : Covered holds coming points :=
  fun _ _ _ => expects

theorem Covered.of_awake (awake : ∀ pid, points pid ≠ some .asleep) :
    Covered holds coming points :=
  fun pid sleeps _ => absurd sleeps (awake pid)

theorem Covered.mono (covered : Covered holds coming points) (falls : later → holds)
    (stays : coming → expected) : Covered later expected points :=
  fun pid sleeps held => stays (covered pid sleeps (falls held))

theorem Covered.woken (points : Pid → Option Waiter) :
    Covered holds coming fun pid => (points pid).map Waiter.wake := by
  apply Covered.of_awake
  intro pid sleeps
  obtain ⟨waiter, _, woken⟩ := Option.map_eq_some_iff.mp sleeps
  exact waiter.wake_awake woken

theorem Covered.update [DecidableEq Pid] (covered : Covered holds coming points) {pid : Pid}
    {point : Option Waiter} (awake : holds → point ≠ some .asleep) :
    Covered holds coming (Function.update points pid point) := by
  intro other sleeps held
  by_cases same : other = pid
  · rw [same, Function.update_self] at sleeps
    exact absurd sleeps (awake held)
  · rw [Function.update_of_ne same] at sleeps
    exact covered other sleeps held

end WaitQueue
