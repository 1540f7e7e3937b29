import Mathlib.Tactic
import Ldd3.Loading.Loops

/-!
Any number of attempts to load and unload these modules, at the same time.
-/

namespace Ldd3.Loading

open Resources (Use Leaves Settled interleave)

inductive Item
  | short (item : ShortItem)
  | shortirq (item : ShortirqItem)
  | eduirq (item : EduirqItem)
  | impair (item : ImpairItem)
  | echoTty (item : EchoItem)
  | rbull (item : RbullItem)
  deriving DecidableEq, Repr

inductive Attempt
  | short (env : ShortEnv)
  | shortirq (env : ShortirqEnv)
  | eduirq (env : EduirqEnv)
  | impair (env : ImpairEnv)
  | echoTty (env : EchoEnv)
  | rbull (env : RbullEnv)

def Attempt.uses : Attempt → List (Use Item)
  | short env => (Loading.short.attempt env).map (Use.map .short)
  | shortirq env => (Loading.shortirq.attempt env).map (Use.map .shortirq)
  | eduirq env => (Loading.eduirq.attempt env).map (Use.map .eduirq)
  | impair env => (Loading.impair.attempt env).map (Use.map .impair)
  | echoTty env => (Loading.echoTty.attempt env).map (Use.map .echoTty)
  | rbull env => (Loading.rbull.attempt env).map (Use.map .rbull)

/-- The failure that the init function does not report does not happen. -/
def Attempt.Sound : Attempt → Prop
  | shortirq env => env.Requests
  | rbull env => env.Sound
  | short _ | eduirq _ | impair _ | echoTty _ => True

def Attempt.leak : Attempt → Multiset Item
  | echoTty env => env.leak.map .echoTty
  | rbull env => env.leak.map .rbull
  | short _ | shortirq _ | eduirq _ | impair _ => 0

section Renamed

variable {Env Own Item : Type} [DecidableEq Own] [DecidableEq Item] {loadable : Loadable Env Own}
  {sound : Env → Prop} {leaks : Env → Multiset Own} {name : Own → Item} {env : Env}

theorem Loadable.Accounts.renamed_sound (accounts : loadable.Accounts sound leaks)
    (injective : Function.Injective name)
    (comes : ∃ left, Leaves ((loadable.attempt env).map (Use.map name)) left) : sound env := by
  obtain ⟨left, leaves⟩ := comes
  by_contra unsound
  have renamed := Resources.run_map injective 0 (loadable.attempt env)
  rw [Multiset.map_zero, leaves] at renamed
  obtain ⟨own, ran, _⟩ := Option.map_eq_some_iff.mp renamed.symm
  exact accounts.stuck env unsound own ran

end Renamed

theorem attempt_leaves {attempt : Attempt} (sound : attempt.Sound) :
    Leaves attempt.uses attempt.leak := by
  cases attempt with
  | short env => exact (short_accounts.leaves env sound).map fun _ _ same => Item.short.inj same
  | shortirq env =>
      exact (shortirq_accounts.leaves env sound).map fun _ _ same => Item.shortirq.inj same
  | eduirq env => exact (eduirq_accounts.leaves env sound).map fun _ _ same => Item.eduirq.inj same
  | impair env => exact (impair_accounts.leaves env sound).map fun _ _ same => Item.impair.inj same
  | echoTty env =>
      exact (echoTty_accounts.leaves env sound).map fun _ _ same => Item.echoTty.inj same
  | rbull env => exact (rbull_accounts.leaves env sound).map fun _ _ same => Item.rbull.inj same

theorem attempt_sound {attempt : Attempt} (comes : ∃ left, Leaves attempt.uses left) :
    attempt.Sound := by
  cases attempt with
  | shortirq env =>
      exact shortirq_accounts.renamed_sound (fun _ _ same => Item.shortirq.inj same) comes
  | rbull env => exact rbull_accounts.renamed_sound (fun _ _ same => Item.rbull.inj same) comes
  | short | eduirq | impair | echoTty => trivial

/-- However the attempts come between each other and whatever the kernel refuses them, nothing is
released that is not held and the leaks alone stay, exactly if each attempt is sound. -/
theorem attempts_settle_iff {Pid : Type} [DecidableEq Pid] [Fintype Pid]
    (attempts : Pid → Attempt) :
    (∀ schedule, StepMachine.Always interleave (Settled fun pid => (attempts pid).leak)
      ⟨fun pid => (attempts pid).uses, 0⟩ schedule) ↔ ∀ pid, (attempts pid).Sound := by
  constructor
  · intro settled pid
    exact attempt_sound (Resources.settled_alone pid settled)
  · intro sound schedule
    exact Resources.interleaved (fun pid => attempt_leaves (sound pid)) schedule

end Ldd3.Loading
