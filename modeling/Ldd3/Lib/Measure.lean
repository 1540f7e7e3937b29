import Mathlib.Tactic
import Ldd3.Lib.StepMachine

/-!
Steps that use up a measure: a run of them is at most as long as the measure of the state it
starts in.
-/

namespace StepMachine

variable {State Action : Type} {step : State → Action → Option State}
  {invariant : State → Prop} {allowed : Action → Prop} {measure : State → Nat}

/-- From states of the invariant every allowed step keeps the invariant and uses up some of the
measure. -/
def Uses (step : State → Action → Option State) (invariant : State → Prop)
    (allowed : Action → Prop) (measure : State → Nat) : Prop :=
  ∀ state action next, invariant state → allowed action → step state action = some next →
    invariant next ∧ measure next < measure state

theorem Uses.run (uses : Uses step invariant allowed measure) {state final : State}
    {actions : List Action} (holds : invariant state) (listed : ∀ action ∈ actions, allowed action)
    (ran : run step state actions = some final) :
    invariant final ∧ actions.length + measure final ≤ measure state := by
  induction actions generalizing state with
  | nil =>
      simp only [run_nil, Option.some.injEq] at ran
      subst ran
      exact ⟨holds, by simp only [List.length_nil, Nat.zero_add, le_refl]⟩
  | cons action rest ih =>
      obtain ⟨next, taken, ranRest⟩ := run_cons_inv ran
      obtain ⟨kept, used⟩ := uses state action next holds (listed action List.mem_cons_self) taken
      obtain ⟨keptLast, shorter⟩ :=
        ih kept (fun later member => listed later (List.mem_cons_of_mem action member)) ranRest
      refine ⟨keptLast, ?_⟩
      rw [List.length_cons]
      omega

end StepMachine
