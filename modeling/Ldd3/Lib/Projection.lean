import Mathlib.Tactic
import Ldd3.Lib.StepMachine

/-!
A machine seen through a view of its state: when the visible actions do to the view what a
machine of its own does, and the others leave the view alone, a run of the whole is a run of
that machine with the others' actions left out.
-/

namespace StepMachine

variable {State View Action : Type}

structure Projects (step : State → Action → Option State) (viewStep : View → Action → Option View)
    (invariant : State → Prop) (view : State → View) (visible : Action → Bool) : Prop where
  kept : ∀ state action next, invariant state → step state action = some next → invariant next
  hidden : ∀ state action next, invariant state → visible action = false →
    step state action = some next → view next = view state
  shown : ∀ state action next, invariant state → visible action = true →
    step state action = some next → viewStep (view state) action = some (view next)

theorem Projects.run {step : State → Action → Option State}
    {viewStep : View → Action → Option View} {invariant : State → Prop} {view : State → View}
    {visible : Action → Bool} (projects : Projects step viewStep invariant view visible)
    {state final : State} {actions : List Action} (holds : invariant state)
    (ran : run step state actions = some final) :
    StepMachine.run viewStep (view state) (actions.filter visible) = some (view final) := by
  induction actions generalizing state with
  | nil =>
      simp only [run_nil, Option.some.injEq] at ran
      subst ran
      rfl
  | cons action rest ih =>
      obtain ⟨next, taken, ranRest⟩ := run_cons_inv ran
      have later := ih (projects.kept state action next holds taken) ranRest
      cases seen : visible action with
      | false =>
          rw [List.filter_cons_of_neg (by simp only [seen, Bool.false_eq_true, not_false_eq_true]),
            ← projects.hidden state action next holds seen taken]
          exact later
      | true =>
          rw [List.filter_cons_of_pos seen]
          exact run_cons_some (projects.shown state action next holds seen taken) later

end StepMachine
