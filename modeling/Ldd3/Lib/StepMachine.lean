import Mathlib.Tactic

/-!
Machines that take one atomic step at a time. An action carries every choice of
the environment, so a step is a partial function: `none` means that the action
is not possible in that state. A run is a list of actions.
-/

namespace StepMachine

variable {State Action : Type} (step : State → Action → Option State)

/-- The state after a run, when every action of it was possible. -/
def run : State → List Action → Option State
  | state, [] => some state
  | state, action :: rest => (step state action).bind fun next => run next rest

/-- `goal` holds in every state that the run reaches, the first one included. -/
def Always (goal : State → Prop) : State → List Action → Prop
  | state, [] => goal state
  | state, action :: rest =>
      goal state ∧ ∀ next, step state action = some next → Always goal next rest

/-- Every step that the run takes is taken in a state that satisfies the condition. -/
def Meets (condition : State → Action → Prop) : State → List Action → Prop
  | _, [] => True
  | state, action :: rest =>
      ∀ next, step state action = some next → condition state action ∧ Meets condition next rest

def Reachable (first state : State) : Prop := ∃ actions, run step first actions = some state

structure TakenStep (State Action : Type) where
  before : State
  action : Action
  after : State

def traced (state : State × List (TakenStep State Action)) (action : Action) :
    Option (State × List (TakenStep State Action)) :=
  (step state.1 action).map fun next => (next, state.2 ++ [⟨state.1, action, next⟩])

variable {step}

instance decidableMeets {condition : State → Action → Prop}
    [∀ state action, Decidable (condition state action)] :
    (state : State) → (actions : List Action) → Decidable (Meets step condition state actions)
  | _, [] => isTrue trivial
  | state, action :: rest =>
      match found : step state action with
      | none => isTrue fun next taken => by
          rw [found] at taken
          contradiction
      | some next =>
          have : Decidable (Meets step condition next rest) := decidableMeets next rest
          decidable_of_iff (condition state action ∧ Meets step condition next rest) <| by
            simp only [Meets, found, Option.some.injEq, forall_eq']

@[simp] theorem run_nil (state : State) : run step state [] = some state := rfl

theorem run_cons_some {state next final : State} {action : Action} {rest : List Action}
    (taken : step state action = some next) (ran : run step next rest = some final) :
    run step state (action :: rest) = some final := by
  simp only [run, taken, Option.bind_some, ran]

theorem run_cons_inv {state final : State} {action : Action} {rest : List Action}
    (ran : run step state (action :: rest) = some final) :
    ∃ next, step state action = some next ∧ run step next rest = some final := by
  simpa only [run, Option.bind_eq_some_iff] using ran

theorem run_append_iff {state final : State} {first rest : List Action} :
    run step state (first ++ rest) = some final ↔
      ∃ middle, run step state first = some middle ∧ run step middle rest = some final := by
  induction first generalizing state with
  | nil => simp only [List.nil_append, run_nil, Option.some.injEq, exists_eq_left']
  | cons action later ih =>
      simp only [List.cons_append, run, Option.bind_eq_some_iff, ih]
      constructor
      · rintro ⟨next, taken, middle, ranLater, ranRest⟩
        exact ⟨middle, ⟨next, taken, ranLater⟩, ranRest⟩
      · rintro ⟨middle, ⟨next, taken, ranLater⟩, ranRest⟩
        exact ⟨next, taken, middle, ranLater, ranRest⟩

theorem run_snoc {state middle final : State} {actions : List Action} {last : Action}
    (ran : run step state actions = some middle) (taken : step middle last = some final) :
    run step state (actions ++ [last]) = some final :=
  run_append_iff.mpr ⟨middle, ran, run_cons_some taken (run_nil final)⟩

theorem traced_inv {state next : State × List (TakenStep State Action)} {action : Action}
    (taken : traced step state action = some next) :
    ∃ after, step state.1 action = some after ∧
      next = (after, state.2 ++ [⟨state.1, action, after⟩]) := by
  obtain ⟨after, found, same⟩ := Option.map_eq_some_iff.mp taken
  exact ⟨after, found, same.symm⟩

theorem run_congr {other : State → Action → Option State} {state : State} {actions : List Action}
    (same : ∀ state action, action ∈ actions → step state action = other state action) :
    run step state actions = run other state actions := by
  induction actions generalizing state with
  | nil => rfl
  | cons action rest ih =>
      simp only [run]
      rw [same state action List.mem_cons_self]
      congr 1
      funext next
      exact ih fun state later listed => same state later (List.mem_cons_of_mem action listed)

theorem run_kept (property : State → Prop) {state final : State} {actions : List Action}
    (kept : ∀ action ∈ actions, ∀ state next, step state action = some next →
      (property next ↔ property state))
    (ran : run step state actions = some final) : property final ↔ property state := by
  induction actions generalizing state with
  | nil =>
      simp only [run_nil, Option.some.injEq] at ran
      rw [ran]
  | cons action rest ih =>
      obtain ⟨next, taken, ranRest⟩ := run_cons_inv ran
      have keptRest := fun later listed => kept later (List.mem_cons_of_mem action listed)
      exact (ih keptRest ranRest).trans (kept action List.mem_cons_self state next taken)

theorem run_invariant {invariant : State → Prop} {condition : State → Action → Prop}
    (preserved : ∀ state action next, invariant state → condition state action →
      step state action = some next → invariant next)
    {state final : State} {actions : List Action} (initial : invariant state)
    (meets : Meets step condition state actions) (ran : run step state actions = some final) :
    invariant final := by
  induction actions generalizing state with
  | nil =>
      simp only [run_nil, Option.some.injEq] at ran
      exact ran ▸ initial
  | cons action rest ih =>
      obtain ⟨next, taken, ranRest⟩ := run_cons_inv ran
      have here := meets next taken
      exact ih (preserved state action next initial here.1 taken) here.2 ranRest

theorem meets_true (state : State) (actions : List Action) :
    Meets step (fun _ _ => True) state actions := by
  induction actions generalizing state with
  | nil => trivial
  | cons action rest ih => exact fun next _ => ⟨trivial, ih next⟩

theorem reachable_invariant {invariant : State → Prop}
    (preserved : ∀ state action next, invariant state →
      step state action = some next → invariant next)
    {first state : State} (initial : invariant first) (reached : Reachable step first state) :
    invariant state := by
  obtain ⟨actions, ran⟩ := reached
  exact run_invariant (fun state action next holds _ taken => preserved state action next holds taken)
    initial (meets_true first actions) ran

theorem Always.head {goal : State → Prop} {state : State} {actions : List Action}
    (always : Always step goal state actions) : goal state := by
  cases actions with
  | nil => exact always
  | cons action rest => exact always.1

theorem Always.last {goal : State → Prop} {state final : State} {actions : List Action}
    (always : Always step goal state actions) (ran : run step state actions = some final) :
    goal final := by
  induction actions generalizing state with
  | nil =>
      simp only [run_nil, Option.some.injEq] at ran
      exact ran ▸ always
  | cons action rest ih =>
      obtain ⟨next, taken, ranRest⟩ := run_cons_inv ran
      exact ih (always.2 next taken) ranRest

theorem Always.mono {goal other : State → Prop} {state : State} {actions : List Action}
    (always : Always step goal state actions) (weaker : ∀ state, goal state → other state) :
    Always step other state actions := by
  induction actions generalizing state with
  | nil => exact weaker state always
  | cons action rest ih => exact ⟨weaker state always.1, fun next taken => ih (always.2 next taken)⟩

theorem Always.observed {Outcome : Type} {goal : State → Prop} {state : State}
    {actions : List Action} {observe : State → Outcome} {outcome : Outcome}
    (always : Always step goal state actions)
    (ran : (run step state actions).map observe = some outcome) :
    ∃ final, goal final ∧ observe final = outcome := by
  obtain ⟨final, reached, seen⟩ := Option.map_eq_some_iff.mp ran
  exact ⟨final, always.last reached, seen⟩

theorem always_of_meets {invariant goal : State → Prop} {condition : State → Action → Prop}
    (preserved : ∀ state action next, invariant state → condition state action →
      step state action = some next → invariant next)
    (enough : ∀ state, invariant state → goal state)
    {state : State} {actions : List Action} (initial : invariant state)
    (meets : Meets step condition state actions) : Always step goal state actions := by
  induction actions generalizing state with
  | nil => exact enough state initial
  | cons action rest ih =>
      refine ⟨enough state initial, ?_⟩
      intro next taken
      have here := meets next taken
      exact ih (preserved state action next initial here.1 taken) here.2

theorem meets_of_meets {invariant : State → Prop} {condition goal : State → Action → Prop}
    (preserved : ∀ state action next, invariant state → condition state action →
      step state action = some next → invariant next)
    (enough : ∀ state action, invariant state → condition state action → goal state action)
    {state : State} {actions : List Action} (initial : invariant state)
    (meets : Meets step condition state actions) : Meets step goal state actions := by
  induction actions generalizing state with
  | nil => trivial
  | cons action rest ih =>
      intro next taken
      have here := meets next taken
      exact ⟨enough state action initial here.1,
        ih (preserved state action next initial here.1 taken) here.2⟩

/-- When, from good states, the condition says exactly which steps keep the goal, a run
keeps the goal throughout exactly when all its steps meet the condition. The invariant
need only survive the steps that keep the goal. -/
theorem always_iff_meets_of_good {invariant goal : State → Prop}
    {condition : State → Action → Prop}
    (preserved : ∀ state action next, invariant state → goal state →
      step state action = some next → goal next → invariant next)
    (exactly : ∀ state action next, invariant state → goal state →
      step state action = some next → (goal next ↔ condition state action))
    {state : State} (actions : List Action) (initial : invariant state) (good : goal state) :
    Always step goal state actions ↔ Meets step condition state actions := by
  induction actions generalizing state with
  | nil => exact ⟨fun _ => trivial, fun _ => good⟩
  | cons action rest ih =>
      constructor
      · rintro ⟨_, later⟩ next taken
        have goodNext := (later next taken).head
        have nextInvariant := preserved state action next initial good taken goodNext
        exact ⟨(exactly state action next initial good taken).mp goodNext,
          (ih nextInvariant goodNext).mp (later next taken)⟩
      · intro meets
        refine ⟨good, ?_⟩
        intro next taken
        have here := meets next taken
        have goodNext := (exactly state action next initial good taken).mpr here.1
        have nextInvariant := preserved state action next initial good taken goodNext
        exact (ih nextInvariant goodNext).mpr here.2

theorem always_iff_meets {invariant goal : State → Prop} {condition : State → Action → Prop}
    (preserved : ∀ state action next, invariant state → goal state →
      step state action = some next → invariant next)
    (exactly : ∀ state action next, invariant state → goal state →
      step state action = some next → (goal next ↔ condition state action))
    {state : State} (actions : List Action) (initial : invariant state) (good : goal state) :
    Always step goal state actions ↔ Meets step condition state actions := by
  apply always_iff_meets_of_good _ exactly actions initial good
  intro state action next holds good taken _
  exact preserved state action next holds good taken

/-- A goal and a condition on states hold along the same runs when they agree in every state
that a run can reach while the goal still holds. -/
theorem always_congr {invariant goal condition : State → Prop}
    (preserved : ∀ state action next, invariant state → goal state →
      step state action = some next → invariant next)
    (agree : ∀ state, invariant state → (goal state ↔ condition state))
    {state : State} (actions : List Action) (initial : invariant state) :
    Always step goal state actions ↔ Always step condition state actions := by
  induction actions generalizing state with
  | nil => exact agree state initial
  | cons action rest ih =>
      have here := agree state initial
      constructor
      · rintro ⟨good, later⟩
        refine ⟨here.mp good, ?_⟩
        intro next taken
        exact (ih (preserved state action next initial good taken)).mp (later next taken)
      · rintro ⟨holds, later⟩
        have good := here.mpr holds
        refine ⟨good, ?_⟩
        intro next taken
        exact (ih (preserved state action next initial good taken)).mpr (later next taken)

/-- Two conditions on steps hold along the same runs when they agree on every step that a run
can take. -/
theorem meets_congr {invariant : State → Prop} {condition other : State → Action → Prop}
    (preserved : ∀ state action next, invariant state → step state action = some next →
      invariant next)
    (agree : ∀ state action next, invariant state → step state action = some next →
      (condition state action ↔ other state action))
    {state : State} (actions : List Action) (initial : invariant state) :
    Meets step condition state actions ↔ Meets step other state actions := by
  induction actions generalizing state with
  | nil => exact Iff.rfl
  | cons action rest ih =>
      refine forall_congr' fun next => forall_congr' fun taken => ?_
      exact and_congr (agree state action next initial taken)
        (ih (preserved state action next initial taken))

theorem Meets.split {condition : State → Action → Prop} {state middle : State}
    {first rest : List Action} (meets : Meets step condition state (first ++ rest))
    (ran : run step state first = some middle) :
    Meets step condition state first ∧ Meets step condition middle rest := by
  induction first generalizing state with
  | nil =>
      simp only [run_nil, Option.some.injEq] at ran
      exact ⟨trivial, ran ▸ meets⟩
  | cons action later ih =>
      obtain ⟨next, taken, ranRest⟩ := run_cons_inv ran
      refine ⟨?_, (ih (meets next taken).2 ranRest).2⟩
      intro other takenOther
      rw [taken, Option.some.injEq] at takenOther
      subst takenOther
      exact ⟨(meets next taken).1, (ih (meets next taken).2 ranRest).1⟩

end StepMachine
