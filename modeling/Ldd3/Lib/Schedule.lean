import Mathlib.Tactic
import Ldd3.Lib.StepMachine

/-!
Tasks that take their steps in any order on a shared state. When the steps of a run
conflict only in the direction of one order of the tasks, the run ends where the tasks
end that are run in that order, each one from its first step to its last.
-/

namespace Schedule

variable {State Task : Type}

/-- What the argument needs of the steps. `clear state task other` says that the next
step of the task does not conflict with what the other one has done. -/
structure Commutes (step : State → Task → Option State) (invariant : State → Prop)
    (clear : State → Task → Task → Prop) : Prop where
  preserved : ∀ state task next, invariant state → step state task = some next → invariant next
  swap : ∀ state first second middle next, invariant state → first ≠ second →
    step state first = some middle → step middle second = some next → clear middle second first →
    ∃ other, step state second = some other ∧ step other first = some next
  back : ∀ state moved task other next, invariant state → moved ≠ task →
    step state moved = some next → clear next task other → clear state task other
  frame : ∀ state moved task other next, invariant state → moved ≠ task → moved ≠ other →
    step state moved = some next → clear state task other → clear next task other

variable {step : State → Task → Option State} {invariant : State → Prop}
variable {clear : State → Task → Task → Prop}

theorem Commutes.moveBehind (commutes : Commutes step invariant clear)
    {first moved : Task} {others : List Task} (different : moved ≠ first) (among : moved ∈ others)
    {count : Nat} {state next final : State} (holds : invariant state)
    (taken : step state moved = some next)
    (ran : StepMachine.run step next (List.replicate count first) = some final)
    (isClear : StepMachine.Meets step (fun state task => ∀ other ∈ others, clear state task other)
      next (List.replicate count first)) :
    ∃ middle, StepMachine.run step state (List.replicate count first) = some middle ∧
      step middle moved = some final ∧
      StepMachine.Meets step (fun state task => ∀ other ∈ others, clear state task other)
        state (List.replicate count first) := by
  induction count generalizing state next with
  | zero =>
      simp only [List.replicate_zero, StepMachine.run_nil, Option.some.injEq] at ran
      exact ⟨state, rfl, ran ▸ taken, trivial⟩
  | succ count ih =>
      rw [List.replicate_succ] at ran isClear ⊢
      obtain ⟨later, second, ranRest⟩ := StepMachine.run_cons_inv ran
      obtain ⟨here, clearRest⟩ := isClear later second
      obtain ⟨swapped, early, late⟩ := commutes.swap state moved first next later holds different
        taken second (here moved among)
      obtain ⟨middle, ranBlock, lateMove, clearBlock⟩ :=
        ih (commutes.preserved state first swapped holds early) late ranRest clearRest
      refine ⟨middle, StepMachine.run_cons_some early ranBlock, lateMove, ?_⟩
      intro reached found
      have same : swapped = reached := Option.some.inj (early.symm.trans found)
      subst same
      exact ⟨fun other listed =>
        commutes.back state moved first other next holds different taken (here other listed),
        clearBlock⟩

theorem Commutes.clear_after_block (commutes : Commutes step invariant clear)
    {first task other : Task} (moves : first ≠ task) (different : first ≠ other)
    {count : Nat} {state middle : State} (holds : invariant state)
    (ran : StepMachine.run step state (List.replicate count first) = some middle)
    (isClear : clear state task other) : clear middle task other := by
  induction count generalizing state with
  | zero =>
      simp only [List.replicate_zero, StepMachine.run_nil, Option.some.injEq] at ran
      exact ran ▸ isClear
  | succ count ih =>
      rw [List.replicate_succ] at ran
      obtain ⟨next, taken, ranRest⟩ := StepMachine.run_cons_inv ran
      exact ih (commutes.preserved state first next holds taken) ranRest
        (commutes.frame state first task other next holds moves different taken isClear)

theorem Commutes.run_invariant (commutes : Commutes step invariant clear)
    {actions : List Task} {state final : State} (holds : invariant state)
    (ran : StepMachine.run step state actions = some final) : invariant final :=
  StepMachine.reachable_invariant commutes.preserved holds ⟨actions, ran⟩

section Order

variable [DecidableEq Task]

/-- The next step of a task conflicts only with tasks that come before it. -/
def Agrees (clear : State → Task → Task → Prop) (order : List Task) (state : State)
    (task : Task) : Prop :=
  ∀ other ∈ order, other ≠ task → clear state task other ∨ order.idxOf other < order.idxOf task

instance decidableAgrees {clear : State → Task → Task → Prop}
    [∀ state task other, Decidable (clear state task other)] (order : List Task) (state : State)
    (task : Task) : Decidable (Agrees clear order state task) :=
  inferInstanceAs (Decidable (∀ other ∈ order, _))

def block (step : State → Task → Option State) (count : Task → Nat) (state : State)
    (task : Task) : Option State :=
  StepMachine.run step state (List.replicate (count task) task)

theorem Agrees.first {first : Task} {rest : List Task} {state : State}
    (agrees : Agrees clear (first :: rest) state first) {other : Task} (listed : other ∈ rest)
    (different : other ≠ first) : clear state first other := by
  rcases agrees other (List.mem_cons_of_mem first listed) different with isClear | before
  · exact isClear
  · rw [List.idxOf_cons_self] at before
    omega

theorem Agrees.tail {first task : Task} {rest : List Task} {state : State}
    (agrees : Agrees clear (first :: rest) state task) (different : first ≠ task)
    (fresh : first ∉ rest) : Agrees clear rest state task := by
  intro other listed apart
  have notFirst : first ≠ other := fun same => fresh (same ▸ listed)
  rcases agrees other (List.mem_cons_of_mem first listed) apart with isClear | before
  · exact .inl isClear
  · rw [List.idxOf_cons_ne _ notFirst, List.idxOf_cons_ne _ different] at before
    exact .inr (by omega)

theorem Commutes.gather (commutes : Commutes step invariant clear)
    {first : Task} {rest : List Task} (fresh : first ∉ rest) {actions : List Task}
    (listed : ∀ task ∈ actions, task ∈ first :: rest) {state final : State}
    (holds : invariant state) (ran : StepMachine.run step state actions = some final)
    (agrees : StepMachine.Meets step (Agrees clear (first :: rest)) state actions) :
    ∃ middle,
      StepMachine.run step state (List.replicate (actions.count first) first) = some middle ∧
      StepMachine.Meets step (fun state task => ∀ other ∈ rest, clear state task other)
        state (List.replicate (actions.count first) first) ∧
      StepMachine.run step middle (actions.filter (· ≠ first)) = some final ∧
      StepMachine.Meets step (Agrees clear rest) middle (actions.filter (· ≠ first)) := by
  induction actions generalizing state with
  | nil => exact ⟨state, rfl, trivial, ran, trivial⟩
  | cons task actions ih =>
      obtain ⟨next, taken, ranRest⟩ := StepMachine.run_cons_inv ran
      obtain ⟨here, agreesRest⟩ := agrees next taken
      have preserved := commutes.preserved state task next holds taken
      have listedRest : ∀ task ∈ actions, task ∈ first :: rest := fun other inside =>
        listed other (List.mem_cons_of_mem task inside)
      obtain ⟨middle, ranBlock, clearBlock, ranOthers, agreesOthers⟩ :=
        ih listedRest preserved ranRest agreesRest
      by_cases mine : task = first
      · subst mine
        rw [List.count_cons_self, List.replicate_succ, List.filter_cons_of_neg (by simp)]
        refine ⟨middle, StepMachine.run_cons_some taken ranBlock, ?_, ranOthers, agreesOthers⟩
        intro reached found
        have same : next = reached := Option.some.inj (taken.symm.trans found)
        subst same
        exact ⟨fun other among => here.first among fun same => fresh (same ▸ among), clearBlock⟩
      · have among : task ∈ rest := by
          rcases List.mem_cons.mp (listed task List.mem_cons_self) with same | inside
          · exact absurd same mine
          · exact inside
        rw [List.count_cons_of_ne mine, List.filter_cons_of_pos (by simpa using mine)]
        obtain ⟨front, ranFront, moved, clearFront⟩ :=
          commutes.moveBehind mine among holds taken ranBlock clearBlock
        refine ⟨front, ranFront, clearFront, StepMachine.run_cons_some moved ranOthers, ?_⟩
        intro reached found
        have same : middle = reached := Option.some.inj (moved.symm.trans found)
        subst same
        refine ⟨?_, agreesOthers⟩
        intro other inside apart
        have notFirst : first ≠ other := fun same => fresh (same ▸ inside)
        rcases here.tail (Ne.symm mine) fresh other inside apart with isClear | before
        · exact .inl (commutes.clear_after_block (Ne.symm mine) notFirst holds ranFront isClear)
        · exact .inr before

/-- A run whose conflicts agree with an order of its tasks ends where the tasks end that
are run one after the other in that order. -/
theorem Commutes.serial (commutes : Commutes step invariant clear)
    {order : List Task} (nodup : order.Nodup) {actions : List Task}
    (listed : ∀ task ∈ actions, task ∈ order) {state final : State} (holds : invariant state)
    (ran : StepMachine.run step state actions = some final)
    (agrees : StepMachine.Meets step (Agrees clear order) state actions) :
    StepMachine.run (block step fun task => actions.count task) state order = some final := by
  induction order generalizing state actions with
  | nil =>
      cases actions with
      | nil => exact ran
      | cons task actions => exact absurd (listed task List.mem_cons_self) List.not_mem_nil
  | cons first rest ih =>
      obtain ⟨fresh, nodupRest⟩ := List.nodup_cons.mp nodup
      obtain ⟨middle, ranBlock, _, ranOthers, agreesOthers⟩ :=
        commutes.gather fresh listed holds ran agrees
      have listedRest : ∀ task ∈ actions.filter (· ≠ first), task ∈ rest := by
        intro task inside
        obtain ⟨original, apart⟩ := List.mem_filter.mp inside
        rcases List.mem_cons.mp (listed task original) with same | among
        · exact absurd same (by simpa using apart)
        · exact among
      have serialRest := ih nodupRest listedRest (commutes.run_invariant holds ranBlock)
        ranOthers agreesOthers
      refine StepMachine.run_cons_some ranBlock ?_
      rw [← serialRest]
      apply StepMachine.run_congr
      intro state task among
      have different : task ≠ first := fun same => fresh (same ▸ among)
      have counted : (actions.filter (· ≠ first)).count task = actions.count task := by
        apply List.count_filter
        simpa using different
      simp only [block, counted]

end Order

end Schedule
