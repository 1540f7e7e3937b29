import Mathlib.Tactic
import Ldd3.Lib.Semaphore
import Ldd3.Lib.StepMachine
import Ldd3.Access.Core

/-!
scullsingle: `scull_single_open` decrements the flag and tests it in one atomic operation,
and an open that fails gives its decrement back in a second one. In between other
processes see the flag lowered by both the holder and the openers that failed.
-/

namespace Ldd3.Access

open scoped BigOperators

inductive SinglePoint (File : Type)
  | idle
  | failed
  | resetting (file : File)
  deriving DecidableEq, Repr

/-- `flag` is `scull_single_flag`; a file is `opening` from the successful test on. -/
structure SingleSys (Pid File : Type) where
  flag : Int
  files : File → FileState
  points : Pid → SinglePoint File

inductive SingleAction (Pid File : Type)
  | openFile (pid : Pid) (file : File) (mode : AccMode)
  | proceed (pid : Pid)
  | release (file : File)

def SinglePoint.hasFailed {File : Type} : SinglePoint File → Bool
  | .failed => true
  | _ => false

section Machine

variable {Pid File : Type} [DecidableEq Pid] [DecidableEq File]

/-- `atomic_dec_and_test` and what follows it up to the next atomic operation. -/
def scullSingleOpen (sys : SingleSys Pid File) (pid : Pid) (file : File) (mode : AccMode) :
    SingleSys Pid File :=
  let flag := sys.flag - 1
  if flag ≠ 0 then
    { sys with flag := flag, points := Function.update sys.points pid .failed }
  else if mode = .writeOnly then
    { flag := flag
      files := Function.update sys.files file .opening
      points := Function.update sys.points pid (.resetting file) }
  else { sys with flag := flag, files := Function.update sys.files file .ready }

def scullSingleRelease (sys : SingleSys Pid File) (file : File) : SingleSys Pid File :=
  { sys with flag := sys.flag + 1, files := Function.update sys.files file .closed }

def singleStep (sys : SingleSys Pid File) : SingleAction Pid File → Option (SingleSys Pid File)
  | .openFile pid file mode =>
      if sys.points pid = .idle ∧ sys.files file = .closed then
        some (scullSingleOpen sys pid file mode)
      else none
  | .proceed pid =>
      match sys.points pid with
      | .idle => none
      | .failed =>
          some { sys with flag := sys.flag + 1, points := Function.update sys.points pid .idle }
      | .resetting file =>
          some { sys with
            files := Function.update sys.files file .ready
            points := Function.update sys.points pid .idle }
  | .release file =>
      if sys.files file = .ready then some (scullSingleRelease sys file) else none

end Machine

def SingleSys.loaded (Pid File : Type) : SingleSys Pid File :=
  { flag := 1, files := fun _ => .closed, points := fun _ => .idle }

variable {Pid File : Type}

def SingleSys.holders [Fintype File] (sys : SingleSys Pid File) : Int :=
  ∑ file, Semaphore.weight FileState.held (sys.files file)

def SingleSys.failures [Fintype Pid] (sys : SingleSys Pid File) : Int :=
  ∑ pid, Semaphore.weight SinglePoint.hasFailed (sys.points pid)

/-- At most one file is open, the flag accounts for it and for every failed open that has
not given its decrement back, and a device at rest can be opened. -/
structure SingleRules [Fintype Pid] [Fintype File] [DecidableEq Pid] [DecidableEq File]
    (sys : SingleSys Pid File) : Prop where
  exclusive : ∀ file other, (sys.files file).held = true → (sys.files other).held = true →
    file = other
  accounted : sys.flag = 1 - sys.holders - sys.failures
  atRest : (∀ pid, sys.points pid = .idle) → (∀ file, (sys.files file).held = false) →
    sys.flag = 1 ∧ ∀ pid file mode, sys.files file = .closed → ∃ next,
      singleStep sys (.openFile pid file mode) = some next ∧ (next.files file).held = true

structure SingleInvariant [Fintype Pid] [Fintype File] (sys : SingleSys Pid File) : Prop where
  accounted : sys.flag = 1 - sys.holders - sys.failures
  single : sys.holders ≤ 1
  resets : ∀ pid file, sys.points pid = .resetting file → sys.files file = .opening
  resetsAlone : ∀ pid other file, sys.points pid = .resetting file →
    sys.points other = .resetting file → pid = other

theorem SingleSys.holders_nonneg [Fintype File] (sys : SingleSys Pid File) : 0 ≤ sys.holders :=
  Finset.sum_nonneg fun _ _ => Semaphore.weight_nonneg _ _

theorem SingleSys.failures_nonneg [Fintype Pid] (sys : SingleSys Pid File) : 0 ≤ sys.failures :=
  Finset.sum_nonneg fun _ _ => Semaphore.weight_nonneg _ _

theorem SingleSys.holders_update [Fintype File] [DecidableEq File] (sys : SingleSys Pid File) (flag : Int)
    (file : File) (state : FileState) (points : Pid → SinglePoint File) :
    SingleSys.holders
        { flag := flag, files := Function.update sys.files file state, points := points } =
      sys.holders - Semaphore.weight FileState.held (sys.files file) +
        Semaphore.weight FileState.held state :=
  Counting.sum_update sys.files file state _

theorem SingleSys.failures_update [Fintype Pid] [DecidableEq Pid] (sys : SingleSys Pid File) (flag : Int)
    (files : File → FileState) (pid : Pid) (point : SinglePoint File) :
    SingleSys.failures
        { flag := flag, files := files, points := Function.update sys.points pid point } =
      sys.failures - Semaphore.weight SinglePoint.hasFailed (sys.points pid) +
        Semaphore.weight SinglePoint.hasFailed point :=
  Counting.sum_update sys.points pid point _

variable [Fintype Pid] [Fintype File] [DecidableEq Pid] [DecidableEq File]

omit [DecidableEq Pid] in
theorem SingleInvariant.exclusive {sys : SingleSys Pid File} (invariant : SingleInvariant sys)
    {file other : File} (first : (sys.files file).held = true)
    (second : (sys.files other).held = true) : file = other := by
  by_contra different
  have single := invariant.single
  have both := Counting.pair_le_sum sys.files different (Semaphore.weight FileState.held)
    (Semaphore.weight_nonneg _)
  rw [Semaphore.weight_held first, Semaphore.weight_held second] at both
  simp only [SingleSys.holders] at single
  omega

omit [DecidableEq Pid] [DecidableEq File] in
theorem SingleInvariant.atRest {sys : SingleSys Pid File} (invariant : SingleInvariant sys)
    (idle : ∀ pid, sys.points pid = .idle) (unheld : ∀ file, (sys.files file).held = false) :
    sys.flag = 1 := by
  have accounted := invariant.accounted
  have noHolders : sys.holders = 0 := by
    apply Finset.sum_eq_zero
    intro file _
    exact Semaphore.weight_free (unheld file)
  have noFailures : sys.failures = 0 := by
    apply Finset.sum_eq_zero
    intro pid _
    rw [idle pid]
    rfl
  omega

theorem SingleInvariant.rules {sys : SingleSys Pid File} (invariant : SingleInvariant sys) :
    SingleRules sys := by
  refine ⟨fun file other => invariant.exclusive, invariant.accounted, ?_⟩
  intro idle unheld
  have flag := invariant.atRest idle unheld
  refine ⟨flag, ?_⟩
  intro pid file mode closed
  refine ⟨scullSingleOpen sys pid file mode, ?_, ?_⟩
  · simp only [singleStep, idle pid, closed, and_self, if_true]
  · simp only [scullSingleOpen, flag, sub_self, ne_eq, not_true_eq_false, if_false]
    split <;> simp [FileState.held]

omit [DecidableEq Pid] [DecidableEq File] in
theorem singleInvariant_loaded : SingleInvariant (SingleSys.loaded Pid File) := by
  constructor
  · simp [SingleSys.loaded, SingleSys.holders, SingleSys.failures, Semaphore.weight,
      FileState.held, SinglePoint.hasFailed]
  · simp [SingleSys.loaded, SingleSys.holders, Semaphore.weight, FileState.held]
  · intro pid file resets
    simp [SingleSys.loaded] at resets
  · intro pid other file resets
    simp [SingleSys.loaded] at resets

omit [DecidableEq File] [Fintype Pid] [Fintype File] in
theorem resetting_of_update {points : Pid → SinglePoint File} {pid other : Pid}
    {point : SinglePoint File} {file : File} (none : point ≠ .resetting file)
    (resets : Function.update points pid point other = .resetting file) :
    points other = .resetting file := by
  simp only [Function.update_apply] at resets
  split at resets
  · exact absurd resets none
  · exact resets

theorem SingleInvariant.opens {sys : SingleSys Pid File} (invariant : SingleInvariant sys)
    {pid : Pid} {file : File} (idle : sys.points pid = .idle) (closed : sys.files file = .closed)
    (mode : AccMode) : SingleInvariant (scullSingleOpen sys pid file mode) := by
  have accounted := invariant.accounted
  have single := invariant.single
  have holders := sys.holders_nonneg
  have failures := sys.failures_nonneg
  have unheld : Semaphore.weight FileState.held (sys.files file) = 0 := by rw [closed]; rfl
  have unfailed : Semaphore.weight SinglePoint.hasFailed (sys.points pid) = 0 := by rw [idle]; rfl
  simp only [scullSingleOpen]
  split
  · refine ⟨?_, single, ?_, ?_⟩
    · rw [SingleSys.failures_update, unfailed]
      change sys.flag - 1 = 1 - sys.holders - (sys.failures - 0 + 1)
      omega
    · intro other used resets
      exact invariant.resets other used (resetting_of_update (by simp) resets)
    · intro one other used first second
      exact invariant.resetsAlone one other used (resetting_of_update (by simp) first)
        (resetting_of_update (by simp) second)
  · rename_i tested
    -- the test succeeds on a flag of 1 only: nobody holds the device, no failure is pending
    have free : sys.holders = 0 ∧ sys.failures = 0 := by omega
    have fresh : ∀ other used, sys.points other = .resetting used → used ≠ file := by
      rintro other used resets rfl
      rw [invariant.resets other used resets] at closed
      contradiction
    split
    · refine ⟨?_, ?_, ?_, ?_⟩
      · rw [SingleSys.holders_update, SingleSys.failures_update, unheld, unfailed]
        change sys.flag - 1 = 1 - (sys.holders - 0 + 1) - (sys.failures - 0 + 0)
        omega
      · rw [SingleSys.holders_update, unheld]
        change sys.holders - 0 + 1 ≤ 1
        omega
      · intro other used resets
        simp only [Function.update_apply] at resets ⊢
        split at resets
        · cases resets
          rw [if_pos rfl]
        · rw [if_neg (fresh other used resets)]
          exact invariant.resets other used resets
      · intro one other used first second
        simp only [Function.update_apply] at first second
        split at first
        · rename_i same
          cases first
          split at second
          · rename_i again
            exact same.trans again.symm
          · exact absurd rfl (fresh other _ second)
        · split at second
          · cases second
            exact absurd rfl (fresh one _ first)
          · exact invariant.resetsAlone one other used first second
    · refine ⟨?_, ?_, ?_, invariant.resetsAlone⟩
      · rw [SingleSys.holders_update, unheld]
        change sys.flag - 1 = 1 - (sys.holders - 0 + 1) - sys.failures
        omega
      · rw [SingleSys.holders_update, unheld]
        change sys.holders - 0 + 1 ≤ 1
        omega
      · intro other used resets
        change Function.update sys.files file .ready used = .opening
        rw [Function.update_of_ne (fresh other used resets)]
        exact invariant.resets other used resets

omit [DecidableEq File] in
theorem SingleInvariant.returns {sys : SingleSys Pid File} (invariant : SingleInvariant sys)
    {pid : Pid} (here : sys.points pid = .failed) :
    SingleInvariant
      { sys with flag := sys.flag + 1, points := Function.update sys.points pid .idle } := by
  have accounted := invariant.accounted
  refine ⟨?_, invariant.single, ?_, ?_⟩
  · rw [SingleSys.failures_update, here]
    change sys.flag + 1 = 1 - sys.holders - (sys.failures - 1 + 0)
    omega
  · intro other used resets
    exact invariant.resets other used (resetting_of_update (by simp) resets)
  · intro one other used first second
    exact invariant.resetsAlone one other used (resetting_of_update (by simp) first)
      (resetting_of_update (by simp) second)

theorem SingleInvariant.finishes {sys : SingleSys Pid File} (invariant : SingleInvariant sys)
    {pid : Pid} {file : File} (here : sys.points pid = .resetting file) :
    SingleInvariant
      { sys with
        files := Function.update sys.files file .ready
        points := Function.update sys.points pid .idle } := by
  have accounted := invariant.accounted
  have single := invariant.single
  have opening := invariant.resets pid file here
  refine ⟨?_, ?_, ?_, ?_⟩
  · rw [SingleSys.holders_update, SingleSys.failures_update, here, opening]
    change sys.flag = 1 - (sys.holders - 1 + 1) - (sys.failures - 0 + 0)
    omega
  · rw [SingleSys.holders_update, opening]
    change sys.holders - 1 + 1 ≤ 1
    omega
  · intro other used resets
    simp only [Function.update_apply] at resets ⊢
    split at resets
    · contradiction
    · rename_i different
      have elsewhere : used ≠ file := by
        rintro rfl
        exact different (invariant.resetsAlone other pid used resets here)
      rw [if_neg elsewhere]
      exact invariant.resets other used resets
  · intro one other used first second
    exact invariant.resetsAlone one other used (resetting_of_update (by simp) first)
      (resetting_of_update (by simp) second)

omit [DecidableEq Pid] in
theorem SingleInvariant.releases {sys : SingleSys Pid File} (invariant : SingleInvariant sys)
    {file : File} (ready : sys.files file = .ready) :
    SingleInvariant (scullSingleRelease sys file) := by
  have accounted := invariant.accounted
  have single := invariant.single
  refine ⟨?_, ?_, ?_, invariant.resetsAlone⟩
  · simp only [scullSingleRelease]
    rw [SingleSys.holders_update, ready]
    change sys.flag + 1 = 1 - (sys.holders - 1 + 0) - sys.failures
    omega
  · simp only [scullSingleRelease]
    rw [SingleSys.holders_update, ready]
    change sys.holders - 1 + 0 ≤ 1
    omega
  · intro other used resets
    have opening := invariant.resets other used resets
    simp only [scullSingleRelease]
    rw [Function.update_of_ne]
    · exact opening
    · rintro rfl
      rw [ready] at opening
      contradiction

theorem singleInvariant_step {sys next : SingleSys Pid File} {action : SingleAction Pid File}
    (invariant : SingleInvariant sys) (taken : singleStep sys action = some next) :
    SingleInvariant next := by
  cases action with
  | openFile pid file mode =>
      simp only [singleStep] at taken
      split at taken
      · rename_i allowed
        cases taken
        exact invariant.opens allowed.1 allowed.2 mode
      · contradiction
  | proceed pid =>
      simp only [singleStep] at taken
      split at taken
      · contradiction
      · rename_i here
        cases taken
        exact invariant.returns here
      · rename_i file here
        cases taken
        exact invariant.finishes here
  | release file =>
      simp only [singleStep] at taken
      split at taken
      · rename_i ready
        cases taken
        exact invariant.releases ready
      · contradiction

omit [DecidableEq Pid] [DecidableEq File] in
/-- The flag never leaves the range that one holder and all processes at a failed open
span, which an `atomic_t` holds for any number of tasks below 2^31. -/
theorem SingleInvariant.flag_range {sys : SingleSys Pid File} (invariant : SingleInvariant sys) :
    -(Fintype.card Pid : Int) ≤ sys.flag ∧ sys.flag ≤ 1 := by
  have accounted := invariant.accounted
  have single := invariant.single
  have holders := sys.holders_nonneg
  have failures := sys.failures_nonneg
  have bound : sys.failures ≤ ∑ _pid : Pid, 1 := by
    apply Finset.sum_le_sum
    intro pid _
    simp only [Semaphore.weight]
    split <;> omega
  simp only [Finset.sum_const, Finset.card_univ, nsmul_eq_mul, mul_one] at bound
  omega

theorem scullSingle_exclusive (actions : List (SingleAction Pid File)) :
    StepMachine.Always singleStep SingleRules (.loaded Pid File) actions := by
  refine StepMachine.always_of_meets ?_ (fun _ => SingleInvariant.rules) singleInvariant_loaded
    (StepMachine.meets_true _ actions)
  intro sys action next invariant _ taken
  exact singleInvariant_step invariant taken

end Ldd3.Access
