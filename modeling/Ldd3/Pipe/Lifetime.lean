import Mathlib.Tactic
import Ldd3.Lib.StepMachine
import Ldd3.Pipe.Fifo
import Ldd3.Pipe.Openers
import Ldd3.Pipe.Poll

/-!
The life of the buffer of a pipe: `kmalloc` at the first open, `kfree` at the last close.
Buffers get numbers in the order in which `kmalloc` returns them, and a ledger follows the
pointers `start`, `rp` and `wp` by these numbers.
-/

namespace Ldd3.Pipe

open scoped BigOperators

structure Ledger where
  start : Option Nat
  base : Option Nat
  allocated : Nat
  freed : List Nat
  deriving DecidableEq, Repr

/-- `kmalloc` returns a buffer: `start` is set, and `rp` and `wp` with it. -/
def Ledger.kmalloc (ledger : Ledger) : Ledger :=
  { ledger with
    start := some ledger.allocated
    base := some ledger.allocated
    allocated := ledger.allocated + 1 }

def Ledger.kfree (ledger : Ledger) : Ledger :=
  { ledger with start := none, freed := ledger.start.toList ++ ledger.freed }

def ledgerOpen (env : Env) (ledger : Ledger) : Ledger :=
  if env.interrupted then ledger
  else if ledger.start = none ∧ env.alloc 0 then ledger.kmalloc else ledger

def ledgerRelease (mode : FileMode) (dev : ScullPipe) (ledger : Ledger) : Ledger :=
  let dev := dropOpener mode dev
  if dev.nreaders = 0 ∧ dev.nwriters = 0 then ledger.kfree else ledger

section Machine

variable {Pid File : Type}

structure PipeLife (Pid File : Type) where
  sys : PipeSys Pid File
  ledger : Ledger

def Ledger.after (ledger : Ledger) (sys : PipeSys Pid File) : PipeAction Pid File → Ledger
  | .openFile _ _ env => ledgerOpen env ledger
  | .release file =>
      match sys.files file with
      | none => ledger
      | some mode => ledgerRelease mode sys.dev ledger
  | _ => ledger

def lifeStep [DecidableEq Pid] [DecidableEq File] [Fintype Pid] (scullPBuffer : Nat)
    (life : PipeLife Pid File) (action : PipeAction Pid File) : Option (PipeLife Pid File) :=
  (pipeStep scullPBuffer life.sys action).map fun next =>
    { sys := next, ledger := life.ledger.after life.sys action }

def PipeLife.loaded (Pid File : Type) : PipeLife Pid File :=
  { sys := .loaded Pid File, ledger := { start := none, base := none, allocated := 0, freed := [] } }

/-- A process that holds or waits for `dev->sem` on behalf of a read or a write. -/
def InSection : PipeCall File → Prop
  | .reading _ _ .down => True
  | .writing _ _ .down => True
  | _ => False

/-- What the opens, releases, reads and writes of a pipe owe each other. A section is safe when
it runs on a buffer that is allocated and not freed, which `rp` and `wp` point into, and makes
no access outside it. -/
structure Lifetimes [Fintype File] (size : Nat) (life : PipeLife Pid File) : Prop where
  readers : life.sys.dev.nreaders = ∑ file, readWeight (life.sys.files file)
  writers : life.sys.dev.nwriters = ∑ file, writeWeight (life.sys.files file)
  allocated : ∀ file mode, life.sys.files file = some mode → mode.read = true ∨ mode.write = true →
    life.ledger.start ≠ none ∧ life.sys.dev.start ≠ none
  freedOnce : life.ledger.freed.Nodup ∧ ∀ number, number ∈ life.ledger.freed ↔
    number < life.ledger.allocated ∧ life.ledger.start ≠ some number
  allFreed : (∀ file, life.sys.files file = none) →
    ∀ number, number < life.ledger.allocated → life.ledger.freed.count number = 1
  sections : ∀ pid, InSection (life.sys.calls pid) →
    (∃ number, life.ledger.start = some number ∧ life.ledger.base = some number ∧
      number ∉ life.ledger.freed) ∧
    (∀ env count oops, scullPReadLocked env life.sys.dev count ≠ .error oops) ∧
    ∀ env data oops, scullPWriteLocked env life.sys.dev data ≠ .error oops
  failedOpen : ∀ env mode, (scullPOpen size env mode life.sys.dev).2 ≠ 0 →
    (scullPOpen size env mode life.sys.dev).1 = life.sys.dev
  startsEmpty : life.sys.dev.start = none → ∀ env mode,
    (scullPOpen size env mode life.sys.dev).1.start ≠ none →
      (scullPOpen size env mode life.sys.dev).1.rp = (scullPOpen size env mode life.sys.dev).1.wp
  ownBytes : life.sys.dev.start ≠ none → life.sys.returned <+: life.sys.accepted

end Machine

/-! Opens and releases, on the device and on the ledger. -/

theorem scullPOpen_failed {size : Nat} {env : Env} {mode : FileMode} {dev : ScullPipe}
    (failed : (scullPOpen size env mode dev).2 ≠ 0) : (scullPOpen size env mode dev).1 = dev := by
  simp only [scullPOpen] at failed ⊢
  split
  · rfl
  · rename_i quiet
    rw [if_neg quiet] at failed
    split
    · rename_i buffer started
      simp [started] at failed
    · rename_i missing
      simp only [missing] at failed
      split
      · rename_i allocated
        simp [allocated] at failed
      · rfl

theorem scullPOpen_empty {size : Nat} {env : Env} {mode : FileMode} {dev : ScullPipe}
    (missing : dev.start = none) (started : (scullPOpen size env mode dev).1.start ≠ none) :
    (scullPOpen size env mode dev).1.rp = (scullPOpen size env mode dev).1.wp := by
  simp only [scullPOpen, missing] at started ⊢
  split
  · rename_i pending
    rw [if_pos pending] at started
    exact absurd missing started
  · rename_i quiet
    rw [if_neg quiet] at started
    split
    · rfl
    · rename_i refused
      rw [if_neg refused] at started
      exact absurd missing started

theorem scullPReadLocked_safe {dev : ScullPipe} {buffer : List Byte} (sound : Sound dev buffer)
    (env : Env) (count : Nat) (oops : Oops) : scullPReadLocked env dev count ≠ .error oops := by
  simp only [scullPReadLocked, sound.start]
  by_cases empty : dev.rp = dev.wp
  · simp only [empty, ↓reduceIte]
    split <;> simp
  · have available := readCount_readable sound empty count
    have reach := readable_fits sound.inside
    have fits : dev.rp + readCount dev count ≤ buffer.length := by omega
    simp only [empty, fits, ↓reduceIte]
    split <;> simp

theorem scullPWriteLocked_safe {dev : ScullPipe} {buffer : List Byte} (sound : Sound dev buffer)
    (env : Env) (data : List Byte) (oops : Oops) : scullPWriteLocked env dev data ≠ .error oops := by
  obtain ⟨_, withinRoom⟩ := writeCount_writable sound data.length
  have reach := writable_fits sound.inside
  have fits : dev.wp + writeCount dev data.length ≤ buffer.length := by omega
  simp only [scullPWriteLocked, sound.start, fits, ↓reduceIte]
  split
  · simp
  · split <;> simp

section Machine

variable {Pid File : Type}

inductive LedgerMove (sys next : PipeSys Pid File) (ledger : Ledger) : Ledger → Prop
  | kept (start : next.dev.start = none ↔ sys.dev.start = none) : LedgerMove sys next ledger ledger
  | allocated (missing : sys.dev.start = none) (started : next.dev.start ≠ none) :
      LedgerMove sys next ledger ledger.kmalloc
  | freed (gone : next.dev.start = none) : LedgerMove sys next ledger ledger.kfree

variable [DecidableEq Pid] [DecidableEq File]

theorem section_start {size : Nat} {sys next : PipeSys Pid File} {action : PipeAction Pid File}
    (taken : Transition size sys action next) (notOpen : ∀ file mode env, action ≠ .openFile file mode env)
    (notRelease : ∀ file, action ≠ .release file) :
    next.dev.start = none ↔ sys.dev.start = none := by
  cases taken with
  | openFailed => exact absurd rfl (notOpen _ _ _)
  | openedShared closed allocated => exact absurd rfl (notOpen _ _ _)
  | openedFirst closed missing length => exact absurd rfl (notOpen _ _ _)
  | released opened unused quiet => exact absurd rfl (notRelease _)
  | releasedLast opened unused wakes => exact absurd rfl (notRelease _)
  | moved move => exact Iff.rfl
  | readData here locked =>
      have same := congrArg ScullPipe.start (scullPReadLocked_frame locked)
      simp only [PipeSys.setCall, same]
  | writeFaulted here locked =>
      have started := scullPWriteLocked_start locked (by simp)
      exact iff_of_false started.2 started.1
  | wroteData here locked =>
      have started := scullPWriteLocked_start locked (by simp)
      exact iff_of_false started.2 started.1
  | wokeWriters here => exact Iff.rfl
  | wokeReaders here => exact Iff.rfl

variable [Fintype Pid]

theorem openFile_ledgerMove {size : Nat} {sys next : PipeSys Pid File} {ledger : Ledger}
    (same : ledger.start = none ↔ sys.dev.start = none) {file : File} {mode : FileMode} {env : Env}
    (taken : pipeStep size sys (.openFile file mode env) = some next) :
    LedgerMove sys next ledger (ledgerOpen env ledger) := by
  simp only [pipeStep] at taken
  split at taken
  · simp only [scullPOpen] at taken
    cases pending : env.interrupted with
    | true =>
        simp only [pending, ↓reduceIte, ERESTARTSYS] at taken
        cases taken
        simp only [ledgerOpen, pending, ↓reduceIte]
        exact .kept Iff.rfl
    | false =>
        simp only [ledgerOpen, pending, Bool.false_eq_true, ↓reduceIte] at taken ⊢
        cases started : sys.dev.start with
        | some buffer =>
            simp only [started, Option.isSome_some, ↓reduceIte, Option.some.injEq] at taken
            subst taken
            have present : ledger.start ≠ none := by
              rw [Ne, same, started]
              simp
            simp only [present, false_and, ↓reduceIte]
            exact .kept Iff.rfl
        | none =>
            have missing := same.mpr started
            cases allocated : env.alloc 0 with
            | true =>
                simp only [started, allocated, Option.isSome_none, ↓reduceIte,
                  Option.some.injEq] at taken
                subst taken
                simp only [missing, true_and, ↓reduceIte]
                exact .allocated started (by simp [addOpener])
            | false =>
                simp only [started, allocated, Bool.false_eq_true, ↓reduceIte, ENOMEM] at taken
                cases taken
                simp only [Bool.false_eq_true, and_false, ↓reduceIte]
                exact .kept Iff.rfl
  · contradiction

theorem release_ledgerMove {size : Nat} {sys next : PipeSys Pid File} {ledger : Ledger}
    {file : File} (taken : pipeStep size sys (.release file) = some next) :
    LedgerMove sys next ledger (ledger.after sys (.release file)) := by
  cases opened : sys.files file with
  | none => simp only [pipeStep, opened, reduceCtorEq] at taken
  | some mode =>
      have after : ledger.after sys (.release file) = ledgerRelease mode sys.dev ledger := by
        simp only [Ledger.after, opened]
      rw [after]
      simp only [pipeStep, opened] at taken
      split at taken
      · have start : next.dev.start = (scullPRelease mode sys.dev).1.start := by
          simp only [Option.some.injEq] at taken
          subst taken
          split <;> rfl
        simp only [scullPRelease] at start
        simp only [ledgerRelease]
        split at start
        · rename_i last
          rw [if_pos last]
          exact .freed start
        · rename_i used
          rw [if_neg used]
          exact .kept (by rw [start]; rfl)
      · contradiction

theorem pipeStep_ledgerMove {size : Nat} {sys next : PipeSys Pid File} {ledger : Ledger}
    (same : ledger.start = none ↔ sys.dev.start = none) {action : PipeAction Pid File}
    (taken : pipeStep size sys action = some next) :
    LedgerMove sys next ledger (ledger.after sys action) := by
  cases action with
  | openFile file mode env => exact openFile_ledgerMove same taken
  | release file => exact release_ledgerMove taken
  | startRead => exact .kept (section_start (pipeStep_transition taken) (by simp) (by simp))
  | startWrite => exact .kept (section_start (pipeStep_transition taken) (by simp) (by simp))
  | proceed => exact .kept (section_start (pipeStep_transition taken) (by simp) (by simp))
  | signal => exact .kept (section_start (pipeStep_transition taken) (by simp) (by simp))

/-! The ledger along a run. -/

structure Ledger.Valid (ledger : Ledger) : Prop where
  base : ledger.start ≠ none → ledger.base = ledger.start
  numbered : ∀ number, ledger.start = some number → number < ledger.allocated
  nodup : ledger.freed.Nodup
  freed : ∀ number, number ∈ ledger.freed ↔ number < ledger.allocated ∧ ledger.start ≠ some number

theorem Ledger.Valid.kmalloc {ledger : Ledger} (valid : ledger.Valid) (missing : ledger.start = none) :
    ledger.kmalloc.Valid := by
  refine ⟨fun _ => rfl, ?_, valid.nodup, ?_⟩
  · rintro number started
    cases started
    exact Nat.lt_succ_self _
  · intro number
    have freed := valid.freed number
    simp only [missing, ne_eq, reduceCtorEq, not_false_eq_true, and_true] at freed
    simp only [Ledger.kmalloc, freed, ne_eq, Option.some.injEq]
    omega

theorem Ledger.Valid.kfree {ledger : Ledger} (valid : ledger.Valid) : ledger.kfree.Valid := by
  refine ⟨fun started => absurd rfl started, fun number started => by simp [Ledger.kfree] at started,
    ?_, ?_⟩
  · cases started : ledger.start with
    | none => simpa only [Ledger.kfree, started, Option.toList_none, List.nil_append] using valid.nodup
    | some current =>
        have unfreed : current ∉ ledger.freed := fun member =>
          ((valid.freed current).mp member).2 started
        simpa only [Ledger.kfree, started, Option.toList_some, List.singleton_append,
          List.nodup_cons] using ⟨unfreed, valid.nodup⟩
  · intro number
    have freed := valid.freed number
    cases started : ledger.start with
    | none =>
        simp only [started, ne_eq, reduceCtorEq, not_false_eq_true, and_true] at freed
        simp [Ledger.kfree, started, freed]
    | some current =>
        have numbered := valid.numbered current started
        simp only [started, ne_eq, Option.some.injEq] at freed
        simp only [Ledger.kfree, started, Option.toList_some, List.singleton_append, List.mem_cons,
          freed, ne_eq, reduceCtorEq, not_false_eq_true, and_true]
        omega

structure LifeInvariant [Fintype File] (size : Nat) (life : PipeLife Pid File) : Prop where
  openers : OpenersInvariant life.sys
  fifo : FifoInvariant size life.sys
  same : life.ledger.start = none ↔ life.sys.dev.start = none
  valid : life.ledger.Valid
  opened : life.sys.dev.start ≠ none → ∃ file, life.sys.files file ≠ none

section Open

variable [Fintype File]

omit [DecidableEq Pid] [DecidableEq File] [Fintype Pid] in
theorem opened_of_counted {sys : PipeSys Pid File} (openers : OpenersInvariant sys)
    (counted : ¬ (sys.dev.nreaders = 0 ∧ sys.dev.nwriters = 0)) :
    ∃ file, sys.files file ≠ none := by
  by_contra closed
  simp only [not_exists, not_not] at closed
  apply counted
  constructor
  · rw [openers.readers]
    exact Finset.sum_eq_zero fun file _ => by rw [closed file, readWeight_none]
  · rw [openers.writers]
    exact Finset.sum_eq_zero fun file _ => by rw [closed file, writeWeight_none]

theorem scullPRelease_counted {mode : FileMode} {dev : ScullPipe}
    (started : (scullPRelease mode dev).1.start ≠ none) :
    ¬ ((scullPRelease mode dev).1.nreaders = 0 ∧ (scullPRelease mode dev).1.nwriters = 0) := by
  intro last
  simp only [scullPRelease] at started last
  exact started (if_pos last)

omit [Fintype Pid] in
theorem opened_step {size : Nat} {sys next : PipeSys Pid File} {action : PipeAction Pid File}
    (opened : sys.dev.start ≠ none → ∃ file, sys.files file ≠ none)
    (openers : OpenersInvariant next) (taken : Transition size sys action next)
    (started : next.dev.start ≠ none) : ∃ file, next.files file ≠ none := by
  cases taken with
  | openFailed => exact opened started
  | openedShared closed allocated =>
      rename_i file mode env buffer
      exact ⟨file, by simp⟩
  | openedFirst closed missing length =>
      rename_i file mode env buffer
      exact ⟨file, by simp⟩
  | released held unused quiet => exact opened_of_counted openers (scullPRelease_counted started)
  | releasedLast held unused wakes => exact opened_of_counted openers (scullPRelease_counted started)
  | moved move => exact opened started
  | readData here locked =>
      have same := congrArg ScullPipe.start (scullPReadLocked_frame locked)
      exact opened (same ▸ started)
  | writeFaulted here locked =>
      exact opened (scullPWriteLocked_start locked (by simp)).1
  | wroteData here locked =>
      exact opened (scullPWriteLocked_start locked (by simp)).1
  | wokeWriters here => exact opened started
  | wokeReaders here => exact opened started

theorem lifeInvariant_step {size : Nat} (two : 2 ≤ size) (fits : size < 2147483648)
    {life next : PipeLife Pid File} {action : PipeAction Pid File} (invariant : LifeInvariant size life)
    (taken : lifeStep size life action = some next) : LifeInvariant size next := by
  obtain ⟨sys, stepped, rfl⟩ := Option.map_eq_some_iff.mp taken
  have transition := pipeStep_transition stepped
  have openers := openersInvariant_step invariant.openers transition
  have fifo := fifoInvariant_step two fits invariant.fifo transition
  have opened := opened_step invariant.opened openers transition
  have move := pipeStep_ledgerMove invariant.same stepped
  have valid := invariant.valid
  generalize life.ledger.after life.sys action = ledger at move ⊢
  cases move with
  | kept start => exact ⟨openers, fifo, invariant.same.trans start.symm, valid, opened⟩
  | allocated missing started =>
      refine ⟨openers, fifo, ?_, valid.kmalloc (invariant.same.mpr missing), opened⟩
      exact iff_of_false (by simp [Ledger.kmalloc]) started
  | freed gone => exact ⟨openers, fifo, iff_of_true rfl gone, valid.kfree, opened⟩

omit [DecidableEq Pid] [DecidableEq File] [Fintype Pid] in
theorem lifeInvariant_loaded (size : Nat) : LifeInvariant size (PipeLife.loaded Pid File) := by
  refine ⟨openersInvariant_loaded, ?_, ?_, ⟨?_, ?_, ?_, ?_⟩, ?_⟩
  · intro buffer allocated
    simp [PipeLife.loaded, PipeSys.loaded, ScullPipe.zeroed] at allocated
  · simp [PipeLife.loaded, PipeSys.loaded, ScullPipe.zeroed]
  · simp [PipeLife.loaded]
  · simp [PipeLife.loaded]
  · simp [PipeLife.loaded]
  · simp [PipeLife.loaded]
  · simp [PipeLife.loaded, PipeSys.loaded, ScullPipe.zeroed]

omit [DecidableEq Pid] [DecidableEq File] [Fintype Pid] in
theorem LifeInvariant.started_of_section {size : Nat} {life : PipeLife Pid File}
    (invariant : LifeInvariant size life) {pid : Pid} (inSection : InSection (life.sys.calls pid)) :
    life.sys.dev.start ≠ none := by
  apply invariant.openers.allocated
  cases called : life.sys.calls pid with
  | idle => simp [InSection, called] at inSection
  | reading file count point => exact Or.inl (invariant.openers.reading called)
  | writing file data point => exact Or.inr (invariant.openers.writing called)

omit [DecidableEq Pid] [DecidableEq File] [Fintype Pid] in
theorem LifeInvariant.lifetimes {size : Nat} {life : PipeLife Pid File}
    (invariant : LifeInvariant size life) : Lifetimes size life := by
  have openers := invariant.openers
  have valid := invariant.valid
  constructor
  · exact openers.readers
  · exact openers.writers
  · intro file mode opened usable
    have used : life.sys.dev.start ≠ none := openers.allocated (used_of_opened openers opened usable)
    exact ⟨fun missing => used (invariant.same.mp missing), used⟩
  · exact ⟨valid.nodup, valid.freed⟩
  · intro closed number below
    have gone : life.sys.dev.start = none := by
      by_contra started
      obtain ⟨file, opened⟩ := invariant.opened started
      exact opened (closed file)
    have member : number ∈ life.ledger.freed := by
      rw [valid.freed, invariant.same.mpr gone]
      exact ⟨below, by simp⟩
    exact List.count_eq_one_of_mem valid.nodup member
  · intro pid inSection
    have started := invariant.started_of_section inSection
    obtain ⟨number, current⟩ := Option.ne_none_iff_exists'.mp fun missing =>
      started (invariant.same.mp missing)
    obtain ⟨buffer, allocated⟩ := Option.ne_none_iff_exists'.mp started
    obtain ⟨queue, represents⟩ := invariant.fifo buffer allocated
    refine ⟨⟨number, current, ?_, ?_⟩, scullPReadLocked_safe represents.sound,
      scullPWriteLocked_safe represents.sound⟩
    · rw [valid.base (by simp [current]), current]
    · intro freed
      exact ((valid.freed number).mp freed).2 current
  · intro env mode failed
    exact scullPOpen_failed failed
  · intro missing env mode started
    exact scullPOpen_empty missing started
  · intro started
    obtain ⟨buffer, allocated⟩ := Option.ne_none_iff_exists'.mp started
    obtain ⟨queue, represents⟩ := invariant.fifo buffer allocated
    rw [← represents.returned, ← represents.accepted, ← queue.conserved]
    exact List.prefix_append _ _

/-- Along any interleaving the counters count the open files, the buffer lives from the first
open to the last close and is freed once, no section runs without it, and no byte of one
lifetime is read in another. -/
theorem scullPipe_lifetimes {size : Nat} (two : 2 ≤ size) (fits : size < 2147483648)
    {life : PipeLife Pid File}
    (reached : StepMachine.Reachable (lifeStep size) (.loaded Pid File) life) :
    Lifetimes size life := by
  have invariant : LifeInvariant size life := by
    apply StepMachine.reachable_invariant _ (lifeInvariant_loaded size) reached
    intro life action next invariant taken
    exact lifeInvariant_step two fits invariant taken
  exact invariant.lifetimes

end Open

end Machine

def reopenedRun : List (PipeAction Unit Unit) :=
  [.openFile () ⟨false, true, false⟩ (.good fun _ => 0), .startWrite () () [7],
    .proceed () (.good fun _ => 0), .proceed () (.good fun _ => 0), .release (),
    .openFile () ⟨true, false, false⟩ (.good fun _ => 0)]

theorem scullPipe_lifetimes_reopened :
    ∃ life : PipeLife Unit Unit,
      StepMachine.Reachable (lifeStep 100) (.loaded Unit Unit) life ∧
        life.ledger = { start := some 1, base := some 1, allocated := 2, freed := [0] } ∧
        Lifetimes 100 life := by
  have ran : ((StepMachine.run (lifeStep 100) (.loaded Unit Unit) reopenedRun).map (·.ledger)) =
      some { start := some 1, base := some 1, allocated := 2, freed := [0] } := by
    decide +kernel
  rw [Option.map_eq_some_iff] at ran
  obtain ⟨life, reached, ledger⟩ := ran
  exact ⟨life, ⟨_, reached⟩, ledger, scullPipe_lifetimes (by decide) (by decide) ⟨_, reached⟩⟩

end Ldd3.Pipe
