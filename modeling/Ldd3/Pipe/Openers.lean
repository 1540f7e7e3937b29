import Mathlib.Tactic
import Ldd3.Lib.Counting
import Ldd3.Lib.StepMachine
import Ldd3.Pipe.Steps

/-!
`nreaders` and `nwriters` count the open files, and every call in progress holds a
file that is open for it.
-/

namespace Ldd3.Pipe

open scoped BigOperators

def readWeight : Option FileMode → Int
  | none => 0
  | some mode => if mode.read then 1 else 0

def writeWeight : Option FileMode → Int
  | none => 0
  | some mode => if mode.write then 1 else 0

@[simp] theorem readWeight_none : readWeight none = 0 := rfl

@[simp] theorem readWeight_some (mode : FileMode) :
    readWeight (some mode) = if mode.read then 1 else 0 := rfl

@[simp] theorem writeWeight_none : writeWeight none = 0 := rfl

@[simp] theorem writeWeight_some (mode : FileMode) :
    writeWeight (some mode) = if mode.write then 1 else 0 := rfl

theorem readWeight_nonneg (opened : Option FileMode) : 0 ≤ readWeight opened := by
  cases opened with
  | none => exact le_refl 0
  | some mode =>
      simp only [readWeight]
      split <;> omega

theorem writeWeight_nonneg (opened : Option FileMode) : 0 ≤ writeWeight opened := by
  cases opened with
  | none => exact le_refl 0
  | some mode =>
      simp only [writeWeight]
      split <;> omega

theorem readWeight_le_one (opened : Option FileMode) : readWeight opened ≤ 1 := by
  cases opened with
  | none => exact zero_le_one
  | some mode =>
      simp only [readWeight]
      split <;> omega

theorem writeWeight_le_one (opened : Option FileMode) : writeWeight opened ≤ 1 := by
  cases opened with
  | none => exact zero_le_one
  | some mode =>
      simp only [writeWeight]
      split <;> omega

section Machine

variable {Pid File : Type}

def FileOpen (files : File → Option FileMode) : PipeCall File → Prop
  | .idle => True
  | .reading file _ _ => ∃ mode, files file = some mode ∧ mode.read = true
  | .writing file _ _ => ∃ mode, files file = some mode ∧ mode.write = true

structure OpenersInvariant [Fintype File] (sys : PipeSys Pid File) : Prop where
  readers : sys.dev.nreaders = ∑ file, readWeight (sys.files file)
  writers : sys.dev.nwriters = ∑ file, writeWeight (sys.files file)
  allocated : 0 < sys.dev.nreaders ∨ 0 < sys.dev.nwriters → sys.dev.start ≠ none
  calls : ∀ pid, FileOpen sys.files (sys.calls pid)

theorem OpenersInvariant.readers_nonneg [Fintype File] {sys : PipeSys Pid File}
    (invariant : OpenersInvariant sys) : 0 ≤ sys.dev.nreaders := by
  rw [invariant.readers]
  exact Finset.sum_nonneg fun file _ => readWeight_nonneg _

theorem OpenersInvariant.writers_nonneg [Fintype File] {sys : PipeSys Pid File}
    (invariant : OpenersInvariant sys) : 0 ≤ sys.dev.nwriters := by
  rw [invariant.writers]
  exact Finset.sum_nonneg fun file _ => writeWeight_nonneg _

theorem OpenersInvariant.reading [Fintype File]
    {sys : PipeSys Pid File} (invariant : OpenersInvariant sys)
    {pid : Pid} {file : File} {count : Nat} {point : ReadPoint}
    (here : sys.calls pid = .reading file count point) : 0 < sys.dev.nreaders := by
  have opened := invariant.calls pid
  rw [here] at opened
  obtain ⟨mode, found, readable⟩ := opened
  have counted := Counting.weight_le_sum sys.files file readWeight readWeight_nonneg
  rw [found, ← invariant.readers] at counted
  simp only [readWeight_some, if_pos readable] at counted
  omega

theorem OpenersInvariant.writing [Fintype File]
    {sys : PipeSys Pid File} (invariant : OpenersInvariant sys)
    {pid : Pid} {file : File} {data : List Byte} {point : WritePoint}
    (here : sys.calls pid = .writing file data point) : 0 < sys.dev.nwriters := by
  have opened := invariant.calls pid
  rw [here] at opened
  obtain ⟨mode, found, writable⟩ := opened
  have counted := Counting.weight_le_sum sys.files file writeWeight writeWeight_nonneg
  rw [found, ← invariant.writers] at counted
  simp only [writeWeight_some, if_pos writable] at counted
  omega

theorem FileOpen.opened [DecidableEq File]
    {files : File → Option FileMode} {call : PipeCall File} {file : File}
    (held : FileOpen files call) (closed : files file = none) (mode : FileMode) :
    FileOpen (Function.update files file (some mode)) call := by
  have other : ∀ used found, files used = some found →
      Function.update files file (some mode) used = some found := by
    intro used found isOpen
    rw [Function.update_of_ne, isOpen]
    rintro rfl
    rw [closed] at isOpen
    contradiction
  cases call with
  | idle => trivial
  | reading used count point =>
      obtain ⟨found, isOpen, readable⟩ := held
      exact ⟨found, other used found isOpen, readable⟩
  | writing used data point =>
      obtain ⟨found, isOpen, writable⟩ := held
      exact ⟨found, other used found isOpen, writable⟩

theorem FileOpen.released [DecidableEq File]
    {files : File → Option FileMode} {call : PipeCall File} {file : File}
    (held : FileOpen files call) (unused : call.file? ≠ some file) :
    FileOpen (Function.update files file none) call := by
  have other : ∀ used, some used ≠ some file →
      Function.update files file none used = files used := by
    intro used different
    apply Function.update_of_ne
    rintro rfl
    exact different rfl
  cases call with
  | idle => trivial
  | reading used count point =>
      obtain ⟨found, isOpen, readable⟩ := held
      exact ⟨found, by rw [other used unused, isOpen], readable⟩
  | writing used data point =>
      obtain ⟨found, isOpen, writable⟩ := held
      exact ⟨found, by rw [other used unused, isOpen], writable⟩

theorem FileOpen.wakeReader {files : File → Option FileMode} {call : PipeCall File}
    (held : FileOpen files call) : FileOpen files (wakeReader call) := by
  cases call with
  | idle => trivial
  | reading file count point => cases point <;> exact held
  | writing file data point => exact held

theorem FileOpen.wakeWriter {files : File → Option FileMode} {call : PipeCall File}
    (held : FileOpen files call) : FileOpen files (wakeWriter call) := by
  cases call with
  | idle => trivial
  | reading file count point => exact held
  | writing file data point => cases point <;> exact held

theorem CallMove.fileOpen {sys : PipeSys Pid File} {pid : Pid} {action : PipeAction Pid File}
    {call : PipeCall File} (held : FileOpen sys.files (sys.calls pid))
    (move : CallMove sys pid action call) : FileOpen sys.files call := by
  cases move with
  | startRead count idle opened readable => exact ⟨_, opened, readable⟩
  | startWrite data idle opened writable => exact ⟨_, opened, writable⟩
  | readReturns => trivial
  | readInterrupted => trivial
  | readSignalled => trivial
  | writeReturns => trivial
  | writeInterrupted => trivial
  | writeSignalled => trivial
  | readBlocks here => rw [here] at held; exact held
  | readReady here => rw [here] at held; exact held
  | readSleeps here => rw [here] at held; exact held
  | readSignalledReady here => rw [here] at held; exact held
  | writeBlocks here => rw [here] at held; exact held
  | writeSleeps here => rw [here] at held; exact held
  | writeReady here => rw [here] at held; exact held
  | writeRetries here => rw [here] at held; exact held

theorem openersInvariant_opened [Fintype File] [DecidableEq File]
    {sys : PipeSys Pid File} (invariant : OpenersInvariant sys)
    {file : File} (closed : sys.files file = none) (mode : FileMode) {dev : ScullPipe}
    (started : dev.start ≠ none) (readers : dev.nreaders = sys.dev.nreaders)
    (writers : dev.nwriters = sys.dev.nwriters) (accepted returned : List Byte) :
    OpenersInvariant
      { sys with
        dev := addOpener mode dev
        files := Function.update sys.files file (some mode)
        accepted := accepted
        returned := returned } := by
  constructor
  · simp only [addOpener, Counting.sum_update, closed, readWeight_none, readWeight_some, readers,
      invariant.readers]
    split <;> omega
  · simp only [addOpener, Counting.sum_update, closed, writeWeight_none, writeWeight_some, writers,
      invariant.writers]
    split <;> omega
  · intro _
    exact started
  · intro pid
    exact (invariant.calls pid).opened closed mode

theorem openersInvariant_released [Fintype File] [DecidableEq File]
    {sys : PipeSys Pid File} (invariant : OpenersInvariant sys)
    {file : File} {mode : FileMode} (opened : sys.files file = some mode)
    (unused : ∀ pid, (sys.calls pid).file? ≠ some file) :
    OpenersInvariant
      { sys with
        dev := (scullPRelease mode sys.dev).1
        files := Function.update sys.files file none } := by
  have readers := invariant.readers
  have writers := invariant.writers
  have newReaders := Counting.sum_update sys.files file none readWeight
  have newWriters := Counting.sum_update sys.files file none writeWeight
  simp only [opened, readWeight_none, readWeight_some] at newReaders
  simp only [opened, writeWeight_none, writeWeight_some] at newWriters
  constructor
  · simp only [scullPRelease, dropOpener]
    rw [newReaders]
    split <;> omega
  · simp only [scullPRelease, dropOpener]
    rw [newWriters]
    split <;> omega
  · intro used
    have before := invariant.allocated
    simp only [scullPRelease] at used ⊢
    rw [if_neg (by omega)]
    apply before
    simp only [dropOpener] at used
    split at used <;> split at used <;> omega
  · intro pid
    exact (invariant.calls pid).released (unused pid)

theorem OpenersInvariant.setCall [Fintype File] [DecidableEq Pid]
    {sys : PipeSys Pid File} (invariant : OpenersInvariant sys)
    (pid : Pid) {call : PipeCall File} (held : FileOpen sys.files call) :
    OpenersInvariant (sys.setCall pid call) := by
  refine ⟨invariant.readers, invariant.writers, invariant.allocated, ?_⟩
  intro other
  simp only [PipeSys.setCall, Function.update_apply]
  split
  · exact held
  · exact invariant.calls other

theorem OpenersInvariant.afterSection [Fintype File]
    {sys : PipeSys Pid File} (invariant : OpenersInvariant sys)
    {dev : ScullPipe} (readers : dev.nreaders = sys.dev.nreaders)
    (writers : dev.nwriters = sys.dev.nwriters)
    (started : sys.dev.start ≠ none → dev.start ≠ none) (accepted returned : List Byte) :
    OpenersInvariant { sys with dev := dev, accepted := accepted, returned := returned } := by
  refine ⟨readers.trans invariant.readers, writers.trans invariant.writers, ?_, invariant.calls⟩
  intro used
  rw [readers, writers] at used
  exact started (invariant.allocated used)

theorem openersInvariant_step [Fintype File] [DecidableEq Pid] [DecidableEq File]
    {size : Nat} {sys next : PipeSys Pid File}
    {action : PipeAction Pid File} (invariant : OpenersInvariant sys)
    (taken : Transition size sys action next) : OpenersInvariant next := by
  cases taken with
  | openFailed => exact invariant
  | openedShared closed allocated =>
      apply openersInvariant_opened invariant closed
      · simp [allocated]
      · rfl
      · rfl
  | openedFirst closed missing length =>
      apply openersInvariant_opened invariant closed
      · simp
      · rfl
      · rfl
  | released opened unused quiet => exact openersInvariant_released invariant opened unused
  | releasedLast opened unused wakes =>
      have dropped := openersInvariant_released invariant opened unused
      refine ⟨dropped.readers, dropped.writers, dropped.allocated, ?_⟩
      intro pid
      exact (dropped.calls pid).wakeReader
  | moved move => exact invariant.setCall _ (move.fileOpen (invariant.calls _))
  | readData here locked =>
      rename_i pid env file count dev bytes
      have frame := scullPReadLocked_frame locked
      have held := invariant.calls pid
      rw [here] at held
      refine OpenersInvariant.setCall ?_ _ held
      apply invariant.afterSection
      · rw [frame]
      · rw [frame]
      · rw [frame]
        exact id
  | writeFaulted here locked =>
      have frame := scullPWriteLocked_frame locked
      have started := scullPWriteLocked_start locked (by simp)
      refine OpenersInvariant.setCall ?_ _ (by trivial)
      apply invariant.afterSection
      · rw [frame]
      · rw [frame]
      · exact fun _ => started.2
  | wroteData here locked =>
      rename_i pid env file data dev bytes
      have frame := scullPWriteLocked_frame locked
      have started := scullPWriteLocked_start locked (by simp)
      have held := invariant.calls pid
      rw [here] at held
      refine OpenersInvariant.setCall ?_ _ held
      apply invariant.afterSection
      · rw [frame]
      · rw [frame]
      · exact fun _ => started.2
  | wokeWriters here =>
      have woken : OpenersInvariant sys.wakeOutq :=
        ⟨invariant.readers, invariant.writers, invariant.allocated,
          fun pid => (invariant.calls pid).wakeWriter⟩
      exact woken.setCall _ trivial
  | wokeReaders here =>
      have woken : OpenersInvariant sys.wakeInq :=
        ⟨invariant.readers, invariant.writers, invariant.allocated,
          fun pid => (invariant.calls pid).wakeReader⟩
      exact woken.setCall _ trivial

theorem openersInvariant_loaded [Fintype File] : OpenersInvariant (PipeSys.loaded Pid File) := by
  constructor
  · simp [PipeSys.loaded, ScullPipe.zeroed, readWeight]
  · simp [PipeSys.loaded, ScullPipe.zeroed, writeWeight]
  · intro used
    simp [PipeSys.loaded, ScullPipe.zeroed] at used
  · intro pid
    trivial

theorem openersInvariant_reachable [DecidableEq Pid] [DecidableEq File] [Fintype Pid] [Fintype File]
    {size : Nat} {sys : PipeSys Pid File}
    (reached : StepMachine.Reachable (pipeStep size) (.loaded Pid File) sys) :
    OpenersInvariant sys := by
  apply StepMachine.reachable_invariant _ openersInvariant_loaded reached
  intro sys action next invariant taken
  exact openersInvariant_step invariant (pipeStep_transition taken)

theorem openers_fit [DecidableEq Pid] [DecidableEq File] [Fintype Pid] [Fintype File]
    (few : Fintype.card File < 2147483648) {size : Nat} {sys : PipeSys Pid File}
    (reached : StepMachine.Reachable (pipeStep size) (.loaded Pid File) sys) :
    CInt.FitsInt sys.dev.nreaders ∧ CInt.FitsInt sys.dev.nwriters := by
  have invariant := openersInvariant_reachable reached
  have readers := Counting.sum_le_card sys.files readWeight readWeight_le_one
  have writers := Counting.sum_le_card sys.files writeWeight writeWeight_le_one
  rw [← invariant.readers] at readers
  rw [← invariant.writers] at writers
  have someReaders := invariant.readers_nonneg
  have someWriters := invariant.writers_nonneg
  exact ⟨⟨by omega, by omega⟩, ⟨by omega, by omega⟩⟩

theorem used_of_opened [Fintype File] {sys : PipeSys Pid File} (openers : OpenersInvariant sys) {file : File}
    {mode : FileMode} (opened : sys.files file = some mode)
    (usable : mode.read = true ∨ mode.write = true) :
    0 < sys.dev.nreaders ∨ 0 < sys.dev.nwriters := by
  rcases usable with readable | writable
  · left
    have counted := Counting.weight_le_sum sys.files file readWeight readWeight_nonneg
    rw [opened, ← openers.readers] at counted
    simp only [readWeight_some, if_pos readable] at counted
    omega
  · right
    have counted := Counting.weight_le_sum sys.files file writeWeight writeWeight_nonneg
    rw [opened, ← openers.writers] at counted
    simp only [writeWeight_some, if_pos writable] at counted
    omega

end Machine

end Ldd3.Pipe
