import Mathlib.Tactic
import Ldd3.Pipe.Openers

/-!
Readers asleep on `inq`. The loop of `scull_p_read` returns on an empty pipe without
writers, but the condition it sleeps on is `rp != wp` alone.
-/

namespace Ldd3.Pipe

open scoped BigOperators

variable {Pid File : Type}

def Asleep (call : PipeCall File) : Prop := ∃ file count, call = .reading file count .asleep

def ReadWouldReturn (dev : ScullPipe) : Prop :=
  dev.rp ≠ dev.wp ∨ dev.rp = dev.wp ∧ dev.nwriters = 0

/-- Whoever sleeps although the loop would return has a wait condition that is true. -/
def SleepersWakeable (sys : PipeSys Pid File) : Prop :=
  ∀ pid, Asleep (sys.calls pid) → ReadWouldReturn sys.dev → sys.dev.rp ≠ sys.dev.wp

/-- No reader without a signal tests `rp != wp` while the pipe is empty and has no writer. -/
def TestsWithWriter (sys : PipeSys Pid File) : PipeAction Pid File → Prop
  | .proceed pid env =>
      (∃ file count, sys.calls pid = .reading file count .wait) → env.interrupted = false →
        sys.dev.rp = sys.dev.wp → sys.dev.nwriters ≠ 0
  | _ => True

def Hangup (dev : ScullPipe) : Prop := dev.rp = dev.wp ∧ dev.nwriters = 0

theorem sleepersWakeable_iff {sys : PipeSys Pid File} :
    SleepersWakeable sys ↔ ∀ pid, Asleep (sys.calls pid) → ¬ Hangup sys.dev := by
  constructor
  · rintro wakeable pid asleep ⟨empty, unwritten⟩
    exact wakeable pid asleep (Or.inr ⟨empty, unwritten⟩) empty
  · intro noHangup pid asleep would
    rcases would with data | hangup
    · exact data
    · exact absurd hangup (noHangup pid asleep)

structure WaitInvariant [Fintype File] (sys : PipeSys Pid File) : Prop where
  openers : OpenersInvariant sys
  pending : (∃ pid, Asleep (sys.calls pid)) → sys.dev.rp ≠ sys.dev.wp →
    ∃ pid file data, sys.calls pid = .writing file data .wakeInq

theorem not_asleep_wakeReader (call : PipeCall File) : ¬ Asleep (wakeReader call) := by
  rintro ⟨file, count, asleep⟩
  cases call with
  | idle => simp [wakeReader] at asleep
  | reading used amount point => cases point <;> simp [wakeReader] at asleep
  | writing used data point => simp [wakeReader] at asleep

theorem asleep_wakeWriter {call : PipeCall File} (asleep : Asleep (wakeWriter call)) :
    Asleep call := by
  obtain ⟨file, count, same⟩ := asleep
  cases call with
  | idle => simp [wakeWriter] at same
  | reading used amount point => exact ⟨file, count, same⟩
  | writing used data point => cases point <;> simp [wakeWriter] at same

theorem CallMove.notPending {sys : PipeSys Pid File} {pid : Pid} {action : PipeAction Pid File}
    {call : PipeCall File} (move : CallMove sys pid action call) (file : File)
    (data : List Byte) : sys.calls pid ≠ .writing file data .wakeInq := by
  cases move <;> simp [*]

theorem CallMove.testsWithWriter_iff {sys : PipeSys Pid File} {pid : Pid}
    {action : PipeAction Pid File} {call : PipeCall File} (move : CallMove sys pid action call) :
    TestsWithWriter sys action ↔ (Asleep call → sys.dev.nwriters ≠ 0) := by
  cases move with
  | readSleeps here empty quiet =>
      constructor
      · intro tests _
        exact tests ⟨_, _, here⟩ quiet empty
      · intro writers _ _ _
        exact writers ⟨_, _, rfl⟩
  | readReady here ready => simp [TestsWithWriter, Asleep, ready]
  | readInterrupted here pending => simp [TestsWithWriter, Asleep, pending]
  | startRead => simp [TestsWithWriter, Asleep]
  | startWrite => simp [TestsWithWriter, Asleep]
  | readSignalled => simp [TestsWithWriter, Asleep]
  | readSignalledReady => simp [TestsWithWriter, Asleep]
  | writeSignalled => simp [TestsWithWriter, Asleep]
  | readReturns here => simp [TestsWithWriter, Asleep, here]
  | readBlocks here => simp [TestsWithWriter, Asleep, here]
  | writeReturns here => simp [TestsWithWriter, Asleep, here]
  | writeBlocks here => simp [TestsWithWriter, Asleep, here]
  | writeSleeps here => simp [TestsWithWriter, Asleep, here]
  | writeReady here => simp [TestsWithWriter, Asleep, here]
  | writeInterrupted here => simp [TestsWithWriter, Asleep, here]
  | writeRetries here => simp [TestsWithWriter, Asleep, here]

theorem CallMove.awake {sys : PipeSys Pid File} {pid : Pid} {action : PipeAction Pid File}
    {call : PipeCall File} (move : CallMove sys pid action call) :
    ¬ Asleep call ∨ sys.dev.rp = sys.dev.wp := by
  cases move with
  | readSleeps here empty quiet => exact Or.inr empty
  | _ => left; rintro ⟨file, count, same⟩; simp at same

theorem addOpener_hangup [Fintype File] {sys : PipeSys Pid File}
    (invariant : OpenersInvariant sys) {mode : FileMode}
    (hangup : Hangup (addOpener mode sys.dev)) : Hangup sys.dev := by
  have nonneg := invariant.writers_nonneg
  obtain ⟨empty, unwritten⟩ := hangup
  simp only [addOpener] at empty unwritten
  split at unwritten
  · omega
  · exact ⟨empty, unwritten⟩

theorem scullPRelease_hangup {mode : FileMode} {dev : ScullPipe}
    (quiet : (scullPRelease mode dev).2 = false) (hangup : Hangup (scullPRelease mode dev).1) :
    Hangup dev := by
  obtain ⟨empty, unwritten⟩ := hangup
  simp only [scullPRelease, dropOpener, Bool.and_eq_false_iff] at *
  refine ⟨empty, ?_⟩
  rcases quiet with reader | writers
  · simpa [reader] using unwritten
  · exact absurd unwritten (of_decide_eq_false writers)

variable [DecidableEq Pid]

theorem asleep_setCall {sys : PipeSys Pid File} {pid other : Pid} {call : PipeCall File}
    (awake : ¬ Asleep call) (asleep : Asleep ((sys.setCall pid call).calls other)) :
    other ≠ pid ∧ Asleep (sys.calls other) := by
  simp only [PipeSys.setCall, Function.update_apply] at asleep
  split at asleep
  · exact absurd asleep awake
  · rename_i different
    exact ⟨different, asleep⟩

theorem pending_setCall {sys : PipeSys Pid File} {pid : Pid} (call : PipeCall File)
    (notPending : ∀ file data, sys.calls pid ≠ .writing file data .wakeInq)
    (pending : ∃ other file data, sys.calls other = .writing file data .wakeInq) :
    ∃ other file data, (sys.setCall pid call).calls other = .writing file data .wakeInq := by
  obtain ⟨other, file, data, waking⟩ := pending
  have different : other ≠ pid := by
    rintro rfl
    exact notPending file data waking
  exact ⟨other, file, data, by rw [sys.setCall_of_ne call different, waking]⟩

variable [DecidableEq File]

theorem waitInvariant_step [Fintype File] {size : Nat} {sys next : PipeSys Pid File}
    {action : PipeAction Pid File} (invariant : WaitInvariant sys)
    (taken : Transition size sys action next) : WaitInvariant next := by
  refine ⟨openersInvariant_step invariant.openers taken, ?_⟩
  have before := invariant.pending
  cases taken with
  | openFailed => exact before
  | openedShared closed allocated => exact before
  | openedFirst closed missing length =>
      intro _ filled
      exact absurd rfl filled
  | released opened unused quiet => exact before
  | releasedLast opened unused wakes =>
      rintro ⟨other, asleep⟩
      exact absurd asleep (not_asleep_wakeReader _)
  | moved move =>
      rintro ⟨other, asleep⟩ filled
      rcases move.awake with awake | empty
      · have sleeper := (asleep_setCall awake asleep).2
        exact pending_setCall _ move.notPending (before ⟨other, sleeper⟩ filled)
      · exact absurd empty filled
  | readData here locked =>
      rintro ⟨other, asleep⟩ _
      have sleeper := (asleep_setCall (by rintro ⟨_, _, same⟩; simp at same) asleep).2
      apply pending_setCall
      · intro file data
        simp [here]
      · exact before ⟨other, sleeper⟩ (scullPReadLocked_data_nonempty locked)
  | writeFaulted here locked =>
      rintro ⟨other, asleep⟩ filled
      have sleeper := (asleep_setCall (by rintro ⟨_, _, same⟩; simp at same) asleep).2
      apply pending_setCall
      · intro file data
        simp [here]
      · apply before ⟨other, sleeper⟩
        have rp := congrArg ScullPipe.rp (scullPWriteLocked_frame locked)
        have wp := scullPWriteLocked_fault_same locked
        rw [← wp]
        intro same
        exact filled (rp.trans same)
  | wroteData here locked =>
      intro _ _
      exact ⟨_, _, _, Function.update_self _ _ _⟩
  | wokeWriters here =>
      rintro ⟨other, asleep⟩ filled
      have woken := (asleep_setCall (by rintro ⟨_, _, same⟩; simp at same) asleep).2
      have sleeper := asleep_wakeWriter woken
      obtain ⟨writer, file, data, waking⟩ := before ⟨other, sleeper⟩ filled
      apply pending_setCall
      · intro file data
        simp [PipeSys.wakeOutq, here, wakeWriter]
      · exact ⟨writer, file, data, by simp [PipeSys.wakeOutq, waking, wakeWriter]⟩
  | wokeReaders here =>
      rintro ⟨other, asleep⟩
      have woken := (asleep_setCall (by rintro ⟨_, _, same⟩; simp at same) asleep).2
      exact absurd woken (not_asleep_wakeReader _)

theorem sleepersWakeable_step_iff [Fintype File] {size : Nat} {sys next : PipeSys Pid File}
    {action : PipeAction Pid File} (invariant : WaitInvariant sys)
    (wakeable : SleepersWakeable sys) (taken : Transition size sys action next) :
    SleepersWakeable next ↔ TestsWithWriter sys action := by
  rw [sleepersWakeable_iff] at wakeable ⊢
  have openers := invariant.openers
  cases taken with
  | openFailed => exact ⟨fun _ => trivial, fun _ => wakeable⟩
  | openedShared closed allocated =>
      refine ⟨fun _ => trivial, ?_⟩
      intro _ pid asleep hangup
      exact wakeable pid asleep (addOpener_hangup openers hangup)
  | openedFirst closed missing length =>
      refine ⟨fun _ => trivial, ?_⟩
      rintro _ pid ⟨file, count, asleep⟩ _
      exact openers.allocated (Or.inl (openers.reading asleep)) missing
  | released opened unused quiet =>
      refine ⟨fun _ => trivial, ?_⟩
      intro _ pid asleep hangup
      exact wakeable pid asleep (scullPRelease_hangup quiet hangup)
  | releasedLast opened unused wakes =>
      refine ⟨fun _ => trivial, ?_⟩
      intro _ pid asleep
      exact absurd asleep (not_asleep_wakeReader _)
  | moved move =>
      rename_i pid call
      rw [move.testsWithWriter_iff]
      constructor
      · intro later asleep unwritten
        have empty := move.awake.resolve_left (not_not_intro asleep)
        apply later pid
        · simpa only [PipeSys.setCall, Function.update_self] using asleep
        · exact ⟨empty, unwritten⟩
      · intro writers other asleep hangup
        by_cases falls : Asleep call
        · exact writers falls hangup.2
        · exact wakeable other (asleep_setCall falls asleep).2 hangup
  | readData here locked =>
      refine ⟨fun _ => by simp [TestsWithWriter, here], ?_⟩
      rintro _ other asleep ⟨_, unwritten⟩
      have sleeper := (asleep_setCall (by rintro ⟨_, _, same⟩; simp at same) asleep).2
      obtain ⟨writer, file, data, waking⟩ :=
        invariant.pending ⟨other, sleeper⟩ (scullPReadLocked_data_nonempty locked)
      have writers := openers.writing waking
      have same := congrArg ScullPipe.nwriters (scullPReadLocked_frame locked)
      have none : sys.dev.nwriters = 0 := same.symm.trans unwritten
      omega
  | writeFaulted here locked =>
      refine ⟨fun _ => by simp [TestsWithWriter, here], ?_⟩
      rintro _ other asleep ⟨_, unwritten⟩
      have writers := openers.writing here
      have same := congrArg ScullPipe.nwriters (scullPWriteLocked_frame locked)
      have none : sys.dev.nwriters = 0 := same.symm.trans unwritten
      omega
  | wroteData here locked =>
      refine ⟨fun _ => by simp [TestsWithWriter, here], ?_⟩
      rintro _ other asleep ⟨_, unwritten⟩
      have writers := openers.writing here
      have same := congrArg ScullPipe.nwriters (scullPWriteLocked_frame locked)
      have none : sys.dev.nwriters = 0 := same.symm.trans unwritten
      omega
  | wokeWriters here =>
      refine ⟨fun _ => by simp [TestsWithWriter, here], ?_⟩
      intro _ other asleep hangup
      have woken := (asleep_setCall (by rintro ⟨_, _, same⟩; simp at same) asleep).2
      exact wakeable other (asleep_wakeWriter woken) hangup
  | wokeReaders here =>
      refine ⟨fun _ => by simp [TestsWithWriter, here], ?_⟩
      intro _ other asleep
      have woken := (asleep_setCall (by rintro ⟨_, _, same⟩; simp at same) asleep).2
      exact absurd woken (not_asleep_wakeReader _)

/-- Along any interleaving, every sleeping reader whose loop would return has a true wait
condition exactly when no reader tests that condition on an empty pipe without a writer. -/
theorem sleepers_wakeable_iff [Fintype File] [Fintype Pid] (size : Nat)
    (actions : List (PipeAction Pid File)) :
    StepMachine.Always (pipeStep size) SleepersWakeable (.loaded Pid File) actions ↔
      StepMachine.Meets (pipeStep size) TestsWithWriter (.loaded Pid File) actions := by
  have initial : WaitInvariant (PipeSys.loaded Pid File) := by
    refine ⟨openersInvariant_loaded, ?_⟩
    rintro ⟨pid, file, count, asleep⟩
    simp [PipeSys.loaded] at asleep
  apply StepMachine.always_iff_meets _ _ actions initial
  · rintro pid ⟨file, count, asleep⟩
    simp [PipeSys.loaded] at asleep
  · intro sys action next invariant _ taken
    exact waitInvariant_step invariant (pipeStep_transition taken)
  · intro sys action next invariant wakeable taken
    exact sleepersWakeable_step_iff invariant wakeable (pipeStep_transition taken)

/-- A reader asleep on an empty pipe when the only writer closes it, which wakes the reader
to test its condition and to sleep again. -/
def lastWriterCloses : List (PipeAction Bool Bool) :=
  [.openFile true ⟨true, false, false⟩ (.good fun _ => 0),
    .openFile false ⟨false, true, false⟩ (.good fun _ => 0), .startRead true true 1,
    .proceed true (.good fun _ => 0), .proceed true (.good fun _ => 0), .release false,
    .proceed true (.good fun _ => 0)]

theorem lastWriterCloses_sleeps :
    (StepMachine.run (pipeStep 100) (.loaded Bool Bool) lastWriterCloses).map
      (fun sys => (sys.dev.rp, sys.dev.wp, sys.dev.nwriters, sys.calls true)) =
    some (0, 0, 0, .reading true 1 .asleep) := by
  decide +kernel

theorem sleepers_stuck_lastWriterCloses :
    ¬ StepMachine.Always (pipeStep 100) SleepersWakeable (.loaded Bool Bool) lastWriterCloses := by
  intro always
  obtain ⟨sys, wakeable, final⟩ := always.observed lastWriterCloses_sleeps
  simp only [Prod.mk.injEq] at final
  obtain ⟨rp, wp, unwritten, asleep⟩ := final
  have empty : sys.dev.rp = sys.dev.wp := by rw [rp, wp]
  exact wakeable true ⟨true, 1, asleep⟩ (Or.inr ⟨empty, unwritten⟩) empty

end Ldd3.Pipe
