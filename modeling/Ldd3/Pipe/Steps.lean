import Mathlib.Tactic
import Ldd3.Pipe.Core

/-!
Everything that one step of the pipe machine can do, with its guards. The
invariants are proved over these cases and never unfold the step function.
-/

namespace Ldd3.Pipe

variable {Pid File : Type} [DecidableEq Pid] [DecidableEq File] [Fintype Pid]

omit [DecidableEq File] [Fintype Pid] in
theorem PipeSys.setCall_of_ne (sys : PipeSys Pid File) {pid other : Pid} (call : PipeCall File)
    (different : other ≠ pid) : (sys.setCall pid call).calls other = sys.calls other := by
  simp only [PipeSys.setCall, Function.update_of_ne different]

inductive CallMove (sys : PipeSys Pid File) (pid : Pid) :
    PipeAction Pid File → PipeCall File → Prop
  | startRead {file mode} (count : Nat) (idle : sys.calls pid = .idle)
      (opened : sys.files file = some mode) (readable : mode.read = true) :
      CallMove sys pid (.startRead pid file count) (.reading file count .down)
  | startWrite {file mode} (data : List Byte) (idle : sys.calls pid = .idle)
      (opened : sys.files file = some mode) (writable : mode.write = true) :
      CallMove sys pid (.startWrite pid file data) (.writing file data .down)
  | readReturns {env file count} (here : sys.calls pid = .reading file count .down) :
      CallMove sys pid (.proceed pid env) .idle
  | readBlocks {env file count} (here : sys.calls pid = .reading file count .down)
      (empty : sys.dev.rp = sys.dev.wp) (writers : sys.dev.nwriters ≠ 0) :
      CallMove sys pid (.proceed pid env) (.reading file count .wait)
  | readReady {env file count} (here : sys.calls pid = .reading file count .wait)
      (ready : sys.dev.rp ≠ sys.dev.wp) :
      CallMove sys pid (.proceed pid env) (.reading file count .down)
  | readInterrupted {env file count} (here : sys.calls pid = .reading file count .wait)
      (pending : env.interrupted = true) : CallMove sys pid (.proceed pid env) .idle
  | readSleeps {env file count} (here : sys.calls pid = .reading file count .wait)
      (empty : sys.dev.rp = sys.dev.wp) (quiet : env.interrupted = false) :
      CallMove sys pid (.proceed pid env) (.reading file count .asleep)
  | readSignalled {file count} (here : sys.calls pid = .reading file count .asleep) :
      CallMove sys pid (.signal pid) .idle
  | readSignalledReady {file count} (here : sys.calls pid = .reading file count .asleep)
      (ready : sys.dev.rp ≠ sys.dev.wp) :
      CallMove sys pid (.signal pid) (.reading file count .down)
  | writeReturns {env file data} (here : sys.calls pid = .writing file data .down) :
      CallMove sys pid (.proceed pid env) .idle
  | writeBlocks {env file data} (here : sys.calls pid = .writing file data .down)
      (full : getSpacefree sys.dev = 0) :
      CallMove sys pid (.proceed pid env) (.writing file data .wait)
  | writeSleeps {env file data} (here : sys.calls pid = .writing file data .wait)
      (full : getSpacefree sys.dev = 0) :
      CallMove sys pid (.proceed pid env) (.writing file data .asleep)
  | writeReady {env file data} (here : sys.calls pid = .writing file data .wait)
      (free : getSpacefree sys.dev ≠ 0) :
      CallMove sys pid (.proceed pid env) (.writing file data .awake)
  | writeInterrupted {env file data} (here : sys.calls pid = .writing file data .awake)
      (pending : env.interrupted = true) : CallMove sys pid (.proceed pid env) .idle
  | writeRetries {env file data} (here : sys.calls pid = .writing file data .awake) :
      CallMove sys pid (.proceed pid env) (.writing file data .down)
  | writeSignalled {file data} (here : sys.calls pid = .writing file data .asleep) :
      CallMove sys pid (.signal pid) .idle

inductive Transition (scullPBuffer : Nat) (sys : PipeSys Pid File) :
    PipeAction Pid File → PipeSys Pid File → Prop
  | openFailed {file mode env} : Transition scullPBuffer sys (.openFile file mode env) sys
  | openedShared {file mode env buffer} (closed : sys.files file = none)
      (allocated : sys.dev.start = some buffer) :
      Transition scullPBuffer sys (.openFile file mode env)
        { sys with
          dev := addOpener mode sys.dev
          files := Function.update sys.files file (some mode) }
  | openedFirst {file mode env buffer} (closed : sys.files file = none)
      (missing : sys.dev.start = none) (length : buffer.length = scullPBuffer) :
      Transition scullPBuffer sys (.openFile file mode env)
        { sys with
          dev := addOpener mode
            { sys.dev with start := some buffer, buffersize := scullPBuffer, rp := 0, wp := 0 }
          files := Function.update sys.files file (some mode)
          accepted := []
          returned := [] }
  | released {file mode} (opened : sys.files file = some mode)
      (unused : ∀ pid, (sys.calls pid).file? ≠ some file)
      (quiet : (scullPRelease mode sys.dev).2 = false) :
      Transition scullPBuffer sys (.release file)
        { sys with
          dev := (scullPRelease mode sys.dev).1
          files := Function.update sys.files file none }
  | releasedLast {file mode} (opened : sys.files file = some mode)
      (unused : ∀ pid, (sys.calls pid).file? ≠ some file)
      (wakes : (scullPRelease mode sys.dev).2 = true) :
      Transition scullPBuffer sys (.release file)
        (PipeSys.wakeInq
          { sys with
            dev := (scullPRelease mode sys.dev).1
            files := Function.update sys.files file none })
  | moved {pid action call} (move : CallMove sys pid action call) :
      Transition scullPBuffer sys action (sys.setCall pid call)
  | readData {pid env file count dev bytes} (here : sys.calls pid = .reading file count .down)
      (locked : scullPReadLocked env sys.dev count = .ok (dev, .data bytes)) :
      Transition scullPBuffer sys (.proceed pid env)
        (PipeSys.setCall { sys with dev := dev, returned := sys.returned ++ bytes } pid
          (.reading file count .wakeOutq))
  | writeFaulted {pid env file data dev} (here : sys.calls pid = .writing file data .down)
      (locked : scullPWriteLocked env sys.dev data = .ok (dev, .fault)) :
      Transition scullPBuffer sys (.proceed pid env)
        (PipeSys.setCall { sys with dev := dev } pid .idle)
  | wroteData {pid env file data dev bytes} (here : sys.calls pid = .writing file data .down)
      (locked : scullPWriteLocked env sys.dev data = .ok (dev, .accepted bytes)) :
      Transition scullPBuffer sys (.proceed pid env)
        (PipeSys.setCall { sys with dev := dev, accepted := sys.accepted ++ bytes } pid
          (.writing file data .wakeInq))
  | wokeWriters {pid env file count} (here : sys.calls pid = .reading file count .wakeOutq) :
      Transition scullPBuffer sys (.proceed pid env) (sys.wakeOutq.setCall pid .idle)
  | wokeReaders {pid env file data} (here : sys.calls pid = .writing file data .wakeInq) :
      Transition scullPBuffer sys (.proceed pid env) (sys.wakeInq.setCall pid .idle)

theorem scullPReadLocked_empty {env : Env} {dev after : ScullPipe} {count : Nat}
    (locked : scullPReadLocked env dev count = .ok (after, .empty)) :
    dev.rp = dev.wp ∧ dev.nwriters ≠ 0 := by
  simp only [scullPReadLocked] at locked
  split at locked
  · rename_i empty
    split at locked
    · simp at locked
    · rename_i writers
      exact ⟨empty, writers⟩
  · split at locked
    · contradiction
    · split at locked
      · split at locked <;> simp at locked
      · contradiction

theorem scullPWriteLocked_full {env : Env} {dev after : ScullPipe} {data : List Byte}
    (locked : scullPWriteLocked env dev data = .ok (after, .full)) : getSpacefree dev = 0 := by
  simp only [scullPWriteLocked] at locked
  split at locked
  · assumption
  · split at locked
    · contradiction
    · split at locked
      · split at locked <;> simp at locked
      · contradiction

theorem scullPReadLocked_data_nonempty {env : Env} {dev after : ScullPipe} {count : Nat}
    {bytes : List Byte} (locked : scullPReadLocked env dev count = .ok (after, .data bytes)) :
    dev.rp ≠ dev.wp := by
  intro empty
  simp only [scullPReadLocked, if_pos empty] at locked
  split at locked <;> simp at locked

theorem scullPWriteLocked_fault_same {env : Env} {dev after : ScullPipe} {data : List Byte}
    (locked : scullPWriteLocked env dev data = .ok (after, .fault)) : after.wp = dev.wp := by
  simp only [scullPWriteLocked] at locked
  split at locked
  · simp at locked
  · split at locked
    · contradiction
    · split at locked
      · split at locked
        · cases locked
          rfl
        · simp at locked
      · contradiction

theorem scullPReadLocked_frame {env : Env} {dev after : ScullPipe} {count : Nat}
    {outcome : ReadOutcome} (locked : scullPReadLocked env dev count = .ok (after, outcome)) :
    after = { dev with rp := after.rp } := by
  simp only [scullPReadLocked] at locked
  split at locked
  · split at locked <;> cases locked <;> rfl
  · split at locked
    · contradiction
    · split at locked
      · split at locked <;> cases locked <;> rfl
      · contradiction

theorem scullPWriteLocked_frame {env : Env} {dev after : ScullPipe} {data : List Byte}
    {outcome : WriteOutcome} (locked : scullPWriteLocked env dev data = .ok (after, outcome)) :
    after = { dev with start := after.start, wp := after.wp } := by
  simp only [scullPWriteLocked] at locked
  split at locked
  · cases locked
    rfl
  · split at locked
    · contradiction
    · split at locked
      · split at locked <;> cases locked <;> rfl
      · contradiction

theorem scullPWriteLocked_start {env : Env} {dev after : ScullPipe} {data : List Byte}
    {outcome : WriteOutcome} (locked : scullPWriteLocked env dev data = .ok (after, outcome))
    (stored : outcome ≠ .full) : dev.start ≠ none ∧ after.start ≠ none := by
  simp only [scullPWriteLocked] at locked
  split at locked
  · cases locked
    exact absurd rfl stored
  · split at locked
    · contradiction
    · rename_i buffer started
      split at locked
      · split at locked <;> cases locked <;> simp [started]
      · contradiction

omit [Fintype Pid] in
theorem readProceed_transition {scullPBuffer : Nat} {sys next : PipeSys Pid File} {pid : Pid}
    {env : Env} {file : File} {count : Nat} {point : ReadPoint}
    (here : sys.calls pid = .reading file count point)
    (taken : readProceed sys pid env file count point = some next) :
    Transition scullPBuffer sys (.proceed pid env) next := by
  cases point with
  | down =>
      simp only [readProceed] at taken
      split at taken
      · cases taken
        exact .moved (.readReturns here)
      · split at taken
        · contradiction
        · rename_i dev bytes locked
          cases taken
          exact .readData here locked
        · rename_i dev locked
          obtain ⟨empty, writers⟩ := scullPReadLocked_empty locked
          split at taken
          · cases taken
            exact .moved (.readReturns here)
          · cases taken
            exact .moved (.readBlocks here empty writers)
        · cases taken
          exact .moved (.readReturns here)
  | wait =>
      simp only [readProceed] at taken
      split at taken
      · rename_i ready
        cases taken
        exact .moved (.readReady here ready)
      · rename_i empty
        split at taken
        · rename_i pending
          cases taken
          exact .moved (.readInterrupted here pending)
        · rename_i quiet
          cases taken
          exact .moved (.readSleeps here (not_not.mp empty) (by simpa using quiet))
  | asleep => simp [readProceed] at taken
  | wakeOutq =>
      simp only [readProceed, Option.some.injEq] at taken
      subst taken
      exact .wokeWriters here

omit [Fintype Pid] in
theorem writeProceed_transition {scullPBuffer : Nat} {sys next : PipeSys Pid File} {pid : Pid}
    {env : Env} {file : File} {data : List Byte} {point : WritePoint}
    (here : sys.calls pid = .writing file data point)
    (taken : writeProceed sys pid env file data point = some next) :
    Transition scullPBuffer sys (.proceed pid env) next := by
  cases point with
  | down =>
      simp only [writeProceed] at taken
      split at taken
      · cases taken
        exact .moved (.writeReturns here)
      · split at taken
        · contradiction
        · rename_i dev bytes locked
          cases taken
          exact .wroteData here locked
        · rename_i dev locked
          have full := scullPWriteLocked_full locked
          split at taken
          · cases taken
            exact .moved (.writeReturns here)
          · cases taken
            exact .moved (.writeBlocks here full)
        · rename_i dev locked
          cases taken
          exact .writeFaulted here locked
  | wait =>
      simp only [writeProceed] at taken
      split at taken
      · rename_i full
        cases taken
        exact .moved (.writeSleeps here full)
      · rename_i free
        cases taken
        exact .moved (.writeReady here free)
  | asleep => simp [writeProceed] at taken
  | awake =>
      simp only [writeProceed] at taken
      split at taken
      · rename_i pending
        cases taken
        exact .moved (.writeInterrupted here pending)
      · cases taken
        exact .moved (.writeRetries here)
  | wakeInq =>
      simp only [writeProceed, Option.some.injEq] at taken
      subst taken
      exact .wokeReaders here

theorem openFile_transition {scullPBuffer : Nat} {sys next : PipeSys Pid File} {file : File}
    {mode : FileMode} {env : Env}
    (taken : pipeStep scullPBuffer sys (.openFile file mode env) = some next) :
    Transition scullPBuffer sys (.openFile file mode env) next := by
  simp only [pipeStep] at taken
  split at taken
  · rename_i closed
    simp only [scullPOpen] at taken
    split at taken
    · simp only [ERESTARTSYS] at taken
      cases taken
      exact .openFailed
    · cases started : sys.dev.start with
      | some buffer =>
          simp only [started, Option.isSome_some, if_true, Option.some.injEq] at taken
          subst taken
          exact .openedShared closed started
      | none =>
          simp only [started, Option.isSome_none, Bool.false_eq_true, if_false] at taken
          split at taken
          · simp only [if_true, Option.some.injEq] at taken
            subst taken
            exact .openedFirst closed started (by simp)
          · simp only [ENOMEM] at taken
            cases taken
            exact .openFailed
  · contradiction

theorem pipeStep_transition {scullPBuffer : Nat} {sys next : PipeSys Pid File}
    {action : PipeAction Pid File} (taken : pipeStep scullPBuffer sys action = some next) :
    Transition scullPBuffer sys action next := by
  cases action with
  | openFile file mode env => exact openFile_transition taken
  | release file =>
      simp only [pipeStep] at taken
      split at taken
      · contradiction
      · rename_i mode opened
        split at taken
        · rename_i unused
          cases wakes : (scullPRelease mode sys.dev).2 with
          | false =>
              simp only [wakes, Bool.false_eq_true, if_false, Option.some.injEq] at taken
              subst taken
              exact .released opened unused wakes
          | true =>
              simp only [wakes, if_true, Option.some.injEq] at taken
              subst taken
              exact .releasedLast opened unused wakes
        · contradiction
  | startRead pid file count =>
      simp only [pipeStep] at taken
      split at taken
      · rename_i allowed
        obtain ⟨mode, opened, readable⟩ := (Option.any_eq_true _ _).mp allowed.2
        cases taken
        exact .moved (.startRead count allowed.1 opened readable)
      · contradiction
  | startWrite pid file data =>
      simp only [pipeStep] at taken
      split at taken
      · rename_i allowed
        obtain ⟨mode, opened, writable⟩ := (Option.any_eq_true _ _).mp allowed.2
        cases taken
        exact .moved (.startWrite data allowed.1 opened writable)
      · contradiction
  | proceed pid env =>
      simp only [pipeStep] at taken
      split at taken
      · contradiction
      · rename_i file count point here
        exact readProceed_transition here taken
      · rename_i file data point here
        exact writeProceed_transition here taken
  | signal pid =>
      simp only [pipeStep] at taken
      split at taken
      · rename_i file count here
        split at taken
        · rename_i ready
          cases taken
          exact .moved (.readSignalledReady here ready)
        · cases taken
          exact .moved (.readSignalled here)
      · rename_i file data here
        cases taken
        exact .moved (.writeSignalled here)
      · contradiction

end Ldd3.Pipe
