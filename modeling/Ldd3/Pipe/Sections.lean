import Mathlib.Tactic
import Ldd3.Lib.Semaphore
import Ldd3.Lib.StepMachine
import Ldd3.Pipe.Statements

/-!
`dev->sem` of a pipe over all interleavings of statements: it is held exactly between a
successful `down` and the matching `up`, by one process, and only that process changes the
shared fields.
-/

namespace Ldd3.Pipe

structure SectionSys (Pid File : Type) where
  sem : Int
  dev : ScullPipe
  files : File → PipeFile
  points : Pid → PipePoint File
  downs : Pid → Int

inductive SectionAction (Pid File : Type)
  | startRead (pid : Pid) (file : File) (count : Nat)
  | startWrite (pid : Pid) (file : File) (data : List Byte)
  | startPoll (pid : Pid) (file : File)
  | startOpen (pid : Pid) (file : File) (mode : FileMode)
  | startRelease (pid : Pid) (file : File)
  | proceed (pid : Pid) (env : Env)
  | signal (pid : Pid)

def SectionAction.pid {Pid File : Type} : SectionAction Pid File → Pid
  | .startRead pid _ _ => pid
  | .startWrite pid _ _ => pid
  | .startPoll pid _ => pid
  | .startOpen pid _ _ => pid
  | .startRelease pid _ => pid
  | .proceed pid _ => pid
  | .signal pid => pid

def LockOp.balance : LockOp → Int
  | .none => 0
  | .down => 1
  | .up => -1

def wakePoint {File : Type} : Option Queue → PipePoint File → PipePoint File
  | some .inq, .read file mode count .asleep => .read file mode count .wait
  | some .outq, .write file mode data .asleep => .write file mode data .signalled
  | _, point => point

section Machine

variable {Pid File : Type} [DecidableEq Pid] [DecidableEq File]

def SectionSys.setPoint (sys : SectionSys Pid File) (pid : Pid) (point : PipePoint File) :
    SectionSys Pid File :=
  { sys with points := Function.update sys.points pid point }

def SectionSys.setFile (sys : SectionSys Pid File) (file : Option File) (state : Option PipeFile) :
    File → PipeFile :=
  match file, state with
  | some file, some state => Function.update sys.files file state
  | _, _ => sys.files

/-- `downs` counts what a process has taken and not given back: its successful downs less
its ups. -/
def SectionSys.perform (sys : SectionSys Pid File) (pid : Pid) (effect : Effect File) :
    SectionSys Pid File :=
  { sem := sys.sem - effect.lock.balance
    dev := effect.dev
    files := sys.setFile (sys.points pid).file? effect.file
    points := Function.update (fun other => wakePoint effect.wakes (sys.points other)) pid effect.point
    downs := Function.update sys.downs pid (sys.downs pid + effect.lock.balance) }

def sectionStep [Fintype Pid] (scullPBuffer : Nat) (sys : SectionSys Pid File) :
    SectionAction Pid File → Option (SectionSys Pid File)
  | .startRead pid file count =>
      match sys.points pid, sys.files file with
      | .idle, .ready mode =>
          if mode.read then some (sys.setPoint pid (.read file mode count .down)) else none
      | _, _ => none
  | .startWrite pid file data =>
      match sys.points pid, sys.files file with
      | .idle, .ready mode =>
          if mode.write then some (sys.setPoint pid (.write file mode data .down)) else none
      | _, _ => none
  | .startPoll pid file =>
      match sys.points pid, sys.files file with
      | .idle, .ready _ => some (sys.setPoint pid (.poll file .down))
      | _, _ => none
  | .startOpen pid file mode =>
      match sys.points pid, sys.files file with
      | .idle, .closed =>
          some (SectionSys.setPoint { sys with files := Function.update sys.files file .opening } pid
            (.opening file mode .down))
      | _, _ => none
  | .startRelease pid file =>
      match sys.points pid, sys.files file with
      | .idle, .ready mode =>
          if ∀ other, (sys.points other).file? ≠ some file then
            some (SectionSys.setPoint { sys with files := Function.update sys.files file .closing }
              pid (.release file mode .down))
          else none
      | _, _ => none
  | .proceed pid env =>
      (statement scullPBuffer sys.sem env sys.dev (sys.points pid)).map (sys.perform pid)
  | .signal pid =>
      match sys.points pid with
      | .read file mode count .asleep =>
          if sys.dev.rp ≠ sys.dev.wp then some (sys.setPoint pid (.read file mode count .down))
          else some (sys.setPoint pid .idle)
      | .write _ _ _ .asleep => some (sys.setPoint pid .idle)
      | _ => none

def SectionSys.loaded (Pid File : Type) : SectionSys Pid File :=
  { sem := 1, dev := .zeroed, files := fun _ => .closed, points := fun _ => .idle,
    downs := fun _ => 0 }

end Machine

/-! Where a call stands between a `down` and its `up`. -/

def ReadAt.locked : ReadAt → Bool
  | .down | .nonblock | .wait | .asleep | .wakeOutq => false
  | _ => true

def WriteAt.locked : WriteAt → Bool
  | .down | .nonblock | .wait | .asleep | .signalled | .downAgain | .wakeInq => false
  | _ => true

def PipePoint.locked {File : Type} : PipePoint File → Bool
  | .idle => false
  | .read _ _ _ next => next.locked
  | .write _ _ _ next => next.locked
  | .poll _ next => next ≠ .down
  | .opening _ _ next => next ≠ .down
  | .release _ _ next => next ≠ .down

def PipePoint.copies {File : Type} : PipePoint File → Prop
  | .read _ _ _ .copy => True
  | .write _ _ _ .copy => True
  | _ => False

/-- The tests of the two wait conditions, of a reader also when a signal ends its sleep. -/
def PipePoint.waitTest {File : Type} : PipePoint File → Prop
  | .read _ _ _ .wait => True
  | .read _ _ _ .asleep => True
  | .write _ _ _ .wait => True
  | _ => False

/-- A statement keeps to the lock: it downs or ups where the source does, and changes the
device only while its process holds the lock. -/
structure Disciplined {File : Type} (sem : Int) (dev : ScullPipe) (point : PipePoint File)
    (effect : Effect File) : Prop where
  lock : match effect.lock with
    | .none => effect.point.locked = point.locked
    | .down => 0 < sem ∧ point.locked = false ∧ effect.point.locked = true
    | .up => point.locked = true ∧ effect.point.locked = false
  device : point.locked = false → effect.dev = dev

section Discipline

variable {File : Type} {sem : Int} {env : Env} {dev after : ScullPipe} {point next : PipePoint File}
  {file : Option PipeFile} {wakes : Option Queue}

theorem Disciplined.within (before : point.locked = true) (still : next.locked = true) :
    Disciplined sem dev point ⟨.none, after, file, wakes, next⟩ := by
  refine ⟨still.trans before.symm, ?_⟩
  intro free
  rw [before] at free
  contradiction

theorem Disciplined.outside (before : point.locked = false) (still : next.locked = false) :
    Disciplined sem dev point ⟨.none, dev, file, wakes, next⟩ :=
  ⟨still.trans before.symm, fun _ => rfl⟩

theorem Disciplined.leaves (before : point.locked = true) (left : next.locked = false) :
    Disciplined sem dev point ⟨.up, after, file, wakes, next⟩ := by
  refine ⟨⟨before, left⟩, ?_⟩
  intro free
  rw [before] at free
  contradiction

theorem downInterruptible_disciplined {taken failed : PipePoint File} {effect : Effect File}
    (before : point.locked = false) (entered : taken.locked = true) (returned : failed.locked = false)
    (step : downInterruptible sem env dev taken failed = some effect) :
    Disciplined sem dev point effect := by
  simp only [downInterruptible] at step
  split at step
  · rename_i free
    cases step
    exact ⟨⟨free, before, entered⟩, fun _ => rfl⟩
  · split at step
    · cases step
      exact .outside before returned
    · contradiction

theorem downUninterruptible_disciplined {taken : PipePoint File} {effect : Effect File}
    (before : point.locked = false) (entered : taken.locked = true)
    (step : downUninterruptible sem dev taken = some effect) : Disciplined sem dev point effect := by
  simp only [downUninterruptible] at step
  split at step
  · rename_i free
    cases step
    exact ⟨⟨free, before, entered⟩, fun _ => rfl⟩
  · contradiction

theorem readStatement_disciplined {held : File} {mode : FileMode} {count : Nat} {stage : ReadAt}
    {effect : Effect File} (step : readStatement sem env dev held mode count stage = some effect) :
    Disciplined sem dev (.read held mode count stage) effect := by
  cases stage with
  | down => exact downInterruptible_disciplined rfl rfl rfl step
  | empty =>
      simp only [readStatement] at step
      split at step <;> cases step <;> exact .within rfl rfl
  | writers =>
      simp only [readStatement] at step
      split at step <;> cases step <;> exact .within rfl rfl
  | upEndOfFile => cases step; exact .leaves rfl rfl
  | upEmpty => cases step; exact .leaves rfl rfl
  | nonblock =>
      simp only [readStatement] at step
      split at step <;> cases step <;> exact .outside rfl rfl
  | wait =>
      simp only [readStatement] at step
      split at step
      · cases step; exact .outside rfl rfl
      · split at step <;> cases step <;> exact .outside rfl rfl
  | asleep => simp [readStatement] at step
  | copy =>
      simp only [readStatement] at step
      split at step
      · contradiction
      · split at step
        · split at step <;> cases step <;> exact .within rfl rfl
        · contradiction
  | upFault => cases step; exact .leaves rfl rfl
  | advance taken => cases step; exact .within rfl rfl
  | wrap taken => cases step; exact .within rfl rfl
  | up taken => cases step; exact .leaves rfl rfl
  | wakeOutq => cases step; exact .outside rfl rfl

theorem writeStatement_disciplined {held : File} {mode : FileMode} {data : List Byte}
    {stage : WriteAt} {effect : Effect File}
    (step : writeStatement sem env dev held mode data stage = some effect) :
    Disciplined sem dev (.write held mode data stage) effect := by
  cases stage with
  | down => exact downInterruptible_disciplined rfl rfl rfl step
  | full =>
      simp only [writeStatement] at step
      split at step <;> cases step <;> exact .within rfl rfl
  | upFull => cases step; exact .leaves rfl rfl
  | nonblock =>
      simp only [writeStatement] at step
      split at step <;> cases step <;> exact .outside rfl rfl
  | wait =>
      simp only [writeStatement] at step
      split at step <;> cases step <;> exact .outside rfl rfl
  | asleep => simp [writeStatement] at step
  | signalled =>
      simp only [writeStatement] at step
      split at step <;> cases step <;> exact .outside rfl rfl
  | downAgain => exact downInterruptible_disciplined rfl rfl rfl step
  | copy =>
      simp only [writeStatement] at step
      split at step
      · contradiction
      · split at step
        · split at step <;> cases step <;> exact .within rfl rfl
        · contradiction
  | upFault => cases step; exact .leaves rfl rfl
  | advance taken => cases step; exact .within rfl rfl
  | wrap taken => cases step; exact .within rfl rfl
  | up taken => cases step; exact .leaves rfl rfl
  | wakeInq => cases step; exact .outside rfl rfl

theorem pollStatement_disciplined {held : File} {stage : PollAt} {effect : Effect File}
    (step : pollStatement sem dev held stage = some effect) :
    Disciplined sem dev (.poll held stage) effect := by
  cases stage with
  | down => exact downUninterruptible_disciplined rfl rfl step
  | test => cases step; exact .within rfl rfl
  | up mask => cases step; exact .leaves rfl rfl

theorem openStatement_disciplined {size : Nat} {held : File} {mode : FileMode} {stage : OpenAt}
    {effect : Effect File} (step : openStatement size sem env dev held mode stage = some effect) :
    Disciplined sem dev (.opening held mode stage) effect := by
  cases stage with
  | down =>
      obtain ⟨taken, downed, ended⟩ := Option.map_eq_some_iff.mp step
      have disciplined : Disciplined sem dev (.opening held mode .down) taken :=
        downInterruptible_disciplined rfl rfl rfl downed
      split at ended <;> cases ended <;> exact ⟨disciplined.lock, disciplined.device⟩
  | test =>
      simp only [openStatement] at step
      split at step <;> cases step <;> exact .within rfl rfl
  | kmalloc =>
      simp only [openStatement] at step
      split at step <;> cases step <;> exact .within rfl rfl
  | upNoMemory => cases step; exact .leaves rfl rfl
  | size => cases step; exact .within rfl rfl
  | pointers => cases step; exact .within rfl rfl
  | writers => cases step; exact .within rfl rfl
  | readers => cases step; exact .within rfl rfl
  | up => cases step; exact .leaves rfl rfl

theorem releaseStatement_disciplined {held : File} {mode : FileMode} {stage : ReleaseAt}
    {effect : Effect File} (step : releaseStatement sem dev held mode stage = some effect) :
    Disciplined sem dev (.release held mode stage) effect := by
  cases stage with
  | down => exact downUninterruptible_disciplined rfl rfl step
  | writers => cases step; exact .within rfl rfl
  | readers => cases step; exact .within rfl rfl
  | kfree => cases step; exact .within rfl rfl
  | up => cases step; exact .leaves rfl rfl

theorem statement_disciplined {size : Nat} {effect : Effect File}
    (step : statement size sem env dev point = some effect) : Disciplined sem dev point effect := by
  cases point with
  | idle => simp [statement] at step
  | read file mode count stage => exact readStatement_disciplined step
  | write file mode data stage => exact writeStatement_disciplined step
  | poll file stage => exact pollStatement_disciplined step
  | opening file mode stage => exact openStatement_disciplined step
  | release file mode stage => exact releaseStatement_disciplined step

/-! Outside the sections only the wait conditions look at the device. -/

theorem downInterruptible_unlooked (other : ScullPipe) (taken failed : PipePoint File) :
    downInterruptible sem env other taken failed =
      (downInterruptible sem env dev taken failed).map fun effect => { effect with dev := other } := by
  simp only [downInterruptible]
  split
  · rfl
  · split <;> rfl

theorem downUninterruptible_unlooked (other : ScullPipe) (taken : PipePoint File) :
    downUninterruptible sem other taken =
      (downUninterruptible sem dev taken).map fun effect => { effect with dev := other } := by
  simp only [downUninterruptible]
  split <;> rfl

theorem statement_unlooked {size : Nat} (free : point.locked = false) (noTest : ¬ point.waitTest)
    (other : ScullPipe) :
    statement size sem env other point =
      (statement size sem env dev point).map fun effect => { effect with dev := other } := by
  cases point with
  | idle => rfl
  | read held mode count stage =>
      cases stage with
      | down => exact downInterruptible_unlooked other _ _
      | nonblock =>
          simp only [statement, readStatement]
          split <;> rfl
      | wait => exact absurd trivial noTest
      | asleep => rfl
      | wakeOutq => rfl
      | _ => contradiction
  | write held mode data stage =>
      cases stage with
      | down => exact downInterruptible_unlooked other _ _
      | nonblock =>
          simp only [statement, writeStatement]
          split <;> rfl
      | wait => exact absurd trivial noTest
      | asleep => rfl
      | signalled =>
          simp only [statement, writeStatement]
          split <;> rfl
      | downAgain => exact downInterruptible_unlooked other _ _
      | wakeInq => rfl
      | _ => contradiction
  | poll held stage =>
      cases stage with
      | down => exact downUninterruptible_unlooked other _
      | _ => contradiction
  | opening held mode stage =>
      cases stage with
      | down =>
          simp only [statement, openStatement, downInterruptible]
          split
          · rfl
          · split <;> rfl
      | _ => contradiction
  | release held mode stage =>
      cases stage with
      | down => exact downUninterruptible_unlooked other _
      | _ => contradiction

end Discipline

/-! The machine. -/

section Machine

variable {Pid File : Type}

theorem wakePoint_locked (wakes : Option Queue) (point : PipePoint File) :
    (wakePoint wakes point).locked = point.locked := by
  rcases wakes with _ | _ | _
  · rfl
  · cases point with
    | read file mode count stage => cases stage <;> rfl
    | _ => rfl
  · cases point with
    | write file mode data stage => cases stage <;> rfl
    | _ => rfl

structure SectionRules [DecidableEq Pid] [DecidableEq File] [Fintype Pid] (size : Nat)
    (sys : SectionSys Pid File) : Prop where
  binary : sys.sem = 0 ∨ sys.sem = 1
  taken : ∀ pid, sys.downs pid = 0 ∨ sys.downs pid = 1
  held : sys.sem = 0 ↔ ∃! pid, sys.downs pid = 1
  returned : ∀ pid, sys.points pid = .idle → sys.downs pid = 0
  copies : ∀ pid, (sys.points pid).copies → sys.downs pid = 1
  changes : ∀ action next, sectionStep size sys action = some next → next.dev ≠ sys.dev →
    sys.downs action.pid = 1
  unlooked : ∀ action dev, sys.downs action.pid = 0 → ¬ (sys.points action.pid).waitTest →
    sectionStep size { sys with dev := dev } action =
      (sectionStep size sys action).map fun next => { next with dev := dev }

structure SectionInvariant [Fintype Pid] (sys : SectionSys Pid File) : Prop where
  balanced : Semaphore.Balanced PipePoint.locked sys.sem sys.points
  downs : ∀ pid, sys.downs pid = Semaphore.weight PipePoint.locked (sys.points pid)

variable [DecidableEq Pid] [DecidableEq File] [Fintype Pid]

omit [DecidableEq File] in
theorem SectionInvariant.setPoint {sys : SectionSys Pid File} (invariant : SectionInvariant sys)
    {pid : Pid} {point : PipePoint File} (before : (sys.points pid).locked = false)
    (after : point.locked = false) : SectionInvariant (sys.setPoint pid point) := by
  refine ⟨invariant.balanced.move (after.trans before.symm), ?_⟩
  intro other
  simp only [SectionSys.setPoint, Function.update_apply]
  split
  · rename_i same
    rw [same, invariant.downs pid, Semaphore.weight_free before, Semaphore.weight_free after]
  · exact invariant.downs other

theorem SectionInvariant.perform {sys : SectionSys Pid File} (invariant : SectionInvariant sys)
    {pid : Pid} {effect : Effect File}
    (disciplined : Disciplined sys.sem sys.dev (sys.points pid) effect) :
    SectionInvariant (sys.perform pid effect) := by
  have woken : Semaphore.Balanced PipePoint.locked sys.sem
      fun other => wakePoint effect.wakes (sys.points other) :=
    invariant.balanced.congr fun other => wakePoint_locked effect.wakes (sys.points other)
  have here := wakePoint_locked effect.wakes (sys.points pid)
  have lock := disciplined.lock
  constructor
  · simp only [SectionSys.perform]
    cases operation : effect.lock with
    | none =>
        simp only [operation] at lock
        simpa only [LockOp.balance, sub_zero] using woken.move (lock.trans here.symm)
    | down =>
        simp only [operation] at lock
        exact woken.down lock.1 lock.2.2
    | up =>
        simp only [operation] at lock
        simpa only [LockOp.balance, sub_neg_eq_add] using woken.up (here.trans lock.1) lock.2
  · intro other
    simp only [SectionSys.perform, Function.update_apply]
    split
    · have before := invariant.downs pid
      simp only [Semaphore.weight] at before ⊢
      rw [before]
      cases operation : effect.lock with
      | none => simp only [operation] at lock; simp [LockOp.balance, lock]
      | down => simp only [operation] at lock; simp [LockOp.balance, lock]
      | up => simp only [operation] at lock; simp [LockOp.balance, lock]
    · have same := wakePoint_locked effect.wakes (sys.points other)
      simp only [Semaphore.weight, same]
      exact invariant.downs other

theorem sectionStep_cases {size : Nat} {sys next : SectionSys Pid File}
    {action : SectionAction Pid File} (taken : sectionStep size sys action = some next) :
    (∃ env effect, statement size sys.sem env sys.dev (sys.points action.pid) = some effect ∧
      next = sys.perform action.pid effect) ∨
      ∃ files point, (sys.points action.pid).locked = false ∧ point.locked = false ∧
        next = SectionSys.setPoint { sys with files := files } action.pid point := by
  cases action with
  | proceed pid env =>
      obtain ⟨effect, step, rfl⟩ := Option.map_eq_some_iff.mp taken
      exact .inl ⟨env, effect, step, rfl⟩
  | signal pid =>
      simp only [sectionStep] at taken
      split at taken
      · rename_i file mode count here
        split at taken
        · cases taken
          exact .inr ⟨sys.files, _, by rw [SectionAction.pid, here]; rfl, rfl, rfl⟩
        · cases taken
          exact .inr ⟨sys.files, _, by rw [SectionAction.pid, here]; rfl, rfl, rfl⟩
      · rename_i file mode data here
        cases taken
        exact .inr ⟨sys.files, _, by rw [SectionAction.pid, here]; rfl, rfl, rfl⟩
      · contradiction
  | startPoll pid file =>
      simp only [sectionStep] at taken
      split at taken
      · rename_i mode idle ready
        cases taken
        exact .inr ⟨sys.files, _, by rw [SectionAction.pid, idle]; rfl, rfl, rfl⟩
      · contradiction
  | startOpen pid file mode =>
      simp only [sectionStep] at taken
      split at taken
      · rename_i idle closed
        cases taken
        exact .inr ⟨_, _, by rw [SectionAction.pid, idle]; rfl, rfl, rfl⟩
      · contradiction
  | _ =>
      -- A file that is ready and a condition on its mode or on the other processes.
      simp only [sectionStep] at taken
      split at taken
      · rename_i mode idle ready
        split at taken
        · cases taken
          exact .inr ⟨_, _, by rw [SectionAction.pid, idle]; rfl, rfl, rfl⟩
        · contradiction
      · contradiction

theorem sectionInvariant_step {size : Nat} {sys next : SectionSys Pid File}
    {action : SectionAction Pid File} (invariant : SectionInvariant sys)
    (taken : sectionStep size sys action = some next) : SectionInvariant next := by
  rcases sectionStep_cases taken with ⟨env, effect, step, rfl⟩ | ⟨files, point, before, after, rfl⟩
  · exact invariant.perform (statement_disciplined step)
  · have same : SectionInvariant { sys with files := files } := ⟨invariant.balanced, invariant.downs⟩
    exact same.setPoint before after

theorem sectionStep_device {size : Nat} {sys next : SectionSys Pid File}
    {action : SectionAction Pid File} (taken : sectionStep size sys action = some next)
    (free : (sys.points action.pid).locked = false) : next.dev = sys.dev := by
  rcases sectionStep_cases taken with ⟨env, effect, step, rfl⟩ | ⟨files, point, _, _, rfl⟩
  · exact (statement_disciplined step).device free
  · rfl

theorem sectionStep_unlooked {size : Nat} {sys : SectionSys Pid File}
    (action : SectionAction Pid File) (dev : ScullPipe)
    (free : (sys.points action.pid).locked = false) (noTest : ¬ (sys.points action.pid).waitTest) :
    sectionStep size { sys with dev := dev } action =
      (sectionStep size sys action).map fun next => { next with dev := dev } := by
  cases action with
  | proceed pid env =>
      have same : statement size sys.sem env dev (sys.points pid) =
          (statement size sys.sem env sys.dev (sys.points pid)).map fun effect =>
            { effect with dev := dev } := statement_unlooked free noTest dev
      simp only [sectionStep, same, Option.map_map]
      rfl
  | signal pid =>
      simp only [SectionAction.pid] at noTest
      simp only [sectionStep]
      split
      · rename_i here
        simp only [here] at noTest
        exact absurd trivial noTest
      · rfl
      · rfl
  | startPoll pid file =>
      simp only [sectionStep]
      split <;> rfl
  | startOpen pid file mode =>
      simp only [sectionStep]
      split <;> rfl
  | _ =>
      simp only [sectionStep]
      split
      · split <;> rfl
      · rfl

omit [DecidableEq Pid] [DecidableEq File] in
theorem SectionInvariant.downs_one {sys : SectionSys Pid File} (invariant : SectionInvariant sys)
    (pid : Pid) : sys.downs pid = 1 ↔ (sys.points pid).locked = true := by
  rw [invariant.downs pid, Semaphore.weight]
  split <;> simp_all

theorem SectionInvariant.rules {size : Nat} {sys : SectionSys Pid File}
    (invariant : SectionInvariant sys) : SectionRules size sys := by
  have one := invariant.downs_one
  have taken : ∀ pid, sys.downs pid = 0 ∨ sys.downs pid = 1 := by
    intro pid
    rw [invariant.downs pid, Semaphore.weight]
    split <;> simp
  have free : ∀ pid, sys.downs pid = 0 → (sys.points pid).locked = false := by
    intro pid zero
    rw [← Bool.not_eq_true, ← one pid]
    omega
  constructor
  · exact invariant.balanced.binary
  · exact taken
  · simp only [one]
    exact invariant.balanced.taken_iff
  · intro pid idle
    rw [invariant.downs pid, idle]
    rfl
  · intro pid copies
    rw [one pid]
    cases point : sys.points pid with
    | read file mode count stage =>
        simp only [point] at copies
        cases stage <;> first | rfl | exact copies.elim
    | write file mode data stage =>
        simp only [point] at copies
        cases stage <;> first | rfl | exact copies.elim
    | _ =>
        simp only [point] at copies
        exact copies.elim
  · intro action next stepped changed
    rcases taken action.pid with zero | held
    · exact absurd (sectionStep_device stepped (free _ zero)) changed
    · exact held
  · intro action dev zero noTest
    exact sectionStep_unlooked action dev (free _ zero) noTest

omit [DecidableEq Pid] [DecidableEq File] in
theorem sectionInvariant_loaded : SectionInvariant (SectionSys.loaded Pid File) := by
  refine ⟨⟨by simp [SectionSys.loaded], ?_⟩, fun pid => rfl⟩
  simp [SectionSys.loaded, Semaphore.weight, PipePoint.locked]

/-- Under any interleaving of the statements of reads, writes, polls, opens and releases, with
any signals, faults and failed allocations, the semaphore of a pipe is taken exactly while one
process is inside a section, and what it guards is changed by that process alone. -/
theorem scullPipe_sections (size : Nat) (actions : List (SectionAction Pid File)) :
    StepMachine.Always (sectionStep size) (SectionRules size) (.loaded Pid File) actions := by
  have preserved : ∀ (sys : SectionSys Pid File) action next, SectionInvariant sys → True →
      sectionStep size sys action = some next → SectionInvariant next :=
    fun _ _ _ invariant _ taken => sectionInvariant_step invariant taken
  exact StepMachine.always_of_meets preserved (fun _ invariant => invariant.rules)
    sectionInvariant_loaded (StepMachine.meets_true _ actions)

end Machine

end Ldd3.Pipe
