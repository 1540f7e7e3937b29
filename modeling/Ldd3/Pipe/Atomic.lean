import Mathlib.Tactic
import Ldd3.Lib.StepMachine
import Ldd3.Pipe.Sections

/-!
The sections as single steps. The statements of one section, run one after another, do to
the device what the section does as a whole, and while a process is inside its section no
other process touches the device: so the machine whose sections are atomic loses nothing.
-/

namespace Ldd3.Pipe

variable {File : Type}

def sectionStatement (scullPBuffer : Nat) (state : ScullPipe × PipePoint File) (env : Env) :
    Option (ScullPipe × PipePoint File) :=
  (statement scullPBuffer 0 env state.1 state.2).map fun effect => (effect.dev, effect.point)

def Leads (size : Nat) (env : Env) (first last : ScullPipe × PipePoint File) : Prop :=
  ∃ count, StepMachine.run (sectionStatement size) first (List.replicate count env) = some last

def ReadOutcome.ends : ReadOutcome → ReadAt
  | .endOfFile => .upEndOfFile
  | .empty => .upEmpty
  | .fault => .upFault
  | .data bytes => .up bytes.length

def WriteOutcome.ends : WriteOutcome → WriteAt
  | .full => .upFull
  | .fault => .upFault
  | .accepted bytes => .up bytes.length

theorem Leads.here (size : Nat) (env : Env) (state : ScullPipe × PipePoint File) :
    Leads size env state state := ⟨0, rfl⟩

theorem Leads.goTo {size : Nat} {env : Env} {dev after : ScullPipe} {point next : PipePoint File}
    {last : ScullPipe × PipePoint File}
    (taken : statement size 0 env dev point = some (.goTo after next))
    (rest : Leads size env (after, next) last) : Leads size env (dev, point) last := by
  obtain ⟨count, ran⟩ := rest
  have stepped : sectionStatement size (dev, point) env = some (after, next) := by
    simp only [sectionStatement, taken, Option.map_some, Effect.goTo]
  exact ⟨count + 1, StepMachine.run_cons_some stepped ran⟩

theorem readSection_leads (size : Nat) {env : Env} {dev after : ScullPipe} {count : Nat}
    {outcome : ReadOutcome} (file : File) (mode : FileMode)
    (locked : scullPReadLocked env dev count = .ok (after, outcome)) :
    Leads size env (dev, .read file mode count .empty) (after, .read file mode count outcome.ends) := by
  simp only [scullPReadLocked] at locked
  by_cases empty : dev.rp = dev.wp
  · have test : statement size 0 env dev (.read file mode count .empty) =
        some (.goTo dev (.read file mode count .writers)) := if_pos empty
    rw [if_pos empty] at locked
    split at locked
    · rename_i last
      cases locked
      exact .goTo test (.goTo (if_pos last) (.here _ _ _))
    · rename_i writers
      cases locked
      exact .goTo test (.goTo (if_neg writers) (.here _ _ _))
  · have test : statement size 0 env dev (.read file mode count .empty) =
        some (.goTo dev (.read file mode count .copy)) := if_neg empty
    rw [if_neg empty] at locked
    cases started : dev.start with
    | none => simp [started] at locked
    | some buffer =>
        simp only [started] at locked
        split at locked
        · rename_i fits
          split at locked
          · rename_i faulted
            cases locked
            have copy : statement size 0 env dev (.read file mode count .copy) =
                some (.goTo dev (.read file mode count .upFault)) := by
              simp only [statement, readStatement, started, if_pos fits, if_pos faulted]
            exact .goTo test (.goTo copy (.here _ _ _))
          · rename_i complete
            cases locked
            have copy : statement size 0 env dev (.read file mode count .copy) =
                some (.goTo dev (.read file mode count (.advance (readCount dev count)))) := by
              simp only [statement, readStatement, started, if_pos fits, if_neg complete]
            rw [ReadOutcome.ends, Block.length_slice fits, ← started]
            exact .goTo test (.goTo copy (.goTo rfl (.goTo rfl (.here _ _ _))))
        · contradiction

theorem writeSection_leads (size : Nat) {env : Env} {dev after : ScullPipe} {data : List Byte}
    {outcome : WriteOutcome} (file : File) (mode : FileMode)
    (within : writeCount dev data.length ≤ data.length)
    (locked : scullPWriteLocked env dev data = .ok (after, outcome)) :
    Leads size env (dev, .write file mode data .full) (after, .write file mode data outcome.ends) := by
  simp only [scullPWriteLocked] at locked
  by_cases full : getSpacefree dev = 0
  · have test : statement size 0 env dev (.write file mode data .full) =
        some (.goTo dev (.write file mode data .upFull)) := if_pos full
    rw [if_pos full] at locked
    cases locked
    exact .goTo test (.here _ _ _)
  · have test : statement size 0 env dev (.write file mode data .full) =
        some (.goTo dev (.write file mode data .copy)) := if_neg full
    rw [if_neg full] at locked
    cases started : dev.start with
    | none => simp [started] at locked
    | some buffer =>
        simp only [started] at locked
        split at locked
        · rename_i fits
          split at locked
          · rename_i faulted
            cases locked
            have copy : statement size 0 env dev (.write file mode data .copy) =
                some (.goTo
                  { dev with
                    start := some (Block.overwrite buffer dev.wp
                      (env.copied (data.take (writeCount dev data.length)))) }
                  (.write file mode data .upFault)) := by
              simp only [statement, writeStatement, started, if_pos fits, if_pos faulted]
            exact .goTo test (.goTo copy (.here _ _ _))
          · rename_i complete
            cases locked
            have copy : statement size 0 env dev (.write file mode data .copy) =
                some (.goTo
                  { dev with
                    start := some (Block.overwrite buffer dev.wp
                      (env.copied (data.take (writeCount dev data.length)))) }
                  (.write file mode data (.advance (writeCount dev data.length)))) := by
              simp only [statement, writeStatement, started, if_pos fits, if_neg complete]
            rw [WriteOutcome.ends, List.length_take, Nat.min_eq_left within]
            exact .goTo test (.goTo copy (.goTo rfl (.goTo rfl (.here _ _ _))))
        · contradiction

theorem openSection_leads {size : Nat} {env : Env} (quiet : env.interrupted = false)
    (dev : ScullPipe) (file : File) (mode : FileMode) :
    Leads size env (dev, .opening file mode .test)
      ((scullPOpen size env mode dev).1,
        .opening file mode (if (scullPOpen size env mode dev).2 = 0 then .up else .upNoMemory)) := by
  simp only [scullPOpen, quiet]
  cases started : dev.start with
  | some buffer =>
      have test : statement size 0 env dev (.opening file mode .test) =
          some (.goTo dev (.opening file mode .writers)) := if_neg (by simp [started])
      exact .goTo test (.goTo rfl (.goTo rfl (.here _ _ _)))
  | none =>
      have test : statement size 0 env dev (.opening file mode .test) =
          some (.goTo dev (.opening file mode .kmalloc)) := if_pos started
      cases allocated : env.alloc 0 with
      | true => exact .goTo test (.goTo (if_pos allocated)
          (.goTo rfl (.goTo rfl (.goTo rfl (.goTo rfl (.here _ _ _))))))
      | false => exact .goTo test (.goTo (if_neg (by simp [allocated])) (.here _ _ _))

theorem releaseSection_leads (size : Nat) (env : Env) (dev : ScullPipe) (file : File)
    (mode : FileMode) :
    Leads size env (dev, .release file mode .writers)
      ((scullPRelease mode dev).1, .release file mode .up) :=
  ⟨3, rfl⟩

/-! Between two statements of a section the other processes leave it as it is. -/

theorem wakePoint_of_locked (wakes : Option Queue) {point : PipePoint File}
    (inside : point.locked = true) : wakePoint wakes point = point := by
  rcases wakes with _ | _ | _
  · rfl
  · cases point with
    | read file mode count stage => cases stage <;> first | rfl | contradiction
    | _ => rfl
  · cases point with
    | write file mode data stage => cases stage <;> first | rfl | contradiction
    | _ => rfl

theorem section_undisturbed {Pid : Type} [DecidableEq Pid] [DecidableEq File] [Fintype Pid]
    {size : Nat} {sys next : SectionSys Pid File} {action : SectionAction Pid File} {pid : Pid}
    (invariant : SectionInvariant sys) (inside : (sys.points pid).locked = true)
    (other : action.pid ≠ pid) (taken : sectionStep size sys action = some next) :
    next.dev = sys.dev ∧ next.points pid = sys.points pid := by
  have free : (sys.points action.pid).locked = false := by
    rw [← Bool.not_eq_true]
    intro held
    exact other (invariant.balanced.exclusive held inside)
  refine ⟨sectionStep_device taken free, ?_⟩
  have kept : ∀ {actor point}, actor ≠ pid →
      Function.update sys.points actor point pid = sys.points pid :=
    fun different => Function.update_of_ne (Ne.symm different) _ _
  cases action with
  | proceed actor env =>
      obtain ⟨effect, _, rfl⟩ := Option.map_eq_some_iff.mp taken
      have different : pid ≠ actor := Ne.symm other
      simp only [SectionSys.perform, Function.update_of_ne different]
      exact wakePoint_of_locked effect.wakes inside
  | signal actor =>
      simp only [sectionStep] at taken
      split at taken
      · split at taken <;> cases taken <;> exact kept other
      · cases taken
        exact kept other
      · contradiction
  | startPoll actor file =>
      simp only [sectionStep] at taken
      split at taken
      · cases taken
        exact kept other
      · contradiction
  | startOpen actor file mode =>
      simp only [sectionStep] at taken
      split at taken
      · cases taken
        exact kept other
      · contradiction
  | _ =>
      simp only [sectionStep] at taken
      split at taken
      · split at taken
        · cases taken
          exact kept other
        · contradiction
      · contradiction

end Ldd3.Pipe
