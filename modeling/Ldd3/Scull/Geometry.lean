import Mathlib.Tactic
import Ldd3.Lib.StepMachine
import Ldd3.Scull.Reset

/-!
Several processes on one scull device. A read or a write first copies the geometry
of the device and later runs its critical section with the copies, while an
O_WRONLY open may reset the device to the current `scull_quantum` and `scull_qset`.
-/

namespace Ldd3.Scull

inductive Request
  | read (count : Nat) (fPos : Int)
  | write (data : List Byte) (fPos : Int)
  deriving DecidableEq, Repr

def Request.fPos : Request → Int
  | .read _ fPos => fPos
  | .write _ fPos => fPos

/-- A call that has copied the geometry and not yet run its critical section. -/
structure Snapshot where
  quantum : Int
  qset : Int
  request : Request
  deriving DecidableEq, Repr

def runSection (env : Env) (snapshot : Snapshot) (dev : ScullDev) : Except Oops Reply :=
  match snapshot.request with
  | .read count fPos => scullRead env snapshot.quantum snapshot.qset dev count fPos
  | .write data fPos => scullWrite env snapshot.quantum snapshot.qset dev data fPos

structure SharedDev (Pid : Type) where
  dev : ScullDev
  globals : Geometry
  calls : Pid → Option Snapshot

inductive SharedAction (Pid : Type)
  | enter (pid : Pid) (request : Request)
  | runSection (pid : Pid) (env : Env)
  | openWriteOnly (fuel : Nat)
  | ioctl (geometry : Geometry)

section Shared

variable {Pid : Type} [DecidableEq Pid]

def sharedStep (sys : SharedDev Pid) : SharedAction Pid → Option (SharedDev Pid)
  | .enter pid request =>
      if sys.calls pid = none ∧ 0 ≤ request.fPos then
        some { sys with
          calls := Function.update sys.calls pid (some ⟨sys.dev.quantum, sys.dev.qset, request⟩) }
      else none
  | .runSection pid env =>
      match sys.calls pid with
      | none => none
      | some snapshot =>
          match runSection env snapshot sys.dev with
          | .ok reply =>
              some { sys with dev := reply.dev, calls := Function.update sys.calls pid none }
          | .error _ => none
  | .openWriteOnly fuel =>
      match scullDevReset fuel sys.globals sys.dev with
      | .returned dev _ => some { sys with dev := dev }
      | _ => none
  | .ioctl geometry => if geometry.Positive then some { sys with globals := geometry } else none

def SharedDev.loaded (Pid : Type) (geometry : Geometry) : SharedDev Pid :=
  { dev := .fresh geometry, globals := geometry, calls := fun _ => none }

def ScullDev.geometry (dev : ScullDev) : Geometry := ⟨dev.quantum, dev.qset⟩

/-- Every critical section that can run now uses the geometry the device was built with,
and makes no access outside a pointer array or a quantum. -/
def SectionsSafe (sys : SharedDev Pid) : Prop :=
  Shaped sys.dev.qset.toNat sys.dev.quantum.toNat sys.dev.data ∧
    ∀ pid snapshot, sys.calls pid = some snapshot →
      (snapshot.quantum = sys.dev.quantum ∧ snapshot.qset = sys.dev.qset) ∧
        ∀ env, runSection env snapshot sys.dev ≠ .error .outOfBounds

/-- A reset that runs between the two steps of some call leaves the geometry as it is. -/
def ResetKeepsGeometry (sys : SharedDev Pid) : SharedAction Pid → Prop
  | .openWriteOnly _ => (∃ pid, sys.calls pid ≠ none) → sys.globals = sys.dev.geometry
  | _ => True

structure SharedInvariant (sys : SharedDev Pid) : Prop where
  positive : sys.dev.geometry.Positive
  globalsPositive : sys.globals.Positive
  shaped : Shaped sys.dev.qset.toNat sys.dev.quantum.toNat sys.dev.data
  positions : ∀ pid snapshot, sys.calls pid = some snapshot → 0 ≤ snapshot.request.fPos

theorem shaped_nil (qset blockSize : Nat) : Shaped qset blockSize [] := by
  intro node member
  simp at member

theorem runSection_current {dev : ScullDev} (positive : dev.geometry.Positive)
    (shaped : Shaped dev.qset.toNat dev.quantum.toNat dev.data) {request : Request}
    (nonneg : 0 ≤ request.fPos) (env : Env) :
    runSection env ⟨dev.quantum, dev.qset, request⟩ dev = .error .divide ∨
      ∃ reply, runSection env ⟨dev.quantum, dev.qset, request⟩ dev = .ok reply ∧
        reply.dev.geometry = dev.geometry ∧
        Shaped reply.dev.qset.toNat reply.dev.quantum.toNat reply.dev.data := by
  have quantumPositive : 0 < dev.quantum := positive.quantum
  have qsetPositive : 0 < dev.qset := positive.qset
  have quantumFits : CInt.FitsInt dev.quantum := positive.quantumFits
  rcases calculatePositions_bounds quantumPositive qsetPositive nonneg with
    failed | ⟨pos, computed, sLower, sUpper, qLower, qUpper⟩
  · cases request with
    | read count fPos =>
        simp only [Request.fPos] at failed
        simp only [runSection, scullRead, failed, error_bind]
        split
        · exact Or.inr ⟨_, rfl, rfl, shaped⟩
        · split
          · exact Or.inr ⟨_, rfl, rfl, shaped⟩
          · exact Or.inl rfl
    | write data fPos =>
        simp only [Request.fPos] at failed
        simp only [runSection, scullWrite, scullWriteWith, failed, error_bind]
        split
        · exact Or.inr ⟨_, rfl, rfl, shaped⟩
        · exact Or.inl rfl
  · right
    have inside : PositionInside dev.quantum dev.qset dev.quantum.toNat pos :=
      ⟨sLower, sUpper, qLower, qUpper, quantumFits, by omega⟩
    cases request with
    | read count fPos =>
        obtain ⟨reply, replied, result⟩ := scullRead_result env count computed inside shaped
        obtain ⟨extra, device⟩ := result.device
        refine ⟨reply, replied, by rw [device]; rfl, ?_⟩
        rw [device]
        exact shaped_append_empty shaped extra
    | write data fPos =>
        have zeroed := kmallocQuantum_zeroed quantumPositive.le quantumFits env
        obtain ⟨reply, replied, result⟩ := scullWriteWith_result data zeroed computed inside shaped
        obtain ⟨quantumSame, qsetSame⟩ := result.geometry
        have resultShaped := result.shaped inside shaped
        refine ⟨reply, replied, by simp only [ScullDev.geometry, quantumSame, qsetSame], ?_⟩
        rw [quantumSame, qsetSame]
        exact resultShaped

theorem runSection_keeps {dev : ScullDev} (positive : dev.geometry.Positive)
    (shaped : Shaped dev.qset.toNat dev.quantum.toNat dev.data) {snapshot : Snapshot}
    (quantumSame : snapshot.quantum = dev.quantum) (qsetSame : snapshot.qset = dev.qset)
    (nonneg : 0 ≤ snapshot.request.fPos) {env : Env} {reply : Reply}
    (replied : runSection env snapshot dev = .ok reply) :
    reply.dev.geometry = dev.geometry ∧
      Shaped reply.dev.qset.toNat reply.dev.quantum.toNat reply.dev.data := by
  obtain ⟨quantum, qset, request⟩ := snapshot
  simp only at quantumSame qsetSame
  subst quantumSame qsetSame
  rcases runSection_current positive shaped nonneg env with failed | ⟨other, answered, kept⟩
  · rw [failed] at replied
    contradiction
  · rw [answered] at replied
    cases replied
    exact kept

omit [DecidableEq Pid] in
theorem sectionsSafe_iff_current {sys : SharedDev Pid} (invariant : SharedInvariant sys) :
    SectionsSafe sys ↔ ∀ pid snapshot, sys.calls pid = some snapshot →
      snapshot.quantum = sys.dev.quantum ∧ snapshot.qset = sys.dev.qset := by
  constructor
  · intro safe pid snapshot inCall
    exact (safe.2 pid snapshot inCall).1
  · intro current
    refine ⟨invariant.shaped, ?_⟩
    intro pid snapshot inCall
    obtain ⟨quantumSame, qsetSame⟩ := current pid snapshot inCall
    have nonneg := invariant.positions pid snapshot inCall
    refine ⟨⟨quantumSame, qsetSame⟩, ?_⟩
    intro env outside
    obtain ⟨quantum, qset, request⟩ := snapshot
    simp only at quantumSame qsetSame
    subst quantumSame qsetSame
    rcases runSection_current invariant.positive invariant.shaped nonneg env with
      failed | ⟨reply, replied, _⟩
    · simp [failed] at outside
    · simp [replied] at outside

section Moves

variable {sys next : SharedDev Pid} {pid : Pid}

theorem sharedStep_enter {request : Request} (taken : sharedStep sys (.enter pid request) = some next) :
    0 ≤ request.fPos ∧ next = { sys with
      calls := Function.update sys.calls pid (some ⟨sys.dev.quantum, sys.dev.qset, request⟩) } := by
  simp only [sharedStep, Option.ite_none_right_eq_some, Option.some.injEq] at taken
  exact ⟨taken.1.2, taken.2.symm⟩

theorem sharedStep_runSection {env : Env} (taken : sharedStep sys (.runSection pid env) = some next) :
    ∃ snapshot reply, sys.calls pid = some snapshot ∧ runSection env snapshot sys.dev = .ok reply ∧
      next = { sys with dev := reply.dev, calls := Function.update sys.calls pid none } := by
  simp only [sharedStep] at taken
  split at taken
  · contradiction
  rename_i snapshot inCall
  split at taken
  · rename_i reply replied
    rw [Option.some.injEq] at taken
    exact ⟨snapshot, reply, inCall, replied, taken.symm⟩
  · contradiction

theorem sharedStep_openWriteOnly {fuel : Nat}
    (taken : sharedStep sys (.openWriteOnly fuel) = some next) :
    next = { sys with dev := .fresh sys.globals } := by
  simp only [sharedStep] at taken
  split at taken
  · rename_i dev visited returned
    rw [Option.some.injEq] at taken
    rw [← taken, resetLoop_fresh _ _ _ _ returned]
  · contradiction

theorem sharedStep_ioctl {geometry : Geometry} (taken : sharedStep sys (.ioctl geometry) = some next) :
    geometry.Positive ∧ next = { sys with globals := geometry } := by
  simp only [sharedStep, Option.ite_none_right_eq_some, Option.some.injEq] at taken
  exact ⟨taken.1, taken.2.symm⟩

end Moves

theorem sharedInvariant_step {sys next : SharedDev Pid} {action : SharedAction Pid}
    (invariant : SharedInvariant sys) (safe : SectionsSafe sys)
    (taken : sharedStep sys action = some next) : SharedInvariant next := by
  cases action with
  | enter pid request =>
      obtain ⟨nonneg, rfl⟩ := sharedStep_enter taken
      refine ⟨invariant.positive, invariant.globalsPositive, invariant.shaped, ?_⟩
      intro other snapshot inCall
      simp only [Function.update_apply] at inCall
      split at inCall
      · simp only [Option.some.injEq] at inCall
        exact inCall ▸ nonneg
      · exact invariant.positions other snapshot inCall
  | runSection pid env =>
      obtain ⟨snapshot, reply, inCall, replied, rfl⟩ := sharedStep_runSection taken
      have nonneg := invariant.positions pid snapshot inCall
      obtain ⟨quantumSame, qsetSame⟩ := (safe.2 pid snapshot inCall).1
      obtain ⟨geometry, shaped⟩ := runSection_keeps invariant.positive invariant.shaped
        quantumSame qsetSame nonneg replied
      refine ⟨by rw [geometry]; exact invariant.positive, invariant.globalsPositive, shaped, ?_⟩
      intro other found inOther
      simp only [Function.update_apply] at inOther
      split at inOther
      · contradiction
      · exact invariant.positions other found inOther
  | openWriteOnly fuel =>
      rw [sharedStep_openWriteOnly taken]
      exact ⟨invariant.globalsPositive, invariant.globalsPositive, shaped_nil _ _,
        invariant.positions⟩
  | ioctl geometry =>
      obtain ⟨positive, rfl⟩ := sharedStep_ioctl taken
      exact ⟨invariant.positive, positive, invariant.shaped, invariant.positions⟩

theorem sectionsSafe_step_iff {sys next : SharedDev Pid} {action : SharedAction Pid}
    (invariant : SharedInvariant sys) (safe : SectionsSafe sys)
    (taken : sharedStep sys action = some next) :
    SectionsSafe next ↔ ResetKeepsGeometry sys action := by
  have nextInvariant := sharedInvariant_step invariant safe taken
  have current := (sectionsSafe_iff_current invariant).mp safe
  rw [sectionsSafe_iff_current nextInvariant]
  cases action with
  | enter pid request =>
      obtain ⟨_, rfl⟩ := sharedStep_enter taken
      refine ⟨fun _ => trivial, ?_⟩
      intro _ other snapshot inCall
      simp only [Function.update_apply] at inCall
      split at inCall
      · simp only [Option.some.injEq] at inCall
        subst inCall
        exact ⟨rfl, rfl⟩
      · exact current other snapshot inCall
  | runSection pid env =>
      obtain ⟨snapshot, reply, inCall, replied, rfl⟩ := sharedStep_runSection taken
      have nonneg := invariant.positions pid snapshot inCall
      obtain ⟨quantumSame, qsetSame⟩ := current pid snapshot inCall
      have kept := (runSection_keeps invariant.positive invariant.shaped quantumSame qsetSame
        nonneg replied).1
      simp only [ScullDev.geometry, Geometry.mk.injEq] at kept
      refine ⟨fun _ => trivial, ?_⟩
      intro _ other found inOther
      simp only [Function.update_apply] at inOther
      split at inOther
      · contradiction
      · rw [kept.1, kept.2]
        exact current other found inOther
  | openWriteOnly fuel =>
      have reset := sharedStep_openWriteOnly taken
      subst reset
      simp only [ResetKeepsGeometry, ScullDev.fresh]
      constructor
      · rintro kept ⟨pid, inCall⟩
        obtain ⟨snapshot, found⟩ := Option.ne_none_iff_exists'.mp inCall
        obtain ⟨quantumNew, qsetNew⟩ := kept pid snapshot found
        obtain ⟨quantumOld, qsetOld⟩ := current pid snapshot found
        simp only [ScullDev.geometry, ← quantumOld, ← qsetOld, quantumNew, qsetNew]
      · intro kept pid snapshot found
        have same := kept ⟨pid, by simp [found]⟩
        rw [same]
        exact current pid snapshot found
  | ioctl geometry =>
      obtain ⟨_, rfl⟩ := sharedStep_ioctl taken
      exact ⟨fun _ => trivial, fun _ => current⟩

omit [DecidableEq Pid] in
theorem sharedInvariant_loaded {geometry : Geometry} (positive : geometry.Positive) :
    SharedInvariant (SharedDev.loaded Pid geometry) := by
  refine ⟨positive, positive, shaped_nil _ _, ?_⟩
  intro pid snapshot inCall
  simp [SharedDev.loaded] at inCall

/-- Along any interleaving, all critical sections use the geometry of the device and stay in
bounds exactly when no reset changes the geometry between the two steps of a call. -/
theorem sections_safe_iff {geometry : Geometry} (positive : geometry.Positive)
    (actions : List (SharedAction Pid)) :
    StepMachine.Always sharedStep SectionsSafe (.loaded Pid geometry) actions ↔
      StepMachine.Meets sharedStep ResetKeepsGeometry (.loaded Pid geometry) actions := by
  have initial : SharedInvariant (SharedDev.loaded Pid geometry) :=
    sharedInvariant_loaded positive
  refine StepMachine.always_iff_meets ?_ ?_ actions initial ?_
  · intro sys action next invariant safe taken
    exact sharedInvariant_step invariant safe taken
  · intro sys action next invariant safe taken
    exact sectionsSafe_step_iff invariant safe taken
  · rw [sectionsSafe_iff_current initial]
    intro pid snapshot inCall
    simp [SharedDev.loaded] at inCall

end Shared

def quietEnv : Env := .good fun _ => 0

theorem sections_safe_iff_oneWriter :
    StepMachine.Always sharedStep SectionsSafe (.loaded Bool ⟨4, 1⟩)
        [.enter true (.write [1, 2] 0), .runSection true quietEnv, .ioctl ⟨1, 1⟩,
          .openWriteOnly 4] ↔
      StepMachine.Meets sharedStep ResetKeepsGeometry (.loaded Bool ⟨4, 1⟩)
        [.enter true (.write [1, 2] 0), .runSection true quietEnv, .ioctl ⟨1, 1⟩,
          .openWriteOnly 4] :=
  sections_safe_iff (by decide) _

/-- Process `false` copies the geometry before the reset to smaller quanta, and process
`true` stores one byte after it. -/
def staleWriter : List (SharedAction Bool) :=
  [.enter false (.write [1, 2, 3, 4] 0), .ioctl ⟨1, 1⟩, .openWriteOnly 4,
    .enter true (.write [5] 0), .runSection true quietEnv]

theorem staleWriter_outOfBounds :
    ((StepMachine.run sharedStep (.loaded Bool ⟨4, 1⟩) staleWriter).map fun sys =>
      (sys.calls false).map fun snapshot => runSection quietEnv snapshot sys.dev) =
    some (some (.error .outOfBounds)) := by
  decide +kernel

theorem sections_unsafe_staleWriter :
    ¬ StepMachine.Always sharedStep SectionsSafe (.loaded Bool ⟨4, 1⟩) staleWriter := by
  intro always
  obtain ⟨sys, safe, outside⟩ := always.observed staleWriter_outOfBounds
  rw [Option.map_eq_some_iff] at outside
  obtain ⟨snapshot, inCall, failed⟩ := outside
  exact (safe.2 false snapshot inCall).2 quietEnv failed

end Ldd3.Scull
