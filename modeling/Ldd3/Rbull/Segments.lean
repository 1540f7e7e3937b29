import Mathlib.Tactic
import Ldd3.Lib.Schedule
import Ldd3.Rbull.Copies

/-!
Runs of `rbull_rq_work` on different hardware-queue workers, each one started and not
timed out. One step of a worker is one pass of the segment loop, whose copy is made under
`dev->lock`, or what is left of the run after its last segment.
-/

namespace Ldd3.Rbull

open CInt (uint64)

def workSteps : Nat → WorkView → Option WorkView
  | 0, view => some view
  | count + 1, view => (workStep view).bind (workSteps count)

def roundLength (view : WorkView) : Nat :=
  match view.run.rest with
  | [] => 4
  | seg :: _ => if outOfRange view.dev.sizeBytes view.run.devOff seg then 3 else 5

def workRound (view : WorkView) : Option WorkView :=
  if view.run.point = .loopHead then workSteps (roundLength view) view else none

def WorkView.nextCopy (view : WorkView) : Option Copy :=
  match view.run.rest with
  | [] => none
  | seg :: _ =>
      if outOfRange view.dev.sizeBytes view.run.devOff seg then none
      else some ⟨view.ctx.op, view.run.devOff, seg⟩

/-- The workers with what they share; `copied` is a history. -/
structure Workers (Id : Type) where
  dev : RbullDev
  pages : Pages
  ctxs : Id → Ctx
  runs : Id → Run
  copied : Id → List Copy

structure RbullDev.Idle (dev : RbullDev) : Prop where
  sized : dev.data.length = dev.sizeBytes
  readers : dev.readers = 0
  writer : dev.writer = false

theorem RbullDev.loaded_idle (diskSectorsMb : Nat) : (RbullDev.loaded diskSectorsMb).Idle :=
  ⟨List.length_replicate, rfl, rfl⟩

def copiesData : ReqOp → Bool
  | .read | .write | .discard | .writeZeroes => true
  | .flush | .other _ | .driver _ => false

section Machine

variable {Id : Type} [DecidableEq Id]

def Workers.start (dev : RbullDev) (pages : Pages) (requests : Id → Request) : Workers Id :=
  { dev := dev
    pages := pages
    ctxs := fun id => { op := (requests id).op, abort := false, done := false }
    runs := fun id => Run.start 1 (requests id) (requests id).op
    copied := fun _ => [] }

def Workers.view (workers : Workers Id) (id : Id) : WorkView :=
  ⟨workers.dev, workers.pages, workers.ctxs id, workers.runs id⟩

def segmentStep (workers : Workers Id) (id : Id) : Option (Workers Id) :=
  (workRound (workers.view id)).map fun view =>
    { dev := view.dev
      pages := view.pages
      ctxs := Function.update workers.ctxs id view.ctx
      runs := Function.update workers.runs id view.run
      copied := Function.update workers.copied id
        (workers.copied id ++ (workers.view id).nextCopy.toList) }

def Workers.returned (workers : Workers Id) (id : Id) : Prop :=
  (workers.runs id).point = .returning

instance (workers : Workers Id) (id : Id) : Decidable (workers.returned id) :=
  inferInstanceAs (Decidable (_ = _))

def serveRounds : Nat → Workers Id → Id → Option (Workers Id)
  | 0, workers, _ => some workers
  | rounds + 1, workers, id =>
      if workers.returned id then some workers
      else (segmentStep workers id).bind fun next => serveRounds rounds next id

def serveRequest (workers : Workers Id) (id : Id) : Option (Workers Id) :=
  serveRounds ((workers.runs id).rest.length + 1) workers id

/-- The store and the data of every READ are those of executing the requests one whole
request at a time in some order. -/
def Serial (first final : Workers Id) : Prop :=
  ∃ order : List Id, order.Nodup ∧ (∀ id, id ∈ order) ∧
    ∃ served, StepMachine.run serveRequest first order = some served ∧
      served.dev.data = final.dev.data ∧ served.pages = final.pages

/-- The next copy of a worker touches no byte that the other one's copies have touched,
unless both of them only read it. -/
def Workers.Clear (workers : Workers Id) (id other : Id) : Prop :=
  ∀ copy ∈ (workers.view id).nextCopy, ∀ made ∈ workers.copied other, copy.conflicts made = false

instance (workers : Workers Id) (id other : Id) : Decidable (workers.Clear id other) :=
  inferInstanceAs (Decidable (∀ copy ∈ (workers.view id).nextCopy, _))

end Machine

structure Round where
  copy : Option Copy
  counted : Int
  ctx : Ctx
  run : Run

def Run.finish (run : Run) (status : BlkStatus) (rest : List BioVec) (raised : Int) : Run :=
  { run with rest := rest, ret := status, raised := raised, point := .returning }

def Run.pass (run : Run) (seg : BioVec) (more : List BioVec) (raised : Int) : Run :=
  { run with
    rest := more
    devOff := uint64 (run.devOff + seg.len)
    raised := raised
    handled := run.handled ++ [seg] }

def writeCount (run : Run) : Int := if run.isWrite then 1 else 0

def Run.round (run : Run) (sizeBytes : Nat) (ctx : Ctx) : Round :=
  match run.rest with
  | [] =>
      { copy := none
        counted := -writeCount run
        ctx := { ctx with done := true }
        run := run.finish run.ret [] (run.raised - writeCount run) }
  | seg :: more =>
      if outOfRange sizeBytes run.devOff seg then
        { copy := none
          counted := 0
          ctx := { ctx with done := true }
          run := run.finish .ioerr more run.raised }
      else
        { copy := some ⟨ctx.op, run.devOff, seg⟩
          counted := writeCount run
          ctx := ctx
          run := run.pass seg more (run.raised + writeCount run) }

structure Run.Between (run : Run) (ctx : Ctx) : Prop where
  head : run.point = .loopHead
  ok : run.ret = .ok
  unlocked : run.held = none
  side : run.isWrite = isWriteOp ctx.op
  data : copiesData ctx.op = true
  live : ctx.abort = false
  fresh : ctx.done = false

def Round.memory (round : Round) (memory : Memory) : Memory :=
  round.copy.elim memory fun copy => copy.apply memory

def Round.fits (round : Round) (sizeBytes : Nat) (pages : Pages) : Bool :=
  round.copy.all fun copy => copy.fits sizeBytes pages

def Round.view (round : Round) (dev : RbullDev) (pages : Pages) : WorkView :=
  let memory := round.memory ⟨dev.data, pages⟩
  { dev := { dev with
      data := memory.data
      inflightWrites := dev.inflightWrites + round.counted }
    pages := memory.pages
    ctx := round.ctx
    run := round.run }

variable {dev : RbullDev} {pages : Pages} {ctx : Ctx} {run : Run}

theorem workRound_end (between : run.Between ctx) (last : run.rest = []) :
    workRound ⟨dev, pages, ctx, run⟩ = some ((run.round dev.sizeBytes ctx).view dev pages) := by
  obtain ⟨head, ok, unlocked, side, data, live, isOpen⟩ := between
  obtain ⟨isWrite, rest, devOff, ret, point, gen, held, raised, handled⟩ := run
  simp only at head ok unlocked side last
  subst head ok unlocked last
  cases isWrite <;>
    simp [workRound, roundLength, workSteps, workStep, WorkView.goto, Run.goto, lowerWrites,
      Run.round, Round.view, Round.memory, Run.finish, writeCount, isOpen, sub_eq_add_neg]

theorem workRound_outOfRange (between : run.Between ctx) {seg : BioVec} {more : List BioVec}
    (next : run.rest = seg :: more) (outside : outOfRange dev.sizeBytes run.devOff seg = true) :
    workRound ⟨dev, pages, ctx, run⟩ = some ((run.round dev.sizeBytes ctx).view dev pages) := by
  obtain ⟨head, ok, unlocked, side, data, live, isOpen⟩ := between
  obtain ⟨isWrite, rest, devOff, ret, point, gen, held, raised, handled⟩ := run
  simp only at head ok unlocked side next outside
  subst head ok unlocked next
  simp [workRound, roundLength, workSteps, workStep, enterSegment, WorkView.goto, Run.goto,
    Run.round, Round.view, Round.memory, Run.finish, outside, isOpen]

theorem switchOp_copy {view : WorkView} (data : copiesData view.ctx.op = true) (seg : BioVec) :
    switchOp view seg =
      if Copy.fits ⟨view.ctx.op, view.run.devOff, seg⟩ view.dev.sizeBytes view.pages then
        let memory :=
          Copy.apply ⟨view.ctx.op, view.run.devOff, seg⟩ ⟨view.dev.data, view.pages⟩
        some { view with
          dev := { view.dev with data := memory.data }
          pages := memory.pages
          run := view.run.advanceHandled seg }
      else none := by
  cases op : view.ctx.op <;>
    simp_all [copiesData, switchOp, Copy.fits, Copy.apply, inStore, memcpyToPage, memcpyToStore,
      memsetStore]

theorem workRound_copy (between : run.Between ctx) (readers : dev.readers = 0)
    (writer : dev.writer = false) {seg : BioVec} {more : List BioVec}
    (next : run.rest = seg :: more) (inside : outOfRange dev.sizeBytes run.devOff seg = false) :
    workRound ⟨dev, pages, ctx, run⟩ =
      if (run.round dev.sizeBytes ctx).fits dev.sizeBytes pages then
        some ((run.round dev.sizeBytes ctx).view dev pages)
      else none := by
  obtain ⟨head, ok, unlocked, side, data, live, isOpen⟩ := between
  obtain ⟨isWrite, rest, devOff, ret, point, gen, held, raised, handled⟩ := run
  obtain ⟨bytes, sizeBytes, inflightWrites, readerCount, writing⟩ := dev
  simp only at head ok unlocked side next inside readers writer
  subst head ok unlocked next readers writer
  by_cases fits : Copy.fits ⟨ctx.op, devOff, seg⟩ sizeBytes pages = true
  · cases isWrite <;>
      simp [workRound, roundLength, workSteps, workStep, enterSegment, downLock, upLock,
        switchOp_copy, data, live, fits, WorkView.goto, Run.goto, Run.advanceHandled, Run.advance,
        Run.round, Round.view, Round.memory, Round.fits, Run.pass, inside, writeCount]
  · cases isWrite <;>
      simp [workRound, roundLength, workSteps, workStep, enterSegment, downLock,
        switchOp_copy, data, live, fits, WorkView.goto, Run.goto,
        Run.round, Round.fits, inside]

theorem workRound_eq (between : run.Between ctx) (readers : dev.readers = 0)
    (writer : dev.writer = false) :
    workRound ⟨dev, pages, ctx, run⟩ =
      if (run.round dev.sizeBytes ctx).fits dev.sizeBytes pages then
        some ((run.round dev.sizeBytes ctx).view dev pages)
      else none := by
  cases next : run.rest with
  | nil =>
      have fits : (run.round dev.sizeBytes ctx).fits dev.sizeBytes pages = true := by
        simp only [Run.round, next, Round.fits, Option.all_none]
      rw [if_pos fits]
      exact workRound_end between next
  | cons seg more =>
      by_cases outside : outOfRange dev.sizeBytes run.devOff seg = true
      · have fits : (run.round dev.sizeBytes ctx).fits dev.sizeBytes pages = true := by
          simp only [Run.round, next, outside, ↓reduceIte, Round.fits, Option.all_none]
        rw [if_pos fits]
        exact workRound_outOfRange between next outside
      · exact workRound_copy between readers writer next (Bool.eq_false_iff.mpr outside)

end Ldd3.Rbull
