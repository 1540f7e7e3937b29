import Mathlib.Tactic
import Ldd3.Lib.Counting
import Ldd3.Lib.StepMachine
import Ldd3.Rbull.Core
import Ldd3.Rbull.Steps
import Ldd3.Rbull.Slots
import Ldd3.Rbull.Ledger

/-!
The books of all runs together: `inflight_writes` and the two sides of the lock are what
the runs in progress have added to them, so that nothing is left when no run is.
-/

open scoped BigOperators

namespace Ldd3.Rbull

def holds (side : Side) (run : Run) : Int := if run.held = some side then 1 else 0

def raisedIn (slot : SlotState) : Int :=
  match slot.run with
  | none => 0
  | some run => run.raised

def heldIn (side : Side) (slot : SlotState) : Int :=
  match slot.run with
  | none => 0
  | some run => holds side run

def writerCount (dev : RbullDev) : Int := if dev.writer then 1 else 0

theorem holds_nonneg (side : Side) (run : Run) : 0 ≤ holds side run := by
  simp only [holds]
  split <;> omega

theorem heldIn_nonneg (side : Side) (slot : SlotState) : 0 ≤ heldIn side slot := by
  cases here : slot.run with
  | none => simp only [heldIn, here, le_refl]
  | some run =>
      simp only [heldIn, here]
      exact holds_nonneg side run

structure SlotBooks (sizeBytes : Nat) (slot : SlotState) : Prop where
  op : slot.ctx.op = slot.request.op
  releases : releasesAll sizeBytes slot.request = true
  ledger : ∀ run, slot.run = some run → Ledger sizeBytes slot.ctx.op 0 run

/-- The steps that keep the books: a request enters the slot whose increments the single
decrement undoes, when no run of an earlier one is before its completion test; no run of a
write starts when its request has been ended; and no abort test finds the flag raised. -/
def SlotState.Balances (slot : SlotState) (sizeBytes : Nat) : SlotAction → Prop
  | .queueRq request => releasesAll sizeBytes request = true ∧
      ∀ run, slot.run = some run → run.point.isLive = false
  | .startWork => isWriteOp slot.ctx.op = true → slot.ended slot.gen = false
  | .work => ∀ run, slot.run = some run → ∀ seg, run.point = .testAbort seg →
      slot.ctx.abort = false
  | _ => True

theorem Ledger.other {sizeBytes : Nat} {op : ReqOp} {total : Int} {run : Run}
    (ledger : Ledger sizeBytes op total run) (after : run.point.isLive = false) (other : ReqOp) :
    Ledger sizeBytes other total run := by
  obtain ⟨isWrite, loop, sum, low, held⟩ := ledger
  have uncounting : run.point.isCounting = false := by
    cases here : run.point with
    | endRequest => rfl
    | returning => rfl
    | _ => simp [here, RunPoint.isLive] at after
  -- behind the loop nothing is to come, whatever the operation
  rw [remaining_of_uncounting uncounting] at sum
  refine ⟨?_, loop, ?_, low, held⟩
  · intro live
    rw [after] at live
    contradiction
  · rw [remaining_of_uncounting uncounting]
    exact sum

theorem slotBooks_init (sizeBytes : Nat) : SlotBooks sizeBytes SlotState.init := by
  refine ⟨rfl, rfl, ?_⟩
  intro run here
  simp [SlotState.init] at here

@[simp] theorem rq_op (slot : SlotState) : slot.rq.op = slot.request.op := by
  simp only [SlotState.rq]
  split <;> rfl

theorem rq_releases {sizeBytes : Nat} {slot : SlotState} (op : slot.ctx.op = slot.request.op)
    (releases : releasesAll sizeBytes slot.request = true)
    (started : isWriteOp slot.ctx.op = true → slot.ended slot.gen = false) :
    releasesAll sizeBytes slot.rq = true := by
  simp only [SlotState.rq]
  split
  · rename_i ended
    have reads : isWriteOp slot.request.op = false := by
      rw [Bool.eq_false_iff]
      intro writes
      rw [started (op ▸ writes)] at ended
      contradiction
    simp [releasesAll, Request.drained, reads]
  · exact releases

theorem SlotBooks.move {dev dev' : RbullDev} {pages pages' : Pages} {slot next : SlotState}
    {action : SlotAction} (books : SlotBooks dev.sizeBytes slot)
    (balances : slot.Balances dev.sizeBytes action)
    (move : SlotMove dev pages slot action dev' pages' next) :
    SlotBooks dev.sizeBytes next := by
  obtain ⟨op, releases, ledger⟩ := books
  cases move with
  | queued free ordinary =>
      refine ⟨rfl, balances.1, ?_⟩
      intro run here
      exact (ledger run here).other (balances.2 run here) _
  | startsWork pending idle =>
      refine ⟨op, releases, ?_⟩
      intro run here
      simp only [Option.some.injEq] at here
      subst here
      have same : slot.rq.op = slot.ctx.op := by rw [rq_op, op]
      have started := ledger_start dev.sizeBytes slot.gen slot.rq
      rw [(tally_eq_zero_iff _ _).mpr (rq_releases op releases balances), same] at started
      exact started
  | works here move =>
      rename_i run view
      have same : view.ctx.op = slot.ctx.op := move.op
      refine ⟨?_, ?_, ?_⟩
      · rw [afterWork_ctx, afterWork_request, same, op]
      · rw [afterWork_request]
        exact releases
      · intro later found
        rw [afterWork_run, Option.some.injEq] at found
        subst found
        rw [afterWork_ctx, same]
        exact move.ledger rfl rfl (ledger run here) (balances run here)
  | finishes here returning =>
      refine ⟨op, releases, ?_⟩
      intro run found
      simp at found
  | clearsDone here => exact ⟨op, releases, ledger⟩
  | clearsAbort here => exact ⟨op, releases, ledger⟩
  | startsRequest here => exact ⟨op, releases, ledger⟩
  | queuesWork here => exact ⟨op, releases, ledger⟩
  | timesOut inFlight idle => exact ⟨op, releases, ledger⟩
  | setsAbort here => exact ⟨op, releases, ledger⟩
  | timeoutLoses here done => exact ⟨op, releases, ledger⟩
  | timeoutWins here undone => exact ⟨op, releases, ledger⟩
  | timeoutEnds here => exact ⟨op, releases, ledger⟩

structure LockMoves (dev dev' : RbullDev) (read read' write write' : Int) : Prop where
  readers : dev'.readers - dev.readers = read' - read
  writer : writerCount dev' - writerCount dev = write' - write

theorem lockMoves_of_same {view next : WorkView} (readers : next.dev.readers = view.dev.readers)
    (writer : next.dev.writer = view.dev.writer) (held : next.run.held = view.run.held) :
    LockMoves view.dev next.dev (holds .read view.run) (holds .read next.run)
      (holds .write view.run) (holds .write next.run) := by
  constructor
  · simp only [readers, holds, held, sub_self]
  · simp only [writerCount, writer, holds, held, sub_self]

theorem WorkMove.lock {view next : WorkView} {sizeBytes : Nat} {op : ReqOp} {total : Int}
    (ledger : Ledger sizeBytes op total view.run)
    (locked : view.run.held = some .write → view.dev.writer = true)
    (move : WorkMove view next) :
    LockMoves view.dev next.dev (holds .read view.run) (holds .read next.run)
      (holds .write view.run) (holds .write next.run) := by
  have held := ledger.held
  cases move with
  | downWrite here writes noReaders noWriter =>
      have before : view.run.held = none := by rw [held, here]; rfl
      constructor <;> simp [holds, before, writerCount, noWriter]
  | downRead here reads noWriter =>
      have before : view.run.held = none := by rw [held, here]; rfl
      constructor <;> simp [holds, before, writerCount]
  | ups here =>
      rw [here] at held
      by_cases writes : view.run.isWrite = true
      · have before : view.run.held = some .write := by
          rw [held]
          simp [sideOf, writes, RunPoint.inSection]
        constructor <;> simp [upLock, holds, before, writes, writerCount, locked before]
      · have before : view.run.held = some .read := by
          rw [held]
          simp [sideOf, writes, RunPoint.inSection]
        constructor <;> simp [upLock, holds, before, writes, writerCount]
  | lowers here =>
      simp only [lowerWrites]
      split
      · exact lockMoves_of_same rfl rfl rfl
      · exact lockMoves_of_same rfl rfl rfl
  | _ => exact lockMoves_of_same rfl rfl rfl

structure BooksMove (dev dev' : RbullDev) (slot next : SlotState) : Prop where
  size : dev'.sizeBytes = dev.sizeBytes
  inflight : dev'.inflightWrites - dev.inflightWrites = raisedIn next - raisedIn slot
  lock : LockMoves dev dev' (heldIn .read slot) (heldIn .read next) (heldIn .write slot)
    (heldIn .write next)

theorem booksMove_of_same {dev : RbullDev} {slot next : SlotState} (run : next.run = slot.run) :
    BooksMove dev dev slot next := by
  have raised : raisedIn next = raisedIn slot := by simp only [raisedIn, run]
  have held : ∀ side, heldIn side next = heldIn side slot := by
    intro side
    simp only [heldIn, run]
  refine ⟨rfl, ?_, ?_⟩
  · rw [raised]
    omega
  · constructor
    · rw [held]
      omega
    · rw [held]
      omega

theorem SlotMove.booksMove {dev dev' : RbullDev} {pages pages' : Pages} {slot next : SlotState}
    {action : SlotAction} (books : SlotBooks dev.sizeBytes slot)
    (locked : 0 < heldIn .write slot → dev.writer = true)
    (move : SlotMove dev pages slot action dev' pages' next) : BooksMove dev dev' slot next := by
  cases move with
  | startsWork pending idle =>
      refine ⟨rfl, ?_, ?_⟩
      · simp [raisedIn, idle, Run.start]
      · constructor <;> simp [heldIn, idle, holds, Run.start]
  | works here move =>
      rename_i run view
      have ledger := books.ledger run here
      have moved := move.lock ledger <| by
        intro held
        apply locked
        simp only at held
        simp [heldIn, here, holds, held]
      refine ⟨move.memory.1, ?_, ?_⟩
      · simp only [raisedIn, here, afterWork_run]
        exact move.inflight
      · simp only [heldIn, here, afterWork_run]
        exact moved
  | finishes here returning =>
      obtain ⟨raised, unlocked⟩ := (books.ledger _ here).returned returning
      refine ⟨rfl, ?_, ?_⟩
      · simp [raisedIn, here, raised]
      · constructor <;> simp [heldIn, here, holds, unlocked]
  | _ => exact booksMove_of_same rfl

section System

variable {Slot Hctx : Type}

def StepBalances (sys : RbullSys Slot) (action : Slot × SlotAction) : Prop :=
  (sys.slots action.1).Balances sys.dev.sizeBytes action.2

structure Books [Fintype Slot] (sys : RbullSys Slot) : Prop where
  slots : ∀ slot, SlotBooks sys.dev.sizeBytes (sys.slots slot)
  inflight : sys.dev.inflightWrites = ∑ slot, raisedIn (sys.slots slot)
  readers : sys.dev.readers = ∑ slot, heldIn .read (sys.slots slot)
  writer : writerCount sys.dev = ∑ slot, heldIn .write (sys.slots slot)

/-- Without a run in progress no write is in flight, the lock is free, and a flush does not
wait. -/
structure AllReleased (sys : RbullSys Slot) : Prop where
  inflight : sys.dev.inflightWrites = 0
  lock : sys.dev.readers = 0 ∧ sys.dev.writer = false
  flush : ∀ view : WorkView, view.dev = sys.dev → view.run.point = .flushWait →
    workStep view ≠ none

def ReleasedWhenIdle (sys : RbullSys Slot) : Prop :=
  (∀ slot, (sys.slots slot).run = none) → AllReleased sys

variable [Fintype Slot]

theorem books_loaded (diskSectorsMb : Nat) (pages : Pages) :
    Books (.loaded Slot diskSectorsMb pages) := by
  constructor
  · exact fun _ => slotBooks_init _
  · simp [RbullSys.loaded, RbullDev.loaded, raisedIn, SlotState.init]
  · simp [RbullSys.loaded, RbullDev.loaded, heldIn, SlotState.init]
  · simp [RbullSys.loaded, RbullDev.loaded, heldIn, writerCount, SlotState.init]

theorem Books.writer_held {sys : RbullSys Slot} (books : Books sys) (slot : Slot)
    (held : 0 < heldIn .write (sys.slots slot)) : sys.dev.writer = true := by
  have counted := Counting.weight_le_sum sys.slots slot (heldIn .write) (heldIn_nonneg .write)
  rw [← books.writer] at counted
  cases writer : sys.dev.writer with
  | true => rfl
  | false =>
      simp only [writerCount, writer, Bool.false_eq_true, if_false] at counted
      omega

theorem Books.released {sys : RbullSys Slot} (books : Books sys)
    (idle : ∀ slot, (sys.slots slot).run = none) : AllReleased sys := by
  have drained : sys.dev.inflightWrites = 0 := by
    rw [books.inflight]
    apply Finset.sum_eq_zero
    intro slot _
    simp only [raisedIn, idle]
  have unheld : ∀ side, ∑ slot, heldIn side (sys.slots slot) = 0 := by
    intro side
    apply Finset.sum_eq_zero
    intro slot _
    simp only [heldIn, idle]
  have noWriter : writerCount sys.dev = 0 := books.writer.trans (unheld .write)
  refine ⟨drained, ⟨books.readers.trans (unheld .read), ?_⟩, ?_⟩
  · cases writer : sys.dev.writer with
    | false => rfl
    | true => simp [writerCount, writer] at noWriter
  · intro view same waits
    simp [workStep, waits, same, drained]

variable [DecidableEq Slot] [DecidableEq Hctx] {hctx : Slot → Hctx}

theorem books_step {sys next : RbullSys Slot} {action : Slot × SlotAction} (books : Books sys)
    (balances : StepBalances sys action) (taken : rbullStep hctx sys action = some next) :
    Books next := by
  obtain ⟨slot, action⟩ := action
  obtain ⟨state, slots, move⟩ := rbullStep_cases taken
  have moved := move.booksMove (books.slots slot) (books.writer_held slot)
  have kept := (books.slots slot).move balances move
  constructor
  · intro other
    rw [moved.size, slots, Function.update_apply]
    split
    · exact kept
    · exact books.slots other
  · have before := books.inflight
    have change := moved.inflight
    rw [slots, Counting.sum_update]
    omega
  · have before := books.readers
    have change := moved.lock.readers
    rw [slots, Counting.sum_update]
    omega
  · have before := books.writer
    have change := moved.lock.writer
    rw [slots, Counting.sum_update]
    omega

theorem rbull_released_when_idle (diskSectorsMb : Nat) (pages : Pages)
    {actions : List (Slot × SlotAction)}
    (balances : StepMachine.Meets (rbullStep hctx) StepBalances
      (.loaded Slot diskSectorsMb pages) actions) :
    StepMachine.Always (rbullStep hctx) ReleasedWhenIdle (.loaded Slot diskSectorsMb pages)
      actions :=
  StepMachine.always_of_meets (fun _ _ _ => books_step) (fun _ => Books.released)
    (books_loaded diskSectorsMb pages) balances

/-- A complete execution of `rbull_rq_work` is balanced exactly for the requests of
`releasesAll` whose abort tests find the flag clear; in runs of such requests, whose writes
start before they are ended and whose slots are not used again before the completion test of
the last run, nothing is left over when no run is in progress. -/
theorem rbullRqWork_balanced (hctx : Slot → Hctx) :
    (∀ dev pages abort done gen request actions final,
      StepMachine.run execStep (.entry dev pages abort done gen request) actions = some final →
      final.run.point = .returning →
      (LeavesBalanced (.entry dev pages abort done gen request) actions final ↔
        releasesAll dev.sizeBytes request = true ∧
          StepMachine.Meets execStep AbortClear (.entry dev pages abort done gen request)
            actions)) ∧
      ∀ diskSectorsMb pages actions,
        StepMachine.Meets (rbullStep hctx) StepBalances (.loaded Slot diskSectorsMb pages)
          actions →
        StepMachine.Always (rbullStep hctx) ReleasedWhenIdle (.loaded Slot diskSectorsMb pages)
          actions := by
  constructor
  · intro dev pages abort done gen request actions final ran returning
    exact rbullRqWork_leaves_balanced_iff dev pages abort done gen request ran returning
  · intro diskSectorsMb pages actions balances
    exact rbull_released_when_idle diskSectorsMb pages balances

end System

instance (view : WorkView) (action : WorkAction) : Decidable (AbortClear view action) := by
  unfold AbortClear
  split <;> infer_instance

instance (slot : SlotState) (sizeBytes : Nat) (action : SlotAction) :
    Decidable (slot.Balances sizeBytes action) :=
  match action with
  | .queueRq request =>
      match found : slot.run with
      | none =>
          decidable_of_iff (releasesAll sizeBytes request = true) <| by
            simp [SlotState.Balances, found]
      | some run =>
          decidable_of_iff
            (releasesAll sizeBytes request = true ∧ run.point.isLive = false) <| by
              simp [SlotState.Balances, found]
  | .work =>
      match found : slot.run with
      | none => isTrue fun _ here => by
          rw [found] at here
          contradiction
      | some run =>
          match here : run.point with
          | .testAbort _ =>
              decidable_of_iff (slot.ctx.abort = false) <| by
                simp [SlotState.Balances, found, here]
          | .flushWait => isTrue (by simp [SlotState.Balances, found, here])
          | .loopHead => isTrue (by simp [SlotState.Balances, found, here])
          | .wantLock _ => isTrue (by simp [SlotState.Balances, found, here])
          | .copy _ => isTrue (by simp [SlotState.Balances, found, here])
          | .unlock => isTrue (by simp [SlotState.Balances, found, here])
          | .afterLoop => isTrue (by simp [SlotState.Balances, found, here])
          | .outEnd => isTrue (by simp [SlotState.Balances, found, here])
          | .endRequest => isTrue (by simp [SlotState.Balances, found, here])
          | .returning => isTrue (by simp [SlotState.Balances, found, here])
  | .queueStep _ => isTrue trivial
  | .startWork =>
      decidable_of_iff (isWriteOp slot.ctx.op = false ∨ slot.ended slot.gen = false) <| by
        cases writes : isWriteOp slot.ctx.op <;> simp [SlotState.Balances, writes]
  | .finishWork => isTrue trivial
  | .timeout => isTrue trivial
  | .timeoutStep => isTrue trivial

instance {Slot : Type} (sys : RbullSys Slot) (action : Slot × SlotAction) :
    Decidable (StepBalances sys action) :=
  inferInstanceAs (Decidable ((sys.slots action.1).Balances sys.dev.sizeBytes action.2))

theorem rbullRqWork_balanced_oneWrite :
    StepMachine.Always (rbullStep fun _ => ()) ReleasedWhenIdle (.loaded Bool 64 onePage)
        oneWrite ∧
      ∃ final,
        StepMachine.run execStep
            (.entry (.loaded 64) onePage false false 1 (writeOf 0 [⟨0, 0, 512⟩]))
            (List.replicate 9 .work) = some final ∧
          LeavesBalanced (.entry (.loaded 64) onePage false false 1 (writeOf 0 [⟨0, 0, 512⟩]))
            (List.replicate 9 .work) final := by
  have both := rbullRqWork_balanced fun _ : Bool => ()
  refine ⟨both.2 64 onePage oneWrite (by decide +kernel), ?_⟩
  have returned :
      ((StepMachine.run execStep
          (.entry (.loaded 64) onePage false false 1 (writeOf 0 [⟨0, 0, 512⟩]))
          (List.replicate 9 .work)).map fun view => view.run.point) = some .returning := by
    decide +kernel
  rw [Option.map_eq_some_iff] at returned
  obtain ⟨final, ran, returning⟩ := returned
  refine ⟨final, ran, ?_⟩
  exact (both.1 _ _ _ _ _ _ _ final ran returning).mpr ⟨by decide +kernel, by decide +kernel⟩

def twoSegments : Request := writeOf 0 [⟨0, 0, 512⟩, ⟨1, 0, 512⟩]

def twoSegmentWrite : List (Bool × SlotAction) :=
  queueAll 1 twoSegments ++ (true, .startWork) :: List.replicate 14 (true, .work) ++
    [(true, .finishWork)]

theorem twoSegments_inflight :
    ((StepMachine.run execStep (.entry (.loaded 64) onePage false false 1 twoSegments)
        (List.replicate 14 .work)).map fun view =>
      (view.run.point, view.dev.inflightWrites)) = some (.returning, 1) := by
  decide +kernel

theorem twoSegmentWrite_inflight :
    ((StepMachine.run (rbullStep fun _ => ()) (.loaded Bool 64 onePage) twoSegmentWrite).map
      fun sys => ((sys.slots true).run, (sys.slots false).run, sys.dev.inflightWrites)) =
    some (none, none, 1) := by
  decide +kernel

theorem rbullRqWork_unbalanced_twoSegments :
    (∃ final,
      StepMachine.run execStep (.entry (.loaded 64) onePage false false 1 twoSegments)
          (List.replicate 14 .work) = some final ∧
        final.run.point = .returning ∧
        ¬ LeavesBalanced (.entry (.loaded 64) onePage false false 1 twoSegments)
          (List.replicate 14 .work) final) ∧
      ¬ StepMachine.Always (rbullStep fun _ => ()) ReleasedWhenIdle (.loaded Bool 64 onePage)
        twoSegmentWrite := by
  constructor
  · have counted := twoSegments_inflight
    rw [Option.map_eq_some_iff] at counted
    obtain ⟨final, ran, seen⟩ := counted
    simp only [Prod.mk.injEq] at seen
    refine ⟨final, ran, seen.1, ?_⟩
    intro balanced
    have others : addedByOthers (List.replicate 14 .work) = 0 := rfl
    have inflight := balanced.inflight
    rw [seen.2, others] at inflight
    simp only [WorkView.entry, RbullDev.loaded] at inflight
    omega
  · intro always
    obtain ⟨sys, releasedWhenIdle, seen⟩ := always.observed twoSegmentWrite_inflight
    simp only [Prod.mk.injEq] at seen
    have released := releasedWhenIdle <| by
      intro slot
      cases slot with
      | true => exact seen.1
      | false => exact seen.2.1
    have drained := released.inflight
    rw [seen.2.2] at drained
    omega

end Ldd3.Rbull
