import Mathlib.Tactic
import Ldd3.Lib.StepMachine
import Ldd3.Rbull.Core
import Ldd3.Rbull.Steps

/-!
One complete execution of `rbull_rq_work`, with everybody else changing the device and
the flags of the ctx between its steps: what it has added to `inflight_writes` and which
side of the lock it holds when it returns.
-/

namespace Ldd3.Rbull

open CInt (uint64)

def writeCharge (op : ReqOp) : Int := if isWriteOp op then 1 else 0

/-- What the loop and the decrement behind it add to `inflight_writes`, from the head of the
loop on, when the run is not aborted. -/
def tally (sizeBytes : Nat) (op : ReqOp) (devOff : Nat) : List BioVec → Int
  | [] => -writeCharge op
  | seg :: more =>
      if outOfRange sizeBytes devOff seg then 0
      else if op.supported then
        writeCharge op + tally sizeBytes op (uint64 (devOff + seg.len)) more
      else 0

/-- The requests whose atomic_inc operations the single decrement undoes: a write has a
first segment, and the loop ends with it. -/
def releasesAll (sizeBytes : Nat) (request : Request) : Bool :=
  !isWriteOp request.op ||
    match request.segments with
    | [] => false
    | seg :: more =>
        outOfRange sizeBytes (startOff request) seg || !request.op.supported || more.isEmpty

theorem writeCharge_of_write {op : ReqOp} (writes : isWriteOp op = true) : writeCharge op = 1 := by
  simp only [writeCharge, writes, if_true]

theorem writeCharge_of_not_write {op : ReqOp} (reads : isWriteOp op = false) :
    writeCharge op = 0 := by
  simp only [writeCharge, reads, Bool.false_eq_true, if_false]

theorem tally_inRange {sizeBytes devOff : Nat} {op : ReqOp} {seg : BioVec} (more : List BioVec)
    (range : outOfRange sizeBytes devOff seg = false) :
    tally sizeBytes op devOff (seg :: more) =
      writeCharge op + (if op.supported then tally sizeBytes op (uint64 (devOff + seg.len)) more
        else -writeCharge op) := by
  simp only [tally, range, Bool.false_eq_true, if_false]
  split
  · rfl
  · omega

theorem tally_of_not_write {sizeBytes : Nat} {op : ReqOp} (reads : isWriteOp op = false)
    (devOff : Nat) (segments : List BioVec) : tally sizeBytes op devOff segments = 0 := by
  induction segments generalizing devOff with
  | nil => simp [tally, writeCharge, reads]
  | cons seg more ih => simp [tally, writeCharge, reads, ih]

theorem neg_one_le_tally (sizeBytes : Nat) (op : ReqOp) (devOff : Nat) (segments : List BioVec) :
    -1 ≤ tally sizeBytes op devOff segments := by
  induction segments generalizing devOff with
  | nil =>
      simp only [tally, writeCharge]
      split <;> omega
  | cons seg more ih =>
      have later := ih (uint64 (devOff + seg.len))
      simp only [tally]
      split
      · omega
      · split
        · simp only [writeCharge]
          split <;> omega
        · omega

theorem tally_cons_nonneg (sizeBytes : Nat) {op : ReqOp} (writes : isWriteOp op = true)
    (devOff : Nat) (seg : BioVec) (more : List BioVec) :
    0 ≤ tally sizeBytes op devOff (seg :: more) := by
  have later := neg_one_le_tally sizeBytes op (uint64 (devOff + seg.len)) more
  simp only [tally, writeCharge, writes, if_true]
  split
  · omega
  · split <;> omega

theorem tally_eq_zero_iff (sizeBytes : Nat) (request : Request) :
    tally sizeBytes request.op (startOff request) request.segments = 0 ↔
      releasesAll sizeBytes request = true := by
  cases writes : isWriteOp request.op with
  | false => simp [releasesAll, writes, tally_of_not_write writes]
  | true =>
      have charge := writeCharge_of_write writes
      cases segments : request.segments with
      | nil => simp [releasesAll, writes, segments, tally, charge]
      | cons seg more =>
          by_cases range : outOfRange sizeBytes (startOff request) seg = true
          · simp [releasesAll, segments, tally, range]
          by_cases supported : request.op.supported = true
          · cases more with
            | nil => simp [releasesAll, segments, tally, range, supported, charge]
            | cons second rest =>
                have later := tally_cons_nonneg sizeBytes writes
                  (uint64 (startOff request + seg.len)) second rest
                have unbalanced : tally sizeBytes request.op (startOff request)
                    (seg :: second :: rest) ≠ 0 := by
                  rw [tally, if_neg range, if_pos supported, charge]
                  omega
                simp [unbalanced, releasesAll, writes, segments, range, supported]
          · simp [releasesAll, segments, tally, range, supported]

def Run.remaining (sizeBytes : Nat) (op : ReqOp) (run : Run) : Int :=
  match run.point with
  | .flushWait => 0
  | .loopHead => tally sizeBytes op run.devOff run.rest
  | .wantLock seg => afterSegment run seg
  | .testAbort seg => afterSegment run seg
  | .copy seg => afterSegment run seg
  | .unlock =>
      if run.ret = .ok then tally sizeBytes op run.devOff run.rest else -writeCharge op
  | .afterLoop => -writeCharge op
  | .outEnd => 0
  | .endRequest => 0
  | .returning => 0
where
  afterSegment (run : Run) (seg : BioVec) : Int :=
    if op.supported then tally sizeBytes op (uint64 (run.devOff + seg.len)) run.rest
    else -writeCharge op

def RunPoint.inSection : RunPoint → Bool
  | .testAbort _ => true
  | .copy _ => true
  | .unlock => true
  | _ => false

def RunPoint.isCounting : RunPoint → Bool
  | .outEnd => false
  | .endRequest => false
  | .returning => false
  | _ => true

def sideOf (isWrite : Bool) : Side := if isWrite then .write else .read

structure Ledger (sizeBytes : Nat) (op : ReqOp) (total : Int) (run : Run) : Prop where
  isWrite : run.point.isLive = true → run.isWrite = isWriteOp op
  loop : run.point.inLoop = true → run.ret = .ok
  sum : run.raised + run.remaining sizeBytes op = total
  low : run.point.isCounting = true → 0 ≤ run.raised
  held : run.held = if run.point.inSection then some (sideOf run.isWrite) else none

theorem remaining_of_uncounting {sizeBytes : Nat} {op : ReqOp} {run : Run}
    (after : run.point.isCounting = false) : run.remaining sizeBytes op = 0 := by
  cases here : run.point with
  | outEnd => simp only [Run.remaining, here]
  | endRequest => simp only [Run.remaining, here]
  | returning => simp only [Run.remaining, here]
  | _ => simp [here, RunPoint.isCounting] at after

theorem ledger_inside {sizeBytes : Nat} {op : ReqOp} {total : Int} {run : Run}
    (isWrite : run.isWrite = isWriteOp op) (ok : run.ret = .ok)
    (sum : run.raised + run.remaining sizeBytes op = total) (low : 0 ≤ run.raised)
    (held : run.held = if run.point.inSection then some (sideOf run.isWrite) else none) :
    Ledger sizeBytes op total run :=
  ⟨fun _ => isWrite, fun _ => ok, sum, fun _ => low, held⟩

theorem ledger_outside {sizeBytes : Nat} {op : ReqOp} {total : Int} {run : Run}
    (isWrite : run.isWrite = isWriteOp op) (outside : run.point.inLoop = false)
    (sum : run.raised + run.remaining sizeBytes op = total) (low : 0 ≤ run.raised)
    (held : run.held = if run.point.inSection then some (sideOf run.isWrite) else none) :
    Ledger sizeBytes op total run := by
  refine ⟨fun _ => isWrite, ?_, sum, fun _ => low, held⟩
  intro inside
  rw [outside] at inside
  contradiction

theorem ledger_after {sizeBytes : Nat} {op : ReqOp} {total : Int} {run : Run}
    (isWrite : run.point.isLive = true → run.isWrite = isWriteOp op)
    (outside : run.point.inLoop = false) (after : run.point.isCounting = false)
    (sum : run.raised = total) (unlocked : run.held = none) : Ledger sizeBytes op total run := by
  refine ⟨isWrite, ?_, ?_, ?_, ?_⟩
  · intro inside
    rw [outside] at inside
    contradiction
  · rw [remaining_of_uncounting after, add_zero]
    exact sum
  · intro counting
    rw [after] at counting
    contradiction
  · rw [unlocked, if_neg]
    intro inside
    cases here : run.point with
    | outEnd => simp [here, RunPoint.inSection] at inside
    | endRequest => simp [here, RunPoint.inSection] at inside
    | returning => simp [here, RunPoint.inSection] at inside
    | _ => simp [here, RunPoint.isCounting] at after

theorem ledger_start (sizeBytes gen : Nat) (request : Request) :
    Ledger sizeBytes request.op
      (tally sizeBytes request.op (startOff request) request.segments)
      (Run.start gen request request.op) := by
  by_cases flush : request.op = .flush
  · have empty := request.flushEmpty flush
    constructor
    · intro _
      rfl
    · intro _
      rfl
    · simp [Run.start, Run.remaining, flush, empty, tally, writeCharge, isWriteOp, opIsWrite]
    · exact fun _ => le_refl _
    · simp [Run.start, flush, RunPoint.inSection]
  · constructor
    · intro _
      rfl
    · intro _
      rfl
    · simp [Run.start, Run.remaining, flush]
    · exact fun _ => le_refl _
    · simp [Run.start, flush, RunPoint.inSection]

theorem WorkMove.ledger {view next : WorkView} {sizeBytes : Nat} {op : ReqOp} {total : Int}
    (size : view.dev.sizeBytes = sizeBytes) (current : view.ctx.op = op)
    (ledger : Ledger sizeBytes op total view.run)
    (clear : ∀ seg, view.run.point = .testAbort seg → view.ctx.abort = false)
    (move : WorkMove view next) : Ledger sizeBytes op total next.run := by
  obtain ⟨isWrite, loop, sum, low, held⟩ := ledger
  cases move with
  | flushes here =>
      simp only [here, Run.remaining, add_zero] at sum
      rw [here] at isWrite held
      exact ledger_after (fun _ => isWrite rfl) rfl rfl sum held
  | loopEnds here empty =>
      simp only [here, empty, Run.remaining, tally] at sum
      rw [here] at isWrite low held
      exact ledger_outside (isWrite rfl) rfl sum (low rfl) held
  | rangeError here rest range =>
      rw [size] at range
      simp only [here, rest, range, Run.remaining, tally, if_true, add_zero] at sum
      rw [here] at isWrite held
      exact ledger_after (fun _ => isWrite rfl) rfl rfl sum held
  | raises here rest range writes =>
      rw [size] at range
      simp only [here, rest, Run.remaining, tally_inRange _ range] at sum
      rw [here] at isWrite loop low held
      have charge := writeCharge_of_write ((isWrite rfl).symm.trans writes)
      have before := low rfl
      -- the increment moves from what is still to come to what was raised
      refine ledger_inside (isWrite rfl) (loop rfl) ?_ (by simp only; omega) held
      simp only [Run.remaining, Run.remaining.afterSegment]
      omega
  | enters here rest range reads =>
      rw [size] at range
      simp only [here, rest, Run.remaining, tally_inRange _ range] at sum
      rw [here] at isWrite loop low held
      have charge := writeCharge_of_not_write ((isWrite rfl).symm.trans reads)
      refine ledger_inside (isWrite rfl) (loop rfl) ?_ (low rfl) held
      simp only [Run.remaining, Run.remaining.afterSegment]
      omega
  | downWrite here writes =>
      simp only [here, Run.remaining] at sum
      rw [here] at isWrite loop low
      refine ledger_inside (isWrite rfl) (loop rfl) sum (low rfl) ?_
      simp only [RunPoint.inSection, sideOf, writes, if_true]
  | downRead here reads =>
      simp only [here, Run.remaining] at sum
      rw [here] at isWrite loop low
      refine ledger_inside (isWrite rfl) (loop rfl) sum (low rfl) ?_
      simp only [RunPoint.inSection, sideOf, reads, Bool.false_eq_true, if_false, if_true]
  | aborts here abort =>
      rw [clear _ here] at abort
      contradiction
  | continues here goesOn =>
      simp only [here, Run.remaining] at sum
      rw [here] at isWrite loop low held
      exact ledger_inside (isWrite rfl) (loop rfl) sum (low rfl) held
  | copies here moves =>
      have supported : op.supported = true := by
        rw [current] at moves
        cases op with
        | other odd => contradiction
        | driver odd => contradiction
        | _ => rfl
      simp only [here, Run.remaining, Run.remaining.afterSegment, if_pos supported] at sum
      rw [here] at isWrite loop low held
      have ok : view.run.ret = .ok := loop rfl
      refine ledger_outside (isWrite rfl) rfl ?_ (low rfl) held
      simp only [Run.remaining, Run.advanceHandled, Run.advance, ok, if_true]
      exact sum
  | drains here flush =>
      have supported : op.supported = true := by
        rw [← current, flush]
        rfl
      simp only [here, Run.remaining, Run.remaining.afterSegment, if_pos supported] at sum
      rw [here] at isWrite low held
      refine ledger_outside (isWrite rfl) rfl ?_ (low rfl) held
      simp only [Run.remaining, Run.advance, if_true]
      exact sum
  | refuses here unsupported =>
      rw [current] at unsupported
      simp only [here, Run.remaining, Run.remaining.afterSegment, unsupported, Bool.false_eq_true,
        if_false] at sum
      rw [here] at isWrite low held
      refine ledger_outside (isWrite rfl) rfl ?_ (low rfl) held
      simp only [Run.remaining, Run.advance, reduceCtorEq, if_false]
      exact sum
  | ups here =>
      simp only [here, Run.remaining] at sum
      rw [here] at isWrite low
      by_cases ok : view.run.ret = .ok
      · rw [if_pos ok] at sum
        simp only [upLock, if_pos ok]
        exact ledger_inside (isWrite rfl) ok sum (low rfl) rfl
      · rw [if_neg ok] at sum
        simp only [upLock, if_neg ok]
        exact ledger_outside (isWrite rfl) rfl sum (low rfl) rfl
  | lowers here =>
      simp only [here, Run.remaining] at sum
      rw [here] at isWrite held
      by_cases writes : view.run.isWrite = true
      · have charge := writeCharge_of_write ((isWrite rfl).symm.trans writes)
        simp only [lowerWrites, if_pos writes]
        refine ledger_after (fun _ => isWrite rfl) rfl rfl ?_ held
        simp only
        omega
      · have reads := Bool.eq_false_of_not_eq_true writes
        have charge := writeCharge_of_not_write ((isWrite rfl).symm.trans reads)
        simp only [lowerWrites, if_neg writes]
        refine ledger_after (fun _ => isWrite rfl) rfl rfl ?_ held
        simp only [WorkView.goto, Run.goto]
        omega
  | loses here done =>
      simp only [here, Run.remaining, add_zero] at sum
      rw [here] at isWrite held
      exact ledger_after (fun _ => isWrite rfl) rfl rfl sum held
  | wins here undone =>
      simp only [here, Run.remaining, add_zero] at sum
      rw [here] at isWrite held
      exact ledger_after (fun _ => isWrite rfl) rfl rfl sum held
  | ends here =>
      simp only [here, Run.remaining, add_zero] at sum
      rw [here] at held
      refine ledger_after ?_ rfl rfl sum held
      intro live
      contradiction

theorem WorkMove.inflight {view next : WorkView} (move : WorkMove view next) :
    next.dev.inflightWrites - view.dev.inflightWrites = next.run.raised - view.run.raised := by
  cases move with
  | raises here rest range writes =>
      simp only
      omega
  | ups here =>
      simp only [upLock]
      split <;> simp
  | lowers here =>
      simp only [lowerWrites]
      split
      · simp only
        omega
      · simp [WorkView.goto, Run.goto]
  | _ => simp [WorkView.goto, Run.goto, Run.advance, Run.advanceHandled]

/-- A step of the run, or of all the others: other runs change the counter and the lock, the
memory and the flags. -/
inductive WorkAction
  | work
  | others (added readers : Int) (writer : Bool) (data : List Byte) (pages : Pages)
      (abort done : Bool)

def execStep (view : WorkView) : WorkAction → Option WorkView
  | .work => workStep view
  | .others added readers writer data pages abort done =>
      some { view with
        dev := { view.dev with
          data := data
          inflightWrites := view.dev.inflightWrites + added
          readers := readers
          writer := writer }
        pages := pages
        ctx := { view.ctx with abort := abort, done := done } }

def addedByOthers : List WorkAction → Int
  | [] => 0
  | .work :: rest => addedByOthers rest
  | .others added _ _ _ _ _ _ :: rest => added + addedByOthers rest

def WorkView.entry (dev : RbullDev) (pages : Pages) (abort done : Bool) (gen : Nat)
    (request : Request) : WorkView :=
  { dev := dev
    pages := pages
    ctx := { op := request.op, abort := abort, done := done }
    run := Run.start gen request request.op }

/-- The execution leaves `inflight_writes` as the others have it, never has taken more from
it than it added, and holds neither side of the lock. -/
structure LeavesBalanced (entry : WorkView) (actions : List WorkAction) (final : WorkView) :
    Prop where
  inflight : final.dev.inflightWrites = entry.dev.inflightWrites + addedByOthers actions
  never : StepMachine.Always execStep (fun view => 0 ≤ view.run.raised) entry actions
  unlocked : final.run.held = none

def AbortClear (view : WorkView) (action : WorkAction) : Prop :=
  match action, view.run.point with
  | .work, .testAbort _ => view.ctx.abort = false
  | _, _ => True

theorem AbortClear.clear {view : WorkView} (clear : AbortClear view .work) (seg : BioVec)
    (here : view.run.point = .testAbort seg) : view.ctx.abort = false := by
  simpa only [AbortClear, here] using clear

theorem inflight_run {view final : WorkView} {actions : List WorkAction}
    (ran : StepMachine.run execStep view actions = some final) :
    final.dev.inflightWrites - final.run.raised =
      view.dev.inflightWrites - view.run.raised + addedByOthers actions := by
  induction actions generalizing view with
  | nil =>
      simp only [StepMachine.run_nil, Option.some.injEq] at ran
      subst ran
      simp [addedByOthers]
  | cons action rest ih =>
      obtain ⟨middle, taken, ranRest⟩ := StepMachine.run_cons_inv ran
      have later := ih ranRest
      cases action with
      | work =>
          have here := (workStep_move taken).inflight
          simp only [addedByOthers]
          omega
      | others added readers writer data pages abort done =>
          simp only [execStep, Option.some.injEq] at taken
          subst taken
          simp only [addedByOthers] at later ⊢
          omega

structure Booked (sizeBytes : Nat) (op : ReqOp) (total : Int) (view : WorkView) : Prop where
  size : view.dev.sizeBytes = sizeBytes
  current : view.ctx.op = op
  ledger : Ledger sizeBytes op total view.run

theorem booked_entry (dev : RbullDev) (pages : Pages) (abort done : Bool) (gen : Nat)
    (request : Request) :
    Booked dev.sizeBytes request.op
      (tally dev.sizeBytes request.op (startOff request) request.segments)
      (.entry dev pages abort done gen request) :=
  ⟨rfl, rfl, ledger_start _ _ _⟩

theorem Booked.step {sizeBytes : Nat} {op : ReqOp} {total : Int} {view next : WorkView}
    {action : WorkAction} (booked : Booked sizeBytes op total view)
    (clear : AbortClear view action) (taken : execStep view action = some next) :
    Booked sizeBytes op total next := by
  cases action with
  | work =>
      have move := workStep_move taken
      exact ⟨move.memory.1.trans booked.size, move.op.trans booked.current,
        move.ledger booked.size booked.current booked.ledger clear.clear⟩
  | others added readers writer data pages abort done =>
      simp only [execStep, Option.some.injEq] at taken
      subst taken
      exact ⟨booked.size, booked.current, booked.ledger⟩

theorem Ledger.nonneg {sizeBytes : Nat} {op : ReqOp} {run : Run}
    (ledger : Ledger sizeBytes op 0 run) : 0 ≤ run.raised := by
  cases counting : run.point.isCounting with
  | true => exact ledger.low counting
  | false =>
      have sum := ledger.sum
      rw [remaining_of_uncounting counting] at sum
      omega

theorem Ledger.returned {sizeBytes : Nat} {op : ReqOp} {total : Int} {run : Run}
    (ledger : Ledger sizeBytes op total run) (returning : run.point = .returning) :
    run.raised = total ∧ run.held = none := by
  have sum := ledger.sum
  have held := ledger.held
  rw [remaining_of_uncounting (by rw [returning]; rfl)] at sum
  rw [returning] at held
  exact ⟨by omega, held⟩

theorem aborted_stays_locked {view final : WorkView} {actions : List WorkAction}
    (returning : view.run.point = .returning)
    (ran : StepMachine.run execStep view actions = some final) :
    final.run.held = view.run.held := by
  induction actions generalizing view with
  | nil =>
      simp only [StepMachine.run_nil, Option.some.injEq] at ran
      rw [ran]
  | cons action rest ih =>
      obtain ⟨middle, taken, ranRest⟩ := StepMachine.run_cons_inv ran
      cases action with
      | work =>
          simp only [execStep, workStep, returning] at taken
          contradiction
      | others added readers writer data pages abort done =>
          simp only [execStep, Option.some.injEq] at taken
          subst taken
          refine (ih ?_ ranRest).trans rfl
          exact returning

theorem abortClear_of_unlocked {sizeBytes : Nat} {op : ReqOp} {total : Int}
    {view final : WorkView} {actions : List WorkAction} (booked : Booked sizeBytes op total view)
    (ran : StepMachine.run execStep view actions = some final)
    (unlocked : final.run.held = none) : StepMachine.Meets execStep AbortClear view actions := by
  induction actions generalizing view with
  | nil => trivial
  | cons action rest ih =>
      -- had this step jumped to abort, the lock would still be held at the end
      intro next taken
      obtain ⟨middle, takenToo, ranRest⟩ := StepMachine.run_cons_inv ran
      have same : middle = next := Option.some.inj (takenToo.symm.trans taken)
      subst same
      have clear : AbortClear view action := by
        cases action with
        | others added readers writer data pages abort done => trivial
        | work =>
            cases here : view.run.point with
            | testAbort seg =>
                simp only [AbortClear, here]
                cases abort : view.ctx.abort with
                | false => rfl
                | true =>
                    have held := booked.ledger.held
                    simp only [here, RunPoint.inSection, if_true] at held
                    simp only [execStep, workStep, here, abort, if_true, Option.some.injEq] at taken
                    subst taken
                    have locked := aborted_stays_locked rfl ranRest
                    rw [unlocked] at locked
                    simp [WorkView.goto, Run.goto, held] at locked
            | _ => simp only [AbortClear, here]
      exact ⟨clear, ih (booked.step clear taken) ranRest⟩

theorem rbullRqWork_leaves_balanced_iff (dev : RbullDev) (pages : Pages) (abort done : Bool)
    (gen : Nat) (request : Request) {actions : List WorkAction} {final : WorkView}
    (ran : StepMachine.run execStep (.entry dev pages abort done gen request) actions = some final)
    (returning : final.run.point = .returning) :
    LeavesBalanced (.entry dev pages abort done gen request) actions final ↔
      releasesAll dev.sizeBytes request = true ∧
        StepMachine.Meets execStep AbortClear (.entry dev pages abort done gen request)
          actions := by
  have entered := booked_entry dev pages abort done gen request
  have counter := inflight_run ran
  have start : (WorkView.entry dev pages abort done gen request).run.raised = 0 := rfl
  rw [← tally_eq_zero_iff]
  constructor
  · intro balanced
    have clear := abortClear_of_unlocked entered ran balanced.unlocked
    have booked := StepMachine.run_invariant (fun _ _ _ => Booked.step) entered clear ran
    have raised := (booked.ledger.returned returning).1
    have same := balanced.inflight
    exact ⟨by omega, clear⟩
  · rintro ⟨releases, clear⟩
    rw [releases] at entered
    have booked := StepMachine.run_invariant (fun _ _ _ => Booked.step) entered clear ran
    obtain ⟨raised, unlocked⟩ := booked.ledger.returned returning
    refine ⟨by omega, ?_, unlocked⟩
    exact StepMachine.always_of_meets (fun _ _ _ => Booked.step)
      (fun _ booked => booked.ledger.nonneg) entered clear

end Ldd3.Rbull
