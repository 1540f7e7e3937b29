import Mathlib.Tactic
import Ldd3.Lib.StepMachine
import Ldd3.Rbull.Core

/-! What one step of a work run and one step on a slot can do. -/

namespace Ldd3.Rbull

def RunPoint.inLoop : RunPoint → Bool
  | .loopHead => true
  | .wantLock _ => true
  | .testAbort _ => true
  | .copy _ => true
  | _ => false

def RunPoint.isLive : RunPoint → Bool
  | .endRequest => false
  | .returning => false
  | _ => true

def ReqOp.moves : ReqOp → Bool
  | .read => true
  | .write => true
  | .discard => true
  | .writeZeroes => true
  | _ => false

def copyFits (op : ReqOp) (dev : RbullDev) (pages : Pages) (devOff : Nat) (seg : BioVec) : Bool :=
  inStore dev devOff seg &&
    match op with
    | .read => inPage pages seg
    | .write => inPage pages seg
    | _ => true

def ReqOp.supported : ReqOp → Bool
  | .other _ => false
  | .driver _ => false
  | _ => true

inductive WorkMove (view : WorkView) : WorkView → Prop
  | flushes (here : view.run.point = .flushWait) (drained : view.dev.inflightWrites = 0) :
      WorkMove view (view.goto .outEnd)
  | loopEnds (here : view.run.point = .loopHead) (empty : view.run.rest = []) :
      WorkMove view (view.goto .afterLoop)
  | rangeError {seg : BioVec} {more : List BioVec} (here : view.run.point = .loopHead)
      (rest : view.run.rest = seg :: more)
      (range : outOfRange view.dev.sizeBytes view.run.devOff seg = true) :
      WorkMove view
        { view with run := { view.run with rest := more, ret := .ioerr, point := .outEnd } }
  | raises {seg : BioVec} {more : List BioVec} (here : view.run.point = .loopHead)
      (rest : view.run.rest = seg :: more)
      (range : outOfRange view.dev.sizeBytes view.run.devOff seg = false)
      (writes : view.run.isWrite = true) :
      WorkMove view
        { view with
          dev := { view.dev with inflightWrites := view.dev.inflightWrites + 1 }
          run :=
            { view.run with rest := more, raised := view.run.raised + 1, point := .wantLock seg } }
  | enters {seg : BioVec} {more : List BioVec} (here : view.run.point = .loopHead)
      (rest : view.run.rest = seg :: more)
      (range : outOfRange view.dev.sizeBytes view.run.devOff seg = false)
      (reads : view.run.isWrite = false) :
      WorkMove view { view with run := { view.run with rest := more, point := .wantLock seg } }
  | downWrite {seg : BioVec} (here : view.run.point = .wantLock seg)
      (writes : view.run.isWrite = true) (noReaders : view.dev.readers = 0)
      (noWriter : view.dev.writer = false) :
      WorkMove view
        { view with
          dev := { view.dev with writer := true }
          run := { view.run with held := some .write, point := .testAbort seg } }
  | downRead {seg : BioVec} (here : view.run.point = .wantLock seg)
      (reads : view.run.isWrite = false) (noWriter : view.dev.writer = false) :
      WorkMove view
        { view with
          dev := { view.dev with readers := view.dev.readers + 1 }
          run := { view.run with held := some .read, point := .testAbort seg } }
  | aborts {seg : BioVec} (here : view.run.point = .testAbort seg)
      (abort : view.ctx.abort = true) : WorkMove view (view.goto .returning)
  | continues {seg : BioVec} (here : view.run.point = .testAbort seg)
      (goesOn : view.ctx.abort = false) : WorkMove view (view.goto (.copy seg))
  | copies {seg : BioVec} {data : List Byte} {pages : Pages}
      (here : view.run.point = .copy seg) (moves : view.ctx.op.moves = true)
      (fits : copyFits view.ctx.op view.dev view.pages view.run.devOff seg = true)
      (lengths : ∀ page, (pages page).length = (view.pages page).length) :
      WorkMove view
        { view with
          dev := { view.dev with data := data }
          pages := pages
          run := view.run.advanceHandled seg }
  | drains {seg : BioVec} (here : view.run.point = .copy seg) (flush : view.ctx.op = .flush)
      (drained : view.dev.inflightWrites = 0) :
      WorkMove view { view with run := { view.run.advance seg with ret := .ok } }
  | refuses {seg : BioVec} (here : view.run.point = .copy seg)
      (unsupported : view.ctx.op.supported = false) :
      WorkMove view { view with run := { view.run.advance seg with ret := .ioerr } }
  | ups (here : view.run.point = .unlock) : WorkMove view (upLock view)
  | lowers (here : view.run.point = .afterLoop) : WorkMove view (lowerWrites view)
  | loses (here : view.run.point = .outEnd) (done : view.ctx.done = true) :
      WorkMove view (view.goto .returning)
  | wins (here : view.run.point = .outEnd) (undone : view.ctx.done = false) :
      WorkMove view ({ view with ctx := { view.ctx with done := true } }.goto .endRequest)
  | ends (here : view.run.point = .endRequest) : WorkMove view (view.goto .returning)

structure KeepsRest (view next : WorkView) : Prop where
  ctx : next.ctx = view.ctx
  pages : next.pages = view.pages
  size : next.dev.sizeBytes = view.dev.sizeBytes
  data : next.dev.data = view.dev.data
  gen : next.run.gen = view.run.gen
  handled : next.run.handled = view.run.handled

theorem upLock_keeps (view : WorkView) : KeepsRest view (upLock view) := by
  simp only [upLock]
  split <;> exact ⟨rfl, rfl, rfl, rfl, rfl, rfl⟩

theorem lowerWrites_keeps (view : WorkView) : KeepsRest view (lowerWrites view) := by
  simp only [lowerWrites]
  split <;> exact ⟨rfl, rfl, rfl, rfl, rfl, rfl⟩

theorem enterSegment_move {view : WorkView} {seg : BioVec} {more : List BioVec}
    (here : view.run.point = .loopHead) (rest : view.run.rest = seg :: more) :
    WorkMove view (enterSegment view seg more) := by
  simp only [enterSegment]
  split
  · rename_i range
    exact .rangeError here rest range
  · rename_i range
    have inRange := Bool.eq_false_of_not_eq_true range
    split
    · rename_i writes
      exact .raises here rest inRange writes
    · rename_i reads
      exact .enters here rest inRange (Bool.eq_false_of_not_eq_true reads)

theorem downLock_move {view next : WorkView} {seg : BioVec}
    (here : view.run.point = .wantLock seg) (taken : downLock view seg = some next) :
    WorkMove view next := by
  simp only [downLock] at taken
  split at taken
  · rename_i writes
    split at taken
    · rename_i free
      cases taken
      exact .downWrite here writes free.1 free.2
    · contradiction
  · rename_i reads
    split at taken
    · rename_i free
      cases taken
      exact .downRead here (Bool.eq_false_of_not_eq_true reads) free
    · contradiction

theorem memcpyToPage_lengths {view : WorkView} {seg : BioVec}
    (fits : inPage view.pages seg = true) (page : Nat) :
    (memcpyToPage view seg page).length = (view.pages page).length := by
  simp only [inPage, decide_eq_true_eq] at fits
  simp only [memcpyToPage, Function.update_apply]
  split
  · rename_i same
    subst same
    apply Block.length_overwrite
    simp only [Block.slice, List.length_take]
    omega
  · rfl

theorem switchOp_move {view next : WorkView} {seg : BioVec}
    (here : view.run.point = .copy seg) (taken : switchOp view seg = some next) :
    WorkMove view next := by
  cases op : view.ctx.op with
  | read =>
      simp only [switchOp, op] at taken
      split at taken
      · rename_i fits
        cases taken
        have inside := Bool.and_eq_true_iff.mp fits
        refine .copies here (by rw [op]; rfl) ?_ (memcpyToPage_lengths inside.2)
        simp only [copyFits, op, fits]
      · contradiction
  | write =>
      simp only [switchOp, op] at taken
      split at taken
      · rename_i fits
        cases taken
        refine .copies here (by rw [op]; rfl) ?_ (fun _ => rfl)
        simp only [copyFits, op, fits]
      · contradiction
  | flush =>
      simp only [switchOp, op] at taken
      split at taken
      · rename_i drained
        cases taken
        exact .drains here op drained
      · contradiction
  | discard =>
      simp only [switchOp, op] at taken
      split at taken
      · rename_i fits
        cases taken
        refine .copies here (by rw [op]; rfl) ?_ (fun _ => rfl)
        simp only [copyFits, op, fits, Bool.and_self]
      · contradiction
  | writeZeroes =>
      simp only [switchOp, op] at taken
      split at taken
      · rename_i fits
        cases taken
        refine .copies here (by rw [op]; rfl) ?_ (fun _ => rfl)
        simp only [copyFits, op, fits, Bool.and_self]
      · contradiction
  | other odd =>
      simp only [switchOp, op, Option.some.injEq] at taken
      subst taken
      exact .refuses here (by rw [op]; rfl)
  | driver odd =>
      simp only [switchOp, op, Option.some.injEq] at taken
      subst taken
      exact .refuses here (by rw [op]; rfl)

theorem workStep_move {view next : WorkView} (taken : workStep view = some next) :
    WorkMove view next := by
  cases here : view.run.point with
  | flushWait =>
      simp only [workStep, here] at taken
      split at taken
      · rename_i drained
        cases taken
        exact .flushes here drained
      · contradiction
  | loopHead =>
      simp only [workStep, here] at taken
      split at taken
      · rename_i empty
        cases taken
        exact .loopEnds here empty
      · rename_i seg more rest
        cases taken
        exact enterSegment_move here rest
  | wantLock seg =>
      simp only [workStep, here] at taken
      exact downLock_move here taken
  | testAbort seg =>
      simp only [workStep, here, Option.some.injEq] at taken
      subst taken
      split
      · rename_i abort
        exact .aborts here abort
      · rename_i goesOn
        exact .continues here (Bool.eq_false_of_not_eq_true goesOn)
  | copy seg =>
      simp only [workStep, here] at taken
      exact switchOp_move here taken
  | unlock =>
      simp only [workStep, here, Option.some.injEq] at taken
      exact taken ▸ .ups here
  | afterLoop =>
      simp only [workStep, here, Option.some.injEq] at taken
      exact taken ▸ .lowers here
  | outEnd =>
      simp only [workStep, here] at taken
      split at taken
      · rename_i done
        cases taken
        exact .loses here done
      · rename_i undone
        cases taken
        exact .wins here (Bool.eq_false_of_not_eq_true undone)
  | endRequest =>
      simp only [workStep, here, Option.some.injEq] at taken
      exact taken ▸ .ends here
  | returning =>
      simp only [workStep, here] at taken
      contradiction

inductive FlagMove (ctx : Ctx) (run : Run) (ctx' : Ctx) (run' : Run) : Prop
  | quiet (same : ctx' = ctx) (before : run.point.isLive = true) (after : run'.point.isLive = true)
  | aborts (same : ctx' = ctx) (abort : ctx.abort = true) (before : run.point.isLive = true)
      (after : run'.point = .returning)
  | loses (same : ctx' = ctx) (done : ctx.done = true) (before : run.point = .outEnd)
      (after : run'.point = .returning)
  | wins (marked : ctx' = { ctx with done := true }) (undone : ctx.done = false)
      (before : run.point = .outEnd) (after : run'.point = .endRequest)
  | ends (same : ctx' = ctx) (before : run.point = .endRequest) (after : run'.point = .returning)

theorem WorkMove.flags {view next : WorkView} (move : WorkMove view next) :
    FlagMove view.ctx view.run next.ctx next.run := by
  cases move with
  | flushes here => exact .quiet rfl (by rw [here]; rfl) rfl
  | loopEnds here => exact .quiet rfl (by rw [here]; rfl) rfl
  | rangeError here => exact .quiet rfl (by rw [here]; rfl) rfl
  | raises here => exact .quiet rfl (by rw [here]; rfl) rfl
  | enters here => exact .quiet rfl (by rw [here]; rfl) rfl
  | downWrite here => exact .quiet rfl (by rw [here]; rfl) rfl
  | downRead here => exact .quiet rfl (by rw [here]; rfl) rfl
  | aborts here abort => exact .aborts rfl abort (by rw [here]; rfl) rfl
  | continues here => exact .quiet rfl (by rw [here]; rfl) rfl
  | copies here => exact .quiet rfl (by rw [here]; rfl) rfl
  | drains here => exact .quiet rfl (by rw [here]; rfl) rfl
  | refuses here => exact .quiet rfl (by rw [here]; rfl) rfl
  | ups here =>
      refine .quiet rfl (by rw [here]; rfl) ?_
      simp only [upLock]
      split <;> rfl
  | lowers here =>
      have after : (lowerWrites view).run.point = .outEnd := by
        simp only [lowerWrites]
        split <;> rfl
      exact .quiet (lowerWrites_keeps view).ctx (by rw [here]; rfl) (by rw [after]; rfl)
  | loses here done => exact .loses rfl done here rfl
  | wins here undone => exact .wins rfl undone here rfl
  | ends here => exact .ends rfl here rfl

theorem WorkMove.gen {view next : WorkView} (move : WorkMove view next) :
    next.run.gen = view.run.gen := by
  cases move with
  | lowers here => exact (lowerWrites_keeps view).gen
  | _ => rfl

theorem WorkMove.op {view next : WorkView} (move : WorkMove view next) :
    next.ctx.op = view.ctx.op := by
  cases move with
  | lowers here => rw [(lowerWrites_keeps view).ctx]
  | _ => rfl

theorem WorkMove.abort {view next : WorkView} (move : WorkMove view next) :
    next.ctx.abort = view.ctx.abort := by
  cases move with
  | lowers here => rw [(lowerWrites_keeps view).ctx]
  | _ => rfl

theorem WorkMove.memory {view next : WorkView} (move : WorkMove view next) :
    next.dev.sizeBytes = view.dev.sizeBytes ∧
      ∀ page, (next.pages page).length = (view.pages page).length := by
  cases move with
  | copies here moves fits lengths => exact ⟨rfl, lengths⟩
  | ups here => exact ⟨(upLock_keeps view).size, fun _ => rfl⟩
  | lowers here =>
      have keeps := lowerWrites_keeps view
      exact ⟨keeps.size, fun page => by rw [keeps.pages]⟩
  | _ => exact ⟨rfl, fun _ => rfl⟩

inductive SlotMove (dev : RbullDev) (pages : Pages) (slot : SlotState) :
    SlotAction → RbullDev → Pages → SlotState → Prop
  | queued {request : Request} (free : slot.gen = 0 ∨ slot.ended slot.gen = true)
      (ordinary : blkRqIsPassthrough request.op = false) :
      SlotMove dev pages slot (.queueRq request) dev pages
        { slot with
          gen := slot.gen + 1
          request := request
          ctx := { slot.ctx with op := request.op }
          queueCalls := Function.update slot.queueCalls (slot.gen + 1) (some .setDone) }
  | clearsDone {gen : Nat} (here : slot.queueCalls gen = some .setDone) :
      SlotMove dev pages slot (.queueStep gen) dev pages
        ({ slot with ctx := { slot.ctx with done := false } }.setCall gen (some .setAbort))
  | clearsAbort {gen : Nat} (here : slot.queueCalls gen = some .setAbort) :
      SlotMove dev pages slot (.queueStep gen) dev pages
        ({ slot with ctx := { slot.ctx with abort := false } }.setCall gen (some .startRequest))
  | startsRequest {gen : Nat} (here : slot.queueCalls gen = some .startRequest) :
      SlotMove dev pages slot (.queueStep gen) dev pages
        ({ slot with inFlight := true }.setCall gen (some .queueWork))
  | queuesWork {gen : Nat} (here : slot.queueCalls gen = some .queueWork) :
      SlotMove dev pages slot (.queueStep gen) dev pages
        ({ slot with pending := true }.setCall gen none)
  | startsWork (pending : slot.pending = true) (idle : slot.run = none) :
      SlotMove dev pages slot .startWork dev pages
        { slot with pending := false, run := some (Run.start slot.gen slot.rq slot.ctx.op) }
  | works {run : Run} {view : WorkView} (here : slot.run = some run)
      (move : WorkMove ⟨dev, pages, slot.ctx, run⟩ view) :
      SlotMove dev pages slot .work view.dev view.pages (slot.afterWork run view)
  | finishes {run : Run} (here : slot.run = some run) (returning : run.point = .returning) :
      SlotMove dev pages slot .finishWork dev pages { slot with run := none }
  | timesOut (inFlight : slot.inFlight = true) (idle : slot.handler = none) :
      SlotMove dev pages slot .timeout dev pages
        { slot with handler := some ⟨slot.gen, .setAbort⟩ }
  | setsAbort {gen : Nat} (here : slot.handler = some ⟨gen, .setAbort⟩) :
      SlotMove dev pages slot .timeoutStep dev pages
        { slot with ctx := { slot.ctx with abort := true }, handler := some ⟨gen, .cmpxchg⟩ }
  | timeoutLoses {gen : Nat} (here : slot.handler = some ⟨gen, .cmpxchg⟩)
      (done : slot.ctx.done = true) :
      SlotMove dev pages slot .timeoutStep dev pages { slot with handler := none }
  | timeoutWins {gen : Nat} (here : slot.handler = some ⟨gen, .cmpxchg⟩)
      (undone : slot.ctx.done = false) :
      SlotMove dev pages slot .timeoutStep dev pages
        { slot with ctx := { slot.ctx with done := true }, handler := some ⟨gen, .endRequest⟩ }
  | timeoutEnds {gen : Nat} (here : slot.handler = some ⟨gen, .endRequest⟩) :
      SlotMove dev pages slot .timeoutStep dev pages
        ({ slot with handler := none }.endRequest .timeout none)

theorem SlotMove.memory {dev dev' : RbullDev} {pages pages' : Pages} {slot next : SlotState}
    {action : SlotAction} (move : SlotMove dev pages slot action dev' pages' next) :
    dev'.sizeBytes = dev.sizeBytes ∧ ∀ page, (pages' page).length = (pages page).length := by
  cases move with
  | works here move => exact move.memory
  | _ => exact ⟨rfl, fun _ => rfl⟩

theorem rbullQueueRq_move {dev : RbullDev} {pages : Pages} {slot next : SlotState}
    {request : Request} (taken : rbullQueueRq slot request = some next) :
    SlotMove dev pages slot (.queueRq request) dev pages next := by
  simp only [rbullQueueRq] at taken
  split at taken
  · rename_i allowed
    cases taken
    exact .queued allowed.1 allowed.2
  · contradiction

theorem queueStep_move {dev : RbullDev} {pages : Pages} {slot next : SlotState} {gen : Nat}
    (taken : queueStep slot gen = some next) :
    SlotMove dev pages slot (.queueStep gen) dev pages next := by
  simp only [queueStep] at taken
  split at taken
  · contradiction
  · rename_i here
    cases taken
    exact .clearsDone here
  · rename_i here
    cases taken
    exact .clearsAbort here
  · rename_i here
    cases taken
    exact .startsRequest here
  · rename_i here
    cases taken
    exact .queuesWork here

theorem startWork_move {dev : RbullDev} {pages : Pages} {slot next : SlotState}
    (taken : startWork slot = some next) : SlotMove dev pages slot .startWork dev pages next := by
  simp only [startWork] at taken
  split at taken
  · rename_i allowed
    cases taken
    exact .startsWork allowed.1 allowed.2
  · contradiction

theorem finishWork_move {dev : RbullDev} {pages : Pages} {slot next : SlotState}
    (taken : finishWork slot = some next) : SlotMove dev pages slot .finishWork dev pages next := by
  simp only [finishWork] at taken
  split at taken
  · contradiction
  · rename_i run here
    split at taken
    · rename_i returning
      cases taken
      exact .finishes here returning
    · contradiction

theorem rbullTimeout_move {dev : RbullDev} {pages : Pages} {slot next : SlotState}
    (taken : rbullTimeout slot = some next) : SlotMove dev pages slot .timeout dev pages next := by
  simp only [rbullTimeout] at taken
  split at taken
  · rename_i allowed
    cases taken
    exact .timesOut allowed.1 allowed.2
  · contradiction

theorem timeoutStep_move {dev : RbullDev} {pages : Pages} {slot next : SlotState}
    (taken : timeoutStep slot = some next) :
    SlotMove dev pages slot .timeoutStep dev pages next := by
  simp only [timeoutStep] at taken
  split at taken
  · contradiction
  · rename_i gen here
    cases taken
    exact .setsAbort here
  · rename_i gen here
    split at taken
    · rename_i done
      cases taken
      exact .timeoutLoses here done
    · rename_i undone
      cases taken
      exact .timeoutWins here (Bool.eq_false_of_not_eq_true undone)
  · rename_i gen here
    cases taken
    exact .timeoutEnds here

section System

variable {Slot Hctx : Type} [Fintype Slot] [DecidableEq Slot] [DecidableEq Hctx]
  {hctx : Slot → Hctx}

omit [Fintype Slot] in
theorem setSlot_cases {sys next : RbullSys Slot} {slot : Slot} {action : SlotAction}
    {result : Option SlotState} (taken : result.map (sys.setSlot slot) = some next)
    (move : ∀ state, result = some state →
      SlotMove sys.dev sys.pages (sys.slots slot) action sys.dev sys.pages state) :
    ∃ state, next.slots = Function.update sys.slots slot state ∧
      SlotMove sys.dev sys.pages (sys.slots slot) action next.dev next.pages state := by
  obtain ⟨state, found, rfl⟩ := Option.map_eq_some_iff.mp taken
  exact ⟨state, rfl, move state found⟩

theorem rbullStep_cases {sys next : RbullSys Slot} {slot : Slot} {action : SlotAction}
    (taken : rbullStep hctx sys (slot, action) = some next) :
    ∃ state, next.slots = Function.update sys.slots slot state ∧
      SlotMove sys.dev sys.pages (sys.slots slot) action next.dev next.pages state := by
  cases action with
  | queueRq request => exact setSlot_cases taken fun _ => rbullQueueRq_move
  | queueStep gen => exact setSlot_cases taken fun _ => queueStep_move
  | startWork =>
      simp only [rbullStep] at taken
      split at taken
      · exact setSlot_cases taken fun _ => startWork_move
      · contradiction
  | work =>
      simp only [rbullStep, workOn] at taken
      split at taken
      · contradiction
      · rename_i run here
        obtain ⟨view, worked, rfl⟩ := Option.map_eq_some_iff.mp taken
        exact ⟨_, rfl, .works here (workStep_move worked)⟩
  | finishWork => exact setSlot_cases taken fun _ => finishWork_move
  | timeout => exact setSlot_cases taken fun _ => rbullTimeout_move
  | timeoutStep => exact setSlot_cases taken fun _ => timeoutStep_move

theorem slots_invariant {invariant : SlotState → Prop} {sys next : RbullSys Slot} {slot : Slot}
    {action : SlotAction} (holds : ∀ other, invariant (sys.slots other))
    (taken : rbullStep hctx sys (slot, action) = some next)
    (preserved : ∀ state, SlotMove sys.dev sys.pages (sys.slots slot) action next.dev next.pages
      state → invariant state) (other : Slot) : invariant (next.slots other) := by
  obtain ⟨state, slots, move⟩ := rbullStep_cases taken
  rw [slots, Function.update_apply]
  split
  · exact preserved state move
  · exact holds other

end System

end Ldd3.Rbull
