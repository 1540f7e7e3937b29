import Mathlib.Tactic
import Ldd3.Kernel
import Ldd3.Lib.Block
import Ldd3.Lib.CInt

/-!
The block driver (`ch16_block/rbull.c`): the work run of a request, one atomic operation
at a time, and the request slots of blk-mq on which `rbull_queue_rq`, `rbull_rq_work`
and `rbull_timeout` meet.
-/

namespace Ldd3.Rbull

open CInt (uint64)

/-- `enum req_op`; `op_is_write` looks at the lowest bit of the ones not named here. -/
inductive ReqOp
  | read
  | write
  | flush
  | discard
  | writeZeroes
  | other (odd : Bool)
  | driver (odd : Bool)
  deriving DecidableEq, Repr

def opIsWrite : ReqOp → Bool
  | .read => false
  | .write => true
  | .flush => false
  | .discard => true
  | .writeZeroes => true
  | .other odd => odd
  | .driver odd => odd

def blkRqIsPassthrough : ReqOp → Bool
  | .driver _ => true
  | _ => false

structure BioVec where
  page : Nat
  offset : Nat
  len : Nat
  deriving DecidableEq, Repr

/-- What the driver reads of a request; a flush carries no data. -/
structure Request where
  pos : Nat
  op : ReqOp
  segments : List BioVec
  flushEmpty : op = .flush → segments = []
  deriving DecidableEq

/-- The request after `blk_mq_end_request`, which has taken its bios. -/
def Request.drained (request : Request) : Request :=
  { request with segments := [], flushEmpty := fun _ => rfl }

def Request.blank : Request := { pos := 0, op := .read, segments := [], flushEmpty := fun _ => rfl }

inductive BlkStatus
  | ok
  | ioerr
  | timeout
  deriving DecidableEq, Repr

/-- The fields of `struct rbull_rq_ctx` that are read after `rbull_queue_rq` set them. -/
structure Ctx where
  op : ReqOp
  abort : Bool
  done : Bool
  deriving DecidableEq, Repr

/-- `struct rbull_dev`; `readers` and `writer` are the two sides of `lock`. -/
structure RbullDev where
  data : List Byte
  sizeBytes : Nat
  inflightWrites : Int
  readers : Int
  writer : Bool

abbrev Pages := Nat → List Byte

inductive Side
  | read
  | write
  deriving DecidableEq, Repr

inductive RunPoint
  | flushWait
  | loopHead
  | wantLock (seg : BioVec)
  | testAbort (seg : BioVec)
  | copy (seg : BioVec)
  | unlock
  | afterLoop
  | outEnd
  | endRequest
  | returning
  deriving DecidableEq, Repr

/-- A run of `rbull_rq_work`. The fields after `point` are bookkeeping of the model: the
request it was started for, the side of the lock it holds, what it added to
`inflight_writes`, and the segments it processed. -/
structure Run where
  isWrite : Bool
  rest : List BioVec
  devOff : Nat
  ret : BlkStatus
  point : RunPoint
  gen : Nat
  held : Option Side
  raised : Int
  handled : List BioVec
  deriving DecidableEq, Repr

def isWriteOp (op : ReqOp) : Bool :=
  opIsWrite op || op == .discard || op == .writeZeroes

def startOff (request : Request) : Nat := uint64 (request.pos * 512)

def Run.start (gen : Nat) (request : Request) (op : ReqOp) : Run :=
  { isWrite := isWriteOp op
    rest := request.segments
    devOff := startOff request
    ret := .ok
    point := if op = .flush then .flushWait else .loopHead
    gen := gen
    held := none
    raised := 0
    handled := [] }

structure WorkView where
  dev : RbullDev
  pages : Pages
  ctx : Ctx
  run : Run

def Run.goto (run : Run) (point : RunPoint) : Run := { run with point := point }

def WorkView.goto (view : WorkView) (point : RunPoint) : WorkView :=
  { view with run := view.run.goto point }

def outOfRange (sizeBytes devOff : Nat) (seg : BioVec) : Bool :=
  decide (sizeBytes < uint64 (devOff + seg.len))

def inStore (dev : RbullDev) (devOff : Nat) (seg : BioVec) : Bool :=
  decide (devOff + seg.len ≤ dev.sizeBytes)

def inPage (pages : Pages) (seg : BioVec) : Bool :=
  decide (seg.offset + seg.len ≤ (pages seg.page).length)

def enterSegment (view : WorkView) (seg : BioVec) (more : List BioVec) : WorkView :=
  let run := view.run
  if outOfRange view.dev.sizeBytes run.devOff seg then
    { view with run := { run with rest := more, ret := .ioerr, point := .outEnd } }
  else if run.isWrite then
    { view with
      dev := { view.dev with inflightWrites := view.dev.inflightWrites + 1 }
      run := { run with rest := more, raised := run.raised + 1, point := .wantLock seg } }
  else { view with run := { run with rest := more, point := .wantLock seg } }

def downLock (view : WorkView) (seg : BioVec) : Option WorkView :=
  let run := view.run
  if run.isWrite then
    if view.dev.readers = 0 ∧ view.dev.writer = false then
      some { view with
        dev := { view.dev with writer := true }
        run := { run with held := some .write, point := .testAbort seg } }
    else none
  else if view.dev.writer = false then
    some { view with
      dev := { view.dev with readers := view.dev.readers + 1 }
      run := { run with held := some .read, point := .testAbort seg } }
  else none

def upLock (view : WorkView) : WorkView :=
  let run := view.run
  let point : RunPoint := if run.ret = .ok then .loopHead else .afterLoop
  let dev :=
    if run.isWrite then { view.dev with writer := false }
    else { view.dev with readers := view.dev.readers - 1 }
  { view with dev := dev, run := { run with held := none, point := point } }

def Run.advance (run : Run) (seg : BioVec) : Run :=
  { run with devOff := uint64 (run.devOff + seg.len), point := .unlock }

def Run.advanceHandled (run : Run) (seg : BioVec) : Run :=
  { run.advance seg with handled := run.handled ++ [seg] }

def memcpyToPage (view : WorkView) (seg : BioVec) : Pages :=
  Function.update view.pages seg.page
    (Block.overwrite (view.pages seg.page) seg.offset
      (Block.slice view.dev.data view.run.devOff seg.len))

def memcpyToStore (view : WorkView) (seg : BioVec) : RbullDev :=
  { view.dev with
    data := Block.overwrite view.dev.data view.run.devOff
      (Block.slice (view.pages seg.page) seg.offset seg.len) }

def memsetStore (view : WorkView) (seg : BioVec) : RbullDev :=
  { view.dev with
    data := Block.overwrite view.dev.data view.run.devOff (List.replicate seg.len 0) }

/-- The switch on `ctx->op`, which looks at the operation that the slot has now. A copy
outside the store or the page has no next state. -/
def switchOp (view : WorkView) (seg : BioVec) : Option WorkView :=
  let run := view.run
  match view.ctx.op with
  | .read =>
      -- an access outside its memory has no defined effect to continue with
      if inStore view.dev run.devOff seg && inPage view.pages seg then
        some { view with pages := memcpyToPage view seg, run := run.advanceHandled seg }
      else none
  | .write =>
      if inStore view.dev run.devOff seg && inPage view.pages seg then
        some { view with dev := memcpyToStore view seg, run := run.advanceHandled seg }
      else none
  | .discard | .writeZeroes =>
      if inStore view.dev run.devOff seg then
        some { view with dev := memsetStore view seg, run := run.advanceHandled seg }
      else none
  | .flush =>
      if view.dev.inflightWrites = 0 then
        some { view with run := { run.advance seg with ret := .ok } }
      else none
  | .other _ | .driver _ => some { view with run := { run.advance seg with ret := .ioerr } }

def lowerWrites (view : WorkView) : WorkView :=
  let run := view.run
  if run.isWrite then
    { view with
      dev := { view.dev with inflightWrites := view.dev.inflightWrites - 1 }
      run := { run with raised := run.raised - 1, point := .outEnd } }
  else view.goto .outEnd

/-- The next atomic operation of `rbull_rq_work`; `none` while it has to wait. -/
def workStep (view : WorkView) : Option WorkView :=
  match view.run.point with
  | .flushWait => if view.dev.inflightWrites = 0 then some (view.goto .outEnd) else none
  | .loopHead =>
      match view.run.rest with
      | [] => some (view.goto .afterLoop)
      | seg :: more => some (enterSegment view seg more)
  | .wantLock seg => downLock view seg
  -- the jump to abort leaves the lock and the counter as they are
  | .testAbort seg => some (view.goto (if view.ctx.abort then .returning else .copy seg))
  | .copy seg => switchOp view seg
  | .unlock => some (upLock view)
  | .afterLoop => some (lowerWrites view)
  | .outEnd =>
      if view.ctx.done then some (view.goto .returning)
      else some ({ view with ctx := { view.ctx with done := true } }.goto .endRequest)
  | .endRequest => some (view.goto .returning)
  | .returning => none

inductive QueuePoint
  | setDone
  | setAbort
  | startRequest
  | queueWork
  deriving DecidableEq, Repr

inductive TimeoutPoint
  | setAbort
  | cmpxchg
  | endRequest
  deriving DecidableEq, Repr

structure Handler where
  gen : Nat
  point : TimeoutPoint
  deriving DecidableEq, Repr

/-- A call of `blk_mq_end_request`: the request that the slot carries, the status, and
for a work run the request it was started for with the segments it processed. -/
structure Ending where
  gen : Nat
  segments : List BioVec
  status : BlkStatus
  worker : Option (Nat × List BioVec)
  deriving DecidableEq, Repr

/-- A request slot of blk-mq. Its requests are numbered from 1; `queueCalls` are the
calls of `rbull_queue_rq` that have not returned. `endings` and `copies` are histories. -/
structure SlotState where
  gen : Nat
  request : Request
  ctx : Ctx
  queueCalls : Nat → Option QueuePoint
  inFlight : Bool
  pending : Bool
  run : Option Run
  handler : Option Handler
  endings : List Ending
  copies : List (Nat × BioVec)

def SlotState.init : SlotState :=
  { gen := 0
    request := Request.blank
    ctx := { op := .read, abort := false, done := false }
    queueCalls := fun _ => none
    inFlight := false
    pending := false
    run := none
    handler := none
    endings := []
    copies := [] }

def SlotState.ended (slot : SlotState) (gen : Nat) : Bool :=
  slot.endings.any fun ending => ending.gen == gen

/-- blk-mq hands the slot to `rbull_queue_rq` for a new request once the last one in it
has been ended. Passthrough requests, which the call ends itself, are not handed out. -/
def rbullQueueRq (slot : SlotState) (request : Request) : Option SlotState :=
  if (slot.gen = 0 ∨ slot.ended slot.gen = true) ∧ blkRqIsPassthrough request.op = false then
    some { slot with
      gen := slot.gen + 1
      request := request
      ctx := { slot.ctx with op := request.op }
      queueCalls := Function.update slot.queueCalls (slot.gen + 1) (some .setDone) }
  else none

def SlotState.setCall (slot : SlotState) (gen : Nat) (call : Option QueuePoint) : SlotState :=
  { slot with queueCalls := Function.update slot.queueCalls gen call }

def queueStep (slot : SlotState) (gen : Nat) : Option SlotState :=
  match slot.queueCalls gen with
  | none => none
  | some .setDone =>
      some ({ slot with ctx := { slot.ctx with done := false } }.setCall gen (some .setAbort))
  | some .setAbort =>
      some ({ slot with ctx := { slot.ctx with abort := false } }.setCall gen (some .startRequest))
  | some .startRequest => some ({ slot with inFlight := true }.setCall gen (some .queueWork))
  | some .queueWork => some ({ slot with pending := true }.setCall gen none)

def SlotState.rq (slot : SlotState) : Request :=
  if slot.ended slot.gen then slot.request.drained else slot.request

def startWork (slot : SlotState) : Option SlotState :=
  if slot.pending = true ∧ slot.run = none then
    some { slot with pending := false, run := some (Run.start slot.gen slot.rq slot.ctx.op) }
  else none

def SlotState.endRequest (slot : SlotState) (status : BlkStatus)
    (worker : Option (Nat × List BioVec)) : SlotState :=
  let ending : Ending :=
    { gen := slot.gen, segments := slot.request.segments, status := status, worker := worker }
  { slot with inFlight := false, endings := slot.endings ++ [ending] }

def SlotState.afterWork (slot : SlotState) (run : Run) (view : WorkView) : SlotState :=
  let moved := (view.run.handled.drop run.handled.length).map fun seg => (run.gen, seg)
  let worked :=
    { slot with ctx := view.ctx, run := some view.run, copies := slot.copies ++ moved }
  if run.point = .endRequest then worked.endRequest run.ret (some (run.gen, run.handled)) else worked

def finishWork (slot : SlotState) : Option SlotState :=
  match slot.run with
  | none => none
  | some run => if run.point = .returning then some { slot with run := none } else none

/-- blk-mq calls `rbull_timeout` for a request in flight, one call at a time. -/
def rbullTimeout (slot : SlotState) : Option SlotState :=
  if slot.inFlight = true ∧ slot.handler = none then
    some { slot with handler := some ⟨slot.gen, .setAbort⟩ }
  else none

def timeoutStep (slot : SlotState) : Option SlotState :=
  match slot.handler with
  | none => none
  | some ⟨gen, .setAbort⟩ =>
      some { slot with
        ctx := { slot.ctx with abort := true }
        handler := some ⟨gen, .cmpxchg⟩ }
  | some ⟨gen, .cmpxchg⟩ =>
      if slot.ctx.done then some { slot with handler := none }
      else
        some { slot with
          ctx := { slot.ctx with done := true }
          handler := some ⟨gen, .endRequest⟩ }
  | some ⟨_, .endRequest⟩ => some ({ slot with handler := none }.endRequest .timeout none)

structure RbullSys (Slot : Type) where
  dev : RbullDev
  pages : Pages
  slots : Slot → SlotState

inductive SlotAction
  | queueRq (request : Request)
  | queueStep (gen : Nat)
  | startWork
  | work
  | finishWork
  | timeout
  | timeoutStep
  deriving DecidableEq

section System

variable {Slot Hctx : Type} [Fintype Slot] [DecidableEq Slot] [DecidableEq Hctx]

def RbullSys.setSlot (sys : RbullSys Slot) (slot : Slot) (state : SlotState) : RbullSys Slot :=
  { sys with slots := Function.update sys.slots slot state }

/-- The workqueue of a hardware context is ordered: one run at a time. Which pending run
comes first is left open. -/
def queueIdle (hctx : Slot → Hctx) (sys : RbullSys Slot) (slot : Slot) : Bool :=
  decide (∀ other, hctx other = hctx slot → (sys.slots other).run = none)

def workOn (sys : RbullSys Slot) (slot : Slot) : Option (RbullSys Slot) :=
  match (sys.slots slot).run with
  | none => none
  | some run =>
      (workStep ⟨sys.dev, sys.pages, (sys.slots slot).ctx, run⟩).map fun view =>
        { dev := view.dev
          pages := view.pages
          slots := Function.update sys.slots slot ((sys.slots slot).afterWork run view) }

def rbullStep (hctx : Slot → Hctx) (sys : RbullSys Slot) :
    Slot × SlotAction → Option (RbullSys Slot)
  | (slot, .queueRq request) => (rbullQueueRq (sys.slots slot) request).map (sys.setSlot slot)
  | (slot, .queueStep gen) => (queueStep (sys.slots slot) gen).map (sys.setSlot slot)
  | (slot, .startWork) =>
      if queueIdle hctx sys slot then (startWork (sys.slots slot)).map (sys.setSlot slot) else none
  | (slot, .work) => workOn sys slot
  | (slot, .finishWork) => (finishWork (sys.slots slot)).map (sys.setSlot slot)
  | (slot, .timeout) => (rbullTimeout (sys.slots slot)).map (sys.setSlot slot)
  | (slot, .timeoutStep) => (timeoutStep (sys.slots slot)).map (sys.setSlot slot)

end System

/-- The device after `rbull_init`, for a disk of `diskSectorsMb` MiB. -/
def RbullDev.loaded (diskSectorsMb : Nat) : RbullDev :=
  { data := List.replicate (diskSectorsMb * 1024 * 1024) 0
    sizeBytes := diskSectorsMb * 1024 * 1024
    inflightWrites := 0
    readers := 0
    writer := false }

def RbullSys.loaded (Slot : Type) (diskSectorsMb : Nat) (pages : Pages) : RbullSys Slot :=
  { dev := RbullDev.loaded diskSectorsMb, pages := pages, slots := fun _ => SlotState.init }

end Ldd3.Rbull
