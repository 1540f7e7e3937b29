import Mathlib.Tactic
import Ldd3.Lib.Scatter
import Ldd3.Rbull.Segments
import Ldd3.Rbull.Ledger

/-!
A run of `rbull_rq_work` that has the device to itself and is not timed out: what its
segments do together, as one transfer between the store and their concatenation.
-/

namespace Ldd3.Rbull

open CInt (uint64)
open Scatter (Piece gather scatter total)

def BioVec.piece (seg : BioVec) : Piece Nat := ⟨seg.page, seg.offset, seg.len⟩

def pieces (segments : List BioVec) : List (Piece Nat) := segments.map BioVec.piece

def requestBytes (segments : List BioVec) : Nat := total (pieces segments)

def flatTransfer (op : ReqOp) (start : Nat) (segments : List BioVec) (memory : Memory) : Memory :=
  match op with
  | .read =>
      { memory with
        pages := scatter memory.pages (pieces segments)
          (Block.slice memory.data start (requestBytes segments)) }
  | .write =>
      { memory with
        data := Block.overwrite memory.data start (gather memory.pages (pieces segments)) }
  | .discard | .writeZeroes =>
      { memory with
        data := Block.overwrite memory.data start (List.replicate (requestBytes segments) 0) }
  | .flush | .other _ | .driver _ => memory

@[simp] theorem requestBytes_nil : requestBytes [] = 0 := by
  rw [requestBytes, pieces, List.map_nil, Scatter.total_nil]

@[simp] theorem requestBytes_cons (seg : BioVec) (more : List BioVec) :
    requestBytes (seg :: more) = seg.len + requestBytes more := by
  simp only [requestBytes, pieces, List.map_cons, Scatter.total_cons, BioVec.piece]

section Transfer

variable {op : ReqOp} {sizeBytes start : Nat} {memory : Memory}

theorem flatTransfer_nil (op : ReqOp) (start : Nat) (memory : Memory) :
    flatTransfer op start [] memory = memory := by
  have nothing : Block.overwrite memory.data start [] = memory.data := by
    simp only [Block.overwrite, List.append_nil, List.length_nil, Nat.add_zero,
      List.take_append_drop]
  cases op <;>
    simp only [flatTransfer, pieces, List.map_nil, scatter, gather, List.flatMap_nil,
      requestBytes_nil, List.replicate_zero, nothing]

def SegmentsInside (op : ReqOp) (pages : Pages) (segments : List BioVec) : Prop :=
  op = .read ∨ op = .write → ∀ seg ∈ segments, inPage pages seg = true

theorem flatTransfer_cons {seg : BioVec} {more : List BioVec}
    (inside : SegmentsInside op memory.pages (seg :: more))
    (fits : start + requestBytes (seg :: more) ≤ memory.data.length) :
    flatTransfer op start (seg :: more) memory =
      flatTransfer op (start + seg.len) more (Copy.apply ⟨op, start, seg⟩ memory) := by
  rw [requestBytes_cons] at fits
  cases op with
  | flush => rfl
  | other odd => rfl
  | driver odd => rfl
  | read =>
      have first : (Block.slice memory.data start seg.len).length = seg.len :=
        Block.length_slice (by omega)
      simp only [flatTransfer, Copy.apply, requestBytes_cons, pieces, List.map_cons, scatter,
        Block.slice_append, BioVec.piece, Scatter.fill]
      rw [List.take_left' first, List.drop_left' first]
  | write =>
      have listed := inside (.inr rfl) seg List.mem_cons_self
      simp only [inPage, decide_eq_true_eq] at listed
      have first : (Block.slice (memory.pages seg.page) seg.offset seg.len).length = seg.len :=
        Block.length_slice listed
      have later : (gather memory.pages (pieces more)).length = requestBytes more := by
        refine Scatter.length_gather fun piece member => ?_
        obtain ⟨other, queued, rfl⟩ := List.mem_map.mp member
        have within := inside (.inr rfl) other (List.mem_cons_of_mem seg queued)
        rw [inPage, decide_eq_true_eq] at within
        exact within
      simp only [pieces] at later
      simp only [flatTransfer, Copy.apply, pieces, List.map_cons, Scatter.gather_cons, BioVec.piece]
      rw [Block.overwrite_append (by rw [first, later]; omega), first]
  | discard =>
      simp only [flatTransfer, Copy.apply, requestBytes_cons, List.replicate_add]
      rw [Block.overwrite_append (by simp only [List.length_replicate]; omega),
        List.length_replicate]
  | writeZeroes =>
      simp only [flatTransfer, Copy.apply, requestBytes_cons, List.replicate_add]
      rw [Block.overwrite_append (by simp only [List.length_replicate]; omega),
        List.length_replicate]

end Transfer

/-! The loop. -/

theorem workSteps_add (first second : Nat) (view : WorkView) :
    workSteps (first + second) view = (workSteps first view).bind (workSteps second) := by
  induction first generalizing view with
  | zero => rw [Nat.zero_add]; rfl
  | succ first ih =>
      rw [Nat.succ_add]
      simp only [workSteps, Option.bind_assoc]
      congr 1
      funext next
      exact ih next

section Run

variable {dev : RbullDev} {pages : Pages} {ctx : Ctx} {run : Run}

theorem workSteps_last (between : run.Between ctx) (last : run.rest = []) :
    ∃ final, workSteps 3 ⟨dev, pages, ctx, run⟩ = some final ∧ final.run.point = .endRequest ∧
      final.run.ret = .ok ∧ final.dev.data = dev.data ∧ final.pages = pages := by
  obtain ⟨head, ok, unlocked, side, data, live, isOpen⟩ := between
  obtain ⟨isWrite, rest, devOff, ret, point, gen, held, raised, handled⟩ := run
  simp only at head ok unlocked side last
  subst head ok unlocked last
  cases isWrite <;>
    simp [workSteps, workStep, WorkView.goto, Run.goto, lowerWrites, isOpen]

theorem workSteps_outOfRange (between : run.Between ctx) {seg : BioVec} {more : List BioVec}
    (next : run.rest = seg :: more) (outside : outOfRange dev.sizeBytes run.devOff seg = true) :
    ∃ final, workSteps 2 ⟨dev, pages, ctx, run⟩ = some final ∧ final.run.point = .endRequest ∧
      final.run.ret = .ioerr := by
  obtain ⟨head, ok, unlocked, side, data, live, isOpen⟩ := between
  obtain ⟨isWrite, rest, devOff, ret, point, gen, held, raised, handled⟩ := run
  simp only at head ok unlocked side next outside
  subst head ok unlocked next
  simp [workSteps, workStep, enterSegment, WorkView.goto, Run.goto, outside, isOpen]

/-- The offset and the lengths are such that the sum in the range check does not wrap. -/
structure Unwrapped (sizeBytes devOff : Nat) (segments : List BioVec) : Prop where
  size : sizeBytes < 9223372036854775808
  offset : devOff < 9223372036854775808
  lens : ∀ seg ∈ segments, seg.len < 4294967296

theorem Unwrapped.advance {sizeBytes devOff : Nat} {seg : BioVec} {more : List BioVec}
    (unwrapped : Unwrapped sizeBytes devOff (seg :: more)) (within : devOff + seg.len ≤ sizeBytes) :
    Unwrapped sizeBytes (devOff + seg.len) more where
  size := unwrapped.size
  offset := within.trans_lt unwrapped.size
  lens := fun later listed => unwrapped.lens later (List.mem_cons_of_mem seg listed)

theorem Unwrapped.outOfRange_iff {sizeBytes devOff : Nat} {seg : BioVec} {more : List BioVec}
    (unwrapped : Unwrapped sizeBytes devOff (seg :: more)) :
    outOfRange sizeBytes devOff seg = true ↔ sizeBytes < devOff + seg.len := by
  have offset := unwrapped.offset
  have len := unwrapped.lens seg List.mem_cons_self
  have exact := CInt.uint64_natCast (by omega : devOff + seg.len < 18446744073709551616)
  rw [Nat.cast_add] at exact
  rw [outOfRange, decide_eq_true_eq, exact]

theorem workSteps_copy (between : run.Between ctx) (idle : dev.Idle) {seg : BioVec}
    {more : List BioVec} (next : run.rest = seg :: more)
    (unwrapped : Unwrapped dev.sizeBytes run.devOff (seg :: more))
    (within : run.devOff + seg.len ≤ dev.sizeBytes)
    (inside : SegmentsInside ctx.op pages (seg :: more)) :
    ∃ after : WorkView, workSteps 5 ⟨dev, pages, ctx, run⟩ = some after ∧ after.ctx = ctx ∧
      after.dev.Idle ∧ after.dev.sizeBytes = dev.sizeBytes ∧ after.run.Between ctx ∧
      after.run.rest = more ∧ after.run.devOff = run.devOff + seg.len ∧
      SegmentsInside ctx.op after.pages more ∧
      (⟨after.dev.data, after.pages⟩ : Memory) =
        Copy.apply ⟨ctx.op, run.devOff, seg⟩ ⟨dev.data, pages⟩ := by
  have inRange : outOfRange dev.sizeBytes run.devOff seg = false := by
    rw [Bool.eq_false_iff, ne_eq, unwrapped.outOfRange_iff]
    omega
  have exact := CInt.uint64_natCast
    (by have := unwrapped.size; omega : run.devOff + seg.len < 18446744073709551616)
  rw [Nat.cast_add] at exact
  have round : run.round dev.sizeBytes ctx =
      { copy := some ⟨ctx.op, run.devOff, seg⟩
        counted := writeCount run
        ctx := ctx
        run := run.pass seg more (run.raised + writeCount run) } := by
    simp only [Run.round, next, inRange, Bool.false_eq_true, ↓reduceIte]
  have copyFits : Copy.fits ⟨ctx.op, run.devOff, seg⟩ dev.sizeBytes pages = true := by
    have data := between.data
    cases op : ctx.op <;>
      simp_all [copiesData, Copy.fits, SegmentsInside]
  have shaped : (Copy.apply ⟨ctx.op, run.devOff, seg⟩ ⟨dev.data, pages⟩).Shaped dev.sizeBytes
      pages := Copy.apply_shaped ⟨idle.sized, fun _ => rfl⟩ copyFits
  have steps : workRound ⟨dev, pages, ctx, run⟩ =
      if (run.round dev.sizeBytes ctx).fits dev.sizeBytes pages then
        some ((run.round dev.sizeBytes ctx).view dev pages)
      else none := workRound_copy between idle.readers idle.writer next inRange
  have length : roundLength ⟨dev, pages, ctx, run⟩ = 5 := by
    simp only [roundLength, next, inRange, Bool.false_eq_true, ↓reduceIte]
  have fits : (run.round dev.sizeBytes ctx).fits dev.sizeBytes pages = true := by
    simpa only [round, Round.fits, Option.all_some] using copyFits
  rw [if_pos fits, workRound, if_pos between.head, length] at steps
  refine ⟨_, steps, ?_⟩
  simp only [round, Round.view, Round.memory, Option.elim_some]
  refine ⟨trivial, ⟨shaped.1, idle.readers, idle.writer⟩, trivial, ?_, rfl, exact, ?_, trivial⟩
  · exact ⟨between.head, between.ok, between.unlocked, between.side, between.data, between.live,
      between.fresh⟩
  · intro uses later listed
    have before := inside uses later (List.mem_cons_of_mem seg listed)
    simpa only [inPage, shaped.2] using before

structure Serves (view : WorkView) (fits : Prop) (memory : Memory) : Prop where
  ends : ∃ count final, workSteps count view = some final ∧ final.run.point = .endRequest ∧
    (fits ∧ final.run.ret = .ok ∧ (⟨final.dev.data, final.pages⟩ : Memory) = memory ∨
      ¬fits ∧ final.run.ret = .ioerr)

theorem loop_serves (segments : List BioVec) (between : run.Between ctx) (idle : dev.Idle)
    (left : run.rest = segments) (unwrapped : Unwrapped dev.sizeBytes run.devOff segments)
    (some : segments ≠ [] ∨ run.devOff ≤ dev.sizeBytes)
    (inside : SegmentsInside ctx.op pages segments) :
    Serves ⟨dev, pages, ctx, run⟩ (run.devOff + requestBytes segments ≤ dev.sizeBytes)
      (flatTransfer ctx.op run.devOff segments ⟨dev.data, pages⟩) := by
  induction segments generalizing dev pages run with
  | nil =>
      obtain ⟨final, steps, ended, ok, data, same⟩ := workSteps_last between left
      have fits : run.devOff + requestBytes [] ≤ dev.sizeBytes := by
        simpa using some
      refine ⟨3, final, steps, ended, .inl ⟨fits, ok, ?_⟩⟩
      rw [flatTransfer_nil, data, same]
  | cons seg more ih =>
      by_cases outside : outOfRange dev.sizeBytes run.devOff seg = true
      · obtain ⟨final, steps, ended, ioerr⟩ := workSteps_outOfRange between left outside
        refine ⟨2, final, steps, ended, .inr ⟨?_, ioerr⟩⟩
        rw [unwrapped.outOfRange_iff] at outside
        rw [requestBytes_cons]
        omega
      · have within : run.devOff + seg.len ≤ dev.sizeBytes := by
          rw [unwrapped.outOfRange_iff] at outside
          omega
        obtain ⟨⟨dev', pages', ctx', run'⟩, steps, sameCtx, idle', size, between', left', advanced,
          inside', memory⟩ := workSteps_copy between idle left unwrapped within inside
        simp only at sameCtx idle' size between' left' advanced inside' memory
        subst sameCtx
        have served := ih between' idle' left' (by rw [size, advanced]; exact unwrapped.advance within)
          (.inr (by rw [size, advanced]; exact within)) inside'
        obtain ⟨count, final, later, ended, outcome⟩ := served
        refine ⟨5 + count, final, ?_, ended, ?_⟩
        · rw [workSteps_add, steps]
          exact later
        · rw [size, advanced, memory] at outcome
          rw [requestBytes_cons, ← Nat.add_assoc]
          refine outcome.imp_left ?_
          rintro ⟨fits, ok, same⟩
          refine ⟨fits, ok, ?_⟩
          rw [same, flatTransfer_cons inside]
          rw [requestBytes_cons, ← Nat.add_assoc]
          exact idle.sized.symm ▸ fits

end Run

/-! The store is never left. -/

def RunPoint.segment : RunPoint → Option BioVec
  | .wantLock seg | .testAbort seg | .copy seg => some seg
  | _ => none

structure InStore (view : WorkView) : Prop where
  unwrapped : Unwrapped view.dev.sizeBytes view.run.devOff view.run.rest
  here : ∀ seg ∈ view.run.point.segment, view.run.devOff + seg.len ≤ view.dev.sizeBytes

theorem InStore.moved {view next : WorkView} (inStore : InStore view)
    (size : next.dev.sizeBytes = view.dev.sizeBytes) (offset : next.run.devOff = view.run.devOff)
    (left : ∀ seg ∈ next.run.rest, seg ∈ view.run.rest)
    (same : ∀ seg ∈ next.run.point.segment, seg ∈ view.run.point.segment) : InStore next where
  unwrapped := by
    rw [size, offset]
    exact ⟨inStore.unwrapped.size, inStore.unwrapped.offset,
      fun seg listed => inStore.unwrapped.lens seg (left seg listed)⟩
  here := by
    rw [size, offset]
    exact fun seg listed => inStore.here seg (same seg listed)

theorem InStore.enters {view : WorkView} {seg : BioVec} {more : List BioVec}
    (inStore : InStore view) (rest : view.run.rest = seg :: more)
    (range : outOfRange view.dev.sizeBytes view.run.devOff seg = false) :
    view.run.devOff + seg.len ≤ view.dev.sizeBytes := by
  have unwrapped := inStore.unwrapped
  rw [rest] at unwrapped
  rw [Bool.eq_false_iff, ne_eq, unwrapped.outOfRange_iff] at range
  omega

theorem InStore.advances {view next : WorkView} {seg : BioVec} (inStore : InStore view)
    (here : view.run.point = .copy seg) (size : next.dev.sizeBytes = view.dev.sizeBytes)
    (offset : next.run.devOff = uint64 (view.run.devOff + seg.len))
    (rest : next.run.rest = view.run.rest) (point : next.run.point.segment = none) :
    InStore next := by
  have within := inStore.here seg (by rw [here]; rfl)
  have small := inStore.unwrapped.size
  have exact := CInt.uint64_natCast
    (by omega : view.run.devOff + seg.len < 18446744073709551616)
  rw [Nat.cast_add] at exact
  refine ⟨?_, by simp [point]⟩
  rw [size, offset, exact, rest]
  exact ⟨small, by omega, inStore.unwrapped.lens⟩

theorem inStore_move {view next : WorkView} (inStore : InStore view) (move : WorkMove view next) :
    InStore next := by
  cases move with
  | raises here rest range writes =>
      have within := inStore.enters rest range
      refine ⟨⟨inStore.unwrapped.size, inStore.unwrapped.offset, ?_⟩, ?_⟩
      · intro later listed
        exact inStore.unwrapped.lens later (by rw [rest]; exact List.mem_cons_of_mem _ listed)
      · rintro seg ⟨⟩
        exact within
  | enters here rest range reads =>
      have within := inStore.enters rest range
      refine ⟨⟨inStore.unwrapped.size, inStore.unwrapped.offset, ?_⟩, ?_⟩
      · intro later listed
        exact inStore.unwrapped.lens later (by rw [rest]; exact List.mem_cons_of_mem _ listed)
      · rintro seg ⟨⟩
        exact within
  | rangeError here rest range =>
      refine inStore.moved rfl rfl ?_ (by simp [RunPoint.segment])
      intro later listed
      rw [rest]
      exact List.mem_cons_of_mem _ listed
  | downWrite here writes noReaders noWriter =>
      exact inStore.moved rfl rfl (fun _ => id) (by simp [RunPoint.segment, here])
  | downRead here reads noWriter =>
      exact inStore.moved rfl rfl (fun _ => id) (by simp [RunPoint.segment, here])
  | continues here goesOn =>
      exact inStore.moved rfl rfl (fun _ => id)
        (by simp [RunPoint.segment, here, WorkView.goto, Run.goto])
  | copies here moves fits lengths => exact inStore.advances here rfl rfl rfl rfl
  | drains here flush drained => exact inStore.advances here rfl rfl rfl rfl
  | refuses here unsupported => exact inStore.advances here rfl rfl rfl rfl
  | ups here =>
      refine inStore.moved ?_ rfl (fun _ => id) ?_
      · exact (upLock_keeps view).size
      · simp only [upLock]
        split <;> simp [RunPoint.segment]
  | lowers here =>
      simp only [lowerWrites]
      split
      · exact inStore.moved rfl rfl (fun _ => id) (by simp [RunPoint.segment])
      · exact inStore.moved rfl rfl (fun _ => id)
          (by simp [RunPoint.segment, WorkView.goto, Run.goto])
  | _ =>
      exact inStore.moved rfl rfl (fun _ => id)
        (by simp [RunPoint.segment, WorkView.goto, Run.goto])

theorem workSteps_inStore {count : Nat} {view final : WorkView} (inStore : InStore view)
    (steps : workSteps count view = some final) :
    InStore final ∧ final.dev.sizeBytes = view.dev.sizeBytes := by
  induction count generalizing view with
  | zero => exact Option.some.inj steps ▸ ⟨inStore, rfl⟩
  | succ count ih =>
      obtain ⟨next, taken, rest⟩ := Option.bind_eq_some_iff.mp steps
      have move := workStep_move taken
      obtain ⟨later, size⟩ := ih (inStore_move inStore move) rest
      exact ⟨later, size.trans move.memory.1⟩

/-! The request. -/

/-- A request that moves data, of segments that lie in their pages, for a device that nobody
uses. The size of the store is an `int` of megabytes, a segment length an `unsigned int`. -/
structure Transferable (dev : RbullDev) (pages : Pages) (request : Request) : Prop where
  idle : dev.Idle
  size : dev.sizeBytes < 9223372036854775808
  op : copiesData request.op = true
  sector : request.pos < 18014398509481984
  some : request.segments ≠ []
  lens : ∀ seg ∈ request.segments, seg.len < 4294967296
  inside : SegmentsInside request.op pages request.segments

section Request

variable {dev : RbullDev} {pages : Pages} {request : Request}

theorem Transferable.startOff (transferable : Transferable dev pages request) :
    startOff request = request.pos * 512 := by
  have sector := transferable.sector
  have exact := CInt.uint64_natCast (by omega : request.pos * 512 < 18446744073709551616)
  rw [Nat.cast_mul] at exact
  exact exact

theorem Transferable.unwrapped (transferable : Transferable dev pages request) :
    Unwrapped dev.sizeBytes (request.pos * 512) request.segments where
  size := transferable.size
  offset := by
    have sector := transferable.sector
    omega
  lens := transferable.lens

theorem Transferable.between (transferable : Transferable dev pages request) (gen : Nat) :
    (Run.start gen request request.op).Between ⟨request.op, false, false⟩ where
  head := by
    have op := transferable.op
    have noFlush : request.op ≠ .flush := by
      intro flush
      rw [flush] at op
      contradiction
    exact if_neg noFlush
  ok := rfl
  unlocked := rfl
  side := rfl
  data := transferable.op
  live := rfl
  fresh := rfl

/-- The run never leaves the store. When the request fits, it ends with `BLK_STS_OK` and has
done one flat transfer, which for a READ leaves the bytes of the store in its segments; when the
request does not fit, it ends with `BLK_STS_IOERR`. -/
theorem rbullRqWork_flat (transferable : Transferable dev pages request) (gen : Nat) :
    (∀ count view seg, workSteps count (.entry dev pages false false gen request) = some view →
      view.run.point = .copy seg → view.run.devOff + seg.len ≤ dev.sizeBytes) ∧
    Serves (.entry dev pages false false gen request)
      (request.pos * 512 + requestBytes request.segments ≤ dev.sizeBytes)
      (flatTransfer request.op (request.pos * 512) request.segments ⟨dev.data, pages⟩) ∧
    (request.op = .read → (pieces request.segments).Pairwise Scatter.Apart →
      request.pos * 512 + requestBytes request.segments ≤ dev.sizeBytes →
      gather (flatTransfer request.op (request.pos * 512) request.segments
          ⟨dev.data, pages⟩).pages (pieces request.segments) =
        Block.slice dev.data (request.pos * 512) (requestBytes request.segments)) := by
  have start : (Run.start gen request request.op).devOff = request.pos * 512 :=
    transferable.startOff
  refine ⟨?_, ?_, ?_⟩
  · intro count view seg steps here
    have inStore : InStore (.entry dev pages false false gen request) := by
      refine ⟨start ▸ transferable.unwrapped, ?_⟩
      intro seg member
      rw [WorkView.entry, (transferable.between gen).head] at member
      contradiction
    obtain ⟨later, size⟩ := workSteps_inStore inStore steps
    have within := later.here seg (by rw [here]; rfl)
    rwa [size] at within
  · have served := loop_serves request.segments (transferable.between gen) transferable.idle rfl
      (start ▸ transferable.unwrapped) (.inl transferable.some) transferable.inside
    rw [start] at served
    exact served
  · intro read apart fits
    rw [read, flatTransfer]
    apply Scatter.gather_scatter _ apart
    · exact Block.length_slice (by rw [transferable.idle.sized]; exact fits)
    · intro piece member
      obtain ⟨seg, listed, rfl⟩ := List.mem_map.mp member
      have within := transferable.inside (.inl read) seg listed
      rw [inPage, decide_eq_true_eq] at within
      exact within

end Request

def twoSectors : RbullDev :=
  { data := List.replicate 1024 0, sizeBytes := 1024, inflightWrites := 0, readers := 0,
    writer := false }

def secondSector : Request :=
  { pos := 1, op := .write, segments := [⟨0, 0, 100⟩, ⟨1, 200, 412⟩], flushEmpty := nofun }

theorem secondSector_transferable :
    Transferable twoSectors (fun _ => List.replicate 4096 7) secondSector where
  idle := ⟨List.length_replicate, rfl, rfl⟩
  size := by simp only [twoSectors]; omega
  op := rfl
  sector := by simp only [secondSector]; omega
  some := by simp only [secondSector]; nofun
  lens := by simp [secondSector]
  inside := by
    intro _ seg listed
    simp only [secondSector, List.mem_cons, List.not_mem_nil, or_false] at listed
    rw [inPage, decide_eq_true_eq, List.length_replicate]
    obtain rfl | rfl := listed <;> simp only <;> omega

theorem rbullRqWork_flat_secondSector :
    Serves (.entry twoSectors (fun _ => List.replicate 4096 7) false false 1 secondSector)
      (1 * 512 + requestBytes secondSector.segments ≤ 1024)
      (flatTransfer .write (1 * 512) secondSector.segments
        ⟨List.replicate 1024 0, fun _ => List.replicate 4096 7⟩) :=
  (rbullRqWork_flat secondSector_transferable 1).2.1

end Ldd3.Rbull
