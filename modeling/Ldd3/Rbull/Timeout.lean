import Mathlib.Tactic
import Ldd3.Lib.StepMachine
import Ldd3.Rbull.Core
import Ldd3.Rbull.Steps
import Ldd3.Rbull.Slots

/-!
What the run of a request still does after `rbull_timeout` has ended the request. The run
looks at the abort flag once for each segment, so all that can follow is the copy that
it has already decided on.
-/

namespace Ldd3.Rbull

structure SlotState.Quiet (slot : SlotState) : Prop where
  called : slot.queueCalls slot.gen = none
  pending : slot.pending = false
  run : slot.run = none
  handler : slot.handler = none

def SlotState.Filling (slot : SlotState) : Prop :=
  ∃ point, slot.queueCalls slot.gen = some point ∧ point ≠ .queueWork

/-- One request at a time in the slot: its call of `rbull_queue_rq` has cleared the flags
before its run or its timeout handler can start. -/
structure Alone (slot : SlotState) : Prop where
  calls : ∀ gen, slot.queueCalls gen ≠ none → gen = slot.gen ∧ gen ≠ 0
  bound : ∀ ending ∈ slot.endings, ending.gen ≤ slot.gen
  filling : slot.Filling → slot.run = none ∧ slot.pending = false ∧ slot.handler = none ∧
    slot.inFlight = false ∧ slot.ended slot.gen = false
  flight : slot.inFlight = true → slot.gen ≠ 0 ∧ slot.ended slot.gen = false
  aborted : ∀ handler, slot.handler = some handler → handler.point ≠ .setAbort →
    slot.ctx.abort = true

def SlotState.UsedAlone (slot : SlotState) : SlotAction → Prop
  | .queueRq _ => slot.Quiet
  | _ => True

theorem alone_init : Alone SlotState.init := by
  constructor
  · intro gen called
    simp [SlotState.init] at called
  · intro ending member
    simp [SlotState.init] at member
  · rintro ⟨point, here, _⟩
    simp [SlotState.init] at here
  · intro inFlight
    simp [SlotState.init] at inFlight
  · intro handler here
    simp [SlotState.init] at here

theorem ended_eq_false_iff (slot : SlotState) (gen : Nat) :
    slot.ended gen = false ↔ ∀ ending ∈ slot.endings, ending.gen ≠ gen := by
  simp [SlotState.ended, List.any_eq_false]

theorem Alone.filling_of {slot : SlotState} (alone : Alone slot) {gen : Nat} {point : QueuePoint}
    (here : slot.queueCalls gen = some point) (early : point ≠ .queueWork) : slot.Filling := by
  have current := (alone.calls gen (by simp [here])).1
  subst current
  exact ⟨point, here, early⟩

theorem Alone.queued {slot : SlotState} (alone : Alone slot) {request : Request}
    (free : slot.gen = 0 ∨ slot.ended slot.gen = true) (quiet : slot.Quiet) :
    Alone { slot with
      gen := slot.gen + 1
      request := request
      ctx := { slot.ctx with op := request.op }
      queueCalls := Function.update slot.queueCalls (slot.gen + 1) (some .setDone) } := by
  have landed : slot.inFlight = false := by
    cases inFlight : slot.inFlight with
    | false => rfl
    | true =>
        obtain ⟨used, running⟩ := alone.flight inFlight
        rcases free with unused | ended
        · exact absurd unused used
        · rw [running] at ended
          contradiction
  have fresh : ∀ ending ∈ slot.endings, ending.gen ≠ slot.gen + 1 := by
    intro ending member
    have bound := alone.bound ending member
    omega
  constructor
  · intro gen called
    simp only [Function.update_apply] at called ⊢
    split at called
    · rename_i current
      exact ⟨current, by omega⟩
    · have old := (alone.calls gen called).1
      rw [old, quiet.called] at called
      contradiction
  · intro ending member
    have bound := alone.bound ending member
    simp only
    omega
  · intro _
    exact ⟨quiet.run, quiet.pending, quiet.handler, landed, (ended_eq_false_iff _ _).mpr fresh⟩
  · intro inFlight
    simp [landed] at inFlight
  · intro handler here
    simp [quiet.handler] at here

theorem Alone.called {slot next : SlotState} (alone : Alone slot) {gen : Nat}
    {point : QueuePoint} {call : Option QueuePoint} (here : slot.queueCalls gen = some point)
    (early : point ≠ .queueWork)
    (calls : next.queueCalls = Function.update slot.queueCalls gen call)
    (gens : next.gen = slot.gen) (endings : next.endings = slot.endings)
    (run : next.run = slot.run) (pending : next.pending = slot.pending)
    (handler : next.handler = slot.handler)
    (inFlight : next.inFlight = slot.inFlight ∨ call = some .queueWork) : Alone next := by
  obtain ⟨idle, unqueued, noHandler, landed, unended⟩ :=
    alone.filling (alone.filling_of here early)
  obtain ⟨current, used⟩ := alone.calls gen (by simp [here])
  have ended : next.ended next.gen = false := by
    simp only [SlotState.ended, endings, gens]
    exact unended
  constructor
  · intro other called
    rw [calls, Function.update_apply] at called
    rw [gens]
    split at called
    · rename_i same
      rw [same]
      exact ⟨current, used⟩
    · exact alone.calls other called
  · rw [endings, gens]
    exact alone.bound
  · rintro ⟨later, found, before⟩
    rw [calls, gens, ← current, Function.update_self] at found
    rcases inFlight with same | last
    · exact ⟨run.trans idle, pending.trans unqueued, handler.trans noHandler, same.trans landed,
        ended⟩
    · rw [last, Option.some.injEq] at found
      exact absurd found.symm before
  · intro _
    exact ⟨by omega, ended⟩
  · intro other found
    rw [handler, noHandler] at found
    contradiction

theorem Alone.framed {slot next : SlotState} (alone : Alone slot)
    (calls : ∀ gen, next.queueCalls gen = slot.queueCalls gen ∨ next.queueCalls gen = none)
    (gens : next.gen = slot.gen) (endings : next.endings = slot.endings)
    (inFlight : next.inFlight = slot.inFlight) (busy : ¬ slot.Filling)
    (aborted : ∀ handler, next.handler = some handler → handler.point ≠ .setAbort →
      next.ctx.abort = true) : Alone next := by
  constructor
  · intro gen called
    rw [gens]
    rcases calls gen with same | gone
    · rw [same] at called
      exact alone.calls gen called
    · exact absurd gone called
  · rw [endings, gens]
    exact alone.bound
  · rintro ⟨point, found, early⟩
    rw [gens] at found
    rcases calls slot.gen with same | gone
    · rw [same] at found
      exact absurd ⟨point, found, early⟩ busy
    · rw [gone] at found
      contradiction
  · intro raised
    rw [inFlight] at raised
    simp only [SlotState.ended, endings, gens]
    exact alone.flight raised
  · exact aborted

theorem Alone.endsRequest {slot : SlotState} (alone : Alone slot) (status : BlkStatus)
    (worker : Option (Nat × List BioVec)) (busy : ¬ slot.Filling) :
    Alone (slot.endRequest status worker) := by
  constructor
  · exact alone.calls
  · intro ending member
    simp only [SlotState.endRequest, List.mem_append, List.mem_singleton] at member
    rcases member with old | new
    · exact alone.bound ending old
    · subst new
      exact le_refl _
  · intro filling
    exact absurd filling busy
  · intro raised
    simp [SlotState.endRequest] at raised
  · exact alone.aborted

theorem Alone.busy_of_run {slot : SlotState} (alone : Alone slot) {run : Run}
    (here : slot.run = some run) : ¬ slot.Filling := by
  intro filling
  rw [(alone.filling filling).1] at here
  contradiction

theorem Alone.busy_of_handler {slot : SlotState} (alone : Alone slot) {handler : Handler}
    (here : slot.handler = some handler) : ¬ slot.Filling := by
  intro filling
  rw [(alone.filling filling).2.2.1] at here
  contradiction

theorem Alone.worked {dev : RbullDev} {pages : Pages} {slot : SlotState} (alone : Alone slot)
    {run : Run} {view : WorkView} (here : slot.run = some run)
    (move : WorkMove ⟨dev, pages, slot.ctx, run⟩ view) : Alone (slot.afterWork run view) := by
  have busy := alone.busy_of_run here
  have worked : ∀ copies, Alone
      { slot with ctx := view.ctx, run := some view.run, copies := copies } := by
    intro copies
    refine alone.framed (fun _ => .inl rfl) rfl rfl rfl busy ?_
    intro handler found late
    rw [move.abort]
    exact alone.aborted handler found late
  simp only [SlotState.afterWork]
  split
  · exact (worked _).endsRequest _ _ busy
  · exact worked _

theorem Alone.move {dev dev' : RbullDev} {pages pages' : Pages} {slot next : SlotState}
    {action : SlotAction} (alone : Alone slot) (used : slot.UsedAlone action)
    (move : SlotMove dev pages slot action dev' pages' next) : Alone next := by
  cases move with
  | queued free ordinary => exact alone.queued free used
  | clearsDone here =>
      exact alone.called here (by simp) rfl rfl rfl rfl rfl rfl (.inl rfl)
  | clearsAbort here =>
      exact alone.called here (by simp) rfl rfl rfl rfl rfl rfl (.inl rfl)
  | startsRequest here =>
      exact alone.called here (by simp) rfl rfl rfl rfl rfl rfl (.inr rfl)
  | queuesWork here =>
      rename_i gen
      have current := (alone.calls gen (by simp [here])).1
      have busy : ¬ slot.Filling := by
        rintro ⟨point, found, early⟩
        rw [← current, here, Option.some.injEq] at found
        exact early found.symm
      refine alone.framed ?_ rfl rfl rfl busy alone.aborted
      intro other
      simp only [SlotState.setCall, Function.update_apply]
      split
      · exact .inr rfl
      · exact .inl rfl
  | startsWork pending idle =>
      have busy : ¬ slot.Filling := by
        intro filling
        rw [(alone.filling filling).2.1] at pending
        contradiction
      exact alone.framed (fun _ => .inl rfl) rfl rfl rfl busy alone.aborted
  | works here move => exact alone.worked here move
  | finishes here returning =>
      exact alone.framed (fun _ => .inl rfl) rfl rfl rfl (alone.busy_of_run here) alone.aborted
  | timesOut inFlight idle =>
      have busy : ¬ slot.Filling := by
        intro filling
        rw [(alone.filling filling).2.2.2.1] at inFlight
        contradiction
      refine alone.framed (fun _ => .inl rfl) rfl rfl rfl busy ?_
      intro handler here late
      simp only [Option.some.injEq] at here
      subst here
      exact absurd rfl late
  | setsAbort here =>
      refine alone.framed (fun _ => .inl rfl) rfl rfl rfl (alone.busy_of_handler here) ?_
      intro _ _ _
      rfl
  | timeoutLoses here done =>
      refine alone.framed (fun _ => .inl rfl) rfl rfl rfl (alone.busy_of_handler here) ?_
      intro handler found
      simp at found
  | timeoutWins here undone =>
      have raised := alone.aborted _ here (by simp)
      refine alone.framed (fun _ => .inl rfl) rfl rfl rfl (alone.busy_of_handler here) ?_
      intro _ _ _
      exact raised
  | timeoutEnds here =>
      have busy := alone.busy_of_handler here
      have released : Alone { slot with handler := none } := by
        refine alone.framed (fun _ => .inl rfl) rfl rfl rfl busy ?_
        intro handler found
        simp at found
      exact released.endsRequest _ _ busy

/-- The next step of the slot's run is a memcpy or memset of the switch. -/
def CopiesNext (dev : RbullDev) (pages : Pages) (slot : SlotState) : Prop :=
  ∃ run seg, slot.run = some run ∧ run.point = .copy seg ∧ slot.ctx.op.moves = true ∧
    copyFits slot.ctx.op dev pages run.devOff seg = true

structure Barred (dev : RbullDev) (pages : Pages) (slot : SlotState) : Prop where
  abort : slot.ctx.abort = true
  calls : ∀ gen point, slot.queueCalls gen = some point → point = .queueWork
  away : ¬ CopiesNext dev pages slot

theorem copyFits_same {dev dev' : RbullDev} {pages pages' : Pages}
    (sizes : dev'.sizeBytes = dev.sizeBytes)
    (lengths : ∀ page, (pages' page).length = (pages page).length)
    (op : ReqOp) (devOff : Nat) (seg : BioVec) :
    copyFits op dev' pages' devOff seg = copyFits op dev pages devOff seg := by
  simp only [copyFits, inStore, inPage, sizes, lengths]

theorem Barred.elsewhere {dev dev' : RbullDev} {pages pages' : Pages} {slot : SlotState}
    (barred : Barred dev pages slot) (sizes : dev'.sizeBytes = dev.sizeBytes)
    (lengths : ∀ page, (pages' page).length = (pages page).length) : Barred dev' pages' slot := by
  refine ⟨barred.abort, barred.calls, ?_⟩
  rintro ⟨run, seg, here, copying, moves, fits⟩
  rw [copyFits_same sizes lengths] at fits
  exact barred.away ⟨run, seg, here, copying, moves, fits⟩

theorem WorkMove.toCopy {view next : WorkView} {seg : BioVec} (move : WorkMove view next)
    (copying : next.run.point = .copy seg) : view.ctx.abort = false := by
  cases move with
  | continues here goesOn => exact goesOn
  | ups here =>
      simp only [upLock] at copying
      split at copying <;> contradiction
  | lowers here =>
      simp only [lowerWrites] at copying
      split at copying <;> contradiction
  | _ => contradiction

theorem Barred.move {dev dev' : RbullDev} {pages pages' : Pages} {slot next : SlotState}
    {action : SlotAction} (barred : Barred dev pages slot)
    (noReuse : ∀ request, action ≠ .queueRq request)
    (move : SlotMove dev pages slot action dev' pages' next) : Barred dev' pages' next := by
  have away := barred.away
  cases move with
  | queued free ordinary => exact absurd rfl (noReuse _)
  | clearsDone here => exact absurd (barred.calls _ _ here) (by simp)
  | clearsAbort here => exact absurd (barred.calls _ _ here) (by simp)
  | startsRequest here => exact absurd (barred.calls _ _ here) (by simp)
  | queuesWork here =>
      refine ⟨barred.abort, ?_, away⟩
      intro other point found
      simp only [SlotState.setCall, Function.update_apply] at found
      split at found
      · contradiction
      · exact barred.calls other point found
  | startsWork pending idle =>
      refine ⟨barred.abort, barred.calls, ?_⟩
      rintro ⟨run, seg, here, copying, _⟩
      simp only [Option.some.injEq] at here
      subst here
      simp only [Run.start] at copying
      split at copying <;> contradiction
  | works here move =>
      refine ⟨?_, ?_, ?_⟩
      · rw [afterWork_ctx, move.abort]
        exact barred.abort
      · rw [afterWork_queueCalls]
        exact barred.calls
      · rintro ⟨run, seg, found, copying, _⟩
        simp only [afterWork_run, Option.some.injEq] at found
        subst found
        -- only an abort test with the flag down leads to a copy
        have cleared : slot.ctx.abort = false := move.toCopy copying
        rw [barred.abort] at cleared
        contradiction
  | finishes here returning =>
      refine ⟨barred.abort, barred.calls, ?_⟩
      rintro ⟨run, seg, found, _⟩
      contradiction
  | timesOut inFlight idle => exact ⟨barred.abort, barred.calls, away⟩
  | setsAbort here => exact ⟨rfl, barred.calls, away⟩
  | timeoutLoses here done => exact ⟨barred.abort, barred.calls, away⟩
  | timeoutWins here undone => exact ⟨barred.abort, barred.calls, away⟩
  | timeoutEnds here => exact ⟨barred.abort, barred.calls, away⟩

theorem WorkMove.leaves {view next : WorkView} (move : WorkMove view next)
    (away : ∀ seg, view.run.point = .copy seg → view.ctx.op.moves = true →
      copyFits view.ctx.op view.dev view.pages view.run.devOff seg = false) :
    next.dev.data = view.dev.data ∧ next.pages = view.pages ∧
      next.run.handled = view.run.handled := by
  cases move with
  | copies here moves fits =>
      rw [away _ here moves] at fits
      contradiction
  | ups here =>
      have keeps := upLock_keeps view
      exact ⟨keeps.data, keeps.pages, keeps.handled⟩
  | lowers here =>
      have keeps := lowerWrites_keeps view
      exact ⟨keeps.data, keeps.pages, keeps.handled⟩
  | _ => exact ⟨rfl, rfl, rfl⟩

section System

variable {Slot Hctx : Type} [Fintype Slot] [DecidableEq Slot] [DecidableEq Hctx]
  {hctx : Slot → Hctx}

omit [Fintype Slot] [DecidableEq Slot] in
def UsedAlone (slot : Slot) (sys : RbullSys Slot) (action : Slot × SlotAction) : Prop :=
  action.1 = slot → (sys.slots slot).UsedAlone action.2

omit [Fintype Slot] [DecidableEq Slot] in
structure LeavesMemory (slot : Slot) (sys next : RbullSys Slot) : Prop where
  copies : (next.slots slot).copies = (sys.slots slot).copies
  data : next.dev.data = sys.dev.data
  pages : next.pages = sys.pages

/-- Every later step of the slot's run, before the slot is used again, leaves the memory
alone. -/
def RunStaysOff (hctx : Slot → Hctx) (slot : Slot) (sys : RbullSys Slot) : Prop :=
  ∀ more later next, (∀ request, (slot, .queueRq request) ∉ more) →
    StepMachine.run (rbullStep hctx) sys more = some later →
    rbullStep hctx later (slot, .work) = some next → LeavesMemory slot later next

theorem alone_step {sys next : RbullSys Slot} {slot : Slot} {action : Slot × SlotAction}
    (alone : Alone (sys.slots slot)) (used : UsedAlone slot sys action)
    (taken : rbullStep hctx sys action = some next) : Alone (next.slots slot) := by
  obtain ⟨other, action⟩ := action
  obtain ⟨state, slots, move⟩ := rbullStep_cases taken
  by_cases same : other = slot
  · subst same
    rw [slots, Function.update_self]
    exact alone.move (used rfl) move
  · rw [slots, Function.update_of_ne (Ne.symm same)]
    exact alone

theorem barred_step {sys next : RbullSys Slot} {slot : Slot} {action : Slot × SlotAction}
    (barred : Barred sys.dev sys.pages (sys.slots slot))
    (noReuse : ∀ request, action ≠ (slot, .queueRq request))
    (taken : rbullStep hctx sys action = some next) :
    Barred next.dev next.pages (next.slots slot) := by
  obtain ⟨other, action⟩ := action
  obtain ⟨state, slots, move⟩ := rbullStep_cases taken
  by_cases same : other = slot
  · subst same
    rw [slots, Function.update_self]
    refine barred.move ?_ move
    rintro request rfl
    exact noReuse request rfl
  · rw [slots, Function.update_of_ne (Ne.symm same)]
    exact barred.elsewhere move.memory.1 move.memory.2

theorem barred_run {sys later : RbullSys Slot} {slot : Slot} {more : List (Slot × SlotAction)}
    (barred : Barred sys.dev sys.pages (sys.slots slot))
    (noReuse : ∀ request, (slot, .queueRq request) ∉ more)
    (ran : StepMachine.run (rbullStep hctx) sys more = some later) :
    Barred later.dev later.pages (later.slots slot) := by
  induction more generalizing sys with
  | nil =>
      simp only [StepMachine.run_nil, Option.some.injEq] at ran
      exact ran ▸ barred
  | cons action rest ih =>
      obtain ⟨middle, taken, ranRest⟩ := StepMachine.run_cons_inv ran
      have first : ∀ request, action ≠ (slot, .queueRq request) := by
        rintro request rfl
        exact noReuse request List.mem_cons_self
      apply ih (barred_step barred first taken) _ ranRest
      intro request member
      exact noReuse request (List.mem_cons_of_mem _ member)

theorem work_leaves {sys next : RbullSys Slot} {slot : Slot}
    (away : ¬ CopiesNext sys.dev sys.pages (sys.slots slot))
    (taken : rbullStep hctx sys (slot, .work) = some next) : LeavesMemory slot sys next := by
  simp only [rbullStep, workOn] at taken
  split at taken
  · contradiction
  · rename_i run here
    obtain ⟨view, worked, rfl⟩ := Option.map_eq_some_iff.mp taken
    have left := (workStep_move worked).leaves <| by
      intro seg copying moves
      apply Bool.eq_false_of_not_eq_true
      intro fits
      exact away ⟨run, seg, here, copying, moves, fits⟩
    obtain ⟨data, pages, handled⟩ := left
    simp only at data pages handled
    refine ⟨?_, data, pages⟩
    simp only [Function.update_self, SlotState.afterWork, handled, List.drop_length, List.map_nil,
      List.append_nil]
    split <;> rfl

theorem work_copies (hctx : Slot → Hctx) {sys : RbullSys Slot} {slot : Slot}
    (copies : CopiesNext sys.dev sys.pages (sys.slots slot)) :
    ∃ next, rbullStep hctx sys (slot, .work) = some next ∧ ¬ LeavesMemory slot sys next := by
  obtain ⟨run, seg, here, copying, moves, fits⟩ := copies
  have switched : ∃ view,
      switchOp ⟨sys.dev, sys.pages, (sys.slots slot).ctx, run⟩ seg = some view ∧
        view.run.handled = run.handled ++ [seg] := by
    simp only [copyFits] at fits
    cases op : (sys.slots slot).ctx.op with
    | read =>
        rw [op] at fits
        simp only [switchOp, op, fits, if_true, Option.some.injEq, exists_eq_left']
        rfl
    | write =>
        rw [op] at fits
        simp only [switchOp, op, fits, if_true, Option.some.injEq, exists_eq_left']
        rfl
    | discard =>
        rw [op, Bool.and_true] at fits
        simp only [switchOp, op, fits, if_true, Option.some.injEq, exists_eq_left']
        rfl
    | writeZeroes =>
        rw [op, Bool.and_true] at fits
        simp only [switchOp, op, fits, if_true, Option.some.injEq, exists_eq_left']
        rfl
    | flush => simp [op, ReqOp.moves] at moves
    | other odd => simp [op, ReqOp.moves] at moves
    | driver odd => simp [op, ReqOp.moves] at moves
  obtain ⟨view, switched, handled⟩ := switched
  simp only [rbullStep, workOn, here, workStep, copying, switched, Option.map_some,
    Option.some.injEq, exists_eq_left']
  intro left
  have same := left.copies
  simp [SlotState.afterWork, copying, handled] at same

theorem Alone.barred {slot : SlotState} (alone : Alone slot) {handler : Handler}
    (here : slot.handler = some handler) (raised : handler.point ≠ .setAbort) {dev : RbullDev}
    {pages : Pages} (away : ¬ CopiesNext dev pages slot) : Barred dev pages slot := by
  refine ⟨alone.aborted handler here raised, ?_, away⟩
  intro gen point called
  by_contra early
  exact alone.busy_of_handler here (alone.filling_of called early)

/-- When `rbull_timeout` ends a request with BLK_STS_TIMEOUT, the request's run does nothing
more to the store or to any page exactly when it is not between its abort test and the copy
that follows it. -/
theorem timedOut_run_staysOff_iff {diskSectorsMb : Nat} {pages : Pages} {slot : Slot}
    {actions : List (Slot × SlotAction)} {sys next : RbullSys Slot} {handler : Handler}
    (used : StepMachine.Meets (rbullStep hctx) (UsedAlone slot)
      (.loaded Slot diskSectorsMb pages) actions)
    (ran : StepMachine.run (rbullStep hctx) (.loaded Slot diskSectorsMb pages) actions = some sys)
    (here : (sys.slots slot).handler = some handler) (ending : handler.point = .endRequest)
    (ends : rbullStep hctx sys (slot, .timeoutStep) = some next) :
    RunStaysOff hctx slot next ↔ ¬ CopiesNext sys.dev sys.pages (sys.slots slot) := by
  have keeps : ∀ (before : RbullSys Slot) action after, Alone (before.slots slot) →
      UsedAlone slot before action → rbullStep hctx before action = some after →
      Alone (after.slots slot) := fun _ _ _ => alone_step
  have alone := StepMachine.run_invariant keeps alone_init used ran
  constructor
  · intro staysOff copies
    have still : CopiesNext next.dev next.pages (next.slots slot) := by
      obtain ⟨gen, point⟩ := handler
      simp only at ending
      subst ending
      simp only [rbullStep, timeoutStep, here, Option.map_some, Option.some.injEq] at ends
      subst ends
      simp only [RbullSys.setSlot, Function.update_self]
      exact copies
    obtain ⟨after, taken, touched⟩ := work_copies hctx still
    exact touched (staysOff [] next after (by simp) rfl taken)
  · intro away more later after noReuse ranMore taken
    have barred := alone.barred here (by simp [ending]) away
    have ended := barred_step barred (by simp) ends
    exact work_leaves (barred_run ended noReuse ranMore).away taken

end System

instance (slot : SlotState) : Decidable slot.Quiet :=
  decidable_of_iff (slot.queueCalls slot.gen = none ∧ slot.pending = false ∧ slot.run = none ∧
      slot.handler = none)
    ⟨fun quiet => ⟨quiet.1, quiet.2.1, quiet.2.2.1, quiet.2.2.2⟩,
      fun quiet => ⟨quiet.called, quiet.pending, quiet.run, quiet.handler⟩⟩

instance (slot : SlotState) (action : SlotAction) : Decidable (slot.UsedAlone action) :=
  match action with
  | .queueRq _ => inferInstanceAs (Decidable slot.Quiet)
  | .queueStep _ => isTrue trivial
  | .startWork => isTrue trivial
  | .work => isTrue trivial
  | .finishWork => isTrue trivial
  | .timeout => isTrue trivial
  | .timeoutStep => isTrue trivial

instance {Slot : Type} [DecidableEq Slot] (slot : Slot) (sys : RbullSys Slot)
    (action : Slot × SlotAction) : Decidable (UsedAlone slot sys action) :=
  inferInstanceAs (Decidable (action.1 = slot → (sys.slots slot).UsedAlone action.2))

def timedOutAfter (steps : Nat) : List (Bool × SlotAction) :=
  queueAll 1 (writeOf 0 [⟨0, 0, 512⟩]) ++ (true, .startWork) ::
    List.replicate steps (true, .work) ++
      [(true, .timeout), (true, .timeoutStep), (true, .timeoutStep)]

theorem timedOut_run_staysOff_iff_waiting :
    ∃ sys next,
      StepMachine.run (rbullStep fun _ => ()) (.loaded Bool 64 onePage) (timedOutAfter 1) =
        some sys ∧
      rbullStep (fun _ => ()) sys (true, .timeoutStep) = some next ∧
      (RunStaysOff (fun _ => ()) true next ↔
        ¬ CopiesNext sys.dev sys.pages (sys.slots true)) := by
  have reached :
      ((StepMachine.run (rbullStep fun _ => ()) (.loaded Bool 64 onePage) (timedOutAfter 1)).map
        fun sys => (sys.slots true).handler) = some (some ⟨1, .endRequest⟩) := by
    decide +kernel
  rw [Option.map_eq_some_iff] at reached
  obtain ⟨sys, ran, here⟩ := reached
  have ends : rbullStep (fun _ => ()) sys (true, .timeoutStep) =
      some (sys.setSlot true ({ sys.slots true with handler := none }.endRequest .timeout none)) := by
    simp only [rbullStep, timeoutStep, here, Option.map_some]
  exact ⟨sys, _, ran, ends, timedOut_run_staysOff_iff (by decide +kernel) ran here rfl ends⟩

theorem timedOutAfter_three :
    ((StepMachine.run (rbullStep fun _ => ()) (.loaded Bool 64 onePage)
        (timedOutAfter 3 ++ [(true, .timeoutStep)])).bind fun sys =>
      (rbullStep (fun _ => ()) sys (true, .work)).map fun next =>
        ((sys.slots true).endings, sys.dev.data.head?, next.dev.data.head?)) =
    some ([⟨1, [⟨0, 0, 512⟩], .timeout, none⟩], some 0, some 7) := by
  decide +kernel

/-- The run stands between its abort test and its copy when the handler ends the write; the
next step of the run then stores the data of the write that was reported as failed. -/
theorem timedOut_write_stored :
    ∃ sys,
      StepMachine.run (rbullStep fun _ => ()) (.loaded Bool 64 onePage)
        (timedOutAfter 3 ++ [(true, .timeoutStep)]) = some sys ∧
      (sys.slots true).endings = [⟨1, [⟨0, 0, 512⟩], .timeout, none⟩] ∧
      ¬ RunStaysOff (fun _ => ()) true sys := by
  have stored := timedOutAfter_three
  rw [Option.bind_eq_some_iff] at stored
  obtain ⟨sys, ran, worked⟩ := stored
  rw [Option.map_eq_some_iff] at worked
  obtain ⟨next, taken, seen⟩ := worked
  simp only [Prod.mk.injEq] at seen
  refine ⟨sys, ran, seen.1, ?_⟩
  intro staysOff
  have left := staysOff [] sys next (by simp) rfl taken
  rw [left.data, seen.2.1] at seen
  simp at seen

end Ldd3.Rbull
