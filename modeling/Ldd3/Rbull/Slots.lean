import Mathlib.Tactic
import Ldd3.Lib.StepMachine
import Ldd3.Rbull.Core
import Ldd3.Rbull.Steps
import Ldd3.Rbull.Rounds

/-!
Which run ends which request: every end with BLK_STS_OK is that of the request's own run
as long as no run that outlived its request passes its completion test.
-/

namespace Ldd3.Rbull

def Run.ahead (run : Run) : List BioVec :=
  match run.point with
  | .loopHead => run.rest
  | .wantLock seg => seg :: run.rest
  | .testAbort seg => seg :: run.rest
  | .copy seg => seg :: run.rest
  | .unlock => run.rest
  | _ => []

structure Accounted (segments : List BioVec) (run : Run) : Prop where
  loop : run.point.inLoop = true → run.ret = .ok
  all : run.ret = .ok → run.handled ++ run.ahead = segments

theorem accounted_inside {segments : List BioVec} {run : Run} (ok : run.ret = .ok)
    (all : run.handled ++ run.ahead = segments) : Accounted segments run :=
  ⟨fun _ => ok, fun _ => all⟩

theorem accounted_outside {segments : List BioVec} {run : Run}
    (outside : run.point.inLoop = false)
    (all : run.ret = .ok → run.handled ++ run.ahead = segments) : Accounted segments run := by
  refine ⟨?_, all⟩
  intro inside
  rw [outside] at inside
  contradiction

theorem accounted_failed {segments : List BioVec} {run : Run} (outside : run.point.inLoop = false)
    (failed : run.ret ≠ .ok) : Accounted segments run :=
  accounted_outside outside fun ok => absurd ok failed

theorem accounted_start (gen : Nat) (request : Request) :
    Accounted request.segments (Run.start gen request request.op) := by
  apply accounted_inside
  · rfl
  · by_cases flush : request.op = .flush
    · simp [Run.start, Run.ahead, flush, request.flushEmpty flush]
    · simp [Run.start, Run.ahead, flush]

theorem WorkMove.accounted {view next : WorkView} {segments : List BioVec}
    (flushEmpty : view.ctx.op = .flush → segments = [])
    (before : Accounted segments view.run) (move : WorkMove view next)
    (returns : next.run.point ≠ .returning) : Accounted segments next.run := by
  obtain ⟨loop, all⟩ := before
  cases move with
  | flushes here =>
      simp only [Run.ahead, here] at all
      exact accounted_outside rfl all
  | loopEnds here empty =>
      simp only [Run.ahead, here, empty] at all
      exact accounted_outside rfl all
  | rangeError here rest range => exact accounted_failed rfl (by simp)
  | raises here rest range writes =>
      have ok := loop (by rw [here]; rfl)
      simp only [Run.ahead, here, rest] at all
      exact accounted_inside ok (all ok)
  | enters here rest range reads =>
      have ok := loop (by rw [here]; rfl)
      simp only [Run.ahead, here, rest] at all
      exact accounted_inside ok (all ok)
  | downWrite here =>
      have ok := loop (by rw [here]; rfl)
      simp only [Run.ahead, here] at all
      exact accounted_inside ok (all ok)
  | downRead here =>
      have ok := loop (by rw [here]; rfl)
      simp only [Run.ahead, here] at all
      exact accounted_inside ok (all ok)
  | aborts here abort => exact absurd rfl returns
  | continues here goesOn =>
      have ok := loop (by rw [here]; rfl)
      simp only [Run.ahead, here] at all
      exact accounted_inside ok (all ok)
  | copies here moves =>
      simp only [Run.ahead, here] at all
      apply accounted_outside rfl
      intro ok
      simp only [Run.advanceHandled, Run.advance, Run.ahead, List.append_assoc,
        List.singleton_append]
      exact all ok
  -- a flush has no segments, so its run is never at a copy
  | drains here flush =>
      have ok := loop (by rw [here]; rfl)
      simp only [Run.ahead, here, flushEmpty flush] at all
      have none := List.append_eq_nil_iff.mp (all ok)
      exact absurd none.2 (by simp)
  | refuses here unsupported => exact accounted_failed rfl (by simp)
  | ups here =>
      simp only [Run.ahead, here] at all
      by_cases ok : view.run.ret = .ok
      · simp only [upLock, if_pos ok]
        exact accounted_inside ok (all ok)
      · simp only [upLock, if_neg ok]
        exact accounted_failed rfl ok
  | lowers here =>
      simp only [Run.ahead, here] at all
      simp only [lowerWrites]
      split
      · exact accounted_outside rfl all
      · exact accounted_outside rfl all
  | loses here done => exact absurd rfl returns
  | wins here undone =>
      simp only [Run.ahead, here] at all
      exact accounted_outside rfl all
  | ends here => exact absurd rfl returns

/-- An end with BLK_STS_OK comes from the request's own run, with all its segments. -/
def Ending.Honest (ending : Ending) : Prop :=
  ending.status = .ok → ending.worker = some (ending.gen, ending.segments)

structure Owned (slot : SlotState) : Prop where
  op : slot.ctx.op = slot.request.op
  run : slot.ended slot.gen = false → ∀ run, slot.run = some run → run.gen = slot.gen →
    run.point ≠ .returning → Accounted slot.request.segments run
  winner : ∀ run, slot.run = some run → run.point = .endRequest → run.ret = .ok →
    run.gen = slot.gen
  bound : ∀ run, slot.run = some run → run.gen ≤ slot.gen
  stale : ∀ run, slot.run = some run → run.gen ≠ slot.gen →
    slot.queueCalls slot.gen ≠ none ∨ slot.pending = true
  handler : ∀ handler, slot.handler = some handler → handler.gen = slot.gen
  endings : ∀ ending ∈ slot.endings, ending.Honest

/-- The completion test of a run does not end, with BLK_STS_OK, a later request than the
one the run was started for; and blk-mq waits for a timeout handler before it uses the
slot again. -/
def SlotState.CompletesOwn (slot : SlotState) : SlotAction → Prop
  | .queueRq _ => slot.handler = none
  | .work => ∀ run, slot.run = some run → run.point = .outEnd → run.ret = .ok →
      slot.ctx.done = false → run.gen = slot.gen
  | _ => True

def SlotState.Unattended (slot : SlotState) (gen : Nat) : Prop :=
  slot.queueCalls gen = none ∧ (gen = slot.gen → slot.pending = false) ∧
    (∀ run, slot.run = some run → run.gen ≠ gen) ∧
    ∀ handler, slot.handler = some handler → handler.gen ≠ gen

structure RequestsEnded (slot : SlotState) : Prop where
  once : (slot.endings.map Ending.gen).Nodup
  all : ∀ gen, 1 ≤ gen → gen ≤ slot.gen → slot.Unattended gen →
    gen ∈ slot.endings.map Ending.gen
  processed : ∀ ending ∈ slot.endings, ending.Honest

theorem owned_init : Owned SlotState.init := by
  constructor
  · rfl
  · intro _ run here
    simp [SlotState.init] at here
  · intro run here
    simp [SlotState.init] at here
  · intro run here
    simp [SlotState.init] at here
  · intro run here
    simp [SlotState.init] at here
  · intro handler here
    simp [SlotState.init] at here
  · intro ending member
    simp [SlotState.init] at member

theorem unended_of_subset {slot next : SlotState} {gen : Nat} (kept : slot.endings ⊆ next.endings)
    (unended : next.ended gen = false) : slot.ended gen = false := by
  rw [Bool.eq_false_iff, Ne, ended_iff] at unended ⊢
  exact fun member => unended (List.map_subset _ kept member)

theorem Owned.framed {slot next : SlotState} (owned : Owned slot) (gens : next.gen = slot.gen)
    (request : next.request = slot.request) (op : next.ctx.op = slot.ctx.op)
    (run : next.run = slot.run)
    (stale : slot.queueCalls slot.gen ≠ none ∨ slot.pending = true →
      next.queueCalls slot.gen ≠ none ∨ next.pending = true)
    (handler : ∀ handler, next.handler = some handler → handler.gen = slot.gen)
    (kept : slot.endings ⊆ next.endings)
    (endings : ∀ ending ∈ next.endings, ending.Honest) : Owned next := by
  constructor
  · rw [op, request]
    exact owned.op
  · rw [run, gens, request]
    exact fun unended => owned.run (unended_of_subset kept unended)
  · rw [run, gens]
    exact owned.winner
  · rw [run, gens]
    exact owned.bound
  · intro other here old
    rw [gens] at old ⊢
    rw [run] at here
    exact stale (owned.stale other here old)
  · rw [gens]
    exact handler
  · exact endings

theorem called_setCall {slot : SlotState} (gen : Nat) (point : QueuePoint)
    (called : slot.queueCalls slot.gen ≠ none ∨ slot.pending = true) :
    Function.update slot.queueCalls gen (some point) slot.gen ≠ none ∨ slot.pending = true := by
  rcases called with here | pending
  · left
    rw [Function.update_apply]
    split
    · simp
    · exact here
  · exact .inr pending

theorem SlotState.Begun.noWinner {slot : SlotState} (begun : slot.Begun)
    (free : slot.gen = 0 ∨ slot.ended slot.gen = true) {run : Run} (here : slot.run = some run) :
    run.point ≠ .endRequest := by
  intro wins
  rcases begun with rounds | rfl | ⟨request, first⟩
  · have all := rounds.length_of_free free
    have count := rounds.count
    rw [here, wonByRun_of_endRequest wins] at count
    omega
  · simp [SlotState.init] at here
  · simp only [rbullQueueRq] at first
    split at first
    · cases first
      simp [SlotState.init] at here
    · contradiction

theorem SlotState.Begun.unended_of_winner {slot : SlotState} (begun : slot.Begun) {run : Run}
    (here : slot.run = some run) (wins : run.point = .endRequest) :
    slot.ended slot.gen = false := by
  rcases begun with rounds | rfl | ⟨request, first⟩
  · exact rounds.unended_of_winner (by rw [here, wonByRun_of_endRequest wins])
  · rfl
  · simp only [rbullQueueRq] at first
    split at first
    · cases first
      rfl
    · contradiction

theorem Owned.queued {slot : SlotState} (owned : Owned slot) (begun : slot.Begun)
    {request : Request} (free : slot.gen = 0 ∨ slot.ended slot.gen = true)
    (handled : slot.handler = none) :
    Owned { slot with
      gen := slot.gen + 1
      request := request
      ctx := { slot.ctx with op := request.op }
      queueCalls := Function.update slot.queueCalls (slot.gen + 1) (some .setDone) } := by
  constructor
  · rfl
  · intro _ run here current
    have bound := owned.bound run here
    simp only at current
    omega
  · intro run here wins
    exact absurd wins (begun.noWinner free here)
  · intro run here
    have bound := owned.bound run here
    simp only
    omega
  · intro run here old
    left
    simp
  · intro handler here
    simp [handled] at here
  · exact owned.endings

theorem WorkMove.notReturning {view next : WorkView} (move : WorkMove view next) :
    view.run.point ≠ .returning := by
  intro returning
  cases move.flags with
  | quiet same before => simp [returning, RunPoint.isLive] at before
  | aborts same abort before => simp [returning, RunPoint.isLive] at before
  | loses same done before => simp [returning] at before
  | wins marked undone before => simp [returning] at before
  | ends same before => simp [returning] at before

theorem WorkMove.winner {view next : WorkView} (move : WorkMove view next)
    (won : next.run.point = .endRequest) :
    view.run.point = .outEnd ∧ view.ctx.done = false ∧ next.run.ret = view.run.ret := by
  cases move with
  | wins here undone => exact ⟨here, undone, rfl⟩
  | ups here =>
      simp only [upLock] at won
      split at won <;> contradiction
  | lowers here =>
      simp only [lowerWrites] at won
      split at won <;> contradiction
  | _ => contradiction

section AfterWork

variable (slot : SlotState) (run : Run) (view : WorkView)

@[simp] theorem afterWork_gen : (slot.afterWork run view).gen = slot.gen := by
  simp only [SlotState.afterWork, SlotState.endRequest]
  split <;> rfl

@[simp] theorem afterWork_request : (slot.afterWork run view).request = slot.request := by
  simp only [SlotState.afterWork, SlotState.endRequest]
  split <;> rfl

@[simp] theorem afterWork_ctx : (slot.afterWork run view).ctx = view.ctx := by
  simp only [SlotState.afterWork, SlotState.endRequest]
  split <;> rfl

@[simp] theorem afterWork_queueCalls :
    (slot.afterWork run view).queueCalls = slot.queueCalls := by
  simp only [SlotState.afterWork, SlotState.endRequest]
  split <;> rfl

@[simp] theorem afterWork_pending : (slot.afterWork run view).pending = slot.pending := by
  simp only [SlotState.afterWork, SlotState.endRequest]
  split <;> rfl

@[simp] theorem afterWork_run : (slot.afterWork run view).run = some view.run := by
  simp only [SlotState.afterWork, SlotState.endRequest]
  split <;> rfl

@[simp] theorem afterWork_handler : (slot.afterWork run view).handler = slot.handler := by
  simp only [SlotState.afterWork, SlotState.endRequest]
  split <;> rfl

theorem afterWork_endings : slot.endings ⊆ (slot.afterWork run view).endings := by
  simp only [SlotState.afterWork, SlotState.endRequest]
  split
  · exact List.subset_append_left _ _
  · exact fun _ member => member

end AfterWork

theorem Owned.worked {dev : RbullDev} {pages : Pages} {slot : SlotState} (owned : Owned slot)
    (begun : slot.Begun) {run : Run} {view : WorkView} (here : slot.run = some run)
    (own : slot.CompletesOwn .work) (move : WorkMove ⟨dev, pages, slot.ctx, run⟩ view) :
    Owned (slot.afterWork run view) := by
  have gens : view.run.gen = run.gen := move.gen
  constructor
  · rw [afterWork_ctx, afterWork_request, move.op]
    exact owned.op
  · intro unended other found current returns
    have before := unended_of_subset (afterWork_endings slot run view) unended
    simp only [afterWork_run, Option.some.injEq, afterWork_gen, afterWork_request] at *
    subst found
    apply move.accounted _ _ returns
    · intro flush
      apply slot.request.flushEmpty
      rw [← owned.op]
      exact flush
    · exact owned.run before run here (gens.symm.trans current) move.notReturning
  · intro other found won ok
    simp only [afterWork_run, Option.some.injEq, afterWork_gen] at *
    subst found
    obtain ⟨before, undone, ret⟩ := move.winner won
    rw [gens]
    exact own run here before (ret.symm.trans ok) undone
  · intro other found
    simp only [afterWork_run, Option.some.injEq, afterWork_gen] at *
    subst found
    rw [gens]
    exact owned.bound run here
  · intro other found old
    simp only [afterWork_run, Option.some.injEq, afterWork_gen, afterWork_queueCalls,
      afterWork_pending] at *
    subst found
    exact owned.stale run here (gens ▸ old)
  · intro handler found
    rw [afterWork_handler] at found
    rw [afterWork_gen]
    exact owned.handler handler found
  · intro ending member
    simp only [SlotState.afterWork] at member
    split at member
    · rename_i ends
      simp only [SlotState.endRequest, List.mem_append, List.mem_singleton] at member
      rcases member with old | new
      · exact owned.endings ending old
      · subst new
        intro ok
        have current := owned.winner run here ends ok
        have unended := begun.unended_of_winner here ends
        have all := (owned.run unended run here current move.notReturning).all ok
        simp only [Run.ahead, ends, List.append_nil] at all
        simp only [current, all]
    · exact owned.endings ending member

theorem Owned.startsWork {slot : SlotState} (owned : Owned slot) :
    Owned { slot with
      pending := false
      run := some (Run.start slot.gen slot.rq slot.ctx.op) } := by
  constructor
  · exact owned.op
  · intro unended run here _ _
    have before : ¬slot.ended slot.gen = true := Bool.eq_false_iff.mp unended
    have undrained : slot.rq = slot.request := by rw [SlotState.rq, if_neg before]
    simp only [Option.some.injEq, owned.op, undrained] at here
    subst here
    exact accounted_start slot.gen slot.request
  · intro run here won
    simp only [Option.some.injEq] at here
    subst here
    have live := run_start_live slot.gen slot.rq slot.ctx.op
    simp [won, RunPoint.isLive] at live
  · intro run here
    simp only [Option.some.injEq] at here
    subst here
    exact le_refl _
  · intro run here old
    simp only [Option.some.injEq] at here
    subst here
    exact absurd rfl old
  · exact owned.handler
  · exact owned.endings

theorem Owned.finishes {slot : SlotState} (owned : Owned slot) : Owned { slot with run := none } := by
  constructor
  · exact owned.op
  · intro _ run here
    simp at here
  · intro run here
    simp at here
  · intro run here
    simp at here
  · intro run here
    simp at here
  · exact owned.handler
  · exact owned.endings

theorem Owned.move {dev dev' : RbullDev} {pages pages' : Pages} {slot next : SlotState}
    {action : SlotAction} (owned : Owned slot) (begun : slot.Begun)
    (own : slot.CompletesOwn action) (move : SlotMove dev pages slot action dev' pages' next) :
    Owned next := by
  cases move with
  | queued free ordinary => exact owned.queued begun free own
  | clearsDone here =>
      exact owned.framed rfl rfl rfl rfl (called_setCall _ _) owned.handler
        (List.Subset.refl _) owned.endings
  | clearsAbort here =>
      exact owned.framed rfl rfl rfl rfl (called_setCall _ _) owned.handler
        (List.Subset.refl _) owned.endings
  | startsRequest here =>
      exact owned.framed rfl rfl rfl rfl (called_setCall _ _) owned.handler
        (List.Subset.refl _) owned.endings
  | queuesWork here =>
      exact owned.framed rfl rfl rfl rfl (fun _ => .inr rfl) owned.handler
        (List.Subset.refl _) owned.endings
  | startsWork pending idle => exact owned.startsWork
  | works here move => exact owned.worked begun here own move
  | finishes here returning => exact owned.finishes
  | timesOut inFlight idle =>
      refine owned.framed rfl rfl rfl rfl id ?_ (List.Subset.refl _) owned.endings
      intro handler here
      simp only [Option.some.injEq] at here
      rw [← here]
  | setsAbort here =>
      refine owned.framed rfl rfl rfl rfl id ?_ (List.Subset.refl _) owned.endings
      have current := owned.handler _ here
      intro handler found
      simp only [Option.some.injEq] at found
      subst found
      exact current
  | timeoutLoses here done =>
      refine owned.framed rfl rfl rfl rfl id ?_ (List.Subset.refl _) owned.endings
      intro handler found
      simp at found
  | timeoutWins here undone =>
      refine owned.framed rfl rfl rfl rfl id ?_ (List.Subset.refl _) owned.endings
      have current := owned.handler _ here
      intro handler found
      simp only [Option.some.injEq] at found
      subst found
      exact current
  | timeoutEnds here =>
      refine owned.framed rfl rfl rfl rfl id ?_ (List.subset_append_left _ _) ?_
      · intro handler found
        simp [SlotState.endRequest] at found
      · intro ending member
        simp only [SlotState.endRequest, List.mem_append, List.mem_singleton] at member
        rcases member with old | new
        · exact owned.endings ending old
        · subst new
          intro ok
          contradiction

theorem Rounds.requestsEnded {slot : SlotState} (rounds : Rounds slot) (owned : Owned slot) :
    RequestsEnded slot := by
  have count := rounds.count
  have once := rounds.once
  refine ⟨?_, ?_, owned.endings⟩
  · rw [rounds.order]
    exact List.nodup_range'
  · intro gen positive bound unattended
    obtain ⟨called, pending, running, handling⟩ := unattended
    rw [rounds.ended_iff]
    refine ⟨positive, ?_⟩
    by_contra missing
    have current : gen = slot.gen := by omega
    subst current
    have idle := pending rfl
    have unclaimed : unopened (slot.queueCalls slot.gen) = 0 := by rw [called]; rfl
    have noHandler : slot.handler = none := by
      cases found : slot.handler with
      | none => rfl
      | some handler => exact absurd (owned.handler handler found) (handling handler found)
    have lost : wonByTimeout slot.handler = 0 := by rw [noHandler]; rfl
    cases found : slot.run with
    | none =>
        have opened : slot.ctx.done = false := by
          cases done : slot.ctx.done with
          | false => rfl
          | true =>
              rw [found, done] at count
              simp only [wonByRun_none, openRound_true] at count
              omega
        rcases rounds.served opened with call | waiting | ⟨run, here, _⟩ | handled
        · exact call called
        · rw [idle] at waiting
          contradiction
        · rw [found] at here
          contradiction
        · exact handled noHandler
    -- a run of an older request has kept the slot's own work from starting
    | some run =>
        have old := running run found
        rcases owned.stale run found old with call | waiting
        · exact call called
        · rw [idle] at waiting
          contradiction

theorem SlotState.Begun.requestsEnded {slot : SlotState} (begun : slot.Begun)
    (owned : Owned slot) : RequestsEnded slot := by
  rcases begun with rounds | rfl | ⟨request, first⟩
  · exact rounds.requestsEnded owned
  · refine ⟨List.nodup_nil, ?_, owned.endings⟩
    intro gen positive bound
    simp only [SlotState.init] at bound
    omega
  · simp only [rbullQueueRq] at first
    split at first
    · cases first
      refine ⟨List.nodup_nil, ?_, owned.endings⟩
      intro gen positive bound unattended
      simp only [SlotState.init] at bound
      have only : gen = 1 := by omega
      subst only
      have called := unattended.1
      simp [SlotState.init] at called
    · contradiction

section System

variable {Slot Hctx : Type}

def CompletesOwn (sys : RbullSys Slot) (action : Slot × SlotAction) : Prop :=
  (sys.slots action.1).CompletesOwn action.2

def AllRequestsEnded (sys : RbullSys Slot) : Prop := ∀ slot, RequestsEnded (sys.slots slot)

structure SlotsInvariant (sys : RbullSys Slot) : Prop where
  begun : ∀ slot, (sys.slots slot).Begun
  owned : ∀ slot, Owned (sys.slots slot)

theorem slotsInvariant_loaded (diskSectorsMb : Nat) (pages : Pages) :
    SlotsInvariant (.loaded Slot diskSectorsMb pages) :=
  ⟨fun _ => .inr (.inl rfl), fun _ => owned_init⟩

variable [Fintype Slot] [DecidableEq Slot] [DecidableEq Hctx] {hctx : Slot → Hctx}

theorem slotsInvariant_step {sys next : RbullSys Slot} {action : Slot × SlotAction}
    (invariant : SlotsInvariant sys) (own : CompletesOwn sys action)
    (taken : rbullStep hctx sys action = some next) : SlotsInvariant next := by
  obtain ⟨slot, action⟩ := action
  constructor
  · exact slots_invariant invariant.begun taken fun _ move => (invariant.begun slot).move move
  · exact slots_invariant invariant.owned taken fun _ move =>
      (invariant.owned slot).move (invariant.begun slot) own move

/-- No request is ended twice or forgotten, and BLK_STS_OK is only reported by the request's
own run, in every run of the driver in which no work run that outlived its request passes
its completion test. -/
theorem rbull_requests_ended (diskSectorsMb : Nat) (pages : Pages)
    (actions : List (Slot × SlotAction))
    (own : StepMachine.Meets (rbullStep hctx) CompletesOwn (.loaded Slot diskSectorsMb pages)
      actions) :
    StepMachine.Always (rbullStep hctx) AllRequestsEnded (.loaded Slot diskSectorsMb pages)
      actions := by
  refine StepMachine.always_of_meets ?_ ?_ (slotsInvariant_loaded diskSectorsMb pages) own
  · intro sys action next invariant own taken
    exact slotsInvariant_step invariant own taken
  · intro sys invariant slot
    exact (invariant.begun slot).requestsEnded (invariant.owned slot)

/-- Conversely, such a completion test is followed at once by an end with BLK_STS_OK that is
not the request's own. -/
theorem staleCompletion_breaks {sys : RbullSys Slot} {slot : Slot} {run : Run}
    (here : (sys.slots slot).run = some run) (tests : run.point = .outEnd) (ok : run.ret = .ok)
    (undone : (sys.slots slot).ctx.done = false) (stale : run.gen ≠ (sys.slots slot).gen) :
    ∃ next, StepMachine.run (rbullStep hctx) sys [(slot, .work), (slot, .work)] = some next ∧
      ¬ AllRequestsEnded next := by
  simp only [StepMachine.run, rbullStep, workOn, here, workStep, tests, undone,
    Bool.false_eq_true, if_false, Option.map_some, Option.bind_some, Function.update_self,
    afterWork_run, WorkView.goto, Run.goto]
  refine ⟨_, rfl, ?_⟩
  intro ended
  have honest := (ended slot).processed
  simp only [Function.update_self, SlotState.afterWork, tests, reduceCtorEq, if_false, if_true,
    SlotState.endRequest, List.mem_append, List.mem_singleton] at honest
  have claimed := honest _ (.inr rfl) ok
  simp only [Option.some.injEq, Prod.mk.injEq] at claimed
  exact stale claimed.1

end System

instance (slot : SlotState) (action : SlotAction) : Decidable (slot.CompletesOwn action) :=
  match action with
  | .queueRq _ => inferInstanceAs (Decidable (slot.handler = none))
  | .work =>
      match found : slot.run with
      | none => isTrue fun _ here => by
          rw [found] at here
          contradiction
      | some run =>
          decidable_of_iff (run.point = .outEnd → run.ret = .ok → slot.ctx.done = false →
            run.gen = slot.gen) <| by
              simp only [SlotState.CompletesOwn, found, Option.some.injEq, forall_eq']
  | .queueStep _ => isTrue trivial
  | .startWork => isTrue trivial
  | .finishWork => isTrue trivial
  | .timeout => isTrue trivial
  | .timeoutStep => isTrue trivial

instance {Slot : Type} (sys : RbullSys Slot) (action : Slot × SlotAction) :
    Decidable (CompletesOwn sys action) :=
  inferInstanceAs (Decidable ((sys.slots action.1).CompletesOwn action.2))

def writeOf (pos : Nat) (segments : List BioVec) : Request :=
  { pos := pos, op := .write, segments := segments, flushEmpty := nofun }

def queueAll (gen : Nat) (request : Request) : List (Bool × SlotAction) :=
  (true, .queueRq request) :: List.replicate 4 (true, .queueStep gen)

def onePage : Pages := fun _ => List.replicate 4096 7

def oneWrite : List (Bool × SlotAction) :=
  queueAll 1 (writeOf 0 [⟨0, 0, 512⟩]) ++ (true, .startWork) :: List.replicate 9 (true, .work) ++
    [(true, .finishWork)]

theorem rbull_requests_ended_oneWrite :
    StepMachine.Always (rbullStep fun _ => ()) AllRequestsEnded (.loaded Bool 64 onePage)
      oneWrite := by
  apply rbull_requests_ended
  decide +kernel

/-- The timeout handler ends a write that has only its completion test left; blk-mq uses the
slot for a second write, whose `done` the first run then takes. -/
def staleCompletion : List (Bool × SlotAction) :=
  queueAll 1 (writeOf 0 [⟨0, 0, 512⟩]) ++ (true, .startWork) :: List.replicate 7 (true, .work) ++
    [(true, .timeout), (true, .timeoutStep), (true, .timeoutStep), (true, .timeoutStep),
      (true, .queueRq (writeOf 8 [⟨1, 0, 512⟩])), (true, .queueStep 2), (true, .work),
      (true, .work)]

theorem staleCompletion_endings :
    ((StepMachine.run (rbullStep fun _ => ()) (.loaded Bool 64 onePage) staleCompletion).map
      fun sys => (sys.slots true).endings) =
    some [⟨1, [⟨0, 0, 512⟩], .timeout, none⟩,
      ⟨2, [⟨1, 0, 512⟩], .ok, some (1, [⟨0, 0, 512⟩])⟩] := by
  decide +kernel

theorem rbull_requests_ended_staleCompletion :
    ¬ StepMachine.Always (rbullStep fun _ => ()) AllRequestsEnded (.loaded Bool 64 onePage)
      staleCompletion := by
  intro always
  obtain ⟨sys, ended, endings⟩ := always.observed staleCompletion_endings
  have honest := (ended true).processed
  rw [endings] at honest
  have claimed := honest ⟨2, [⟨1, 0, 512⟩], .ok, some (1, [⟨0, 0, 512⟩])⟩ (by simp) rfl
  simp at claimed

end Ldd3.Rbull
