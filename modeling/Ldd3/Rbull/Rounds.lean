import Mathlib.Tactic
import Ldd3.Lib.StepMachine
import Ldd3.Rbull.Core
import Ldd3.Rbull.Steps

/-!
The end of the requests of a slot. `done` is opened once for each request and taken once
by a completion test, so that requests and ends alternate whoever takes it.
-/

namespace Ldd3.Rbull

def openRound (done : Bool) : Nat := if done then 0 else 1

def wonByRun : Option Run → Nat
  | none => 0
  | some run => if run.point = .endRequest then 1 else 0

def wonByTimeout : Option Handler → Nat
  | none => 0
  | some handler => if handler.point = .endRequest then 1 else 0

def unopened : Option QueuePoint → Nat
  | some .setDone => 1
  | _ => 0

def SlotState.Live (slot : SlotState) (gen : Nat) : Prop :=
  ∃ run, slot.run = some run ∧ run.gen = gen ∧ run.point.isLive = true

/-- Something of the slot's request is still to come: its `rbull_queue_rq`, its run or a
timeout handler. -/
def SlotState.Served (slot : SlotState) : Prop :=
  slot.queueCalls slot.gen ≠ none ∨ slot.pending = true ∨ slot.Live slot.gen ∨ slot.handler ≠ none

def SlotState.AbortAnswered (slot : SlotState) : Prop :=
  slot.queueCalls slot.gen = some .setAbort ∨
    ∃ handler, slot.handler = some handler ∧ handler.point = .cmpxchg

structure Rounds (slot : SlotState) : Prop where
  order : slot.endings.map Ending.gen = List.range' 1 slot.endings.length
  -- each request is ended, or its round is won, open or still to be opened
  count : slot.endings.length + wonByRun slot.run + wonByTimeout slot.handler +
    openRound slot.ctx.done + unopened (slot.queueCalls slot.gen) = slot.gen
  once : slot.gen ≤ slot.endings.length + 1
  calls : ∀ gen, slot.gen < gen → slot.queueCalls gen = none
  clears : ∀ gen, slot.queueCalls gen = some .setDone → gen = slot.gen
  served : slot.ctx.done = false → slot.Served
  aborts : slot.ctx.done = false → slot.ctx.abort = true → slot.AbortAnswered

@[simp] theorem openRound_true : openRound true = 0 := rfl

@[simp] theorem openRound_false : openRound false = 1 := rfl

@[simp] theorem unopened_setDone : unopened (some .setDone) = 1 := rfl

theorem unopened_of_ne {call : Option QueuePoint} (opened : call ≠ some .setDone) :
    unopened call = 0 := by
  cases call with
  | none => rfl
  | some point =>
      cases point with
      | setDone => exact absurd rfl opened
      | setAbort => rfl
      | startRequest => rfl
      | queueWork => rfl

@[simp] theorem wonByRun_none : wonByRun none = 0 := rfl

theorem wonByRun_of_ne {run : Run} (elsewhere : run.point ≠ .endRequest) :
    wonByRun (some run) = 0 := by
  simp only [wonByRun, if_neg elsewhere]

theorem wonByRun_of_live {run : Run} (live : run.point.isLive = true) :
    wonByRun (some run) = 0 := by
  apply wonByRun_of_ne
  intro ends
  simp [ends, RunPoint.isLive] at live

theorem wonByRun_of_endRequest {run : Run} (here : run.point = .endRequest) :
    wonByRun (some run) = 1 := by
  simp only [wonByRun, if_pos here]

theorem done_of_openRound {done : Bool} (closed : openRound done = 0) : done = true := by
  cases done with
  | true => rfl
  | false => contradiction

theorem run_start_live (gen : Nat) (request : Request) (op : ReqOp) :
    (Run.start gen request op).point.isLive = true := by
  simp only [Run.start]
  split <;> rfl

theorem ended_iff (slot : SlotState) (gen : Nat) :
    slot.ended gen = true ↔ gen ∈ slot.endings.map Ending.gen := by
  simp [SlotState.ended, List.any_eq_true]

theorem Rounds.ended_iff {slot : SlotState} (rounds : Rounds slot) (gen : Nat) :
    gen ∈ slot.endings.map Ending.gen ↔ 1 ≤ gen ∧ gen ≤ slot.endings.length := by
  rw [rounds.order, List.mem_range'_1]
  omega

theorem Rounds.length_of_free {slot : SlotState} (rounds : Rounds slot)
    (free : slot.gen = 0 ∨ slot.ended slot.gen = true) : slot.endings.length = slot.gen := by
  have count := rounds.count
  rcases free with unused | ended
  · omega
  · have bounds := (rounds.ended_iff slot.gen).mp ((Rbull.ended_iff slot slot.gen).mp ended)
    omega

theorem Rounds.unended_of_winner {slot : SlotState} (rounds : Rounds slot)
    (won : wonByRun slot.run = 1) : slot.ended slot.gen = false := by
  have count := rounds.count
  rw [Bool.eq_false_iff, Ne, Rbull.ended_iff, rounds.ended_iff]
  omega

theorem Rounds.queued {slot : SlotState} (rounds : Rounds slot) (request : Request)
    (free : slot.gen = 0 ∨ slot.ended slot.gen = true) :
    Rounds { slot with
      gen := slot.gen + 1
      request := request
      ctx := { slot.ctx with op := request.op }
      queueCalls := Function.update slot.queueCalls (slot.gen + 1) (some .setDone) } := by
  have all := rounds.length_of_free free
  have count := rounds.count
  have closed : slot.ctx.done = true := done_of_openRound (by omega)
  constructor
  · exact rounds.order
  · simp only [Function.update_self, unopened_setDone]
    omega
  · simp only [all]
    omega
  · intro gen later
    simp only at later
    simp only [Function.update_of_ne (show gen ≠ slot.gen + 1 by omega)]
    exact rounds.calls gen (by omega)
  · intro gen clearing
    by_contra other
    simp only [Function.update_of_ne other] at clearing
    have same := rounds.clears gen clearing
    rw [same] at clearing
    simp only [clearing, unopened_setDone] at count
    omega
  · intro opened
    simp [closed] at opened
  · intro opened
    simp [closed] at opened

theorem Rounds.clearsDone {slot : SlotState} (rounds : Rounds slot) {gen : Nat}
    (here : slot.queueCalls gen = some .setDone) :
    Rounds ({ slot with ctx := { slot.ctx with done := false } }.setCall gen (some .setAbort)) := by
  have current := rounds.clears gen here
  subst current
  have count := rounds.count
  have once := rounds.once
  simp only [here, unopened_setDone] at count
  have opened : unopened (some .setAbort) = 0 := rfl
  constructor
  · exact rounds.order
  · simp only [SlotState.setCall, Function.update_self, openRound_false, opened]
    omega
  · exact once
  · intro later after
    simp only [SlotState.setCall] at after ⊢
    rw [Function.update_of_ne (by omega)]
    exact rounds.calls later after
  · intro other clearing
    simp only [SlotState.setCall, Function.update_apply] at clearing ⊢
    split at clearing
    · assumption
    · exact rounds.clears other clearing
  · intro _
    left
    simp [SlotState.setCall]
  · intro _ _
    left
    simp [SlotState.setCall]

theorem Rounds.called {slot next : SlotState} (rounds : Rounds slot) {gen : Nat}
    {point : QueuePoint} {call : Option QueuePoint} (here : slot.queueCalls gen = some point)
    (opened : point ≠ .setDone) (next_ne : call ≠ some .setDone)
    (calls : next.queueCalls = Function.update slot.queueCalls gen call)
    (gens : next.gen = slot.gen) (endings : next.endings = slot.endings)
    (run : next.run = slot.run) (handler : next.handler = slot.handler)
    (done : next.ctx.done = slot.ctx.done)
    (served : slot.ctx.done = false → next.Served)
    (aborts : slot.ctx.done = false → next.ctx.abort = true → next.AbortAnswered) :
    Rounds next := by
  have same : unopened (next.queueCalls next.gen) = unopened (slot.queueCalls slot.gen) := by
    rw [calls, gens, Function.update_apply]
    split
    · rename_i current
      rw [unopened_of_ne next_ne, unopened_of_ne]
      rw [current, here]
      simpa using opened
    · rfl
  constructor
  · rw [endings]
    exact rounds.order
  · rw [same, endings, run, handler, done, gens]
    exact rounds.count
  · rw [gens, endings]
    exact rounds.once
  · intro later after
    rw [gens] at after
    rw [calls, Function.update_of_ne]
    · exact rounds.calls later after
    · rintro rfl
      rw [rounds.calls later after] at here
      contradiction
  · intro other clearing
    rw [calls, Function.update_apply] at clearing
    rw [gens]
    split at clearing
    · exact absurd clearing next_ne
    · exact rounds.clears other clearing
  · rw [done]
    exact served
  · rw [done]
    exact aborts

theorem Rounds.moved {slot next : SlotState} (rounds : Rounds slot)
    (calls : next.queueCalls = slot.queueCalls) (gens : next.gen = slot.gen)
    (endings : next.endings = slot.endings)
    (count : wonByRun next.run + wonByTimeout next.handler + openRound next.ctx.done =
      wonByRun slot.run + wonByTimeout slot.handler + openRound slot.ctx.done)
    (served : next.ctx.done = false → next.Served)
    (aborts : next.ctx.done = false → next.ctx.abort = true → next.AbortAnswered) :
    Rounds next := by
  have before := rounds.count
  constructor
  · rw [endings]
    exact rounds.order
  · rw [calls, endings, gens]
    omega
  · rw [gens, endings]
    exact rounds.once
  · rw [gens, calls]
    exact rounds.calls
  · rw [gens, calls]
    exact rounds.clears
  · exact served
  · exact aborts

theorem Rounds.endsRequest {slot next : SlotState} (rounds : Rounds slot) {ending : Ending}
    (calls : next.queueCalls = slot.queueCalls) (gens : next.gen = slot.gen)
    (endings : next.endings = slot.endings ++ [ending]) (current : ending.gen = slot.gen)
    (done : next.ctx.done = slot.ctx.done)
    (count : wonByRun next.run + wonByTimeout next.handler + 1 =
      wonByRun slot.run + wonByTimeout slot.handler) : Rounds next := by
  have before := rounds.count
  have once := rounds.once
  have closed : slot.ctx.done = true := done_of_openRound (by omega)
  constructor
  · rw [endings, List.map_append, rounds.order, List.length_append, List.length_singleton,
      List.range'_concat, List.map_singleton, current]
    congr 2
    omega
  · rw [endings, calls, gens, done, List.length_append, List.length_singleton]
    omega
  · rw [gens, endings, List.length_append]
    omega
  · rw [gens, calls]
    exact rounds.calls
  · rw [gens, calls]
    exact rounds.clears
  · intro opened
    simp [done, closed] at opened
  · intro opened
    simp [done, closed] at opened

theorem SlotState.Served.mono {slot next : SlotState} (served : slot.Served)
    (calls : next.queueCalls = slot.queueCalls) (gens : next.gen = slot.gen)
    (pending : slot.pending = true → next.pending = true ∨ next.Live next.gen)
    (live : slot.Live slot.gen → next.Live next.gen)
    (handler : slot.handler ≠ none → next.handler ≠ none) : next.Served := by
  rcases served with called | waiting | running | handled
  · left
    rw [calls, gens]
    exact called
  · rcases pending waiting with still | running
    · exact .inr (.inl still)
    · exact .inr (.inr (.inl running))
  · exact .inr (.inr (.inl (live running)))
  · exact .inr (.inr (.inr (handler handled)))

theorem SlotState.AbortAnswered.served {slot : SlotState} (answered : slot.AbortAnswered) :
    slot.queueCalls slot.gen ≠ none ∨ slot.handler ≠ none := by
  rcases answered with clearing | ⟨handler, here, _⟩
  · left
    simp [clearing]
  · right
    simp [here]

theorem afterWork_elsewhere {slot : SlotState} {run : Run} (view : WorkView)
    (elsewhere : run.point ≠ .endRequest) :
    slot.afterWork run view =
      { slot with
        ctx := view.ctx
        run := some view.run
        copies := slot.copies ++
          (view.run.handled.drop run.handled.length).map fun seg => (run.gen, seg) } := by
  simp only [SlotState.afterWork, if_neg elsewhere]

theorem live_ne_endRequest {point : RunPoint} (live : point.isLive = true) :
    point ≠ .endRequest := by
  rintro rfl
  contradiction

theorem Rounds.worked {dev : RbullDev} {pages : Pages} {slot : SlotState} (rounds : Rounds slot)
    {run : Run} {view : WorkView} (here : slot.run = some run)
    (move : WorkMove ⟨dev, pages, slot.ctx, run⟩ view) : Rounds (slot.afterWork run view) := by
  have gens := move.gen
  cases move.flags with
  | quiet same before after =>
      simp only at same before gens
      rw [afterWork_elsewhere view (live_ne_endRequest before)]
      have unchanged : Rounds { slot with ctx := view.ctx, run := some view.run } := by
        refine rounds.moved rfl rfl rfl ?_ ?_ ?_
        · simp only [here, wonByRun_of_live before, wonByRun_of_live after, same]
        · intro undone
          simp only [same] at undone
          refine (rounds.served undone).mono rfl rfl Or.inl ?_ id
          rintro ⟨_, found, current, _⟩
          rw [here, Option.some.injEq] at found
          subst found
          exact ⟨view.run, rfl, gens.trans current, after⟩
        · intro undone abort
          simp only [same] at undone abort
          exact rounds.aborts undone abort
      exact unchanged.moved rfl rfl rfl rfl unchanged.served unchanged.aborts
  | aborts same abort before after =>
      simp only at same abort before
      rw [afterWork_elsewhere view (live_ne_endRequest before)]
      have answered : view.ctx.done = false → slot.AbortAnswered := by
        intro undone
        rw [same] at undone
        exact rounds.aborts undone abort
      refine rounds.moved rfl rfl rfl ?_ ?_ ?_
      · have returned : wonByRun (some view.run) = 0 := wonByRun_of_ne (by simp [after])
        simp only [here, wonByRun_of_live before, returned, same]
      · intro undone
        rcases (answered undone).served with called | handled
        · exact .inl called
        · exact .inr (.inr (.inr handled))
      · intro undone _
        exact answered undone
  | loses same done before after =>
      simp only at same done before
      have elsewhere : run.point ≠ .endRequest := by simp [before]
      rw [afterWork_elsewhere view elsewhere]
      refine rounds.moved rfl rfl rfl ?_ ?_ ?_
      · have returned : wonByRun (some view.run) = 0 := wonByRun_of_ne (by simp [after])
        simp only [here, wonByRun_of_ne elsewhere, returned, same]
      · intro undone
        simp [same, done] at undone
      · intro undone
        simp [same, done] at undone
  | wins marked undone before after =>
      simp only at marked undone before
      have elsewhere : run.point ≠ .endRequest := by simp [before]
      rw [afterWork_elsewhere view elsewhere]
      refine rounds.moved rfl rfl rfl ?_ ?_ ?_
      · simp only [here, wonByRun_of_ne elsewhere, wonByRun_of_endRequest after, marked, undone,
          openRound_true, openRound_false]
        omega
      · intro opened
        simp [marked] at opened
      · intro opened
        simp [marked] at opened
  | ends same before after =>
      simp only at same before
      simp only [SlotState.afterWork, if_pos before]
      refine rounds.endsRequest rfl rfl rfl rfl ?_ ?_
      · simp only [SlotState.endRequest, same]
      · have returned : wonByRun (some view.run) = 0 := wonByRun_of_ne (by simp [after])
        simp only [SlotState.endRequest, here, wonByRun_of_endRequest before, returned]
        omega

theorem served_setCall (slot : SlotState) (served : slot.Served) (gen : Nat)
    (point : QueuePoint) : (slot.setCall gen (some point)).Served := by
  rcases served with called | rest
  · left
    simp only [SlotState.setCall, Function.update_apply]
    split
    · simp
    · exact called
  · exact .inr rest

theorem Rounds.clearsAbort {slot : SlotState} (rounds : Rounds slot) {gen : Nat}
    (here : slot.queueCalls gen = some .setAbort) :
    Rounds ({ slot with ctx := { slot.ctx with abort := false } }.setCall gen
      (some .startRequest)) := by
  refine rounds.called here (by simp) (by simp) rfl rfl rfl rfl rfl rfl ?_ ?_
  · intro undone
    exact served_setCall { slot with ctx := { slot.ctx with abort := false } }
      (rounds.served undone) gen .startRequest
  · intro _ abort
    simp [SlotState.setCall] at abort

theorem Rounds.startsRequest {slot : SlotState} (rounds : Rounds slot) {gen : Nat}
    (here : slot.queueCalls gen = some .startRequest) :
    Rounds ({ slot with inFlight := true }.setCall gen (some .queueWork)) := by
  refine rounds.called here (by simp) (by simp) rfl rfl rfl rfl rfl rfl ?_ ?_
  · intro undone
    exact served_setCall { slot with inFlight := true } (rounds.served undone) gen .queueWork
  · intro undone abort
    rcases rounds.aborts undone abort with clearing | handled
    · left
      simp only [SlotState.setCall, Function.update_apply]
      split
      · rename_i current
        rw [current, here] at clearing
        contradiction
      · exact clearing
    · exact .inr handled

theorem Rounds.queuesWork {slot : SlotState} (rounds : Rounds slot) {gen : Nat}
    (here : slot.queueCalls gen = some .queueWork) :
    Rounds ({ slot with pending := true }.setCall gen none) := by
  refine rounds.called here (by simp) (by simp) rfl rfl rfl rfl rfl rfl ?_ ?_
  · intro _
    exact .inr (.inl rfl)
  · intro undone abort
    rcases rounds.aborts undone abort with clearing | handled
    · left
      simp only [SlotState.setCall, Function.update_apply]
      split
      · rename_i current
        rw [current, here] at clearing
        contradiction
      · exact clearing
    · exact .inr handled

theorem Rounds.startsWork {slot : SlotState} (rounds : Rounds slot) (idle : slot.run = none) :
    Rounds { slot with
      pending := false
      run := some (Run.start slot.gen slot.rq slot.ctx.op) } := by
  have live := run_start_live slot.gen slot.rq slot.ctx.op
  have running : SlotState.Live
      { slot with pending := false, run := some (Run.start slot.gen slot.rq slot.ctx.op) }
      slot.gen := ⟨_, rfl, rfl, live⟩
  refine rounds.moved rfl rfl rfl ?_ ?_ rounds.aborts
  · simp only [wonByRun_of_live live, idle, wonByRun_none]
  · intro _
    exact .inr (.inr (.inl running))

theorem Rounds.finishes {slot : SlotState} (rounds : Rounds slot) {run : Run}
    (here : slot.run = some run) (returning : run.point = .returning) :
    Rounds { slot with run := none } := by
  refine rounds.moved rfl rfl rfl ?_ ?_ rounds.aborts
  · have elsewhere : run.point ≠ .endRequest := by simp [returning]
    simp only [here, wonByRun_of_ne elsewhere, wonByRun_none]
  · intro undone
    refine (rounds.served undone).mono rfl rfl Or.inl ?_ id
    rintro ⟨_, found, _, live⟩
    rw [here, Option.some.injEq] at found
    subst found
    simp [returning, RunPoint.isLive] at live

theorem Rounds.handled {slot : SlotState} (rounds : Rounds slot) {handler : Handler} (ctx : Ctx)
    (count : wonByTimeout (some handler) + openRound ctx.done =
      wonByTimeout slot.handler + openRound slot.ctx.done)
    (aborts : ctx.done = false → ctx.abort = true →
      slot.queueCalls slot.gen = some .setAbort ∨ handler.point = .cmpxchg) :
    Rounds { slot with ctx := ctx, handler := some handler } := by
  refine rounds.moved rfl rfl rfl ?_ ?_ ?_
  · simp only
    omega
  · intro _
    exact .inr (.inr (.inr (by simp)))
  · intro undone abort
    rcases aborts undone abort with clearing | answers
    · exact .inl clearing
    · exact .inr ⟨handler, rfl, answers⟩

theorem Rounds.timeoutLoses {slot : SlotState} (rounds : Rounds slot) {gen : Nat}
    (here : slot.handler = some ⟨gen, .cmpxchg⟩) (done : slot.ctx.done = true) :
    Rounds { slot with handler := none } := by
  refine rounds.moved rfl rfl rfl ?_ ?_ ?_
  · simp only [here, wonByTimeout, reduceCtorEq, if_false]
  · intro undone
    simp [done] at undone
  · intro undone
    simp [done] at undone

theorem Rounds.timesOut {slot : SlotState} (rounds : Rounds slot) (idle : slot.handler = none) :
    Rounds { slot with handler := some ⟨slot.gen, .setAbort⟩ } := by
  refine rounds.handled slot.ctx ?_ ?_
  · simp only [idle, wonByTimeout, reduceCtorEq, if_false]
  · intro undone abort
    rcases rounds.aborts undone abort with clearing | ⟨handler, found, _⟩
    · exact .inl clearing
    · rw [idle] at found
      contradiction

theorem Rounds.move {dev dev' : RbullDev} {pages pages' : Pages} {slot next : SlotState}
    {action : SlotAction} (rounds : Rounds slot)
    (move : SlotMove dev pages slot action dev' pages' next) : Rounds next := by
  cases move with
  | queued free ordinary => exact rounds.queued _ free
  | clearsDone here => exact rounds.clearsDone here
  | clearsAbort here => exact rounds.clearsAbort here
  | startsRequest here => exact rounds.startsRequest here
  | queuesWork here => exact rounds.queuesWork here
  | startsWork pending idle => exact rounds.startsWork idle
  | works here move => exact rounds.worked here move
  | finishes here returning => exact rounds.finishes here returning
  | timesOut inFlight idle => exact rounds.timesOut idle
  | setsAbort here =>
      refine rounds.handled _ ?_ ?_
      · simp only [here, wonByTimeout, reduceCtorEq, if_false]
      · intro _ _
        exact .inr rfl
  | timeoutLoses here done => exact rounds.timeoutLoses here done
  | timeoutWins here undone =>
      refine rounds.handled _ ?_ ?_
      · simp [here, wonByTimeout, undone]
      · intro opened
        simp at opened
  | timeoutEnds here =>
      refine rounds.endsRequest rfl rfl rfl rfl rfl ?_
      simp [SlotState.endRequest, here, wonByTimeout]

def SlotState.Begun (slot : SlotState) : Prop :=
  Rounds slot ∨ slot = SlotState.init ∨ ∃ request, rbullQueueRq SlotState.init request = some slot

theorem rounds_init :
    Rounds { SlotState.init with ctx := { SlotState.init.ctx with done := true } } := by
  constructor
  · rfl
  · rfl
  · exact Nat.zero_le 1
  · intro gen _
    rfl
  · intro gen clearing
    simp [SlotState.init] at clearing
  · intro undone
    simp at undone
  · intro undone
    simp at undone

theorem begun_init_move {dev dev' : RbullDev} {pages pages' : Pages} {next : SlotState}
    {action : SlotAction} (move : SlotMove dev pages SlotState.init action dev' pages' next) :
    ∃ request, rbullQueueRq SlotState.init request = some next := by
  cases move with
  | queued free ordinary =>
      rename_i request
      refine ⟨request, ?_⟩
      simp only [rbullQueueRq]
      rw [if_pos ⟨free, ordinary⟩]
  | clearsDone here => simp [SlotState.init] at here
  | clearsAbort here => simp [SlotState.init] at here
  | startsRequest here => simp [SlotState.init] at here
  | queuesWork here => simp [SlotState.init] at here
  | startsWork pending => simp [SlotState.init] at pending
  | works here => simp [SlotState.init] at here
  | finishes here => simp [SlotState.init] at here
  | timesOut inFlight => simp [SlotState.init] at inFlight
  | setsAbort here => simp [SlotState.init] at here
  | timeoutLoses here => simp [SlotState.init] at here
  | timeoutWins here => simp [SlotState.init] at here
  | timeoutEnds here => simp [SlotState.init] at here

theorem begun_first_move {dev dev' : RbullDev} {pages pages' : Pages} {slot next : SlotState}
    {request : Request} {action : SlotAction}
    (first : rbullQueueRq SlotState.init request = some slot)
    (move : SlotMove dev pages slot action dev' pages' next) : Rounds next := by
  simp only [rbullQueueRq] at first
  split at first
  · rename_i allowed
    cases first
    have calls : ∀ gen point, Function.update SlotState.init.queueCalls (SlotState.init.gen + 1)
        (some QueuePoint.setDone) gen = some point → gen = 1 ∧ point = .setDone := by
      intro gen point found
      simp only [Function.update_apply] at found
      split at found
      · rename_i same
        exact ⟨same, by simpa using found.symm⟩
      · simp [SlotState.init] at found
    cases move with
    | queued free => simp [SlotState.init, SlotState.ended] at free
    -- the step overwrites done, so its value before does not matter
    | clearsDone here => exact (rounds_init.queued request (.inl rfl)).clearsDone here
    | clearsAbort here => exact absurd (calls _ _ here).2 (by simp)
    | startsRequest here => exact absurd (calls _ _ here).2 (by simp)
    | queuesWork here => exact absurd (calls _ _ here).2 (by simp)
    | startsWork pending => simp [SlotState.init] at pending
    | works here => simp [SlotState.init] at here
    | finishes here => simp [SlotState.init] at here
    | timesOut inFlight => simp [SlotState.init] at inFlight
    | setsAbort here => simp [SlotState.init] at here
    | timeoutLoses here => simp [SlotState.init] at here
    | timeoutWins here => simp [SlotState.init] at here
    | timeoutEnds here => simp [SlotState.init] at here
  · contradiction

theorem SlotState.Begun.move {dev dev' : RbullDev} {pages pages' : Pages} {slot next : SlotState}
    {action : SlotAction} (begun : slot.Begun)
    (move : SlotMove dev pages slot action dev' pages' next) : next.Begun := by
  rcases begun with rounds | rfl | ⟨request, first⟩
  · exact .inl (rounds.move move)
  · exact .inr (.inr (begun_init_move move))
  · exact .inl (begun_first_move first move)

end Ldd3.Rbull
