import Mathlib.Tactic
import Ldd3.Lib.Measure
import Ldd3.Impair.Lifecycle

/-!
`impair_close` comes to its end: with no more senders the timers run out, every poll takes
packets or completes its NAPI, and each statement of the teardown has its turn.
-/

open scoped BigOperators

namespace Ldd3.Impair

section Poll

def PollPoint.toDo : PollPoint → Nat
  | .idle | .draining _ | .delivering _ | .returning _ => 0
  | .txComplete _ _ | .handing _ _ _ => 1
  | .receiving _ _ => 2
  | .dropping _ _ => 4
  | .pushing _ _ => 5
  | .filtering _ _ => 6
  | .copying _ _ => 7

def PollPoint.order : PollPoint → Nat
  | .idle => 4
  | .draining _ | .copying _ _ | .filtering _ _ | .pushing _ _ | .dropping _ _ | .txComplete _ _
  | .receiving _ _ | .handing _ _ _ => 3
  | .delivering _ => 2
  | .returning _ => 1

/-- A poll that spends its budget leaves its NAPI scheduled; the packets that it took pay for
the poll that follows. -/
def PollFrame.credit (poll : PollFrame) : Nat :=
  if poll.drained + poll.delivered = 0 ∧ 0 < poll.budget then 0 else 5

def PollPoint.credit : PollPoint → Nat
  | .idle => 0
  | .draining poll | .copying poll _ | .filtering poll _ | .pushing poll _ | .dropping poll _
  | .txComplete poll _ | .delivering poll | .receiving poll _ | .handing poll _ _
  | .returning poll => poll.credit

def QVector.work (qv : QVector) : Nat :=
  10 * (8 * ringUsed qv.txRing + 3 * ringUsed qv.rxRing + qv.poll.toDo) +
    5 * (qv.scheduled.toNat + qv.missed.toNat) + qv.poll.order + qv.poll.credit +
    11 * qv.timer.isSome.toNat

variable {qv : QVector} {poll : PollFrame} {skb : Skb}

theorem PollFrame.credit_le (poll : PollFrame) : poll.credit ≤ 5 := by
  rw [PollFrame.credit]
  split <;> omega

theorem Holds.used_pop {ring : ImpairRing} {skbs : List Skb} (holds : Holds ring skbs)
    (some : ring.isEmpty = false) :
    ringUsed ring = ringUsed ring.clean + 1 ∧ ∃ skb, ring.oldest = .some skb := by
  obtain ⟨skb, rest, split, oldest, cleaned⟩ := holds.pop some
  refine ⟨?_, skb, oldest⟩
  rw [holds.length_eq, cleaned.length_eq, split, List.length_cons]

theorem impairRxDrain_uses (invariant : QueueInvariant qv) (here : qv.poll = .draining poll) :
    (impairRxDrain qv poll).work < qv.work := by
  simp only [impairRxDrain]
  split
  · split
    · simp only [QVector.work, here, PollPoint.toDo, PollPoint.order, PollPoint.credit,
        PollFrame.credit]
      omega
    · rename_i some
      obtain ⟨used, skb, oldest⟩ := invariant.tx.used_pop (Bool.not_eq_true _ ▸ some)
      rw [oldest]
      simp only [QVector.work, here, used, PollPoint.toDo, PollPoint.order, PollPoint.credit]
      omega
  · simp only [QVector.work, here, PollPoint.toDo, PollPoint.order, PollPoint.credit]
    omega

theorem impairRxDeliver_uses (invariant : QueueInvariant qv) (here : qv.poll = .delivering poll) :
    (impairRxDeliver qv poll).work < qv.work := by
  simp only [impairRxDeliver]
  split
  · split
    · simp only [QVector.work, here, PollPoint.toDo, PollPoint.order, PollPoint.credit,
        PollFrame.credit]
      omega
    · rename_i some
      obtain ⟨skbs, holds, _⟩ := invariant.rx
      obtain ⟨used, skb, oldest⟩ := holds.used_pop (Bool.not_eq_true _ ▸ some)
      rw [oldest]
      simp only [QVector.work, here, used, PollPoint.toDo, PollPoint.order, PollPoint.credit]
      omega
  · simp only [QVector.work, here, PollPoint.toDo, PollPoint.order, PollPoint.credit]
    omega

theorem impairRxPush_uses (invariant : QueueInvariant qv) (stats : Stats64)
    (here : qv.poll = .pushing poll skb) : (impairRxPush qv stats poll skb).1.work < qv.work := by
  simp only [impairRxPush]
  split
  · simp only [QVector.work, here, PollPoint.toDo, PollPoint.order, PollPoint.credit]
    omega
  · rename_i room
    obtain ⟨skbs, holds, _⟩ := invariant.rx
    have used : ringUsed (qv.rxRing.fill skb) = ringUsed qv.rxRing + 1 := by
      rw [(holds.fill (Nat.pos_of_ne_zero fun full => room (by omega)) skb).length_eq,
        holds.length_eq, List.length_append, List.length_singleton]
    simp only [QVector.work, here, used, PollPoint.toDo, PollPoint.order, PollPoint.credit]
    omega

theorem impairPollReturn_uses (running : qv.poll ≠ .idle → qv.scheduled = true)
    (here : qv.poll = .returning poll) : (impairPollReturn qv poll).work < qv.work := by
  have scheduled : qv.scheduled = true := running (here ▸ PollPoint.noConfusion)
  simp only [impairPollReturn]
  split
  · simp only [QVector.work, napiCompleteDone, here, scheduled, PollPoint.toDo, PollPoint.order,
      PollPoint.credit, Bool.toNat_true, Bool.toNat_false]
    omega
  · rename_i spent
    have credit : poll.credit = 5 := by
      rw [PollFrame.credit, if_neg]
      omega
    simp only [QVector.work, here, credit, PollPoint.toDo, PollPoint.order, PollPoint.credit]
    omega

theorem impairPoll_uses {rxFilter : RxFilterState} {rxCsum copyFails : Bool} {next : QVector}
    {stats after : Stats64} (invariant : QueueInvariant qv)
    (running : qv.poll ≠ .idle → qv.scheduled = true)
    (taken : impairPoll rxFilter rxCsum copyFails qv stats qv.poll = some (next, after)) :
    next.work < qv.work := by
  cases here : qv.poll with
  | idle =>
      rw [here] at taken
      contradiction
  | draining poll =>
      rw [here, impairPoll, Option.some.injEq, Prod.mk.injEq] at taken
      exact taken.1 ▸ impairRxDrain_uses invariant here
  | delivering poll =>
      rw [here, impairPoll, Option.some.injEq, Prod.mk.injEq] at taken
      exact taken.1 ▸ impairRxDeliver_uses invariant here
  | returning poll =>
      rw [here, impairPoll, Option.some.injEq, Prod.mk.injEq] at taken
      exact taken.1 ▸ impairPollReturn_uses running here
  | pushing poll skb =>
      rw [here, impairPoll, Option.some.injEq] at taken
      have used := impairRxPush_uses invariant stats here
      rwa [taken] at used
  | copying poll skb =>
      rw [here, impairPoll] at taken
      split at taken
      · rw [Option.some.injEq, Prod.mk.injEq] at taken
        rw [← taken.1]
        simp only [QVector.work, here, PollPoint.toDo, PollPoint.order, PollPoint.credit]
        omega
      · split at taken
        all_goals
          rw [Option.some.injEq, Prod.mk.injEq] at taken
          rw [← taken.1]
          simp only [QVector.work, here, PollPoint.toDo, PollPoint.order, PollPoint.credit]
          omega
  | filtering poll skb =>
      rw [here, impairPoll] at taken
      split at taken
      all_goals
        rw [Option.some.injEq, Prod.mk.injEq] at taken
        rw [← taken.1]
        simp only [QVector.work, here, PollPoint.toDo, PollPoint.order, PollPoint.credit]
        omega
  | dropping poll skb | receiving poll skb =>
      rw [here, impairPoll, Option.some.injEq, Prod.mk.injEq] at taken
      rw [← taken.1]
      simp only [QVector.work, here, PollPoint.toDo, PollPoint.order, PollPoint.credit]
      omega
  | txComplete poll skb =>
      have credit := PollFrame.credit_le { poll with drained := poll.drained + 1 }
      rw [here, impairPoll, Option.some.injEq, Prod.mk.injEq] at taken
      rw [← taken.1]
      simp only [QVector.work, here, PollPoint.toDo, PollPoint.order, PollPoint.credit]
      omega
  | handing poll skb ipSummed =>
      have credit := PollFrame.credit_le { poll with delivered := poll.delivered + 1 }
      rw [here, impairPoll, Option.some.injEq, Prod.mk.injEq] at taken
      rw [← taken.1]
      simp only [QVector.work, here, PollPoint.toDo, PollPoint.order, PollPoint.credit]
      omega

theorem implTimerHandler_uses {expiry : Nat} (pending : qv.timer = some expiry) :
    (implTimerHandler qv).work < qv.work := by
  have passes : true.toNat + (qv.missed || qv.scheduled).toNat ≤
      qv.scheduled.toNat + qv.missed.toNat + 1 := by
    cases qv.scheduled <;> cases qv.missed <;> decide
  simp only [QVector.work, implTimerHandler, napiSchedule, pending, Option.isSome_some,
    Option.isSome_none, Bool.toNat_true, Bool.toNat_false] at passes ⊢
  omega

theorem running_move {delay jiffies : Nat} {next : QVector} {stats after : Stats64}
    {action : QAction} (running : qv.poll ≠ .idle → qv.scheduled = true)
    (move : QMove delay jiffies qv stats action next after) :
    next.poll ≠ .idle → next.scheduled = true := by
  cases move with
  | refuses | accepts | arms | timesOut | rearms | wakes => exact running
  | expires => exact fun _ => rfl
  | polls scheduled => exact fun _ => scheduled
  | rejects here | forwards here =>
      have runs : qv.poll ≠ .idle := by
        intro idle
        rw [idle] at here
        contradiction
      exact fun _ => running runs
  | drained here | pops here | drainsAll here | pushes here | drops here | completes here
  | delivered here | takes here | deliversAll here | receives here | hands here =>
      exact fun _ => running (here ▸ PollPoint.noConfusion)
  | napiCompletes | returns => exact fun runs => absurd rfl runs

end Poll

section Teardown

variable {count delay : Nat} {first : Stats64} {interface next : Interface count}

def Phase.left (count : Nat) : Phase → Nat
  | .down | .up => 0
  | .closing index next => if index < count then 4 * (count - index) - next.position + 1 else 1

def Interface.work (interface : Interface count) : Nat :=
  ∑ queue, (interface.sys.qVect queue).work + interface.phase.left count

/-- What goes on once nobody sends any more; a poll is given a budget. -/
def LifeAction.ofTeardown : LifeAction count → Bool
  | .freeNext => true
  | .act (.queue _ (.poll budget)) => decide (0 < budget)
  | .act (.queue _ .expire) | .act (.queue _ (.proceed _)) => true
  | .act (.queue _ (.tx _)) | .act (.queue _ .modTimer) | .act (.queue _ .txTimeout)
  | .act (.queue _ .watchdog) | .act (.setRxMode _ _ _ _) | .act (.setMacAddress _)
  | .act (.setRxCsum _) | .act .tick | .impairOpen _ | .impairClose => false

structure CloseInvariant (first : Stats64) (interface : Interface count) : Prop where
  life : LifeInvariant first interface
  running : ∀ queue, (interface.sys.qVect queue).poll ≠ .idle →
    (interface.sys.qVect queue).scheduled = true

theorem qStep_uses {qv after : QVector} {stats : Stats64} {sys : ImpairSys (Fin count)}
    {queue : Fin count} {action : QAction} (invariant : QueueInvariant qv)
    (running : qv.poll ≠ .idle → qv.scheduled = true)
    (teardown : (LifeAction.act (.queue queue action)).ofTeardown = true)
    (taken : qStep delay sys qv action = some (after, stats)) : after.work < qv.work := by
  cases action with
  | tx | modTimer | txTimeout | watchdog => contradiction
  | expire =>
      simp only [qStep] at taken
      split at taken
      · contradiction
      · rename_i expiry pending
        rw [Option.ite_none_right_eq_some, Option.some.injEq, Prod.mk.injEq] at taken
        exact taken.2.1 ▸ implTimerHandler_uses pending
  | poll budget =>
      rw [qStep, Option.ite_none_right_eq_some, Option.some.injEq, Prod.mk.injEq] at taken
      obtain ⟨⟨scheduled, idle⟩, polls, _⟩ := taken
      have positive : 0 < budget := of_decide_eq_true teardown
      have credit : (PollFrame.begin budget).credit = 0 := if_pos ⟨rfl, positive⟩
      rw [← polls]
      simp only [QVector.work, idle, credit, PollPoint.toDo, PollPoint.order, PollPoint.credit]
      omega
  | proceed copyFails => exact impairPoll_uses invariant running taken

theorem ringFreeAll_some {ring : ImpairRing} {skbs : List Skb} (holds : Holds ring skbs) :
    ∃ frame, ringFreeAll RING_SIZE ring = some frame := by
  have whole : Holds ring.whole skbs := by
    rw [ImpairRing.whole, ← holds.valid.size]
    exact holds
  have freed := ringFreeAll_of_holds whole holds.length_lt
  rw [Option.map_eq_some_iff] at freed
  obtain ⟨frame, done, _⟩ := freed
  exact ⟨frame, done⟩

theorem work_lt {queue : Fin count} {qv : QVector}
    (table : next.sys.qVect = Function.update interface.sys.qVect queue qv)
    (fewer : qv.work + next.phase.left count <
      (interface.sys.qVect queue).work + interface.phase.left count) :
    next.work < interface.work := by
  have sums := Counting.sum_update_nat interface.sys.qVect queue qv QVector.work
  rw [Interface.work, Interface.work, table]
  omega

theorem impairFreeQVector_uses (life : LifeInvariant first interface) {queue : Fin count}
    {statement : Statement} (closing : interface.phase = .closing queue statement)
    (freed : impairFreeQVector interface queue statement = some next) :
    next.work < interface.work := by
  have queueLife := life.queues queue
  rw [closing] at queueLife
  have inside := queue.isLt
  cases statement with
  | shutdownTimer =>
      rw [impairFreeQVector, Option.some.injEq] at freed
      subst freed
      refine work_lt rfl ?_
      simp only [closing, Phase.left, if_pos inside, Statement.position, QVector.work,
        Option.isSome_none, Bool.toNat_false]
      omega
  | disableNapi =>
      rw [impairFreeQVector, Option.ite_none_right_eq_some, Option.some.injEq] at freed
      obtain ⟨_, rfl⟩ := freed
      refine work_lt (Function.update_eq_self queue _).symm ?_
      simp only [closing, Phase.left, if_pos inside, Statement.position]
      omega
  | freeRx =>
      rw [impairFreeQVector, Option.map_eq_some_iff] at freed
      obtain ⟨frame, done, rfl⟩ := freed
      obtain ⟨_, _, empty⟩ := queueLife.freeRx done
      refine work_lt rfl ?_
      simp only [closing, Phase.left, if_pos inside, Statement.position, QVector.work, empty]
      omega
  | freeTx =>
      rw [impairFreeQVector, Option.map_eq_some_iff] at freed
      obtain ⟨frame, done, rfl⟩ := freed
      obtain ⟨_, _, empty⟩ := queueLife.freeTx done
      refine work_lt rfl ?_
      simp only [closing, Phase.left, if_pos inside, Statement.position, QVector.work, empty]
      split <;> omega

theorem impairFreeQVector_running {queue : Fin count} {statement : Statement}
    (freed : impairFreeQVector interface queue statement = some next) (other : Fin count) :
    (next.sys.qVect other).poll = (interface.sys.qVect other).poll ∧
      (next.sys.qVect other).scheduled = (interface.sys.qVect other).scheduled := by
  have updated : ∀ qv : QVector, qv.poll = (interface.sys.qVect queue).poll →
      qv.scheduled = (interface.sys.qVect queue).scheduled →
      (Function.update interface.sys.qVect queue qv other).poll = (interface.sys.qVect other).poll ∧
        (Function.update interface.sys.qVect queue qv other).scheduled =
          (interface.sys.qVect other).scheduled := by
    intro qv poll scheduled
    by_cases same : other = queue
    · subst same
      rw [Function.update_self]
      exact ⟨poll, scheduled⟩
    · rw [Function.update_of_ne same]
      exact ⟨rfl, rfl⟩
  cases statement with
  | shutdownTimer =>
      rw [impairFreeQVector, Option.some.injEq] at freed
      subst freed
      exact updated _ rfl rfl
  | disableNapi =>
      rw [impairFreeQVector, Option.ite_none_right_eq_some, Option.some.injEq] at freed
      obtain ⟨_, rfl⟩ := freed
      exact ⟨rfl, rfl⟩
  | freeRx | freeTx =>
      rw [impairFreeQVector, Option.map_eq_some_iff] at freed
      obtain ⟨frame, done, rfl⟩ := freed
      exact updated _ rfl rfl

theorem closeInvariant_step (invariant : CloseInvariant first interface)
    {action : LifeAction count} (taken : lifeStep delay interface action = some next) :
    CloseInvariant first next := by
  refine ⟨lifeInvariant_step invariant.life taken, ?_⟩
  cases action with
  | impairOpen alloc =>
      rw [lifeStep, Option.ite_none_right_eq_some, Option.some.injEq] at taken
      obtain ⟨_, rfl⟩ := taken
      rw [impairOpen]
      split
      · exact fun _ runs => absurd rfl runs
      · exact invariant.running
  | impairClose =>
      rw [lifeStep, Option.ite_none_right_eq_some, Option.some.injEq] at taken
      obtain ⟨_, rfl⟩ := taken
      exact invariant.running
  | freeNext =>
      rw [lifeStep] at taken
      split at taken
      · rw [impairFreeQVectors] at taken
        split at taken
        · intro other
          obtain ⟨poll, scheduled⟩ := impairFreeQVector_running taken other
          rw [poll, scheduled]
          exact invariant.running other
        · rw [Option.some.injEq] at taken
          subst taken
          exact invariant.running
      · contradiction
      · contradiction
  | act action =>
      cases action with
      | queue queue action =>
          rw [lifeStep, actStep, Option.ite_none_left_eq_some, Option.map_eq_some_iff] at taken
          obtain ⟨_, sys, moved, rfl⟩ := taken
          exact everyQueue_step (fun _ _ holds => holds)
            (fun _ _ _ _ _ _ holds _ move => running_move holds move) invariant.running
            (onQueue_true _ _) moved
      | setRxMode | setMacAddress | setRxCsum | tick =>
          simp only [lifeStep, actStep, Option.map_eq_some_iff, impairStep, Option.some.injEq] at taken
          obtain ⟨sys, rfl, rfl⟩ := taken
          exact invariant.running

theorem ofTeardown_uses (invariant : CloseInvariant first interface) {action : LifeAction count}
    (teardown : action.ofTeardown = true) (taken : lifeStep delay interface action = some next) :
    next.work < interface.work := by
  cases action with
  | impairOpen | impairClose => contradiction
  | freeNext =>
      rw [lifeStep] at taken
      split at taken
      · rename_i index statement closing
        rw [impairFreeQVectors] at taken
        split at taken
        · exact impairFreeQVector_uses invariant.life closing taken
        · rename_i past
          rw [Option.some.injEq] at taken
          subst taken
          simp only [Interface.work, closing, Phase.left, if_neg past]
          omega
      · contradiction
      · contradiction
  | act action =>
      cases action with
      | setRxMode | setMacAddress | setRxCsum | tick => contradiction
      | queue queue action =>
          rw [lifeStep, actStep, Option.ite_none_left_eq_some, Option.map_eq_some_iff] at taken
          obtain ⟨allowed, sys, moved, rfl⟩ := taken
          rw [impairStep, Option.map_eq_some_iff] at moved
          obtain ⟨⟨qv, stats⟩, stepped, rfl⟩ := moved
          have queueLife := invariant.life.queues queue
          have running := queueLife.live_of_move (qStep_move stepped) allowed
          have live := queueLife.live (Phase.not_passed_after _ _ (by decide) running)
          refine work_lt rfl ?_
          have fewer := qStep_uses live (invariant.running queue) teardown stepped
          exact Nat.add_lt_add_right fewer _

theorem impairFreeQVector_possible (life : LifeInvariant first interface) (queue : Fin count)
    {statement : Statement} (closing : interface.phase = .closing queue statement)
    (waits : statement = .disableNapi → (interface.sys.qVect queue).scheduled = false ∧
      (interface.sys.qVect queue).poll = .idle) :
    ∃ next, impairFreeQVector interface queue statement = some next := by
  have queueLife := life.queues queue
  rw [closing] at queueLife
  cases statement with
  | shutdownTimer => exact ⟨_, rfl⟩
  | disableNapi => exact ⟨_, if_pos (waits rfl)⟩
  | freeRx =>
      obtain ⟨skbs, holds, _⟩ := (queueLife.live (by simp [Phase.passed, Statement.position])).rx
      obtain ⟨frame, done⟩ := ringFreeAll_some holds
      exact ⟨_, by rw [impairFreeQVector, done, Option.map_some]⟩
  | freeTx =>
      obtain ⟨frame, done⟩ :=
        ringFreeAll_some (queueLife.tx (by simp [Phase.passed, Statement.position]))
      exact ⟨_, by rw [impairFreeQVector, done, Option.map_some]⟩

theorem impairPoll_possible {rxFilter : RxFilterState} {rxCsum copyFails : Bool} {qv : QVector}
    {stats : Stats64} (runs : qv.poll ≠ .idle) :
    ∃ next, impairPoll rxFilter rxCsum copyFails qv stats qv.poll = some next := by
  cases here : qv.poll with
  | idle => contradiction
  | copying poll skb =>
      rw [impairPoll]
      split
      · exact ⟨_, rfl⟩
      · split
        · exact ⟨_, rfl⟩
        · exact ⟨_, rfl⟩
  | filtering poll skb =>
      rw [impairPoll]
      split
      · exact ⟨_, rfl⟩
      · exact ⟨_, rfl⟩
  | draining | pushing | dropping | txComplete | delivering | receiving | handing | returning =>
      exact ⟨_, rfl⟩

theorem teardown_goes_on (invariant : CloseInvariant first interface) {index : Nat}
    {statement : Statement} (closing : interface.phase = .closing index statement) :
    ∃ action next, action.ofTeardown = true ∧ lifeStep delay interface action = some next := by
  by_cases inside : index < count
  · have acts : ∀ action, action.byStack = false →
        (∃ qv, qStep delay interface.sys (interface.sys.qVect ⟨index, inside⟩) action = some qv) →
        ∃ next, lifeStep delay interface (.act (.queue ⟨index, inside⟩ action)) = some next := by
      rintro action own ⟨qv, stepped⟩
      rw [lifeStep, actStep, impairStep, stepped]
      simp only [own, Bool.false_eq_true, and_false, if_false, Option.map_some]
      exact ⟨_, rfl⟩
    by_cases idle : (interface.sys.qVect ⟨index, inside⟩).poll = .idle
    · cases scheduled : (interface.sys.qVect ⟨index, inside⟩).scheduled with
      | true =>
          obtain ⟨next, taken⟩ := acts (.poll 1) rfl ⟨_, if_pos ⟨scheduled, idle⟩⟩
          exact ⟨_, next, rfl, taken⟩
      | false =>
          obtain ⟨next, freed⟩ := impairFreeQVector_possible invariant.life ⟨index, inside⟩
            closing fun _ => ⟨scheduled, idle⟩
          refine ⟨.freeNext, next, rfl, ?_⟩
          simp only [lifeStep, closing, impairFreeQVectors, dif_pos inside]
          exact freed
    · obtain ⟨next, taken⟩ := acts (.proceed false) rfl (impairPoll_possible idle)
      exact ⟨_, next, rfl, taken⟩
  · refine ⟨.freeNext, { interface with phase := .down }, rfl, ?_⟩
    simp only [lifeStep, closing, impairFreeQVectors, dif_neg inside]

theorem impairFreeQVectors_phase {index : Nat} {statement : Statement}
    (freed : impairFreeQVectors interface index statement = some next) : next.phase ≠ .up := by
  rw [impairFreeQVectors] at freed
  split at freed
  · cases statement with
    | shutdownTimer =>
        rw [impairFreeQVector, Option.some.injEq] at freed
        exact freed ▸ Phase.noConfusion
    | disableNapi =>
        rw [impairFreeQVector, Option.ite_none_right_eq_some, Option.some.injEq] at freed
        exact freed.2 ▸ Phase.noConfusion
    | freeRx | freeTx =>
        rw [impairFreeQVector, Option.map_eq_some_iff] at freed
        obtain ⟨frame, _, rfl⟩ := freed
        exact Phase.noConfusion
  · rw [Option.some.injEq] at freed
    exact freed ▸ Phase.noConfusion

theorem ofTeardown_phase {action : LifeAction count} (teardown : action.ofTeardown = true)
    (taken : lifeStep delay interface action = some next) (closing : interface.phase ≠ .up) :
    next.phase ≠ .up := by
  cases action with
  | impairOpen | impairClose => contradiction
  | freeNext =>
      rw [lifeStep] at taken
      split at taken
      · exact impairFreeQVectors_phase taken
      · contradiction
      · contradiction
  | act action =>
      cases action with
      | setRxMode | setMacAddress | setRxCsum | tick => contradiction
      | queue queue action =>
          rw [lifeStep, actStep, Option.ite_none_left_eq_some, Option.map_eq_some_iff] at taken
          obtain ⟨_, sys, _, rfl⟩ := taken
          exact closing

theorem teardown_uses :
    StepMachine.Uses (lifeStep delay) (@CloseInvariant count first)
      (fun action => action.ofTeardown = true) Interface.work := by
  intro interface action next invariant teardown taken
  exact ⟨closeInvariant_step invariant taken, ofTeardown_uses invariant teardown taken⟩

/-- Once `impair_close` has begun and until the interface comes up again, a run of its steps and
of the queues' own is no longer than the work that was left, and where it cannot be continued
the interface is down. -/
structure ClosesInTime (delay : Nat) (interface : Interface count) : Prop where
  bounded : ∀ actions final, (∀ action ∈ actions, action.ofTeardown = true) →
    StepMachine.run (lifeStep delay) interface actions = some final →
    actions.length ≤ interface.work
  ends : interface.phase ≠ .up → ∀ actions final, (∀ action ∈ actions, action.ofTeardown = true) →
    StepMachine.run (lifeStep delay) interface actions = some final →
    (∀ action, action.ofTeardown = true → lifeStep delay final action = none) →
    final.phase = .down

theorem CloseInvariant.closesInTime (invariant : CloseInvariant first interface) :
    ClosesInTime delay interface where
  bounded := by
    intro actions final listed ran
    have used := (teardown_uses.run invariant listed ran).2
    omega
  ends := by
    intro closing actions final listed ran stuck
    have kept := (teardown_uses.run invariant listed ran).1
    have still : final.phase ≠ .up := by
      induction actions generalizing interface with
      | nil =>
          simp only [StepMachine.run_nil, Option.some.injEq] at ran
          exact ran ▸ closing
      | cons action rest ih =>
          obtain ⟨next, taken, ranRest⟩ := StepMachine.run_cons_inv ran
          have teardown := listed action List.mem_cons_self
          exact ih (closeInvariant_step invariant taken) (ofTeardown_phase teardown taken closing)
            (fun later member => listed later (List.mem_cons_of_mem action member)) ranRest
    cases here : final.phase with
    | up => exact absurd here still
    | down => rfl
    | closing index statement =>
        obtain ⟨action, next, teardown, taken⟩ := teardown_goes_on kept here
        rw [stuck action teardown] at taken
        contradiction

theorem close_ends (count delay : Nat) (first : Stats64) (rxFilter : RxFilterState)
    (rxCsum : Bool) (jiffies : Nat) (actions : List (LifeAction count)) :
    StepMachine.Always (lifeStep delay) (ClosesInTime delay)
      (.registered count first rxFilter rxCsum jiffies) actions := by
  have preserved : ∀ (interface : Interface count) action next, CloseInvariant first interface →
      True → lifeStep delay interface action = some next → CloseInvariant first next :=
    fun _ _ _ invariant _ taken => closeInvariant_step invariant taken
  have initial : CloseInvariant first (.registered count first rxFilter rxCsum jiffies) :=
    ⟨lifeInvariant_registered rxFilter rxCsum jiffies, fun _ runs => absurd rfl runs⟩
  exact StepMachine.always_of_meets preserved (fun _ invariant => invariant.closesInTime) initial
    (StepMachine.meets_true _ _)

end Teardown

end Ldd3.Impair
