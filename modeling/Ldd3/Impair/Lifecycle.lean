import Mathlib.Tactic
import Ldd3.Lib.Counting
import Ldd3.Lib.StepMachine
import Ldd3.Impair.Account
import Ldd3.Impair.Sizes

/-!
The interface going up and down: `impair_open` allocates the queues, `impair_close` frees them
one statement of `impair_free_q_vectors` at a time, while the queues that it has not reached yet
go on.
-/

open scoped BigOperators

namespace Ldd3.Impair

inductive Statement
  | shutdownTimer
  | disableNapi
  | freeRx
  | freeTx
  deriving DecidableEq, Repr

def Statement.position : Statement → Nat
  | .shutdownTimer => 0
  | .disableNapi => 1
  | .freeRx => 2
  | .freeTx => 3

inductive Phase
  | down
  | up
  | closing (index : Nat) (next : Statement)
  deriving DecidableEq, Repr

def Phase.passed (phase : Phase) (statement : Statement) (queue : Nat) : Bool :=
  match phase with
  | .down => true
  | .up => false
  | .closing index next =>
      decide (queue < index) ||
        (queue == index && decide (statement.position < next.position))

/-- While the interface is down, `sys.qVect` is what the freed memory held last. `leftTx` and
`leftRx` are what the last `impair_close` found in the rings; the counts are over all times that
the interface was up. -/
structure Interface (count : Nat) where
  phase : Phase
  sys : ImpairSys (Fin count)
  leftTx : Fin count → List Skb
  leftRx : Fin count → List Skb
  acceptedBefore : Nat
  freedTx : Nat
  freedRx : Nat
  usedFreed : Bool

def Interface.registered (count : Nat) (stats : Stats64) (rxFilter : RxFilterState) (rxCsum : Bool)
    (jiffies : Nat) : Interface count :=
  { phase := .down, sys := .opened (Fin count) stats rxFilter rxCsum jiffies,
    leftTx := fun _ => [], leftRx := fun _ => [], acceptedBefore := 0, freedTx := 0, freedRx := 0,
    usedFreed := false }

def Interface.acceptedNow {count : Nat} (interface : Interface count) : Nat :=
  ∑ queue, (interface.sys.qVect queue).accepted.length

inductive LifeAction (count : Nat)
  | impairOpen (alloc : Bool)
  | impairClose
  | freeNext
  | act (action : ImpairAction (Fin count))
  deriving DecidableEq, Repr

/-- The network core calls these only on a running interface, and waits for them before it
calls `ndo_stop`. -/
def QAction.byStack : QAction → Bool
  | .tx _ | .modTimer | .txTimeout | .watchdog => true
  | .expire | .poll _ | .proceed _ => false

section Machine

variable {count : Nat}

/-- A failing `kcalloc` leaves `q_vect` null. -/
def impairOpen (interface : Interface count) (alloc : Bool) : Interface count :=
  if alloc then
    { interface with
      phase := .up
      sys := .opened (Fin count) interface.sys.stats interface.sys.rxFilter interface.sys.rxCsum
        interface.sys.jiffies
      acceptedBefore := interface.acceptedBefore + interface.acceptedNow }
  else interface

def QVector.unused (qv : QVector) : Bool := qv.arming == 0 && qv.watchdog == .idle

def impairClose (interface : Interface count) : Interface count :=
  { interface with
    phase := .closing 0 .shutdownTimer
    sys :=
      { interface.sys with
        qVect := fun queue => { interface.sys.qVect queue with stopped := true } }
    leftTx := fun _ => []
    leftRx := fun _ => [] }

def Interface.setQueue (interface : Interface count) (queue : Fin count) (qv : QVector) :
    Interface count :=
  { interface with sys := { interface.sys with qVect := Function.update interface.sys.qVect queue qv } }

/-- `napi_disable` waits until the NAPI is neither scheduled nor polling. -/
def impairFreeQVector (interface : Interface count) (queue : Fin count) :
    Statement → Option (Interface count)
  | .shutdownTimer =>
      some { interface.setQueue queue { interface.sys.qVect queue with timer := none } with
        phase := .closing queue .disableNapi }
  | .disableNapi =>
      if (interface.sys.qVect queue).scheduled = false ∧ (interface.sys.qVect queue).poll = .idle then
        some { interface with phase := .closing queue .freeRx }
      else none
  | .freeRx =>
      (ringFreeAll RING_SIZE (interface.sys.qVect queue).rxRing).map fun frame =>
        { interface.setQueue queue { interface.sys.qVect queue with rxRing := frame.ring } with
          phase := .closing queue .freeTx
          leftRx := Function.update interface.leftRx queue frame.freed
          freedRx := interface.freedRx + frame.freed.length }
  | .freeTx =>
      (ringFreeAll RING_SIZE (interface.sys.qVect queue).txRing).map fun frame =>
        { interface.setQueue queue { interface.sys.qVect queue with txRing := frame.ring } with
          phase := .closing (queue + 1) .shutdownTimer
          leftTx := Function.update interface.leftTx queue frame.freed
          freedTx := interface.freedTx + frame.freed.length }

def impairFreeQVectors (interface : Interface count) (index : Nat) (next : Statement) :
    Option (Interface count) :=
  if inside : index < count then impairFreeQVector interface ⟨index, inside⟩ next
  else some { interface with phase := .down }

/-- A timer or a NAPI that goes off while the interface is down uses the freed queues. -/
def actStep (delay : Nat) (interface : Interface count) :
    ImpairAction (Fin count) → Option (Interface count)
  | .queue queue action =>
      if interface.phase ≠ .up ∧ action.byStack then none
      else
        (impairStep delay interface.sys (.queue queue action)).map fun sys =>
          { interface with
            sys := sys
            usedFreed := interface.usedFreed || interface.phase == .down }
  | other => (impairStep delay interface.sys other).map fun sys => { interface with sys := sys }

def lifeStep (delay : Nat) (interface : Interface count) :
    LifeAction count → Option (Interface count)
  | .impairOpen alloc => if interface.phase = .down then some (impairOpen interface alloc) else none
  | .impairClose =>
      if interface.phase = .up ∧ ∀ queue, (interface.sys.qVect queue).unused then
        some (impairClose interface)
      else none
  | .freeNext =>
      match interface.phase with
      | .closing index next => impairFreeQVectors interface index next
      | .down | .up => none
  | .act action => actStep delay interface action

end Machine

section Quiet

variable {delay jiffies : Nat} {qv next : QVector} {stats after : Stats64} {action : QAction}

structure QVector.Quiet (qv : QVector) : Prop where
  timer : qv.timer = none
  scheduled : qv.scheduled = false
  poll : qv.poll = .idle

theorem QVector.Quiet.byStack (quiet : qv.Quiet)
    (move : QMove delay jiffies qv stats action next after) : action.byStack = true := by
  have idle := quiet.poll
  cases move with
  | refuses | accepts | arms | timesOut | rearms | wakes => rfl
  | expires pending due =>
      rw [quiet.timer] at pending
      contradiction
  | polls scheduled here =>
      rw [quiet.scheduled] at scheduled
      contradiction
  | rejects here | forwards here there =>
      rw [idle] at here
      contradiction
  | drained here | pops here | drainsAll here | pushes here | drops here | completes here
  | delivered here | takes here | deliversAll here | receives here | hands here
  | napiCompletes here | returns here =>
      rw [idle] at here
      contradiction

theorem QMove.kept (move : QMove delay jiffies qv stats action next after)
    (own : action.byStack = false) :
    next.unused = qv.unused ∧ (qv.timer = none → next.timer = none) := by
  cases move with
  | refuses | accepts | arms | timesOut | rearms | wakes => contradiction
  | expires => exact ⟨rfl, fun _ => rfl⟩
  | polls | drained | pops | drainsAll | rejects | forwards | pushes | drops | completes
  | delivered | takes | deliversAll | receives | hands | napiCompletes | returns =>
      exact ⟨rfl, id⟩

end Quiet

section Invariant

structure QueueLife (phase : Phase) (index : Nat) (leftTx leftRx : List Skb) (qv : QVector) :
    Prop where
  unused : phase ≠ .up → qv.unused = true
  timer : phase.passed .shutdownTimer index = true → qv.timer = none
  napi : phase.passed .disableNapi index = true → qv.scheduled = false ∧ qv.poll = .idle
  live : phase.passed .freeRx index = false → QueueInvariant qv
  tx : phase.passed .freeTx index = false → Holds qv.txRing (qv.waiting.map Accepted.skb)
  freedTx : phase.passed .freeTx index = true →
    ringUsed qv.txRing = 0 ∧ leftTx = qv.waiting.map Accepted.skb
  freedRx : phase.passed .freeRx index = true → ringUsed qv.rxRing = 0 ∧
    (qv.received.map Prod.fst ++ leftRx).Sublist
      ((qv.accepted.take qv.drained).map Accepted.skb)

variable {phase later : Phase} {index : Nat} {leftTx leftRx : List Skb} {qv : QVector}

theorem passed_closing {here : Nat} {next statement : Statement} :
    (Phase.closing here next).passed statement index = true ↔
      index < here ∨ index = here ∧ statement.position < next.position := by
  simp only [Phase.passed, Bool.or_eq_true, Bool.and_eq_true, decide_eq_true_eq, beq_iff_eq]

theorem Phase.passed_before (first second : Statement) (ordered : first.position ≤ second.position)
    (passed : phase.passed second index = true) : phase.passed first index = true := by
  cases phase with
  | down => rfl
  | up => contradiction
  | closing here next =>
      rw [passed_closing] at passed ⊢
      omega

theorem Phase.ne_up_of_passed {statement : Statement}
    (passed : phase.passed statement index = true) : phase ≠ .up := by
  rintro rfl
  contradiction

theorem QueueLife.quiet (life : QueueLife phase index leftTx leftRx qv)
    (passed : phase.passed .disableNapi index = true) : qv.Quiet :=
  ⟨life.timer (Phase.passed_before _ _ (by decide) passed), (life.napi passed).1,
    (life.napi passed).2⟩

theorem QueueLife.rephase (life : QueueLife phase index leftTx leftRx qv) (closing : phase ≠ .up)
    (same : ∀ statement, later.passed statement index = phase.passed statement index) :
    QueueLife later index leftTx leftRx qv where
  unused := fun _ => life.unused closing
  timer := same .shutdownTimer ▸ life.timer
  napi := same .disableNapi ▸ life.napi
  live := same .freeRx ▸ life.live
  tx := same .freeTx ▸ life.tx
  freedTx := same .freeTx ▸ life.freedTx
  freedRx := same .freeRx ▸ life.freedRx

theorem queueLife_up (invariant : QueueInvariant qv) : QueueLife .up index leftTx leftRx qv where
  unused := fun down => absurd rfl down
  timer := nofun
  napi := nofun
  live := fun _ => invariant
  tx := fun _ => invariant.tx
  freedTx := nofun
  freedRx := nofun

theorem QueueLife.live_of_move (life : QueueLife phase index leftTx leftRx qv)
    {delay jiffies : Nat} {next : QVector} {stats after : Stats64} {action : QAction}
    (move : QMove delay jiffies qv stats action next after)
    (allowed : ¬(phase ≠ .up ∧ action.byStack = true)) :
    phase.passed .disableNapi index = false := by
  rw [← Bool.not_eq_true]
  intro passed
  exact allowed ⟨Phase.ne_up_of_passed passed, (life.quiet passed).byStack move⟩

theorem Phase.not_passed_after (first second : Statement)
    (ordered : first.position ≤ second.position) (still : phase.passed first index = false) :
    phase.passed second index = false := by
  rw [← Bool.not_eq_true] at still ⊢
  exact fun passed => still (Phase.passed_before first second ordered passed)

theorem QueueLife.move (life : QueueLife phase index leftTx leftRx qv)
    {delay jiffies : Nat} {next : QVector} {stats after : Stats64} {action : QAction}
    (move : QMove delay jiffies qv stats action next after)
    (allowed : ¬(phase ≠ .up ∧ action.byStack = true)) :
    QueueLife phase index leftTx leftRx next := by
  have running := life.live_of_move move allowed
  have unfreedRx : phase.passed .freeRx index = false :=
    Phase.not_passed_after _ _ (by decide) running
  have unfreedTx : phase.passed .freeTx index = false :=
    Phase.not_passed_after _ _ (by decide) unfreedRx
  have invariant := queueInvariant_move (life.live unfreedRx) move
  have own : phase ≠ .up → action.byStack = false := by
    intro closing
    rw [← Bool.not_eq_true]
    exact fun stack => allowed ⟨closing, stack⟩
  constructor
  · intro closing
    exact (move.kept (own closing)).1.trans (life.unused closing)
  · intro passed
    exact (move.kept (own (Phase.ne_up_of_passed passed))).2 (life.timer passed)
  · intro passed
    rw [running] at passed
    contradiction
  · exact fun _ => invariant
  · exact fun _ => invariant.tx
  · intro passed
    rw [unfreedTx] at passed
    contradiction
  · intro passed
    rw [unfreedRx] at passed
    contradiction

section Teardown

theorem QueueLife.shutdownTimer
    (life : QueueLife (.closing index .shutdownTimer) index leftTx leftRx qv) :
    QueueLife (.closing index .disableNapi) index leftTx leftRx { qv with timer := none } where
  unused := fun _ => life.unused Phase.noConfusion
  timer := fun _ => rfl
  napi := by simp [passed_closing, Statement.position]
  live := by
    intro _
    have invariant := life.live (by simp [Phase.passed, Statement.position])
    exact ⟨invariant.past, invariant.tx, invariant.rx, invariant.calls⟩
  tx := fun _ => life.tx (by simp [Phase.passed, Statement.position])
  freedTx := by simp [passed_closing, Statement.position]
  freedRx := by simp [passed_closing, Statement.position]

theorem QueueLife.disableNapi
    (life : QueueLife (.closing index .disableNapi) index leftTx leftRx qv)
    (finished : qv.scheduled = false ∧ qv.poll = .idle) :
    QueueLife (.closing index .freeRx) index leftTx leftRx qv where
  unused := fun _ => life.unused Phase.noConfusion
  timer := fun _ => life.timer (by simp [Phase.passed, Statement.position])
  napi := fun _ => finished
  live := fun _ => life.live (by simp [Phase.passed, Statement.position])
  tx := fun _ => life.tx (by simp [Phase.passed, Statement.position])
  freedTx := by simp [passed_closing, Statement.position]
  freedRx := by simp [passed_closing, Statement.position]

theorem ringFreeAll_frame {ring : ImpairRing} {skbs : List Skb} {frame : FreeFrame}
    (holds : Holds ring skbs) (done : ringFreeAll RING_SIZE ring = some frame) :
    frame.freed = skbs ∧ ringUsed frame.ring = 0 := by
  have whole : Holds ring.whole skbs := by
    rw [ImpairRing.whole, ← holds.valid.size]
    exact holds
  have freed := ringFreeAll_of_holds whole holds.length_lt
  rw [done, Option.map_some, Option.some.injEq, Prod.mk.injEq] at freed
  refine ⟨freed.2, ?_⟩
  rw [ringFreeAll, Option.map_eq_some_iff] at done
  obtain ⟨looped, _, rfl⟩ := done
  have empty : circCnt 0 0 0 = 0 := by decide
  exact empty

theorem QueueLife.freeRx (life : QueueLife (.closing index .freeRx) index leftTx leftRx qv)
    {frame : FreeFrame} (done : ringFreeAll RING_SIZE qv.rxRing = some frame) :
    QueueLife (.closing index .freeTx) index leftTx frame.freed { qv with rxRing := frame.ring } ∧
      frame.freed.length = ringUsed qv.rxRing ∧ ringUsed frame.ring = 0 := by
  have invariant := life.live (by simp [Phase.passed, Statement.position])
  have finished := life.napi (by simp [Phase.passed, Statement.position])
  obtain ⟨skbs, holds, ordered⟩ := invariant.rx
  obtain ⟨freed, empty⟩ := ringFreeAll_frame holds done
  have taken : qv.poll.taken = [] := finished.2 ▸ rfl
  have held : qv.poll.held = [] := finished.2 ▸ rfl
  rw [taken, held, List.append_nil, List.append_nil, ← freed] at ordered
  refine ⟨?_, freed ▸ holds.length_eq.symm, empty⟩
  constructor
  · exact fun _ => life.unused Phase.noConfusion
  · exact fun _ => life.timer (by simp [Phase.passed, Statement.position])
  · exact fun _ => finished
  · simp [Phase.passed, Statement.position]
  · exact fun _ => life.tx (by simp [Phase.passed, Statement.position])
  · simp [passed_closing, Statement.position]
  · exact fun _ => ⟨empty, ordered⟩

theorem QueueLife.freeTx (life : QueueLife (.closing index .freeTx) index leftTx leftRx qv)
    {frame : FreeFrame} (done : ringFreeAll RING_SIZE qv.txRing = some frame) :
    QueueLife (.closing (index + 1) .shutdownTimer) index frame.freed leftRx
        { qv with txRing := frame.ring } ∧
      frame.freed.length = ringUsed qv.txRing ∧ ringUsed frame.ring = 0 := by
  have holds := life.tx (by simp [Phase.passed, Statement.position])
  obtain ⟨freed, empty⟩ := ringFreeAll_frame holds done
  refine ⟨?_, freed ▸ holds.length_eq.symm, empty⟩
  constructor
  · exact fun _ => life.unused Phase.noConfusion
  · exact fun _ => life.timer (by simp [Phase.passed, Statement.position])
  · exact fun _ => life.napi (by simp [Phase.passed, Statement.position])
  · simp [Phase.passed, Statement.position]
  · simp [Phase.passed, Statement.position]
  · exact fun _ => ⟨empty, freed⟩
  · exact fun _ => life.freedRx (by simp [Phase.passed, Statement.position])

end Teardown

end Invariant

section Runs

variable {count delay : Nat} {first : Stats64} {interface next : Interface count}

structure LifeInvariant (first : Stats64) (interface : Interface count) : Prop where
  queues : ∀ queue : Fin count, QueueLife interface.phase queue (interface.leftTx queue)
    (interface.leftRx queue) (interface.sys.qVect queue)
  tx : interface.sys.stats.txPackets + ∑ queue, (interface.sys.qVect queue).txWeight +
    interface.freedTx = first.txPackets + interface.acceptedBefore
  rx : interface.sys.stats.rxExcess + ∑ queue, (interface.sys.qVect queue).rxWeight +
    interface.freedRx = first.rxExcess
  memory : interface.usedFreed = false

theorem sum_txWeight_down (life : LifeInvariant first interface)
    (down : interface.phase = .down) :
    ∑ queue, (interface.sys.qVect queue).txWeight = -interface.acceptedNow := by
  rw [Interface.acceptedNow, Nat.cast_sum, ← Finset.sum_neg_distrib]
  apply Finset.sum_congr rfl
  intro queue _
  have queueLife := life.queues queue
  rw [down] at queueLife
  rw [QVector.txWeight, (queueLife.freedTx rfl).1, (queueLife.napi rfl).2]
  simp only [PollPoint.untransmitted, Nat.cast_zero]
  omega

theorem sum_rxWeight_down (life : LifeInvariant first interface)
    (down : interface.phase = .down) : ∑ queue, (interface.sys.qVect queue).rxWeight = 0 := by
  apply Finset.sum_eq_zero
  intro queue _
  have queueLife := life.queues queue
  rw [down] at queueLife
  rw [QVector.rxWeight, (queueLife.freedRx rfl).1, (queueLife.napi rfl).2]
  rfl

theorem lifeInvariant_registered (rxFilter : RxFilterState) (rxCsum : Bool) (jiffies : Nat) :
    LifeInvariant first (.registered count first rxFilter rxCsum jiffies) := by
  have invariant := queueInvariant_allocated
  have accounted : AccountInvariant first (.opened (Fin count) first rxFilter rxCsum jiffies) :=
    accountInvariant_opened first rxFilter rxCsum jiffies
  refine ⟨fun queue => ?_, ?_, ?_, rfl⟩
  · refine ⟨fun _ => rfl, fun _ => rfl, fun _ => ⟨rfl, rfl⟩, nofun, nofun, fun _ => ?_, fun _ => ?_⟩
    · exact ⟨invariant.tx.length_eq, rfl⟩
    · exact ⟨holds_fresh.length_eq, List.nil_sublist _⟩
  · have balance := accounted.tx
    simp only [Interface.registered]
    omega
  · have balance := accounted.rx
    simp only [Interface.registered]
    omega

theorem LifeInvariant.opens (life : LifeInvariant first interface)
    (down : interface.phase = .down) (alloc : Bool) :
    LifeInvariant first (impairOpen interface alloc) := by
  rw [impairOpen]
  split
  · have accounted : AccountInvariant interface.sys.stats (.opened (Fin count) interface.sys.stats
        interface.sys.rxFilter interface.sys.rxCsum interface.sys.jiffies) :=
      accountInvariant_opened _ _ _ _
    have tx := life.tx
    have rx := life.rx
    rw [sum_txWeight_down life down] at tx
    rw [sum_rxWeight_down life down] at rx
    refine ⟨fun _ => queueLife_up queueInvariant_allocated, ?_, ?_, life.memory⟩
    · have balance := accounted.tx
      simp only [ImpairSys.opened] at balance ⊢
      omega
    · have balance := accounted.rx
      simp only [ImpairSys.opened] at balance ⊢
      omega
  · exact life

theorem LifeInvariant.closes (life : LifeInvariant first interface)
    (up : interface.phase = .up) (unused : ∀ queue, (interface.sys.qVect queue).unused = true) :
    LifeInvariant first (impairClose interface) := by
  refine ⟨fun queue => ?_, life.tx, life.rx, life.memory⟩
  have queueLife := life.queues queue
  rw [up] at queueLife
  have invariant := queueLife.live rfl
  constructor
  · exact fun _ => unused queue
  · simp [impairClose, passed_closing, Statement.position]
  · simp [impairClose, passed_closing, Statement.position]
  · exact fun _ => ⟨invariant.past, invariant.tx, invariant.rx, invariant.calls⟩
  · exact fun _ => invariant.tx
  · simp [impairClose, passed_closing, Statement.position]
  · simp [impairClose, passed_closing, Statement.position]

theorem Phase.passed_elsewhere {index other : Nat} (elsewhere : other ≠ index)
    (statement next later : Statement) :
    (Phase.closing index later).passed statement other =
      (Phase.closing index next).passed statement other := by
  simp only [Phase.passed, beq_eq_false_iff_ne.mpr elsewhere, Bool.false_and]

theorem Phase.passed_succ {index other : Nat} (elsewhere : other ≠ index)
    (statement next : Statement) :
    (Phase.closing (index + 1) .shutdownTimer).passed statement other =
      (Phase.closing index next).passed statement other := by
  rw [Bool.eq_iff_iff, passed_closing, passed_closing]
  simp only [Statement.position, Nat.not_lt_zero, and_false, or_false]
  omega

theorem LifeInvariant.teardown (life : LifeInvariant first interface) {queue : Fin count}
    {statement : Statement} {qv : QVector} (closing : interface.phase = .closing queue statement)
    (table : next.sys.qVect = Function.update interface.sys.qVect queue qv)
    (stats : next.sys.stats = interface.sys.stats)
    (here : QueueLife next.phase queue (next.leftTx queue) (next.leftRx queue) qv)
    (elsewhere : ∀ other : Fin count, (other : Nat) ≠ queue →
      next.leftTx other = interface.leftTx other ∧ next.leftRx other = interface.leftRx other ∧
        ∀ passed, next.phase.passed passed other = (Phase.closing queue statement).passed passed other)
    (past : next.acceptedBefore = interface.acceptedBefore)
    (tx : qv.txWeight + next.freedTx = (interface.sys.qVect queue).txWeight + interface.freedTx)
    (rx : qv.rxWeight + next.freedRx = (interface.sys.qVect queue).rxWeight + interface.freedRx)
    (memory : next.usedFreed = interface.usedFreed) : LifeInvariant first next := by
  refine ⟨fun other => ?_, ?_, ?_, memory.trans life.memory⟩
  · by_cases same : other = queue
    · subst same
      rw [table, Function.update_self]
      exact here
    · have apart : (other : Nat) ≠ queue := fun equal => same (Fin.ext equal)
      obtain ⟨leftTx, leftRx, passed⟩ := elsewhere other apart
      have otherLife := life.queues other
      rw [closing] at otherLife
      rw [table, Function.update_of_ne same, leftTx, leftRx]
      exact otherLife.rephase Phase.noConfusion passed
  · have balance := life.tx
    rw [table, Counting.sum_update, stats, past]
    omega
  · have balance := life.rx
    rw [table, Counting.sum_update, stats]
    omega

theorem LifeInvariant.frees (life : LifeInvariant first interface) {queue : Fin count}
    {statement : Statement} (closing : interface.phase = .closing queue statement)
    (freed : impairFreeQVector interface queue statement = some next) :
    LifeInvariant first next := by
  have queueLife := life.queues queue
  rw [closing] at queueLife
  cases statement with
  | shutdownTimer =>
      rw [impairFreeQVector, Option.some.injEq] at freed
      subst freed
      refine life.teardown closing rfl rfl ?_ ?_ rfl rfl rfl rfl
      · exact queueLife.shutdownTimer
      · exact fun other apart => ⟨rfl, rfl, fun passed => Phase.passed_elsewhere apart passed _ _⟩
  | disableNapi =>
      rw [impairFreeQVector, Option.ite_none_right_eq_some, Option.some.injEq] at freed
      obtain ⟨finished, rfl⟩ := freed
      refine life.teardown closing (Function.update_eq_self _ _).symm rfl ?_ ?_ rfl rfl rfl rfl
      · exact queueLife.disableNapi finished
      · exact fun other apart => ⟨rfl, rfl, fun passed => Phase.passed_elsewhere apart passed _ _⟩
  | freeRx =>
      rw [impairFreeQVector, Option.map_eq_some_iff] at freed
      obtain ⟨frame, done, rfl⟩ := freed
      obtain ⟨later, count, empty⟩ := queueLife.freeRx done
      refine life.teardown closing rfl rfl ?_ ?_ rfl rfl ?_ rfl
      · simp only [Function.update_self]
        exact later
      · intro other apart
        have different : other ≠ queue := fun equal => apart (congrArg Fin.val equal)
        exact ⟨rfl, Function.update_of_ne different .., fun passed =>
          Phase.passed_elsewhere apart passed _ _⟩
      · simp only [QVector.rxWeight, count, empty]
        omega
  | freeTx =>
      rw [impairFreeQVector, Option.map_eq_some_iff] at freed
      obtain ⟨frame, done, rfl⟩ := freed
      obtain ⟨later, count, empty⟩ := queueLife.freeTx done
      refine life.teardown closing rfl rfl ?_ ?_ rfl ?_ rfl rfl
      · simp only [Function.update_self]
        exact later
      · intro other apart
        have different : other ≠ queue := fun equal => apart (congrArg Fin.val equal)
        exact ⟨Function.update_of_ne different .., rfl, fun passed =>
          Phase.passed_succ apart passed _⟩
      · simp only [QVector.txWeight, count, empty]
        omega

theorem LifeInvariant.freesAll (life : LifeInvariant first interface) {index : Nat}
    {statement : Statement} (closing : interface.phase = .closing index statement)
    (freed : impairFreeQVectors interface index statement = some next) :
    LifeInvariant first next := by
  rw [impairFreeQVectors] at freed
  split at freed
  · rename_i inside
    exact life.frees closing freed
  · rename_i past
    rw [Option.some.injEq] at freed
    subst freed
    refine ⟨fun queue => ?_, life.tx, life.rx, life.memory⟩
    have queueLife := life.queues queue
    rw [closing] at queueLife
    apply queueLife.rephase Phase.noConfusion
    intro passed
    have done : (Phase.closing index statement).passed passed queue = true :=
      passed_closing.mpr (Or.inl (queue.isLt.trans_le (Nat.not_lt.mp past)))
    exact done.symm

theorem LifeInvariant.acts (life : LifeInvariant first interface)
    {action : ImpairAction (Fin count)} (taken : actStep delay interface action = some next) :
    LifeInvariant first next := by
  cases action with
  | queue queue action =>
      simp only [actStep] at taken
      rw [Option.ite_none_left_eq_some, Option.map_eq_some_iff] at taken
      obtain ⟨allowed, sys, moved, rfl⟩ := taken
      cases impairStep_move moved with
      | aside elsewhere => exact absurd rfl (elsewhere queue action)
      | queue move =>
          rename_i qv after
          have queueLife := life.queues queue
          have running := queueLife.live_of_move move allowed
          have invariant := queueLife.live (Phase.not_passed_after _ _ (by decide) running)
          obtain ⟨tx, rx⟩ := invariant.balanced move
          refine ⟨fun other => ?_, ?_, ?_, ?_⟩
          · by_cases same : other = queue
            · subst same
              simp only [Function.update_self]
              exact queueLife.move move allowed
            · simp only [Function.update_of_ne same]
              exact life.queues other
          · have balance := life.tx
            simp only
            rw [Counting.sum_update]
            omega
          · have balance := life.rx
            simp only
            rw [Counting.sum_update]
            omega
          · have notDown : interface.phase ≠ .down := by
              intro down
              rw [down] at running
              contradiction
            simp only [life.memory, beq_eq_false_iff_ne.mpr notDown, Bool.or_self]
  | setRxMode | setMacAddress | setRxCsum | tick =>
      simp only [actStep, Option.map_eq_some_iff, impairStep, Option.some.injEq] at taken
      obtain ⟨sys, rfl, rfl⟩ := taken
      exact ⟨life.queues, life.tx, life.rx, life.memory⟩

theorem lifeInvariant_step (life : LifeInvariant first interface) {action : LifeAction count}
    (taken : lifeStep delay interface action = some next) : LifeInvariant first next := by
  cases action with
  | impairOpen alloc =>
      rw [lifeStep, Option.ite_none_right_eq_some, Option.some.injEq] at taken
      obtain ⟨down, rfl⟩ := taken
      exact life.opens down alloc
  | impairClose =>
      rw [lifeStep, Option.ite_none_right_eq_some, Option.some.injEq] at taken
      obtain ⟨⟨up, unused⟩, rfl⟩ := taken
      exact life.closes up unused
  | freeNext =>
      rw [lifeStep] at taken
      split at taken
      · rename_i index statement closing
        exact life.freesAll closing taken
      · contradiction
      · contradiction
  | act action => exact life.acts taken

/-- While the interface is down every packet it ever accepted is counted as transmitted or was
freed by an `impair_close`, and the received ones likewise; what one `impair_close` freed is what
no poll had taken, in order. -/
structure Settled (first : Stats64) (interface : Interface count) : Prop where
  memory : interface.usedFreed = false
  quiet : interface.phase = .down → ∀ queue, (interface.sys.qVect queue).Quiet
  transmitted : interface.phase = .down →
    first.txPackets + interface.acceptedBefore + interface.acceptedNow =
      interface.sys.stats.txPackets + interface.freedTx
  received : interface.phase = .down →
    interface.sys.stats.txPackets + first.rxDropped + first.rxPackets =
      interface.sys.stats.rxDropped + interface.sys.stats.rxPackets + interface.freedRx +
        first.txPackets
  left : interface.phase = .down → ∀ queue,
    ((interface.sys.qVect queue).accepted.take (interface.sys.qVect queue).drained).map
        Accepted.skb ++ interface.leftTx queue =
      (interface.sys.qVect queue).accepted.map Accepted.skb ∧
    ((interface.sys.qVect queue).received.map Prod.fst ++ interface.leftRx queue).Sublist
      (((interface.sys.qVect queue).accepted.take (interface.sys.qVect queue).drained).map
        Accepted.skb)

theorem LifeInvariant.settled (life : LifeInvariant first interface) :
    Settled first interface where
  memory := life.memory
  quiet := by
    intro down queue
    have queueLife := life.queues queue
    rw [down] at queueLife
    exact queueLife.quiet rfl
  transmitted := by
    intro down
    have tx := life.tx
    rw [sum_txWeight_down life down] at tx
    omega
  received := by
    intro down
    have rx := life.rx
    rw [sum_rxWeight_down life down] at rx
    simp only [Stats64.rxExcess] at rx
    omega
  left := by
    intro down queue
    have queueLife := life.queues queue
    rw [down] at queueLife
    refine ⟨?_, (queueLife.freedRx rfl).2⟩
    rw [(queueLife.freedTx rfl).2, QVector.waiting, ← List.map_append, List.take_append_drop]

theorem interface_settled (count delay : Nat) (first : Stats64) (rxFilter : RxFilterState)
    (rxCsum : Bool) (jiffies : Nat) (actions : List (LifeAction count)) :
    StepMachine.Always (lifeStep delay) (Settled first)
      (.registered count first rxFilter rxCsum jiffies) actions := by
  have preserved : ∀ (interface : Interface count) action next, LifeInvariant first interface →
      True → lifeStep delay interface action = some next → LifeInvariant first next :=
    fun _ _ _ life _ taken => lifeInvariant_step life taken
  exact StepMachine.always_of_meets preserved (fun _ life => life.settled)
    (lifeInvariant_registered rxFilter rxCsum jiffies) (StepMachine.meets_true _ _)

end Runs

end Ldd3.Impair
