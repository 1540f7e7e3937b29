import Mathlib.Tactic
import Ldd3.Lib.Counting
import Ldd3.Lib.StepMachine
import Ldd3.Impair.Rings
import Ldd3.Impair.Steps

/-!
Where every packet is: in a ring, counted as dropped, or received in the order in which it
was accepted.
-/

open scoped BigOperators

namespace Ldd3.Impair

def PollPoint.betweenIterations : PollPoint → Bool
  | .idle | .draining _ | .delivering _ | .returning _ => true
  | _ => false

def PollPoint.held (point : PollPoint) : List Skb := (point.inFlight.map Prod.snd).toList

def PollPoint.taken : PollPoint → List Skb
  | .receiving _ skb | .handing _ skb _ => [skb]
  | _ => []

/-- The packets that left the tx ring and are not in `tx_packets` yet. -/
def PollPoint.untransmitted : PollPoint → Int
  | .copying _ _ | .filtering _ _ | .pushing _ _ | .dropping _ _ | .txComplete _ _ => 1
  | _ => 0

/-- The packets that left the rx ring and are not in `rx_packets` yet, less those in the rx
ring or in `rx_dropped` that are not in `tx_packets` yet. -/
def PollPoint.unreceived : PollPoint → Int
  | .txComplete _ _ => -1
  | .receiving _ _ => 1
  | _ => 0

/-- The queue's packets as lists: what waits in the tx ring, and what was received, waits
in the rx ring or is on its way there, in the order of acceptance. -/
structure QueueInvariant (qv : QVector) : Prop where
  past : qv.drained ≤ qv.accepted.length
  tx : Holds qv.txRing (qv.waiting.map Accepted.skb)
  rx : ∃ skbs, Holds qv.rxRing skbs ∧
    (qv.received.map Prod.fst ++ qv.poll.taken ++ skbs ++ qv.poll.held).Sublist
      ((qv.accepted.take qv.drained).map Accepted.skb)
  calls : qv.returnedOk + qv.arming = qv.accepted.length

theorem queueInvariant_allocated : QueueInvariant .allocated where
  past := Nat.le_refl _
  tx := holds_fresh
  rx := ⟨[], holds_fresh, List.Sublist.refl _⟩
  calls := rfl

theorem QueueInvariant.waiting_ne {qv : QVector} (invariant : QueueInvariant qv)
    (some : qv.txRing.isEmpty = false) : qv.waiting ≠ [] := by
  intro none
  have holds := invariant.tx
  rw [none] at holds
  rw [holds.isEmpty_iff.mpr rfl] at some
  contradiction

theorem QueueInvariant.atPoint {qv : QVector} (invariant : QueueInvariant qv) {point : PollPoint}
    (taken : point.taken = qv.poll.taken) (held : point.held.Sublist qv.poll.held) :
    QueueInvariant { qv with poll := point } where
  past := invariant.past
  tx := invariant.tx
  rx := by
    obtain ⟨skbs, holds, ordered⟩ := invariant.rx
    refine ⟨skbs, holds, List.Sublist.trans ?_ ordered⟩
    simp only [taken]
    exact (List.Sublist.refl _).append held
  calls := invariant.calls

theorem QueueInvariant.accepts {qv : QVector} (invariant : QueueInvariant qv)
    (room : 0 < ringFree qv.txRing) (skb : Skb) (jiffies : Nat) :
    QueueInvariant { qv with
      txRing := qv.txRing.fill skb
      arming := qv.arming + 1
      accepted := qv.accepted ++ [⟨skb, jiffies⟩] } where
  past := by
    have past := invariant.past
    simp only [List.length_append]
    omega
  tx := by
    have filled := invariant.tx.fill room skb
    simp only [QVector.waiting] at filled ⊢
    rw [List.drop_append_of_le_length invariant.past, List.map_append]
    exact filled
  rx := by
    simp only
    rw [List.take_append_of_le_length invariant.past]
    exact invariant.rx
  calls := by
    have calls := invariant.calls
    simp only [List.length_append, List.length_singleton]
    omega

theorem QueueInvariant.pops {qv : QVector} (invariant : QueueInvariant qv) {poll : PollFrame}
    (here : qv.poll = .draining poll) (some : qv.txRing.isEmpty = false) (stopped : Bool) :
    ∃ skb, qv.txRing.oldest = .some skb ∧
      QueueInvariant { qv with
        txRing := qv.txRing.clean
        stopped := stopped
        drained := qv.drained + 1
        poll := .copying poll skb } := by
  obtain ⟨skb, rest, split, oldest, cleaned⟩ := invariant.tx.pop some
  obtain ⟨first, later, waiting, rfl, rfl⟩ := List.map_eq_cons_iff.mp split
  have found : qv.accepted[qv.drained]? = .some first := by
    rw [← List.head?_drop]
    exact congrArg List.head? waiting
  obtain ⟨inside, _⟩ := List.getElem?_eq_some_iff.mp found
  have tail : qv.accepted.drop (qv.drained + 1) = later := by
    rw [← List.tail_drop]
    exact congrArg List.tail waiting
  refine ⟨first.skb, oldest, inside, ?_, ?_, invariant.calls⟩
  · simp only [QVector.waiting, tail]
    exact cleaned
  · obtain ⟨skbs, holds, ordered⟩ := invariant.rx
    refine ⟨skbs, holds, ?_⟩
    have extended := ordered.append (List.Sublist.refl [first.skb])
    rw [here] at extended
    rw [List.take_add_one, found, List.map_append]
    simpa only [PollPoint.held, PollPoint.inFlight, PollPoint.taken, Option.map_none,
      Option.map_some, Option.toList_none, Option.toList_some, List.map_cons, List.map_nil,
      List.append_nil] using extended

theorem QueueInvariant.pushes {qv : QVector} (invariant : QueueInvariant qv) {poll : PollFrame}
    {skb : Skb} (here : qv.poll = .pushing poll skb) (room : 0 < ringFree qv.rxRing) :
    QueueInvariant { qv with rxRing := qv.rxRing.fill skb, poll := .txComplete poll skb } where
  past := invariant.past
  tx := invariant.tx
  rx := by
    obtain ⟨skbs, holds, ordered⟩ := invariant.rx
    refine ⟨skbs ++ [skb], holds.fill room skb, ?_⟩
    rw [here] at ordered
    simpa only [PollPoint.held, PollPoint.inFlight, PollPoint.taken, Option.map_none,
      Option.map_some, Option.toList_none, Option.toList_some, List.append_nil,
      List.append_assoc] using ordered
  calls := invariant.calls

theorem QueueInvariant.takes {qv : QVector} (invariant : QueueInvariant qv) {poll : PollFrame}
    (here : qv.poll = .delivering poll) (some : qv.rxRing.isEmpty = false) :
    ∃ skb, qv.rxRing.oldest = .some skb ∧
      QueueInvariant { qv with rxRing := qv.rxRing.clean, poll := .receiving poll skb } := by
  obtain ⟨skbs, holds, ordered⟩ := invariant.rx
  obtain ⟨skb, rest, rfl, oldest, cleaned⟩ := holds.pop some
  refine ⟨skb, oldest, invariant.past, invariant.tx, ⟨rest, cleaned, ?_⟩, invariant.calls⟩
  rw [here] at ordered
  simpa only [PollPoint.held, PollPoint.inFlight, PollPoint.taken, Option.map_none,
    Option.toList_none, List.append_nil, List.append_assoc, List.singleton_append] using ordered

theorem QueueInvariant.hands {qv : QVector} (invariant : QueueInvariant qv) {poll : PollFrame}
    {skb : Skb} {ipSummed : IpSummed} (here : qv.poll = .handing poll skb ipSummed)
    (later : PollFrame) :
    QueueInvariant { qv with
      received := qv.received ++ [(skb, ipSummed)], poll := .delivering later } where
  past := invariant.past
  tx := invariant.tx
  rx := by
    obtain ⟨skbs, holds, ordered⟩ := invariant.rx
    refine ⟨skbs, holds, ?_⟩
    rw [here] at ordered
    simpa only [PollPoint.held, PollPoint.inFlight, PollPoint.taken, List.map_append,
      List.map_cons, List.map_nil, List.append_nil] using ordered
  calls := invariant.calls

theorem held_of_inFlight {point : PollPoint} {poll : PollFrame} {skb : Skb}
    (flying : point.inFlight = some (poll, skb)) : point.held = [skb] ∧ point.taken = [] := by
  constructor
  · rw [PollPoint.held, flying]
    rfl
  · cases point with
    | copying | filtering | pushing => rfl
    | _ => contradiction

theorem queueInvariant_move {delay jiffies : Nat} {qv next : QVector} {stats after : Stats64}
    {action : QAction} (invariant : QueueInvariant qv)
    (move : QMove delay jiffies qv stats action next after) : QueueInvariant next := by
  cases move with
  | refuses full => exact ⟨invariant.past, invariant.tx, invariant.rx, invariant.calls⟩
  | accepts room => exact invariant.accepts room _ _
  | arms sender =>
      refine ⟨invariant.past, invariant.tx, invariant.rx, ?_⟩
      have calls := invariant.calls
      simp only
      omega
  | timesOut => exact ⟨invariant.past, invariant.tx, invariant.rx, invariant.calls⟩
  | rearms here => exact ⟨invariant.past, invariant.tx, invariant.rx, invariant.calls⟩
  | wakes here => exact ⟨invariant.past, invariant.tx, invariant.rx, invariant.calls⟩
  | expires pending due => exact ⟨invariant.past, invariant.tx, invariant.rx, invariant.calls⟩
  | polls scheduled idle => exact invariant.atPoint (idle ▸ rfl) (List.nil_sublist _)
  | drained here within empty => exact invariant.atPoint (here ▸ rfl) (List.nil_sublist _)
  | pops here within some found null =>
      obtain ⟨skb, oldest, popped⟩ := invariant.pops here some
        (qv.stopped && !decide (0 < ringFree qv.txRing.clean))
      rw [found skb oldest]
      exact popped
  | drainsAll here limit => exact invariant.atPoint (here ▸ rfl) (List.nil_sublist _)
  | rejects here => exact invariant.atPoint (held_of_inFlight here).2.symm (List.nil_sublist _)
  | forwards here there =>
      apply invariant.atPoint
      · rw [(held_of_inFlight here).2, (held_of_inFlight there).2]
      · rw [(held_of_inFlight here).1, (held_of_inFlight there).1]
  | pushes here room => exact invariant.pushes here room
  | drops here => exact invariant.atPoint (here ▸ rfl) (List.nil_sublist _)
  | completes here => exact invariant.atPoint (here ▸ rfl) (List.nil_sublist _)
  | delivered here within empty => exact invariant.atPoint (here ▸ rfl) (List.nil_sublist _)
  | takes here within some found null =>
      obtain ⟨skb, oldest, popped⟩ := invariant.takes here some
      rw [found skb oldest]
      exact popped
  | deliversAll here limit => exact invariant.atPoint (here ▸ rfl) (List.nil_sublist _)
  | receives here => exact invariant.atPoint (here ▸ rfl) (List.nil_sublist _)
  | hands here => exact invariant.hands here _
  | napiCompletes here below =>
      have idle : QueueInvariant { qv with poll := .idle } :=
        invariant.atPoint (here ▸ rfl) (List.nil_sublist _)
      exact ⟨idle.past, idle.tx, idle.rx, idle.calls⟩
  | returns here spent => exact invariant.atPoint (here ▸ rfl) (List.nil_sublist _)

theorem weight_of_inFlight {point : PollPoint} {poll : PollFrame} {skb : Skb}
    (flying : point.inFlight = some (poll, skb)) :
    point.untransmitted = 1 ∧ point.unreceived = 0 := by
  cases point with
  | copying | filtering | pushing => exact ⟨rfl, rfl⟩
  | _ => contradiction

def QVector.txWeight (qv : QVector) : Int :=
  ringUsed qv.txRing + qv.poll.untransmitted - qv.accepted.length

def QVector.rxWeight (qv : QVector) : Int := ringUsed qv.rxRing + qv.poll.unreceived

def Stats64.rxExcess (stats : Stats64) : Int :=
  stats.rxDropped + stats.rxPackets - stats.txPackets

structure Balanced (qv next : QVector) (stats after : Stats64) : Prop where
  tx : after.txPackets + next.txWeight = stats.txPackets + qv.txWeight
  rx : after.rxExcess + next.rxWeight = stats.rxExcess + qv.rxWeight

theorem balanced_atPoint (qv : QVector) (stats : Stats64) {point : PollPoint}
    (tx : point.untransmitted = qv.poll.untransmitted)
    (rx : point.unreceived = qv.poll.unreceived) :
    Balanced qv { qv with poll := point } stats stats := by
  constructor
  · simp only [QVector.txWeight, tx]
  · simp only [QVector.rxWeight, rx]

theorem QueueInvariant.balanced {delay jiffies : Nat} {qv next : QVector} {stats after : Stats64}
    {action : QAction} (invariant : QueueInvariant qv)
    (move : QMove delay jiffies qv stats action next after) : Balanced qv next stats after := by
  cases move with
  | refuses full => exact ⟨rfl, rfl⟩
  | accepts room =>
      rename_i skb
      have used := (invariant.tx.fill room skb).length_eq
      rw [List.length_append, List.length_singleton, ← invariant.tx.length_eq] at used
      refine ⟨?_, rfl⟩
      simp only [QVector.txWeight, used, List.length_append, List.length_singleton]
      omega
  | arms sender => exact ⟨rfl, rfl⟩
  | timesOut => exact ⟨rfl, rfl⟩
  | rearms here => exact ⟨rfl, rfl⟩
  | wakes here => exact ⟨rfl, rfl⟩
  | expires pending due => exact ⟨rfl, rfl⟩
  | polls scheduled idle => exact balanced_atPoint qv stats (idle ▸ rfl) (idle ▸ rfl)
  | drained here within empty => exact balanced_atPoint qv stats (here ▸ rfl) (here ▸ rfl)
  | pops here within some found null =>
      rename_i copyFails poll point
      obtain ⟨skb, rest, split, oldest, cleaned⟩ := invariant.tx.pop some
      have used := invariant.tx.length_eq
      rw [split, List.length_cons, ← cleaned.length_eq] at used
      rw [found skb oldest]
      refine ⟨?_, ?_⟩
      · simp only [QVector.txWeight, used, here, PollPoint.untransmitted]
        omega
      · simp only [QVector.rxWeight, here, PollPoint.unreceived]
  | drainsAll here limit => exact balanced_atPoint qv stats (here ▸ rfl) (here ▸ rfl)
  | rejects here =>
      obtain ⟨tx, rx⟩ := weight_of_inFlight here
      exact balanced_atPoint qv stats tx.symm rx.symm
  | forwards here there =>
      obtain ⟨tx, rx⟩ := weight_of_inFlight here
      obtain ⟨txThere, rxThere⟩ := weight_of_inFlight there
      exact balanced_atPoint qv stats (txThere.trans tx.symm) (rxThere.trans rx.symm)
  | pushes here room =>
      rename_i copyFails poll skb multicast
      obtain ⟨skbs, holds, _⟩ := invariant.rx
      have used := (holds.fill room skb).length_eq
      rw [List.length_append, List.length_singleton, ← holds.length_eq] at used
      refine ⟨?_, ?_⟩
      · simp only [QVector.txWeight, here, PollPoint.untransmitted]
      · simp only [QVector.rxWeight, Stats64.rxExcess, used, here, PollPoint.unreceived]
        omega
  | drops here =>
      refine ⟨?_, ?_⟩
      · simp only [QVector.txWeight, here, PollPoint.untransmitted]
      · simp only [QVector.rxWeight, Stats64.rxExcess, here, PollPoint.unreceived]
        omega
  | completes here =>
      refine ⟨?_, ?_⟩
      · simp only [QVector.txWeight, here, PollPoint.untransmitted]
        omega
      · simp only [QVector.rxWeight, Stats64.rxExcess, here, PollPoint.unreceived]
        omega
  | delivered here within empty => exact balanced_atPoint qv stats (here ▸ rfl) (here ▸ rfl)
  | takes here within some found null =>
      obtain ⟨skbs, holds, _⟩ := invariant.rx
      obtain ⟨skb, rest, split, oldest, cleaned⟩ := holds.pop some
      have used := holds.length_eq
      rw [split, List.length_cons, ← cleaned.length_eq] at used
      rw [found skb oldest]
      refine ⟨?_, ?_⟩
      · simp only [QVector.txWeight, here, PollPoint.untransmitted]
      · simp only [QVector.rxWeight, used, here, PollPoint.unreceived]
        omega
  | deliversAll here limit => exact balanced_atPoint qv stats (here ▸ rfl) (here ▸ rfl)
  | receives here =>
      refine ⟨?_, ?_⟩
      · simp only [QVector.txWeight, here, PollPoint.untransmitted]
      · simp only [QVector.rxWeight, Stats64.rxExcess, here, PollPoint.unreceived]
        omega
  | hands here =>
      refine ⟨?_, ?_⟩
      · simp only [QVector.txWeight, here, PollPoint.untransmitted]
      · simp only [QVector.rxWeight, here, PollPoint.unreceived]
  | napiCompletes here below =>
      refine ⟨?_, ?_⟩
      · simp only [QVector.txWeight, napiCompleteDone, here, PollPoint.untransmitted]
      · simp only [QVector.rxWeight, napiCompleteDone, here, PollPoint.unreceived]
  | returns here spent => exact balanced_atPoint qv stats (here ▸ rfl) (here ▸ rfl)

section Machine

variable {Queue : Type} [Fintype Queue]

structure AccountInvariant (opened : Stats64) (sys : ImpairSys Queue) : Prop where
  queues : ∀ queue, QueueInvariant (sys.qVect queue)
  tx : sys.stats.txPackets + ∑ queue, (sys.qVect queue).txWeight = opened.txPackets
  rx : sys.stats.rxExcess + ∑ queue, (sys.qVect queue).rxWeight = opened.rxExcess

theorem accountInvariant_opened (stats : Stats64) (rxFilter : RxFilterState) (rxCsum : Bool)
    (jiffies : Nat) :
    AccountInvariant stats (.opened Queue stats rxFilter rxCsum jiffies) where
  queues := fun _ => queueInvariant_allocated
  tx := by
    have empty : QVector.allocated.txWeight = 0 := by
      rw [QVector.txWeight, queueInvariant_allocated.tx.length_eq]
      rfl
    simp only [ImpairSys.opened, empty, Finset.sum_const_zero, add_zero]
  rx := by
    have empty : QVector.allocated.rxWeight = 0 := by
      rw [QVector.rxWeight]
      exact congrArg (fun used : Nat => (used : Int) + 0) holds_fresh.length_eq
    simp only [ImpairSys.opened, empty, Finset.sum_const_zero, add_zero]

variable [DecidableEq Queue]

theorem accountInvariant_step {opened : Stats64} {delay : Nat} {sys next : ImpairSys Queue}
    {action : ImpairAction Queue} (invariant : AccountInvariant opened sys)
    (taken : impairStep delay sys action = some next) : AccountInvariant opened next := by
  have queues := everyQueue_step (fun _ _ holds => holds)
    (fun _ _ _ _ _ _ holds _ move => queueInvariant_move holds move) invariant.queues
    (onQueue_true sys action) taken
  cases impairStep_move taken with
  | queue move =>
      rename_i queue qaction qv after
      obtain ⟨tx, rx⟩ := (invariant.queues queue).balanced move
      refine ⟨queues, ?_, ?_⟩
      · have balance := invariant.tx
        simp only
        rw [Counting.sum_update]
        omega
      · have balance := invariant.rx
        simp only
        rw [Counting.sum_update]
        omega
  | aside _ same stats _ =>
      refine ⟨queues, ?_, ?_⟩
      · rw [same, stats]
        exact invariant.tx
      · rw [same, stats]
        exact invariant.rx

/-- Every accepted packet is accounted for since the interface came up with the statistics
`opened`; `arming` calls of `impair_tx` have put their packet into the ring and are about
to return `NETDEV_TX_OK`. -/
structure PacketsAccounted (opened : Stats64) (sys : ImpairSys Queue) : Prop where
  transmitted : (∀ queue, (sys.qVect queue).poll.betweenIterations = true) →
    ∑ queue, ((sys.qVect queue).returnedOk + (sys.qVect queue).arming) + opened.txPackets =
      sys.stats.txPackets + ∑ queue, ringUsed (sys.qVect queue).txRing
  received : (∀ queue, (sys.qVect queue).poll.betweenIterations = true) →
    sys.stats.txPackets + opened.rxDropped + opened.rxPackets =
      sys.stats.rxDropped + sys.stats.rxPackets + ∑ queue, ringUsed (sys.qVect queue).rxRing +
        opened.txPackets
  noNull : ∀ queue, (sys.qVect queue).txRing.NoNull ∧ (sys.qVect queue).rxRing.NoNull
  neverNull : ∀ queue,
    ((sys.qVect queue).txRing.isEmpty = false → (sys.qVect queue).txRing.oldest ≠ none) ∧
      ((sys.qVect queue).rxRing.isEmpty = false → (sys.qVect queue).rxRing.oldest ≠ none)
  inOrder : ∀ queue,
    ((sys.qVect queue).received.map Prod.fst).Sublist
      ((sys.qVect queue).accepted.map Accepted.skb)

theorem weight_betweenIterations {point : PollPoint} (between : point.betweenIterations = true) :
    point.untransmitted = 0 ∧ point.unreceived = 0 := by
  cases point with
  | idle | draining | delivering | returning => exact ⟨rfl, rfl⟩
  | _ => contradiction

omit [DecidableEq Queue] in
theorem AccountInvariant.transmitted {opened : Stats64} {sys : ImpairSys Queue}
    (invariant : AccountInvariant opened sys)
    (between : ∀ queue, (sys.qVect queue).poll.betweenIterations = true) :
    ∑ queue, ((sys.qVect queue).returnedOk + (sys.qVect queue).arming) + opened.txPackets =
      sys.stats.txPackets + ∑ queue, ringUsed (sys.qVect queue).txRing := by
  have weights : ∑ queue, (sys.qVect queue).txWeight =
      ((∑ queue, ringUsed (sys.qVect queue).txRing : Nat) : Int) -
        ((∑ queue, ((sys.qVect queue).returnedOk + (sys.qVect queue).arming) : Nat) : Int) := by
    rw [Nat.cast_sum, Nat.cast_sum, ← Finset.sum_sub_distrib]
    apply Finset.sum_congr rfl
    intro queue _
    rw [QVector.txWeight, (weight_betweenIterations (between queue)).1,
      (invariant.queues queue).calls, add_zero]
  have balance := invariant.tx
  omega

omit [DecidableEq Queue] in
theorem AccountInvariant.received {opened : Stats64} {sys : ImpairSys Queue}
    (invariant : AccountInvariant opened sys)
    (between : ∀ queue, (sys.qVect queue).poll.betweenIterations = true) :
    sys.stats.txPackets + opened.rxDropped + opened.rxPackets =
      sys.stats.rxDropped + sys.stats.rxPackets + ∑ queue, ringUsed (sys.qVect queue).rxRing +
        opened.txPackets := by
  have weights : ∑ queue, (sys.qVect queue).rxWeight =
      ((∑ queue, ringUsed (sys.qVect queue).rxRing : Nat) : Int) := by
    rw [Nat.cast_sum]
    apply Finset.sum_congr rfl
    intro queue _
    rw [QVector.rxWeight, (weight_betweenIterations (between queue)).2, add_zero]
  have balance := invariant.rx
  rw [weights] at balance
  simp only [Stats64.rxExcess] at balance
  omega

theorem Holds.oldest_ne {ring : ImpairRing} {skbs : List Skb} (holds : Holds ring skbs)
    (some : ring.isEmpty = false) : ring.oldest ≠ none := by
  obtain ⟨skb, rest, _, oldest, _⟩ := holds.pop some
  rw [oldest]
  exact Option.some_ne_none skb

theorem QueueInvariant.inOrder {qv : QVector} (invariant : QueueInvariant qv) :
    (qv.received.map Prod.fst).Sublist (qv.accepted.map Accepted.skb) := by
  obtain ⟨skbs, _, ordered⟩ := invariant.rx
  have received : (qv.received.map Prod.fst).Sublist
      (qv.received.map Prod.fst ++ qv.poll.taken ++ skbs ++ qv.poll.held) := by
    simp only [List.append_assoc]
    exact List.sublist_append_left _ _
  exact (received.trans ordered).trans ((List.take_sublist _ _).map _)

omit [DecidableEq Queue] in
theorem AccountInvariant.packetsAccounted {opened : Stats64} {sys : ImpairSys Queue}
    (invariant : AccountInvariant opened sys) : PacketsAccounted opened sys where
  transmitted := invariant.transmitted
  received := invariant.received
  noNull := by
    intro queue
    obtain ⟨skbs, rx, _⟩ := (invariant.queues queue).rx
    exact ⟨(invariant.queues queue).tx.noNull, rx.noNull⟩
  neverNull := by
    intro queue
    obtain ⟨skbs, rx, _⟩ := (invariant.queues queue).rx
    exact ⟨(invariant.queues queue).tx.oldest_ne, rx.oldest_ne⟩
  inOrder := fun queue => (invariant.queues queue).inOrder

theorem packets_accounted (delay : Nat) (opened : Stats64) (rxFilter : RxFilterState)
    (rxCsum : Bool) (jiffies : Nat) (actions : List (ImpairAction Queue)) :
    StepMachine.Always (impairStep delay) (PacketsAccounted opened)
      (.opened Queue opened rxFilter rxCsum jiffies) actions := by
  have preserved : ∀ (sys : ImpairSys Queue) action next, AccountInvariant opened sys → True →
      impairStep delay sys action = some next → AccountInvariant opened next :=
    fun _ _ _ invariant _ taken => accountInvariant_step invariant taken
  have enough : ∀ sys : ImpairSys Queue, AccountInvariant opened sys → PacketsAccounted opened sys :=
    fun _ invariant => invariant.packetsAccounted
  exact StepMachine.always_of_meets preserved enough
    (accountInvariant_opened opened rxFilter rxCsum jiffies) (StepMachine.meets_true _ _)

end Machine

end Ldd3.Impair
