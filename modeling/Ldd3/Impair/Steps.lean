import Mathlib.Tactic
import Ldd3.Impair.Core

/-! What one step of a queue can do: of `impair_tx`, its timer, its watchdog and its poll. -/

namespace Ldd3.Impair

/-- The packet that the drain has popped and not yet dropped or pushed. -/
def PollPoint.inFlight : PollPoint → Option (PollFrame × Skb)
  | .copying poll skb | .filtering poll skb | .pushing poll skb => some (poll, skb)
  | _ => none

section Machine

inductive QMove (delay jiffies : Nat) (qv : QVector) (stats : Stats64) :
    QAction → QVector → Stats64 → Prop
  | refuses {skb : Skb} (full : ringFree qv.txRing = 0) :
      QMove delay jiffies qv stats (.tx skb) { qv with stopped := true } stats
  | accepts {skb : Skb} (room : 0 < ringFree qv.txRing) :
      QMove delay jiffies qv stats (.tx skb)
        { qv with
          txRing := qv.txRing.fill skb
          arming := qv.arming + 1
          accepted := qv.accepted ++ [⟨skb, jiffies⟩] } stats
  | arms (sender : 0 < qv.arming) :
      QMove delay jiffies qv stats .modTimer
        { qv with
          timer := some (jiffies + delay)
          arming := qv.arming - 1
          returnedOk := qv.returnedOk + 1 } stats
  | timesOut :
      QMove delay jiffies qv stats .txTimeout { qv with watchdog := .arming }
        { stats with txErrors := stats.txErrors + 1, txDropped := stats.txDropped + 1 }
  | rearms (here : qv.watchdog = .arming) :
      QMove delay jiffies qv stats .watchdog
        { qv with timer := some (jiffies + delay), watchdog := .waking } stats
  | wakes (here : qv.watchdog = .waking) :
      QMove delay jiffies qv stats .watchdog { qv with stopped := false, watchdog := .idle } stats
  | expires {expiry : Nat} (pending : qv.timer = some expiry) (due : expiry ≤ jiffies) :
      QMove delay jiffies qv stats .expire (implTimerHandler qv) stats
  | polls {budget : Nat} (scheduled : qv.scheduled = true) (idle : qv.poll = .idle) :
      QMove delay jiffies qv stats (.poll budget)
        { qv with poll := .draining (.begin budget) } stats
  | drained {copyFails : Bool} {poll : PollFrame} (here : qv.poll = .draining poll)
      (within : poll.drained < poll.budget) (empty : qv.txRing.isEmpty = true) :
      QMove delay jiffies qv stats (.proceed copyFails)
        { qv with poll := .delivering { poll with txEmpty := true } } stats
  | pops {copyFails : Bool} {poll : PollFrame} {point : PollPoint}
      (here : qv.poll = .draining poll) (within : poll.drained < poll.budget)
      (some : qv.txRing.isEmpty = false)
      (found : ∀ skb, qv.txRing.oldest = .some skb → point = .copying poll skb)
      (null : qv.txRing.oldest = .none → point = .delivering { poll with txEmpty := false }) :
      QMove delay jiffies qv stats (.proceed copyFails)
        { qv with
          txRing := qv.txRing.clean
          stopped := qv.stopped && !decide (0 < ringFree qv.txRing.clean)
          drained := qv.drained + 1
          poll := point } stats
  | drainsAll {copyFails : Bool} {poll : PollFrame} (here : qv.poll = .draining poll)
      (limit : poll.budget ≤ poll.drained) :
      QMove delay jiffies qv stats (.proceed copyFails) { qv with poll := .returning poll } stats
  | rejects {copyFails : Bool} {poll : PollFrame} {skb : Skb}
      (here : qv.poll.inFlight = some (poll, skb)) :
      QMove delay jiffies qv stats (.proceed copyFails) { qv with poll := .dropping poll skb } stats
  | forwards {copyFails : Bool} {poll : PollFrame} {skb : Skb} {point : PollPoint}
      (here : qv.poll.inFlight = some (poll, skb)) (there : point.inFlight = some (poll, skb)) :
      QMove delay jiffies qv stats (.proceed copyFails) { qv with poll := point } stats
  | pushes {copyFails : Bool} {poll : PollFrame} {skb : Skb} {multicast : Nat}
      (here : qv.poll = .pushing poll skb) (room : 0 < ringFree qv.rxRing) :
      QMove delay jiffies qv stats (.proceed copyFails)
        { qv with rxRing := qv.rxRing.fill skb, poll := .txComplete poll skb }
        { stats with multicast := multicast }
  | drops {copyFails : Bool} {poll : PollFrame} {skb : Skb} (here : qv.poll = .dropping poll skb) :
      QMove delay jiffies qv stats (.proceed copyFails) { qv with poll := .txComplete poll skb }
        { stats with rxDropped := stats.rxDropped + 1 }
  | completes {copyFails : Bool} {poll : PollFrame} {skb : Skb}
      (here : qv.poll = .txComplete poll skb) :
      QMove delay jiffies qv stats (.proceed copyFails)
        { qv with poll := .draining { poll with drained := poll.drained + 1 } }
        { stats with txPackets := stats.txPackets + 1, txBytes := stats.txBytes + skb.len }
  | delivered {copyFails : Bool} {poll : PollFrame} (here : qv.poll = .delivering poll)
      (within : poll.delivered < poll.budget - poll.drained) (empty : qv.rxRing.isEmpty = true) :
      QMove delay jiffies qv stats (.proceed copyFails)
        { qv with poll := .returning { poll with rxEmpty := true } } stats
  | takes {copyFails : Bool} {poll : PollFrame} {point : PollPoint}
      (here : qv.poll = .delivering poll)
      (within : poll.delivered < poll.budget - poll.drained) (some : qv.rxRing.isEmpty = false)
      (found : ∀ skb, qv.rxRing.oldest = .some skb → point = .receiving poll skb)
      (null : qv.rxRing.oldest = .none → point = .returning poll) :
      QMove delay jiffies qv stats (.proceed copyFails)
        { qv with rxRing := qv.rxRing.clean, poll := point } stats
  | deliversAll {copyFails : Bool} {poll : PollFrame} (here : qv.poll = .delivering poll)
      (limit : poll.budget - poll.drained ≤ poll.delivered) :
      QMove delay jiffies qv stats (.proceed copyFails) { qv with poll := .returning poll } stats
  | receives {copyFails : Bool} {poll : PollFrame} {skb : Skb} {ipSummed : IpSummed}
      {rxBytes : Nat} (here : qv.poll = .receiving poll skb) :
      QMove delay jiffies qv stats (.proceed copyFails)
        { qv with poll := .handing poll skb ipSummed }
        { stats with rxPackets := stats.rxPackets + 1, rxBytes := rxBytes }
  | hands {copyFails : Bool} {poll : PollFrame} {skb : Skb} {ipSummed : IpSummed}
      (here : qv.poll = .handing poll skb ipSummed) :
      QMove delay jiffies qv stats (.proceed copyFails)
        { qv with
          received := qv.received ++ [(skb, ipSummed)]
          poll := .delivering { poll with delivered := poll.delivered + 1 } } stats
  | napiCompletes {copyFails : Bool} {poll : PollFrame} (here : qv.poll = .returning poll)
      (below : poll.drained + poll.delivered < poll.budget) :
      QMove delay jiffies qv stats (.proceed copyFails)
        { napiCompleteDone qv with poll := .idle } stats
  | returns {copyFails : Bool} {poll : PollFrame} (here : qv.poll = .returning poll)
      (spent : poll.budget ≤ poll.drained + poll.delivered) :
      QMove delay jiffies qv stats (.proceed copyFails) { qv with poll := .idle } stats

theorem QMove.toReturned {delay jiffies : Nat} {qv next returned : QVector}
    {stats after counted : Stats64} {action : QAction}
    (move : QMove delay jiffies qv stats action next after)
    (returns : some (next, after) = some (returned, counted)) :
    QMove delay jiffies qv stats action returned counted := by
  rw [Option.some.injEq, Prod.mk.injEq] at returns
  rw [← returns.1, ← returns.2]
  exact move

theorem impairTx_full {qv : QVector} {skb : Skb} (full : ringFree qv.txRing < 1) :
    impairTx qv skb = (.NETDEV_TX_BUSY, { qv with stopped := true }) :=
  if_pos full

theorem impairTx_room {qv : QVector} {skb : Skb} (room : ¬ringFree qv.txRing < 1) :
    impairTx qv skb = (.NETDEV_TX_OK, { qv with txRing := qv.txRing.fill skb }) :=
  if_neg room

theorem impairTx_move (delay jiffies : Nat) (qv : QVector) (stats : Stats64) (skb : Skb) :
    QMove delay jiffies qv stats (.tx skb)
      ((impairTx qv skb).2.answered skb jiffies (impairTx qv skb).1) stats := by
  by_cases full : ringFree qv.txRing < 1
  · rw [impairTx_full full]
    exact .refuses (by omega)
  · rw [impairTx_room full]
    exact .accepts (by omega)

theorem impairRxDrain_move (delay jiffies : Nat) {qv : QVector} (stats : Stats64)
    (copyFails : Bool) {poll : PollFrame} (here : qv.poll = .draining poll) :
    QMove delay jiffies qv stats (.proceed copyFails) (impairRxDrain qv poll) stats := by
  simp only [impairRxDrain]
  split
  · rename_i within
    split
    · rename_i empty
      exact .drained here within empty
    · rename_i some
      rw [Bool.not_eq_true] at some
      split
      · rename_i null
        refine .pops here within some ?_ fun _ => rfl
        intro skb found
        rw [null] at found
        contradiction
      · rename_i skb found
        refine .pops here within some ?_ ?_
        · intro other same
          rw [found, Option.some.injEq] at same
          rw [same]
        · intro null
          rw [found] at null
          contradiction
  · rename_i limit
    exact .drainsAll here (by omega)

theorem impairRxDeliver_move (delay jiffies : Nat) {qv : QVector} (stats : Stats64)
    (copyFails : Bool) {poll : PollFrame} (here : qv.poll = .delivering poll) :
    QMove delay jiffies qv stats (.proceed copyFails) (impairRxDeliver qv poll) stats := by
  simp only [impairRxDeliver]
  split
  · rename_i within
    split
    · rename_i empty
      exact .delivered here within empty
    · rename_i some
      rw [Bool.not_eq_true] at some
      split
      · rename_i null
        refine .takes here within some ?_ fun _ => rfl
        intro skb found
        rw [null] at found
        contradiction
      · rename_i skb found
        refine .takes here within some ?_ ?_
        · intro other same
          rw [found, Option.some.injEq] at same
          rw [same]
        · intro null
          rw [found] at null
          contradiction
  · rename_i limit
    exact .deliversAll here (by omega)

theorem impairRxPush_move (delay jiffies : Nat) {qv : QVector} (stats : Stats64)
    (copyFails : Bool) {poll : PollFrame} {skb : Skb} (here : qv.poll = .pushing poll skb) :
    QMove delay jiffies qv stats (.proceed copyFails) (impairRxPush qv stats poll skb).1
      (impairRxPush qv stats poll skb).2 := by
  simp only [impairRxPush]
  split
  · exact .rejects (by rw [here]; rfl)
  · rename_i room
    split
    · exact .pushes here (by omega)
    · exact .pushes here (by omega)

theorem impairPollReturn_move (delay jiffies : Nat) {qv : QVector} (stats : Stats64)
    (copyFails : Bool) {poll : PollFrame} (here : qv.poll = .returning poll) :
    QMove delay jiffies qv stats (.proceed copyFails) (impairPollReturn qv poll) stats := by
  simp only [impairPollReturn]
  split
  · rename_i below
    exact .napiCompletes here below
  · rename_i spent
    exact .returns here (by omega)

theorem impairPoll_move {delay jiffies : Nat} {rxFilter : RxFilterState} {rxCsum copyFails : Bool}
    {qv next : QVector} {stats after : Stats64}
    (taken : impairPoll rxFilter rxCsum copyFails qv stats qv.poll = some (next, after)) :
    QMove delay jiffies qv stats (.proceed copyFails) next after := by
  cases here : qv.poll with
  | idle =>
      rw [here] at taken
      contradiction
  | draining poll =>
      rw [here, impairPoll] at taken
      exact (impairRxDrain_move delay jiffies stats copyFails here).toReturned taken
  | copying poll skb =>
      have flying : qv.poll.inFlight = some (poll, skb) := by rw [here]; rfl
      rw [here] at taken
      simp only [impairPoll] at taken
      split at taken
      · exact (QMove.rejects flying).toReturned taken
      · split at taken
        · exact (QMove.rejects flying).toReturned taken
        · exact (QMove.forwards flying rfl).toReturned taken
  | filtering poll skb =>
      have flying : qv.poll.inFlight = some (poll, skb) := by rw [here]; rfl
      rw [here] at taken
      simp only [impairPoll] at taken
      split at taken
      · exact (QMove.forwards flying rfl).toReturned taken
      · exact (QMove.rejects flying).toReturned taken
  | pushing poll skb =>
      rw [here, impairPoll, Option.some.injEq] at taken
      have move := impairRxPush_move delay jiffies stats copyFails here
      rwa [taken] at move
  | dropping poll skb =>
      rw [here, impairPoll] at taken
      exact (QMove.drops here).toReturned taken
  | txComplete poll skb =>
      rw [here, impairPoll] at taken
      exact (QMove.completes here).toReturned taken
  | delivering poll =>
      rw [here, impairPoll] at taken
      exact (impairRxDeliver_move delay jiffies stats copyFails here).toReturned taken
  | receiving poll skb =>
      rw [here, impairPoll] at taken
      exact (QMove.receives here).toReturned taken
  | handing poll skb ipSummed =>
      rw [here, impairPoll] at taken
      exact (QMove.hands here).toReturned taken
  | returning poll =>
      rw [here, impairPoll] at taken
      exact (impairPollReturn_move delay jiffies stats copyFails here).toReturned taken

variable {Queue : Type} [DecidableEq Queue]

omit [DecidableEq Queue] in
theorem qStep_move {delay : Nat} {sys : ImpairSys Queue} {qv next : QVector} {action : QAction}
    {after : Stats64} (taken : qStep delay sys qv action = some (next, after)) :
    QMove delay sys.jiffies qv sys.stats action next after := by
  cases action with
  | tx skb =>
      simp only [qStep] at taken
      exact (impairTx_move delay sys.jiffies qv sys.stats skb).toReturned taken
  | modTimer =>
      simp only [qStep] at taken
      split at taken
      · contradiction
      · rename_i sender
        exact (QMove.arms (by omega)).toReturned taken
  | txTimeout =>
      simp only [qStep] at taken
      split at taken
      · exact QMove.timesOut.toReturned taken
      · contradiction
  | watchdog =>
      simp only [qStep] at taken
      split at taken
      · contradiction
      · rename_i here
        exact (QMove.rearms here).toReturned taken
      · rename_i here
        exact (QMove.wakes here).toReturned taken
  | expire =>
      simp only [qStep] at taken
      split at taken
      · contradiction
      · rename_i expiry pending
        split at taken
        · rename_i due
          exact (QMove.expires pending due).toReturned taken
        · contradiction
  | poll budget =>
      simp only [qStep] at taken
      split at taken
      · rename_i free
        exact (QMove.polls free.1 free.2).toReturned taken
      · contradiction
  | proceed copyFails =>
      rw [qStep] at taken
      exact impairPoll_move taken

inductive ImpairMove (delay : Nat) (sys : ImpairSys Queue) :
    ImpairAction Queue → ImpairSys Queue → Prop
  | queue {queue : Queue} {action : QAction} {qv : QVector} {after : Stats64}
      (move : QMove delay sys.jiffies (sys.qVect queue) sys.stats action qv after) :
      ImpairMove delay sys (.queue queue action)
        { sys with qVect := Function.update sys.qVect queue qv, stats := after }
  | aside {action : ImpairAction Queue} {next : ImpairSys Queue}
      (elsewhere : ∀ queue action', action ≠ .queue queue action')
      (queues : next.qVect = sys.qVect) (stats : next.stats = sys.stats)
      (clock : next.jiffies = sys.jiffies ∨ next.jiffies = sys.jiffies + 1) :
      ImpairMove delay sys action next

theorem impairStep_move {delay : Nat} {sys next : ImpairSys Queue} {action : ImpairAction Queue}
    (taken : impairStep delay sys action = some next) : ImpairMove delay sys action next := by
  cases action with
  | queue queue action =>
      simp only [impairStep, Option.map_eq_some_iff] at taken
      obtain ⟨⟨qv, after⟩, moved, rfl⟩ := taken
      exact .queue (qStep_move moved)
  | setRxMode promisc allmulti devAddr mcList =>
      rw [impairStep, Option.some.injEq] at taken
      subst taken
      exact .aside (by simp) rfl rfl (Or.inl rfl)
  | setMacAddress addr =>
      rw [impairStep, Option.some.injEq] at taken
      subst taken
      exact .aside (by simp) rfl rfl (Or.inl rfl)
  | setRxCsum on =>
      rw [impairStep, Option.some.injEq] at taken
      subst taken
      exact .aside (by simp) rfl rfl (Or.inl rfl)
  | tick =>
      rw [impairStep, Option.some.injEq] at taken
      subst taken
      exact .aside (by simp) rfl rfl (Or.inr rfl)

def OnQueue (condition : Nat → QVector → QAction → Prop) (sys : ImpairSys Queue) :
    ImpairAction Queue → Prop
  | .queue queue action => condition sys.jiffies (sys.qVect queue) action
  | _ => True

omit [DecidableEq Queue] in
theorem onQueue_true (sys : ImpairSys Queue) (action : ImpairAction Queue) :
    OnQueue (fun _ _ _ => True) sys action := by
  cases action with
  | _ => trivial

theorem everyQueue_step {invariant : Nat → QVector → Prop}
    {condition : Nat → QVector → QAction → Prop} {delay : Nat}
    (later : ∀ jiffies qv, invariant jiffies qv → invariant (jiffies + 1) qv)
    (moved : ∀ jiffies qv stats action next after, invariant jiffies qv →
      condition jiffies qv action → QMove delay jiffies qv stats action next after →
      invariant jiffies next)
    {sys next : ImpairSys Queue} {action : ImpairAction Queue}
    (holds : ∀ queue, invariant sys.jiffies (sys.qVect queue))
    (condition_holds : OnQueue condition sys action)
    (taken : impairStep delay sys action = some next) :
    ∀ queue, invariant next.jiffies (next.qVect queue) := by
  cases impairStep_move taken with
  | queue move =>
      rename_i moving qaction qv after
      intro queue
      simp only
      by_cases same : queue = moving
      · subst same
        rw [Function.update_self]
        exact moved _ _ _ _ _ _ (holds queue) condition_holds move
      · rw [Function.update_of_ne same]
        exact holds queue
  | aside _ queues _ clock =>
      intro queue
      rw [queues]
      rcases clock with same | ticked
      · exact same ▸ holds queue
      · exact ticked ▸ later _ _ (holds queue)

end Machine

end Ldd3.Impair
