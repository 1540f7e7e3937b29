import Mathlib.Tactic
import Ldd3.Lib.StepMachine
import Ldd3.Impair.Account

/-!
What gets a queue's packets moving again: its timer, its scheduled NAPI, or a sender that has
not armed the timer yet.
-/

namespace Ldd3.Impair

/-- The poll has found the tx ring empty and will complete its NAPI. -/
def PollPoint.pastDrain : PollPoint → Bool
  | .delivering _ | .receiving _ _ | .handing _ _ _ => true
  | .returning poll => decide (poll.drained + poll.delivered < poll.budget)
  | _ => false

def QVector.willDrain (qv : QVector) : Bool :=
  qv.scheduled && (qv.missed || !qv.poll.pastDrain)

/-- Packets in the tx ring have a timer that is good for them, a sender about to set the
timer, or a NAPI that will drain them. -/
structure Covered (armed : List Accepted → Option Nat → Prop) (qv : QVector) : Prop where
  running : qv.poll ≠ .idle → qv.scheduled = true
  tx : qv.waiting ≠ [] → armed qv.waiting qv.timer ∨ 0 < qv.arming ∨ qv.willDrain = true

theorem willDrain_of_scheduled {qv : QVector} (scheduled : qv.scheduled = true)
    (before : qv.poll.pastDrain = false) : qv.willDrain = true := by
  rw [QVector.willDrain, scheduled, before, Bool.not_false, Bool.or_true, Bool.and_true]

theorem willDrain_pastDrain {qv : QVector} (past : qv.poll.pastDrain = true)
    (drains : qv.willDrain = true) : qv.scheduled = true ∧ qv.missed = true := by
  rw [QVector.willDrain, past, Bool.not_true, Bool.or_false, Bool.and_eq_true] at drains
  exact drains

theorem pastDrain_of_inFlight {point : PollPoint} {poll : PollFrame} {skb : Skb}
    (flying : point.inFlight = some (poll, skb)) : point ≠ .idle ∧ point.pastDrain = false := by
  cases point with
  | copying | filtering | pushing => exact ⟨PollPoint.noConfusion, rfl⟩
  | _ => contradiction

section Cover

variable {armed : List Accepted → Option Nat → Prop} {qv : QVector}

theorem Covered.scheduled (covered : Covered armed qv) {point : PollPoint} (here : qv.poll = point)
    (runs : point ≠ .idle) : qv.scheduled = true :=
  covered.running (here ▸ runs)

theorem Covered.draining (covered : Covered armed qv) (runs : qv.poll ≠ .idle)
    {next : QVector} (scheduled : next.scheduled = qv.scheduled)
    (before : next.poll.pastDrain = false) : Covered armed next := by
  have still : next.scheduled = true := scheduled.trans (covered.running runs)
  exact ⟨fun _ => still, fun _ => Or.inr (Or.inr (willDrain_of_scheduled still before))⟩

theorem Covered.later (covered : Covered armed qv) (past : qv.poll.pastDrain = true)
    {next : QVector} (waiting : next.waiting = qv.waiting) (timer : next.timer = qv.timer)
    (arming : next.arming = qv.arming) (running : next.poll ≠ .idle → next.scheduled = true)
    (remembered : qv.scheduled = true → qv.missed = true → next.willDrain = true) :
    Covered armed next := by
  refine ⟨running, ?_⟩
  intro some
  rw [waiting, timer, arming]
  rw [waiting] at some
  rcases covered.tx some with ready | sender | drains
  · exact Or.inl ready
  · exact Or.inr (Or.inl sender)
  · obtain ⟨scheduled, missed⟩ := willDrain_pastDrain past drains
    exact Or.inr (Or.inr (remembered scheduled missed))

theorem Covered.forward (covered : Covered armed qv) (past : qv.poll.pastDrain = true)
    (runs : qv.poll ≠ .idle) {next : QVector} (waiting : next.waiting = qv.waiting)
    (timer : next.timer = qv.timer) (arming : next.arming = qv.arming)
    (scheduled : next.scheduled = qv.scheduled) (missed : next.missed = qv.missed) :
    Covered armed next := by
  have still := scheduled.trans (covered.running runs)
  apply covered.later past waiting timer arming fun _ => still
  intro _ remembered
  rw [QVector.willDrain, still, missed, remembered]
  rfl

theorem Covered.expires (covered : Covered armed qv) : Covered armed (implTimerHandler qv) := by
  refine ⟨fun _ => rfl, fun _ => Or.inr (Or.inr ?_)⟩
  cases scheduled : qv.scheduled with
  | true =>
      simp only [QVector.willDrain, implTimerHandler, napiSchedule, scheduled, Bool.or_true,
        Bool.true_or, Bool.and_true]
  | false =>
      have idle : qv.poll = .idle := by
        by_contra runs
        rw [covered.running runs] at scheduled
        contradiction
      exact willDrain_of_scheduled rfl (congrArg PollPoint.pastDrain idle)

theorem covered_move {delay jiffies : Nat} {next : QVector} {stats after : Stats64}
    {action : QAction} (invariant : QueueInvariant qv) (covered : Covered armed qv)
    (move : QMove delay jiffies qv stats action next after)
    (sent : action = .modTimer → qv.waiting ≠ [] →
      armed qv.waiting (some (jiffies + delay)) ∨ 1 < qv.arming ∨ qv.willDrain = true)
    (watched : action = .watchdog → qv.watchdog = .arming → qv.waiting ≠ [] →
      armed qv.waiting (some (jiffies + delay)) ∨ 0 < qv.arming ∨ qv.willDrain = true) :
    Covered armed next := by
  cases move with
  | refuses full => exact ⟨covered.running, covered.tx⟩
  | accepts room => exact ⟨covered.running, fun _ => Or.inr (Or.inl (Nat.succ_pos _))⟩
  | arms sender =>
      refine ⟨covered.running, ?_⟩
      intro some
      rcases sent rfl some with good | others | drains
      · exact Or.inl good
      · exact Or.inr (Or.inl (Nat.sub_pos_of_lt others))
      · exact Or.inr (Or.inr drains)
  | timesOut => exact ⟨covered.running, covered.tx⟩
  | rearms here => exact ⟨covered.running, watched rfl here⟩
  | wakes here => exact ⟨covered.running, covered.tx⟩
  | expires pending due => exact covered.expires
  | polls scheduled idle =>
      exact ⟨fun _ => scheduled, fun _ => Or.inr (Or.inr (willDrain_of_scheduled scheduled rfl))⟩
  | drained here within empty =>
      have none : qv.waiting = [] := List.map_eq_nil_iff.mp (invariant.tx.isEmpty_iff.mp empty)
      have scheduled := covered.scheduled here PollPoint.noConfusion
      exact ⟨fun _ => scheduled, fun some => absurd none some⟩
  | pops here within some found null =>
      obtain ⟨skb, rest, _, oldest, _⟩ := invariant.tx.pop some
      rw [found skb oldest]
      exact covered.draining (here ▸ PollPoint.noConfusion) rfl rfl
  | drainsAll here limit =>
      refine covered.draining (here ▸ PollPoint.noConfusion) rfl ?_
      simp only [PollPoint.pastDrain, decide_eq_false_iff_not]
      omega
  | rejects here => exact covered.draining (pastDrain_of_inFlight here).1 rfl rfl
  | forwards here there =>
      exact covered.draining (pastDrain_of_inFlight here).1 rfl (pastDrain_of_inFlight there).2
  | pushes here room => exact covered.draining (here ▸ PollPoint.noConfusion) rfl rfl
  | drops here => exact covered.draining (here ▸ PollPoint.noConfusion) rfl rfl
  | completes here => exact covered.draining (here ▸ PollPoint.noConfusion) rfl rfl
  | delivered here within empty =>
      exact covered.forward (here ▸ rfl) (here ▸ PollPoint.noConfusion) rfl rfl rfl rfl rfl
  | takes here within some found null =>
      exact covered.forward (here ▸ rfl) (here ▸ PollPoint.noConfusion) rfl rfl rfl rfl rfl
  | deliversAll here limit =>
      refine covered.draining (here ▸ PollPoint.noConfusion) rfl ?_
      simp only [PollPoint.pastDrain, decide_eq_false_iff_not]
      omega
  | receives here =>
      exact covered.forward (here ▸ rfl) (here ▸ PollPoint.noConfusion) rfl rfl rfl rfl rfl
  | hands here =>
      exact covered.forward (here ▸ rfl) (here ▸ PollPoint.noConfusion) rfl rfl rfl rfl rfl
  | napiCompletes here below =>
      have past : qv.poll.pastDrain = true := by
        rw [here]
        exact decide_eq_true below
      refine covered.later past rfl rfl rfl ?_ ?_
      · intro runs
        exact absurd rfl runs
      · intro _ missed
        exact willDrain_of_scheduled missed rfl
  | returns here spent => exact covered.draining (here ▸ PollPoint.noConfusion) rfl rfl

end Cover

/-- What the poll has found, where that decides whether it completes its NAPI. -/
def PollPoint.FoundEmpty : PollPoint → Prop
  | .delivering poll | .receiving poll _ | .handing poll _ _ =>
      poll.drained < poll.budget ∧ poll.txEmpty = true
  | .returning poll =>
      poll.drained + poll.delivered < poll.budget → poll.txEmpty = true ∧ poll.rxEmpty = true
  | _ => True

structure WakeInvariant (qv : QVector) : Prop where
  queue : QueueInvariant qv
  covered : Covered (fun _ timer => timer.isSome = true) qv
  found : qv.poll.FoundEmpty
  rx : qv.rxRing.isEmpty = false → qv.scheduled = true
  cleared : ∀ poll, qv.poll = .returning poll → poll.drained + poll.delivered < poll.budget →
    qv.rxRing.isEmpty = true
  stopped : qv.stopped = true → ringFree qv.txRing = 0

theorem wakeInvariant_allocated : WakeInvariant .allocated where
  queue := queueInvariant_allocated
  covered := ⟨fun runs => absurd rfl runs, fun some => absurd rfl some⟩
  found := trivial
  rx := by
    intro some
    contradiction
  cleared := by
    intro poll here
    contradiction
  stopped := by
    intro stopped
    contradiction

theorem foundEmpty_of_inFlight {point : PollPoint} {poll : PollFrame} {skb : Skb}
    (flying : point.inFlight = some (poll, skb)) : point.FoundEmpty := by
  cases point with
  | copying | filtering | pushing => trivial
  | _ => contradiction

section Wake

variable {delay jiffies : Nat} {qv next : QVector} {stats after : Stats64} {action : QAction}

theorem stopped_move (stopped : qv.stopped = true → ringFree qv.txRing = 0)
    (move : QMove delay jiffies qv stats action next after) :
    next.stopped = true → ringFree next.txRing = 0 := by
  cases move with
  | refuses full => exact fun _ => full
  | accepts room =>
      intro still
      have full := stopped still
      omega
  | wakes here =>
      intro still
      contradiction
  | pops here within some found null =>
      intro still
      simp only [Bool.and_eq_true, Bool.not_eq_true', decide_eq_false_iff_not] at still
      exact Nat.eq_zero_of_not_pos still.2
  | _ => exact stopped

theorem WakeInvariant.rx_move (invariant : WakeInvariant qv)
    (move : QMove delay jiffies qv stats action next after) :
    next.rxRing.isEmpty = false → next.scheduled = true := by
  cases move with
  | expires pending due => exact fun _ => rfl
  | pushes here room => exact fun _ => invariant.covered.scheduled here PollPoint.noConfusion
  | takes here within some found null =>
      exact fun _ => invariant.covered.scheduled here PollPoint.noConfusion
  | napiCompletes here below =>
      intro some
      have empty := invariant.cleared _ here below
      exact absurd (some.symm.trans empty) Bool.false_ne_true
  | _ => exact invariant.rx

theorem WakeInvariant.found_move (invariant : WakeInvariant qv)
    (move : QMove delay jiffies qv stats action next after) : next.poll.FoundEmpty := by
  have found := invariant.found
  cases move with
  | drained here within empty => exact ⟨within, rfl⟩
  | pops here within some oldest null =>
      obtain ⟨skb, rest, _, here, _⟩ := invariant.queue.tx.pop some
      rw [oldest skb here]
      trivial
  | drainsAll here limit =>
      intro below
      omega
  | forwards here there => exact foundEmpty_of_inFlight there
  | delivered here within empty =>
      rw [here] at found
      exact fun _ => ⟨found.2, rfl⟩
  | takes here within some oldest null =>
      obtain ⟨skbs, holds, _⟩ := invariant.queue.rx
      obtain ⟨skb, rest, _, first, _⟩ := holds.pop some
      rw [here] at found
      rw [oldest skb first]
      exact found
  | deliversAll here limit =>
      rw [here] at found
      have within := found.1
      intro below
      omega
  | receives here =>
      rw [here] at found
      exact found
  | hands here =>
      rw [here] at found
      exact found
  | polls | rejects | pushes | drops | completes | napiCompletes | returns => trivial
  | _ => exact found

theorem WakeInvariant.cleared_move (invariant : WakeInvariant qv)
    (move : QMove delay jiffies qv stats action next after) {poll : PollFrame}
    (there : next.poll = .returning poll) (below : poll.drained + poll.delivered < poll.budget) :
    next.rxRing.isEmpty = true := by
  have found := invariant.found
  cases move with
  | drained | polls | rejects | pushes | drops | completes | receives | hands | napiCompletes |
    returns => contradiction
  | pops here within some oldest null =>
      obtain ⟨skb, rest, _, first, _⟩ := invariant.queue.tx.pop some
      rw [oldest skb first] at there
      contradiction
  | drainsAll here limit =>
      rw [PollPoint.returning.injEq] at there
      subst there
      omega
  | forwards here flying =>
      simp only at there
      rw [there] at flying
      contradiction
  | delivered here within empty => exact empty
  | takes here within some oldest null =>
      obtain ⟨skbs, holds, _⟩ := invariant.queue.rx
      obtain ⟨skb, rest, _, first, _⟩ := holds.pop some
      rw [oldest skb first] at there
      contradiction
  | deliversAll here limit =>
      rw [PollPoint.returning.injEq] at there
      subst there
      rw [here] at found
      have within := found.1
      omega
  | _ => exact invariant.cleared poll there below

theorem wakeInvariant_move (invariant : WakeInvariant qv)
    (move : QMove delay jiffies qv stats action next after) : WakeInvariant next where
  queue := queueInvariant_move invariant.queue move
  covered := covered_move invariant.queue invariant.covered move (fun _ _ => Or.inl rfl)
    (fun _ _ _ => Or.inl rfl)
  found := invariant.found_move move
  rx := invariant.rx_move move
  cleared := fun _ => invariant.cleared_move move
  stopped := stopped_move invariant.stopped move

end Wake

/-- No packet and no queue is stranded. `returning` is the point where `impair_poll` is about
to return, and completes its NAPI when it has work left. -/
structure NeverStranded (qv : QVector) : Prop where
  moving : qv.txRing.isEmpty = false ∨ qv.rxRing.isEmpty = false →
    qv.timer.isSome = true ∨ qv.scheduled = true ∨ 0 < qv.arming
  completes : ∀ poll, qv.poll = .returning poll → poll.drained + poll.delivered < poll.budget →
    poll.txEmpty = true ∧ poll.rxEmpty = true
  stopped : qv.stopped = true → ringFree qv.txRing = 0
  wakes : ∀ poll, qv.poll = .draining poll → poll.drained < poll.budget →
    qv.txRing.isEmpty = false → (impairRxDrain qv poll).stopped = false

theorem Holds.clean_free {ring : ImpairRing} {skbs : List Skb} (holds : Holds ring skbs)
    (some : ring.isEmpty = false) : 0 < ringFree ring.clean := by
  obtain ⟨skb, rest, rfl, _, cleaned⟩ := holds.pop some
  have bound := holds.length_lt
  rw [List.length_cons] at bound
  rw [cleaned.ringFree_eq]
  omega

theorem WakeInvariant.wakes {qv : QVector} (invariant : WakeInvariant qv) {poll : PollFrame}
    (within : poll.drained < poll.budget) (some : qv.txRing.isEmpty = false) :
    (impairRxDrain qv poll).stopped = false := by
  have free := invariant.queue.tx.clean_free some
  simp only [impairRxDrain, within, some, free, if_true, decide_true, Bool.not_true,
    Bool.and_false, Bool.false_eq_true, if_false]
  split <;> rfl

theorem WakeInvariant.neverStranded {qv : QVector} (invariant : WakeInvariant qv) :
    NeverStranded qv where
  moving := by
    intro some
    rcases some with tx | rx
    · rcases invariant.covered.tx (invariant.queue.waiting_ne tx) with timer | sender | drains
      · exact Or.inl timer
      · exact Or.inr (Or.inr sender)
      · simp only [QVector.willDrain, Bool.and_eq_true] at drains
        exact Or.inr (Or.inl drains.1)
    · exact Or.inr (Or.inl (invariant.rx rx))
  completes := by
    intro poll here below
    have found := invariant.found
    rw [here] at found
    exact found below
  stopped := invariant.stopped
  wakes := fun _ _ => invariant.wakes

section Machine

variable {Queue : Type} [DecidableEq Queue]

theorem impair_neverStranded (delay : Nat) (opened : Stats64) (rxFilter : RxFilterState)
    (rxCsum : Bool) (jiffies : Nat) (actions : List (ImpairAction Queue)) :
    StepMachine.Always (impairStep delay) (fun sys => ∀ queue, NeverStranded (sys.qVect queue))
      (.opened Queue opened rxFilter rxCsum jiffies) actions := by
  have preserved : ∀ (sys : ImpairSys Queue) action next,
      (∀ queue, WakeInvariant (sys.qVect queue)) → True →
      impairStep delay sys action = some next → ∀ queue, WakeInvariant (next.qVect queue) := by
    intro sys action next invariant _ taken
    exact everyQueue_step (fun _ _ holds => holds)
      (fun _ _ _ _ _ _ holds _ move => wakeInvariant_move holds move) invariant
      (onQueue_true sys action) taken
  have enough : ∀ sys : ImpairSys Queue, (∀ queue, WakeInvariant (sys.qVect queue)) →
      ∀ queue, NeverStranded (sys.qVect queue) :=
    fun _ invariant queue => (invariant queue).neverStranded
  exact StepMachine.always_of_meets preserved enough (fun _ => wakeInvariant_allocated)
    (StepMachine.meets_true _ _)

end Machine

end Ldd3.Impair
