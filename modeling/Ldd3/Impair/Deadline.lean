import Mathlib.Tactic
import Ldd3.Lib.StepMachine
import Ldd3.Impair.Wake

/-!
The one timer of a queue against the deadlines of all packets in its tx ring.
-/

namespace Ldd3.Impair

def OldestDue (delay : Nat) (waiting : List Accepted) (timer : Option Nat) : Prop :=
  ∃ oldest expiry, waiting.head? = some oldest ∧ timer = some expiry ∧ expiry ≤ oldest.time + delay

/-- With no NAPI scheduled and no sender inside `impair_tx`, the packet in the oldest
descriptor is due when the timer runs out. -/
def OnTime (delay : Nat) (qv : QVector) : Prop :=
  qv.txRing.isEmpty = false → qv.scheduled = false → qv.arming = 0 →
    OldestDue delay qv.waiting qv.timer ∧
      qv.txRing.oldest = qv.waiting.head?.map Accepted.skb

def OldestIsNew (jiffies : Nat) (qv : QVector) : Prop :=
  ∀ oldest, qv.waiting.head? = some oldest → jiffies ≤ oldest.time

/-- A `mod_timer` comes at the time at which the oldest packet was accepted, unless another
sender is still to set the timer or the NAPI will drain the ring anyway. -/
def KeepsDeadline (jiffies : Nat) (qv : QVector) : QAction → Prop
  | .modTimer => 1 < qv.arming ∨ qv.willDrain = true ∨ OldestIsNew jiffies qv
  | .watchdog =>
      qv.watchdog = .arming → 0 < qv.arming ∨ qv.willDrain = true ∨ OldestIsNew jiffies qv
  | _ => True

instance (jiffies : Nat) (qv : QVector) : Decidable (OldestIsNew jiffies qv) :=
  match found : qv.waiting.head? with
  | none => isTrue fun _ some => by
      rw [found] at some
      contradiction
  | some oldest => decidable_of_iff (jiffies ≤ oldest.time) <| by
      simp only [OldestIsNew, found, Option.some.injEq, forall_eq']

instance (jiffies : Nat) (qv : QVector) (action : QAction) :
    Decidable (KeepsDeadline jiffies qv action) := by
  cases action <;> simp only [KeepsDeadline] <;> infer_instance

instance {Queue : Type} (sys : ImpairSys Queue) (action : ImpairAction Queue) :
    Decidable (OnQueue KeepsDeadline sys action) := by
  cases action <;> simp only [OnQueue] <;> infer_instance

structure DeadlineInvariant (delay : Nat) (qv : QVector) : Prop where
  queue : QueueInvariant qv
  covered : Covered (OldestDue delay) qv

theorem deadlineInvariant_allocated (delay : Nat) : DeadlineInvariant delay .allocated where
  queue := queueInvariant_allocated
  covered := ⟨fun runs => absurd rfl runs, fun some => absurd rfl some⟩

theorem oldestDue_iff_new {delay jiffies : Nat} {qv : QVector} (some : qv.waiting ≠ []) :
    OldestDue delay qv.waiting (.some (jiffies + delay)) ↔ OldestIsNew jiffies qv := by
  obtain ⟨first, rest, waiting⟩ := List.exists_cons_of_ne_nil some
  have head : qv.waiting.head? = .some first := by rw [waiting, List.head?_cons]
  constructor
  · rintro ⟨oldest, expiry, found, pending, due⟩ other same
    rw [Option.some.injEq] at pending
    have equal := Option.some.inj (found.symm.trans same)
    rw [← equal]
    omega
  · intro new
    exact ⟨first, jiffies + delay, head, rfl, Nat.add_le_add_right (new first head) delay⟩

theorem deadlineInvariant_move {delay jiffies : Nat} {qv next : QVector} {stats after : Stats64}
    {action : QAction} (invariant : DeadlineInvariant delay qv)
    (keeps : KeepsDeadline jiffies qv action)
    (move : QMove delay jiffies qv stats action next after) : DeadlineInvariant delay next where
  queue := queueInvariant_move invariant.queue move
  covered := by
    apply covered_move invariant.queue invariant.covered move
    · intro sends some
      subst sends
      rcases keeps with others | drains | new
      · exact Or.inr (Or.inl others)
      · exact Or.inr (Or.inr drains)
      · exact Or.inl ((oldestDue_iff_new some).mpr new)
    · intro watches here some
      subst watches
      rcases keeps here with others | drains | new
      · exact Or.inr (Or.inl others)
      · exact Or.inr (Or.inr drains)
      · exact Or.inl ((oldestDue_iff_new some).mpr new)

theorem DeadlineInvariant.onTime {delay : Nat} {qv : QVector}
    (invariant : DeadlineInvariant delay qv) : OnTime delay qv := by
  intro some idle none
  obtain ⟨skb, rest, split, oldest, _⟩ := invariant.queue.tx.pop some
  obtain ⟨first, later, waiting, rfl, rfl⟩ := List.map_eq_cons_iff.mp split
  constructor
  · rcases invariant.covered.tx (waiting ▸ List.cons_ne_nil first later) with due | sender | drains
    · exact due
    · omega
    · rw [QVector.willDrain, idle] at drains
      contradiction
  · rw [oldest, waiting]
    rfl

theorem lateTimer_breaks {delay jiffies : Nat} {qv next : QVector} {stats after : Stats64}
    {action : QAction} (invariant : QueueInvariant qv)
    (move : QMove delay jiffies qv stats action next after)
    (sets : action = .modTimer ∨ action = .watchdog ∧ qv.watchdog = .arming)
    (alone : next.arming = 0) (idle : qv.scheduled = false) (some : qv.txRing.isEmpty = false)
    (late : ¬ OldestIsNew jiffies qv) : ¬ OnTime delay next := by
  have waiting := invariant.waiting_ne some
  intro onTime
  apply late
  cases move with
  | arms sender => exact (oldestDue_iff_new waiting).mp (onTime some idle alone).1
  | rearms here => exact (oldestDue_iff_new waiting).mp (onTime some idle alone).1
  | wakes here =>
      rw [here] at sets
      simp at sets
  | _ => simp at sets

section Machine

variable {Queue : Type} [DecidableEq Queue]

/-- When no `mod_timer` comes later than the oldest packet of its ring was accepted, every
packet is due within the delay. -/
theorem impair_onTime (delay : Nat) (opened : Stats64) (rxFilter : RxFilterState)
    (rxCsum : Bool) (jiffies : Nat) (actions : List (ImpairAction Queue))
    (meets : StepMachine.Meets (impairStep delay) (OnQueue KeepsDeadline)
      (.opened Queue opened rxFilter rxCsum jiffies) actions) :
    StepMachine.Always (impairStep delay) (fun sys => ∀ queue, OnTime delay (sys.qVect queue))
      (.opened Queue opened rxFilter rxCsum jiffies) actions := by
  have preserved : ∀ (sys : ImpairSys Queue) action next,
      (∀ queue, DeadlineInvariant delay (sys.qVect queue)) → OnQueue KeepsDeadline sys action →
      impairStep delay sys action = some next →
      ∀ queue, DeadlineInvariant delay (next.qVect queue) := by
    intro sys action next invariant keeps taken
    exact everyQueue_step (fun _ _ holds => holds)
      (fun _ _ _ _ _ _ holds keeps move => deadlineInvariant_move holds keeps move) invariant
      keeps taken
  have enough : ∀ sys : ImpairSys Queue, (∀ queue, DeadlineInvariant delay (sys.qVect queue)) →
      ∀ queue, OnTime delay (sys.qVect queue) :=
    fun _ invariant queue => (invariant queue).onTime
  exact StepMachine.always_of_meets preserved enough
    (fun _ => deadlineInvariant_allocated delay) meets

end Machine

def Stats64.zero : Stats64 :=
  { txPackets := 0, txBytes := 0, txErrors := 0, txDropped := 0, rxPackets := 0, rxBytes := 0,
    rxDropped := 0, multicast := 0 }

def ImpairSys.promiscuous : ImpairSys Unit :=
  .opened Unit .zero (impairSetRxMode true false [] []) true 0

def send (byte : Byte) : List (ImpairAction Unit) :=
  [.queue () (.tx ⟨List.replicate 60 byte⟩), .queue () .modTimer]

/-- Two packets of one jiffy are drained and received a jiffy later, then a third comes. -/
def burst : List (ImpairAction Unit) :=
  send 1 ++ send 2 ++ [.tick, .queue () .expire, .queue () (.poll 64)] ++
    List.replicate 19 (.queue () (.proceed false)) ++ send 3

theorem impair_onTime_burst :
    (StepMachine.run (impairStep 1) .promiscuous burst).isSome = true ∧
      StepMachine.Always (impairStep 1) (fun sys => ∀ queue, OnTime 1 (sys.qVect queue))
        .promiscuous burst :=
  ⟨by decide +kernel, impair_onTime 1 _ _ _ _ burst (by decide +kernel)⟩

def steadyFlow : List (ImpairAction Unit) := send 1 ++ [.tick] ++ send 2

theorem steadyFlow_timer :
    (StepMachine.run (impairStep 100) .promiscuous steadyFlow).map (fun sys =>
        ((sys.qVect ()).txRing.isEmpty, (sys.qVect ()).scheduled, (sys.qVect ()).arming,
          (sys.qVect ()).timer, (sys.qVect ()).waiting.head?.map Accepted.time)) =
      some (false, false, 0, some 101, some 0) := by
  decide +kernel

theorem impair_deadline_postponed :
    ¬ StepMachine.Always (impairStep 100) (fun sys => ∀ queue, OnTime 100 (sys.qVect queue))
      .promiscuous steadyFlow := by
  intro always
  obtain ⟨sys, onTime, outcome⟩ := always.observed steadyFlow_timer
  simp only [Prod.mk.injEq] at outcome
  obtain ⟨some, idle, none, timer, time⟩ := outcome
  obtain ⟨⟨oldest, expiry, first, pending, due⟩, _⟩ := onTime () some idle none
  rw [first, Option.map_some, Option.some.injEq] at time
  rw [timer, Option.some.injEq] at pending
  omega

end Ldd3.Impair
