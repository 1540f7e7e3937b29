import Mathlib.Tactic

/-!
A fair lock as the queue of those that have asked for it: the first one owns it, the others wait
in the order in which they came. Where a process is tells whether it has asked, and whether it
has gone on as the owner.
-/

namespace QueueLock

variable {Pid Point : Type} {asked entered : Point → Bool} {queue : List Pid}
  {points : Pid → Point}

structure Queued (asked entered : Point → Bool) (queue : List Pid) (points : Pid → Point) :
    Prop where
  member : ∀ pid, asked (points pid) = true ↔ pid ∈ queue
  unique : queue.Nodup
  owner : ∀ pid, entered (points pid) = true → queue.head? = some pid

theorem Queued.exclusive (queued : Queued asked entered queue points) {first second : Pid}
    (firstEntered : entered (points first) = true) (owns : queue.head? = some second) :
    first = second :=
  Option.some.inj ((queued.owner first firstEntered).symm.trans owns)

theorem Queued.tail_of_head (queued : Queued asked entered queue points) {pid : Pid}
    (owns : queue.head? = some pid) : queue = pid :: queue.tail ∧ pid ∉ queue.tail := by
  have split := List.cons_head?_tail owns
  have unique := queued.unique
  rw [← split, List.nodup_cons] at unique
  exact ⟨split.symm, unique.1⟩

variable [DecidableEq Pid] {pid : Pid} {point : Point}

theorem Queued.ask (queued : Queued asked entered queue points)
    (before : asked (points pid) = false) (after : asked point = true)
    (waits : entered point = false) :
    Queued asked entered (queue ++ [pid]) (Function.update points pid point) where
  member := by
    intro other
    rw [List.mem_append, List.mem_singleton]
    by_cases same : other = pid
    · rw [same, Function.update_self]
      exact iff_of_true after (Or.inr rfl)
    · rw [Function.update_of_ne same, queued.member]
      exact (or_iff_left same).symm
  unique := by
    refine queued.unique.append (List.nodup_singleton pid) ?_
    rw [List.disjoint_singleton]
    intro listed
    rw [(queued.member pid).mpr listed] at before
    contradiction
  owner := by
    intro other entered
    by_cases same : other = pid
    · rw [same, Function.update_self, waits] at entered
      contradiction
    · rw [Function.update_of_ne same] at entered
      rw [List.head?_append, queued.owner other entered]
      rfl

theorem Queued.move (queued : Queued asked entered queue points)
    (same : asked point = asked (points pid))
    (owns : entered point = true → queue.head? = some pid) :
    Queued asked entered queue (Function.update points pid point) where
  member := by
    intro other
    by_cases here : other = pid
    · rw [here, Function.update_self, same]
      exact queued.member pid
    · rw [Function.update_of_ne here]
      exact queued.member other
  unique := queued.unique
  owner := by
    intro other entered
    by_cases here : other = pid
    · rw [here, Function.update_self] at entered
      rw [here]
      exact owns entered
    · rw [Function.update_of_ne here] at entered
      exact queued.owner other entered

theorem Queued.leave (queued : Queued asked entered queue points)
    (owns : queue.head? = some pid) (after : asked point = false) (left : entered point = false) :
    Queued asked entered queue.tail (Function.update points pid point) := by
  obtain ⟨split, absent⟩ := queued.tail_of_head owns
  refine ⟨?_, queued.unique.tail, ?_⟩
  · intro other
    by_cases here : other = pid
    · rw [here, Function.update_self, after]
      exact iff_of_false Bool.false_ne_true absent
    · rw [Function.update_of_ne here, queued.member, split, List.mem_cons, List.tail_cons]
      exact or_iff_right here
  · intro other entered
    by_cases here : other = pid
    · rw [here, Function.update_self, left] at entered
      contradiction
    · rw [Function.update_of_ne here] at entered
      exact absurd (queued.exclusive entered owns) here

end QueueLock
