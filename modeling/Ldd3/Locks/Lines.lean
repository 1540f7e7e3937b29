import Mathlib.Tactic
import Ldd3.Locks.Spin

/-!
The lines of `/proc/spin_demo`: what a show reads under the lock are the two counts of one moment,
also when the line is printed long after `spin_unlock_irqrestore`.
-/

namespace Ldd3.Locks

section Points

variable {length more irqCount bhCount : Nat} {point : SpinPoint}

def SpinPoint.Reads (length irqCount bhCount : Nat) : SpinPoint → Prop
  | showing since | showLocking since => since < length
  | showRead since irqc => since < length ∧ irqc = irqCount
  | showBoth since irqc bhc => since < length ∧ irqc = irqCount ∧ bhc = bhCount
  | idle | tasklet | taskletLocking | taskletCounted | taskletDone | handler | handlerLocking
  | handlerCounted | handlerUnlocked => True

theorem SpinPoint.Reads.longer (reads : point.Reads length irqCount bhCount)
    (longer : length ≤ more) : point.Reads more irqCount bhCount := by
  cases point with
  | showing since | showLocking since => exact reads.trans_le longer
  | showRead since irqc | showBoth since irqc bhc => exact ⟨reads.1.trans_le longer, reads.2⟩
  | idle | tasklet | taskletLocking | taskletCounted | taskletDone | handler | handlerLocking
  | handlerCounted | handlerUnlocked => trivial

theorem SpinPoint.Reads.other (reads : point.Reads length irqCount bhCount)
    (outside : point.entered = false) (irqs bhs : Nat) : point.Reads length irqs bhs := by
  cases point with
  | showRead since irqc | showBoth since irqc bhc => contradiction
  | showing since | showLocking since => exact reads
  | idle | tasklet | taskletLocking | taskletCounted | taskletDone | handler | handlerLocking
  | handlerCounted | handlerUnlocked => trivial

end Points

/-- The line is what the counts were at a moment from its start up to the given one. -/
def ShowLine.SeenIn (line : ShowLine) (history : List (Nat × Nat)) (upTo : Nat) : Prop :=
  ∃ moment, line.since ≤ moment ∧ moment < upTo ∧
    history[moment]? = some (line.irqc, line.bhc)

def NotAfter (earlier later : Nat × Nat) : Prop := earlier.1 ≤ later.1 ∧ earlier.2 ≤ later.2

section Seen

variable {line : ShowLine} {history : List (Nat × Nat)} {upTo : Nat}

theorem ShowLine.SeenIn.later (seen : line.SeenIn history upTo) (pair : Nat × Nat) {more : Nat}
    (longer : upTo ≤ more) : line.SeenIn (history ++ [pair]) more := by
  obtain ⟨moment, since, before, here⟩ := seen
  refine ⟨moment, since, before.trans_le longer, ?_⟩
  have inside := (List.getElem?_eq_some_iff.mp here).choose
  rw [List.getElem?_append_left inside, here]

theorem ShowLine.SeenIn.mem (seen : line.SeenIn history upTo) :
    (line.irqc, line.bhc) ∈ history := by
  obtain ⟨moment, _, _, here⟩ := seen
  exact List.mem_of_getElem? here

theorem getElem?_notAfter (later : history.Pairwise NotAfter) {first second : Nat}
    {earlierPair laterPair : Nat × Nat} (order : first ≤ second)
    (atFirst : history[first]? = some earlierPair)
    (atSecond : history[second]? = some laterPair) : NotAfter earlierPair laterPair := by
  rcases order.eq_or_lt with same | before
  · subst same
    rw [atFirst, Option.some.injEq] at atSecond
    subst atSecond
    exact ⟨le_rfl, le_rfl⟩
  · obtain ⟨firstInside, rfl⟩ := List.getElem?_eq_some_iff.mp atFirst
    obtain ⟨secondInside, rfl⟩ := List.getElem?_eq_some_iff.mp atSecond
    exact List.pairwise_iff_getElem.mp later first second firstInside secondInside before

end Seen

structure Shown {Cpu : Type} (sys : SpinSys Cpu) : Prop where
  current : sys.history.getLast? = some (sys.irqCount, sys.bhCount)
  later : sys.history.Pairwise NotAfter
  below : ∀ pair ∈ sys.history, pair.2 ≤ pair.1
  reading : ∀ context, (sys.points context).Reads sys.history.length sys.irqCount sys.bhCount
  printing : ∀ line ∈ sys.printing, line.SeenIn sys.history sys.history.length
  shown : ∀ line ∈ sys.shown, line.SeenIn sys.history line.upTo

structure ShowStep {Cpu : Type} (sys after : SpinSys Cpu) : Prop where
  history : after.history = sys.history
  later : NotAfter (sys.irqCount, sys.bhCount) (after.irqCount, after.bhCount)
  reading : ∀ context,
    (after.points context).Reads (sys.history.length + 1) after.irqCount after.bhCount
  printing : ∀ line ∈ after.printing, line.SeenIn sys.history sys.history.length
  shown : ∀ line ∈ after.shown, line.SeenIn sys.history line.upTo

section Machine

variable {Cpu : Type} {sys after next : SpinSys Cpu} {context : Context Cpu} {point : SpinPoint}
  {action : SpinAction Cpu}

theorem shown_loaded : Shown (.loaded Cpu) where
  current := rfl
  later := List.pairwise_singleton _ _
  below := by simp [SpinSys.loaded]
  reading := fun _ => trivial
  printing := by simp [SpinSys.loaded]
  shown := by simp [SpinSys.loaded]

theorem Shown.notAfter_current (books : Shown sys) {pair : Nat × Nat}
    (listed : pair ∈ sys.history) : NotAfter pair (sys.irqCount, sys.bhCount) := by
  obtain ⟨moment, here⟩ := List.getElem?_of_mem listed
  have inside := (List.getElem?_eq_some_iff.mp here).choose
  have last := books.current
  rw [List.getLast?_eq_getElem?] at last
  exact getElem?_notAfter books.later (by omega) here last

theorem ShowStep.record (move : ShowStep sys after) (books : Shown sys)
    (below : after.bhCount ≤ after.irqCount) : Shown after.record where
  current := by simp [SpinSys.record]
  later := by
    simp only [SpinSys.record, move.history]
    refine List.pairwise_append.mpr ⟨books.later, List.pairwise_singleton _ _, ?_⟩
    intro pair listed last here
    rw [List.mem_singleton.mp here]
    have earlier := books.notAfter_current listed
    exact ⟨earlier.1.trans move.later.1, earlier.2.trans move.later.2⟩
  below := by
    intro pair listed
    simp only [SpinSys.record, move.history, List.mem_append, List.mem_singleton] at listed
    rcases listed with earlier | rfl
    · exact books.below pair earlier
    · exact below
  reading := by
    intro context
    simp only [SpinSys.record, List.length_append, List.length_singleton, move.history]
    exact move.reading context
  printing := by
    intro line listed
    simp only [SpinSys.record, List.length_append, List.length_singleton, move.history]
    exact (move.printing line listed).later _ (Nat.le_succ _)
  shown := by
    intro line listed
    simp only [SpinSys.record, move.history]
    exact (move.shown line listed).later _ le_rfl

variable [DecidableEq Cpu]

theorem Shown.reading_update (books : Shown sys) {irqs bhs : Nat}
    (here : point.Reads (sys.history.length + 1) irqs bhs)
    (others : ∀ other, other ≠ context → (sys.points other).entered = true →
      irqs = sys.irqCount ∧ bhs = sys.bhCount) (other : Context Cpu) :
    (Function.update sys.points context point other).Reads (sys.history.length + 1) irqs bhs := by
  by_cases same : other = context
  · rw [same, Function.update_self]
    exact here
  · rw [Function.update_of_ne same]
    have reads := (books.reading other).longer (Nat.le_succ _)
    cases entered : (sys.points other).entered with
    | false => exact reads.other entered irqs bhs
    | true =>
        obtain ⟨rfl, rfl⟩ := others other same entered
        exact reads

theorem Shown.moves (books : Shown sys) {lock : List (Context Cpu)} {scheduled : Option Cpu}
    {running : Option (Context Cpu)} {covered : Nat}
    (here : point.Reads (sys.history.length + 1) sys.irqCount sys.bhCount) :
    ShowStep sys ({ sys with lock := lock, scheduled := scheduled, running := running,
                             covered := covered }.setPoint context point) where
  history := rfl
  later := ⟨le_rfl, le_rfl⟩
  reading := books.reading_update here fun _ _ _ => ⟨rfl, rfl⟩
  printing := books.printing
  shown := books.shown

theorem Shown.proceeds (books : Shown sys)
    (queued : QueueLock.Queued SpinPoint.inSection SpinPoint.entered sys.lock sys.points)
    (taken : spinProceed sys context (sys.points context) = some after) : ShowStep sys after := by
  have reads := (books.reading context).longer (Nat.le_succ _)
  -- only the owner of the lock counts, and nobody else is in the critical section
  have alone : sys.lock.head? = some context → ∀ other, other ≠ context →
      (sys.points other).entered = true → False :=
    fun owns other apart entered => apart (queued.exclusive entered owns)
  cases here : sys.points context with
  | idle =>
      rw [here] at taken
      contradiction
  | showing since =>
      rw [here] at taken reads
      rw [spinProceed, Option.some.injEq] at taken
      subst taken
      exact books.moves reads
  | showLocking since =>
      rw [here] at taken reads
      rw [spinProceed, Option.ite_none_right_eq_some, Option.some.injEq] at taken
      obtain ⟨_, rfl⟩ := taken
      exact books.moves ⟨reads, rfl⟩
  | showRead since irqc =>
      rw [here] at taken reads
      rw [spinProceed, Option.some.injEq] at taken
      subst taken
      exact books.moves ⟨reads.1, reads.2, rfl⟩
  | showBoth since irqc bhc =>
      have now := books.reading context
      rw [here] at taken now
      rw [spinProceed, Option.some.injEq] at taken
      subst taken
      obtain ⟨began, rfl, rfl⟩ := now
      have last := books.current
      rw [List.getLast?_eq_getElem?] at last
      have seen : ShowLine.SeenIn ⟨since, sys.irqCount, sys.bhCount⟩ sys.history
          sys.history.length := ⟨sys.history.length - 1, Nat.le_sub_one_of_lt began, by omega, last⟩
      refine ⟨rfl, ⟨le_rfl, le_rfl⟩, books.reading_update trivial fun _ _ _ => ⟨rfl, rfl⟩, ?_,
        books.shown⟩
      exact List.forall_mem_cons.mpr ⟨seen, books.printing⟩
  | tasklet | handler | taskletCounted | taskletDone | handlerCounted | handlerUnlocked =>
      rw [here, spinProceed, Option.some.injEq] at taken
      subst taken
      exact books.moves trivial
  | taskletLocking =>
      rw [here, spinProceed, Option.ite_none_right_eq_some, owns_iff, Option.some.injEq] at taken
      obtain ⟨owns, rfl⟩ := taken
      exact ⟨rfl, ⟨le_rfl, Nat.le_succ _⟩,
        books.reading_update trivial
          fun other apart entered => (alone owns other apart entered).elim,
        books.printing, books.shown⟩
  | handlerLocking =>
      rw [here, spinProceed, Option.ite_none_right_eq_some, owns_iff, Option.some.injEq] at taken
      obtain ⟨owns, rfl⟩ := taken
      exact ⟨rfl, ⟨Nat.le_succ _, le_rfl⟩,
        books.reading_update trivial
          fun other apart entered => (alone owns other apart entered).elim,
        books.printing, books.shown⟩

theorem Shown.takes (books : Shown sys)
    (queued : QueueLock.Queued SpinPoint.inSection SpinPoint.entered sys.lock sys.points)
    (taken : spinTake sys action = some after) : ShowStep sys after := by
  cases action with
  | interrupt cpu | softirq cpu =>
      rw [spinTake, Option.ite_none_right_eq_some, Option.some.injEq] at taken
      obtain ⟨_, rfl⟩ := taken
      exact books.moves trivial
  | procShow cpu =>
      rw [spinTake, Option.ite_none_right_eq_some, Option.some.injEq] at taken
      obtain ⟨_, rfl⟩ := taken
      exact books.moves (Nat.lt_succ_self _)
  | proceed context =>
      rw [spinTake, Option.ite_none_right_eq_some] at taken
      exact books.proceeds queued taken.2
  | print index =>
      obtain ⟨line, found, rfl⟩ := Option.map_eq_some_iff.mp taken
      refine ⟨rfl, ⟨le_rfl, le_rfl⟩, fun context => (books.reading context).longer (Nat.le_succ _),
        fun line listed => books.printing line (List.mem_of_mem_eraseIdx listed), ?_⟩
      exact List.forall_mem_cons.mpr
        ⟨books.printing line (List.mem_of_getElem? found), books.shown⟩

end Machine

section Run

variable {Cpu : Type} [Fintype Cpu] {sys next : SpinSys Cpu} {action : SpinAction Cpu}

structure SpinBooks (sys : SpinSys Cpu) : Prop extends SpinInvariant sys where
  lines : Shown sys

theorem spinBooks_loaded : SpinBooks (.loaded Cpu) := ⟨spinInvariant_loaded, shown_loaded⟩

variable [DecidableEq Cpu]

theorem spinBooks_step (books : SpinBooks sys) (taken : spinStep sys action = some next) :
    SpinBooks next := by
  obtain ⟨after, took, rfl⟩ := spinStep_inv taken
  have invariant := spinInvariant_take books.toSpinInvariant took
  have move := books.lines.takes books.queued took
  exact ⟨invariant.record, move.record books.lines invariant.below⟩

end Run

end Ldd3.Locks
