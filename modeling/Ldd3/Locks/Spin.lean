import Mathlib.Tactic
import Ldd3.Lib.StepMachine
import Ldd3.Lib.Token
import Ldd3.Lib.Users
import Ldd3.Lib.QueueLock
import Ldd3.Lib.Measure

/-!
`ch05_concurrency/spin_locks.c`: one spinlock between an interrupt handler, the tasklet that the
handler schedules and the readers of `/proc/spin_demo`, on several CPUs.
-/

open scoped BigOperators

namespace Ldd3.Locks

/-- On each CPU a handler runs on top of what it interrupts. -/
inductive Level
  | base
  | irq
  deriving DecidableEq, Repr

instance : Fintype Level where
  elems := {.base, .irq}
  complete := fun level => by cases level <;> decide

abbrev Context (Cpu : Type) := Cpu × Level

/-- At a `Locking` point `spin_lock` has been called, and it returns when the queue is through. A
show knows `since` which moment of the history it is under way. -/
inductive SpinPoint
  | idle
  | showing (since : Nat)
  | showLocking (since : Nat)
  | showRead (since irqc : Nat)
  | showBoth (since irqc bhc : Nat)
  | tasklet
  | taskletLocking
  | taskletCounted
  | taskletDone
  | handler
  | handlerLocking
  | handlerCounted
  | handlerUnlocked
  deriving DecidableEq, Repr

namespace SpinPoint

def inSection : SpinPoint → Bool
  | showLocking _ | showRead _ _ | showBoth _ _ _ | taskletLocking | taskletCounted
  | handlerLocking | handlerCounted => true
  | idle | showing _ | tasklet | taskletDone | handler | handlerUnlocked => false

def entered : SpinPoint → Bool
  | showRead _ _ | showBoth _ _ _ | taskletCounted | handlerCounted => true
  | idle | showing _ | showLocking _ | tasklet | taskletLocking | taskletDone | handler
  | handlerLocking | handlerUnlocked => false

def masks : SpinPoint → Bool
  | showing _ | showLocking _ | showRead _ _ | showBoth _ _ _ => true
  | idle | tasklet | taskletLocking | taskletCounted | taskletDone | handler | handlerLocking
  | handlerCounted | handlerUnlocked => false

def inTasklet : SpinPoint → Bool
  | tasklet | taskletLocking | taskletCounted | taskletDone => true
  | idle | showing _ | showLocking _ | showRead _ _ | showBoth _ _ _ | handler | handlerLocking
  | handlerCounted | handlerUnlocked => false

def schedules : SpinPoint → Bool
  | handlerCounted | handlerUnlocked => true
  | idle | showing _ | showLocking _ | showRead _ _ | showBoth _ _ _ | tasklet | taskletLocking
  | taskletCounted | taskletDone | handler | handlerLocking => false

def owes : SpinPoint → Bool
  | handlerCounted | handlerUnlocked | tasklet | taskletLocking => true
  | idle | showing _ | showLocking _ | showRead _ _ | showBoth _ _ _ | taskletCounted
  | taskletDone | handler | handlerLocking => false

def level? : SpinPoint → Option Level
  | idle => none
  | showing _ | showLocking _ | showRead _ _ | showBoth _ _ _ | tasklet | taskletLocking
  | taskletCounted | taskletDone => some .base
  | handler | handlerLocking | handlerCounted | handlerUnlocked => some .irq

def asksIrq : SpinPoint → Bool
  | handler | handlerLocking => true
  | idle | showing _ | showLocking _ | showRead _ _ | showBoth _ _ _ | tasklet | taskletLocking
  | taskletCounted | taskletDone | handlerCounted | handlerUnlocked => false

/-- The steps that are left, those of a tasklet that is scheduled and of a line that is printed
on the way included. -/
def toDo : SpinPoint → Nat
  | idle => 0
  | showing _ => 5
  | showLocking _ => 4
  | showRead _ _ => 3
  | showBoth _ _ _ => 2
  | tasklet => 4
  | taskletLocking => 3
  | taskletCounted => 2
  | taskletDone => 1
  | handler => 9
  | handlerLocking => 8
  | handlerCounted => 7
  | handlerUnlocked => 6

end SpinPoint

structure ShowLine where
  since : Nat
  irqc : Nat
  bhc : Nat
  deriving DecidableEq, Repr

structure PrintedLine extends ShowLine where
  upTo : Nat
  deriving DecidableEq, Repr

/-- `struct spin_demo`, the state of its tasklet, the lines that have been read and not printed,
and those that `/proc/spin_demo` has shown. `covered` is the number of interrupts counted when
the tasklet last started; `history` has the two counts at every moment so far. -/
structure SpinSys (Cpu : Type) where
  lock : List (Context Cpu)
  irqCount : Nat
  bhCount : Nat
  scheduled : Option Cpu
  running : Option (Context Cpu)
  points : Context Cpu → SpinPoint
  covered : Nat
  printing : List ShowLine
  shown : List PrintedLine
  history : List (Nat × Nat)

def SpinSys.loaded (Cpu : Type) : SpinSys Cpu :=
  { lock := [], irqCount := 0, bhCount := 0, scheduled := none, running := none,
    points := fun _ => .idle, covered := 0, printing := [], shown := [], history := [(0, 0)] }

inductive SpinAction (Cpu : Type)
  | interrupt (cpu : Cpu)
  | procShow (cpu : Cpu)
  | softirq (cpu : Cpu)
  | proceed (context : Context Cpu)
  | print (index : Nat)
  deriving DecidableEq, Repr

section Machine

variable {Cpu : Type} [DecidableEq Cpu]

def SpinSys.setPoint (sys : SpinSys Cpu) (context : Context Cpu) (point : SpinPoint) :
    SpinSys Cpu :=
  { sys with points := Function.update sys.points context point }

def SpinSys.spinLock (sys : SpinSys Cpu) (context : Context Cpu) (point : SpinPoint) :
    SpinSys Cpu :=
  { sys with lock := sys.lock ++ [context] }.setPoint context point

def SpinSys.spinUnlock (sys : SpinSys Cpu) (context : Context Cpu) (point : SpinPoint) :
    SpinSys Cpu :=
  { sys with lock := sys.lock.tail }.setPoint context point

def SpinSys.owns (sys : SpinSys Cpu) (context : Context Cpu) : Bool :=
  sys.lock.head? == some context

/-- A tasklet that is scheduled stays where it is. -/
def taskletSchedule (scheduled : Option Cpu) (cpu : Cpu) : Option Cpu :=
  match scheduled with
  | some earlier => some earlier
  | none => some cpu

def spinProceed (sys : SpinSys Cpu) (context : Context Cpu) : SpinPoint → Option (SpinSys Cpu)
  | .idle => none
  | .showing since => some (sys.spinLock context (.showLocking since))
  | .showLocking since =>
      if sys.owns context then some (sys.setPoint context (.showRead since sys.irqCount))
      else none
  | .showRead since irqc => some (sys.setPoint context (.showBoth since irqc sys.bhCount))
  | .showBoth since irqc bhc =>
      some ({ sys with printing := ⟨since, irqc, bhc⟩ :: sys.printing }.spinUnlock context .idle)
  | .tasklet => some (sys.spinLock context .taskletLocking)
  | .taskletLocking =>
      if sys.owns context then
        some ({ sys with bhCount := sys.bhCount + 1 }.setPoint context .taskletCounted)
      else none
  | .taskletCounted => some (sys.spinUnlock context .taskletDone)
  | .taskletDone => some ({ sys with running := none }.setPoint context .idle)
  | .handler => some (sys.spinLock context .handlerLocking)
  | .handlerLocking =>
      if sys.owns context then
        some ({ sys with irqCount := sys.irqCount + 1 }.setPoint context .handlerCounted)
      else none
  | .handlerCounted => some (sys.spinUnlock context .handlerUnlocked)
  | .handlerUnlocked =>
      some ({ sys with scheduled := taskletSchedule sys.scheduled context.1 }.setPoint context .idle)

/-- What a handler has interrupted does not go on before the handler returns. -/
def SpinSys.onTop (sys : SpinSys Cpu) (context : Context Cpu) : Bool :=
  context.2 == .irq || sys.points (context.1, .irq) == .idle

def SpinSys.cpuIdle (sys : SpinSys Cpu) (cpu : Cpu) : Bool :=
  sys.points (cpu, .base) == .idle && sys.points (cpu, .irq) == .idle

/-- `seq_printf` comes after `spin_unlock_irqrestore`: a line waits for it while the CPU is free
for other things. -/
def spinTake (sys : SpinSys Cpu) : SpinAction Cpu → Option (SpinSys Cpu)
  | .interrupt cpu =>
      if sys.points (cpu, .irq) = .idle ∧ (sys.points (cpu, .base)).masks = false then
        some (sys.setPoint (cpu, .irq) .handler)
      else none
  | .procShow cpu =>
      if sys.cpuIdle cpu then some (sys.setPoint (cpu, .base) (.showing sys.history.length))
      else none
  | .softirq cpu =>
      if sys.cpuIdle cpu ∧ sys.scheduled = some cpu ∧ sys.running = none then
        some ({ sys with scheduled := none, running := some (cpu, .base),
                         covered := sys.irqCount }.setPoint (cpu, .base) .tasklet)
      else none
  | .proceed context =>
      if sys.onTop context then spinProceed sys context (sys.points context) else none
  | .print index =>
      sys.printing[index]?.map fun line =>
        { sys with printing := sys.printing.eraseIdx index,
                   shown := ⟨line, sys.history.length⟩ :: sys.shown }

def SpinSys.record (sys : SpinSys Cpu) : SpinSys Cpu :=
  { sys with history := sys.history ++ [(sys.irqCount, sys.bhCount)] }

def spinStep (sys : SpinSys Cpu) (action : SpinAction Cpu) : Option (SpinSys Cpu) :=
  (spinTake sys action).map SpinSys.record

theorem spinStep_of_take {sys next : SpinSys Cpu} {action : SpinAction Cpu}
    (took : spinTake sys action = some next) : spinStep sys action = some next.record := by
  rw [spinStep, took]
  rfl

theorem spinStep_inv {sys next : SpinSys Cpu} {action : SpinAction Cpu}
    (taken : spinStep sys action = some next) :
    ∃ after, spinTake sys action = some after ∧ next = after.record := by
  obtain ⟨after, took, same⟩ := Option.map_eq_some_iff.mp taken
  exact ⟨after, took, same.symm⟩

end Machine

section Invariant

variable {Cpu : Type} {points : Context Cpu → SpinPoint} {context : Context Cpu}
  {point : SpinPoint}

structure Placed (points : Context Cpu → SpinPoint) : Prop where
  level : ∀ context level, (points context).level? = some level → context.2 = level
  masked : ∀ cpu, (points (cpu, .base)).masks = true → points (cpu, .irq) = .idle

def Ordered (lock : List (Context Cpu)) (points : Context Cpu → SpinPoint) : Prop :=
  ∀ cpu, points (cpu, .irq) = .handlerLocking → (points (cpu, .base)).inSection = true →
    [(cpu, .base), (cpu, .irq)].Sublist lock

def Running (points : Context Cpu → SpinPoint) (context : Context Cpu) : Prop :=
  (context.2 = .irq ∧ (points (context.1, .base)).masks = false) ∨
    (context.2 = .base ∧ points (context.1, .irq) = .idle)

variable [DecidableEq Cpu]

theorem Placed.move (placed : Placed points) (runs : Running points context)
    (here : ∀ level, point.level? = some level → context.2 = level) :
    Placed (Function.update points context point) where
  level := by
    intro other level found
    by_cases same : other = context
    · rw [same, Function.update_self] at found
      rw [same]
      exact here level found
    · rw [Function.update_of_ne same] at found
      exact placed.level other level found
  masked := by
    obtain ⟨cpu, level⟩ := context
    intro other masks
    rcases runs with ⟨here, unmasked⟩ | ⟨here, idle⟩
    all_goals
      simp only at here
      subst here
    · rw [Function.update_of_ne (by simp)] at masks
      by_cases same : other = cpu
      · rw [same, unmasked] at masks
        contradiction
      · rw [Function.update_of_ne (by simp [same])]
        exact placed.masked other masks
    · rw [Function.update_of_ne (by simp)]
      by_cases same : other = cpu
      · rw [same]
        exact idle
      · rw [Function.update_of_ne (by simp [same])] at masks
        exact placed.masked other masks

theorem Placed.stays (placed : Placed points) (runs : Running points context)
    (same : point.level? = (points context).level?) :
    Placed (Function.update points context point) :=
  placed.move runs fun level found => placed.level context level (same ▸ found)

theorem Ordered.move {lock grown : List (Context Cpu)} (ordered : Ordered lock points)
    (runs : Running points context)
    (kept : ∀ cpu, context ≠ (cpu, .base) → context ≠ (cpu, .irq) →
      [(cpu, .base), (cpu, .irq)].Sublist lock → [(cpu, .base), (cpu, .irq)].Sublist grown)
    (joined : point = .handlerLocking → (points (context.1, .base)).inSection = true →
      [(context.1, .base), context].Sublist grown) :
    Ordered grown (Function.update points context point) := by
  intro cpu waits inSection
  by_cases base : context = (cpu, .base)
  · subst base
    rcases runs with ⟨elsewhere, _⟩ | ⟨_, idle⟩
    · contradiction
    · rw [Function.update_of_ne (by simp), idle] at waits
      contradiction
  · rw [Function.update_of_ne (Ne.symm base)] at inSection
    by_cases irq : context = (cpu, .irq)
    · subst irq
      rw [Function.update_self] at waits
      exact joined waits inSection
    · rw [Function.update_of_ne (Ne.symm irq)] at waits
      exact kept cpu base irq (ordered cpu waits inSection)

theorem Ordered.stays {lock : List (Context Cpu)} (ordered : Ordered lock points)
    (runs : Running points context) (other : point ≠ .handlerLocking) :
    Ordered lock (Function.update points context point) :=
  ordered.move runs (fun _ _ _ listed => listed) fun waits => absurd waits other

theorem Ordered.ask {lock : List (Context Cpu)} (ordered : Ordered lock points)
    (runs : Running points context)
    (queued : QueueLock.Queued SpinPoint.inSection SpinPoint.entered lock points) :
    Ordered (lock ++ [context]) (Function.update points context point) := by
  refine ordered.move runs (fun _ _ _ listed => listed.trans (List.sublist_append_left _ _)) ?_
  intro _ inSection
  have listed : [(context.1, Level.base)].Sublist lock :=
    List.singleton_sublist.mpr ((queued.member _).mp inSection)
  exact listed.append (List.Sublist.refl [context])

theorem Ordered.leave {lock : List (Context Cpu)} (ordered : Ordered lock points)
    (runs : Running points context) (owns : lock.head? = some context)
    (other : point ≠ .handlerLocking) :
    Ordered lock.tail (Function.update points context point) := by
  refine ordered.move runs ?_ fun waits => absurd waits other
  intro cpu base _ listed
  rw [← List.cons_head?_tail owns] at listed
  cases listed with
  | cons _ later => exact later
  | cons_cons _ later => exact absurd rfl base

variable [Fintype Cpu] {sys next : SpinSys Cpu}

structure SpinInvariant (sys : SpinSys Cpu) : Prop where
  queued : QueueLock.Queued SpinPoint.inSection SpinPoint.entered sys.lock sys.points
  placed : Placed sys.points
  ordered : Ordered sys.lock sys.points
  running : Token.HeldBy SpinPoint.inTasklet sys.points sys.running
  owed : ∃ owed, Users.Counted SpinPoint.owes owed sys.points ∧
    sys.bhCount + sys.scheduled.isSome.toNat + owed ≤ sys.irqCount
  covered : sys.covered = sys.irqCount ∨ sys.scheduled ≠ none ∨
    ∃ context, (sys.points context).schedules = true

omit [DecidableEq Cpu] in
theorem spinInvariant_loaded : SpinInvariant (.loaded Cpu) where
  queued := ⟨fun _ => iff_of_false Bool.false_ne_true List.not_mem_nil, List.nodup_nil, nofun⟩
  placed := ⟨nofun, nofun⟩
  ordered := nofun
  running := fun _ => iff_of_false Bool.false_ne_true nofun
  owed := by
    refine ⟨0, ?_, le_rfl⟩
    simp only [Users.Counted, SpinSys.loaded, Semaphore.weight, SpinPoint.owes,
      Bool.false_eq_true, if_false, Finset.sum_const_zero]
  covered := .inl rfl

omit [Fintype Cpu] in
theorem schedules_move (here : ∃ other, (sys.points other).schedules = true)
    (kept : (sys.points context).schedules = true → point.schedules = true) :
    ∃ other, (Function.update sys.points context point other).schedules = true := by
  obtain ⟨other, schedules⟩ := here
  by_cases same : other = context
  · refine ⟨context, ?_⟩
    rw [Function.update_self]
    exact kept (same ▸ schedules)
  · refine ⟨other, ?_⟩
    rw [Function.update_of_ne same]
    exact schedules

theorem SpinInvariant.covers (invariant : SpinInvariant sys)
    (kept : (sys.points context).schedules = true → point.schedules = true) :
    sys.covered = sys.irqCount ∨ sys.scheduled ≠ none ∨
      ∃ other, (Function.update sys.points context point other).schedules = true := by
  rcases invariant.covered with covered | scheduled | schedules
  · exact .inl covered
  · exact .inr (.inl scheduled)
  · exact .inr (.inr (schedules_move schedules kept))

omit [DecidableEq Cpu] in
theorem SpinInvariant.runs (invariant : SpinInvariant sys) (onTop : sys.onTop context = true)
    (busy : sys.points context ≠ .idle) : Running sys.points context := by
  obtain ⟨cpu, level⟩ := context
  cases level with
  | irq =>
      refine .inl ⟨rfl, ?_⟩
      by_contra masks
      exact busy (invariant.placed.masked cpu (Bool.not_eq_false _ ▸ masks))
  | base =>
      refine .inr ⟨rfl, ?_⟩
      simpa only [SpinSys.onTop, Bool.or_eq_true, beq_iff_eq, reduceCtorEq, false_or] using onTop

theorem SpinInvariant.asks (invariant : SpinInvariant sys) (runs : Running sys.points context)
    (outside : (sys.points context).inSection = false) (asked : point.inSection = true)
    (waits : point.entered = false) (level : point.level? = (sys.points context).level?)
    (tasklet : point.inTasklet = (sys.points context).inTasklet)
    (owes : point.owes = (sys.points context).owes)
    (schedules : (sys.points context).schedules = false) :
    SpinInvariant (sys.spinLock context point) := by
  obtain ⟨owed, counted, account⟩ := invariant.owed
  refine ⟨invariant.queued.ask outside asked waits, invariant.placed.stays runs level,
    invariant.ordered.ask runs invariant.queued, invariant.running.move tasklet,
    ⟨owed, counted.move owes, account⟩, ?_⟩
  exact invariant.covers fun here => absurd here (schedules ▸ Bool.false_ne_true)

theorem SpinInvariant.reads (invariant : SpinInvariant sys) (runs : Running sys.points context)
    (inSection : (sys.points context).inSection = true) (stays : point.inSection = true)
    (owns : sys.lock.head? = some context) (level : point.level? = (sys.points context).level?)
    (tasklet : point.inTasklet = (sys.points context).inTasklet)
    (owes : point.owes = (sys.points context).owes)
    (schedules : (sys.points context).schedules = false) (other : point ≠ .handlerLocking) :
    SpinInvariant (sys.setPoint context point) := by
  obtain ⟨owed, counted, account⟩ := invariant.owed
  refine ⟨invariant.queued.move (stays.trans inSection.symm) fun _ => owns,
    invariant.placed.stays runs level, invariant.ordered.stays runs other,
    invariant.running.move tasklet, ⟨owed, counted.move owes, account⟩, ?_⟩
  exact invariant.covers fun here => absurd here (schedules ▸ Bool.false_ne_true)

theorem SpinInvariant.leavesShow (invariant : SpinInvariant sys)
    (runs : Running sys.points context) {since irqc bhc : Nat}
    (here : sys.points context = .showBoth since irqc bhc) :
    SpinInvariant
      ({ sys with printing := ⟨since, irqc, bhc⟩ :: sys.printing }.spinUnlock context .idle) := by
  have owns := invariant.queued.owner context (here ▸ rfl)
  obtain ⟨owed, counted, account⟩ := invariant.owed
  exact ⟨invariant.queued.leave owns rfl rfl, invariant.placed.move runs nofun,
    invariant.ordered.leave runs owns nofun, invariant.running.move (here ▸ rfl),
    ⟨owed, counted.move (here ▸ rfl), account⟩,
    invariant.covers (by simp [here, SpinPoint.schedules])⟩

theorem SpinInvariant.countsBh (invariant : SpinInvariant sys) (runs : Running sys.points context)
    (here : sys.points context = .taskletLocking) (owns : sys.lock.head? = some context) :
    SpinInvariant ({ sys with bhCount := sys.bhCount + 1 }.setPoint context .taskletCounted) := by
  obtain ⟨owed, counted, account⟩ := invariant.owed
  refine ⟨invariant.queued.move (here ▸ rfl) fun _ => owns,
    invariant.placed.stays runs (here ▸ rfl), invariant.ordered.stays runs nofun,
    invariant.running.move (here ▸ rfl), ⟨owed - 1, counted.leave (here ▸ rfl) rfl, ?_⟩,
    invariant.covers (by simp [here, SpinPoint.schedules])⟩
  simp only [SpinSys.setPoint]
  omega

theorem SpinInvariant.countsIrq (invariant : SpinInvariant sys) (runs : Running sys.points context)
    (here : sys.points context = .handlerLocking) (owns : sys.lock.head? = some context) :
    SpinInvariant ({ sys with irqCount := sys.irqCount + 1 }.setPoint context .handlerCounted) := by
  obtain ⟨owed, counted, account⟩ := invariant.owed
  refine ⟨invariant.queued.move (here ▸ rfl) fun _ => owns,
    invariant.placed.stays runs (here ▸ rfl), invariant.ordered.stays runs nofun,
    invariant.running.move (here ▸ rfl), ⟨owed + 1, counted.enter (here ▸ rfl) rfl, ?_⟩,
    .inr (.inr ⟨context, ?_⟩)⟩
  · simp only [SpinSys.setPoint]
    omega
  · simp only [SpinSys.setPoint, Function.update_self, SpinPoint.schedules]

theorem SpinInvariant.unlocks (invariant : SpinInvariant sys) (runs : Running sys.points context)
    (entered : (sys.points context).entered = true) (outside : point.inSection = false)
    (left : point.entered = false) (level : point.level? = (sys.points context).level?)
    (tasklet : point.inTasklet = (sys.points context).inTasklet)
    (owes : point.owes = (sys.points context).owes)
    (schedules : (sys.points context).schedules = true → point.schedules = true) :
    SpinInvariant (sys.spinUnlock context point) := by
  have owns := invariant.queued.owner context entered
  obtain ⟨owed, counted, account⟩ := invariant.owed
  refine ⟨invariant.queued.leave owns outside left, invariant.placed.stays runs level,
    invariant.ordered.leave runs owns ?_, invariant.running.move tasklet,
    ⟨owed, counted.move owes, account⟩, invariant.covers schedules⟩
  rintro rfl
  contradiction

theorem SpinInvariant.finishes (invariant : SpinInvariant sys) (runs : Running sys.points context)
    (here : sys.points context = .taskletDone) :
    SpinInvariant ({ sys with running := none }.setPoint context .idle) := by
  have holder : sys.running = some context := (invariant.running context).mp (here ▸ rfl)
  have running := invariant.running
  rw [holder] at running
  obtain ⟨owed, counted, account⟩ := invariant.owed
  exact ⟨invariant.queued.move (here ▸ rfl) nofun, invariant.placed.move runs nofun,
    invariant.ordered.stays runs nofun, running.give rfl,
    ⟨owed, counted.move (here ▸ rfl), account⟩,
    invariant.covers (by simp [here, SpinPoint.schedules])⟩

omit [DecidableEq Cpu] [Fintype Cpu] in
theorem taskletSchedule_some (scheduled : Option Cpu) (cpu : Cpu) :
    (taskletSchedule scheduled cpu).isSome = true := by
  cases scheduled <;> rfl

theorem SpinInvariant.schedules (invariant : SpinInvariant sys)
    (runs : Running sys.points context) (here : sys.points context = .handlerUnlocked) :
    SpinInvariant
      ({ sys with scheduled := taskletSchedule sys.scheduled context.1 }.setPoint context
        .idle) := by
  have scheduled := taskletSchedule_some sys.scheduled context.1
  obtain ⟨owed, counted, account⟩ := invariant.owed
  refine ⟨invariant.queued.move (here ▸ rfl) nofun, invariant.placed.move runs nofun,
    invariant.ordered.stays runs nofun, invariant.running.move (here ▸ rfl),
    ⟨owed - 1, counted.leave (here ▸ rfl) rfl, ?_⟩,
    .inr (.inl (Option.isSome_iff_ne_none.mp scheduled))⟩
  simp only [SpinSys.setPoint, scheduled, Bool.toNat_true]
  omega

omit [Fintype Cpu] in
theorem owns_iff : sys.owns context = true ↔ sys.lock.head? = some context := by
  simp only [SpinSys.owns, beq_iff_eq]

theorem SpinInvariant.proceeds (invariant : SpinInvariant sys) (onTop : sys.onTop context = true)
    (taken : spinProceed sys context (sys.points context) = some next) : SpinInvariant next := by
  by_cases busy : sys.points context = .idle
  · rw [busy] at taken
    contradiction
  have runs := invariant.runs onTop busy
  cases here : sys.points context with
  | idle => contradiction
  | showing _ | tasklet | handler =>
      rw [here, spinProceed, Option.some.injEq] at taken
      subst taken
      exact invariant.asks runs (here ▸ rfl) rfl rfl (here ▸ rfl) (here ▸ rfl) (here ▸ rfl)
        (here ▸ rfl)
  | showLocking since =>
      rw [here, spinProceed, Option.ite_none_right_eq_some, owns_iff, Option.some.injEq] at taken
      obtain ⟨owns, rfl⟩ := taken
      exact invariant.reads runs (here ▸ rfl) rfl owns (here ▸ rfl) (here ▸ rfl) (here ▸ rfl)
        (here ▸ rfl) (by simp)
  | showRead since irqc =>
      rw [here, spinProceed, Option.some.injEq] at taken
      subst taken
      exact invariant.reads runs (here ▸ rfl) rfl (invariant.queued.owner context (here ▸ rfl))
        (here ▸ rfl) (here ▸ rfl) (here ▸ rfl) (here ▸ rfl) (by simp)
  | taskletLocking =>
      rw [here, spinProceed, Option.ite_none_right_eq_some, owns_iff, Option.some.injEq] at taken
      exact taken.2 ▸ invariant.countsBh runs here taken.1
  | handlerLocking =>
      rw [here, spinProceed, Option.ite_none_right_eq_some, owns_iff, Option.some.injEq] at taken
      exact taken.2 ▸ invariant.countsIrq runs here taken.1
  | showBoth since irqc bhc =>
      rw [here, spinProceed, Option.some.injEq] at taken
      exact taken ▸ invariant.leavesShow runs here
  | taskletCounted | handlerCounted =>
      rw [here, spinProceed, Option.some.injEq] at taken
      subst taken
      exact invariant.unlocks runs (here ▸ rfl) rfl rfl (here ▸ rfl) (here ▸ rfl) (here ▸ rfl)
        (by simp [here, SpinPoint.schedules])
  | taskletDone =>
      rw [here, spinProceed, Option.some.injEq] at taken
      exact taken ▸ invariant.finishes runs here
  | handlerUnlocked =>
      rw [here, spinProceed, Option.some.injEq] at taken
      exact taken ▸ invariant.schedules runs here

omit [DecidableEq Cpu] [Fintype Cpu] in
theorem cpuIdle_iff {cpu : Cpu} :
    sys.cpuIdle cpu = true ↔ sys.points (cpu, .base) = .idle ∧ sys.points (cpu, .irq) = .idle := by
  simp only [SpinSys.cpuIdle, Bool.and_eq_true, beq_iff_eq]

theorem SpinInvariant.starts (invariant : SpinInvariant sys) (runs : Running sys.points context)
    (idle : sys.points context = .idle) (outside : point.inSection = false)
    (before : point.entered = false)
    (level : ∀ level, point.level? = some level → context.2 = level)
    (tasklet : point.inTasklet = false) (owes : point.owes = false) :
    SpinInvariant (sys.setPoint context point) := by
  obtain ⟨owed, counted, account⟩ := invariant.owed
  refine ⟨invariant.queued.move (idle ▸ outside) (by simp [before]),
    invariant.placed.move runs level, invariant.ordered.stays runs ?_,
    invariant.running.move (idle ▸ tasklet), ⟨owed, counted.move (idle ▸ owes), account⟩,
    invariant.covers (by simp [idle, SpinPoint.schedules])⟩
  rintro rfl
  contradiction

theorem spinInvariant_take {action : SpinAction Cpu} (invariant : SpinInvariant sys)
    (taken : spinTake sys action = some next) : SpinInvariant next := by
  cases action with
  | interrupt cpu =>
      rw [spinTake, Option.ite_none_right_eq_some, Option.some.injEq] at taken
      obtain ⟨⟨idle, unmasked⟩, rfl⟩ := taken
      exact invariant.starts (.inl ⟨rfl, unmasked⟩) idle rfl rfl (by simp [SpinPoint.level?]) rfl
        rfl
  | procShow cpu =>
      rw [spinTake, Option.ite_none_right_eq_some, Option.some.injEq, cpuIdle_iff] at taken
      obtain ⟨⟨base, irq⟩, rfl⟩ := taken
      exact invariant.starts (.inr ⟨rfl, irq⟩) base rfl rfl (by simp [SpinPoint.level?]) rfl rfl
  | softirq cpu =>
      rw [spinTake, Option.ite_none_right_eq_some, Option.some.injEq, cpuIdle_iff] at taken
      obtain ⟨⟨⟨base, irq⟩, scheduled, free⟩, rfl⟩ := taken
      have runs : Running sys.points (cpu, .base) := .inr ⟨rfl, irq⟩
      have running := invariant.running
      rw [free] at running
      obtain ⟨owed, counted, account⟩ := invariant.owed
      refine ⟨invariant.queued.move (base ▸ rfl) nofun,
        invariant.placed.move runs (by simp [SpinPoint.level?]),
        invariant.ordered.stays runs nofun, running.take rfl,
        ⟨owed + 1, counted.enter (base ▸ rfl) rfl, ?_⟩, .inl rfl⟩
      rw [scheduled] at account
      simp only [SpinSys.setPoint, Option.isSome_some, Option.isSome_none, Bool.toNat_true,
        Bool.toNat_false] at account ⊢
      omega
  | proceed context =>
      rw [spinTake, Option.ite_none_right_eq_some] at taken
      exact invariant.proceeds taken.1 taken.2
  | print index =>
      obtain ⟨line, _, rfl⟩ := Option.map_eq_some_iff.mp taken
      exact ⟨invariant.queued, invariant.placed, invariant.ordered, invariant.running,
        invariant.owed, invariant.covered⟩

omit [DecidableEq Cpu] in
theorem SpinInvariant.record (invariant : SpinInvariant sys) : SpinInvariant sys.record :=
  ⟨invariant.queued, invariant.placed, invariant.ordered, invariant.running, invariant.owed,
    invariant.covered⟩

omit [DecidableEq Cpu] in
theorem SpinInvariant.below (invariant : SpinInvariant sys) : sys.bhCount ≤ sys.irqCount := by
  obtain ⟨owed, counted, account⟩ := invariant.owed
  have nonneg := counted.nonneg
  omega

end Invariant

end Ldd3.Locks
