import Mathlib.Tactic
import Ldd3.Lib.StepMachine
import Ldd3.Shortirq.Core

/-!
Several readers at once: the emptiness test and the wait of `edu_read` come before the
lock, and the removal under it does not test again.
-/

namespace Ldd3.Shortirq

open CInt

/-- Where a call of `edu_read` stands; `gave` is what its slot held, none outside the array. -/
inductive ReadPoint
  | idle
  | testing
  | waiting
  | passed
  | gave (kt : Option Int)
  | interrupted
  deriving DecidableEq, Repr

def ReadPoint.isOver : ReadPoint → Bool
  | .idle | .gave _ | .interrupted => true
  | _ => false

/-- What a removal loaded, and which of the recorded interrupts had stored into its slot last. -/
structure Removal where
  kt : Option Int
  number : Option Nat
  deriving DecidableEq, Repr

/-- The buffer and the calls, beside the timestamps of the recorded interrupts in order, the
interrupt whose timestamp a slot holds, the removals with the latest first, and whether a handler
has stored outside the array, where its other fields are. -/
structure ReaderSys (Pid : Type) where
  dev : EduDev
  points : Pid → ReadPoint
  recorded : List Int
  holds : Int → Option Nat
  removals : List Removal
  strayed : Bool

def ReaderSys.loaded (Pid : Type) : ReaderSys Pid :=
  { dev := .loaded, points := fun _ => .idle, recorded := [], holds := fun _ => none,
    removals := [], strayed := false }

inductive ReaderAction (Pid : Type)
  | interrupt (st : Nat) (tk : Int)
  | call (pid : Pid)
  | proceed (pid : Pid) (interrupted : Bool)

section Machine

variable {Pid : Type} [DecidableEq Pid]

def ReaderSys.setPoint (sys : ReaderSys Pid) (pid : Pid) (point : ReadPoint) : ReaderSys Pid :=
  { sys with points := Function.update sys.points pid point }

omit [DecidableEq Pid] in
def ReaderSys.recordedAt (sys : ReaderSys Pid) (slot : Int) (tk : Int) : ReaderSys Pid :=
  { sys with
    recorded := sys.recorded ++ [tk]
    holds :=
      if slotInside slot then Function.update sys.holds slot (some sys.recorded.length)
      else sys.holds
    strayed := sys.strayed || !slotInside slot }

def ReaderSys.removed (sys : ReaderSys Pid) (pid : Pid) : ReaderSys Pid :=
  let kt := sys.dev.load sys.dev.readSlot
  { sys with
    dev := sys.dev.remove
    removals := ⟨kt, sys.holds sys.dev.readSlot⟩ :: sys.removals }.setPoint pid (.gave kt)

def eduReadProceed (sys : ReaderSys Pid) (pid : Pid) (interrupted : Bool) :
    ReadPoint → Option (ReaderSys Pid)
  | .testing =>
      if sys.dev.eventCount = 0 then some (sys.setPoint pid .waiting)
      else some (sys.setPoint pid .passed)
  | .waiting =>
      if 0 < sys.dev.eventCount then some (sys.setPoint pid .passed)
      else if interrupted then some (sys.setPoint pid .interrupted)
      else none
  | .passed => some (sys.removed pid)
  | _ => none

def readerStep (driver : Driver) (sys : ReaderSys Pid) : ReaderAction Pid → Option (ReaderSys Pid)
  | .interrupt st tk =>
      let after := { sys with dev := eduIrqHandler driver st tk sys.dev }
      some (if driver.records st then after.recordedAt sys.dev.recordSlot tk else after)
  | .call pid => if (sys.points pid).isOver then some (sys.setPoint pid .testing) else none
  | .proceed pid interrupted => eduReadProceed sys pid interrupted (sys.points pid)

/-- Every reader was given a slot with the timestamp of a recorded interrupt, one that no reader
was given before, and there are no more removals than interrupts. -/
structure RemovesUnread (sys : ReaderSys Pid) : Prop where
  inside : sys.strayed = false
  count : 0 ≤ sys.dev.eventCount
  few : sys.removals.length ≤ sys.recorded.length
  recorded : ∀ removal ∈ sys.removals, ∃ number tk,
    removal = ⟨some tk, some number⟩ ∧ sys.recorded[number]? = some tk
  unread : sys.removals.Pairwise fun later earlier => later.number ≠ earlier.number

omit [DecidableEq Pid] in
/-- Under the lock a reader still finds a count, and a slot below the one that no handler stores
into; and `index` has not wrapped when a handler records. -/
def FindsUnread (driver : Driver) (sys : ReaderSys Pid) : ReaderAction Pid → Prop
  | .proceed pid _ =>
      sys.points pid = .passed → 0 < sys.dev.eventCount ∧ sys.dev.readSlot < MAX_EVENTS - 1
  | .interrupt st _ => driver.records st = true → sys.recorded.length < 2147483648
  | .call _ => True

instance (driver : Driver) (sys : ReaderSys Pid) (action : ReaderAction Pid) :
    Decidable (FindsUnread driver sys action) := by
  cases action <;> simp only [FindsUnread] <;> infer_instance

/-- Up to slot 1022 the removals go through the interrupts in order, but a full buffer gives the
latest one, which has the slot of the oldest. -/
structure ReaderInvariant (sys : ReaderSys Pid) : Prop where
  few : sys.recorded.length ≤ 2147483648
  index : sys.dev.index = int32 sys.recorded.length
  full : sys.dev.eventCount ≤ MAX_EVENTS
  accounted : sys.dev.eventCount + sys.removals.length ≤ sys.recorded.length
  slots : sys.dev.timestamps.length = MAX_EVENTS
  stored : ∀ slot number, sys.holds slot = some number → number < sys.recorded.length ∧
    slot = (number % 1023 : Nat) ∧ sys.dev.timestamps[number % 1023]? = sys.recorded[number]?
  latest : ∀ number < sys.recorded.length, sys.recorded.length ≤ number + 1023 →
    sys.holds (number % 1023 : Nat) = some number
  gone : ∀ removal ∈ sys.removals, ∀ number, removal.number = some number →
    (number + sys.dev.eventCount < sys.recorded.length ∨ 1023 ≤ number) ∧
      number < sys.recorded.length ∧
      (sys.dev.eventCount = MAX_EVENTS → number + 1 < sys.recorded.length)

section Invariant

variable {sys : ReaderSys Pid}

omit [DecidableEq Pid] in
theorem ReaderInvariant.readSlot (invariant : ReaderInvariant sys)
    (some : 0 < sys.dev.eventCount) :
    sys.dev.readSlot = sys.recorded.length - sys.dev.eventCount := by
  have few := invariant.few
  have accounted := invariant.accounted
  rw [EduDev.readSlot, invariant.index]
  simp only [int32]
  omega

omit [DecidableEq Pid] in
theorem ReaderInvariant.front (invariant : ReaderInvariant sys) (some : 0 < sys.dev.eventCount)
    (low : sys.dev.readSlot < MAX_EVENTS - 1) :
    ∃ number, sys.holds sys.dev.readSlot = .some number ∧
      (∀ removal ∈ sys.removals, removal.number ≠ .some number) ∧
      (number + sys.dev.eventCount ≤ sys.recorded.length ∨ 1023 ≤ number) := by
  have capacity := MAX_EVENTS_eq
  have full := invariant.full
  have accounted := invariant.accounted
  have slot := invariant.readSlot some
  by_cases room : sys.dev.eventCount < MAX_EVENTS
  · -- the oldest one that is left, in a slot of its own number
    obtain ⟨number, front⟩ := Int.eq_ofNat_of_zero_le (a := sys.dev.readSlot) (by omega)
    have small : number % 1023 = number := Nat.mod_eq_of_lt (by omega)
    have held := invariant.latest number (by omega) (by omega)
    rw [small] at held
    refine ⟨number, front ▸ held, fun removal member given => ?_, .inl (by omega)⟩
    have gone := (invariant.gone removal member number given).1
    omega
  · -- the latest one, 1023 after the oldest
    have slotOf : ((sys.recorded.length - 1) % 1023 : Nat) = sys.dev.readSlot := by omega
    have held := invariant.latest (sys.recorded.length - 1) (by omega) (by omega)
    rw [slotOf] at held
    refine ⟨_, held, fun removal member given => ?_, .inr (by omega)⟩
    have last := (invariant.gone removal member _ given).2.2 (by omega)
    omega

omit [DecidableEq Pid] in
theorem ReaderInvariant.load (invariant : ReaderInvariant sys) {slot : Int} {number : Nat}
    (held : sys.holds slot = some number) :
    ∃ tk, sys.dev.load slot = some tk ∧ sys.recorded[number]? = some tk := by
  obtain ⟨before, rfl, stored⟩ := invariant.stored slot number held
  have tk := List.getElem?_eq_getElem before
  refine ⟨_, ?_, tk⟩
  rw [EduDev.load, if_pos (slotInside_mod number), Int.toNat_natCast, stored, tk]

omit [DecidableEq Pid] in
theorem ReaderInvariant.low_of_held (invariant : ReaderInvariant sys) {slot : Int} {number : Nat}
    (held : sys.holds slot = some number) : slot < MAX_EVENTS - 1 := by
  have capacity := MAX_EVENTS_eq
  obtain ⟨_, slotOf, _⟩ := invariant.stored slot number held
  omega

end Invariant

section Removal

variable {sys : ReaderSys Pid}

theorem removed_eventCount (some : 0 < sys.dev.eventCount) (full : sys.dev.eventCount ≤ MAX_EVENTS)
    (pid : Pid) : (sys.removed pid).dev.eventCount = sys.dev.eventCount - 1 := by
  have capacity := MAX_EVENTS_eq
  exact int32_of_fits ⟨by omega, by omega⟩

theorem RemovesUnread.removed (good : RemovesUnread sys) (invariant : ReaderInvariant sys)
    (some : 0 < sys.dev.eventCount) (low : sys.dev.readSlot < MAX_EVENTS - 1) (pid : Pid) :
    RemovesUnread (sys.removed pid) ∧ ReaderInvariant (sys.removed pid) := by
  have accounted := invariant.accounted
  have count := removed_eventCount some invariant.full pid
  have more : (sys.removed pid).removals.length = sys.removals.length + 1 := rfl
  obtain ⟨number, held, unread, gone⟩ := invariant.front some low
  obtain ⟨tk, loaded, recorded⟩ := invariant.load held
  have removals : (sys.removed pid).removals = ⟨.some tk, .some number⟩ :: sys.removals := by
    simp only [ReaderSys.removed, ReaderSys.setPoint, loaded, held]
  constructor
  · constructor
    · exact good.inside
    · omega
    · rw [more]
      have same : (sys.removed pid).recorded = sys.recorded := rfl
      rw [same]
      omega
    · intro removal member
      rcases List.mem_cons.mp (removals ▸ member) with rfl | earlier
      · exact ⟨number, tk, rfl, recorded⟩
      · exact good.recorded removal earlier
    · rw [removals]
      exact List.pairwise_cons.mpr
        ⟨fun removal earlier same => unread removal earlier same.symm, good.unread⟩
  · constructor
    · exact invariant.few
    · exact invariant.index
    · have full := invariant.full
      omega
    · rw [more, count]
      push_cast
      have same : (sys.removed pid).recorded = sys.recorded := rfl
      rw [same]
      omega
    · exact invariant.slots
    · exact invariant.stored
    · exact invariant.latest
    · intro removal member other given
      have same : (sys.removed pid).recorded = sys.recorded := rfl
      have capacity := MAX_EVENTS_eq
      have full := invariant.full
      rw [count, same]
      rcases List.mem_cons.mp (removals ▸ member) with rfl | earlier
      · obtain rfl : number = other := Option.some.inj given
        have before := (invariant.stored _ _ held).1
        exact ⟨by omega, before, by omega⟩
      · obtain ⟨order, before, _⟩ := invariant.gone removal earlier other given
        exact ⟨by omega, before, by omega⟩

theorem removed_iff (invariant : ReaderInvariant sys) (good : RemovesUnread sys) (pid : Pid) :
    (RemovesUnread (sys.removed pid) ↔
        0 < sys.dev.eventCount ∧ sys.dev.readSlot < MAX_EVENTS - 1) ∧
      (RemovesUnread (sys.removed pid) → ReaderInvariant (sys.removed pid)) := by
  have exactly : RemovesUnread (sys.removed pid) →
      0 < sys.dev.eventCount ∧ sys.dev.readSlot < MAX_EVENTS - 1 := by
    intro unread
    constructor
    · by_contra none
      have empty : sys.dev.eventCount = 0 := le_antisymm (not_lt.mp none) good.count
      have negative : (sys.removed pid).dev.eventCount = -1 := by
        simp only [ReaderSys.removed, ReaderSys.setPoint, EduDev.remove, empty]
        rfl
      have count := unread.count
      omega
    · obtain ⟨number, tk, entry, _⟩ := unread.recorded _ List.mem_cons_self
      exact invariant.low_of_held (Removal.mk.inj entry).2
  exact ⟨⟨exactly, fun found => (good.removed invariant found.1 found.2 pid).1⟩,
    fun unread => (good.removed invariant (exactly unread).1 (exactly unread).2 pid).2⟩

end Removal

section Recording

variable {sys : ReaderSys Pid}

omit [DecidableEq Pid] in
theorem record_eventCount (good : RemovesUnread sys) (full : sys.dev.eventCount ≤ MAX_EVENTS)
    (tk : Int) :
    (sys.dev.record tk).eventCount =
      if sys.dev.eventCount < MAX_EVENTS then sys.dev.eventCount + 1 else sys.dev.eventCount := by
  have capacity := MAX_EVENTS_eq
  have count := good.count
  simp only [EduDev.record]
  split
  · exact int32_of_fits ⟨by omega, by omega⟩
  · rfl

def ReaderSys.interrupted (sys : ReaderSys Pid) (tk : Int) : ReaderSys Pid :=
  { sys with dev := sys.dev.record tk }.recordedAt sys.dev.recordSlot tk

omit [DecidableEq Pid] in
theorem RemovesUnread.interrupted (good : RemovesUnread sys) (invariant : ReaderInvariant sys)
    (inside : slotInside sys.dev.recordSlot = true) (tk : Int) :
    RemovesUnread (sys.interrupted tk) where
  inside := by
    simp only [ReaderSys.interrupted, ReaderSys.recordedAt, good.inside, inside]
    rfl
  count := by
    have count := record_eventCount good invariant.full tk
    have before := good.count
    have same : (sys.interrupted tk).dev.eventCount = (sys.dev.record tk).eventCount := rfl
    rw [same, count]
    split <;> omega
  few := by
    simp only [ReaderSys.interrupted, ReaderSys.recordedAt, List.length_append]
    exact good.few.trans (Nat.le_add_right _ _)
  recorded := by
    intro removal member
    obtain ⟨number, stamp, entry, recorded⟩ := good.recorded removal member
    refine ⟨number, stamp, entry, ?_⟩
    simp only [ReaderSys.interrupted, ReaderSys.recordedAt]
    exact List.getElem?_append_left (List.getElem?_eq_some_iff.mp recorded).1 ▸ recorded
  unread := good.unread

omit [DecidableEq Pid] in
theorem ReaderInvariant.interrupted (invariant : ReaderInvariant sys) (good : RemovesUnread sys)
    (room : sys.recorded.length < 2147483648) (tk : Int) :
    ReaderInvariant (sys.interrupted tk) := by
  have capacity := MAX_EVENTS_eq
  have slot := recordSlot_eq invariant.index room
  have inside := slotInside_mod sys.recorded.length
  have within : sys.recorded.length % 1023 < sys.dev.timestamps.length := by
    have slots := invariant.slots
    omega
  have recorded : (sys.interrupted tk).recorded = sys.recorded ++ [tk] := rfl
  have count : (sys.interrupted tk).dev.eventCount = (sys.dev.record tk).eventCount := rfl
  have removals : (sys.interrupted tk).removals = sys.removals := rfl
  have timestamps : (sys.interrupted tk).dev.timestamps =
      sys.dev.timestamps.set (sys.recorded.length % 1023) tk := by
    simp only [ReaderSys.interrupted, ReaderSys.recordedAt, EduDev.record, EduDev.store, slot,
      inside, if_true, Int.toNat_natCast]
  have holds : (sys.interrupted tk).holds = Function.update sys.holds
      (sys.recorded.length % 1023 : Nat) (some sys.recorded.length) := by
    simp only [ReaderSys.interrupted, ReaderSys.recordedAt, slot, inside, if_true]
  constructor
  · rw [recorded, List.length_append, List.length_singleton]
    omega
  · rw [recorded, List.length_append, List.length_singleton]
    simp only [ReaderSys.interrupted, ReaderSys.recordedAt, EduDev.record, invariant.index, int32]
    omega
  · rw [count, record_eventCount good invariant.full]
    have full := invariant.full
    split <;> omega
  · rw [count, record_eventCount good invariant.full, recorded, removals, List.length_append,
      List.length_singleton]
    have accounted := invariant.accounted
    push_cast
    split <;> omega
  · rw [timestamps, List.length_set]
    exact invariant.slots
  · intro place number held
    rw [holds] at held
    rw [timestamps, recorded, List.length_append, List.length_singleton]
    by_cases here : place = (sys.recorded.length % 1023 : Nat)
    · subst here
      rw [Function.update_self] at held
      obtain rfl : sys.recorded.length = number := Option.some.inj held
      rw [List.getElem?_set_self within, List.getElem?_concat_length]
      exact ⟨Nat.lt_succ_self _, rfl, rfl⟩
    · rw [Function.update_of_ne here] at held
      obtain ⟨before, rfl, stored⟩ := invariant.stored place number held
      have elsewhere : sys.recorded.length % 1023 ≠ number % 1023 := fun same => here (same ▸ rfl)
      rw [List.getElem?_set_ne elsewhere, List.getElem?_append_left before]
      exact ⟨Nat.lt_succ_of_lt before, rfl, stored⟩
  · intro number before recent
    rw [recorded, List.length_append, List.length_singleton] at before recent
    rw [holds]
    rcases Nat.lt_succ_iff_lt_or_eq.mp before with earlier | rfl
    · have elsewhere : ((number % 1023 : Nat) : Int) ≠ (sys.recorded.length % 1023 : Nat) := by omega
      rw [Function.update_of_ne elsewhere]
      exact invariant.latest number earlier (by omega)
    · exact Function.update_self _ _ _
  · intro removal member number given
    obtain ⟨order, before, _⟩ := invariant.gone removal member number given
    rw [recorded, List.length_append, List.length_singleton, count,
      record_eventCount good invariant.full]
    refine ⟨?_, Nat.lt_succ_of_lt before, fun _ => Nat.succ_lt_succ before⟩
    push_cast
    split <;> omega

omit [DecidableEq Pid] in
theorem interrupted_iff (invariant : ReaderInvariant sys) (good : RemovesUnread sys) (tk : Int) :
    (RemovesUnread (sys.interrupted tk) ↔ sys.recorded.length < 2147483648) ∧
      (RemovesUnread (sys.interrupted tk) → ReaderInvariant (sys.interrupted tk)) := by
  have exactly : RemovesUnread (sys.interrupted tk) → sys.recorded.length < 2147483648 := by
    intro unread
    by_contra full
    have inside := unread.inside
    have wrapped := recordSlot_wrapped invariant.index
      (Nat.le_antisymm invariant.few (Nat.not_lt.mp full))
    simp only [ReaderSys.interrupted, ReaderSys.recordedAt, good.inside, wrapped] at inside
    contradiction
  refine ⟨⟨exactly, fun room => good.interrupted invariant ?_ tk⟩,
    fun unread => invariant.interrupted good (exactly unread) tk⟩
  rw [recordSlot_eq invariant.index room]
  exact slotInside_mod _

end Recording

theorem setPoint_kept {sys : ReaderSys Pid} (invariant : ReaderInvariant sys)
    (good : RemovesUnread sys) (pid : Pid) (point : ReadPoint) :
    RemovesUnread (sys.setPoint pid point) ∧ ReaderInvariant (sys.setPoint pid point) :=
  ⟨⟨good.inside, good.count, good.few, good.recorded, good.unread⟩,
    ⟨invariant.few, invariant.index, invariant.full, invariant.accounted, invariant.slots,
      invariant.stored, invariant.latest, invariant.gone⟩⟩

theorem proceed_iff {driver : Driver} {sys next : ReaderSys Pid} {pid : Pid} {interrupted : Bool}
    (invariant : ReaderInvariant sys) (good : RemovesUnread sys)
    (taken : eduReadProceed sys pid interrupted (sys.points pid) = some next) :
    (RemovesUnread next ↔ FindsUnread driver sys (.proceed pid interrupted)) ∧
      (RemovesUnread next → ReaderInvariant next) := by
  -- before the lock nothing is removed
  have early : sys.points pid ≠ .passed → ∀ point, next = sys.setPoint pid point →
      (RemovesUnread next ↔ FindsUnread driver sys (.proceed pid interrupted)) ∧
        (RemovesUnread next → ReaderInvariant next) := by
    rintro notPassed point rfl
    obtain ⟨goodNext, kept⟩ := setPoint_kept invariant good pid point
    exact ⟨iff_of_true goodNext fun passed => absurd passed notPassed, fun _ => kept⟩
  cases here : sys.points pid with
  | testing =>
      simp only [here, eduReadProceed] at taken
      split at taken
      · exact early (by simp [here]) _ (Option.some.inj taken).symm
      · exact early (by simp [here]) _ (Option.some.inj taken).symm
  | waiting =>
      simp only [here, eduReadProceed] at taken
      split at taken
      · exact early (by simp [here]) _ (Option.some.inj taken).symm
      · split at taken
        · exact early (by simp [here]) _ (Option.some.inj taken).symm
        · contradiction
  | passed =>
      simp only [here, eduReadProceed, Option.some.injEq] at taken
      subst taken
      simp only [FindsUnread, here, forall_const]
      exact removed_iff invariant good pid
  | idle | gave | interrupted => simp [here, eduReadProceed] at taken

theorem removesUnread_step_iff {driver : Driver} {sys next : ReaderSys Pid}
    {action : ReaderAction Pid} (invariant : ReaderInvariant sys) (good : RemovesUnread sys)
    (taken : readerStep driver sys action = some next) :
    (RemovesUnread next ↔ FindsUnread driver sys action) ∧
      (RemovesUnread next → ReaderInvariant next) := by
  cases action with
  | interrupt st tk =>
      simp only [readerStep, eduIrqHandler, Option.some.injEq] at taken
      by_cases records : driver.records st = true
      · rw [if_pos records, if_pos records] at taken
        subst taken
        simp only [FindsUnread, records, forall_const]
        exact interrupted_iff invariant good tk
      · rw [if_neg records, if_neg records] at taken
        subst taken
        exact ⟨iff_of_true good fun does => absurd does records, fun _ => invariant⟩
  | call pid =>
      simp only [readerStep, Option.ite_none_right_eq_some, Option.some.injEq] at taken
      obtain ⟨_, rfl⟩ := taken
      obtain ⟨goodNext, kept⟩ := setPoint_kept invariant good pid .testing
      exact ⟨iff_of_true goodNext trivial, fun _ => kept⟩
  | proceed pid interrupted => exact proceed_iff invariant good taken

omit [DecidableEq Pid] in
theorem removesUnread_loaded : RemovesUnread (.loaded Pid) where
  inside := rfl
  count := le_rfl
  few := le_rfl
  recorded := fun _ member => absurd member List.not_mem_nil
  unread := .nil

omit [DecidableEq Pid] in
theorem readerInvariant_loaded : ReaderInvariant (.loaded Pid) where
  few := Nat.zero_le _
  index := by simp [ReaderSys.loaded, EduDev.loaded, int32]
  full := Int.natCast_nonneg MAX_EVENTS
  accounted := le_rfl
  slots := List.length_replicate
  stored := fun slot number held => by simp [ReaderSys.loaded] at held
  latest := fun number before => absurd before (Nat.not_lt_zero number)
  gone := fun _ member => absurd member List.not_mem_nil

/-- However readers and interrupts interleave, `event_count` counts unread timestamps and every
reader gets one of them, exactly as long as each finds a count and a slot below 1023 under the
lock, and `index` does not wrap. -/
theorem removals_unread_iff (driver : Driver) (actions : List (ReaderAction Pid)) :
    StepMachine.Always (readerStep driver) RemovesUnread (.loaded Pid) actions ↔
      StepMachine.Meets (readerStep driver) (FindsUnread driver) (.loaded Pid) actions := by
  apply StepMachine.always_iff_meets_of_good _ _ actions readerInvariant_loaded
    removesUnread_loaded
  · intro sys action next invariant good taken goodNext
    exact (removesUnread_step_iff invariant good taken).2 goodNext
  · intro sys action next invariant good taken
    exact (removesUnread_step_iff invariant good taken).1

end Machine

def twoReaders : List (ReaderAction Bool) :=
  [.interrupt 1 7, .call true, .call false, .proceed true false, .proceed false false,
    .proceed true false, .proceed false false]

theorem twoReaders_count (driver : Driver) :
    (StepMachine.run (readerStep driver) (.loaded Bool) twoReaders).map
      (fun sys => sys.dev.eventCount) = some (-1) := by
  cases driver <;> decide +kernel

theorem removals_exceed_twoReaders :
    ¬ StepMachine.Always (readerStep .shortirq) RemovesUnread (.loaded Bool) twoReaders ∧
      ¬ StepMachine.Always (readerStep .pciEduirq) RemovesUnread (.loaded Bool) twoReaders := by
  have negative (driver : Driver) :
      ¬ StepMachine.Always (readerStep driver) RemovesUnread (.loaded Bool) twoReaders := by
    intro always
    obtain ⟨sys, unread, count⟩ := always.observed (twoReaders_count driver)
    have nonneg := unread.count
    rw [count] at nonneg
    contradiction
  exact ⟨negative .shortirq, negative .pciEduirq⟩

end Ldd3.Shortirq
