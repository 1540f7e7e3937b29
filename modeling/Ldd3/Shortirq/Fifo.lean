import Mathlib.Tactic
import Ldd3.Lib.DropFifo
import Ldd3.Lib.StepMachine
import Ldd3.Shortirq.Core

/-!
The timestamp buffer against a first-in first-out queue of `MAX_EVENTS` entries, for
interrupts and reads that come one at a time.
-/

namespace Ldd3.Shortirq

open CInt

structure FifoSys where
  dev : EduDev
  fault : Bool
  returned : List Int
  queue : DropFifo Int MAX_EVENTS

def FifoSys.loaded : FifoSys :=
  { dev := .loaded, fault := false, returned := [], queue := .empty }

inductive FifoAction
  | interrupt (st : Nat) (tk : Int)
  | read (interrupted : Bool)

def fifoStep (driver : Driver) (sys : FifoSys) : FifoAction → Option FifoSys
  | .interrupt st tk =>
      if driver.records st then
        some { sys with
          dev := eduIrqHandler driver st tk sys.dev
          fault := sys.fault || !slotInside sys.dev.recordSlot
          queue := sys.queue.push tk }
      else some { sys with dev := eduIrqHandler driver st tk sys.dev }
  | .read interrupted =>
      if sys.dev.eventCount = 0 then if interrupted then some sys else none
      else
        some { sys with
          dev := sys.dev.remove
          fault := sys.fault || !slotInside sys.dev.readSlot
          returned := sys.returned ++ (sys.dev.load sys.dev.readSlot).toList
          queue := sys.queue.pop }

def IsFifo (sys : FifoSys) : Prop := sys.fault = false ∧ sys.returned = sys.queue.returned

/-- The slot of the next read is that of the oldest unread timestamp: fewer than 1023 have
left the queue and it is not full, or the slot holds an equal timestamp by accident. -/
def SlotCurrent (queue : DropFifo Int MAX_EVENTS) : Prop :=
  queue.gone < MAX_EVENTS - 1 ∧
      (queue.size < MAX_EVENTS ∨ queue.front? = queue.recorded[queue.recorded.length - 1]?) ∨
    queue.gone = MAX_EVENTS - 1 ∧ queue.front? = some 0

instance (queue : DropFifo Int MAX_EVENTS) : Decidable (SlotCurrent queue) := by
  unfold SlotCurrent
  infer_instance

def KeepsFifo (driver : Driver) (sys : FifoSys) : FifoAction → Prop
  | .interrupt st _ => driver.records st = true → sys.queue.recorded.length < 2147483648
  | .read _ => 0 < sys.queue.size → SlotCurrent sys.queue

instance (driver : Driver) (sys : FifoSys) (action : FifoAction) :
    Decidable (KeepsFifo driver sys action) := by
  cases action <;> simp only [KeepsFifo] <;> infer_instance

structure FifoInvariant (sys : FifoSys) : Prop where
  few : sys.queue.recorded.length ≤ 2147483648
  index : sys.dev.index = int32 sys.queue.recorded.length
  count : sys.dev.eventCount = sys.queue.size
  slots : sys.dev.timestamps.length = MAX_EVENTS
  latest : ∀ record < sys.queue.recorded.length, sys.queue.recorded.length ≤ record + 1023 →
    sys.dev.timestamps[record % 1023]? = sys.queue.recorded[record]?
  spare : sys.dev.timestamps[1023]? = some 0

theorem fifoInvariant_loaded : FifoInvariant .loaded where
  few := Nat.zero_le _
  index := by simp [FifoSys.loaded, EduDev.loaded, DropFifo.empty, int32]
  count := rfl
  slots := List.length_replicate
  latest := by
    intro record bound
    simp [FifoSys.loaded, DropFifo.empty] at bound
  spare := List.getElem?_replicate_of_lt (by decide)

theorem FifoInvariant.recordSlot {sys : FifoSys} (invariant : FifoInvariant sys)
    (room : sys.queue.recorded.length < 2147483648) :
    sys.dev.recordSlot = (sys.queue.recorded.length % 1023 : Nat) :=
  recordSlot_eq invariant.index room

theorem FifoInvariant.readSlot {sys : FifoSys} (invariant : FifoInvariant sys)
    (some : 0 < sys.queue.size) : sys.dev.readSlot = sys.queue.gone := by
  have few := invariant.few
  have past := sys.queue.past
  simp only [DropFifo.size] at some
  rw [EduDev.readSlot, invariant.index, invariant.count]
  simp only [DropFifo.size, int32]
  omega

theorem FifoInvariant.load {sys : FifoSys} (invariant : FifoInvariant sys)
    (some : 0 < sys.queue.size) :
    sys.dev.load sys.dev.readSlot =
      if sys.queue.gone < MAX_EVENTS then sys.dev.timestamps[sys.queue.gone]? else none := by
  rw [invariant.readSlot some, EduDev.load]
  by_cases inside : sys.queue.gone < MAX_EVENTS
  · simp [slotInside, inside]
  · simp [slotInside, inside]

theorem FifoInvariant.load_fresh {sys : FifoSys} (invariant : FifoInvariant sys)
    (low : sys.queue.gone < MAX_EVENTS - 1) (some : 0 < sys.queue.size) :
    sys.dev.timestamps[sys.queue.gone]? =
      if sys.queue.size < MAX_EVENTS then sys.queue.front?
      else sys.queue.recorded[sys.queue.recorded.length - 1]? := by
  have capacity := MAX_EVENTS_eq
  have small : sys.queue.gone % 1023 = sys.queue.gone := Nat.mod_eq_of_lt low
  have sizeBound := sys.queue.size_le
  by_cases room : sys.queue.size < MAX_EVENTS
  · rw [if_pos room]
    simp only [DropFifo.size] at some room
    have found := invariant.latest sys.queue.gone (by omega) (by omega)
    rwa [small] at found
  · rw [if_neg room]
    simp only [DropFifo.size] at some room sizeBound
    have last := invariant.latest (sys.queue.recorded.length - 1) (by omega) (by omega)
    have wrapped : (sys.queue.recorded.length - 1) % 1023 = sys.queue.gone := by
      have length : sys.queue.recorded.length - 1 = sys.queue.gone + 1023 := by omega
      rw [length, Nat.add_mod_right, small]
    rwa [wrapped] at last

theorem front_some {queue : DropFifo Int MAX_EVENTS} (some : 0 < queue.size) :
    ∃ front, queue.front? = .some front := by
  simp only [DropFifo.size] at some
  exact ⟨_, List.getElem?_eq_getElem (by omega)⟩

theorem FifoInvariant.read_iff {sys : FifoSys} (invariant : FifoInvariant sys)
    (some : 0 < sys.queue.size) :
    slotInside sys.dev.readSlot = true ∧ sys.dev.load sys.dev.readSlot = sys.queue.front? ↔
      SlotCurrent sys.queue := by
  have capacity := MAX_EVENTS_eq
  have inside : slotInside sys.dev.readSlot = true ↔ sys.queue.gone < MAX_EVENTS := by
    simp [invariant.readSlot some, slotInside]
  rw [inside, invariant.load some]
  rcases Nat.lt_trichotomy sys.queue.gone (MAX_EVENTS - 1) with low | spare | high
  · have within : sys.queue.gone < MAX_EVENTS := by omega
    rw [if_pos within, invariant.load_fresh low some]
    simp only [SlotCurrent, low, low.ne, within, true_and, false_and, or_false]
    split
    · rename_i room
      simp [room]
    · rename_i full
      simp only [full, false_or]
      exact eq_comm
  · have within : sys.queue.gone < MAX_EVENTS := by omega
    have zero : sys.dev.timestamps[sys.queue.gone]? = .some 0 := by
      rw [spare]
      exact invariant.spare
    rw [if_pos within, zero]
    simp only [SlotCurrent, spare, lt_irrefl, false_and, false_or, true_and]
    rw [eq_comm, ← spare]
    simp only [within, true_and]
  · have outside : ¬ sys.queue.gone < MAX_EVENTS := by omega
    simp only [outside, false_and, SlotCurrent, Nat.not_lt.mpr high.le, high.ne', or_self]

theorem FifoInvariant.removed {sys : FifoSys} (invariant : FifoInvariant sys)
    (some : 0 < sys.queue.size) (fault : Bool) (returned : List Int) :
    FifoInvariant { dev := sys.dev.remove, fault := fault, returned := returned,
                    queue := sys.queue.pop } where
  few := invariant.few
  index := invariant.index
  count := eventCount_remove invariant.count some
  slots := invariant.slots
  latest := invariant.latest
  spare := invariant.spare

theorem FifoInvariant.recordSlot_inside {sys : FifoSys} (invariant : FifoInvariant sys)
    (room : sys.queue.recorded.length < 2147483648) : slotInside sys.dev.recordSlot = true := by
  rw [invariant.recordSlot room]
  exact slotInside_mod _

theorem FifoInvariant.stored {sys : FifoSys} (invariant : FifoInvariant sys)
    (room : sys.queue.recorded.length < 2147483648) (tk : Int) :
    sys.dev.store sys.dev.recordSlot tk =
      sys.dev.timestamps.set (sys.queue.recorded.length % 1023) tk := by
  have inside := invariant.recordSlot_inside room
  rw [EduDev.store, if_pos inside, invariant.recordSlot room, Int.toNat_natCast]

theorem FifoInvariant.recorded {sys : FifoSys} (invariant : FifoInvariant sys)
    (room : sys.queue.recorded.length < 2147483648) (tk : Int) (fault : Bool) :
    FifoInvariant { sys with
      dev := sys.dev.record tk, fault := fault, queue := sys.queue.push tk } where
  few := by
    simp only [DropFifo.push, List.length_append, List.length_singleton]
    omega
  index := by
    simp only [EduDev.record, DropFifo.push, List.length_append, List.length_singleton,
      invariant.index, int32]
    omega
  count := eventCount_record invariant.count tk
  slots := by
    simp only [EduDev.record, invariant.stored room, List.length_set]
    exact invariant.slots
  latest := by
    intro record bound recent
    simp only [DropFifo.push, List.length_append, List.length_singleton] at bound recent
    simp only [EduDev.record, invariant.stored room, DropFifo.push]
    rcases Nat.lt_succ_iff_lt_or_eq.mp bound with before | rfl
    · have elsewhere : sys.queue.recorded.length % 1023 ≠ record % 1023 := by omega
      rw [List.getElem?_set_ne elsewhere, List.getElem?_append_left before]
      exact invariant.latest record before (by omega)
    · have capacity := MAX_EVENTS_eq
      have slots := invariant.slots
      have within : sys.queue.recorded.length % 1023 < sys.dev.timestamps.length := by omega
      rw [List.getElem?_set_self within, List.getElem?_concat_length]
  spare := by
    have below := Nat.mod_lt sys.queue.recorded.length (show 0 < 1023 by decide)
    simp only [EduDev.record, invariant.stored room]
    rw [List.getElem?_set_ne (by omega)]
    exact invariant.spare

theorem FifoInvariant.count_iff {sys : FifoSys} (invariant : FifoInvariant sys) :
    sys.dev.eventCount = 0 ↔ sys.queue.size = 0 := by
  rw [invariant.count]
  omega

theorem FifoInvariant.recordSlot_iff {sys : FifoSys} (invariant : FifoInvariant sys) :
    slotInside sys.dev.recordSlot = true ↔ sys.queue.recorded.length < 2147483648 := by
  refine ⟨?_, invariant.recordSlot_inside⟩
  intro inside
  by_contra full
  have wrapped := recordSlot_wrapped invariant.index
    (Nat.le_antisymm invariant.few (Nat.not_lt.mp full))
  rw [wrapped] at inside
  contradiction

theorem isFifo_step_iff {driver : Driver} {sys next : FifoSys} {action : FifoAction}
    (invariant : FifoInvariant sys) (good : IsFifo sys)
    (taken : fifoStep driver sys action = some next) :
    IsFifo next ↔ KeepsFifo driver sys action := by
  obtain ⟨sound, same⟩ := good
  cases action with
  | interrupt st tk =>
      simp only [fifoStep] at taken
      split at taken
      · rename_i records
        cases taken
        simp only [IsFifo, KeepsFifo, sound, Bool.false_or, Bool.not_eq_false', records,
          forall_const, ← invariant.recordSlot_iff]
        exact ⟨fun kept => kept.1, fun inside => ⟨inside, same⟩⟩
      · rename_i ignored
        cases taken
        exact ⟨fun _ records => absurd records ignored, fun _ => ⟨sound, same⟩⟩
  | read interrupted =>
      simp only [fifoStep, invariant.count_iff] at taken
      split at taken
      · rename_i empty
        split at taken
        · cases taken
          simp only [KeepsFifo, empty, lt_irrefl, false_implies, iff_true]
          exact ⟨sound, same⟩
        · contradiction
      · rename_i unread
        have some := Nat.pos_of_ne_zero unread
        obtain ⟨front, first⟩ := front_some some
        cases taken
        simp only [IsFifo, KeepsFifo, sound, Bool.false_or, Bool.not_eq_false', some, forall_const,
          ← invariant.read_iff some, same, DropFifo.pop, List.append_cancel_left_eq, first]
        cases sys.dev.load sys.dev.readSlot with
        | none => simp
        | some loaded => simp

theorem fifoInvariant_step {driver : Driver} {sys next : FifoSys} {action : FifoAction}
    (invariant : FifoInvariant sys) (kept : KeepsFifo driver sys action)
    (taken : fifoStep driver sys action = some next) : FifoInvariant next := by
  cases action with
  | interrupt st tk =>
      simp only [fifoStep] at taken
      split at taken
      · rename_i records
        cases taken
        rw [eduIrqHandler, if_pos records]
        exact invariant.recorded (kept records) tk _
      · rename_i ignored
        cases taken
        rw [eduIrqHandler, if_neg ignored]
        exact invariant
  | read interrupted =>
      simp only [fifoStep, invariant.count_iff] at taken
      split at taken
      · split at taken
        · cases taken
          exact invariant
        · contradiction
      · rename_i unread
        cases taken
        exact invariant.removed (Nat.pos_of_ne_zero unread) _ _

/-- For any sequence of interrupts and reads the timestamp buffer is a queue of
`MAX_EVENTS` entries exactly as long as every read finds its slot current. -/
theorem timestamps_fifo_iff (driver : Driver) (actions : List FifoAction) :
    StepMachine.Always (fifoStep driver) IsFifo .loaded actions ↔
      StepMachine.Meets (fifoStep driver) (KeepsFifo driver) .loaded actions := by
  have good : IsFifo .loaded := ⟨rfl, rfl⟩
  apply StepMachine.always_iff_meets_of_good _ _ actions fifoInvariant_loaded good
  · intro sys action next invariant good taken goodNext
    exact fifoInvariant_step invariant ((isFifo_step_iff invariant good taken).mp goodNext) taken
  · intro sys action next invariant good taken
    exact isFifo_step_iff invariant good taken

theorem run_interrupts (driver : Driver) {st : Nat} (records : driver.records st = true)
    (tks : List Int) (sys : FifoSys) :
    ∃ final, StepMachine.run (fifoStep driver) sys (tks.map (.interrupt st)) = some final ∧
      final.queue = tks.foldl DropFifo.push sys.queue := by
  induction tks generalizing sys with
  | nil => exact ⟨sys, rfl, rfl⟩
  | cons tk rest ih =>
      obtain ⟨final, ran, queue⟩ := ih
        { sys with
          dev := eduIrqHandler driver st tk sys.dev
          fault := sys.fault || !slotInside sys.dev.recordSlot
          queue := sys.queue.push tk }
      refine ⟨final, ?_, queue⟩
      rw [List.map_cons]
      apply StepMachine.run_cons_some _ ran
      rw [fifoStep, if_pos records]

def stamps (count : Nat) : List Int := (List.range count).map fun earlier : Nat => (earlier : Int) + 1

theorem stamps_length (count : Nat) : (stamps count).length = count := by
  simp only [stamps, List.length_map, List.length_range]

theorem stamps_get {count index : Nat} (inside : index < count) :
    (stamps count)[index]? = some ((index : Int) + 1) := by
  simp only [stamps, List.getElem?_map, List.getElem?_range inside, Option.map_some]

def interruptsThenRead (count : Nat) : List FifoAction :=
  (stamps count).map (.interrupt 1) ++ [.read false]

theorem interruptsThenRead_breaks {driver : Driver} (records : driver.records 1 = true) {count : Nat}
    (all : count = MAX_EVENTS) :
    ¬ StepMachine.Always (fifoStep driver) IsFifo .loaded (interruptsThenRead count) := by
  have capacity := MAX_EVENTS_eq
  rw [timestamps_fifo_iff]
  intro meets
  obtain ⟨final, ran, queue⟩ :=
    run_interrupts driver records (stamps count) .loaded
  obtain ⟨before, after⟩ := meets.split ran
  have invariant : FifoInvariant final :=
    StepMachine.run_invariant (fun _ _ _ invariant kept taken => fifoInvariant_step invariant kept taken)
      fifoInvariant_loaded before ran
  have pushed : final.queue.recorded = stamps count ∧ final.queue.gone = 0 := by
    rw [queue]
    apply DropFifo.foldl_push
    simp only [FifoSys.loaded, DropFifo.empty, DropFifo.size, stamps_length, List.length_nil]
    omega
  have full : final.queue.size = count := by
    simp only [DropFifo.size, pushed.1, pushed.2, stamps_length, Nat.sub_zero]
  have unread : final.dev.eventCount ≠ 0 := by
    rw [ne_eq, invariant.count_iff, full, all]
    exact Nat.succ_ne_zero _
  have current := (after _ (by rw [fifoStep, if_neg unread])).1 (by omega)
  rcases current with ⟨_, room | same⟩ | ⟨spare, _⟩
  · omega
  · rw [DropFifo.front?, pushed.1, pushed.2, stamps_length, stamps_get (by omega), stamps_get (by omega),
      Option.some.injEq] at same
    omega
  · omega

theorem timestamps_not_fifo :
    ¬ StepMachine.Always (fifoStep .shortirq) IsFifo .loaded (interruptsThenRead MAX_EVENTS) ∧
      ¬ StepMachine.Always (fifoStep .pciEduirq) IsFifo .loaded (interruptsThenRead MAX_EVENTS) :=
  ⟨interruptsThenRead_breaks rfl rfl, interruptsThenRead_breaks rfl rfl⟩

end Ldd3.Shortirq
