import Mathlib.Tactic
import Ldd3.Lib.CInt
import Ldd3.Lib.DropFifo

/-!
The interrupt timestamp drivers (`ch10_interrupts/shortirq.c` and `pci_eduirq.c`): the
array of timestamps, the growing `index` and the saturating `event_count`, as the
interrupt handler and the locked part of `edu_read` use them.
-/

namespace Ldd3.Shortirq

open CInt

def MAX_EVENTS : Nat := 1024

theorem MAX_EVENTS_eq : MAX_EVENTS = 1024 := rfl

structure EduDev where
  timestamps : List Int
  eventCount : Int
  index : Int
  deriving DecidableEq, Repr

def EduDev.loaded : EduDev :=
  { timestamps := List.replicate MAX_EVENTS 0, eventCount := 0, index := 0 }

def slotInside (slot : Int) : Bool := decide (0 ≤ slot ∧ slot < MAX_EVENTS)

def EduDev.load (dev : EduDev) (slot : Int) : Option Int :=
  if slotInside slot then dev.timestamps[slot.toNat]? else none

def EduDev.store (dev : EduDev) (slot tk : Int) : List Int :=
  if slotInside slot then dev.timestamps.set slot.toNat tk else dev.timestamps

def EduDev.recordSlot (dev : EduDev) : Int := dev.index.tmod (MAX_EVENTS - 1)

def EduDev.readSlot (dev : EduDev) : Int := int32 (dev.index - dev.eventCount)

/-- What the handlers do under `dev->lock`. -/
def EduDev.record (dev : EduDev) (tk : Int) : EduDev :=
  { timestamps := dev.store dev.recordSlot tk
    eventCount :=
      if dev.eventCount < MAX_EVENTS then int32 (dev.eventCount + 1) else dev.eventCount
    index := int32 (dev.index + 1) }

/-- What `edu_read` does under `dev->lock`, beside the load of its timestamp. -/
def EduDev.remove (dev : EduDev) : EduDev := { dev with eventCount := int32 (dev.eventCount - 1) }

inductive Driver
  | shortirq
  | pciEduirq
  deriving DecidableEq, Repr

/-- `pci_eduirq` leaves when the device's interrupt status is 0. -/
def Driver.records (driver : Driver) (st : Nat) : Bool :=
  match driver with
  | .shortirq => true
  | .pciEduirq => st != 0

def eduIrqHandler (driver : Driver) (st : Nat) (tk : Int) (dev : EduDev) : EduDev :=
  if driver.records st then dev.record tk else dev

theorem recordSlot_eq {dev : EduDev} {records : Nat} (index : dev.index = int32 records)
    (room : records < 2147483648) : dev.recordSlot = (records % 1023 : Nat) := by
  rw [EduDev.recordSlot, index, int32_natCast room]
  rfl

theorem recordSlot_wrapped {dev : EduDev} {records : Nat} (index : dev.index = int32 records)
    (full : records = 2147483648) : dev.recordSlot = -2 := by
  rw [EduDev.recordSlot, index, full]
  rfl

theorem slotInside_mod (records : Nat) : slotInside (records % 1023 : Nat) = true := by
  have capacity := MAX_EVENTS_eq
  have below := Nat.mod_lt records (show 0 < 1023 by decide)
  rw [slotInside, decide_eq_true_eq]
  omega

theorem eventCount_record {dev : EduDev} {queue : DropFifo Int MAX_EVENTS}
    (count : dev.eventCount = queue.size) (tk : Int) :
    (dev.record tk).eventCount = (queue.push tk).size := by
  have capacity := MAX_EVENTS_eq
  have bound := queue.size_le
  have past := queue.past
  simp only [EduDev.record, count, Nat.cast_lt]
  by_cases more : queue.size < MAX_EVENTS
  · have kept : (queue.push tk).gone = queue.gone := DropFifo.push_room more
    rw [if_pos more, int32_of_fits ⟨by omega, by omega⟩]
    simp only [DropFifo.size, kept]
    simp only [DropFifo.push, List.length_append, List.length_singleton]
    omega
  · have full : (queue.push tk).gone = queue.gone + 1 :=
      DropFifo.push_full (Nat.le_antisymm bound (Nat.not_lt.mp more))
    rw [if_neg more]
    simp only [DropFifo.size, full]
    simp only [DropFifo.push, List.length_append, List.length_singleton]
    omega

theorem eventCount_remove {dev : EduDev} {queue : DropFifo Int MAX_EVENTS}
    (count : dev.eventCount = queue.size) (some : 0 < queue.size) :
    dev.remove.eventCount = queue.pop.size := by
  have capacity := MAX_EVENTS_eq
  have bound := queue.size_le
  have gone := DropFifo.pop_gone some
  simp only [EduDev.remove, count]
  rw [int32_of_fits ⟨by omega, by omega⟩]
  simp only [DropFifo.size, gone] at some ⊢
  simp only [DropFifo.pop]
  omega

end Ldd3.Shortirq
