import Mathlib.Tactic
import Ldd3.Lib.Ring
import Ldd3.Impair.Core

/-!
The rings as queues of packets: `ring_free` and `ring_used` count them, and filling and
cleaning one descriptor are the two ends of the queue.
-/

namespace Ldd3.Impair

structure RingValid (ring : ImpairRing) : Prop where
  size : ring.size = RING_SIZE
  cells : ring.desc.length = RING_SIZE
  use : ring.nextToUse < RING_SIZE
  clean : ring.nextToClean < RING_SIZE

def ImpairRing.contents (ring : ImpairRing) : List (Option Skb) :=
  Ring.contents ring.desc ring.nextToClean ring.nextToUse

/-- The packets of the ring, oldest first; no descriptor between the indices is `NULL`. -/
structure Holds (ring : ImpairRing) (skbs : List Skb) : Prop where
  valid : RingValid ring
  contents : ring.contents = skbs.map some

theorem ringInit_ringSize {ring : ImpairRing} (cells : ring.desc.length = RING_SIZE) :
    ringInit ring RING_SIZE = .ok .fresh := by
  have accepted : ¬(RING_SIZE = 0 ∨ RING_SIZE < RING_SIZE) := by decide
  rw [ringInit, if_neg accepted, List.drop_of_length_le cells.le, List.append_nil]
  rfl

theorem RING_SIZE_eq : RING_SIZE = 1024 := rfl

theorem ringNext_eq_wrap {index : Nat} (inside : index < RING_SIZE) :
    ringNext index = Ring.wrap RING_SIZE (index + 1) := by
  have size := RING_SIZE_eq
  have small : u32 (index + 1) = index + 1 := Nat.mod_eq_of_lt (by omega)
  rw [ringNext, small, Ring.wrap]
  by_cases last : index + 1 = RING_SIZE
  · rw [if_pos last, last, Nat.mod_self]
  · rw [if_neg last, Nat.mod_eq_of_lt (by omega)]

theorem ringNext_lt (index : Nat) : ringNext index < RING_SIZE :=
  Nat.mod_lt _ (by decide)

theorem circCnt_eq {head tail : Nat} (headInside : head < RING_SIZE)
    (tailInside : tail ≤ RING_SIZE) :
    circCnt head tail RING_SIZE = (head + RING_SIZE - tail) % RING_SIZE := by
  have mask : RING_SIZE - 1 = 2 ^ 10 - 1 := rfl
  have size : RING_SIZE = 2 ^ 10 := rfl
  rw [circCnt, mask, Nat.and_two_pow_sub_one_eq_mod, u32, size]
  rw [size] at headInside tailInside
  omega

theorem RingValid.inside {ring : ImpairRing} (valid : RingValid ring) :
    Ring.Inside ring.desc.length ring.nextToClean ring.nextToUse where
  reader := valid.cells ▸ valid.clean
  writer := valid.cells ▸ valid.use

theorem RingValid.ringUsed_eq {ring : ImpairRing} (valid : RingValid ring) :
    ringUsed ring = Ring.stored RING_SIZE ring.nextToClean ring.nextToUse := by
  have use := valid.use
  have clean := valid.clean
  rw [ringUsed, valid.size, circCnt_eq use clean.le]
  simp only [RING_SIZE] at use clean
  simp only [Ring.stored, RING_SIZE]
  split <;> omega

theorem RingValid.ringFree_eq {ring : ImpairRing} (valid : RingValid ring) :
    ringFree ring = RING_SIZE - 1 - ringUsed ring := by
  have use := valid.use
  have clean := valid.clean
  have next : u32 (ring.nextToUse + 1) = ring.nextToUse + 1 := by
    simp only [RING_SIZE] at use
    simp only [u32]
    omega
  rw [valid.ringUsed_eq, ringFree, circSpace, valid.size, next, circCnt_eq clean use]
  simp only [RING_SIZE] at use clean
  simp only [Ring.stored, RING_SIZE]
  split <;> omega

theorem Holds.length_eq {ring : ImpairRing} {skbs : List Skb} (holds : Holds ring skbs) :
    ringUsed ring = skbs.length := by
  have valid := holds.valid
  have lengths := congrArg List.length holds.contents
  rw [ImpairRing.contents, Ring.length_contents valid.inside, List.length_map, valid.cells] at lengths
  rw [valid.ringUsed_eq, lengths]

theorem Holds.ringFree_eq {ring : ImpairRing} {skbs : List Skb} (holds : Holds ring skbs) :
    ringFree ring = RING_SIZE - 1 - skbs.length := by
  rw [holds.valid.ringFree_eq, holds.length_eq]

theorem Holds.length_lt {ring : ImpairRing} {skbs : List Skb} (holds : Holds ring skbs) :
    skbs.length < RING_SIZE := by
  have valid := holds.valid
  rw [← holds.length_eq, valid.ringUsed_eq, ← valid.cells]
  exact Ring.stored_lt valid.inside

theorem holds_fresh : Holds .fresh [] where
  valid := ⟨rfl, List.length_replicate, by decide, by decide⟩
  contents := Ring.contents_empty _ _

theorem Holds.isEmpty_iff {ring : ImpairRing} {skbs : List Skb} (holds : Holds ring skbs) :
    ring.isEmpty = true ↔ skbs = [] := by
  have valid := holds.valid
  have use := valid.use
  have clean := valid.clean
  rw [← List.length_eq_zero_iff, ← holds.length_eq, valid.ringUsed_eq, ImpairRing.isEmpty,
    beq_iff_eq, Ring.stored]
  split <;> omega

theorem Holds.fill {ring : ImpairRing} {skbs : List Skb} (holds : Holds ring skbs)
    (room : 0 < ringFree ring) (skb : Skb) : Holds (ring.fill skb) (skbs ++ [skb]) := by
  have valid := holds.valid
  have next := ringNext_eq_wrap valid.use
  have stored : Ring.stored ring.desc.length ring.nextToClean ring.nextToUse <
      ring.desc.length - 1 := by
    rw [valid.ringFree_eq, valid.ringUsed_eq] at room
    rw [valid.cells]
    omega
  constructor
  · exact ⟨valid.size, (List.length_set ..).trans valid.cells, ringNext_lt _, valid.clean⟩
  · rw [ImpairRing.contents, ImpairRing.fill, next, ← valid.cells,
      Ring.contents_set_put valid.inside stored, List.map_append, ← holds.contents]
    rfl

theorem Holds.clean {ring : ImpairRing} {skb : Skb} {rest : List Skb}
    (holds : Holds ring (skb :: rest)) : ring.oldest = some skb ∧ Holds ring.clean rest := by
  have valid := holds.valid
  have next : ringNext ring.nextToClean = Ring.wrap ring.desc.length (ring.nextToClean + 1) := by
    rw [valid.cells]
    exact ringNext_eq_wrap valid.clean
  have some : ring.nextToClean ≠ ring.nextToUse := by
    intro same
    have empty := holds.isEmpty_iff.mp (beq_iff_eq.mpr same)
    contradiction
  have split := Ring.contents_set_take valid.inside some none
  rw [← ImpairRing.contents, holds.contents, List.map_cons, List.cons.injEq, ← next] at split
  have inside : ring.nextToClean < ring.desc.length := valid.inside.reader
  constructor
  · rw [ImpairRing.oldest, List.getD_eq_getElem?_getD, List.getElem?_eq_getElem inside]
    exact split.1.symm
  · exact ⟨⟨valid.size, (List.length_set ..).trans valid.cells, valid.use, ringNext_lt _⟩,
      split.2.symm⟩

theorem Holds.pop {ring : ImpairRing} {skbs : List Skb} (holds : Holds ring skbs)
    (some : ring.isEmpty = false) :
    ∃ skb rest, skbs = skb :: rest ∧ ring.oldest = .some skb ∧ Holds ring.clean rest := by
  cases skbs with
  | nil =>
      rw [holds.isEmpty_iff.mpr rfl] at some
      contradiction
  | cons skb rest => exact ⟨skb, rest, rfl, holds.clean.1, holds.clean.2⟩

def ImpairRing.NoNull (ring : ImpairRing) : Prop :=
  ∀ index < ringUsed ring, ∃ skb,
    ring.desc[(ring.nextToClean + index) % RING_SIZE]? = some (some skb)

theorem Holds.getElem? {ring : ImpairRing} {skbs : List Skb} (holds : Holds ring skbs)
    {index : Nat} {skb : Skb} (listed : skbs[index]? = some skb) :
    ring.desc[(ring.nextToClean + index) % RING_SIZE]? = some (some skb) := by
  have valid := holds.valid
  have within : index < Ring.stored ring.desc.length ring.nextToClean ring.nextToUse := by
    rw [valid.cells, ← valid.ringUsed_eq, holds.length_eq]
    exact (List.getElem?_eq_some_iff.mp listed).1
  have found := Ring.getElem?_contents valid.inside within
  rw [← ImpairRing.contents, holds.contents, List.getElem?_map, listed, valid.cells] at found
  exact found.symm

theorem Holds.noNull {ring : ImpairRing} {skbs : List Skb} (holds : Holds ring skbs) :
    ring.NoNull := by
  intro index within
  have inRange : index < skbs.length := holds.length_eq ▸ within
  exact ⟨skbs.get ⟨index, inRange⟩, holds.getElem? (List.getElem?_eq_getElem inRange)⟩

end Ldd3.Impair
