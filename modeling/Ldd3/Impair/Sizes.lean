import Mathlib.Tactic
import Ldd3.Lib.StepMachine
import Ldd3.Impair.Rings

/-!
A ring of any size that `ring_init` accepts. The counts are masked with `size - 1` while the
indices wrap at `RING_SIZE`, and only the powers of two reconcile the two.
-/

namespace Ldd3.Impair

open StepMachine

structure RingMemory where
  ring : ImpairRing
  cells : ring.desc.length = RING_SIZE

structure FreeFrame where
  ring : ImpairRing
  index : Nat
  visited : List Nat
  freed : List Skb

def FreeFrame.visit (frame : FreeFrame) : FreeFrame :=
  { ring := { frame.ring with desc := frame.ring.desc.set frame.index none }
    index := ringNext frame.index
    visited := frame.visited ++ [frame.index]
    freed := frame.freed ++ (frame.ring.desc.getD frame.index none).toList }

def ringFreeLoop : Nat → FreeFrame → Option FreeFrame
  | 0, _ => none
  | fuel + 1, frame =>
      if frame.index = frame.ring.nextToUse then some frame else ringFreeLoop fuel frame.visit

def ringFreeAll (fuel : Nat) (ring : ImpairRing) : Option FreeFrame :=
  (ringFreeLoop fuel { ring := ring, index := ring.nextToClean, visited := [], freed := [] }).map
    fun frame =>
      { frame with ring := { frame.ring with nextToUse := 0, nextToClean := 0, size := 0 } }

structure FifoSys where
  ring : ImpairRing
  pushed : List Skb
  popped : List (Option Skb)

def FifoSys.initial (ring : ImpairRing) : FifoSys := { ring := ring, pushed := [], popped := [] }

def FifoSys.unread (sys : FifoSys) : List Skb := sys.pushed.drop sys.popped.length

inductive FifoAction
  | push (skb : Skb)
  | pop
  deriving DecidableEq, Repr

def fifoStep (sys : FifoSys) : FifoAction → Option FifoSys
  | .push skb =>
      if ringFree sys.ring < 1 then none
      else some { sys with ring := sys.ring.fill skb, pushed := sys.pushed ++ [skb] }
  | .pop =>
      if sys.ring.isEmpty then none
      else some { sys with ring := sys.ring.clean, popped := sys.popped ++ [sys.ring.oldest] }

theorem fifoStep_push {sys : FifoSys} (room : ¬ringFree sys.ring < 1) (skb : Skb) :
    fifoStep sys (.push skb) =
      some { sys with ring := sys.ring.fill skb, pushed := sys.pushed ++ [skb] } :=
  if_neg room

/-- A queue of at most `size - 1` packets, each of which stays in its descriptor until it is
popped. -/
structure BoundedFifo (size : Nat) (sys : FifoSys) : Prop where
  used : ringUsed sys.ring = sys.unread.length
  capacity : ringUsed sys.ring + ringFree sys.ring = size - 1
  order : sys.popped = (sys.pushed.take sys.popped.length).map some
  kept : ∀ index skb, sys.unread[index]? = some skb →
    sys.ring.desc[(sys.ring.nextToClean + index) % RING_SIZE]? = some (some skb)
  freed : ∀ fuel, sys.unread.length < fuel →
    (ringFreeAll fuel sys.ring).map (fun frame => (frame.visited, frame.freed)) =
      some ((List.range sys.unread.length).map fun index =>
        (sys.ring.nextToClean + index) % RING_SIZE, sys.unread)

section PowersOfTwo

def ImpairRing.whole (ring : ImpairRing) : ImpairRing := { ring with size := RING_SIZE }

theorem circCnt_mod {head tail exponent : Nat} (small : exponent ≤ 10) :
    circCnt head tail (2 ^ exponent) = circCnt head tail RING_SIZE % 2 ^ exponent := by
  have size : RING_SIZE = 2 ^ 10 := rfl
  have divides : 2 ^ exponent ∣ 2 ^ 10 := Nat.pow_dvd_pow 2 small
  rw [circCnt, circCnt, size, Nat.and_two_pow_sub_one_eq_mod, Nat.and_two_pow_sub_one_eq_mod,
    Nat.mod_mod_of_dvd _ divides]

theorem mod_of_complement {count exponent : Nat} (small : exponent ≤ 10)
    (fits : count < 2 ^ exponent) :
    (RING_SIZE - 1 - count) % 2 ^ exponent = 2 ^ exponent - 1 - count := by
  obtain ⟨times, product⟩ : 2 ^ exponent ∣ RING_SIZE := Nat.pow_dvd_pow 2 small
  have positive : 0 < times := by
    apply Nat.pos_of_ne_zero
    rintro rfl
    contradiction
  obtain ⟨before, rfl⟩ := Nat.exists_eq_succ_of_ne_zero positive.ne'
  have split : RING_SIZE - 1 - count = (2 ^ exponent - 1 - count) + 2 ^ exponent * before := by
    rw [product, Nat.mul_succ]
    omega
  rw [split, Nat.add_mul_mod_self_left, Nat.mod_eq_of_lt (by omega)]

theorem exponent_le {exponent : Nat} (accepted : 2 ^ exponent ≤ RING_SIZE) : exponent ≤ 10 :=
  (Nat.pow_le_pow_iff_right Nat.one_lt_two).mp accepted

variable {exponent : Nat} {ring : ImpairRing} {skbs : List Skb}

theorem Holds.ringUsed_of_size (holds : Holds ring.whole skbs) (size : ring.size = 2 ^ exponent)
    (small : exponent ≤ 10) (fits : skbs.length < 2 ^ exponent) :
    ringUsed ring = skbs.length := by
  have count : circCnt ring.nextToUse ring.nextToClean RING_SIZE = skbs.length := holds.length_eq
  rw [ringUsed, size, circCnt_mod small, count, Nat.mod_eq_of_lt fits]

theorem Holds.ringFree_of_size (holds : Holds ring.whole skbs) (size : ring.size = 2 ^ exponent)
    (small : exponent ≤ 10) (fits : skbs.length < 2 ^ exponent) :
    ringFree ring = 2 ^ exponent - 1 - skbs.length := by
  have count : circCnt ring.nextToClean (u32 (ring.nextToUse + 1)) RING_SIZE =
      RING_SIZE - 1 - skbs.length := holds.ringFree_eq
  rw [ringFree, circSpace, size, circCnt_mod small, count, mod_of_complement small fits]

end PowersOfTwo

section Free

def FreeFrame.rest (frame : FreeFrame) : ImpairRing :=
  { frame.ring.whole with nextToClean := frame.index }

theorem FreeFrame.visit_of_holds {frame : FreeFrame} {skb : Skb} {skbs : List Skb}
    (holds : Holds frame.rest (skb :: skbs)) :
    frame.visit.freed = frame.freed ++ [skb] ∧ Holds frame.visit.rest skbs := by
  obtain ⟨oldest, later⟩ := holds.clean
  refine ⟨?_, later⟩
  have here : frame.ring.desc.getD frame.index none = some skb := oldest
  rw [visit, here]
  rfl

theorem ringNext_add {index : Nat} (inside : index < RING_SIZE) (count : Nat) :
    (ringNext index + count) % RING_SIZE = (index + (count + 1)) % RING_SIZE := by
  have size := RING_SIZE_eq
  have small : u32 (index + 1) = index + 1 := Nat.mod_eq_of_lt (by omega)
  rw [ringNext, small, Nat.mod_add_mod, Nat.add_right_comm, Nat.add_assoc]

theorem ringFreeLoop_of_holds {frame : FreeFrame} {skbs : List Skb} {fuel : Nat}
    (holds : Holds frame.rest skbs) (enough : skbs.length < fuel) :
    (ringFreeLoop fuel frame).map (fun done => (done.visited, done.freed)) =
      some (frame.visited ++ (List.range skbs.length).map (fun index =>
        (frame.index + index) % RING_SIZE), frame.freed ++ skbs) := by
  obtain ⟨left, rfl⟩ := Nat.exists_eq_succ_of_ne_zero (Nat.ne_zero_of_lt enough)
  induction skbs generalizing frame left with
  | nil =>
      have atEnd : frame.index = frame.ring.nextToUse := beq_iff_eq.mp (holds.isEmpty_iff.mpr rfl)
      rw [ringFreeLoop, if_pos atEnd]
      simp
  | cons skb skbs ih =>
      have inside : frame.index < RING_SIZE := holds.valid.clean
      have notEnd : frame.index ≠ frame.ring.nextToUse := by
        intro atEnd
        have empty := holds.isEmpty_iff.mp (beq_iff_eq.mpr atEnd)
        contradiction
      obtain ⟨freed, later⟩ := FreeFrame.visit_of_holds holds
      have shorter : skbs.length < left := Nat.lt_of_succ_lt_succ enough
      obtain ⟨fuel, rfl⟩ := Nat.exists_eq_succ_of_ne_zero (Nat.ne_zero_of_lt shorter)
      have next : frame.visit.index = ringNext frame.index := rfl
      have visited : frame.visit.visited = frame.visited ++ [frame.index] := rfl
      rw [ringFreeLoop, if_neg notEnd, ih later fuel shorter, freed, next, visited]
      simp only [ringNext_add inside, List.length_cons, List.range_succ_eq_map, List.map_cons,
        List.map_map, List.append_assoc, List.singleton_append, Nat.add_zero,
        Nat.mod_eq_of_lt inside]
      rfl

theorem ringFreeAll_of_holds {ring : ImpairRing} {skbs : List Skb} {fuel : Nat}
    (holds : Holds ring.whole skbs) (enough : skbs.length < fuel) :
    (ringFreeAll fuel ring).map (fun frame => (frame.visited, frame.freed)) =
      some ((List.range skbs.length).map fun index => (ring.nextToClean + index) % RING_SIZE,
        skbs) := by
  have remaining : Holds
      (FreeFrame.rest { ring := ring, index := ring.nextToClean, visited := [], freed := [] })
      skbs := holds
  rw [ringFreeAll, Option.map_map]
  exact ringFreeLoop_of_holds remaining enough

end Free

section Runs

structure FifoInv (size : Nat) (sys : FifoSys) : Prop where
  masked : sys.ring.size = size
  holds : Holds sys.ring.whole sys.unread
  room : sys.unread.length < size
  served : sys.popped.length ≤ sys.pushed.length
  order : sys.popped = (sys.pushed.take sys.popped.length).map some

variable {exponent : Nat} {sys next : FifoSys} {action : FifoAction}

theorem FifoInv.bounded (inv : FifoInv (2 ^ exponent) sys) (small : exponent ≤ 10) :
    BoundedFifo (2 ^ exponent) sys where
  used := inv.holds.ringUsed_of_size inv.masked small inv.room
  capacity := by
    have room := inv.room
    rw [inv.holds.ringUsed_of_size inv.masked small room,
      inv.holds.ringFree_of_size inv.masked small room]
    omega
  order := inv.order
  kept := fun _ _ listed => inv.holds.getElem? listed
  freed := fun _ enough => ringFreeAll_of_holds inv.holds enough

theorem FifoInv.step (inv : FifoInv (2 ^ exponent) sys) (small : exponent ≤ 10)
    (taken : fifoStep sys action = some next) : FifoInv (2 ^ exponent) next := by
  have room := inv.room
  cases action with
  | push skb =>
      rw [fifoStep, Option.ite_none_left_eq_some, Option.some.injEq] at taken
      obtain ⟨free, rfl⟩ := taken
      rw [inv.holds.ringFree_of_size inv.masked small room] at free
      have wholeFree : 0 < ringFree sys.ring.whole := by
        have fits := Nat.pow_le_pow_right Nat.two_pos small
        rw [inv.holds.ringFree_eq, RING_SIZE]
        omega
      have unread : (sys.pushed ++ [skb]).drop sys.popped.length = sys.unread ++ [skb] :=
        List.drop_append_of_le_length inv.served
      refine ⟨inv.masked, ?_, ?_, ?_, ?_⟩
      · rw [FifoSys.unread, unread]
        exact inv.holds.fill wholeFree skb
      · rw [FifoSys.unread, unread, List.length_append, List.length_singleton]
        omega
      · rw [List.length_append]
        exact Nat.le_add_right_of_le inv.served
      · rw [List.take_append_of_le_length inv.served]
        exact inv.order
  | pop =>
      rw [fifoStep, Option.ite_none_left_eq_some, Bool.not_eq_true, Option.some.injEq] at taken
      obtain ⟨nonempty, rfl⟩ := taken
      obtain ⟨skb, rest, unread, oldest, later⟩ := inv.holds.pop nonempty
      rw [FifoSys.unread] at unread
      have first : sys.pushed[sys.popped.length]? = some skb := by
        rw [← List.head?_drop, unread, List.head?_cons]
      have unreadNext : sys.pushed.drop (sys.popped.length + 1) = rest := by
        rw [← List.tail_drop, unread, List.tail_cons]
      have served : sys.popped.length < sys.pushed.length :=
        (List.getElem?_eq_some_iff.mp first).1
      have oldestHere : sys.ring.oldest = some skb := oldest
      refine ⟨inv.masked, ?_, ?_, ?_, ?_⟩
      · rw [FifoSys.unread, List.length_append, List.length_singleton, unreadNext]
        exact later
      · rw [FifoSys.unread, unread, List.length_cons] at room
        rw [FifoSys.unread, List.length_append, List.length_singleton, unreadNext]
        omega
      · rw [List.length_append, List.length_singleton]
        exact served
      · rw [List.length_append, List.length_singleton, List.take_add_one, first, List.map_append,
          ← inv.order, oldestHere]
        rfl

theorem fifo_always {sys : FifoSys} (inv : FifoInv (2 ^ exponent) sys) (small : exponent ≤ 10)
    (actions : List FifoAction) : Always fifoStep (BoundedFifo (2 ^ exponent)) sys actions := by
  apply always_of_meets _ _ inv (meets_true sys actions)
  · intro state action next holds _ taken
    exact holds.step small taken
  · intro state holds
    exact holds.bounded small

theorem ringInit_ok {memory : RingMemory} {ring : ImpairRing} {size : Nat}
    (started : ringInit memory.ring size = .ok ring) :
    0 < size ∧ size ≤ RING_SIZE ∧ ring.size = size ∧ ring.nextToUse = 0 ∧
      ring.nextToClean = 0 ∧ ring.desc.length = RING_SIZE := by
  rw [ringInit] at started
  split at started
  · contradiction
  · rename_i accepted
    push Not at accepted
    obtain ⟨positive, fits⟩ := accepted
    rw [Except.ok.injEq] at started
    subst started
    refine ⟨Nat.pos_of_ne_zero positive, fits, rfl, rfl, rfl, ?_⟩
    rw [List.length_append, List.length_replicate, List.length_drop, memory.cells]
    exact Nat.add_sub_cancel' fits

theorem fifoInv_initial {memory : RingMemory} {ring : ImpairRing} {size : Nat}
    (started : ringInit memory.ring size = .ok ring) : FifoInv size (.initial ring) := by
  obtain ⟨positive, fits, masked, use, clean, cells⟩ := ringInit_ok started
  have inside : 0 < RING_SIZE := positive.trans_le fits
  refine ⟨masked, ⟨⟨rfl, cells, ?_, ?_⟩, ?_⟩, positive, le_rfl, rfl⟩
  · exact use ▸ inside
  · exact clean ▸ inside
  · have same : ring.nextToUse = ring.nextToClean := use.trans clean.symm
    rw [ImpairRing.contents]
    exact same ▸ Ring.contents_empty ring.desc ring.nextToClean

end Runs

section Masks

structure Filled (size count : Nat) (sys : FifoSys) : Prop where
  masked : sys.ring.size = size
  use : sys.ring.nextToUse = count
  clean : sys.ring.nextToClean = 0
  unread : sys.unread.length = count
  served : sys.popped = []

variable {size count : Nat} {sys : FifoSys}

theorem Filled.ringUsed_eq (filled : Filled size count sys) (inside : count < RING_SIZE) :
    ringUsed sys.ring = count &&& (size - 1) := by
  rw [RING_SIZE] at inside
  have small : u32 (count + 4294967296 - 0) = count := by
    rw [u32]
    omega
  rw [ringUsed, filled.masked, filled.use, filled.clean, circCnt, small]

theorem Filled.push (filled : Filled size count sys) (bounded : BoundedFifo size sys)
    (room : count < size - 1) (fits : size ≤ RING_SIZE) (skb : Skb) :
    ∃ next, fifoStep sys (.push skb) = some next ∧ Filled size (count + 1) next := by
  have free : ¬ringFree sys.ring < 1 := by
    have used := bounded.used
    have capacity := bounded.capacity
    rw [filled.unread] at used
    omega
  have advanced : ringNext count = count + 1 := by
    rw [RING_SIZE] at fits
    rw [ringNext, u32, RING_SIZE]
    omega
  refine ⟨_, fifoStep_push free skb, filled.masked, ?_, filled.clean, ?_, filled.served⟩
  · rw [← advanced, ← filled.use]
    rfl
  · have unread := filled.unread
    rw [FifoSys.unread, filled.served] at unread
    rw [FifoSys.unread, filled.served, List.length_nil, List.drop_zero, List.length_append,
      List.length_singleton]
    exact congrArg Nat.succ unread

theorem filled_of_always (fits : size ≤ RING_SIZE) (empty : Filled size 0 sys)
    (always : ∀ actions, Always fifoStep (BoundedFifo size) sys actions)
    (within : count ≤ size - 1) :
    ∃ full, Filled size count full ∧ BoundedFifo size full := by
  suffices reached : ∃ full, Filled size count full ∧
      ∀ actions, Always fifoStep (BoundedFifo size) full actions by
    obtain ⟨full, filled, later⟩ := reached
    exact ⟨full, filled, (later []).head⟩
  induction count with
  | zero => exact ⟨sys, empty, always⟩
  | succ count ih =>
      obtain ⟨full, filled, later⟩ := ih (Nat.le_of_succ_le within)
      have skb : Skb := ⟨[]⟩
      obtain ⟨next, taken, filledNext⟩ := filled.push (later []).head within fits skb
      exact ⟨next, filledNext, fun actions => (later (.push skb :: actions)).2 next taken⟩

theorem isPowerOfTwo_of_mask (positive : 0 < size)
    (lossless : ∀ count ≤ size - 1, count &&& (size - 1) = count) : size.isPowerOfTwo := by
  by_cases single : size - 1 = 0
  · exact ⟨0, by omega⟩
  have low : 2 ^ (size - 1).log2 ≤ size - 1 := Nat.log2_self_le single
  have high : size - 1 < 2 ^ ((size - 1).log2 + 1) := Nat.lt_log2_self
  have ones := lossless (2 ^ (size - 1).log2 - 1) (by omega)
  rw [Nat.and_comm, Nat.and_two_pow_sub_one_eq_mod] at ones
  refine ⟨(size - 1).log2 + 1, ?_⟩
  rw [Nat.pow_succ] at high ⊢
  rw [Nat.mod_eq_sub_mod low, Nat.mod_eq_of_lt (by omega)] at ones
  omega

end Masks

/-- A ring of `size` descriptors is a queue over all its runs exactly when its mask is. -/
theorem ring_bounded_fifo_iff (memory : RingMemory) (size : Nat) (ring : ImpairRing)
    (started : ringInit memory.ring size = .ok ring) :
    (∀ actions, Always fifoStep (BoundedFifo size) (.initial ring) actions) ↔
      size.isPowerOfTwo := by
  obtain ⟨positive, fits, masked, use, clean, cells⟩ := ringInit_ok started
  constructor
  · intro always
    have empty : Filled size 0 (.initial ring) := ⟨masked, use, clean, rfl, rfl⟩
    apply isPowerOfTwo_of_mask positive
    intro count within
    obtain ⟨full, filled, bounded⟩ := filled_of_always fits empty always within
    rw [← filled.ringUsed_eq (by omega), bounded.used, filled.unread]
  · rintro ⟨exponent, rfl⟩ actions
    exact fifo_always (fifoInv_initial started) (exponent_le fits) actions

def blankMemory : RingMemory where
  ring := .fresh
  cells := List.length_replicate

theorem ring_bounded_fifo_four :
    (∀ actions, Always fifoStep (BoundedFifo 4) (.initial { ImpairRing.fresh with size := 4 })
      actions) ↔ Nat.isPowerOfTwo 4 :=
  ring_bounded_fifo_iff blankMemory 4 _ rfl

theorem ring_three_miscounts :
    ringInit blankMemory.ring 3 = .ok { ImpairRing.fresh with size := 3 } ∧
      ¬Always fifoStep (BoundedFifo 3) (.initial { ImpairRing.fresh with size := 3 })
        [.push ⟨[]⟩] := by
  refine ⟨rfl, ?_⟩
  intro always
  have room : ¬ringFree (FifoSys.initial { ImpairRing.fresh with size := 3 }).ring < 1 := by decide
  have pushed := fifoStep_push room ⟨[]⟩
  have miscounted := (always.2 _ pushed).used
  contradiction

end Ldd3.Impair
