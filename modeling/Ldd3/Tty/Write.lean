import Mathlib.Tactic
import Ldd3.Tty.Core

/-!
The return value of `my_link_write`, as the `ssize_t` that the tty layer receives.
-/

namespace Ldd3.Tty

structure WriteResult where
  queued : List Byte
  ret : Int
  deriving DecidableEq, Repr

/-- The call, by what it reads: each argument may be of a state of its own. -/
def myLinkWrite (connected stopped : Bool) (txFifo buf : List Byte) : WriteResult :=
  if connected = false ∨ stopped = true then ⟨[], (- EIO)⟩
  else ⟨kfifoCells txFifo buf, writeValue (kfifoCells txFifo buf).length⟩

/-- The call returns the number of bytes that it queued, or an error number. -/
structure ReturnsQueued (buf : List Byte) (result : WriteResult) : Prop where
  error : result.ret < 0 → -4095 ≤ result.ret ∧ result.queued = []
  count : 0 ≤ result.ret → 1 ≤ result.ret ∧ result.ret ≤ buf.length ∧
    result.queued = buf.take result.ret.toNat

section Steps

variable {Pid : Type} [DecidableEq Pid]

/-- The steps of the call compute its result, whatever happens between them. -/
theorem callStep_myLinkWrite (first second third fourth : EchoSys Pid) (pid : Pid)
    (buf : List Byte) {result : WriteResult}
    (computed : myLinkWrite first.connected second.stopped third.txFifo buf = result) :
    callStep first pid (.writeTestConnected buf) =
          some (first.setPoint pid (.returned result.ret)) ∧ result.queued = [] ∨
      callStep first pid (.writeTestConnected buf) =
          some (first.setPoint pid (.writeTestStopped buf)) ∧
        (callStep second pid (.writeTestStopped buf) =
              some (second.setPoint pid (.returned result.ret)) ∧ result.queued = [] ∨
          callStep second pid (.writeTestStopped buf) =
              some (second.setPoint pid (.writeFifo buf)) ∧
            kfifoCells third.txFifo buf = result.queued ∧
            (callStep third pid (.writeFifo buf) =
                some ((third.written buf).setPoint pid (.returned result.ret)) ∨
              ∃ n, callStep third pid (.writeFifo buf) =
                  some ((third.written buf).setPoint pid (.writeSchedule n)) ∧
                callStep fourth pid (.writeSchedule n) =
                  some ((scheduleWork fourth).setPoint pid (.returned result.ret)))) := by
  subst computed
  cases connected : first.connected with
  | false => exact .inl (by simp only [callStep, connected, myLinkWrite]; exact ⟨rfl, rfl⟩)
  | true =>
      refine .inr ⟨by simp only [callStep, connected, ↓reduceIte], ?_⟩
      cases stopped : second.stopped with
      | true => exact .inl (by simp only [callStep, stopped, myLinkWrite]; exact ⟨rfl, rfl⟩)
      | false =>
          refine .inr ⟨by simp only [callStep, stopped]; rfl, rfl, ?_⟩
          by_cases none : (kfifoCells third.txFifo buf).length = 0
          · exact .inl (by simp [callStep, kfifoIn, none, myLinkWrite])
          · refine .inr ⟨(kfifoCells third.txFifo buf).length, ?_, rfl⟩
            simp only [callStep, kfifoIn, none, ↓reduceIte]

end Steps

theorem kfifoCells_length (txFifo buf : List Byte) :
    (kfifoCells txFifo buf).length =
      min (CInt.uint32 buf.length) (fifoSize - txFifo.length) := by
  have low : CInt.uint32 buf.length ≤ buf.length := by
    simp only [CInt.uint32]
    omega
  rw [kfifoCells, List.length_take]
  omega

theorem writeValue_zero : writeValue 0 = 4294967285 := by decide

/-- The call returns what it queued exactly when it fails on the port, or the fifo has room and
the low 32 bits of the count are not all zero. -/
theorem myLinkWrite_returns_iff (connected stopped : Bool) (txFifo buf : List Byte) :
    ReturnsQueued buf (myLinkWrite connected stopped txFifo buf) ↔
      connected = false ∨ stopped = true ∨
        txFifo.length < fifoSize ∧ CInt.uint32 buf.length ≠ 0 := by
  by_cases closed : connected = false ∨ stopped = true
  · have returned : ReturnsQueued buf (myLinkWrite connected stopped txFifo buf) := by
      rw [myLinkWrite, if_pos closed]
      exact ⟨fun _ => ⟨by decide, rfl⟩, fun positive => absurd positive (by decide)⟩
    exact iff_of_true returned (closed.imp_right .inl)
  · rw [myLinkWrite, if_neg closed]
    have length := kfifoCells_length txFifo buf
    have isOpen : (connected = false ∨ stopped = true ∨
        txFifo.length < fifoSize ∧ CInt.uint32 buf.length ≠ 0) ↔
          (kfifoCells txFifo buf).length ≠ 0 := by
      rw [← or_assoc, or_iff_right closed, length]
      omega
    rw [isOpen]
    constructor
    · intro returns none
      obtain ⟨_, count⟩ := returns
      simp only [none, writeValue_zero] at count
      obtain ⟨_, fits, prefixed⟩ := count (by decide)
      have empty := congrArg List.length prefixed
      rw [none, List.length_take] at empty
      omega
    · intro some
      rw [writeValue, if_neg some]
      refine ⟨fun negative => absurd negative (by simp), fun _ => ⟨?_, ?_, ?_⟩⟩
      · exact Int.ofNat_le.mpr (Nat.pos_of_ne_zero some)
      · exact Int.ofNat_le.mpr ((List.take_prefix _ _).length_le)
      · rw [Int.toNat_natCast, length, kfifoCells]

/-- A full fifo: the caller is told that 4294967285 bytes of 1 were written. -/
theorem myLinkWrite_overreports :
    ¬∀ (connected stopped : Bool) (txFifo buf : List Byte),
      ReturnsQueued buf (myLinkWrite connected stopped txFifo buf) := by
  intro claimed
  have full : (myLinkWrite true false (List.replicate 128 0) [7]).ret = 4294967285 := by
    decide +kernel
  have fits := (claimed true false (List.replicate 128 0) [7]).count (by rw [full]; decide)
  rw [full] at fits
  exact absurd fits.2.1 (by decide)

end Ldd3.Tty
