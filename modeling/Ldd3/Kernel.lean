import Mathlib.Tactic

/-!
What all the drivers use of the kernel: error numbers, the ways in which an access
that C leaves undefined ends a call, and the answers of the environment during one
call.
-/

namespace Ldd3

abbrev Byte := UInt8

def ERESTARTSYS : Int := 512
def ENOMEM : Int := 12
def EFAULT : Int := 14
def EBUSY : Int := 16
def EINVAL : Int := 22
def ETIMEDOUT : Int := 110

inductive Oops
  | divide
  | outOfBounds
  | uninitialised
  deriving DecidableEq, Repr

@[simp] theorem ok_bind {α β : Type} (value : α) (rest : α → Except Oops β) :
    (Except.ok value >>= rest) = rest value := rfl

@[simp] theorem error_bind {α β : Type} (oops : Oops) (rest : α → Except Oops β) :
    (Except.error oops >>= rest) = .error oops := rfl

theorem bind_eq_ok_iff {α β : Type} {computed : Except Oops α} {rest : α → Except Oops β}
    {result : β} :
    (computed >>= rest) = .ok result ↔ ∃ value, computed = .ok value ∧ rest value = .ok result := by
  cases computed with
  | error oops => simp only [error_bind, reduceCtorEq, false_and, exists_false]
  | ok value => simp only [ok_bind, Except.ok.injEq, exists_eq_left']

/-- What the rest of the kernel answers during one call: whether the semaphore is
interrupted, which of the call's allocations succeed, what an allocated block
contains, and after how many bytes the copy from or to user memory faults. -/
structure Env where
  interrupted : Bool
  alloc : Nat → Bool
  junk : Nat → Byte
  fault : Option Nat

def Env.good (junk : Nat → Byte) : Env :=
  { interrupted := false, alloc := fun _ => true, junk := junk, fault := none }

def Env.faults (env : Env) (count : Nat) : Bool :=
  match env.fault with
  | none => false
  | some copied => decide (copied < count)

theorem Env.faults_of_none {env : Env} (noFault : env.fault = none) (count : Nat) :
    env.faults count = false := by
  simp only [Env.faults, noFault]

def Env.copied (env : Env) (bytes : List Byte) : List Byte :=
  match env.fault with
  | none => bytes
  | some copied => bytes.take copied ++ List.replicate (bytes.length - copied) 0

theorem Env.copied_length (env : Env) (bytes : List Byte) : (env.copied bytes).length = bytes.length := by
  cases fault : env.fault with
  | none => simp only [Env.copied, fault]
  | some copied =>
      simp only [Env.copied, fault, List.length_append, List.length_take, List.length_replicate]
      omega

theorem Env.copied_of_no_fault {env : Env} {bytes : List Byte}
    (complete : env.faults bytes.length = false) : env.copied bytes = bytes := by
  cases fault : env.fault with
  | none => simp only [Env.copied, fault]
  | some copied =>
      simp only [Env.faults, fault, decide_eq_false_iff_not, not_lt] at complete
      simp only [Env.copied, fault, List.take_of_length_le complete,
        Nat.sub_eq_zero_of_le complete, List.replicate_zero, List.append_nil]

end Ldd3
