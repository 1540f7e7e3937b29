import Mathlib.Tactic
import Ldd3.Lib.StepMachine
import Ldd3.Scull.Core

/-!
`scull_ioctl`: twelve commands on the two parameters `scull_quantum` and `scull_qset`, which
are read and set through a pointer, the argument or the return value, and a reset. The cases of
one calling convention differ in the parameter only, but for the last one.
-/

namespace Ldd3.Scull

open CInt (int32 uint64)

def EPERM : Int := 1
def ENOTTY : Int := 25
def SCULL_QUANTUM : Int := 4096
def SCULL_QSET : Int := 1000
def SCULL_IOC_MAGIC : Nat := 0x6b
def SCULL_IOC_MAXNR : Nat := 14

/-! Command words, as `asm-generic/ioctl.h` lays them out. -/

def iocNone : Nat := 0
def iocWrite : Nat := 1
def iocRead : Nat := 2

def iocWord (dir nr size : Nat) : BitVec 32 :=
  BitVec.ofNat 32 (dir <<< 30 ||| size <<< 16 ||| SCULL_IOC_MAGIC <<< 8 ||| nr)

def iocNr (cmd : BitVec 32) : Nat := cmd.toNat % 256
def iocType (cmd : BitVec 32) : Nat := (cmd.toNat >>> 8) % 256
def iocSize (cmd : BitVec 32) : Nat := (cmd.toNat >>> 16) % 16384
def iocDir (cmd : BitVec 32) : Nat := cmd.toNat >>> 30

inductive Register
  | quantum
  | qset
  deriving DecidableEq, Repr

def Geometry.get (globals : Geometry) : Register → Int
  | .quantum => globals.quantum
  | .qset => globals.qset

def Geometry.set (globals : Geometry) (register : Register) (value : Int) : Geometry :=
  match register with
  | .quantum => { globals with quantum := value }
  | .qset => { globals with qset := value }

inductive IocCommand
  | reset
  | set (register : Register)
  | tell (register : Register)
  | get (register : Register)
  | query (register : Register)
  | exchange (register : Register)
  | shift (register : Register)
  deriving DecidableEq, Repr

def IocCommand.word : IocCommand → BitVec 32
  | .reset => iocWord iocNone 0 0
  | .set .quantum => iocWord iocWrite 1 4
  | .set .qset => iocWord iocWrite 2 4
  | .tell .quantum => iocWord iocNone 3 0
  | .tell .qset => iocWord iocNone 4 0
  | .get .quantum => iocWord iocRead 5 4
  | .get .qset => iocWord iocRead 6 4
  | .query .quantum => iocWord iocNone 7 0
  | .query .qset => iocWord iocNone 8 0
  | .exchange .quantum => iocWord (iocWrite ||| iocRead) 9 4
  | .exchange .qset => iocWord (iocWrite ||| iocRead) 10 4
  | .shift .quantum => iocWord iocNone 11 0
  | .shift .qset => iocWord iocNone 12 0

def IocCommand.all : List IocCommand :=
  [.reset, .set .quantum, .set .qset, .tell .quantum, .tell .qset, .get .quantum, .get .qset,
    .query .quantum, .query .qset, .exchange .quantum, .exchange .qset, .shift .quantum,
    .shift .qset]

def switchCase (cmd : BitVec 32) : Option IocCommand :=
  IocCommand.all.find? fun command => command.word == cmd

/-- What the rest of the kernel answers during one ioctl. `userInt` is the int that
`__get_user` finds at the argument, unless it faults. -/
structure IoctlEnv where
  capable : Bool
  accessOk : Nat → Nat → Bool
  userInt : Option Int
  putFaults : Bool

/-- `put` is what `__put_user` wrote to the argument. -/
structure IoctlReply where
  globals : Geometry
  ret : Int
  put : Option Int
  deriving DecidableEq, Repr

/-- A fault leaves 0 in the variable. -/
def getUser (env : IoctlEnv) : Int × Int :=
  match env.userInt with
  | some value => (0, int32 value)
  | none => (-EFAULT, 0)

def putUser (env : IoctlEnv) (value : Int) : Int × Option Int :=
  if env.putFaults then (-EFAULT, none) else (0, some value)

section Cases

variable (env : IoctlEnv) (globals : Geometry) (register : Register)

def iocReset : IoctlReply := ⟨⟨SCULL_QUANTUM, SCULL_QSET⟩, -EINVAL, none⟩

def iocSet : IoctlReply :=
  if env.capable then ⟨globals.set register (getUser env).2, (getUser env).1, none⟩
  else ⟨globals, -EPERM, none⟩

def iocTell (arg : Nat) : IoctlReply :=
  -- retval is still the -EINVAL it was initialised with
  if env.capable then ⟨globals.set register (int32 arg), -EINVAL, none⟩
  else ⟨globals, -EPERM, none⟩

def iocGet : IoctlReply :=
  ⟨globals, (putUser env (globals.get register)).1, (putUser env (globals.get register)).2⟩

def iocQuery : IoctlReply := ⟨globals, globals.get register, none⟩

def iocExchange : IoctlReply :=
  if env.capable then
    let stored := globals.set register (getUser env).2
    if (getUser env).1 = 0 then
      ⟨stored, (putUser env (globals.get register)).1, (putUser env (globals.get register)).2⟩
    else ⟨stored, (getUser env).1, none⟩
  else ⟨globals, -EPERM, none⟩

def iocShift (arg : Nat) : IoctlReply :=
  if env.capable then ⟨globals.set register (int32 arg), globals.get register, none⟩
  else ⟨globals, -EPERM, none⟩

def ioctlCase (arg : Nat) : IocCommand → IoctlReply
  | .reset => iocReset
  | .set register => iocSet env globals register
  | .tell register => iocTell env globals register arg
  | .get register => iocGet env globals register
  | .query register => iocQuery globals register
  | .exchange register => iocExchange env globals register
  | .shift .quantum => iocShift env globals .quantum arg
  -- the case of SCULL_IOCHQSET reads and sets scull_quantum
  | .shift .qset => iocShift env globals .quantum arg

end Cases

def scullIoctl (env : IoctlEnv) (globals : Geometry) (cmd : BitVec 32) (arg : Nat) : IoctlReply :=
  if iocType cmd ≠ SCULL_IOC_MAGIC ∨ SCULL_IOC_MAXNR < iocNr cmd then ⟨globals, -ENOTTY, none⟩
  else if iocDir cmd &&& (iocWrite ||| iocRead) ≠ 0 ∧ env.accessOk arg (iocSize cmd) = false then
    ⟨globals, -EFAULT, none⟩
  else
    match switchCase cmd with
    | some command => ioctlCase env globals arg command
    | none => ⟨globals, -EINVAL, none⟩

structure IoctlCall where
  env : IoctlEnv
  cmd : BitVec 32
  arg : Nat

def IoctlCall.reply (globals : Geometry) (call : IoctlCall) : IoctlReply :=
  scullIoctl call.env globals call.cmd call.arg

theorem switchCase_word (command : IocCommand) : switchCase command.word = some command := by
  cases command with
  | reset => decide
  | set register | tell register | get register | query register | exchange register
  | shift register => cases register <;> decide

theorem word_type (command : IocCommand) :
    iocType command.word = SCULL_IOC_MAGIC ∧ iocNr command.word ≤ SCULL_IOC_MAXNR := by
  cases command with
  | reset => decide
  | set register | tell register | get register | query register | exchange register
  | shift register => cases register <;> decide

theorem scullIoctl_word {env : IoctlEnv} (accessible : ∀ arg size, env.accessOk arg size = true)
    (globals : Geometry) (command : IocCommand) (arg : Nat) :
    scullIoctl env globals command.word arg = ioctlCase env globals arg command := by
  obtain ⟨magic, bound⟩ := word_type command
  have known : ¬(iocType command.word ≠ SCULL_IOC_MAGIC ∨ SCULL_IOC_MAXNR < iocNr command.word) := by
    rintro (other | beyond)
    · exact other magic
    · exact absurd bound (Nat.not_le_of_lt beyond)
  rw [scullIoctl, if_neg known, if_neg (by simp [accessible]), switchCase_word]

@[simp] theorem Geometry.get_set_self (globals : Geometry) (register : Register) (value : Int) :
    (globals.set register value).get register = value := by
  cases register <;> rfl

@[simp] theorem Geometry.get_set_of_ne (globals : Geometry) {register other : Register}
    (different : other ≠ register) (value : Int) :
    (globals.set register value).get other = globals.get other := by
  cases register <;> cases other <;> first | rfl | exact absurd rfl different

theorem Geometry.set_eq_self_iff (globals : Geometry) (register : Register) (value : Int) :
    globals.set register value = globals ↔ value = globals.get register := by
  constructor
  · intro same
    have looked := congrArg (fun later => later.get register) same
    rwa [get_set_self] at looked
  · intro value
    subst value
    cases register <;> rfl

end Ldd3.Scull
