import Mathlib.Tactic
import Ldd3.Lib.StepMachine
import Ldd3.Scull.Ioctl

/-!
The two parameters as registers: what the commands are for, and whether `scull_ioctl` does it
for callers with `CAP_SYS_ADMIN` and valid pointers.
-/

namespace Ldd3.Scull

open CInt (int32 uint64)

abbrev RegisterFile := Register → Int

def RegisterFile.defaults : RegisterFile
  | .quantum => SCULL_QUANTUM
  | .qset => SCULL_QSET

def RegisterFile.perform (registers : RegisterFile) (value : Int) :
    IocCommand → RegisterFile × Option Int
  | .reset => (.defaults, none)
  | .set register | .tell register => (Function.update registers register value, none)
  | .get register | .query register => (registers, some (registers register))
  | .exchange register | .shift register =>
      (Function.update registers register value, some (registers register))

structure AdminCall where
  command : IocCommand
  value : Int
  fits : CInt.FitsInt value
  address : Nat

def AdminCall.arg (call : AdminCall) : Nat :=
  match call.command with
  | .tell _ | .shift _ => uint64 call.value
  | .reset | .set _ | .get _ | .query _ | .exchange _ => call.address

def AdminCall.env (call : AdminCall) : IoctlEnv where
  capable := true
  accessOk _ _ := true
  userInt := some call.value
  putFaults := false

/-- A command hands a value back through the pointer or as its return value. -/
def IoctlReply.handedBack (reply : IoctlReply) : IocCommand → Option Int
  | .get _ | .exchange _ => reply.put
  | .query _ | .shift _ => some reply.ret
  | .reset | .set _ | .tell _ => none

/-- The module beside the registers it should implement, with what each handed back. -/
structure AdminSys where
  globals : Geometry
  answers : List (Option Int)
  registers : RegisterFile
  expected : List (Option Int)

def AdminSys.loaded (globals : Geometry) : AdminSys := ⟨globals, [], globals.get, []⟩

def adminStep (sys : AdminSys) (call : AdminCall) : Option AdminSys :=
  let reply := scullIoctl call.env sys.globals call.command.word call.arg
  let performed := sys.registers.perform call.value call.command
  some
    { globals := reply.globals
      answers := sys.answers ++ [reply.handedBack call.command]
      registers := performed.1
      expected := sys.expected ++ [performed.2] }

structure Registered (sys : AdminSys) : Prop where
  registers : sys.globals.get = sys.registers
  answers : sys.answers = sys.expected

/-- `SCULL_IOCHQSET` is only given a value that both parameters already have. -/
def ShiftsQsetIdly (sys : AdminSys) (call : AdminCall) : Prop :=
  call.command = .shift .qset →
    call.value = sys.globals.quantum ∧ call.value = sys.globals.qset

theorem int32_uint64 (value : Int) : int32 (uint64 value) = int32 value := by
  simp only [int32, uint64]
  omega

theorem Geometry.get_set (globals : Geometry) (register : Register) (value : Int) :
    (globals.set register value).get = Function.update globals.get register value := by
  funext other
  by_cases same : other = register
  · rw [same, get_set_self, Function.update_self]
  · rw [get_set_of_ne globals same, Function.update_of_ne same]

theorem getUser_admin (call : AdminCall) : getUser call.env = (0, call.value) := by
  simp only [getUser, AdminCall.env, CInt.int32_of_fits call.fits]

theorem int32_arg {call : AdminCall} {register : Register}
    (byValue : call.command = .tell register ∨ call.command = .shift register) :
    int32 call.arg = call.value := by
  have carried : call.arg = uint64 call.value := by
    rcases byValue with command | command <;> simp only [AdminCall.arg, command]
  rw [carried, int32_uint64, CInt.int32_of_fits call.fits]

theorem scullIoctl_performs (globals : Geometry) {call : AdminCall}
    (other : call.command ≠ .shift .qset) :
    let reply := scullIoctl call.env globals call.command.word call.arg
    reply.globals.get = (RegisterFile.perform globals.get call.value call.command).1 ∧
      reply.handedBack call.command =
        (RegisterFile.perform globals.get call.value call.command).2 := by
  have accessible : ∀ arg size, call.env.accessOk arg size = true := fun _ _ => rfl
  have capable : call.env.capable = true := rfl
  have writable : call.env.putFaults = false := rfl
  have read := getUser_admin call
  have carried := @int32_arg call
  intro reply
  have replied : reply = ioctlCase call.env globals call.arg call.command :=
    scullIoctl_word accessible globals call.command call.arg
  rw [replied]
  cases command : call.command with
  | reset =>
      refine ⟨?_, rfl⟩
      funext register
      cases register <;> rfl
  | set register =>
      simp only [ioctlCase, iocSet, capable, ↓reduceIte, read, IoctlReply.handedBack,
        RegisterFile.perform, Geometry.get_set, and_self]
  | tell register =>
      simp only [ioctlCase, iocTell, capable, ↓reduceIte, carried (.inl command),
        IoctlReply.handedBack, RegisterFile.perform, Geometry.get_set, and_self]
  | get register =>
      simp only [ioctlCase, iocGet, putUser, writable, Bool.false_eq_true, ↓reduceIte,
        IoctlReply.handedBack, RegisterFile.perform, and_self]
  | query register =>
      simp only [ioctlCase, iocQuery, IoctlReply.handedBack, RegisterFile.perform, and_self]
  | exchange register =>
      simp only [ioctlCase, iocExchange, capable, ↓reduceIte, read, putUser, writable,
        Bool.false_eq_true, IoctlReply.handedBack, RegisterFile.perform, Geometry.get_set,
        and_self]
  | shift register =>
      cases register with
      | quantum =>
          simp only [ioctlCase, iocShift, capable, ↓reduceIte, carried (.inr command),
            IoctlReply.handedBack, RegisterFile.perform, Geometry.get_set, and_self]
      | qset => exact absurd command other

theorem scullIoctl_shift_qset (globals : Geometry) {call : AdminCall}
    (command : call.command = .shift .qset) :
    scullIoctl call.env globals call.command.word call.arg =
      ⟨globals.set .quantum call.value, globals.quantum, none⟩ := by
  rw [scullIoctl_word (fun _ _ => rfl), command]
  have capable : call.env.capable = true := rfl
  simp only [ioctlCase, iocShift, capable, ↓reduceIte, int32_arg (.inr command), Geometry.get]

theorem registered_next_iff {sys next : AdminSys} {call : AdminCall} (good : Registered sys)
    (taken : adminStep sys call = some next) : Registered next ↔ ShiftsQsetIdly sys call := by
  obtain ⟨registers, answers⟩ := good
  simp only [adminStep, Option.some.injEq] at taken
  subst taken
  by_cases other : call.command = .shift .qset
  · have replied := scullIoctl_shift_qset sys.globals other
    constructor
    · rintro ⟨later, _⟩ _
      rw [replied, other, RegisterFile.perform, ← registers] at later
      have quantum := congrFun later .quantum
      have qset := congrFun later .qset
      exact ⟨quantum, qset.symm⟩
    · intro idly
      obtain ⟨quantum, qset⟩ := idly other
      have same : sys.globals.quantum = sys.globals.qset := quantum.symm.trans qset
      constructor
      · rw [replied, other, RegisterFile.perform, ← registers]
        funext register
        cases register with
        | quantum => exact quantum
        | qset => exact qset.symm
      · rw [replied, other, RegisterFile.perform, answers, ← registers]
        simp only [IoctlReply.handedBack, Geometry.get, same]
  · obtain ⟨globals, handedBack⟩ := scullIoctl_performs sys.globals other
    refine ⟨fun _ command => absurd command other, fun _ => ⟨?_, ?_⟩⟩
    · rw [globals, registers]
    · rw [handedBack, registers, answers]

/-- Along any sequence of commands the parameters are two independent registers exactly when
every `SCULL_IOCHQSET` is given the value that both have already. -/
theorem scullIoctl_registers_iff (globals : Geometry) (calls : List AdminCall) :
    StepMachine.Always adminStep Registered (.loaded globals) calls ↔
      StepMachine.Meets adminStep ShiftsQsetIdly (.loaded globals) calls := by
  apply StepMachine.always_iff_meets (fun _ _ _ _ _ _ => trivial) _ calls trivial ⟨rfl, rfl⟩
  intro sys call next _ good taken
  exact registered_next_iff good taken

def shiftQset : AdminCall := ⟨.shift .qset, 7, by decide, 0⟩

theorem shiftQset_sets_quantum :
    ¬ StepMachine.Always adminStep Registered (.loaded ⟨SCULL_QUANTUM, SCULL_QSET⟩)
      [shiftQset] := by
  intro always
  have registered := (always.2 _ rfl).registers
  have qset := congrFun registered .qset
  exact absurd qset (by decide)

end Ldd3.Scull
