import Mathlib.Tactic
import Ldd3.Kernel

/-!
The EDU driver (`common_edu/edu_core.c`): what `edu_dma_transfers` programs, what the
programmed DMA moves, and its handshake with the device and `edu_irq_threaded` through
`in_flight` and the one completion `done`.
-/

namespace Ldd3.Edu

def DMA_BUF_SIZE : Nat := 4096
def EDU_BAR0_DMA_BUFFER_REG : Nat := 0x40000
def EDU_DMA_CMD_START : Nat := 0x01
def EDU_DMA_CMD_DIR : Nat := 0x02
def EDU_DMA_CMD_IRQ : Nat := 0x04
def EDU_DMA_DIR_RAM_TO_DEV : Int := 0
def EDU_DMA_DIR_DEV_TO_RAM : Int := 2

structure DmaRequest where
  dmaAddr : Nat
  dir : Int
  size : Nat
  deriving DecidableEq, Repr

structure DmaRegs where
  dst : Nat
  src : Nat
  count : Nat
  cmd : Nat
  deriving DecidableEq, Repr

def lower32Bits (addr : Nat) : Nat := addr % 4294967296

def eduDmaCmdBuild (dir : Int) (irq : Bool) : Nat :=
  EDU_DMA_CMD_START ||| dir.toNat ||| if irq then EDU_DMA_CMD_IRQ else 0

/-- The values that go into the DMA registers; no third direction. -/
def dmaRegs (interruptsEnabled : Bool) (request : DmaRequest) : Option DmaRegs :=
  let cmd := eduDmaCmdBuild request.dir interruptsEnabled
  if request.dir = EDU_DMA_DIR_RAM_TO_DEV then
    some ⟨EDU_BAR0_DMA_BUFFER_REG, lower32Bits request.dmaAddr, request.size, cmd⟩
  else if request.dir = EDU_DMA_DIR_DEV_TO_RAM then
    some ⟨lower32Bits request.dmaAddr, EDU_BAR0_DMA_BUFFER_REG, request.size, cmd⟩
  else none

def DmaRequest.directed (request : DmaRequest) : Bool :=
  request.dir == EDU_DMA_DIR_RAM_TO_DEV || request.dir == EDU_DMA_DIR_DEV_TO_RAM

theorem dmaRegs_eq_none_iff (interruptsEnabled : Bool) (request : DmaRequest) :
    dmaRegs interruptsEnabled request = none ↔ request.directed = false := by
  simp only [dmaRegs, DmaRequest.directed]
  split
  · rename_i toDev
    simp [toDev]
  · split
    · rename_i toRam
      simp [toRam]
    · rename_i notDev notRam
      simp [notDev, notRam]

/-- Host memory by bus address, and the device's buffer by offset. -/
structure Memory where
  ram : Nat → Byte
  dev : Nat → Byte

def copyBytes (target : Nat → Byte) (position : Nat) (source : Nat → Byte) (start count : Nat) :
    Nat → Byte :=
  fun address =>
    if position ≤ address ∧ address < position + count then source (start + (address - position))
    else target address

theorem copyBytes_inside (target source : Nat → Byte) (start : Nat) {position count index : Nat}
    (inside : index < count) :
    copyBytes target position source start count (position + index) = source (start + index) := by
  simp only [copyBytes]
  rw [if_pos ⟨by omega, by omega⟩, Nat.add_sub_cancel_left]

theorem copyBytes_outside (target source : Nat → Byte) (start : Nat) {position count address : Nat}
    (outside : address < position ∨ position + count ≤ address) :
    copyBytes target position source start count address = target address := by
  simp only [copyBytes]
  rw [if_neg (by omega)]

theorem copyBytes_zero (target : Nat → Byte) (position : Nat) (source : Nat → Byte) (start : Nat) :
    copyBytes target position source start 0 = target := by
  funext address
  exact copyBytes_outside target source start (by omega)

theorem copyBytes_congr (target : Nat → Byte) (position : Nat) {first second : Nat → Byte}
    {start other count : Nat}
    (same : ∀ index < count, first (start + index) = second (other + index)) :
    copyBytes target position first start count = copyBytes target position second other count := by
  funext address
  simp only [copyBytes]
  split
  · rename_i inside
    exact same (address - position) (by omega)
  · rfl

def Memory.dma (memory : Memory) (regs : DmaRegs) : Memory :=
  if regs.cmd &&& EDU_DMA_CMD_DIR = 0 then
    { memory with
      dev := copyBytes memory.dev (regs.dst - EDU_BAR0_DMA_BUFFER_REG) memory.ram regs.src
        regs.count }
  else
    { memory with
      ram := copyBytes memory.ram regs.dst memory.dev (regs.src - EDU_BAR0_DMA_BUFFER_REG)
        regs.count }

/-- `edu_dma_transfers` of a caller that gets `xfer_lock`, finds no transfer in flight and
whose DMA ends in time: what it returns, and memory after it. -/
def eduDmaTransfers (interruptsEnabled : Bool) (memory : Memory) (request : DmaRequest) :
    Int × Memory :=
  if DMA_BUF_SIZE < request.size then (-EINVAL, memory)
  else
    match dmaRegs interruptsEnabled request with
    | none => (-EINVAL, memory)
    | some regs => (0, memory.dma regs)

theorem lower32Bits_of_lt {addr : Nat} (bound : addr < 4294967296) : lower32Bits addr = addr :=
  Nat.mod_eq_of_lt bound

theorem eduDmaTransfers_toDev (interruptsEnabled : Bool) (memory : Memory) {dmaAddr size : Nat}
    (fits : size ≤ DMA_BUF_SIZE) (bound : dmaAddr < 4294967296) :
    eduDmaTransfers interruptsEnabled memory ⟨dmaAddr, EDU_DMA_DIR_RAM_TO_DEV, size⟩ =
      (0, { memory with dev := copyBytes memory.dev 0 memory.ram dmaAddr size }) := by
  have toDev : eduDmaCmdBuild EDU_DMA_DIR_RAM_TO_DEV interruptsEnabled &&& EDU_DMA_CMD_DIR = 0 := by
    cases interruptsEnabled <;> rfl
  simp only [eduDmaTransfers, dmaRegs, if_neg (Nat.not_lt.mpr fits), ↓reduceIte, Memory.dma, toDev,
    Nat.sub_self, lower32Bits_of_lt bound]

theorem eduDmaTransfers_toRam (interruptsEnabled : Bool) (memory : Memory) {dmaAddr size : Nat}
    (fits : size ≤ DMA_BUF_SIZE) (bound : dmaAddr < 4294967296) :
    eduDmaTransfers interruptsEnabled memory ⟨dmaAddr, EDU_DMA_DIR_DEV_TO_RAM, size⟩ =
      (0, { memory with ram := copyBytes memory.ram dmaAddr memory.dev 0 size }) := by
  have toRam : eduDmaCmdBuild EDU_DMA_DIR_DEV_TO_RAM interruptsEnabled &&& EDU_DMA_CMD_DIR ≠ 0 := by
    cases interruptsEnabled <;> decide
  have different : EDU_DMA_DIR_DEV_TO_RAM ≠ EDU_DMA_DIR_RAM_TO_DEV := by decide
  simp only [eduDmaTransfers, dmaRegs, if_neg (Nat.not_lt.mpr fits), if_neg different, ↓reduceIte,
    Memory.dma, if_neg toRam, Nat.sub_self, lower32Bits_of_lt bound]

inductive Register
  | dst
  | src
  | count
  | cmd
  deriving DecidableEq, Repr

/-- How a call ends: the DMA it commanded, what it returns, and the DMAs whose interrupt
signalled the completion that its wait took. -/
structure Outcome where
  dma : Option Nat
  ret : Int
  signals : List Nat
  deriving DecidableEq, Repr

inductive Point
  | idle
  | locking (request : DmaRequest)
  | locked (request : DmaRequest)
  | choosing (request : DmaRequest)
  | writing (register : Register) (regs : DmaRegs)
  | waiting (dma : Nat)
  | polling (dma : Nat)
  | ending (outcome : Outcome)
  | unlocking (outcome : Outcome)
  | returned (outcome : Outcome)
  deriving DecidableEq, Repr

/-- Where `edu_irq_threaded` stands, with the DMAs behind the status it has read. -/
inductive Handler
  | idle
  | acking (signals : List Nat)
  | completing (signals : List Nat)
  deriving DecidableEq, Repr

/-- The driver and the device. A DMA is named by the number of commands before its own:
it is running, then about to raise its interrupt, then latched in the status register. -/
structure EduSys (Pid : Type) where
  xferLock : Option Pid
  inFlight : Bool
  done : List (List Nat)
  points : Pid → Point
  handler : Handler
  regs : DmaRegs
  commands : List DmaRegs
  running : List Nat
  raising : List Nat
  irqStatus : List Nat
  memory : Memory

def EduSys.loaded (Pid : Type) (memory : Memory) : EduSys Pid :=
  { xferLock := none, inFlight := false, done := [], points := fun _ => .idle, handler := .idle,
    regs := ⟨0, 0, 0, 0⟩, commands := [], running := [], raising := [], irqStatus := [],
    memory := memory }

inductive EduAction (Pid : Type)
  | call (pid : Pid) (request : DmaRequest)
  | proceed (pid : Pid) (interrupted expired : Bool)
  | finish (dma : Nat)
  | raise (dma : Nat)
  | irq (resumed : Bool)

section Machine

variable {Pid : Type} [DecidableEq Pid]

def EduSys.setPoint (sys : EduSys Pid) (pid : Pid) (point : Point) : EduSys Pid :=
  { sys with points := Function.update sys.points pid point }

omit [DecidableEq Pid] in
def EduSys.command (sys : EduSys Pid) (cmd : Nat) : EduSys Pid :=
  let regs := { sys.regs with cmd := cmd }
  { sys with
    regs := regs
    commands := sys.commands ++ [regs]
    running := sys.running ++ [sys.commands.length] }

def writeRegister (interruptsEnabled : Bool) (sys : EduSys Pid) (pid : Pid) (regs : DmaRegs) :
    Register → EduSys Pid
  | .dst => { sys with regs := { sys.regs with dst := regs.dst } }.setPoint pid (.writing .src regs)
  | .src => { sys with regs := { sys.regs with src := regs.src } }.setPoint pid (.writing .count regs)
  | .count =>
      { sys with regs := { sys.regs with count := regs.count } }.setPoint pid (.writing .cmd regs)
  | .cmd =>
      (sys.command regs.cmd).setPoint pid <|
        if interruptsEnabled then .waiting sys.commands.length else .polling sys.commands.length

/-- One step of `edu_dma_transfers`. Of the EDU's status only `DMA_IRQ` is ever set, and
the start bit of the command register reads as set while a DMA is running. -/
def eduDmaProceed (interruptsEnabled : Bool) (sys : EduSys Pid) (pid : Pid)
    (interrupted expired : Bool) : Point → Option (EduSys Pid)
  | .idle => none
  | .locking request =>
      if interrupted then some (sys.setPoint pid (.returned ⟨none, -ERESTARTSYS, []⟩))
      else if sys.xferLock = none then
        some ({ sys with xferLock := some pid }.setPoint pid (.locked request))
      else none
  | .locked request =>
      if sys.inFlight then some (sys.setPoint pid (.unlocking ⟨none, -EBUSY, []⟩))
      else some ({ sys with inFlight := true, done := [] }.setPoint pid (.choosing request))
  | .choosing request =>
      match dmaRegs interruptsEnabled request with
      | none => some (sys.setPoint pid (.ending ⟨none, -EINVAL, []⟩))
      | some regs => some (sys.setPoint pid (.writing .dst regs))
  | .writing register regs => some (writeRegister interruptsEnabled sys pid regs register)
  | .waiting dma =>
      match sys.done with
      | signals :: rest => some ({ sys with done := rest }.setPoint pid (.ending ⟨some dma, 0, signals⟩))
      | [] => if expired then some (sys.setPoint pid (.ending ⟨some dma, -ETIMEDOUT, []⟩)) else none
  | .polling dma =>
      if expired then some (sys.setPoint pid (.ending ⟨some dma, -ETIMEDOUT, []⟩))
      else if sys.running = [] then some (sys.setPoint pid (.ending ⟨some dma, 0, []⟩))
      else some sys
  | .ending outcome => some ({ sys with inFlight := false }.setPoint pid (.unlocking outcome))
  | .unlocking outcome => some ({ sys with xferLock := none }.setPoint pid (.returned outcome))
  | .returned _ => none

omit [DecidableEq Pid] in
def eduIrqThreaded (sys : EduSys Pid) (resumed : Bool) : EduSys Pid :=
  match sys.handler with
  | .idle =>
      if !resumed || sys.irqStatus.isEmpty then sys
      else { sys with handler := .acking sys.irqStatus }
  | .acking signals => { sys with irqStatus := [], handler := .completing signals }
  | .completing signals =>
      { sys with
        handler := .idle
        done := if sys.inFlight then sys.done ++ [signals] else sys.done }

def eduStep (interruptsEnabled : Bool) (sys : EduSys Pid) : EduAction Pid → Option (EduSys Pid)
  | .call pid request =>
      match sys.points pid with
      | .idle | .returned _ =>
          if DMA_BUF_SIZE < request.size then
            some (sys.setPoint pid (.returned ⟨none, -EINVAL, []⟩))
          else some (sys.setPoint pid (.locking request))
      | _ => none
  | .proceed pid interrupted expired =>
      eduDmaProceed interruptsEnabled sys pid interrupted expired (sys.points pid)
  | .finish dma =>
      match sys.commands[dma]? with
      | some regs =>
          if dma ∈ sys.running then
            some { sys with
              running := sys.running.erase dma
              memory := sys.memory.dma regs
              raising :=
                if regs.cmd &&& EDU_DMA_CMD_IRQ = 0 then sys.raising else sys.raising ++ [dma] }
          else none
      | none => none
  | .raise dma =>
      if dma ∈ sys.raising then
        some { sys with raising := sys.raising.erase dma, irqStatus := sys.irqStatus ++ [dma] }
      else none
  | .irq resumed => some (eduIrqThreaded sys resumed)

end Machine

end Ldd3.Edu
