import Mathlib.Tactic
import Ldd3.Kernel
import Ldd3.Lib.Block
import Ldd3.Lib.CInt
import Ldd3.Lib.Ring

/-!
The circular buffer device (`ch06_advanced_char/scull_pipe.c`): what each section
under `dev->sem` does, and the machine of processes that call it. `rp`, `wp` and
`end` are offsets from `start`, so `end` is `buffersize`.
-/

namespace Ldd3.Pipe

/-- `nreaders` and `nwriters` are `int`s, which fewer than 2^31 files do not overflow
(`openers_fit`). -/
structure ScullPipe where
  start : Option (List Byte)
  buffersize : Nat
  rp : Nat
  wp : Nat
  nreaders : Int
  nwriters : Int
  deriving DecidableEq, Repr

def ScullPipe.zeroed : ScullPipe :=
  { start := none, buffersize := 0, rp := 0, wp := 0, nreaders := 0, nwriters := 0 }

def getSpacefree (dev : ScullPipe) : Int :=
  if dev.rp = dev.wp then (dev.buffersize : Int) - 1
  else ((dev.rp : Int) - dev.wp + dev.buffersize).tmod dev.buffersize - 1

/-- `min(count, (size_t)limit)` -/
def minSize (count : Nat) (limit : Int) : Nat := min count (CInt.uint64 limit)

inductive ReadOutcome
  | endOfFile
  | empty
  | fault
  | data (bytes : List Byte)
  deriving DecidableEq, Repr

def readCount (dev : ScullPipe) (count : Nat) : Nat :=
  if dev.rp < dev.wp then minSize count ((dev.wp : Int) - dev.rp)
  else minSize count ((dev.buffersize : Int) - dev.rp)

/-- `scull_p_read` from a successful `down_interruptible` to the next `up`. -/
def scullPReadLocked (env : Env) (dev : ScullPipe) (count : Nat) :
    Except Oops (ScullPipe × ReadOutcome) :=
  if dev.rp = dev.wp then
    if dev.nwriters = 0 then .ok (dev, .endOfFile) else .ok (dev, .empty)
  else
    match dev.start with
    | none => .error .outOfBounds
    | some buffer =>
        let count := readCount dev count
        if dev.rp + count ≤ buffer.length then
          if env.faults count then .ok (dev, .fault)
          else
            .ok ({ dev with rp := Ring.wrap dev.buffersize (dev.rp + count) },
              .data (Block.slice buffer dev.rp count))
        else .error .outOfBounds

inductive WriteOutcome
  | full
  | fault
  | accepted (bytes : List Byte)
  deriving DecidableEq, Repr

def writeCount (dev : ScullPipe) (count : Nat) : Nat :=
  let count := minSize count (getSpacefree dev)
  if dev.rp ≤ dev.wp then
    let bytesToEnd := CInt.uint64 ((dev.buffersize : Int) - dev.wp)
    if 0 < bytesToEnd then min count bytesToEnd else count
  else minSize count ((dev.rp : Int) - dev.wp - 1)

/-- `scull_p_write` from a successful `down_interruptible` to the next `up`. -/
def scullPWriteLocked (env : Env) (dev : ScullPipe) (data : List Byte) :
    Except Oops (ScullPipe × WriteOutcome) :=
  if getSpacefree dev = 0 then .ok (dev, .full)
  else
    match dev.start with
    | none => .error .outOfBounds
    | some buffer =>
        let count := writeCount dev data.length
        if dev.wp + count ≤ buffer.length then
          let bytes := data.take count
          let dev := { dev with start := some (Block.overwrite buffer dev.wp (env.copied bytes)) }
          if env.faults count then .ok (dev, .fault)
          else
            .ok ({ dev with wp := Ring.wrap dev.buffersize (dev.wp + count) }, .accepted bytes)
        else .error .outOfBounds

structure FileMode where
  read : Bool
  write : Bool
  nonblock : Bool
  deriving DecidableEq, Repr

def addOpener (mode : FileMode) (dev : ScullPipe) : ScullPipe :=
  { dev with
    nwriters := if mode.write then dev.nwriters + 1 else dev.nwriters
    nreaders := if mode.read then dev.nreaders + 1 else dev.nreaders }

def scullPOpen (scullPBuffer : Nat) (env : Env) (mode : FileMode) (dev : ScullPipe) :
    ScullPipe × Int :=
  if env.interrupted then (dev, -ERESTARTSYS)
  else
    match dev.start with
    | some _ => (addOpener mode dev, 0)
    | none =>
        if env.alloc 0 then
          (addOpener mode
            { dev with
              start := some ((List.range scullPBuffer).map env.junk)
              buffersize := scullPBuffer
              rp := 0
              wp := 0 }, 0)
        else (dev, -ENOMEM)

def dropOpener (mode : FileMode) (dev : ScullPipe) : ScullPipe :=
  { dev with
    nwriters := if mode.write then dev.nwriters - 1 else dev.nwriters
    nreaders := if mode.read then dev.nreaders - 1 else dev.nreaders }

def scullPRelease (mode : FileMode) (dev : ScullPipe) : ScullPipe × Bool :=
  let dev := dropOpener mode dev
  ({ dev with start := if dev.nreaders = 0 ∧ dev.nwriters = 0 then none else dev.start },
    mode.write && decide (dev.nwriters = 0))

/-! The machine of all processes. A call waits in `down_interruptible`, in the test of
its wait condition, asleep on its queue, or before its `wake_up_interruptible`. -/

inductive ReadPoint
  | down
  | wait
  | asleep
  | wakeOutq
  deriving DecidableEq, Repr

inductive WritePoint
  | down
  | wait
  | asleep
  | awake
  | wakeInq
  deriving DecidableEq, Repr

inductive PipeCall (File : Type)
  | idle
  | reading (file : File) (count : Nat) (point : ReadPoint)
  | writing (file : File) (data : List Byte) (point : WritePoint)
  deriving DecidableEq, Repr

def PipeCall.file? {File : Type} : PipeCall File → Option File
  | .idle => none
  | .reading file _ _ => some file
  | .writing file _ _ => some file

structure PipeSys (Pid File : Type) where
  dev : ScullPipe
  files : File → Option FileMode
  calls : Pid → PipeCall File
  accepted : List Byte
  returned : List Byte

inductive PipeAction (Pid File : Type)
  | openFile (file : File) (mode : FileMode) (env : Env)
  | release (file : File)
  | startRead (pid : Pid) (file : File) (count : Nat)
  | startWrite (pid : Pid) (file : File) (data : List Byte)
  | proceed (pid : Pid) (env : Env)
  | signal (pid : Pid)

def wakeReader {File : Type} : PipeCall File → PipeCall File
  | .reading file count .asleep => .reading file count .wait
  | call => call

def wakeWriter {File : Type} : PipeCall File → PipeCall File
  | .writing file data .asleep => .writing file data .awake
  | call => call

section Machine

variable {Pid File : Type} [DecidableEq Pid] [DecidableEq File] [Fintype Pid]

def PipeSys.setCall (sys : PipeSys Pid File) (pid : Pid) (call : PipeCall File) :
    PipeSys Pid File :=
  { sys with calls := Function.update sys.calls pid call }

def PipeSys.wakeInq (sys : PipeSys Pid File) : PipeSys Pid File :=
  { sys with calls := fun pid => wakeReader (sys.calls pid) }

def PipeSys.wakeOutq (sys : PipeSys Pid File) : PipeSys Pid File :=
  { sys with calls := fun pid => wakeWriter (sys.calls pid) }

def readProceed (sys : PipeSys Pid File) (pid : Pid) (env : Env) (file : File) (count : Nat) :
    ReadPoint → Option (PipeSys Pid File)
  | .down =>
      if env.interrupted then some (sys.setCall pid .idle)
      else
        match scullPReadLocked env sys.dev count with
        | .error _ => none
        | .ok (dev, .data bytes) =>
            some (PipeSys.setCall { sys with dev := dev, returned := sys.returned ++ bytes } pid
              (.reading file count .wakeOutq))
        | .ok (_, .empty) =>
            if (sys.files file).any (·.nonblock) then some (sys.setCall pid .idle)
            else some (sys.setCall pid (.reading file count .wait))
        | .ok (_, _) => some (sys.setCall pid .idle)
  | .wait =>
      if sys.dev.rp ≠ sys.dev.wp then some (sys.setCall pid (.reading file count .down))
      else if env.interrupted then some (sys.setCall pid .idle)
      else some (sys.setCall pid (.reading file count .asleep))
  | .asleep => none
  | .wakeOutq => some (sys.wakeOutq.setCall pid .idle)

def writeProceed (sys : PipeSys Pid File) (pid : Pid) (env : Env) (file : File)
    (data : List Byte) : WritePoint → Option (PipeSys Pid File)
  | .down =>
      if env.interrupted then some (sys.setCall pid .idle)
      else
        match scullPWriteLocked env sys.dev data with
        | .error _ => none
        | .ok (dev, .accepted bytes) =>
            some (PipeSys.setCall { sys with dev := dev, accepted := sys.accepted ++ bytes } pid
              (.writing file data .wakeInq))
        | .ok (_, .full) =>
            if (sys.files file).any (·.nonblock) then some (sys.setCall pid .idle)
            else some (sys.setCall pid (.writing file data .wait))
        | .ok (dev, .fault) => some (PipeSys.setCall { sys with dev := dev } pid .idle)
  | .wait =>
      if getSpacefree sys.dev = 0 then some (sys.setCall pid (.writing file data .asleep))
      else some (sys.setCall pid (.writing file data .awake))
  | .asleep => none
  | .awake =>
      if env.interrupted then some (sys.setCall pid .idle)
      else some (sys.setCall pid (.writing file data .down))
  | .wakeInq => some (sys.wakeInq.setCall pid .idle)

def pipeStep (scullPBuffer : Nat) (sys : PipeSys Pid File) :
    PipeAction Pid File → Option (PipeSys Pid File)
  | .openFile file mode env =>
      if sys.files file = none then
        match scullPOpen scullPBuffer env mode sys.dev with
        | (dev, ret) =>
            if ret = 0 then
              some
                { sys with
                  dev := dev
                  files := Function.update sys.files file (some mode)
                  accepted := if sys.dev.start.isSome then sys.accepted else []
                  returned := if sys.dev.start.isSome then sys.returned else [] }
            else some { sys with dev := dev }
      else none
  | .release file =>
      match sys.files file with
      | none => none
      | some mode =>
          -- the last reference to a file is dropped only when no call on it is in progress
          if ∀ pid, (sys.calls pid).file? ≠ some file then
            let (dev, wakes) := scullPRelease mode sys.dev
            let sys := { sys with dev := dev, files := Function.update sys.files file none }
            some (if wakes then sys.wakeInq else sys)
          else none
  | .startRead pid file count =>
      if sys.calls pid = .idle ∧ (sys.files file).any (·.read) then
        some (sys.setCall pid (.reading file count .down))
      else none
  | .startWrite pid file data =>
      if sys.calls pid = .idle ∧ (sys.files file).any (·.write) then
        some (sys.setCall pid (.writing file data .down))
      else none
  | .proceed pid env =>
      match sys.calls pid with
      | .idle => none
      | .reading file count point => readProceed sys pid env file count point
      | .writing file data point => writeProceed sys pid env file data point
  | .signal pid =>
      match sys.calls pid with
      | .reading file count .asleep =>
          -- the loop in wait_event_interruptible looks at its condition before the signal
          if sys.dev.rp ≠ sys.dev.wp then some (sys.setCall pid (.reading file count .down))
          else some (sys.setCall pid .idle)
      | .writing _ _ .asleep => some (sys.setCall pid .idle)
      | _ => none

def PipeSys.loaded (Pid File : Type) : PipeSys Pid File :=
  { dev := .zeroed, files := fun _ => none, calls := fun _ => .idle, accepted := [],
    returned := [] }

end Machine

end Ldd3.Pipe
