import Mathlib.Tactic
import Ldd3.Pipe.Poll

/-!
The calls of a pipe statement by statement, with `dev->sem` explicit. Every statement that
reads or writes the shared fields is a step of its own, so another process can run between
any two of them; what keeps it out is the semaphore alone.
-/

namespace Ldd3.Pipe

inductive PipeFile
  | closed
  | opening
  | ready (mode : FileMode)
  | closing
  deriving DecidableEq, Repr

inductive ReadAt
  | down
  | empty
  | writers
  | upEndOfFile
  | upEmpty
  | nonblock
  | wait
  | asleep
  | copy
  | upFault
  | advance (count : Nat)
  | wrap (count : Nat)
  | up (count : Nat)
  | wakeOutq
  deriving DecidableEq, Repr

/-- `scull_p_write` with `get_write_space`; `downAgain` is the `down_interruptible` of the latter. -/
inductive WriteAt
  | down
  | full
  | upFull
  | nonblock
  | wait
  | asleep
  | signalled
  | downAgain
  | copy
  | upFault
  | advance (count : Nat)
  | wrap (count : Nat)
  | up (count : Nat)
  | wakeInq
  deriving DecidableEq, Repr

inductive PollAt
  | down
  | test
  | up (mask : BitVec 32)
  deriving DecidableEq, Repr

inductive OpenAt
  | down
  | test
  | kmalloc
  | upNoMemory
  | size
  | pointers
  | writers
  | readers
  | up
  deriving DecidableEq, Repr

inductive ReleaseAt
  | down
  | writers
  | readers
  | kfree
  | up
  deriving DecidableEq, Repr

inductive PipePoint (File : Type)
  | idle
  | read (file : File) (mode : FileMode) (count : Nat) (next : ReadAt)
  | write (file : File) (mode : FileMode) (data : List Byte) (next : WriteAt)
  | poll (file : File) (next : PollAt)
  | opening (file : File) (mode : FileMode) (next : OpenAt)
  | release (file : File) (mode : FileMode) (next : ReleaseAt)
  deriving DecidableEq, Repr

def PipePoint.file? {File : Type} : PipePoint File → Option File
  | .idle => none
  | .read file _ _ _ => some file
  | .write file _ _ _ => some file
  | .poll file _ => some file
  | .opening file _ _ => some file
  | .release file _ _ => some file

inductive LockOp
  | none
  | down
  | up
  deriving DecidableEq, Repr

inductive Queue
  | inq
  | outq
  deriving DecidableEq, Repr

/-- What one statement does: to the semaphore, to the device, to the state of its own file,
to the sleepers, and where its process goes. -/
structure Effect (File : Type) where
  lock : LockOp
  dev : ScullPipe
  file : Option PipeFile
  wakes : Option Queue
  point : PipePoint File

def Effect.goTo {File : Type} (dev : ScullPipe) (point : PipePoint File) : Effect File :=
  { lock := .none, dev := dev, file := none, wakes := none, point := point }

def Effect.up {File : Type} (dev : ScullPipe) (point : PipePoint File) : Effect File :=
  { lock := .up, dev := dev, file := none, wakes := none, point := point }

/-- `down_interruptible` returns nonzero only when it has to wait. -/
def downInterruptible {File : Type} (sem : Int) (env : Env) (dev : ScullPipe)
    (taken failed : PipePoint File) : Option (Effect File) :=
  if 0 < sem then some { Effect.goTo dev taken with lock := .down }
  else if env.interrupted then some (.goTo dev failed)
  else none

def downUninterruptible {File : Type} (sem : Int) (dev : ScullPipe) (taken : PipePoint File) :
    Option (Effect File) :=
  if 0 < sem then some { Effect.goTo dev taken with lock := .down } else none

section Statements

variable {File : Type}

def readStatement (sem : Int) (env : Env) (dev : ScullPipe) (file : File) (mode : FileMode)
    (count : Nat) : ReadAt → Option (Effect File)
  | .down => downInterruptible sem env dev (.read file mode count .empty) .idle
  | .empty =>
      if dev.rp = dev.wp then some (.goTo dev (.read file mode count .writers))
      else some (.goTo dev (.read file mode count .copy))
  | .writers =>
      if dev.nwriters = 0 then some (.goTo dev (.read file mode count .upEndOfFile))
      else some (.goTo dev (.read file mode count .upEmpty))
  | .upEndOfFile => some (.up dev .idle)
  | .upEmpty => some (.up dev (.read file mode count .nonblock))
  | .nonblock =>
      if mode.nonblock then some (.goTo dev .idle)
      else some (.goTo dev (.read file mode count .wait))
  | .wait =>
      if dev.rp ≠ dev.wp then some (.goTo dev (.read file mode count .down))
      else if env.interrupted then some (.goTo dev .idle)
      else some (.goTo dev (.read file mode count .asleep))
  | .asleep => none
  | .copy =>
      match dev.start with
      | none => none
      | some buffer =>
          let taken := readCount dev count
          if dev.rp + taken ≤ buffer.length then
            if env.faults taken then some (.goTo dev (.read file mode count .upFault))
            else some (.goTo dev (.read file mode count (.advance taken)))
          else none
  | .upFault => some (.up dev .idle)
  | .advance taken =>
      some (.goTo { dev with rp := dev.rp + taken } (.read file mode count (.wrap taken)))
  | .wrap taken =>
      let rp := if dev.rp = dev.buffersize then 0 else dev.rp
      some (.goTo { dev with rp := rp } (.read file mode count (.up taken)))
  | .up _ => some (.up dev (.read file mode count .wakeOutq))
  | .wakeOutq => some { Effect.goTo dev .idle with wakes := some .outq }

def writeStatement (sem : Int) (env : Env) (dev : ScullPipe) (file : File) (mode : FileMode)
    (data : List Byte) : WriteAt → Option (Effect File)
  | .down => downInterruptible sem env dev (.write file mode data .full) .idle
  | .full =>
      if getSpacefree dev = 0 then some (.goTo dev (.write file mode data .upFull))
      else some (.goTo dev (.write file mode data .copy))
  | .upFull => some (.up dev (.write file mode data .nonblock))
  | .nonblock =>
      if mode.nonblock then some (.goTo dev .idle)
      else some (.goTo dev (.write file mode data .wait))
  | .wait =>
      if getSpacefree dev = 0 then some (.goTo dev (.write file mode data .asleep))
      else some (.goTo dev (.write file mode data .signalled))
  | .asleep => none
  | .signalled =>
      if env.interrupted then some (.goTo dev .idle)
      else some (.goTo dev (.write file mode data .downAgain))
  | .downAgain => downInterruptible sem env dev (.write file mode data .full) .idle
  | .copy =>
      match dev.start with
      | none => none
      | some buffer =>
          let taken := writeCount dev data.length
          if dev.wp + taken ≤ buffer.length then
            let copied := Block.overwrite buffer dev.wp (env.copied (data.take taken))
            let dev := { dev with start := some copied }
            if env.faults taken then some (.goTo dev (.write file mode data .upFault))
            else some (.goTo dev (.write file mode data (.advance taken)))
          else none
  | .upFault => some (.up dev .idle)
  | .advance taken =>
      some (.goTo { dev with wp := dev.wp + taken } (.write file mode data (.wrap taken)))
  | .wrap taken =>
      let wp := if dev.wp = dev.buffersize then 0 else dev.wp
      some (.goTo { dev with wp := wp } (.write file mode data (.up taken)))
  | .up _ => some (.up dev (.write file mode data .wakeInq))
  | .wakeInq => some { Effect.goTo dev .idle with wakes := some .inq }

def pollStatement (sem : Int) (dev : ScullPipe) (file : File) : PollAt → Option (Effect File)
  | .down => downUninterruptible sem dev (.poll file .test)
  | .test => some (.goTo dev (.poll file (.up (scullPPoll dev))))
  | .up _ => some (.up dev .idle)

def openStatement (scullPBuffer : Nat) (sem : Int) (env : Env) (dev : ScullPipe) (file : File)
    (mode : FileMode) : OpenAt → Option (Effect File)
  | .down =>
      (downInterruptible sem env dev (.opening file mode .test) .idle).map fun effect =>
        if effect.lock = .down then effect else { effect with file := some .closed }
  | .test =>
      if dev.start = none then some (.goTo dev (.opening file mode .kmalloc))
      else some (.goTo dev (.opening file mode .writers))
  | .kmalloc =>
      if env.alloc 0 then
        let buffer := (List.range scullPBuffer).map env.junk
        some (.goTo { dev with start := some buffer } (.opening file mode .size))
      else some (.goTo dev (.opening file mode .upNoMemory))
  | .upNoMemory => some { Effect.up dev .idle with file := some .closed }
  | .size => some (.goTo { dev with buffersize := scullPBuffer } (.opening file mode .pointers))
  | .pointers => some (.goTo { dev with rp := 0, wp := 0 } (.opening file mode .writers))
  | .writers =>
      let nwriters := if mode.write then dev.nwriters + 1 else dev.nwriters
      some (.goTo { dev with nwriters := nwriters } (.opening file mode .readers))
  | .readers =>
      let nreaders := if mode.read then dev.nreaders + 1 else dev.nreaders
      some (.goTo { dev with nreaders := nreaders } (.opening file mode .up))
  | .up => some { Effect.up dev .idle with file := some (.ready mode) }

def releaseStatement (sem : Int) (dev : ScullPipe) (file : File) (mode : FileMode) :
    ReleaseAt → Option (Effect File)
  | .down => downUninterruptible sem dev (.release file mode .writers)
  | .writers =>
      let nwriters := if mode.write then dev.nwriters - 1 else dev.nwriters
      let wakes := if mode.write ∧ nwriters = 0 then some Queue.inq else none
      some { Effect.goTo { dev with nwriters := nwriters } (.release file mode .readers) with
        wakes := wakes }
  | .readers =>
      let nreaders := if mode.read then dev.nreaders - 1 else dev.nreaders
      some (.goTo { dev with nreaders := nreaders } (.release file mode .kfree))
  | .kfree =>
      let start := if dev.nreaders = 0 ∧ dev.nwriters = 0 then none else dev.start
      some (.goTo { dev with start := start } (.release file mode .up))
  | .up => some { Effect.up dev .idle with file := some .closed }

def statement (scullPBuffer : Nat) (sem : Int) (env : Env) (dev : ScullPipe) :
    PipePoint File → Option (Effect File)
  | .idle => none
  | .read file mode count next => readStatement sem env dev file mode count next
  | .write file mode data next => writeStatement sem env dev file mode data next
  | .poll file next => pollStatement sem dev file next
  | .opening file mode next => openStatement scullPBuffer sem env dev file mode next
  | .release file mode next => releaseStatement sem dev file mode next

end Statements

end Ldd3.Pipe
