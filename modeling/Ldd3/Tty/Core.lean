import Mathlib.Tactic
import Ldd3.Kernel
import Ldd3.Lib.CInt
import Ldd3.Lib.StepMachine

/-!
One port of the echo tty (`ch18_tty/echo_tty.c`): the calls of the tty core on one side of
`tx_fifo` and `transmit_work` on the other. Every section under `dev->lock`, every unlocked
read of a flag and every operation on the work item is a step of its own.
-/

namespace Ldd3.Tty

def MAX_BUFFER : Nat := 100
def EIO : Int := 5
def EAGAIN : Int := 11

/-- `kfifo_alloc` rounds `MAX_BUFFER` up to a power of two. -/
def fifoSize : Nat := 128

/-- What `kfifo_in` takes of `buf`: its length is an `unsigned int`. -/
def kfifoCells (txFifo buf : List Byte) : List Byte :=
  buf.take (min (CInt.uint32 buf.length) (fifoSize - txFifo.length))

/-- `n ? n : -EAGAIN` in `my_link_write`: `n` is an `unsigned int`, and so is the result before
it becomes a `ssize_t`. -/
def writeValue (n : Nat) : Int := if n = 0 then CInt.uint32 (-EAGAIN) else n

/-- Where `transmit_work` stands; `insert` has `tmp` in its local buffer. -/
inductive Worker
  | idle
  | test
  | transfer
  | insert (tmp : List Byte)
  | wakeup
  deriving DecidableEq, Repr

def Worker.tmp : Worker → List Byte
  | .insert tmp => tmp
  | _ => []

inductive Point
  | outside
  | writeTestConnected (buf : List Byte)
  | writeTestStopped (buf : List Byte)
  | writeFifo (buf : List Byte)
  | writeSchedule (n : Nat)
  | startClear
  | startChars
  | startSchedule
  | stopSet
  | stopCancel
  | returned (ret : Int)
  deriving DecidableEq, Repr

def Point.isOver : Point → Bool
  | .outside | .returned _ => true
  | _ => false

def Point.willSchedule : Point → Bool
  | .writeSchedule _ | .startChars | .startSchedule => true
  | _ => false

/-- `struct echo_dev` and the calls on it. `pending` says that `tx_work` is queued, `flip` is
what the flip buffer was given, and `accepted` has, for every write whose `kfifo_in_spinlocked`
answered `n`, the first `n` bytes of its buffer. `halted` says that a `tty_stop` has returned and
no `tty_start` has cleared its flag since; a stop whose flag was cleared before it returned has
been overtaken, and does not count. -/
structure EchoSys (Pid : Type) where
  connected : Bool
  stopped : Bool
  txFifo : List Byte
  pending : Bool
  worker : Worker
  points : Pid → Point
  flip : List Byte
  accepted : List Byte
  halted : Bool

/-- A port after `tty_init`. -/
def EchoSys.init (Pid : Type) : EchoSys Pid :=
  { connected := false, stopped := false, txFifo := [], pending := false, worker := .idle,
    points := fun _ => .outside, flip := [], accepted := [], halted := false }

inductive EchoAction (Pid : Type)
  | activate
  | shutdown
  | write (pid : Pid) (buf : List Byte)
  | start (pid : Pid)
  | stop (pid : Pid)
  | proceed (pid : Pid)
  | runWork
  | work

section Machine

variable {Pid : Type} [DecidableEq Pid]

def EchoSys.setPoint (sys : EchoSys Pid) (pid : Pid) (point : Point) : EchoSys Pid :=
  { sys with points := Function.update sys.points pid point }

omit [DecidableEq Pid] in
/-- Nothing happens to an item that is pending already. -/
def scheduleWork (sys : EchoSys Pid) : EchoSys Pid := { sys with pending := true }

omit [DecidableEq Pid] in
def activateTty (sys : EchoSys Pid) : EchoSys Pid := { sys with connected := true }

omit [DecidableEq Pid] in
def shutdownTty (sys : EchoSys Pid) : EchoSys Pid := { sys with connected := false }

/-- The fifo after `kfifo_in_spinlocked`, and its answer. -/
def kfifoIn (txFifo buf : List Byte) : List Byte × Nat :=
  (txFifo ++ kfifoCells txFifo buf, (kfifoCells txFifo buf).length)

omit [DecidableEq Pid] in
def EchoSys.written (sys : EchoSys Pid) (buf : List Byte) : EchoSys Pid :=
  { sys with
    txFifo := (kfifoIn sys.txFifo buf).1
    accepted := sys.accepted ++ buf.take (kfifoIn sys.txFifo buf).2 }

def callStep (sys : EchoSys Pid) (pid : Pid) : Point → Option (EchoSys Pid)
  | .writeTestConnected buf =>
      some (sys.setPoint pid (if sys.connected then .writeTestStopped buf else .returned (- EIO)))
  | .writeTestStopped buf =>
      some (sys.setPoint pid (if sys.stopped then .returned (- EIO) else .writeFifo buf))
  | .writeFifo buf =>
      let n := (kfifoIn sys.txFifo buf).2
      some ((sys.written buf).setPoint pid
        (if n = 0 then .returned (writeValue n) else .writeSchedule n))
  | .writeSchedule n => some ((scheduleWork sys).setPoint pid (.returned (writeValue n)))
  | .startClear =>
      some ({ sys with stopped := false, halted := false }.setPoint pid .startChars)
  | .startChars =>
      some (sys.setPoint pid (if sys.txFifo.length = 0 then .returned 0 else .startSchedule))
  | .startSchedule => some ((scheduleWork sys).setPoint pid (.returned 0))
  | .stopSet => some ({ sys with stopped := true }.setPoint pid .stopCancel)
  | .stopCancel =>
      -- cancel_work_sync waits for a running worker and leaves the item idle
      if sys.worker = .idle then
        some ({ sys with pending := false, halted := sys.stopped }.setPoint pid (.returned 0))
      else none
  | .outside | .returned _ => none

omit [DecidableEq Pid] in
def transmitWork (sys : EchoSys Pid) : Worker → Option (EchoSys Pid)
  | .idle => none
  | .test =>
      if sys.connected = false ∨ sys.stopped = true then some { sys with worker := .idle }
      else some { sys with worker := .transfer }
  | .transfer =>
      let tmp := sys.txFifo.take MAX_BUFFER
      if tmp.length = 0 then some { sys with worker := .wakeup }
      else some { sys with txFifo := sys.txFifo.drop MAX_BUFFER, worker := .insert tmp }
  | .insert tmp => some { sys with flip := sys.flip ++ tmp, worker := .transfer }
  | .wakeup => some { sys with worker := .idle }

def echoStep (sys : EchoSys Pid) : EchoAction Pid → Option (EchoSys Pid)
  | .activate => some (activateTty sys)
  | .shutdown => some (shutdownTty sys)
  | .write pid buf =>
      if (sys.points pid).isOver then some (sys.setPoint pid (.writeTestConnected buf)) else none
  | .start pid => if (sys.points pid).isOver then some (sys.setPoint pid .startClear) else none
  | .stop pid => if (sys.points pid).isOver then some (sys.setPoint pid .stopSet) else none
  | .proceed pid => callStep sys pid (sys.points pid)
  | .runWork =>
      if sys.pending = true ∧ sys.worker = .idle then
        some { sys with pending := false, worker := .test }
      else none
  | .work => transmitWork sys sys.worker

end Machine

end Ldd3.Tty
