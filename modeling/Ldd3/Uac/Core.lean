import Mathlib.Tactic
import Ldd3.Kernel

/-!
The USB audio driver (`ch13_usb/usb_uac.c`): the one kfifo `audio_ring` between
`uac_write`, the isochronous packets that `uac_callback` fills, and `uac_read`.
-/

namespace Ldd3.Uac

def BUF_SIZE : Nat := 192
def NUM_OF_PACKETS : Nat := 16
def AUDIO_RING_SIZE : Nat := 64 * 1024
def ENOENT : Int := 2
def ECONNRESET : Int := 104
def ESHUTDOWN : Int := 108

/-- A byte in the ring: its value, its position in the stream that `uac_write` accepted if
it is one of that stream, and whether the tee of `uac_fill_iso_frames` put it there. -/
structure Cell where
  value : Byte
  position : Option Nat
  teed : Bool
  deriving DecidableEq, Repr

/-- A filled packet, and how many bytes the ring held before it. -/
structure Packet where
  held : Nat
  bytes : List Byte
  deriving DecidableEq, Repr

inductive UacPoint
  | idle
  | writing (buf : List Byte) (off : Nat)
  | writeWait (buf : List Byte) (off : Nat)
  | reading (count : Nat)
  | readWait (count : Nat)
  | removing (count : Nat)
  | returned (ret : Int) (given : List Byte)
  deriving DecidableEq, Repr

def UacPoint.isOver : UacPoint → Bool
  | .idle | .returned _ _ => true
  | _ => false

def UacPoint.buffer : UacPoint → Option (List Byte)
  | .writing buf _ | .writeWait buf _ => some buf
  | _ => none

def UacPoint.counted : UacPoint → List Byte
  | .writing buf off | .writeWait buf off => buf.take off
  | _ => []

/-- The device, with all bytes accepted and who wrote them, what the calls of `uac_write` that
returned reported as written, all packets filled, the positions of the bytes that the packets
took from the ring, and those of the bytes that `uac_read` took. `filling` packets are left of
the fill that has `dev->lock`. -/
structure UacSys (Pid : Type) where
  ring : List Cell
  filling : Nat
  shuttingDown : Bool
  points : Pid → UacPoint
  accepted : List (Pid × Byte)
  reported : Pid → List Byte
  packets : List Packet
  sent : List (Option Nat)
  removed : List (Option Nat)

def UacSys.probed (Pid : Type) : UacSys Pid :=
  { ring := [], filling := 0, shuttingDown := false, points := fun _ => .idle, accepted := [],
    reported := fun _ => [], packets := [], sent := [], removed := [] }

inductive UacAction (Pid : Type)
  | write (pid : Pid) (buf : List Byte)
  | read (pid : Pid) (count : Nat)
  | proceed (pid : Pid) (interrupted fault : Bool)
  | callback (status : Int) (numberOfPackets : Nat)
  | fillPacket
  | shutdown

def kfifoAvail (ring : List Cell) : Nat := AUDIO_RING_SIZE - ring.length

def kfifoIn (ring cells : List Cell) : List Cell := ring ++ cells.take (kfifoAvail ring)

def isoFrame (ring : List Cell) : List Cell :=
  ring.take BUF_SIZE ++ List.replicate (BUF_SIZE - ring.length) ⟨0, none, true⟩

def Cell.tee (cell : Cell) : Cell := { cell with teed := true }

def writtenCells (position : Nat) (data : List Byte) : List Cell :=
  (data.zipIdx position).map fun entry => ⟨entry.1, some entry.2, false⟩

section Machine

variable {Pid : Type}

def UacSys.stream (sys : UacSys Pid) : List Byte := sys.accepted.map Prod.snd

def UacSys.unsent (sys : UacSys Pid) : List Byte :=
  (sys.ring.filter fun cell => !cell.teed).map Cell.value

variable [DecidableEq Pid]

def UacSys.acceptedFrom (sys : UacSys Pid) (pid : Pid) : List Byte :=
  (sys.accepted.filter fun entry => entry.1 = pid).map Prod.snd

def UacSys.setPoint (sys : UacSys Pid) (pid : Pid) (point : UacPoint) : UacSys Pid :=
  { sys with points := Function.update sys.points pid point }

/-- One round of the loop of `uac_fill_iso_frames`. -/
def uacFillIsoFrame (sys : UacSys Pid) : UacSys Pid :=
  { sys with
    ring := kfifoIn (sys.ring.drop BUF_SIZE) ((isoFrame sys.ring).map Cell.tee)
    packets := sys.packets ++ [⟨sys.ring.length, (isoFrame sys.ring).map Cell.value⟩]
    sent := sys.sent ++ (sys.ring.take BUF_SIZE).map Cell.position
    filling := sys.filling - 1 }

def uacAccept (sys : UacSys Pid) (pid : Pid) (data : List Byte) : UacSys Pid :=
  { sys with
    ring := sys.ring ++ writtenCells sys.accepted.length data
    accepted := sys.accepted ++ data.map (Prod.mk pid) }

/-- A call of `uac_write` that has come to its end reports the first `ret` bytes at `buf`. -/
def UacSys.recordReturn (sys : UacSys Pid) (pid : Pid) (before : UacPoint) : UacSys Pid :=
  match before.buffer, sys.points pid with
  | some buf, .returned ret _ =>
      { sys with reported := Function.update sys.reported pid (sys.reported pid ++ buf.take ret.toNat) }
  | _, _ => sys

def uacRemove (sys : UacSys Pid) (count : Nat) : UacSys Pid :=
  { sys with
    ring := sys.ring.drop count
    removed := sys.removed ++ (sys.ring.take count).map Cell.position }

def uacProceed (sys : UacSys Pid) (pid : Pid) (interrupted fault : Bool) :
    UacPoint → Option (UacSys Pid)
  | .writing buf off =>
      if buf.length ≤ off then some (sys.setPoint pid (.returned off []))
      else if fault then
        some (sys.setPoint pid (.returned (if off = 0 then -EFAULT else off) []))
      else if sys.filling ≠ 0 then none
      else
        let tmp := (buf.drop off).take BUF_SIZE
        let chunk := min tmp.length (kfifoAvail sys.ring)
        if chunk = 0 then some (sys.setPoint pid (.writeWait buf off))
        else
          some ((uacAccept sys pid (tmp.take chunk)).setPoint pid (.writing buf (off + chunk)))
  | .writeWait buf off =>
      if BUF_SIZE ≤ kfifoAvail sys.ring then some (sys.setPoint pid (.writing buf off))
      else if interrupted then
        some (sys.setPoint pid (.returned (if off = 0 then -ERESTARTSYS else off) []))
      else none
  | .reading count =>
      if sys.ring = [] then some (sys.setPoint pid (.readWait count))
      else some (sys.setPoint pid (.removing count))
  | .readWait count =>
      if sys.ring ≠ [] then some (sys.setPoint pid (.removing count))
      else if interrupted then some (sys.setPoint pid (.returned (-ERESTARTSYS) []))
      else none
  | .removing count =>
      if sys.filling ≠ 0 then none
      else
        let taken := min sys.ring.length count
        some ((uacRemove sys taken).setPoint pid
          (if fault then .returned (-EFAULT) []
            else .returned taken ((sys.ring.take taken).map Cell.value)))
  | _ => none

omit [DecidableEq Pid] in
def uacCallback (sys : UacSys Pid) (status : Int) (numberOfPackets : Nat) : Option (UacSys Pid) :=
  if sys.shuttingDown ∨ status = -ENOENT ∨ status = -ECONNRESET ∨ status = -ESHUTDOWN then some sys
  else if sys.filling ≠ 0 then none
  else some { sys with filling := numberOfPackets }

def uacStep (sys : UacSys Pid) : UacAction Pid → Option (UacSys Pid)
  | .write pid buf =>
      if (sys.points pid).isOver then some (sys.setPoint pid (.writing buf 0)) else none
  | .read pid count =>
      if (sys.points pid).isOver then some (sys.setPoint pid (.reading count)) else none
  | .proceed pid interrupted fault =>
      (uacProceed sys pid interrupted fault (sys.points pid)).map fun next =>
        next.recordReturn pid (sys.points pid)
  | .callback status numberOfPackets => uacCallback sys status numberOfPackets
  | .fillPacket => if sys.filling ≠ 0 then some (uacFillIsoFrame sys) else none
  | .shutdown => some { sys with shuttingDown := true }

end Machine

end Ldd3.Uac
