import Mathlib.Tactic
import Ldd3.Uac.Core

/-!
The teardown of the USB audio driver. Opens, reads, writes and the completions of the URBs run
beside the steps of `uac_disconnect`, and `audio_ring` is a number of bytes here. A step that
looks into the ring after `kfifo_free` is recorded, and its caller goes nowhere from there.
-/

namespace Ldd3.Uac

def NUM_OF_URBS : Nat := 8
def ENODEV : Int := 19

/-- Where a process stands in a call, named after its next step; `left` bytes of a write are
still to be written. -/
inductive CallPoint
  | outside
  | opening
  | readTest (count : Nat)
  | readCheck (count : Nat)
  | readAsleep (count : Nat)
  | readRemove (count : Nat)
  | readCopy (n : Nat)
  | writeLoop (left off : Nat)
  | writeInsert (left off chunk : Nat)
  | writeCheck (left off : Nat)
  | writeAsleep (left off : Nat)
  | writeWake (left off : Nat)
  | returned (ret : Int)
  deriving DecidableEq, Repr

def CallPoint.isOver : CallPoint → Bool
  | .outside | .returned _ => true
  | _ => false

def CallPoint.asleep : CallPoint → Bool
  | .readAsleep _ | .writeAsleep _ _ => true
  | _ => false

def CallPoint.wake : CallPoint → CallPoint
  | .readAsleep count => .readCheck count
  | .writeAsleep left off => .writeCheck left off
  | point => point

/-- The call has an access to the ring before it. -/
def CallPoint.ringToCome : CallPoint → Bool
  | .readTest _ | .readCheck _ | .readAsleep _ | .readRemove _ => true
  | .writeInsert _ _ _ | .writeCheck _ _ | .writeAsleep _ _ => true
  | .writeLoop left _ | .writeWake left _ => decide (left ≠ 0)
  | .outside | .opening | .readCopy _ | .returned _ => false

/-- The call may come to a `wait_event_interruptible`, or is in one. -/
def CallPoint.waitToCome : CallPoint → Bool
  | .readTest _ | .readCheck _ | .readAsleep _ => true
  | .writeInsert _ _ _ | .writeCheck _ _ | .writeAsleep _ _ => true
  | .writeLoop left _ | .writeWake left _ => decide (left ≠ 0)
  | .outside | .opening | .readRemove _ | .readCopy _ | .returned _ => false

/-- Where an URB stands: submitted, or at a step of `uac_callback`. `gone` is a NULL in
`dev->urbs`. -/
inductive UrbPoint
  | idle
  | inFlight
  | callback (status : Int)
  | lock
  | fill (packets : Nat)
  | wake
  | test
  | submit
  | gone
  deriving DecidableEq, Repr

/-- `usb_kill_urb` makes the core reject the submission of the URB. -/
structure Urb where
  point : UrbPoint
  rejected : Bool
  deriving DecidableEq, Repr

inductive Interface
  | control
  | streaming
  deriving DecidableEq, Repr

/-- The next step of the `uac_disconnect` that runs; usbcore makes one at a time. -/
inductive DisconnectPoint
  | outside
  | flag (intf : Interface)
  | clear (intf : Interface)
  | deregister
  | kill (index : Nat)
  | wait (index : Nat)
  | wake
  | free
  deriving DecidableEq, Repr

/-- `minorReaders` opens hold `minor_rwsem`, `opened` says that there is an open file, and
`disconnected` that some `uac_disconnect` has returned. -/
structure TeardownSys (Pid : Type) where
  held : Nat
  freed : Bool
  touched : Bool
  shuttingDown : Bool
  controlData : Bool
  streamData : Bool
  minor : Bool
  minorReaders : Nat
  opened : Bool
  points : Pid → CallPoint
  urbs : List Urb
  disconnect : DisconnectPoint
  disconnected : Bool

/-- After `uac_probe`; an URB that could not be submitted is idle. -/
def TeardownSys.probed (Pid : Type) (submitted : List Bool) : TeardownSys Pid :=
  { held := 0, freed := false, touched := false, shuttingDown := false, controlData := true,
    streamData := true, minor := true, minorReaders := 0, opened := false,
    points := fun _ => .outside,
    urbs := submitted.map fun flying => ⟨if flying then .inFlight else .idle, false⟩,
    disconnect := .outside, disconnected := false }

inductive TeardownAction (Pid : Type)
  | openFile (pid : Pid)
  | read (pid : Pid) (count : Nat)
  | write (pid : Pid) (count : Nat)
  | proceed (pid : Pid) (fault signal : Bool)
  | complete (index : Nat) (status : Int)
  | urb (index : Nat) (submits : Bool)
  | disconnect (intf : Interface)
  | disconnectStep

def UrbPoint.fills : UrbPoint → Bool
  | .fill _ => true
  | _ => false

def fillPacket (held : Nat) : Nat :=
  let rest := held - min held BUF_SIZE
  rest + min BUF_SIZE (AUDIO_RING_SIZE - rest)

section Machine

variable {Pid : Type}

/-- `dev->lock` is held over the packets of a fill; the other sections are one step. -/
def TeardownSys.locked (sys : TeardownSys Pid) : Bool := sys.urbs.any fun urb => urb.point.fills

def TeardownSys.avail (sys : TeardownSys Pid) : Nat := AUDIO_RING_SIZE - sys.held

def TeardownSys.access (sys next : TeardownSys Pid) : TeardownSys Pid :=
  if sys.freed then { sys with touched := true } else next

def wakeUp (sys : TeardownSys Pid) : TeardownSys Pid :=
  { sys with points := fun pid => (sys.points pid).wake }

def TeardownSys.setUrb (sys : TeardownSys Pid) (index : Nat) (urb : Urb) : TeardownSys Pid :=
  { sys with urbs := sys.urbs.set index urb }

variable [DecidableEq Pid]

def TeardownSys.setCall (sys : TeardownSys Pid) (pid : Pid) (point : CallPoint) :
    TeardownSys Pid :=
  { sys with points := Function.update sys.points pid point }

def callStep (sys : TeardownSys Pid) (pid : Pid) (fault signal : Bool) :
    CallPoint → Option (TeardownSys Pid)
  | .opening =>
      some ({ sys with
        minorReaders := sys.minorReaders - 1, opened := sys.opened || sys.streamData }.setCall pid
          (.returned (if sys.streamData then 0 else -ENODEV)))
  | .readTest count =>
      some (sys.access (sys.setCall pid
        (if sys.held = 0 then .readCheck count else .readRemove count)))
  | .readCheck count =>
      some (sys.access (sys.setCall pid
        (if sys.held ≠ 0 then .readRemove count
          else if signal then .returned (-ERESTARTSYS) else .readAsleep count)))
  | .readAsleep count => if signal then some (sys.setCall pid (.readCheck count)) else none
  | .readRemove count =>
      if sys.locked then none
      else
        let n := min sys.held count
        some (sys.access ({ sys with held := sys.held - n }.setCall pid (.readCopy n)))
  | .readCopy n => some (sys.setCall pid (.returned (if fault then -EFAULT else n)))
  | .writeLoop left off =>
      if left = 0 then some (sys.setCall pid (.returned off))
      else if fault then some (sys.setCall pid (.returned (if off = 0 then -EFAULT else off)))
      else some (sys.setCall pid (.writeInsert left off (min left BUF_SIZE)))
  | .writeInsert left off chunk =>
      if sys.locked then none
      else
        let n := min chunk sys.avail
        some (sys.access ({ sys with held := sys.held + n }.setCall pid
          (if n = 0 then .writeCheck left off else .writeWake (left - n) (off + n))))
  | .writeCheck left off =>
      some (sys.access (sys.setCall pid
        (if BUF_SIZE ≤ sys.avail then .writeLoop left off
          else if signal then .returned (if off = 0 then -ERESTARTSYS else off)
          else .writeAsleep left off)))
  | .writeAsleep left off => if signal then some (sys.setCall pid (.writeCheck left off)) else none
  | .writeWake left off => some ((wakeUp sys).setCall pid (.writeLoop left off))
  | .outside | .returned _ => none

omit [DecidableEq Pid] in
def urbStep (sys : TeardownSys Pid) (index : Nat) (submits : Bool) (urb : Urb) :
    Option (TeardownSys Pid) :=
  match urb.point with
  | .callback status =>
      let returns := sys.shuttingDown ∨ status = -ENOENT ∨ status = -ECONNRESET ∨
        status = -ESHUTDOWN
      some (sys.setUrb index { urb with point := if returns then .idle else .lock })
  | .lock =>
      if sys.locked then none
      else some (sys.setUrb index { urb with point := .fill NUM_OF_PACKETS })
  | .fill (packets + 1) =>
      some (sys.access ({ sys with held := fillPacket sys.held }.setUrb index
        { urb with point := .fill packets }))
  | .fill 0 => some (sys.setUrb index { urb with point := .wake })
  | .wake => some ((wakeUp sys).setUrb index { urb with point := .test })
  | .test =>
      some (sys.setUrb index { urb with point := if sys.shuttingDown then .idle else .submit })
  | .submit =>
      some (sys.setUrb index
        { urb with point := if submits ∧ urb.rejected = false then .inFlight else .idle })
  | .idle | .inFlight | .gone => none

omit [DecidableEq Pid] in
/-- `uac_disconnect` up to the test of its interface data. -/
def uacDisconnect (sys : TeardownSys Pid) (intf : Interface) : TeardownSys Pid :=
  let data := match intf with
    | .control => sys.controlData
    | .streaming => sys.streamData
  if data then { sys with disconnect := .flag intf } else { sys with disconnected := true }

omit [DecidableEq Pid] in
def disconnectStep (sys : TeardownSys Pid) : DisconnectPoint → Option (TeardownSys Pid)
  | .flag intf => some { sys with shuttingDown := true, disconnect := .clear intf }
  | .clear .control =>
      some { sys with controlData := false, disconnect := .outside, disconnected := true }
  | .clear .streaming => some { sys with streamData := false, disconnect := .deregister }
  | .deregister =>
      -- down_write(&minor_rwsem) waits for the opens
      if sys.minorReaders = 0 then some { sys with minor := false, disconnect := .kill 0 } else none
  | .kill index =>
      match sys.urbs[index]? with
      | none => some { sys with disconnect := .wake }
      | some urb =>
          if urb.point = .gone then some { sys with disconnect := .kill (index + 1) }
          else
            some { sys.setUrb index { urb with rejected := true } with disconnect := .wait index }
  | .wait index =>
      match sys.urbs[index]? with
      | none => none
      | some urb =>
          -- usb_kill_urb returns when the completion has returned
          if urb.point = .idle then
            some { sys.setUrb index { urb with point := .gone } with disconnect := .kill (index + 1) }
          else none
  | .wake => some { wakeUp sys with disconnect := .free }
  | .free =>
      some { sys with held := 0, freed := true, disconnect := .outside, disconnected := true }
  | .outside => none

def teardownStep (sys : TeardownSys Pid) : TeardownAction Pid → Option (TeardownSys Pid)
  | .openFile pid =>
      if (sys.points pid).isOver then
        if sys.minor then
          some ({ sys with minorReaders := sys.minorReaders + 1 }.setCall pid .opening)
        else some (sys.setCall pid (.returned (-ENODEV)))
      else none
  | .read pid count =>
      if (sys.points pid).isOver ∧ sys.opened then some (sys.setCall pid (.readTest count)) else none
  | .write pid count =>
      if (sys.points pid).isOver ∧ sys.opened then some (sys.setCall pid (.writeLoop count 0))
      else none
  | .proceed pid fault signal => callStep sys pid fault signal (sys.points pid)
  | .complete index status =>
      match sys.urbs[index]? with
      | none => none
      | some urb =>
          if urb.point = .inFlight then
            some (sys.setUrb index { urb with point := .callback status })
          else none
  | .urb index submits =>
      match sys.urbs[index]? with
      | none => none
      | some urb => urbStep sys index submits urb
  | .disconnect intf => if sys.disconnect = .outside then some (uacDisconnect sys intf) else none
  | .disconnectStep => disconnectStep sys sys.disconnect

end Machine

end Ldd3.Uac
