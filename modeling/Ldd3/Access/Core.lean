import Mathlib.Tactic
import Ldd3.Kernel

/-!
The access-controlled devices (`ch06_advanced_char/scull_access_control.c`) beside the
bare one (`scull_open` of `common_scull/scull_core.c`): who may open a device, and at
which points the processes that use it hold its `dev->sem`. For scullpriv the device
is the one of a single key.
-/

namespace Ldd3.Access

structure Cred where
  uid : Nat
  euid : Nat
  capDacOverride : Bool
  tty : Option Nat
  deriving DecidableEq, Repr

inductive AccMode
  | readOnly
  | writeOnly
  | readWrite
  deriving DecidableEq, Repr

inductive Kind
  | bare
  | uid
  | wuid
  | priv (key : Nat)
  deriving DecidableEq, Repr

/-- `count` is an `int`, which fewer than 2^31 files do not overflow
(`OwnedInvariant.count_fits`). -/
structure Owner where
  owner : Nat
  count : Int
  deriving DecidableEq, Repr

def scullUidBusy (own : Owner) (cred : Cred) : Bool :=
  own.count != 0 && own.owner != cred.uid && own.owner != cred.euid && !cred.capDacOverride

def scullWuidAvailable (own : Owner) (cred : Cred) : Bool :=
  own.count == 0 || own.owner == cred.uid || own.owner == cred.euid || cred.capDacOverride

def Owner.take (own : Owner) (cred : Cred) : Owner :=
  { owner := if own.count = 0 then cred.uid else own.owner, count := own.count + 1 }

inductive FileState
  | closed
  | pending
  | opening
  | ready
  deriving DecidableEq, Repr

/-- The open of the file has passed the rules of the device. -/
def FileState.held : FileState → Bool
  | .opening => true
  | .ready => true
  | _ => false

inductive Point (File : Type)
  | idle
  | wuidTest (file : File) (mode : AccMode) (nonblock : Bool)
  | wuidWait (file : File) (mode : AccMode)
  | wuidAsleep (file : File) (mode : AccMode)
  | openDown (file : File)
  | entering (file : File) (mode : AccMode)
  | resetting (file : File)
  | callDown (file : File)
  | inSection (file : File)
  | wakeOpeners
  deriving DecidableEq, Repr

def Point.file? {File : Type} : Point File → Option File
  | .idle => none
  | .wuidTest file _ _ => some file
  | .wuidWait file _ => some file
  | .wuidAsleep file _ => some file
  | .openDown file => some file
  | .entering file _ => some file
  | .resetting file => some file
  | .callDown file => some file
  | .inSection file => some file
  | .wakeOpeners => none

structure AccessSys (Pid File : Type) where
  sem : Int
  own : Owner
  listed : Bool
  files : File → FileState
  points : Pid → Point File

inductive AccessAction (Pid File : Type)
  | openFile (pid : Pid) (file : File) (mode : AccMode) (nonblock alloc : Bool)
  | call (pid : Pid) (file : File)
  | release (pid : Pid) (file : File)
  | proceed (pid : Pid) (interrupted : Bool)
  | signal (pid : Pid)

def AccessAction.pid {Pid File : Type} : AccessAction Pid File → Pid
  | .openFile pid _ _ _ _ => pid
  | .call pid _ => pid
  | .release pid _ => pid
  | .proceed pid _ => pid
  | .signal pid => pid

def wakeOpener {File : Type} : Point File → Point File
  | .wuidAsleep file mode => .wuidWait file mode
  | point => point

section Machine

variable {Pid File : Type} [DecidableEq Pid] [DecidableEq File]

def AccessSys.setPoint (sys : AccessSys Pid File) (pid : Pid) (point : Point File) :
    AccessSys Pid File :=
  { sys with points := Function.update sys.points pid point }

def AccessSys.setFile (sys : AccessSys Pid File) (file : File) (state : FileState) :
    AccessSys Pid File :=
  { sys with files := Function.update sys.files file state }

/-- Out of the spinlock, before the test for O_WRONLY. -/
def AccessSys.enter (sys : AccessSys Pid File) (pid : Pid) (file : File) (mode : AccMode) :
    AccessSys Pid File :=
  (sys.setFile file .opening).setPoint pid (.entering file mode)

def scullOpen (sys : AccessSys Pid File) (pid : Pid) (file : File) (mode : AccMode) :
    AccessSys Pid File :=
  if mode = .writeOnly then (sys.setFile file .pending).setPoint pid (.openDown file)
  else (sys.setFile file .ready).setPoint pid .idle

def scullUidOpen (sys : AccessSys Pid File) (cred : Cred) (pid : Pid) (file : File)
    (mode : AccMode) : AccessSys Pid File :=
  if scullUidBusy sys.own cred then sys
  else { sys with own := sys.own.take cred }.enter pid file mode

/-- One round of the loop of `scull_wuid_open` under `scull_wuid_lock`. -/
def scullWuidOpenLoop (sys : AccessSys Pid File) (cred : Cred) (pid : Pid) (file : File)
    (mode : AccMode) (nonblock : Bool) : AccessSys Pid File :=
  if scullWuidAvailable sys.own cred then
    { sys with own := sys.own.take cred }.enter pid file mode
  else if nonblock then (sys.setFile file .closed).setPoint pid .idle
  else sys.setPoint pid (.wuidWait file mode)

/-- `scull_priv_open` of a process whose terminal has the key of this device, or that has
no terminal. -/
def scullPrivOpen (sys : AccessSys Pid File) (key : Nat) (cred : Cred) (pid : Pid) (file : File)
    (mode : AccMode) (alloc : Bool) : Option (AccessSys Pid File) :=
  match cred.tty with
  | none => some sys
  | some own =>
      if own ≠ key then none
      else if sys.listed || alloc then some ({ sys with listed := true }.enter pid file mode)
      else some sys

def accessProceed (kind : Kind) (cred : Cred) (sys : AccessSys Pid File) (pid : Pid)
    (interrupted : Bool) : Point File → Option (AccessSys Pid File)
  | .idle => none
  | .wuidTest file mode nonblock => some (scullWuidOpenLoop sys cred pid file mode nonblock)
  | .wuidWait file mode =>
      if scullWuidAvailable sys.own cred then some (sys.setPoint pid (.wuidTest file mode false))
      else if interrupted then some ((sys.setFile file .closed).setPoint pid .idle)
      else some (sys.setPoint pid (.wuidAsleep file mode))
  | .wuidAsleep _ _ => none
  | .openDown file =>
      if interrupted then some ((sys.setFile file .closed).setPoint pid .idle)
      else if 0 < sys.sem then
        some ({ sys with sem := sys.sem - 1 }.setPoint pid (.resetting file))
      else none
  | .entering file mode =>
      if mode = .writeOnly then some (sys.setPoint pid (.resetting file))
      else some ((sys.setFile file .ready).setPoint pid .idle)
  | .resetting file =>
      let sem := if kind = .bare then sys.sem + 1 else sys.sem
      some (({ sys with sem := sem }.setFile file .ready).setPoint pid .idle)
  | .callDown file =>
      if interrupted then some (sys.setPoint pid .idle)
      else if 0 < sys.sem then
        some ({ sys with sem := sys.sem - 1 }.setPoint pid (.inSection file))
      else none
  | .inSection _ => some ({ sys with sem := sys.sem + 1 }.setPoint pid .idle)
  | .wakeOpeners =>
      some ({ sys with points := fun other => wakeOpener (sys.points other) }.setPoint pid .idle)

def scullUidRelease (sys : AccessSys Pid File) (file : File) : AccessSys Pid File :=
  { sys with own := { sys.own with count := sys.own.count - 1 } }.setFile file .closed

def scullWuidRelease (sys : AccessSys Pid File) (pid : Pid) (file : File) : AccessSys Pid File :=
  let released :=
    { sys with own := { sys.own with count := sys.own.count - 1 } }.setFile file .closed
  if released.own.count = 0 then released.setPoint pid .wakeOpeners else released

def accessStep [Fintype Pid] (kind : Kind) (creds : Pid → Cred) (sys : AccessSys Pid File) :
    AccessAction Pid File → Option (AccessSys Pid File)
  | .openFile pid file mode nonblock alloc =>
      if sys.points pid = .idle ∧ sys.files file = .closed then
        match kind with
        | .bare => some (scullOpen sys pid file mode)
        | .uid => some (scullUidOpen sys (creds pid) pid file mode)
        | .wuid => some ((sys.setFile file .pending).setPoint pid (.wuidTest file mode nonblock))
        | .priv key => scullPrivOpen sys key (creds pid) pid file mode alloc
      else none
  | .call pid file =>
      if sys.points pid = .idle ∧ sys.files file = .ready then
        some (sys.setPoint pid (.callDown file))
      else none
  | .release pid file =>
      if sys.points pid = .idle ∧ sys.files file = .ready ∧
          ∀ other, (sys.points other).file? ≠ some file then
        match kind with
        | .bare => some (sys.setFile file .closed)
        | .uid => some (scullUidRelease sys file)
        | .wuid => some (scullWuidRelease sys pid file)
        | .priv _ => some (sys.setFile file .closed)
      else none
  | .proceed pid interrupted =>
      accessProceed kind (creds pid) sys pid interrupted (sys.points pid)
  | .signal pid =>
      match sys.points pid with
      | .wuidAsleep file mode =>
          if scullWuidAvailable sys.own (creds pid) then
            some (sys.setPoint pid (.wuidTest file mode false))
          else some ((sys.setFile file .closed).setPoint pid .idle)
      | _ => none

/-- The device as the module sets it up; `owner` is 0 for sculluid and `(uid_t)-1` for
scullwuid. -/
def AccessSys.loaded (Pid File : Type) (owner : Nat) : AccessSys Pid File :=
  { sem := 1, own := ⟨owner, 0⟩, listed := false, files := fun _ => .closed,
    points := fun _ => .idle }

end Machine

end Ldd3.Access
