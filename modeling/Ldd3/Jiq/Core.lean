import Mathlib.Tactic
import Ldd3.Lib.CInt
import Ldd3.Lib.StepMachine
import Ldd3.Lib.WaitQueue

/-!
The files of `/proc/jiq` (`ch07_timers/jiq.c`), one of them read again and again: the reader sets
up `jiq_data` and sleeps, and a work item, a delayed work item, a timer or a tasklet prints a line
into the reader's `seq_file` and schedules itself again until there is enough.
-/

namespace Ldd3.Jiq

open WaitQueue

def PAGE_SIZE : Nat := 4096

def LIMIT : Nat := PAGE_SIZE - 128

theorem LIMIT_eq : LIMIT = 3968 := rfl

/-! The lines. -/

def printedInt (value : Int) : List Char :=
  if value < 0 then '-' :: Nat.toDigits 10 value.natAbs else Nat.toDigits 10 value.natAbs

structure Moment where
  jiffies : Nat
  preemptCount : Int
  pid : Int
  cpu : Int
  comm : List Char
  jiffies_lt : jiffies < 18446744073709551616
  preemptCount_fits : CInt.FitsInt preemptCount
  pid_fits : CInt.FitsInt pid
  cpu_fits : CInt.FitsInt cpu
  comm_le : comm.length ≤ 15

def Moment.line (moment : Moment) (before : Nat) : List Char :=
  List.leftpad 9 ' ' (printedInt (CInt.int64 moment.jiffies)) ++ [' ', ' '] ++
    List.leftpad 4 ' ' (printedInt (CInt.int64 (moment.jiffies - before))) ++
    [' ', ' ', ' ', ' ', ' '] ++
    List.leftpad 3 ' ' (printedInt moment.preemptCount) ++ [' '] ++
    List.leftpad 5 ' ' (printedInt moment.pid) ++ [' '] ++
    List.leftpad 3 ' ' (printedInt moment.cpu) ++ [' '] ++ moment.comm ++ ['\n']

def header : List Char := "time delta preempt pid cpu command\n".toList

theorem header_length : header.length = 35 := rfl

theorem printedInt_length {value : Int} {digits : Nat} (positive : 0 < digits)
    (small : value.natAbs < 10 ^ digits) : (printedInt value).length ≤ digits + 1 := by
  have short := (Nat.length_toDigits_le_iff (by decide) positive).mpr small
  rw [printedInt]
  split
  · rw [List.length_cons]
    omega
  · omega

theorem printedInt_int64 (value : Int) : (printedInt (CInt.int64 value)).length ≤ 20 := by
  apply printedInt_length (by decide)
  simp only [CInt.int64]
  omega

theorem printedInt_fits {value : Int} (fits : CInt.FitsInt value) :
    (printedInt value).length ≤ 11 := by
  apply printedInt_length (by decide)
  simp only [CInt.FitsInt] at fits
  omega

theorem Moment.line_length (moment : Moment) (before : Nat) :
    0 < (moment.line before).length ∧ (moment.line before).length < 128 := by
  have now := printedInt_int64 moment.jiffies
  have delta := printedInt_int64 (moment.jiffies - before)
  have preempt := printedInt_fits moment.preemptCount_fits
  have pid := printedInt_fits moment.pid_fits
  have cpu := printedInt_fits moment.cpu_fits
  have comm := moment.comm_le
  simp only [Moment.line, List.length_append, List.length_leftpad, List.length_cons,
    List.length_nil]
  omega

/-- `struct seq_file`: `m->buf` up to `m->count`. -/
structure SeqFile where
  buf : List Char
  overflow : Bool
  deriving DecidableEq, Repr

def SeqFile.empty : SeqFile := { buf := [], overflow := false }

def SeqFile.count (m : SeqFile) : Nat := if m.overflow then PAGE_SIZE else m.buf.length

/-- `seq_puts` and `seq_printf`: a text that does not fit is left out. -/
def SeqFile.put (m : SeqFile) (text : List Char) : SeqFile :=
  if m.count + text.length < PAGE_SIZE then { m with buf := m.buf ++ text }
  else { m with overflow := true }

/-! The reader and what it has scheduled. -/

inductive JiqFile
  | wq
  | wqDelayed
  | timer
  | tasklet
  deriving DecidableEq, Repr

/-- Where `jiq_print` stands after its test of `len`: before `seq_puts`, before `d->len += len`,
and before `d->jiffies = j`. A line has been printed before it is counted. -/
inductive PrintPoint
  | printing (m len : Nat)
  | adding (count : PNat) (jiffies : Nat)
  | stamping (jiffies : Nat)
  deriving DecidableEq, Repr

inductive ReaderPoint
  | outside
  | clearing
  | storing
  | starting
  | prepared (woken : Bool)
  | yielding (woken : Bool)
  | sleeping
  | inPrint (point : PrintPoint)
  | arming
  | waiting (waiter : Waiter)
  | stopping
  deriving DecidableEq, Repr

inductive FnPoint
  | idle
  | inPrint (point : PrintPoint)
  | scheduling
  | waking
  | rewaking
  deriving DecidableEq, Repr

/-- `jiq_data` with the state of what is scheduled. The `seq_file`s have the number of the show
that they belong to, and `shows` is the number of the last one. -/
structure JiqSys where
  m : Nat
  len : Nat
  jiffies : Nat
  shows : Nat
  files : Nat → SeqFile
  reader : ReaderPoint
  pending : Bool
  fn : FnPoint

def JiqSys.loaded : JiqSys :=
  { m := 0, len := 0, jiffies := 0, shows := 0, files := fun _ => .empty, reader := .outside,
    pending := false, fn := .idle }

inductive JiqAction
  | call
  | reader (signal : Bool) (moment : Moment)
  | run
  | fn (moment : Moment)

/-- `schedule_work`, `schedule_delayed_work`, `add_timer` or `tasklet_schedule` -/
def JiqSys.schedule (sys : JiqSys) : JiqSys := { sys with pending := true }

def JiqSys.headed (sys : JiqSys) (m len : Nat) : SeqFile :=
  if len = 0 then (sys.files m).put header else sys.files m

def JiqSys.printed (sys : JiqSys) (m len : Nat) (moment : Moment) : SeqFile :=
  (sys.headed m len).put (moment.line sys.jiffies)

theorem SeqFile.put_count (m : SeqFile) {text : List Char} (some : 0 < text.length) :
    0 < (m.put text).count := by
  have size : 0 < PAGE_SIZE := by decide
  rw [SeqFile.put]
  split
  · rw [SeqFile.count]
    split
    · exact size
    · rw [List.length_append]
      omega
  · exact size

theorem printed_count_pos (sys : JiqSys) (m len : Nat) (moment : Moment) :
    0 < (sys.printed m len moment).count :=
  (sys.headed m len).put_count (moment.line_length sys.jiffies).1

def JiqSys.lineCount (sys : JiqSys) (m len : Nat) (moment : Moment) : PNat :=
  ⟨(if len = 0 then (sys.headed m len).count else 0) + (sys.printed m len moment).count,
    Nat.add_pos_right _ (printed_count_pos sys m len moment)⟩

/-- A statement of `jiq_print`, and where it stands then; after the last one it returns 1. -/
def JiqSys.print (sys : JiqSys) (moment : Moment) : PrintPoint → JiqSys × Option PrintPoint
  | .printing m len =>
      ({ sys with files := Function.update sys.files m (sys.printed m len moment) },
        some (.adding (sys.lineCount m len moment) moment.jiffies))
  | .adding count jiffies => ({ sys with len := sys.len + count }, some (.stamping jiffies))
  | .stamping jiffies => ({ sys with jiffies := jiffies }, none)

def ReaderPoint.wake : ReaderPoint → ReaderPoint
  | prepared _ => prepared true
  | yielding _ => yielding true
  | sleeping => yielding true
  | waiting waiter => waiting waiter.wake
  | outside => outside
  | clearing => clearing
  | storing => storing
  | starting => starting
  | inPrint point => inPrint point
  | arming => arming
  | stopping => stopping

def JiqSys.wakeUp (sys : JiqSys) : JiqSys := { sys with reader := sys.reader.wake }

def JiqSys.at (sys : JiqSys) (reader : ReaderPoint) : JiqSys := { sys with reader := reader }

def afterWait (file : JiqFile) : Progress → ReaderPoint
  | .waits waiter => .waiting waiter
  | .passed | .interrupted => if file = .timer then .stopping else .outside

def readerProceed (file : JiqFile) (sys : JiqSys) (signal : Bool) (moment : Moment) :
    ReaderPoint → Option JiqSys
  | .outside => none
  | .clearing => some { sys with len := 0, reader := .storing }
  | .storing =>
      some { sys with m := sys.shows, jiffies := moment.jiffies, reader := .starting }
  | .starting =>
      match file with
      | .wq | .wqDelayed => some (sys.at (.prepared false))
      | .timer =>
          if LIMIT < sys.len then some (sys.wakeUp.at .arming)
          else some (sys.at (.inPrint (.printing sys.m sys.len)))
      | .tasklet => some (sys.schedule.at (.waiting .entering))
  | .prepared woken => some (sys.schedule.at (.yielding woken))
  | .yielding woken => some (sys.at (if woken || signal then .outside else .sleeping))
  | .sleeping => if signal then some (sys.at .outside) else none
  | .inPrint point =>
      let done := sys.print moment point
      match done.2 with
      | some later => some (done.1.at (.inPrint later))
      | none => some (done.1.at .arming)
  | .arming => some (sys.schedule.at (.waiting .entering))
  | .waiting waiter =>
      (waiter.proceed (LIMIT < sys.len) signal).map fun progress => sys.at (afterWait file progress)
  | .stopping =>
      if sys.fn = .idle then some { sys with pending := false, reader := .outside } else none

def fnProceed (file : JiqFile) (sys : JiqSys) (moment : Moment) : FnPoint → Option JiqSys
  | .idle => none
  | .inPrint point =>
      let done := sys.print moment point
      match done.2 with
      | some later => some { done.1 with fn := .inPrint later }
      | none => some { done.1 with fn := .scheduling }
  | .scheduling => some { sys.schedule with fn := .idle }
  | .waking => some { sys.wakeUp with fn := if file = .timer then .rewaking else .idle }
  | .rewaking => some { sys.wakeUp with fn := .idle }

def jiqStep (file : JiqFile) (sys : JiqSys) : JiqAction → Option JiqSys
  | .call =>
      if sys.reader = .outside then
        some { sys with shows := sys.shows + 1, reader := .clearing }
      else none
  | .reader signal moment => readerProceed file sys signal moment sys.reader
  | .run =>
      if sys.pending ∧ sys.fn = .idle then
        some { sys with
          pending := false
          fn := if LIMIT < sys.len then .waking else .inPrint (.printing sys.m sys.len) }
      else none
  | .fn moment => fnProceed file sys moment sys.fn

section Line

variable (sys : JiqSys) (m len : Nat) (moment : Moment)

theorem printed_eq :
    sys.printed m len moment = (sys.headed m len).put (moment.line sys.jiffies) := rfl

theorem lineCount_eq : (sys.lineCount m len moment : Nat) =
    (if len = 0 then (sys.headed m len).count else 0) + (sys.printed m len moment).count := rfl

end Line

-- the other modules use what is known of a printed file, never its text
attribute [irreducible] JiqSys.printed JiqSys.lineCount

end Ldd3.Jiq
