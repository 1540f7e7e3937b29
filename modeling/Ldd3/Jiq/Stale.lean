import Mathlib.Tactic
import Ldd3.Jiq.Ends

/-!
A `/proc/jiq` file writes only into the `seq_file` of the show in progress, unless a show leaves
behind what it has scheduled.
-/

namespace Ldd3.Jiq

open WaitQueue

namespace FnPoint

def adds : FnPoint → Nat
  | inPrint point => point.adds
  | idle | scheduling | waking | rewaking => 0

/-- A line has been printed, and the function is going to schedule itself again. -/
def rearms : FnPoint → Bool
  | inPrint (.adding _ _) | inPrint (.stamping _) | scheduling => true
  | idle | inPrint (.printing _ _) | waking | rewaking => false

theorem reschedules_cases {point : FnPoint} (reschedules : point.reschedules = true) :
    (∃ m len, point = inPrint (.printing m len)) ∨ point.rearms = true := by
  cases point with
  | idle | waking | rewaking => contradiction
  | scheduling => exact .inr rfl
  | inPrint print =>
      cases print with
      | printing m len => exact .inl ⟨m, len, rfl⟩
      | adding | stamping => exact .inr rfl

theorem adds_of_quiet {point : FnPoint} (quiet : point.reschedules = false) : point.adds = 0 := by
  cases point with
  | idle | waking | rewaking | scheduling => rfl
  | inPrint => contradiction

theorem rearms_of_quiet {point : FnPoint} (quiet : point.reschedules = false) :
    point.rearms = false := by
  cases point with
  | idle | waking | rewaking => rfl
  | scheduling | inPrint => contradiction

end FnPoint

def Live (sys : JiqSys) (m : Nat) : Prop := sys.reader ≠ .outside ∧ m = sys.shows

/-- What prints, or is going to print, prints into the file of the show in progress. -/
structure Safe (sys : JiqSys) : Prop where
  printing : ∀ m len, sys.fn = .inPrint (.printing m len) → Live sys m
  armed : sys.pending = true ∨ sys.fn.rearms = true → sys.len + sys.fn.adds ≤ LIMIT →
    Live sys sys.m

def JiqSys.total (sys : JiqSys) : Nat := sys.len + sys.reader.adds + sys.fn.adds

/-- `len` adds up the sizes of the file after each line, so the file is about half of it. -/
def Counted (buf : List Char) (total : Nat) : Prop :=
  buf.length ≤ total ∧ 2 * buf.length ≤ total + 127

structure Orderly (file : JiqFile) (sys : JiqSys) : Prop where
  sound : Sound file sys
  le : sys.m ≤ sys.shows
  early : sys.reader.early = true → sys.m < sys.shows
  late : sys.reader.late = true → sys.m = sys.shows
  captured : ∀ m len, sys.fn = .inPrint (.printing m len) → m = sys.m ∧ len = sys.len
  own : ∀ m len, sys.reader = .inPrint (.printing m len) → m = sys.m ∧ len = sys.len
  quiet : sys.reader.unscheduled = true → sys.pending = false ∧ sys.fn.reschedules = false
  fresh : ∀ number, sys.m < number → sys.files number = .empty
  fits : ∀ number, (sys.files number).overflow = false
  counted : sys.reader ≠ .storing → Counted (sys.files sys.m).buf sys.total
  line : sys.fn.adds ≤ LIMIT
  full : file ≠ .timer → sys.reader = .outside →
    sys.shows = 0 ∨ LIMIT < sys.len + sys.fn.adds

section Step

variable {file : JiqFile} {sys next : JiqSys} {moment : Moment} {signal : Bool}

theorem put_fits {m : SeqFile} {text : List Char} (fits : m.overflow = false)
    (room : m.buf.length + text.length < PAGE_SIZE) : m.put text = ⟨m.buf ++ text, false⟩ := by
  have count : m.count = m.buf.length := by
    rw [SeqFile.count, fits]
    rfl
  rw [SeqFile.put, count, if_pos room, fits]

theorem seqFile_count {m : SeqFile} (fits : m.overflow = false) : m.count = m.buf.length := by
  rw [SeqFile.count, fits]
  rfl

structure LineFits (sys : JiqSys) (m len : Nat) (moment : Moment) : Prop where
  overflow : (sys.printed m len moment).overflow = false
  counted : Counted (sys.printed m len moment).buf (len + sys.lineCount m len moment)
  line : (sys.lineCount m len moment : Nat) ≤ LIMIT

theorem printed_fits {m len : Nat} (fits : (sys.files m).overflow = false)
    (counted : Counted (sys.files m).buf len) (few : len ≤ LIMIT) (moment : Moment) :
    LineFits sys m len moment := by
  have line := (moment.line_length sys.jiffies).2
  have size : PAGE_SIZE = 4096 := rfl
  have limit := LIMIT_eq
  obtain ⟨below, half⟩ := counted
  by_cases first : len = 0
  · have headed : sys.headed m len = ⟨(sys.files m).buf ++ header, false⟩ := by
      rw [JiqSys.headed, if_pos first]
      exact put_fits fits (by rw [header_length]; omega)
    have length : (sys.headed m len).buf.length = (sys.files m).buf.length + 35 := by
      rw [headed, List.length_append, header_length]
    have overflow : (sys.headed m len).overflow = false := by rw [headed]
    have written := put_fits overflow
      (by omega : (sys.headed m len).buf.length + (moment.line sys.jiffies).length < PAGE_SIZE)
    have printed : (sys.printed m len moment).overflow = false := by rw [printed_eq, written]
    have total : (sys.printed m len moment).buf.length =
        (sys.headed m len).buf.length + (moment.line sys.jiffies).length := by
      rw [printed_eq, written, List.length_append]
    have count := lineCount_eq sys m len moment
    rw [if_pos first, seqFile_count overflow, seqFile_count printed] at count
    exact ⟨printed, ⟨by omega, by omega⟩, by omega⟩
  · have headed : sys.headed m len = sys.files m := by rw [JiqSys.headed, if_neg first]
    have written := put_fits fits
      (by omega : (sys.files m).buf.length + (moment.line sys.jiffies).length < PAGE_SIZE)
    have printed : (sys.printed m len moment).overflow = false := by
      rw [printed_eq, headed, written]
    have total : (sys.printed m len moment).buf.length =
        (sys.files m).buf.length + (moment.line sys.jiffies).length := by
      rw [printed_eq, headed, written, List.length_append]
    have count := lineCount_eq sys m len moment
    rw [if_neg first, seqFile_count printed] at count
    exact ⟨printed, ⟨by omega, by omega⟩, by omega⟩

theorem Orderly.printed (orderly : Orderly file sys) (stored : sys.reader ≠ .storing)
    (few : sys.len ≤ LIMIT) (nothing : sys.total = sys.len) (moment : Moment) :
    (∀ number, sys.m < number →
      Function.update sys.files sys.m (sys.printed sys.m sys.len moment) number = .empty) ∧
    (∀ number,
      (Function.update sys.files sys.m (sys.printed sys.m sys.len moment) number).overflow =
        false) ∧
    Counted (Function.update sys.files sys.m (sys.printed sys.m sys.len moment) sys.m).buf
      (sys.len + sys.lineCount sys.m sys.len moment) ∧
    (sys.lineCount sys.m sys.len moment : Nat) ≤ LIMIT := by
  have counted := orderly.counted stored
  rw [nothing] at counted
  have written := printed_fits (orderly.fits sys.m) counted few moment
  refine ⟨?_, ?_, ?_, written.line⟩
  · intro number later
    rw [Function.update_of_ne (ne_of_gt later)]
    exact orderly.fresh number later
  · intro number
    by_cases here : number = sys.m
    · rw [here, Function.update_self]
      exact written.overflow
    · rw [Function.update_of_ne here]
      exact orderly.fits number
  · rw [Function.update_self]
    exact written.counted

theorem Safe.at (safe : Safe sys) {point : ReaderPoint} (inside : point ≠ .outside) :
    Safe (sys.at point) :=
  ⟨fun m len here => ⟨inside, (safe.printing m len here).2⟩,
    fun pending few => ⟨inside, (safe.armed pending few).2⟩⟩

theorem Safe.wakeUp (safe : Safe sys) {fn : FnPoint} (quiet : fn.reschedules = false)
    (before : sys.fn.reschedules = false) : Safe { sys.wakeUp with fn := fn } where
  printing := by
    rintro m len rfl
    contradiction
  armed := by
    intro pending few
    have nothing := FnPoint.adds_of_quiet quiet
    have none := FnPoint.adds_of_quiet before
    simp only [nothing] at few
    rcases pending with pending | rearms
    · have live := safe.armed (.inl pending) (by rw [none]; exact few)
      exact ⟨fun left => live.1 (ReaderPoint.wake_outside.mp left), live.2⟩
    · exact absurd (rearms.symm.trans (FnPoint.rearms_of_quiet quiet)) (by simp)

theorem Orderly.schedule (orderly : Orderly file sys) (safe : Safe sys) {point : ReaderPoint}
    (late : sys.reader.late = true) (inside : point ≠ .outside) : Safe (sys.schedule.at point) :=
  ⟨fun m len here => ⟨inside, (safe.printing m len here).2⟩,
    fun _ _ => ⟨inside, orderly.late late⟩⟩

theorem Orderly.not_printing (orderly : Orderly file sys) (safe : Safe sys)
    (early : sys.reader.early = true) (m len : Nat) : sys.fn ≠ .inPrint (.printing m len) := by
  intro here
  have live := (safe.printing m len here).2
  have stale := orderly.early early
  rw [(orderly.captured m len here).1] at live
  omega

theorem Orderly.goes (orderly : Orderly file sys) (late : sys.reader.late = true)
    {point : ReaderPoint} (after : point.late = true) (sound : Sound file (sys.at point))
    (own : ∀ m len, point = .inPrint (.printing m len) → m = sys.m ∧ len = sys.len)
    (adds : point.adds = sys.reader.adds)
    (quiet : point.unscheduled = true → sys.pending = false ∧ sys.fn.reschedules = false) :
    Orderly file (sys.at point) where
  sound := sound
  le := orderly.le
  early := fun early => by cases point <;> contradiction
  late := fun _ => orderly.late late
  captured := orderly.captured
  own := own
  quiet := quiet
  fresh := orderly.fresh
  fits := orderly.fits
  counted := by
    intro _
    have same : (sys.at point).total = sys.total := by
      simp only [JiqSys.total, JiqSys.at, adds]
    rw [same]
    exact orderly.counted (ReaderPoint.ne_storing_of_late late)
  line := orderly.line
  full := fun _ outside => absurd outside (ReaderPoint.ne_outside_of_late after)

theorem Orderly.arms (orderly : Orderly file sys) (late : sys.reader.late = true)
    {point : ReaderPoint} (settled : point.Settled) (nothing : sys.reader.adds = 0)
    (sound : Sound file (sys.schedule.at point)) :
    Orderly file (sys.schedule.at point) where
  sound := sound
  le := orderly.le
  early := fun early => absurd (early.symm.trans settled.early) (by simp)
  late := fun _ => orderly.late late
  captured := orderly.captured
  own := fun _ _ here => absurd here (settled.ne_inPrint _)
  quiet := fun quiet => absurd (quiet.symm.trans settled.scheduled) (by simp)
  fresh := orderly.fresh
  fits := orderly.fits
  counted := by
    intro _
    have same : (sys.schedule.at point).total = sys.total := by
      simp only [JiqSys.total, JiqSys.at, JiqSys.schedule, nothing, settled.nothing]
    rw [same]
    exact orderly.counted (ReaderPoint.ne_storing_of_late late)
  line := orderly.line
  full := fun _ outside => absurd outside (ReaderPoint.ne_outside_of_late settled.late)

theorem Orderly.left (orderly : Orderly file sys) {pending : Bool} (late : sys.reader.late = true)
    (nothing : sys.reader.adds = 0)
    (sound : Sound file { sys with pending := pending, reader := .outside })
    (many : file ≠ .timer → LIMIT < sys.len + sys.fn.adds) :
    Orderly file { sys with pending := pending, reader := .outside } where
  sound := sound
  le := orderly.le
  early := by rintro ⟨⟩
  late := by rintro ⟨⟩
  captured := orderly.captured
  own := by rintro _ _ ⟨⟩
  quiet := by rintro ⟨⟩
  fresh := orderly.fresh
  fits := orderly.fits
  counted := by
    intro _
    have same : JiqSys.total { sys with pending := pending, reader := .outside } = sys.total := by
      rw [JiqSys.total, JiqSys.total, nothing]
      rfl
    rw [same]
    exact orderly.counted (ReaderPoint.ne_storing_of_late late)
  line := orderly.line
  full := fun other _ => .inr (many other)

theorem Orderly.not_printing_of_quiet (orderly : Orderly file sys)
    (unscheduled : sys.reader.unscheduled = true) (m len : Nat) :
    sys.fn ≠ .inPrint (.printing m len) := by
  intro prints
  have quiet := (orderly.quiet unscheduled).2
  rw [prints] at quiet
  contradiction

theorem Orderly.total_inPrint (orderly : Orderly file sys) {point : PrintPoint}
    (here : sys.reader = .inPrint point) : sys.total = sys.len + point.adds := by
  rw [JiqSys.total, here, FnPoint.adds_of_quiet (orderly.quiet (here ▸ rfl)).2]
  rfl

theorem Orderly.countsOwn (orderly : Orderly file sys) {print : PrintPoint} {point : ReaderPoint}
    {len jiffies : Nat} (here : sys.reader = .inPrint print) (after : point.late = true)
    (early : point.early = false) (calm : ∀ m len, point ≠ .inPrint (.printing m len))
    (same : len + point.adds = sys.len + print.adds)
    (sound : Sound file { sys with len := len, jiffies := jiffies, reader := point }) :
    Orderly file { sys with len := len, jiffies := jiffies, reader := point } := by
  have quiet := orderly.quiet (here ▸ rfl)
  have unprinted := orderly.not_printing_of_quiet (here ▸ rfl)
  have counted := orderly.counted (by simp [here])
  exact {
    sound := sound
    le := orderly.le
    early := fun soon => absurd (soon.symm.trans early) (by simp)
    late := fun _ => orderly.late (here ▸ rfl)
    captured := fun m len prints => absurd prints (unprinted m len)
    own := fun m len prints => absurd prints (calm m len)
    quiet := fun _ => quiet
    fresh := orderly.fresh
    fits := orderly.fits
    counted := fun _ => by
      have total : JiqSys.total { sys with len := len, jiffies := jiffies, reader := point } =
          sys.total := by
        rw [orderly.total_inPrint here, JiqSys.total, FnPoint.adds_of_quiet quiet.2]
        exact same
      rw [total]
      exact counted
    line := orderly.line
    full := fun _ outside => absurd outside (ReaderPoint.ne_outside_of_late after) }

theorem Orderly.printsOwn (orderly : Orderly file sys) {point : PrintPoint}
    (here : sys.reader = .inPrint point)
    (taken : readerProceed file sys signal moment (.inPrint point) = some next)
    (sound : Sound file next) : Orderly file next := by
  cases point with
  | printing m len =>
      have quiet := orderly.quiet (here ▸ rfl)
      have unprinted := orderly.not_printing_of_quiet (here ▸ rfl)
      have nothing := FnPoint.adds_of_quiet quiet.2
      obtain ⟨rfl, rfl⟩ := orderly.own m len here
      have few := orderly.sound.own (by rw [here]; rfl)
      obtain ⟨fresh, fits, printed, line⟩ :=
        orderly.printed (by simp [here]) few (orderly.total_inPrint here) moment
      simp only [readerProceed, JiqSys.print, Option.some.injEq] at taken
      subst taken
      exact {
        sound := sound
        le := orderly.le
        early := by rintro ⟨⟩
        late := fun _ => orderly.late (here ▸ rfl)
        captured := fun m len prints => absurd prints (unprinted m len)
        own := by rintro _ _ ⟨⟩
        quiet := fun _ => quiet
        fresh := fresh
        fits := fits
        counted := fun _ => by
          simp only [JiqSys.total, JiqSys.at, ReaderPoint.adds, PrintPoint.adds]
          rw [nothing, Nat.add_zero]
          exact printed
        line := orderly.line
        full := by rintro _ ⟨⟩ }
  | adding count jiffies =>
      simp only [readerProceed, JiqSys.print, Option.some.injEq] at taken
      subst taken
      exact orderly.countsOwn here rfl rfl (by simp) rfl sound
  | stamping jiffies =>
      simp only [readerProceed, JiqSys.print, Option.some.injEq] at taken
      subst taken
      exact orderly.countsOwn here rfl rfl (by simp) rfl sound

theorem Orderly.cleared (orderly : Orderly file sys) (safe : Safe sys)
    (here : sys.reader = .clearing) (off : sys.pending = false) (calm : sys.fn.rearms = false)
    (sound : Sound file { sys with len := 0, reader := .storing }) :
    Orderly file { sys with len := 0, reader := .storing } := by
  have unprinted := orderly.not_printing safe (here ▸ rfl)
  have quiet : sys.fn.reschedules = false := by
    cases reschedules : sys.fn.reschedules with
    | false => rfl
    | true =>
        rcases FnPoint.reschedules_cases reschedules with ⟨m, len, prints⟩ | rearms
        · exact absurd prints (unprinted m len)
        · exact absurd (rearms.symm.trans calm) (by simp)
  exact {
    sound := sound
    le := orderly.le
    early := fun _ => orderly.early (here ▸ rfl)
    late := by rintro ⟨⟩
    captured := fun m len prints => absurd prints (unprinted m len)
    own := by rintro _ _ ⟨⟩
    quiet := fun _ => ⟨off, quiet⟩
    fresh := orderly.fresh
    fits := orderly.fits
    counted := fun other => absurd rfl other
    line := orderly.line
    full := by rintro _ ⟨⟩ }

theorem Orderly.stored (orderly : Orderly file sys) (here : sys.reader = .storing)
    {jiffies : Nat}
    (sound : Sound file { sys with m := sys.shows, jiffies := jiffies, reader := .starting }) :
    Orderly file { sys with m := sys.shows, jiffies := jiffies, reader := .starting } := by
  have quiet := orderly.quiet (here ▸ rfl)
  have unprinted := orderly.not_printing_of_quiet (here ▸ rfl)
  have stale := orderly.early (here ▸ rfl)
  have empty := orderly.fresh sys.shows stale
  exact {
    sound := sound
    le := le_rfl
    early := by rintro ⟨⟩
    late := fun _ => rfl
    captured := fun m len prints => absurd prints (unprinted m len)
    own := by rintro _ _ ⟨⟩
    quiet := fun _ => quiet
    fresh := fun number later => orderly.fresh number (stale.trans later)
    fits := orderly.fits
    counted := fun _ => by
      simp only [empty]
      exact ⟨Nat.zero_le _, Nat.zero_le _⟩
    line := orderly.line
    full := by rintro _ ⟨⟩ }

theorem Orderly.wakeUp (orderly : Orderly file sys) {fn : FnPoint}
    (sound : Sound file { sys.wakeUp with fn := fn }) (quiet : fn.reschedules = false)
    (before : sys.fn.reschedules = false) :
    Orderly file { sys.wakeUp with fn := fn } where
  sound := sound
  le := orderly.le
  early := fun early => orderly.early (sys.reader.early_wake.symm.trans early)
  late := fun late => orderly.late (sys.reader.late_wake.symm.trans late)
  captured := by
    rintro m len rfl
    contradiction
  own := fun m len own => orderly.own m len (ReaderPoint.wake_inPrint own)
  quiet := fun unscheduled =>
    ⟨(orderly.quiet (sys.reader.unscheduled_wake.symm.trans unscheduled)).1, quiet⟩
  fresh := orderly.fresh
  fits := orderly.fits
  counted := by
    intro other
    have same : JiqSys.total { sys.wakeUp with fn := fn } = sys.total := by
      simp only [JiqSys.total, JiqSys.wakeUp, sys.reader.adds_wake, FnPoint.adds_of_quiet quiet,
        FnPoint.adds_of_quiet before]
    rw [same]
    exact orderly.counted fun storing => other (ReaderPoint.wake_storing.mpr storing)
  line := (FnPoint.adds_of_quiet quiet).le.trans (Nat.zero_le _)
  full := by
    intro other outside
    have same : fn.adds = sys.fn.adds :=
      (FnPoint.adds_of_quiet quiet).trans (FnPoint.adds_of_quiet before).symm
    have left := orderly.full other (ReaderPoint.wake_outside.mp outside)
    simp only [same]
    exact left

theorem Orderly.not_unscheduled (orderly : Orderly file sys)
    (goesOn : sys.fn.reschedules = true) : sys.reader.unscheduled = false := by
  cases unscheduled : sys.reader.unscheduled with
  | false => rfl
  | true => exact absurd ((orderly.quiet unscheduled).2.symm.trans goesOn) (by simp)

theorem ReaderPoint.adds_of_scheduling {point : ReaderPoint} (busy : point.unscheduled = false) :
    point.adds = 0 ∧ point ≠ .storing := by
  cases point with
  | inPrint | storing => contradiction
  | _ => exact ⟨rfl, by simp⟩

theorem Orderly.counts (orderly : Orderly file sys) (goesOn : sys.fn.reschedules = true)
    {fn : FnPoint} {len jiffies : Nat} {pending : Bool}
    (sound : Sound file { sys with len := len, jiffies := jiffies, pending := pending, fn := fn })
    (same : len + fn.adds = sys.len + sys.fn.adds) (line : fn.adds ≤ LIMIT)
    (calm : ∀ m len, fn ≠ .inPrint (.printing m len)) :
    Orderly file { sys with len := len, jiffies := jiffies, pending := pending, fn := fn } := by
  have busy := orderly.not_unscheduled goesOn
  obtain ⟨nothing, stored⟩ := ReaderPoint.adds_of_scheduling busy
  exact {
    sound := sound
    le := orderly.le
    early := orderly.early
    late := orderly.late
    captured := fun m len prints => absurd prints (calm m len)
    own := fun m len prints => by
      have gone : sys.reader = .inPrint (.printing m len) := prints
      rw [gone] at busy
      contradiction
    quiet := fun unscheduled => absurd (unscheduled.symm.trans busy) (by simp)
    fresh := orderly.fresh
    fits := orderly.fits
    counted := fun _ => by
      have total : len + sys.reader.adds + fn.adds = sys.total := by
        rw [JiqSys.total, nothing]
        omega
      have left := orderly.counted stored
      rw [← total] at left
      exact left
    line := line
    full := fun other outside => by
      have left := orderly.full other outside
      simp only [same]
      exact left }

/-- No show overflows the buffer of its `seq_file`, and a file that has no timer is left only with
a full page, the line that is being added included. -/
structure Pages (file : JiqFile) (sys : JiqSys) : Prop where
  fits : ∀ number, (sys.files number).overflow = false
  full : file ≠ .timer → sys.reader = .outside →
    sys.shows = 0 ∨ LIMIT < sys.len + sys.fn.adds

end Step

end Ldd3.Jiq
