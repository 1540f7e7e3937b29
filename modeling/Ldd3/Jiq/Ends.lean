import Mathlib.Tactic
import Ldd3.Lib.Measure
import Ldd3.Jiq.Moves

/-!
Every show of a `/proc/jiq` file ends when nobody disturbs it: whoever sleeps has a function on its
way that wakes him, and there are only so many lines to print.
-/

namespace Ldd3.Jiq

open WaitQueue

namespace FnPoint

def work : FnPoint → Nat
  | idle => 0
  | inPrint (.printing _ _) => 7
  | inPrint (.adding _ _) => 6
  | inPrint (.stamping _) => 11
  | scheduling => 10
  | waking => 6
  | rewaking => 3

def unadded : FnPoint → Bool
  | inPrint point => point.unadded
  | idle | scheduling | waking | rewaking => false

def reschedules : FnPoint → Bool
  | inPrint _ | scheduling => true
  | idle | waking | rewaking => false

theorem reschedules_of_unadded {point : FnPoint} (unadded : point.unadded = true) :
    point.reschedules = true := by
  cases point with
  | inPrint | scheduling => rfl
  | idle | waking | rewaking => contradiction

theorem ne_idle_of_reschedules {point : FnPoint} (reschedules : point.reschedules = true) :
    point ≠ idle := by
  rintro rfl
  contradiction

end FnPoint

/-- What is true of every run, signals and all. -/
structure Sound (file : JiqFile) (sys : JiqSys) : Prop where
  suits : sys.reader.suits file = true
  off : file = .timer → sys.reader.timerOff = true → sys.pending = false ∧ sys.fn = .idle
  small : sys.fn.unadded = true → sys.len ≤ LIMIT
  own : sys.reader.unadded = true → sys.len ≤ LIMIT
  active : sys.reader.scheduled = true → sys.len ≤ LIMIT →
    sys.pending = true ∨ sys.fn.reschedules = true
  served : sys.reader.needsWake = true → sys.pending = true ∨ sys.fn ≠ .idle

section Step

variable {file : JiqFile} {sys next : JiqSys} {moment : Moment} {signal : Bool}

theorem Sound.timer_of_inPrint (sound : Sound file sys) {point : PrintPoint}
    (here : sys.reader = .inPrint point) : file = .timer := by
  have suits := sound.suits
  rw [here] at suits
  exact beq_iff_eq.mp suits

theorem Sound.at (sound : Sound file sys) {point : ReaderPoint} (suits : point.suits file = true)
    (off : file = .timer → point.timerOff = true → sys.pending = false ∧ sys.fn = .idle)
    (own : point.unadded = true → sys.len ≤ LIMIT)
    (active : point.scheduled = true → sys.len ≤ LIMIT →
      sys.pending = true ∨ sys.fn.reschedules = true)
    (served : point.needsWake = true → sys.pending = true ∨ sys.fn ≠ .idle) :
    Sound file (sys.at point) :=
  ⟨suits, off, sound.small, own, active, served⟩

theorem Sound.scheduledAt (sound : Sound file sys) {point : ReaderPoint}
    (suits : point.suits file = true) (on : point.timerOff = false)
    (calm : point.unadded = false) : Sound file (sys.schedule.at point) where
  suits := suits
  off := by
    intro _ off
    exact absurd (off.symm.trans on) (by simp)
  small := sound.small
  own := by
    intro unadded
    exact absurd (unadded.symm.trans calm) (by simp)
  active := fun _ _ => .inl rfl
  served := fun _ => .inl rfl

theorem Sound.wakeUp (sound : Sound file sys) {fn : FnPoint} (quiet : fn.reschedules = false)
    (before : sys.fn.reschedules = false) (stays : sys.fn = .idle → fn = .idle) :
    Sound file { sys.wakeUp with fn := fn } where
  suits := (sys.reader.suits_wake file).trans sound.suits
  off := by
    intro timer off
    have here := sound.off timer ((sys.reader.timerOff_wake).symm.trans off)
    exact ⟨here.1, stays here.2⟩
  small := by
    intro unadded
    exact absurd ((FnPoint.reschedules_of_unadded unadded).symm.trans quiet) (by simp)
  own := fun unadded => sound.own (sys.reader.unadded_wake.symm.trans unadded)
  active := by
    intro scheduled few
    rcases sound.active ((sys.reader.scheduled_wake).symm.trans scheduled) few with pending | prints
    · exact .inl pending
    · exact absurd (prints.symm.trans before) (by simp)
  served := by
    intro needs
    exact absurd (needs.symm.trans sys.reader.needsWake_wake) (by simp)

theorem Sound.outside (sound : Sound file sys) (other : file ≠ .timer) :
    Sound file (sys.at .outside) :=
  sound.at rfl (fun timer => absurd timer other) (by rintro ⟨⟩) (by rintro ⟨⟩) (by rintro ⟨⟩)

theorem Sound.not_timer_of_leaves (sound : Sound file sys) {full : Bool}
    (leaves : sys.reader.leaves file full signal = true) : file ≠ .timer := by
  have suits := sound.suits
  rintro rfl
  cases here : sys.reader with
  | yielding | sleeping =>
      rw [here] at suits
      contradiction
  | waiting | outside | clearing | storing | starting | prepared | inPrint | arming | stopping =>
      rw [here] at leaves
      contradiction

theorem Sound.printsOwn (sound : Sound file sys) {point : PrintPoint}
    (here : sys.reader = .inPrint point)
    (taken : readerProceed file sys signal moment (.inPrint point) = some next) :
    Sound file next := by
  have timer := sound.timer_of_inPrint here
  have suits : ReaderPoint.suits file (.inPrint point) = true := here ▸ sound.suits
  have own : point.unadded = true → sys.len ≤ LIMIT := fun unadded =>
    sound.own (by rw [here]; exact unadded)
  obtain ⟨off, idle⟩ := sound.off timer (here ▸ rfl)
  have quiet : sys.fn.unadded = false := by rw [idle]; rfl
  cases point with
  | printing m len =>
      simp only [readerProceed, JiqSys.print, Option.some.injEq] at taken
      subst taken
      exact ⟨suits, fun _ _ => ⟨off, idle⟩, sound.small, fun _ => own rfl, by rintro ⟨⟩,
        by rintro ⟨⟩⟩
  | adding count jiffies =>
      simp only [readerProceed, JiqSys.print, Option.some.injEq] at taken
      subst taken
      refine ⟨suits, fun _ _ => ⟨off, idle⟩, fun unadded => ?_, by rintro ⟨⟩, by rintro ⟨⟩,
        by rintro ⟨⟩⟩
      exact absurd (unadded.symm.trans quiet) (by simp)
  | stamping jiffies =>
      simp only [readerProceed, JiqSys.print, Option.some.injEq] at taken
      subst taken
      exact ⟨suits, fun _ _ => ⟨off, idle⟩, sound.small, by rintro ⟨⟩, by rintro ⟨⟩,
        by rintro ⟨⟩⟩

theorem sound_reader (sound : Sound file sys)
    (taken : readerProceed file sys signal moment sys.reader = some next) : Sound file next := by
  have suits := sound.suits
  have off := sound.off
  cases readerProceed_move taken with
  | clear here =>
      rw [here] at off
      exact ⟨rfl, off, fun _ => Nat.zero_le _, by rintro ⟨⟩, by rintro ⟨⟩, by rintro ⟨⟩⟩
  | store here =>
      rw [here] at off
      exact ⟨rfl, off, sound.small, by rintro ⟨⟩, by rintro ⟨⟩, by rintro ⟨⟩⟩
  | prepare here works =>
      refine sound.at ?_ (by rintro _ ⟨⟩) (by rintro ⟨⟩) (by rintro ⟨⟩) (by rintro ⟨⟩)
      rcases works with rfl | rfl <;> rfl
  | skip here timer =>
      rw [here] at off
      exact sound.at (beq_iff_eq.mpr timer) (fun timer _ => off timer rfl) (by rintro ⟨⟩)
        (by rintro ⟨⟩) (by rintro ⟨⟩)
  | begin here timer few =>
      rw [here] at off
      exact sound.at (beq_iff_eq.mpr timer) (fun timer _ => off timer rfl) (fun _ => few)
        (by rintro ⟨⟩) (by rintro ⟨⟩)
  | print here taken => exact sound.printsOwn here taken
  | schedule here schedules =>
      have settled := ReaderPoint.settled_of_scheduled schedules.scheduled
      exact sound.scheduledAt (schedules.suits (here ▸ suits)) settled.timerOn settled.added
  | wait here waits =>
      subst here
      have active := sound.active waits.scheduled
      refine sound.at (waits.suits suits) (fun _ off => ?_) (fun unadded => ?_) (fun _ => active)
        fun sleeps => ?_
      · exact absurd (off.symm.trans waits.settled.timerOn) (by simp)
      · exact absurd (unadded.symm.trans waits.settled.added) (by simp)
      · rcases waits.asleep sleeps with before | full
        · exact sound.served before
        · have few := Nat.not_lt.mp (of_decide_eq_false full)
          exact (active few).imp_right FnPoint.ne_idle_of_reschedules
  | leave scheduled leaves => exact sound.outside (sound.not_timer_of_leaves leaves)
  | stop here idle =>
      exact ⟨rfl, fun _ _ => ⟨rfl, idle⟩, sound.small, by rintro ⟨⟩, by rintro ⟨⟩, by rintro ⟨⟩⟩

theorem Sound.not_unadded (sound : Sound file sys) (runs : sys.fn ≠ .idle) :
    sys.reader.unadded = false := by
  cases here : sys.reader with
  | inPrint point =>
      exact absurd (sound.off (sound.timer_of_inPrint here) (here ▸ rfl)).2 runs
  | outside | clearing | storing | starting | prepared | yielding | sleeping | arming | waiting
  | stopping => rfl

theorem Sound.fnAt (sound : Sound file sys) (runs : sys.fn ≠ .idle) {fn : FnPoint}
    {files : Nat → SeqFile} {len jiffies : Nat} (small : fn.unadded = true → len ≤ LIMIT)
    (goesOn : fn.reschedules = true) :
    Sound file { sys with files := files, len := len, jiffies := jiffies, fn := fn } where
  suits := sound.suits
  off := fun timer off => absurd (sound.off timer off).2 runs
  small := small
  own := by
    intro unadded
    exact absurd (unadded.symm.trans (sound.not_unadded runs)) (by simp)
  active := fun _ _ => .inr goesOn
  served := fun _ => .inr (FnPoint.ne_idle_of_reschedules goesOn)

theorem sound_fn (sound : Sound file sys) (taken : fnProceed file sys moment sys.fn = some next) :
    Sound file next := by
  cases here : sys.fn with
  | idle =>
      rw [here] at taken
      contradiction
  | inPrint point =>
      have runs : sys.fn ≠ .idle := by simp [here]
      rw [here] at taken
      cases point with
      | printing m len =>
          have small := sound.small (here ▸ rfl)
          simp only [fnProceed, JiqSys.print, Option.some.injEq] at taken
          subst taken
          exact sound.fnAt runs (fun _ => small) rfl
      | adding count jiffies | stamping jiffies =>
          simp only [fnProceed, JiqSys.print, Option.some.injEq] at taken
          subst taken
          exact sound.fnAt runs (by rintro ⟨⟩) rfl
  | scheduling =>
      have runs : sys.fn ≠ .idle := by simp [here]
      rw [here, fnProceed, Option.some.injEq] at taken
      subst taken
      refine ⟨sound.suits, fun timer off => absurd (sound.off timer off).2 runs, by rintro ⟨⟩,
        fun unadded => ?_, fun _ _ => .inl rfl, fun _ => .inl rfl⟩
      exact absurd (unadded.symm.trans (sound.not_unadded runs)) (by simp)
  | waking =>
      rw [here, fnProceed, Option.some.injEq] at taken
      subst taken
      refine sound.wakeUp ?_ (here ▸ rfl) (fun idle => ?_)
      · split <;> rfl
      · rw [here] at idle
        contradiction
  | rewaking =>
      rw [here, fnProceed, Option.some.injEq] at taken
      subst taken
      exact sound.wakeUp rfl (here ▸ rfl) fun _ => rfl

theorem sound_step (sound : Sound file sys) {action : JiqAction}
    (taken : jiqStep file sys action = some next) : Sound file next := by
  cases action with
  | call =>
      rw [jiqStep, Option.ite_none_right_eq_some, Option.some.injEq] at taken
      obtain ⟨here, rfl⟩ := taken
      have off := sound.off
      rw [here] at off
      exact ⟨rfl, off, sound.small, by rintro ⟨⟩, by rintro ⟨⟩, by rintro ⟨⟩⟩
  | reader signal moment => exact sound_reader sound taken
  | run =>
      rw [jiqStep, Option.ite_none_right_eq_some, Option.some.injEq] at taken
      obtain ⟨⟨pending, idle⟩, rfl⟩ := taken
      refine ⟨sound.suits, ?_, ?_, sound.own, ?_, ?_⟩
      · intro timer off
        have stopped := (sound.off timer off).1
        rw [pending] at stopped
        contradiction
      · intro prints
        by_contra many
        rw [if_pos (Nat.not_le.mp many)] at prints
        contradiction
      · intro _ few
        right
        rw [if_neg (Nat.not_lt.mpr few)]
        rfl
      · intro _
        right
        split <;> simp
  | fn moment => exact sound_fn sound taken

end Step

/-! The steps that are left. -/

def JiqSys.work (sys : JiqSys) : Nat :=
  6 * (LIMIT + 1 - sys.len) + sys.reader.work + 9 * sys.pending.toNat + sys.fn.work

def JiqAction.undisturbed : JiqAction → Bool
  | .call => false
  | .reader signal _ => !signal
  | .run | .fn _ => true

def Finished (sys : JiqSys) : Prop :=
  sys.reader = .outside ∧ sys.pending = false ∧ sys.fn = .idle

section Work

variable {file : JiqFile} {sys next : JiqSys} {moment : Moment} {signal : Bool}

theorem work_schedule (sys : JiqSys) {point : ReaderPoint}
    (less : point.work + 9 < sys.reader.work) : (sys.schedule.at point).work < sys.work := by
  simp only [JiqSys.work, JiqSys.schedule, JiqSys.at, Bool.toNat_true]
  omega

theorem work_at (sys : JiqSys) {point : ReaderPoint} (less : point.work < sys.reader.work) :
    (sys.at point).work < sys.work := by
  simp only [JiqSys.work, JiqSys.at]
  omega

theorem work_wakeUp (sys : JiqSys) {fn : FnPoint} (less : fn.work + 2 < sys.fn.work) :
    ({ sys.wakeUp with fn := fn } : JiqSys).work < sys.work := by
  have more := sys.reader.work_wake
  simp only [JiqSys.work, JiqSys.wakeUp]
  omega

theorem Sound.printsOwn_uses (sound : Sound file sys) {point : PrintPoint}
    (here : sys.reader = .inPrint point)
    (taken : readerProceed file sys signal moment (.inPrint point) = some next) :
    next.work < sys.work := by
  cases point with
  | printing m len | stamping jiffies =>
      simp only [readerProceed, JiqSys.print, Option.some.injEq] at taken
      subst taken
      simp only [JiqSys.work, JiqSys.at, here, ReaderPoint.work]
      omega
  | adding count jiffies =>
      have some := count.pos
      have few := sound.own (by rw [here]; rfl)
      simp only [readerProceed, JiqSys.print, Option.some.injEq] at taken
      subst taken
      simp only [JiqSys.work, JiqSys.at, here, ReaderPoint.work]
      omega

theorem reader_uses (sound : Sound file sys)
    (taken : readerProceed file sys false moment sys.reader = some next) :
    next.work < sys.work := by
  cases readerProceed_move taken with
  | clear here | store here | stop here =>
      simp only [JiqSys.work, here, ReaderPoint.work, Bool.toNat_false]
      omega
  | prepare here works => exact work_at sys (here ▸ by decide)
  | skip here timer => exact work_at sys (here ▸ by decide)
  | begin here timer few =>
      apply work_at
      rw [here]
      exact (by decide : 12 < 17)
  | print here taken => exact sound.printsOwn_uses here taken
  | schedule here schedules => exact work_schedule sys (here ▸ schedules.work)
  | wait here waits => exact work_at sys (here ▸ waits.work rfl)
  | leave scheduled leaves => exact work_at sys (ReaderPoint.work_pos_of_scheduled scheduled)

theorem fn_uses (sound : Sound file sys) (taken : fnProceed file sys moment sys.fn = some next) :
    next.work < sys.work := by
  cases here : sys.fn with
  | idle =>
      rw [here] at taken
      contradiction
  | inPrint point =>
      have small := sound.small
      rw [here] at taken small
      cases point with
      | printing m len | stamping jiffies =>
          simp only [fnProceed, JiqSys.print, Option.some.injEq] at taken
          subst taken
          simp only [JiqSys.work, here, FnPoint.work]
          omega
      | adding count jiffies =>
          have some := count.pos
          have few := small rfl
          simp only [fnProceed, JiqSys.print, Option.some.injEq] at taken
          subst taken
          simp only [JiqSys.work, here, FnPoint.work]
          omega
  | scheduling =>
      rw [here, fnProceed, Option.some.injEq] at taken
      subst taken
      simp only [JiqSys.work, JiqSys.schedule, here, Bool.toNat_true, FnPoint.work]
      omega
  | waking =>
      rw [here, fnProceed, Option.some.injEq] at taken
      subst taken
      apply work_wakeUp
      rw [here]
      split <;> decide
  | rewaking =>
      rw [here, fnProceed, Option.some.injEq] at taken
      subst taken
      exact work_wakeUp sys (here ▸ by decide)

theorem undisturbed_uses (file : JiqFile) :
    StepMachine.Uses (jiqStep file) (Sound file) (fun action => action.undisturbed = true)
      JiqSys.work := by
  intro sys action next sound calm taken
  refine ⟨sound_step sound taken, ?_⟩
  cases action with
  | call => contradiction
  | reader signal moment =>
      have quiet : signal = false := by simpa [JiqAction.undisturbed] using calm
      subst quiet
      exact reader_uses sound taken
  | run =>
      rw [jiqStep, Option.ite_none_right_eq_some, Option.some.injEq] at taken
      obtain ⟨⟨pending, idle⟩, rfl⟩ := taken
      have started : (if LIMIT < sys.len then .waking
          else FnPoint.inPrint (.printing sys.m sys.len)).work ≤ 7 := by
        split
        · decide
        · exact le_rfl
      simp only [JiqSys.work, pending, idle, Bool.toNat_true, Bool.toNat_false]
      omega
  | fn moment => exact fn_uses sound taken

def Moment.zero : Moment where
  jiffies := 0
  preemptCount := 0
  pid := 0
  cpu := 0
  comm := []
  jiffies_lt := by decide
  preemptCount_fits := by decide
  pid_fits := by decide
  cpu_fits := by decide
  comm_le := by decide

theorem reader_possible (file : JiqFile) (inside : sys.reader ≠ .outside) (idle : sys.fn = .idle)
    (awake : sys.reader.needsWake = false) (moment : Moment) :
    ∃ next, readerProceed file sys false moment sys.reader = some next := by
  cases here : sys.reader with
  | outside => exact absurd here inside
  | clearing | storing | prepared | yielding | arming => exact ⟨_, rfl⟩
  | inPrint point => cases point <;> exact ⟨_, rfl⟩
  | starting =>
      cases file with
      | wq | wqDelayed | tasklet => exact ⟨_, rfl⟩
      | timer =>
          rw [readerProceed]
          split <;> exact ⟨_, rfl⟩
  | sleeping =>
      rw [here] at awake
      contradiction
  | waiting waiter =>
      rw [here] at awake
      cases waiter with
      | entering | preparing => exact ⟨_, rfl⟩
      | queued woken =>
          rw [readerProceed, Waiter.proceed, if_neg Bool.false_ne_true]
          split <;> exact ⟨_, rfl⟩
      | asleep => contradiction
  | stopping => exact ⟨_, if_pos idle⟩

theorem fn_possible (file : JiqFile) (runs : sys.fn ≠ .idle) (moment : Moment) :
    ∃ next, fnProceed file sys moment sys.fn = some next := by
  cases here : sys.fn with
  | idle => exact absurd here runs
  | inPrint point => cases point <;> exact ⟨_, rfl⟩
  | scheduling | waking | rewaking => exact ⟨_, rfl⟩

theorem Sound.goes_on (sound : Sound file sys) (unfinished : ¬Finished sys) :
    ∃ action next, action.undisturbed = true ∧ jiqStep file sys action = some next := by
  cases fn : sys.fn with
  | inPrint | scheduling | waking | rewaking =>
      obtain ⟨next, taken⟩ := fn_possible file (by simp [fn] : sys.fn ≠ .idle) .zero
      exact ⟨.fn .zero, next, rfl, taken⟩
  | idle =>
      cases pending : sys.pending with
      | true => exact ⟨.run, _, rfl, if_pos ⟨pending, fn⟩⟩
      | false =>
          have inside : sys.reader ≠ .outside := fun left => unfinished ⟨left, pending, fn⟩
          have awake : sys.reader.needsWake = false := by
            cases needs : sys.reader.needsWake with
            | false => rfl
            | true =>
                rcases sound.served needs with on | runs
                · rw [pending] at on
                  contradiction
                · exact absurd fn runs
          obtain ⟨next, taken⟩ := reader_possible file inside fn awake .zero
          exact ⟨.reader false .zero, next, rfl, taken⟩

/-- Undisturbed, the show and what it has scheduled end in time. -/
def Ends (file : JiqFile) (sys : JiqSys) : Prop :=
  ∀ later final, (∀ action ∈ later, action.undisturbed = true) →
    StepMachine.run (jiqStep file) sys later = some final →
    later.length ≤ sys.work ∧
      ((∀ action, action.undisturbed = true → jiqStep file final action = none) → Finished final)

theorem Sound.ends (sound : Sound file sys) : Ends file sys := by
  intro later final calm ran
  obtain ⟨kept, bounded⟩ := (undisturbed_uses file).run sound calm ran
  refine ⟨by omega, fun stuck => ?_⟩
  by_contra unfinished
  obtain ⟨action, next, calm, taken⟩ := kept.goes_on unfinished
  rw [stuck action calm] at taken
  contradiction

end Work

end Ldd3.Jiq
