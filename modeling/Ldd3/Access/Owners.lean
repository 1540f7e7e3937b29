import Mathlib.Tactic
import Ldd3.Lib.CInt
import Ldd3.Lib.Semaphore
import Ldd3.Lib.StepMachine
import Ldd3.Access.Core

/-!
Who may have sculluid and scullwuid open: the count of holders, the owner while there
are any, and by what right each of them got in. `scull_wuid_open` sleeps on a test that it
makes without `scull_wuid_lock`, but it only gets in by the test under the lock.
-/

namespace Ldd3.Access

open scoped BigOperators

variable {Pid File : Type}

def Allowed (own : Owner) (cred : Cred) : Prop :=
  own.count = 0 ∨ own.owner = cred.uid ∨ own.owner = cred.euid ∨ cred.capDacOverride = true

theorem scullUidBusy_iff (own : Owner) (cred : Cred) :
    scullUidBusy own cred = false ↔ Allowed own cred := by
  simp only [scullUidBusy, Allowed, Bool.and_eq_false_iff, bne_eq_false_iff_eq,
    Bool.not_eq_false', or_assoc]

theorem scullWuidAvailable_iff (own : Owner) (cred : Cred) :
    scullWuidAvailable own cred = true ↔ Allowed own cred := by
  simp only [scullWuidAvailable, Allowed, Bool.or_eq_true, beq_iff_eq, or_assoc]

def Point.waiting? : Point File → Option File
  | .wuidTest file _ _ => some file
  | .wuidWait file _ => some file
  | .wuidAsleep file _ => some file
  | _ => none

def Point.entered? : Point File → Option File
  | .entering file _ => some file
  | .resetting file => some file
  | _ => none

def Point.isAsleep : Point File → Bool
  | .wuidAsleep _ _ => true
  | _ => false

def Point.isCalling : Point File → Bool
  | .idle => true
  | .callDown _ => true
  | .inSection _ => true
  | _ => false

section Moves

variable [DecidableEq Pid] [DecidableEq File]

inductive OwnerMove (kind : Kind) (creds : Pid → Cred) (sys : AccessSys Pid File) :
    AccessAction Pid File → AccessSys Pid File → Prop
  | refused {action} : OwnerMove kind creds sys action sys
  | starts {pid file mode nonblock alloc} (idle : sys.points pid = .idle)
      (closed : sys.files file = .closed) :
      OwnerMove kind creds sys (.openFile pid file mode nonblock alloc)
        ((sys.setFile file .pending).setPoint pid (.wuidTest file mode nonblock))
  | waits {pid action file point} (waiting : (sys.points pid).waiting? = some file)
      (still : point.waiting? = some file)
      (sleeps : point.isAsleep = true → ¬ Allowed sys.own (creds pid)) :
      OwnerMove kind creds sys action (sys.setPoint pid point)
  | givesUp {pid action file} (waiting : (sys.points pid).waiting? = some file) :
      OwnerMove kind creds sys action ((sys.setFile file .closed).setPoint pid .idle)
  | admitted {pid action file mode} (actor : action.pid = pid)
      (entry : sys.points pid = .idle ∧ sys.files file = .closed ∨
        (sys.points pid).waiting? = some file)
      (allowed : Allowed sys.own (creds pid)) :
      OwnerMove kind creds sys action
        ({ sys with own := sys.own.take (creds pid) }.enter pid file mode)
  | resets {pid action file} (here : (sys.points pid).entered? = some file) :
      OwnerMove kind creds sys action (sys.setPoint pid (.resetting file))
  | released {pid file point} (idle : sys.points pid = .idle) (ready : sys.files file = .ready)
      (after : point = .idle ∨ point = .wakeOpeners)
      (wakes : kind = .wuid → sys.own.count - 1 = 0 → point = .wakeOpeners) :
      OwnerMove kind creds sys (.release pid file)
        (({ sys with own := { sys.own with count := sys.own.count - 1 } }.setFile file
          .closed).setPoint pid point)
  | opened {pid action file sem} (here : (sys.points pid).entered? = some file) :
      OwnerMove kind creds sys action
        (({ sys with sem := sem }.setFile file .ready).setPoint pid .idle)
  | calls {pid action point sem} (before : (sys.points pid).isCalling = true)
      (after : point.isCalling = true) :
      OwnerMove kind creds sys action ({ sys with sem := sem }.setPoint pid point)
  | wakes {pid action} (here : sys.points pid = .wakeOpeners) :
      OwnerMove kind creds sys action
        ({ sys with points := fun other => wakeOpener (sys.points other) }.setPoint pid .idle)

omit [DecidableEq File] in
theorem AccessSys.setPoint_same {sys : AccessSys Pid File} {pid : Pid} {point : Point File}
    (here : sys.points pid = point) : sys.setPoint pid point = sys := by
  simp only [AccessSys.setPoint, ← here, Function.update_eq_self]

theorem accessProceed_ownerMove {kind : Kind} {creds : Pid → Cred}
    {sys next : AccessSys Pid File} {pid : Pid} {interrupted : Bool}
    (notDown : ∀ file, sys.points pid ≠ .openDown file)
    (taken : accessProceed kind (creds pid) sys pid interrupted (sys.points pid) = some next) :
    OwnerMove kind creds sys (.proceed pid interrupted) next := by
  cases here : sys.points pid with
  | idle => simp [here, accessProceed] at taken
  | wuidAsleep file mode => simp [here, accessProceed] at taken
  | openDown file => exact absurd here (notDown file)
  | wuidTest file mode nonblock =>
      have waiting : (sys.points pid).waiting? = some file := by rw [here]; rfl
      simp only [here, accessProceed, Option.some.injEq, scullWuidOpenLoop] at taken
      split at taken
      · rename_i available
        subst taken
        exact .admitted rfl (Or.inr waiting) ((scullWuidAvailable_iff _ _).mp available)
      · split at taken
        · subst taken
          exact .givesUp waiting
        · subst taken
          exact .waits waiting rfl (by simp [Point.isAsleep])
  | wuidWait file mode =>
      have waiting : (sys.points pid).waiting? = some file := by rw [here]; rfl
      simp only [here, accessProceed] at taken
      split at taken
      · cases taken
        exact .waits waiting rfl (by simp [Point.isAsleep])
      · rename_i busy
        split at taken
        · cases taken
          exact .givesUp waiting
        · cases taken
          refine .waits waiting rfl ?_
          intro _ allowed
          exact busy ((scullWuidAvailable_iff _ _).mpr allowed)
  | entering file mode =>
      have entered : (sys.points pid).entered? = some file := by rw [here]; rfl
      simp only [here, accessProceed] at taken
      split at taken
      · cases taken
        exact .resets entered
      · cases taken
        exact .opened entered
  | resetting file =>
      simp only [here, accessProceed, Option.some.injEq] at taken
      subst taken
      exact .opened (by rw [here]; rfl)
  | callDown file =>
      have calling : (sys.points pid).isCalling = true := by rw [here]; rfl
      simp only [here, accessProceed] at taken
      split at taken
      · cases taken
        exact OwnerMove.calls calling rfl
      · split at taken
        · cases taken
          exact .calls calling rfl
        · contradiction
  | inSection file =>
      have calling : (sys.points pid).isCalling = true := by rw [here]; rfl
      simp only [here, accessProceed, Option.some.injEq] at taken
      subst taken
      exact .calls calling rfl
  | wakeOpeners =>
      simp only [here, accessProceed, Option.some.injEq] at taken
      subst taken
      exact .wakes here

theorem accessStep_ownerMove [Fintype Pid] {kind : Kind} {creds : Pid → Cred}
    {sys next : AccessSys Pid File} {action : AccessAction Pid File}
    (owned : kind = .uid ∨ kind = .wuid) (notDown : ∀ pid file, sys.points pid ≠ .openDown file)
    (taken : accessStep kind creds sys action = some next) :
    OwnerMove kind creds sys action next := by
  cases action with
  | openFile pid file mode nonblock alloc =>
      simp only [accessStep] at taken
      split at taken
      · rename_i allowed
        rcases owned with rfl | rfl
        · simp only [scullUidOpen, Option.some.injEq] at taken
          split at taken
          · subst taken
            exact .refused
          · rename_i free
            subst taken
            refine .admitted rfl (Or.inl allowed) ((scullUidBusy_iff _ _).mp ?_)
            simpa using free
        · cases taken
          exact .starts allowed.1 allowed.2
      · contradiction
  | call pid file =>
      simp only [accessStep] at taken
      split at taken
      · rename_i allowed
        cases taken
        exact OwnerMove.calls (by rw [allowed.1]; rfl) rfl
      · contradiction
  | release pid file =>
      simp only [accessStep] at taken
      split at taken
      · rename_i allowed
        obtain ⟨idle, ready, _⟩ := allowed
        rcases owned with rfl | rfl
        · cases taken
          have here : (scullUidRelease sys file).points pid = .idle := idle
          rw [← AccessSys.setPoint_same here]
          exact .released idle ready (Or.inl rfl) (by simp)
        · simp only [scullWuidRelease, Option.some.injEq] at taken
          split at taken
          · subst taken
            exact .released idle ready (Or.inr rfl) (fun _ _ => rfl)
          · rename_i more
            subst taken
            have here : (scullUidRelease sys file).points pid = .idle := idle
            have same := AccessSys.setPoint_same here
            simp only [scullUidRelease] at same
            rw [← same]
            refine .released idle ready (Or.inl rfl) ?_
            intro _ last
            exact absurd last more
      · contradiction
  | proceed pid interrupted => exact accessProceed_ownerMove (notDown pid) taken
  | signal pid =>
      simp only [accessStep] at taken
      split at taken
      · rename_i file mode here
        have waiting : (sys.points pid).waiting? = some file := by rw [here]; rfl
        split at taken
        · cases taken
          exact .waits waiting rfl (by simp [Point.isAsleep])
        · cases taken
          exact .givesUp waiting
      · contradiction

end Moves

/-! Every open in progress has a file of its own. -/

def Point.opens? (point : Point File) : Option File := point.waiting?.or point.entered?

theorem Point.opens_of_waiting {point : Point File} {file : File}
    (waiting : point.waiting? = some file) : point.opens? = some file := by
  rw [Point.opens?, waiting, Option.some_or]

theorem Point.opens_of_entered {point : Point File} {file : File}
    (entered : point.entered? = some file) : point.opens? = some file := by
  cases point with
  | entering | resetting => exact entered
  | _ => contradiction

theorem Point.not_entered_of_waiting {point : Point File} {file : File}
    (waiting : point.waiting? = some file) : point.entered? = none := by
  cases point with
  | wuidTest | wuidWait | wuidAsleep => rfl
  | _ => contradiction

theorem Point.opens_of_calling {point : Point File} (calling : point.isCalling = true) :
    point.opens? = none := by
  cases point with
  | idle | callDown | inSection => rfl
  | _ => contradiction

structure OpensInvariant (files : File → FileState) (points : Pid → Point File) : Prop where
  waiting : ∀ pid file, (points pid).waiting? = some file → files file = .pending
  entered : ∀ pid file, (points pid).entered? = some file → files file = .opening
  alone : ∀ pid other file, (points pid).opens? = some file →
    (points other).opens? = some file → pid = other
  notDown : ∀ pid file, points pid ≠ .openDown file

theorem OpensInvariant.unopened {files : File → FileState} {points : Pid → Point File}
    (invariant : OpensInvariant files points) {file : File}
    (settled : files file = .closed ∨ files file = .ready) (pid : Pid) :
    (points pid).opens? ≠ some file := by
  intro opens
  rcases Option.or_eq_some_iff.mp opens with waiting | ⟨_, entered⟩
  · have pending := invariant.waiting pid file waiting
    simp [pending] at settled
  · have opening := invariant.entered pid file entered
    simp [opening] at settled

section Opens

variable [DecidableEq Pid]

omit [DecidableEq Pid] in
theorem OpensInvariant.others {files : File → FileState} {points : Pid → Point File}
    (invariant : OpensInvariant files points) {pid : Pid} {file : File}
    (opens : (points pid).opens? = some file) :
    ∀ other, other ≠ pid → (points other).opens? ≠ some file := by
  intro other different again
  exact different (invariant.alone other pid file again opens)

theorem OpensInvariant.update [DecidableEq File] {files : File → FileState}
    {points : Pid → Point File} (invariant : OpensInvariant files points) {pid : Pid} {file : File}
    {state : FileState} {point : Point File}
    (others : ∀ other, other ≠ pid → (points other).opens? ≠ some file)
    (mine : ∀ used, point.opens? = some used → used = file)
    (waits : point.waiting? = some file → state = .pending)
    (enters : point.entered? = some file → state = .opening)
    (notDown : ∀ used, point ≠ .openDown used) :
    OpensInvariant (Function.update files file state) (Function.update points pid point) := by
  have elsewhere : ∀ other used, other ≠ pid → (points other).opens? = some used →
      Function.update files file state used = files used := by
    intro other used different opens
    apply Function.update_of_ne
    rintro rfl
    exact others other different opens
  refine ⟨?_, ?_, ?_, ?_⟩
  · intro other used waiting
    by_cases same : other = pid
    · subst same
      rw [Function.update_self] at waiting
      obtain rfl := mine used (Point.opens_of_waiting waiting)
      rw [Function.update_self, waits waiting]
    · rw [Function.update_of_ne same] at waiting
      rw [elsewhere other used same (Point.opens_of_waiting waiting)]
      exact invariant.waiting other used waiting
  · intro other used entered
    by_cases same : other = pid
    · subst same
      rw [Function.update_self] at entered
      obtain rfl := mine used (Point.opens_of_entered entered)
      rw [Function.update_self, enters entered]
    · rw [Function.update_of_ne same] at entered
      rw [elsewhere other used same (Point.opens_of_entered entered)]
      exact invariant.entered other used entered
  · intro one other used first second
    by_cases oneMine : one = pid
    · by_cases otherMine : other = pid
      · exact oneMine.trans otherMine.symm
      · subst oneMine
        rw [Function.update_self] at first
        rw [Function.update_of_ne otherMine] at second
        obtain rfl := mine used first
        exact absurd second (others other otherMine)
    · rw [Function.update_of_ne oneMine] at first
      by_cases otherMine : other = pid
      · subst otherMine
        rw [Function.update_self] at second
        obtain rfl := mine used second
        exact absurd first (others one oneMine)
      · rw [Function.update_of_ne otherMine] at second
        exact invariant.alone one other used first second
  · intro other used
    by_cases same : other = pid
    · subst same
      rw [Function.update_self]
      exact notDown used
    · rw [Function.update_of_ne same]
      exact invariant.notDown other used

theorem OpensInvariant.calls {files : File → FileState} {points : Pid → Point File}
    (invariant : OpensInvariant files points) {pid : Pid} {point : Point File}
    (calling : point.isCalling = true) :
    OpensInvariant files (Function.update points pid point) := by
  have unopened := Point.opens_of_calling calling
  have kept : ∀ other used, (Function.update points pid point other).opens? = some used →
      Function.update points pid point other = points other := by
    intro other used opens
    by_cases same : other = pid
    · subst same
      rw [Function.update_self, unopened] at opens
      contradiction
    · rw [Function.update_of_ne same]
  refine ⟨?_, ?_, ?_, ?_⟩
  · intro other used waiting
    have same := kept other used (Point.opens_of_waiting waiting)
    rw [same] at waiting
    exact invariant.waiting other used waiting
  · intro other used entered
    have same := kept other used (Point.opens_of_entered entered)
    rw [same] at entered
    exact invariant.entered other used entered
  · intro one other used first second
    rw [kept one used first] at first
    rw [kept other used second] at second
    exact invariant.alone one other used first second
  · intro other used down
    by_cases same : other = pid
    · subst same
      rw [Function.update_self] at down
      rw [down] at calling
      contradiction
    · rw [Function.update_of_ne same] at down
      exact invariant.notDown other used down

end Opens

theorem wakeOpener_opens (point : Point File) :
    (wakeOpener point).waiting? = point.waiting? ∧
      (wakeOpener point).entered? = point.entered? ∧
      (wakeOpener point).opens? = point.opens? := by
  cases point <;> exact ⟨rfl, rfl, rfl⟩

theorem OpensInvariant.wakes {files : File → FileState} {points : Pid → Point File}
    (invariant : OpensInvariant files points) :
    OpensInvariant files fun pid => wakeOpener (points pid) := by
  refine ⟨?_, ?_, ?_, ?_⟩
  · intro pid file waiting
    rw [(wakeOpener_opens _).1] at waiting
    exact invariant.waiting pid file waiting
  · intro pid file entered
    rw [(wakeOpener_opens _).2.1] at entered
    exact invariant.entered pid file entered
  · intro pid other file first second
    rw [(wakeOpener_opens _).2.2] at first second
    exact invariant.alone pid other file first second
  · intro pid file down
    apply invariant.notDown pid file
    cases here : points pid <;> simp_all [wakeOpener]

theorem opensInvariant_loaded :
    OpensInvariant (fun _ : File => .closed) (fun _ : Pid => .idle) := by
  refine ⟨?_, ?_, ?_, ?_⟩
  · intro pid file waiting
    contradiction
  · intro pid file entered
    contradiction
  · intro pid other file opens
    contradiction
  · intro pid file down
    contradiction

section Step

variable [DecidableEq Pid] [DecidableEq File] {kind : Kind} {creds : Pid → Cred}
  {sys next : AccessSys Pid File} {action : AccessAction Pid File}

theorem OwnerMove.opens (move : OwnerMove kind creds sys action next)
    (invariant : OpensInvariant sys.files sys.points) :
    OpensInvariant next.files next.points := by
  have finished : ∀ {pid : Pid} {file : File} {state : FileState} {point : Point File},
      (∀ other, other ≠ pid → (sys.points other).opens? ≠ some file) →
      point = .idle ∨ point = .wakeOpeners →
      OpensInvariant (Function.update sys.files file state) (Function.update sys.points pid point) := by
    rintro pid file state point others (rfl | rfl)
    · exact invariant.update others (by rintro _ ⟨⟩) (by rintro ⟨⟩) (by rintro ⟨⟩) (by simp)
    · exact invariant.update others (by rintro _ ⟨⟩) (by rintro ⟨⟩) (by rintro ⟨⟩) (by simp)
  cases move with
  | refused => exact invariant
  | starts idle closed =>
      refine invariant.update ?_ ?_ (fun _ => rfl) (by rintro ⟨⟩) (by simp)
      · exact fun other _ => invariant.unopened (Or.inl closed) other
      · rintro used ⟨⟩
        rfl
  | waits waiting still sleeps =>
      rename_i pid file point
      have pending := invariant.waiting pid file waiting
      have updated : OpensInvariant (Function.update sys.files file (sys.files file))
          (Function.update sys.points pid point) := by
        refine invariant.update (invariant.others (Point.opens_of_waiting waiting)) ?_
          (fun _ => pending) ?_ ?_
        · intro used opens
          rw [Point.opens_of_waiting still] at opens
          cases opens
          rfl
        · intro entered
          rw [Point.not_entered_of_waiting still] at entered
          contradiction
        · rintro used rfl
          contradiction
      rw [Function.update_eq_self] at updated
      exact updated
  | givesUp waiting =>
      exact finished (invariant.others (Point.opens_of_waiting waiting)) (Or.inl rfl)
  | admitted actor entry allowed =>
      rename_i pid file mode
      have others : ∀ other, other ≠ pid → (sys.points other).opens? ≠ some file := by
        rcases entry with ⟨_, closed⟩ | waiting
        · exact fun other _ => invariant.unopened (Or.inl closed) other
        · exact invariant.others (Point.opens_of_waiting waiting)
      refine invariant.update others ?_ (by rintro ⟨⟩) (fun _ => rfl) (by simp)
      rintro used ⟨⟩
      rfl
  | resets here =>
      rename_i pid file
      have opening := invariant.entered pid file here
      have updated : OpensInvariant (Function.update sys.files file (sys.files file))
          (Function.update sys.points pid (.resetting file)) := by
        refine invariant.update (invariant.others (Point.opens_of_entered here)) ?_
          (by rintro ⟨⟩) (fun _ => opening) (by simp)
        rintro used ⟨⟩
        rfl
      rw [Function.update_eq_self] at updated
      exact updated
  | released idle ready after wakes =>
      exact finished (fun other _ => invariant.unopened (Or.inr ready) other) after
  | opened here =>
      exact finished (invariant.others (Point.opens_of_entered here)) (Or.inl rfl)
  | calls before after => exact invariant.calls after
  | wakes here =>
      have woken := invariant.wakes
      exact woken.calls rfl

/-! The count of holders. -/

def AccessSys.holders [Fintype File] (sys : AccessSys Pid File) : Int :=
  ∑ file, Semaphore.weight FileState.held (sys.files file)

omit [DecidableEq Pid] [DecidableEq File] in
theorem AccessSys.holders_nonneg [Fintype File] (sys : AccessSys Pid File) : 0 ≤ sys.holders :=
  Finset.sum_nonneg fun _ _ => Semaphore.weight_nonneg _ _

omit [DecidableEq Pid] in
theorem AccessSys.holders_update [Fintype File] {before after : AccessSys Pid File} {file : File}
    {state : FileState} (files : after.files = Function.update before.files file state) :
    after.holders = before.holders - Semaphore.weight FileState.held (before.files file) +
      Semaphore.weight FileState.held state := by
  simp only [AccessSys.holders, files]
  exact Counting.sum_update before.files file state _

theorem OwnerMove.counted [Fintype File] (move : OwnerMove kind creds sys action next)
    (invariant : OpensInvariant sys.files sys.points) (counted : sys.own.count = sys.holders) :
    next.own.count = next.holders := by
  cases move with
  | refused => exact counted
  | starts idle closed =>
      rename_i pid file mode nonblock alloc
      have sum : ((sys.setFile file .pending).setPoint pid (.wuidTest file mode nonblock)).holders =
          _ := AccessSys.holders_update rfl
      rw [closed] at sum
      rw [sum]
      exact counted.trans ((sub_zero _).symm.trans (add_zero _).symm)
  | waits waiting still sleeps => exact counted
  | givesUp waiting =>
      rename_i pid file
      have sum : ((sys.setFile file .closed).setPoint pid .idle).holders = _ := AccessSys.holders_update rfl
      rw [invariant.waiting pid file waiting] at sum
      rw [sum]
      exact counted.trans ((sub_zero _).symm.trans (add_zero _).symm)
  | admitted actor entry allowed =>
      rename_i pid file mode
      have unheld : Semaphore.weight FileState.held (sys.files file) = 0 := by
        rcases entry with ⟨_, closed⟩ | waiting
        · rw [closed]
          rfl
        · rw [invariant.waiting pid file waiting]
          rfl
      have sum : ({ sys with own := sys.own.take (creds pid) }.enter pid file mode).holders = _ :=
        AccessSys.holders_update rfl
      rw [unheld] at sum
      rw [sum]
      change sys.own.count + 1 = sys.holders - 0 + 1
      rw [counted, sub_zero]
  | resets here => exact counted
  | released idle ready after wakes =>
      rename_i pid file point
      have sum : (({ sys with own := { sys.own with count := sys.own.count - 1 } }.setFile file
          .closed).setPoint pid point).holders = _ := AccessSys.holders_update rfl
      rw [ready] at sum
      rw [sum]
      change sys.own.count - 1 = sys.holders - 1 + 0
      rw [counted, add_zero]
  | opened here =>
      rename_i pid file sem
      have sum : (({ sys with sem := sem }.setFile file .ready).setPoint pid .idle).holders = _ :=
        AccessSys.holders_update rfl
      rw [invariant.entered pid file here] at sum
      rw [sum]
      change sys.own.count = sys.holders - 1 + 1
      rw [counted, sub_add_cancel]
  | calls before after => exact counted
  | wakes here => exact counted

theorem OwnerMove.owner_kept (move : OwnerMove kind creds sys action next)
    (held : 0 < sys.own.count) : next.own.owner = sys.own.owner := by
  cases move with
  | admitted actor entry allowed =>
      have some : sys.own.count ≠ 0 := by omega
      simp only [AccessSys.enter, AccessSys.setPoint, AccessSys.setFile, Owner.take, if_neg some]
  | _ => rfl

theorem OwnerMove.newlyHeld (move : OwnerMove kind creds sys action next)
    (invariant : OpensInvariant sys.files sys.points) {file : File}
    (before : (sys.files file).held = false) (after : (next.files file).held = true) :
    Allowed sys.own (creds action.pid) ∧ next.own = sys.own.take (creds action.pid) := by
  have unchanged : ∀ {used : File} {state : FileState}, state.held = false →
      (Function.update sys.files used state file).held = true → False := by
    intro used state unheld held
    simp only [Function.update_apply] at held
    split at held
    · rw [unheld] at held
      contradiction
    · rw [before] at held
      contradiction
  cases move with
  | refused => simp [before] at after
  | starts idle closed => exact (unchanged rfl after).elim
  | waits waiting still sleeps => exact absurd (before.symm.trans after) (by simp)
  | givesUp waiting => exact (unchanged rfl after).elim
  | admitted actor entry allowed =>
      rw [actor]
      exact ⟨allowed, rfl⟩
  | resets here => exact absurd (before.symm.trans after) (by simp)
  | released idle ready after wakes => exact (unchanged rfl (by assumption)).elim
  | opened here =>
      rename_i pid used sem
      simp only [AccessSys.setPoint, AccessSys.setFile, Function.update_apply] at after
      split at after
      · rename_i same
        rw [same, invariant.entered pid used here] at before
        contradiction
      · rw [before] at after
        contradiction
  | calls calling quiet => exact absurd (before.symm.trans after) (by simp)
  | wakes here => exact absurd (before.symm.trans after) (by simp)

end Step

/-! The device with, for every file, the open that last got it held. -/

structure Admission where
  cred : Cred
  before : Owner
  after : Owner
  deriving DecidableEq, Repr

/-- The open was the first since the count was 0 and made its user the owner, or its user
was the owner or had the capability. -/
def Admission.Rightful (admission : Admission) : Prop :=
  (admission.before.count = 0 ∧ admission.after.owner = admission.cred.uid) ∨
    admission.before.owner = admission.cred.uid ∨ admission.before.owner = admission.cred.euid ∨
    admission.cred.capDacOverride = true

structure OwnedSys (Pid File : Type) where
  sys : AccessSys Pid File
  admissions : File → Option Admission

section Owned

variable [DecidableEq Pid] [DecidableEq File] [Fintype Pid]

def recordAdmissions (creds : Pid → Cred) (owned : OwnedSys Pid File)
    (action : AccessAction Pid File) (next : AccessSys Pid File) (file : File) :
    Option Admission :=
  if (next.files file).held && !(owned.sys.files file).held then
    some { cred := creds action.pid, before := owned.sys.own, after := next.own }
  else owned.admissions file

def ownedStep (kind : Kind) (creds : Pid → Cred) (owned : OwnedSys Pid File)
    (action : AccessAction Pid File) : Option (OwnedSys Pid File) :=
  (accessStep kind creds owned.sys action).map fun next =>
    { sys := next, admissions := recordAdmissions creds owned action next }

omit [DecidableEq Pid] [DecidableEq File] [Fintype Pid] in
def OwnedSys.loaded (Pid File : Type) (owner : Nat) : OwnedSys Pid File :=
  { sys := .loaded Pid File owner, admissions := fun _ => none }

/-- The count is the number of holders, the owner stays while there is one, every holder
got in by right and under the present owner, and nobody without the right gets in. -/
structure OwnerRules [Fintype File] (kind : Kind) (creds : Pid → Cred)
    (owned : OwnedSys Pid File) : Prop where
  counted : owned.sys.own.count = owned.sys.holders
  ownerKept : ∀ action next, accessStep kind creds owned.sys action = some next →
    0 < owned.sys.own.count → next.own.owner = owned.sys.own.owner
  admitted : ∀ file, (owned.sys.files file).held = true →
    ∃ admission, owned.admissions file = some admission ∧ admission.Rightful ∧
      admission.after.owner = owned.sys.own.owner
  keptOut : ∀ action next file, accessStep kind creds owned.sys action = some next →
    0 < owned.sys.own.count → owned.sys.own.owner ≠ (creds action.pid).uid →
    owned.sys.own.owner ≠ (creds action.pid).euid →
    (creds action.pid).capDacOverride = false →
    (owned.sys.files file).held = false → (next.files file).held = false

structure OwnedInvariant [Fintype File] (owned : OwnedSys Pid File) : Prop where
  opens : OpensInvariant owned.sys.files owned.sys.points
  counted : owned.sys.own.count = owned.sys.holders
  admitted : ∀ file, (owned.sys.files file).held = true →
    ∃ admission, owned.admissions file = some admission ∧ admission.Rightful ∧
      admission.after.owner = owned.sys.own.owner

theorem Allowed.rightful {own : Owner} {cred : Cred} (allowed : Allowed own cred) :
    Admission.Rightful { cred := cred, before := own, after := own.take cred } := by
  rcases allowed with free | rights
  · exact Or.inl ⟨free, by simp only [Owner.take, if_pos free]⟩
  · exact Or.inr rights

omit [DecidableEq Pid] [DecidableEq File] [Fintype Pid] in
theorem OwnedInvariant.count_pos [Fintype File] {owned : OwnedSys Pid File}
    (invariant : OwnedInvariant owned) {file : File}
    (held : (owned.sys.files file).held = true) : 0 < owned.sys.own.count := by
  have counted := Counting.weight_le_sum owned.sys.files file (Semaphore.weight FileState.held)
    (Semaphore.weight_nonneg _)
  rw [Semaphore.weight_held held] at counted
  rw [invariant.counted]
  exact lt_of_lt_of_le one_pos counted

omit [DecidableEq Pid] [DecidableEq File] [Fintype Pid] in
theorem OwnedInvariant.count_fits [Fintype File] {owned : OwnedSys Pid File}
    (invariant : OwnedInvariant owned) (few : Fintype.card File < 2147483648) :
    CInt.FitsInt owned.sys.own.count := by
  have none := owned.sys.holders_nonneg
  have all : owned.sys.holders ≤ Fintype.card File :=
    Counting.sum_le_card owned.sys.files _ (Semaphore.weight_le_one _)
  rw [invariant.counted]
  exact ⟨by omega, by omega⟩

variable [Fintype File] {kind : Kind} {creds : Pid → Cred} {owned : OwnedSys Pid File}

theorem OwnedInvariant.rules (invariant : OwnedInvariant owned)
    (shared : kind = .uid ∨ kind = .wuid) : OwnerRules kind creds owned := by
  refine ⟨invariant.counted, ?_, invariant.admitted, ?_⟩
  · intro action next taken held
    exact (accessStep_ownerMove shared invariant.opens.notDown taken).owner_kept held
  · intro action next file taken some notUid notEuid noCap before
    have move := accessStep_ownerMove shared invariant.opens.notDown taken
    by_contra after
    obtain ⟨allowed, _⟩ := move.newlyHeld invariant.opens before (by simpa using after)
    rcases allowed with free | uid | euid | cap
    · omega
    · exact notUid uid
    · exact notEuid euid
    · rw [noCap] at cap
      contradiction

theorem ownedInvariant_step {next : OwnedSys Pid File} {action : AccessAction Pid File}
    (shared : kind = .uid ∨ kind = .wuid) (invariant : OwnedInvariant owned)
    (taken : ownedStep kind creds owned action = some next) : OwnedInvariant next := by
  simp only [ownedStep, Option.map_eq_some_iff] at taken
  obtain ⟨after, stepped, rfl⟩ := taken
  have move := accessStep_ownerMove shared invariant.opens.notDown stepped
  refine ⟨move.opens invariant.opens, move.counted invariant.opens invariant.counted, ?_⟩
  intro file held
  simp only [recordAdmissions, held, Bool.true_and]
  cases before : (owned.sys.files file).held with
  | true =>
      obtain ⟨admission, recorded, rightful, owner⟩ := invariant.admitted file before
      refine ⟨admission, by simpa using recorded, rightful, ?_⟩
      rw [owner, move.owner_kept (invariant.count_pos before)]
  | false =>
      obtain ⟨allowed, taken⟩ := move.newlyHeld invariant.opens before held
      refine ⟨_, if_pos rfl, ?_, rfl⟩
      rw [taken]
      exact allowed.rightful

theorem ownerRules_always (shared : kind = .uid ∨ kind = .wuid) (owner : Nat)
    (actions : List (AccessAction Pid File)) :
    StepMachine.Always (ownedStep kind creds) (OwnerRules kind creds) (.loaded Pid File owner)
      actions := by
  have initial : OwnedInvariant (OwnedSys.loaded Pid File owner) := by
    refine ⟨opensInvariant_loaded, ?_, ?_⟩
    · simp [OwnedSys.loaded, AccessSys.loaded, AccessSys.holders, Semaphore.weight,
        FileState.held]
    · intro file held
      simp [OwnedSys.loaded, AccessSys.loaded, FileState.held] at held
  refine StepMachine.always_of_meets ?_ (fun _ invariant => invariant.rules shared) initial
    (StepMachine.meets_true _ actions)
  intro state action next invariant _ taken
  exact ownedInvariant_step shared invariant taken

/-- Both devices keep the owner rules along any interleaving of opens and releases. -/
theorem sharedOpens_ownerRules (creds : Pid → Cred) (actions : List (AccessAction Pid File)) :
    StepMachine.Always (ownedStep .uid creds) (OwnerRules .uid creds) (.loaded Pid File 0)
        actions ∧
      StepMachine.Always (ownedStep .wuid creds) (OwnerRules .wuid creds)
        (.loaded Pid File 4294967295) actions :=
  ⟨ownerRules_always (Or.inl rfl) 0 actions, ownerRules_always (Or.inr rfl) 4294967295 actions⟩

end Owned

end Ldd3.Access
