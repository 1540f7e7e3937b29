import Mathlib.Tactic
import Ldd3.Lib.StepMachine
import Ldd3.Edu.Steps

/-!
Which transfer a completion belongs to: `edu_dma_transfers` against interrupts that come
late, after a wait that timed out.
-/

namespace Ldd3.Edu

def Handler.signals : Handler → List Nat
  | .idle => []
  | .acking signals => signals
  | .completing signals => signals

def Point.startsTransfer : Point → Bool
  | .locked request => request.directed
  | _ => false

def Point.writesRegister : Point → Bool
  | .writing _ _ => true
  | _ => false

section Machine

variable {Pid : Type}

def EduSys.signalled (sys : EduSys Pid) : List Nat :=
  sys.raising ++ sys.irqStatus ++ sys.handler.signals

def EduSys.outstanding (sys : EduSys Pid) : List Nat := sys.running ++ sys.signalled

/-- A transfer starts only when nothing of an earlier one is outstanding. -/
def StartsQuiet (sys : EduSys Pid) : EduAction Pid → Prop
  | .proceed pid _ _ =>
      (sys.points pid).startsTransfer = true → sys.inFlight = false → sys.outstanding = []
  | _ => True

instance (sys : EduSys Pid) (action : EduAction Pid) : Decidable (StartsQuiet sys action) := by
  cases action <;> simp only [StartsQuiet] <;> infer_instance

/-- Every call that has returned 0 did so when its own DMA had finished, and on no other
DMA's interrupt. -/
def ReturnsOwnDma (sys : EduSys Pid) : Prop :=
  ∀ pid outcome, sys.points pid = .returned outcome → outcome.ret = 0 →
    ∃ dma, outcome.dma = some dma ∧ dma ∉ sys.running ∧ ∀ signal ∈ outcome.signals, signal = dma

def WritesIdle (sys : EduSys Pid) : EduAction Pid → Prop
  | .proceed pid _ _ => (sys.points pid).writesRegister = true → sys.running = []
  | _ => True

instance (sys : EduSys Pid) (action : EduAction Pid) : Decidable (WritesIdle sys action) := by
  cases action <;> simp only [WritesIdle] <;> infer_instance

variable [DecidableEq Pid]

structure Tracked (commanded : Nat) (running raising irqStatus : List Nat) (handler : Handler)
    (done : List (List Nat)) : Prop where
  older : ∀ dma ∈ running ++ (raising ++ irqStatus ++ handler.signals), dma < commanded
  olderDone : ∀ signals ∈ done, ∀ dma ∈ signals, dma < commanded
  finished : ∀ dma ∈ raising ++ irqStatus ++ handler.signals, dma ∉ running
  finishedDone : ∀ signals ∈ done, ∀ dma ∈ signals, dma ∉ running
  distinct : running.Nodup
  read : handler ≠ .idle → handler.signals ≠ []
  named : ∀ signals ∈ done, signals ≠ []

def EduSys.Tracked (sys : EduSys Pid) : Prop :=
  Edu.Tracked sys.commands.length sys.running sys.raising sys.irqStatus sys.handler sys.done

omit [DecidableEq Pid] in
theorem tracked_loaded (memory : Memory) : (EduSys.loaded Pid memory).Tracked := by
  constructor <;> simp [EduSys.loaded, Handler.signals]

section Tracking

variable {commanded : Nat} {running raising irqStatus : List Nat} {handler : Handler}
  {done : List (List Nat)}

theorem Tracked.fewerDone {fewer : List (List Nat)}
    (tracked : Edu.Tracked commanded running raising irqStatus handler done)
    (kept : ∀ signals ∈ fewer, signals ∈ done) :
    Edu.Tracked commanded running raising irqStatus handler fewer where
  older := tracked.older
  olderDone := fun signals member => tracked.olderDone signals (kept signals member)
  finished := tracked.finished
  finishedDone := fun signals member => tracked.finishedDone signals (kept signals member)
  distinct := tracked.distinct
  read := tracked.read
  named := fun signals member => tracked.named signals (kept signals member)

theorem Tracked.fewerSignals {fewer : List Nat} {after : Handler} {latched : List Nat}
    (tracked : Edu.Tracked commanded running raising irqStatus handler done)
    (kept : ∀ dma ∈ fewer ++ latched ++ after.signals,
      dma ∈ raising ++ irqStatus ++ handler.signals)
    (read : after ≠ .idle → after.signals ≠ []) :
    Edu.Tracked commanded running fewer latched after done where
  older := by
    intro dma member
    apply tracked.older
    rw [List.mem_append] at member ⊢
    exact member.imp_right (kept dma)
  olderDone := tracked.olderDone
  finished := fun dma member => tracked.finished dma (kept dma member)
  finishedDone := tracked.finishedDone
  distinct := tracked.distinct
  read := read
  named := tracked.named

theorem Tracked.command (tracked : Edu.Tracked commanded running raising irqStatus handler done) :
    Edu.Tracked (commanded + 1) (running ++ [commanded]) raising irqStatus handler done where
  older := by
    intro dma member
    simp only [List.mem_append, List.mem_singleton] at member
    rcases member with (runs | rfl) | signalled
    · have bound := tracked.older dma (List.mem_append_left _ runs)
      omega
    · omega
    · have bound := tracked.older dma (List.mem_append_right _ (by simpa [or_assoc] using signalled))
      omega
  olderDone := by
    intro signals member dma signal
    have bound := tracked.olderDone signals member dma signal
    omega
  finished := by
    intro dma member
    have bound := tracked.older dma (List.mem_append_right _ member)
    have stopped := tracked.finished dma member
    simp only [List.mem_append, List.mem_singleton, not_or]
    exact ⟨stopped, by omega⟩
  finishedDone := by
    intro signals member dma signal
    have bound := tracked.olderDone signals member dma signal
    have stopped := tracked.finishedDone signals member dma signal
    simp only [List.mem_append, List.mem_singleton, not_or]
    exact ⟨stopped, by omega⟩
  distinct := by
    rw [List.nodup_append]
    refine ⟨tracked.distinct, List.nodup_singleton _, ?_⟩
    rintro dma runs other only rfl
    have bound := tracked.older dma (List.mem_append_left _ runs)
    simp only [List.mem_singleton] at only
    omega
  read := tracked.read
  named := tracked.named

theorem Tracked.stopped {dma : Nat}
    (tracked : Edu.Tracked commanded running raising irqStatus handler done) :
    Edu.Tracked commanded (running.erase dma) raising irqStatus handler done where
  older := by
    intro other member
    apply tracked.older
    rw [List.mem_append] at member ⊢
    exact member.imp_left List.mem_of_mem_erase
  olderDone := tracked.olderDone
  finished := fun other member runs => tracked.finished other member (List.mem_of_mem_erase runs)
  finishedDone := fun signals member other signal runs =>
    tracked.finishedDone signals member other signal (List.mem_of_mem_erase runs)
  distinct := tracked.distinct.erase dma
  read := tracked.read
  named := tracked.named

theorem Tracked.interrupt {dma : Nat} (older : dma < commanded) (stopped : dma ∉ running)
    (tracked : Edu.Tracked commanded running raising irqStatus handler done) :
    Edu.Tracked commanded running (raising ++ [dma]) irqStatus handler done where
  older := by
    intro other member
    simp only [List.mem_append, List.mem_singleton] at member
    rcases member with runs | ((raised | rfl) | latched) | read
    · exact tracked.older other (List.mem_append_left _ runs)
    · exact tracked.older other (by simp [raised])
    · exact older
    · exact tracked.older other (by simp [latched])
    · exact tracked.older other (by simp [read])
  olderDone := tracked.olderDone
  finished := by
    intro other member
    simp only [List.mem_append, List.mem_singleton] at member
    rcases member with ((raised | rfl) | latched) | read
    · exact tracked.finished other (by simp [raised])
    · exact stopped
    · exact tracked.finished other (by simp [latched])
    · exact tracked.finished other (by simp [read])
  finishedDone := tracked.finishedDone
  distinct := tracked.distinct
  read := tracked.read
  named := tracked.named

theorem Tracked.complete {signals : List Nat}
    (tracked : Edu.Tracked commanded running raising irqStatus handler done)
    (here : handler = .completing signals) :
    Edu.Tracked commanded running raising irqStatus handler (done ++ [signals]) where
  older := tracked.older
  olderDone := by
    intro other member dma signal
    simp only [List.mem_append, List.mem_singleton] at member
    rcases member with before | rfl
    · exact tracked.olderDone other before dma signal
    · exact tracked.older dma (by simp [here, Handler.signals, signal])
  finished := tracked.finished
  finishedDone := by
    intro other member dma signal
    simp only [List.mem_append, List.mem_singleton] at member
    rcases member with before | rfl
    · exact tracked.finishedDone other before dma signal
    · exact tracked.finished dma (by simp [here, Handler.signals, signal])
  distinct := tracked.distinct
  read := tracked.read
  named := by
    intro other member
    simp only [List.mem_append, List.mem_singleton] at member
    rcases member with before | rfl
    · exact tracked.named other before
    · have nonempty := tracked.read (by rw [here]; simp)
      rwa [here] at nonempty

end Tracking

/-! Where a DMA's interrupt goes: raised, latched, read by the handler, handled. -/

section Signalled

variable {raising irqStatus signals : List Nat} {dma : Nat}

theorem signalled_of_latched {raised : Nat} (here : raised ∈ raising)
    (member : dma ∈ raising.erase raised ++ (irqStatus ++ [raised]) ++ signals) :
    dma ∈ raising ++ irqStatus ++ signals := by
  simp only [List.mem_append, List.mem_singleton] at member ⊢
  rcases member with (raises | latched | rfl) | read
  · exact .inl (.inl (List.mem_of_mem_erase raises))
  · exact .inl (.inr latched)
  · exact .inl (.inl here)
  · exact .inr read

theorem signalled_of_read (member : dma ∈ raising ++ irqStatus ++ irqStatus) :
    dma ∈ raising ++ irqStatus ++ signals := by
  simp only [List.mem_append, or_assoc, or_self] at member ⊢
  exact member.imp_right .inl

theorem signalled_of_acked (member : dma ∈ raising ++ [] ++ signals) :
    dma ∈ raising ++ irqStatus ++ signals := by
  simp only [List.mem_append, List.not_mem_nil, or_false] at member ⊢
  exact member.imp_left .inl

theorem signalled_of_handled (member : dma ∈ raising ++ irqStatus ++ []) :
    dma ∈ raising ++ irqStatus ++ signals := by
  rw [List.append_nil] at member
  exact List.mem_append_left _ member

end Signalled

theorem EduMove.tracked {sys next : EduSys Pid} {action : EduAction Pid}
    (tracked : sys.Tracked) (move : EduMove sys action next) : next.Tracked := by
  cases move with
  | starts here clear => exact tracked.fewerDone (List.forall_mem_nil _)
  | completes here done =>
      apply tracked.fewerDone
      intro signals member
      rw [done]
      exact List.mem_cons_of_mem _ member
  | commands here goesOn =>
      have added := tracked.command
      simpa only [EduSys.Tracked, EduSys.setPoint, EduSys.command, List.length_append,
        List.length_singleton] using added
  | finishes runs raised =>
      rename_i dma memory raising
      have older := tracked.older dma (List.mem_append_left _ runs)
      have stopped : dma ∉ sys.running.erase dma := tracked.distinct.not_mem_erase
      rcases raised with rfl | rfl
      · exact tracked.stopped
      · exact tracked.stopped.interrupt older stopped
  | raises here => exact tracked.fewerSignals (fun _ => signalled_of_latched here) tracked.read
  | reads idle latched => exact tracked.fewerSignals (fun _ => signalled_of_read) (fun _ => latched)
  | acks here =>
      have read := tracked.read
      refine tracked.fewerSignals ?_ (fun _ => ?_)
      · rw [here]
        exact fun _ => signalled_of_acked
      · rw [here] at read
        exact read (by simp)
  | signals here inFlight =>
      exact (tracked.complete here).fewerSignals (fun _ => signalled_of_handled)
        (fun busy => absurd rfl busy)
  | ignores here =>
      exact tracked.fewerSignals (fun _ => signalled_of_handled) (fun busy => absurd rfl busy)
  | _ => exact tracked

def EduSys.Only (sys : EduSys Pid) (expected : Nat → Prop) : Prop :=
  (∀ dma ∈ sys.outstanding, expected dma) ∧ ∀ signals ∈ sys.done, ∀ dma ∈ signals, expected dma

def Own (sys : EduSys Pid) : Point → Prop
  | .choosing request => request.directed = true → sys.Only fun _ => False
  | .writing _ _ => sys.Only fun _ => False
  | .waiting dma | .polling dma => dma < sys.commands.length ∧ sys.Only fun other => other = dma
  | .ending outcome | .unlocking outcome | .returned outcome =>
      outcome.ret = 0 → ∃ dma, outcome.dma = some dma ∧ dma < sys.commands.length ∧
        dma ∉ sys.running ∧ ∀ signal ∈ outcome.signals, signal = dma
  | _ => True

structure Handshake (sys : EduSys Pid) : Prop where
  tracked : sys.Tracked
  locked : ∀ pid, (sys.points pid).holdsLock = true → sys.xferLock = some pid
  own : ∀ pid, Own sys (sys.points pid)

structure Narrows (sys next : EduSys Pid) : Prop where
  commands : sys.commands.length = next.commands.length
  running : ∀ dma ∈ next.running, dma ∈ sys.running
  outstanding : ∀ dma ∈ next.outstanding, dma ∈ sys.outstanding
  done : ∀ signals ∈ next.done, signals ∈ sys.done ∨ ∀ dma ∈ signals, dma ∈ sys.outstanding

omit [DecidableEq Pid] in
theorem Narrows.only {sys next : EduSys Pid} {expected : Nat → Prop} (narrows : Narrows sys next)
    (only : sys.Only expected) : next.Only expected := by
  refine ⟨fun dma member => only.1 dma (narrows.outstanding dma member), ?_⟩
  intro signals member dma signal
  rcases narrows.done signals member with before | outstanding
  · exact only.2 signals before dma signal
  · exact only.1 dma (outstanding dma signal)

omit [DecidableEq Pid] in
theorem Narrows.own {sys next : EduSys Pid} {point : Point} (narrows : Narrows sys next)
    (own : Own sys point) : Own next point := by
  have bound := narrows.commands
  have ended {outcome : Outcome} (own : Own sys (.returned outcome)) :
      Own next (.returned outcome) := by
    intro zero
    obtain ⟨dma, ours, older, stopped, signals⟩ := own zero
    exact ⟨dma, ours, by omega, fun runs => stopped (narrows.running dma runs), signals⟩
  cases point with
  | idle => trivial
  | locking request => trivial
  | locked request => trivial
  | choosing request => exact fun directed => narrows.only (own directed)
  | writing register regs => exact narrows.only own
  | waiting dma => exact ⟨bound ▸ own.1, narrows.only own.2⟩
  | polling dma => exact ⟨bound ▸ own.1, narrows.only own.2⟩
  | ending outcome => exact ended own
  | unlocking outcome => exact ended own
  | returned outcome => exact ended own

omit [DecidableEq Pid] in
theorem handshake_loaded (memory : Memory) : Handshake (EduSys.loaded Pid memory) where
  tracked := tracked_loaded memory
  locked := by
    intro pid holds
    contradiction
  own := fun pid => trivial

theorem setPoint_own (sys : EduSys Pid) {base : EduSys Pid} {pid : Pid} {point : Point}
    (points : base.points = sys.points) (others : ∀ other, other ≠ pid → Own base (sys.points other))
    (own : Own base point) (other : Pid) :
    Own (base.setPoint pid point) ((base.setPoint pid point).points other) := by
  have same (point' : Point) (holds : Own base point') : Own (base.setPoint pid point) point' := by
    cases point' <;> exact holds
  simp only [EduSys.setPoint, Function.update_apply, points]
  split
  · exact same point own
  · rename_i different
    exact same _ (others other different)

theorem setPoint_locked (sys : EduSys Pid) {base : EduSys Pid} {pid : Pid} {point : Point}
    (points : base.points = sys.points)
    (locked : ∀ other, other ≠ pid → (sys.points other).holdsLock = true → base.xferLock = some other)
    (own : point.holdsLock = true → base.xferLock = some pid) (other : Pid)
    (holds : ((base.setPoint pid point).points other).holdsLock = true) :
    (base.setPoint pid point).xferLock = some other := by
  simp only [EduSys.setPoint, Function.update_apply, points] at holds ⊢
  split at holds
  · rename_i same
    rw [same]
    exact own holds
  · rename_i different
    exact locked other different holds

theorem Handshake.moved {sys base : EduSys Pid} {pid : Pid} {point : Point}
    (handshake : Handshake sys) (tracked : base.Tracked) (points : base.points = sys.points)
    (narrows : Narrows sys base)
    (locked : ∀ other, other ≠ pid → (sys.points other).holdsLock = true →
      base.xferLock = some other)
    (takes : point.holdsLock = true → base.xferLock = some pid) (own : Own base point) :
    Handshake (base.setPoint pid point) where
  tracked := tracked
  locked := setPoint_locked sys points locked takes
  own := setPoint_own sys points (fun other _ => narrows.own (handshake.own other)) own

theorem Handshake.stepped {sys base : EduSys Pid} {pid : Pid} {point : Point}
    (handshake : Handshake sys) (tracked : base.Tracked) (points : base.points = sys.points)
    (narrows : Narrows sys base) (lock : base.xferLock = sys.xferLock)
    (kept : point.holdsLock = true → (sys.points pid).holdsLock = true) (own : Own base point) :
    Handshake (base.setPoint pid point) := by
  apply handshake.moved tracked points narrows _ _ own
  · intro other _ holds
    rw [lock]
    exact handshake.locked other holds
  · intro holds
    rw [lock]
    exact handshake.locked pid (kept holds)

omit [DecidableEq Pid] in
theorem narrows_refl (sys : EduSys Pid) : Narrows sys sys :=
  ⟨rfl, fun _ => id, fun _ => id, fun _ => .inl⟩

omit [DecidableEq Pid] in
theorem Handshake.device {sys next : EduSys Pid} (handshake : Handshake sys)
    (tracked : next.Tracked) (points : next.points = sys.points)
    (lock : next.xferLock = sys.xferLock) (narrows : Narrows sys next) : Handshake next where
  tracked := tracked
  locked := by
    intro pid holds
    rw [points] at holds
    rw [lock]
    exact handshake.locked pid holds
  own := by
    intro pid
    rw [points]
    exact narrows.own (handshake.own pid)

omit [DecidableEq Pid] in
theorem Handshake.signalled {sys : EduSys Pid} (handshake : Handshake sys)
    {raising irqStatus : List Nat} {handler : Handler} {done : List (List Nat)}
    (tracked : EduSys.Tracked
      { sys with raising := raising, irqStatus := irqStatus, handler := handler, done := done })
    (fewer : ∀ dma ∈ raising ++ irqStatus ++ handler.signals, dma ∈ sys.signalled)
    (completed : ∀ signals ∈ done, signals ∈ sys.done ∨ ∀ dma ∈ signals, dma ∈ sys.outstanding) :
    Handshake
      { sys with raising := raising, irqStatus := irqStatus, handler := handler, done := done } := by
  refine handshake.device tracked rfl rfl ⟨rfl, fun _ => id, ?_, completed⟩
  intro dma member
  rcases List.mem_append.mp member with runs | signalled
  · exact List.mem_append_left _ runs
  · exact List.mem_append_right _ (fewer dma signalled)

theorem handshake_commands {sys : EduSys Pid} {pid : Pid} {regs : DmaRegs} {point : Point}
    (handshake : Handshake sys) (tracked : (sys.command regs.cmd).Tracked)
    (here : sys.points pid = .writing .cmd regs)
    (goesOn : point = .waiting sys.commands.length ∨ point = .polling sys.commands.length) :
    Handshake ((sys.command regs.cmd).setPoint pid point) := by
  have holds : sys.xferLock = some pid := handshake.locked pid (by rw [here]; rfl)
  have quiet : sys.Only fun _ => False := by simpa only [here, Own] using handshake.own pid
  have commanded : (sys.command regs.cmd).commands.length = sys.commands.length + 1 := by
    simp only [EduSys.command, List.length_append, List.length_singleton]
  have ours : (sys.command regs.cmd).Only fun other => other = sys.commands.length := by
    refine ⟨?_, fun signals member dma signal => (quiet.2 signals member dma signal).elim⟩
    intro dma member
    simp only [EduSys.outstanding, EduSys.command, List.mem_append, List.mem_singleton] at member
    rcases member with (runs | new) | signalled
    · exact (quiet.1 dma (List.mem_append_left _ runs)).elim
    · exact new
    · exact (quiet.1 dma (List.mem_append_right _ signalled)).elim
  refine ⟨tracked, setPoint_locked sys rfl ?_ fun _ => holds, setPoint_own sys rfl ?_ ?_⟩
  · exact fun other _ => handshake.locked other
  · intro other different
    have own := handshake.own other
    have notHolding : (sys.points other).holdsLock = false := by
      rw [Bool.eq_false_iff]
      intro otherHolds
      have same := handshake.locked other otherHolds
      rw [holds, Option.some.injEq] at same
      exact different same.symm
    cases there : sys.points other with
    | idle => trivial
    | locking request => trivial
    | returned outcome =>
        intro zero
        rw [there] at own
        obtain ⟨dma, named, older, stopped, signals⟩ := own zero
        refine ⟨dma, named, by omega, ?_, signals⟩
        simp only [EduSys.command, List.mem_append, List.mem_singleton, not_or]
        exact ⟨stopped, by omega⟩
    | _ => simp [there, Point.holdsLock] at notHolding
  · rcases goesOn with rfl | rfl
    · exact ⟨by omega, ours⟩
    · exact ⟨by omega, ours⟩

omit [DecidableEq Pid] in
theorem Handshake.ownAt {sys : EduSys Pid} {pid : Pid} {point : Point} (handshake : Handshake sys)
    (here : sys.points pid = point) : Own sys point := by
  rw [← here]
  exact handshake.own pid

omit [DecidableEq Pid] in
theorem Handshake.completion {sys : EduSys Pid} (handshake : Handshake sys) {dma : Nat}
    {signals : List Nat} (own : Own sys (.waiting dma)) (done : signals ∈ sys.done) :
    dma ∉ sys.running ∧ ∀ signal ∈ signals, signal = dma := by
  have ours : ∀ signal ∈ signals, signal = dma := own.2.2 signals done
  obtain ⟨signal, member⟩ := List.exists_mem_of_ne_nil _ (handshake.tracked.named signals done)
  have finished := handshake.tracked.finishedDone signals done signal member
  rw [ours signal member] at finished
  exact ⟨finished, ours⟩

theorem handshake_step {sys next : EduSys Pid} {action : EduAction Pid}
    (handshake : Handshake sys) (quiet : StartsQuiet sys action) (move : EduMove sys action next) :
    Handshake next := by
  have tracked := move.tracked handshake.tracked
  cases move with
  | enters free =>
      exact handshake.stepped tracked rfl (narrows_refl sys) rfl (fun holds => by contradiction) trivial
  | fails before nonzero =>
      exact handshake.stepped tracked rfl (narrows_refl sys) rfl (fun holds => by contradiction)
        (fun zero => absurd zero nonzero)
  | locks here free =>
      refine handshake.moved tracked rfl ⟨rfl, fun _ => id, fun _ => id, fun _ => .inl⟩ ?_
        (fun _ => rfl) trivial
      intro other _ holds
      have taken := handshake.locked other holds
      rw [free] at taken
      contradiction
  | busy here inFlight =>
      refine handshake.stepped tracked rfl (narrows_refl sys) rfl (fun _ => by rw [here]; rfl) ?_
      intro zero
      contradiction
  | starts here clear =>
      have narrows : Narrows sys { sys with inFlight := true, done := [] } :=
        ⟨rfl, fun _ => id, fun _ => id, List.forall_mem_nil _⟩
      refine handshake.stepped tracked rfl narrows rfl (fun _ => by rw [here]; rfl) ?_
      intro directed
      have free : sys.outstanding = [] := quiet (by rw [here]; exact directed) clear
      refine ⟨?_, List.forall_mem_nil _⟩
      intro dma member
      change dma ∈ sys.outstanding at member
      rw [free] at member
      contradiction
  | chooses here directed =>
      have own := handshake.ownAt here
      exact handshake.stepped tracked rfl (narrows_refl sys) rfl (fun _ => by rw [here]; rfl)
        (own directed)
  | writes here =>
      have own := handshake.ownAt here
      exact handshake.stepped tracked rfl ⟨rfl, fun _ => id, fun _ => id, fun _ => .inl⟩ rfl
        (fun _ => by rw [here]; rfl) own
  | commands here goesOn => exact handshake_commands handshake tracked here goesOn
  | completes here done =>
      rename_i pid dma signals rest interrupted expired
      have own := handshake.ownAt here
      obtain ⟨stopped, ours⟩ := handshake.completion own (done ▸ List.mem_cons_self)
      have narrows : Narrows sys { sys with done := rest } := by
        refine ⟨rfl, fun _ => id, fun _ => id, ?_⟩
        intro later member
        left
        rw [done]
        exact List.mem_cons_of_mem _ member
      exact handshake.stepped tracked rfl narrows rfl (fun _ => by rw [here]; rfl)
        (fun _ => ⟨dma, rfl, own.1, stopped, ours⟩)
  | pollsDone here stopped =>
      rename_i pid dma interrupted expired
      have own := handshake.ownAt here
      refine handshake.stepped tracked rfl (narrows_refl sys) rfl (fun _ => by rw [here]; rfl) ?_
      intro _
      exact ⟨dma, rfl, own.1, by rw [stopped]; exact List.not_mem_nil, List.forall_mem_nil _⟩
  | givesUp holds nonzero =>
      exact handshake.stepped tracked rfl (narrows_refl sys) rfl (fun _ => holds)
        (fun zero => absurd zero nonzero)
  | ends here =>
      have own := handshake.ownAt here
      exact handshake.stepped tracked rfl ⟨rfl, fun _ => id, fun _ => id, fun _ => .inl⟩ rfl
        (fun _ => by rw [here]; rfl) own
  | unlocks here =>
      rename_i pid outcome interrupted expired
      have own := handshake.ownAt here
      have holds := handshake.locked pid (by rw [here]; rfl)
      refine handshake.moved tracked rfl ⟨rfl, fun _ => id, fun _ => id, fun _ => .inl⟩ ?_
        (fun held => by contradiction) own
      intro other different otherHolds
      have same := handshake.locked other otherHolds
      rw [holds, Option.some.injEq] at same
      exact absurd same.symm different
  | finishes runs raised =>
      rename_i dma memory raising
      refine handshake.device tracked rfl rfl ⟨rfl, fun _ => List.mem_of_mem_erase, ?_, fun _ => .inl⟩
      intro other member
      simp only [EduSys.outstanding, EduSys.signalled, List.mem_append] at member ⊢
      rcases member with still | (raises | latched) | read
      · exact .inl (List.mem_of_mem_erase still)
      · rcases raised with rfl | rfl
        · exact .inr (.inl (.inl raises))
        · rw [List.mem_append, List.mem_singleton] at raises
          rcases raises with before | rfl
          · exact .inr (.inl (.inl before))
          · exact .inl runs
      · exact .inr (.inl (.inr latched))
      · exact .inr (.inr read)
  | raises here =>
      exact handshake.signalled tracked (fun _ => signalled_of_latched here) (fun _ => .inl)
  | reads idle latched =>
      exact handshake.signalled tracked (fun _ => signalled_of_read) (fun _ => .inl)
  | acks here =>
      refine handshake.signalled tracked ?_ (fun _ => .inl)
      rw [EduSys.signalled, here]
      exact fun _ => signalled_of_acked
  | signals here inFlight =>
      refine handshake.signalled tracked (fun _ => signalled_of_handled) ?_
      intro later member
      rw [List.mem_append, List.mem_singleton] at member
      rcases member with before | rfl
      · exact .inl before
      · right
        intro dma signal
        simp only [EduSys.outstanding, EduSys.signalled, here, Handler.signals, List.mem_append]
        exact .inr (.inr signal)
  | ignores here =>
      exact handshake.signalled tracked (fun _ => signalled_of_handled) (fun _ => .inl)
  | same => exact handshake

omit [DecidableEq Pid] in
theorem Handshake.returnsOwnDma {sys : EduSys Pid} (handshake : Handshake sys) :
    ReturnsOwnDma sys := by
  intro pid outcome here zero
  have own := handshake.ownAt here
  obtain ⟨dma, named, _, stopped, signals⟩ := own zero
  exact ⟨dma, named, stopped, signals⟩

omit [DecidableEq Pid] in
theorem Handshake.writesIdle {sys : EduSys Pid} (handshake : Handshake sys)
    (action : EduAction Pid) : WritesIdle sys action := by
  cases action with
  | proceed pid interrupted expired =>
      intro writes
      have own := handshake.own pid
      cases here : sys.points pid with
      | writing register regs =>
          rw [here] at own
          rw [List.eq_nil_iff_forall_not_mem]
          intro dma runs
          exact own.1 dma (List.mem_append_left _ runs)
      | _ => simp [here, Point.writesRegister] at writes
  | _ => trivial

/-- When every transfer starts with nothing outstanding, a call that returns 0 has its own
DMA behind it, and the registers are left alone while a DMA runs. -/
theorem eduDmaTransfers_ownDma (interruptsEnabled : Bool) (memory : Memory)
    (actions : List (EduAction Pid))
    (quiet : StepMachine.Meets (eduStep interruptsEnabled) StartsQuiet (.loaded Pid memory) actions) :
    StepMachine.Always (eduStep interruptsEnabled) ReturnsOwnDma (.loaded Pid memory) actions ∧
      StepMachine.Meets (eduStep interruptsEnabled) WritesIdle (.loaded Pid memory) actions := by
  have preserved : ∀ (sys : EduSys Pid) action next, Handshake sys → StartsQuiet sys action →
      eduStep interruptsEnabled sys action = some next → Handshake next :=
    fun _ _ _ handshake quiet taken => handshake_step handshake quiet (eduStep_move taken)
  constructor
  · exact StepMachine.always_of_meets preserved (fun _ handshake => handshake.returnsOwnDma)
      (handshake_loaded memory) quiet
  · exact StepMachine.meets_of_meets preserved (fun _ action handshake _ => handshake.writesIdle action)
      (handshake_loaded memory) quiet

end Machine

def zeroed : Memory := { ram := fun _ => 0, dev := fun _ => 0 }

def transferTo (pid : Bool) : List (EduAction Bool) :=
  .call pid ⟨8192, EDU_DMA_DIR_RAM_TO_DEV, 16⟩ :: List.replicate 7 (.proceed pid false false)

def timeoutThenQuiet : List (EduAction Bool) :=
  transferTo true ++ [.proceed true false true, .proceed true false false, .proceed true false false,
    .finish 0, .raise 0, .irq true, .irq true, .irq true] ++ transferTo false ++
    [.finish 1, .raise 1, .irq true, .irq true, .irq true] ++
    List.replicate 3 (.proceed false false false)

theorem eduDmaTransfers_ownDma_afterTimeout :
    StepMachine.Always (eduStep true) ReturnsOwnDma (.loaded Bool zeroed) timeoutThenQuiet ∧
      StepMachine.Meets (eduStep true) WritesIdle (.loaded Bool zeroed) timeoutThenQuiet :=
  eduDmaTransfers_ownDma true zeroed timeoutThenQuiet (by decide +kernel)

def lateInterrupt : List (EduAction Bool) :=
  transferTo true ++ [.proceed true false true, .proceed true false false, .proceed true false false] ++
    transferTo false ++ [.finish 0, .raise 0, .irq true, .irq true, .irq true] ++
    List.replicate 3 (.proceed false false false)

theorem lateInterrupt_returns :
    (StepMachine.run (eduStep true) (.loaded Bool zeroed) lateInterrupt).map
      (fun sys => (sys.points false, sys.running)) = some (.returned ⟨some 1, 0, [0]⟩, [1]) := by
  decide +kernel

theorem eduDmaTransfers_takesLateInterrupt :
    ¬ StepMachine.Always (eduStep true) ReturnsOwnDma (.loaded Bool zeroed) lateInterrupt ∧
      ¬ StepMachine.Meets (eduStep true) WritesIdle (.loaded Bool zeroed) lateInterrupt := by
  constructor
  · intro always
    obtain ⟨sys, returnsOwn, last⟩ := always.observed lateInterrupt_returns
    rw [Prod.mk.injEq] at last
    obtain ⟨dma, named, stopped, _⟩ := returnsOwn false _ last.1 rfl
    rw [last.2] at stopped
    cases named
    exact stopped (List.mem_singleton.mpr rfl)
  · decide +kernel

end Ldd3.Edu
