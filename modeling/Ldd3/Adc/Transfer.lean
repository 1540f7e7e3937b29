import Mathlib.Tactic
import Ldd3.Lib.StepMachine
import Ldd3.Lib.Token
import Ldd3.Adc.Core

/-!
The one SPI message of the asynchronous MCP3008 driver. The timer, any number of runs of
`mcp3008_work`, the bus and the completions take their statements in any order.
-/

namespace Ldd3.Adc

/-- Where a context stands, named after its next statement: in `mcp3008_work` up to `failedDone`,
in `mcp3008_async_complete` from `readRx` on. -/
inductive TransferPoint
  | idle
  | compare
  | reinit
  | prep
  | submit
  | failed
  | failedDone
  | readRx
  | push (value : Nat)
  | clear
  | finish
  deriving DecidableEq, Repr

/-- Behind a successful `atomic_cmpxchg`, or in a completion, and before the `atomic_set`. -/
def TransferPoint.owns : TransferPoint → Bool
  | .reinit | .prep | .submit | .failed | .readRx | .push _ | .clear => true
  | .idle | .compare | .failedDone | .finish => false

def TransferPoint.late (rx : Byte × Byte) : TransferPoint → List Nat
  | .readRx => [sampleValue rx.1 rx.2]
  | .push value => [value]
  | _ => []

structure Offered where
  value : Nat
  held : Nat
  deriving DecidableEq, Repr

def Offered.kept (offered : Offered) : Bool := offered.held < FIFO_SAMPLES

/-- `struct mcp3008_data` and the fifo. The message is `outstanding` from its submission until its
completion is called. Recorded are the number of submissions, the sample of each transfer that
the bus completed, those offered to the fifo and those popped from it. -/
structure TransferSys (Pid : Type) where
  currChannel : Nat
  tx : List Byte
  rx : Byte × Byte
  inProgress : Bool
  done : Nat
  workPending : Bool
  outstanding : Bool
  fifo : List Nat
  points : Pid → TransferPoint
  submissions : Nat
  transfers : List Nat
  offered : List Offered
  popped : List Nat

def TransferSys.probed (Pid : Type) : TransferSys Pid :=
  { currChannel := 0, tx := [0, 0, 0], rx := (0, 0), inProgress := false, done := 0
    workPending := false, outstanding := false, fifo := [], points := fun _ => .idle
    submissions := 0, transfers := [], offered := [], popped := [] }

inductive TransferAction (Pid : Type)
  | timer
  | runWork (pid : Pid)
  | callback (pid : Pid)
  | proceed (pid : Pid) (error : Bool)
  | bus (rx : Byte × Byte)
  | pop (count : Nat)

def mcp3008PrepCmd (channel : Nat) : List Byte :=
  [1, ((8 ||| channel % 8) <<< 4).toUInt8, 0]

section Machine

variable {Pid : Type} [DecidableEq Pid]

def TransferSys.setPoint (sys : TransferSys Pid) (pid : Pid) (point : TransferPoint) :
    TransferSys Pid :=
  { sys with points := Function.update sys.points pid point }

/-- The next statement of `mcp3008_work` or `mcp3008_async_complete`; `error` is whether
`spi_async` fails. -/
def statementStep (sys : TransferSys Pid) (pid : Pid) (error : Bool) :
    TransferPoint → Option (TransferSys Pid)
  | .idle => none
  | .compare =>
      if sys.inProgress then some (sys.setPoint pid .idle)
      else some ({ sys with inProgress := true }.setPoint pid .reinit)
  | .reinit => some ({ sys with done := 0 }.setPoint pid .prep)
  | .prep => some ({ sys with tx := mcp3008PrepCmd sys.currChannel }.setPoint pid .submit)
  | .submit =>
      if error then some (sys.setPoint pid .failed)
      else some ({ sys with
        outstanding := true
        submissions := sys.submissions + 1 }.setPoint pid .idle)
  | .failed => some ({ sys with inProgress := false }.setPoint pid .failedDone)
  | .failedDone => some ({ sys with done := sys.done + 1 }.setPoint pid .idle)
  | .readRx => some (sys.setPoint pid (.push (sampleValue sys.rx.1 sys.rx.2)))
  | .push value =>
      let offered := sys.offered ++ [⟨value, sys.fifo.length⟩]
      if sys.fifo.length < FIFO_SAMPLES then
        some ({ sys with fifo := sys.fifo ++ [value], offered := offered }.setPoint pid .clear)
      else some ({ sys with offered := offered }.setPoint pid .clear)
  | .clear => some ({ sys with inProgress := false }.setPoint pid .finish)
  | .finish => some ({ sys with done := sys.done + 1 }.setPoint pid .idle)

def transferStep (sys : TransferSys Pid) : TransferAction Pid → Option (TransferSys Pid)
  | .timer => some { sys with workPending := true }
  | .runWork pid =>
      if sys.workPending = true ∧ sys.points pid = .idle then
        some ({ sys with workPending := false }.setPoint pid .compare)
      else none
  | .callback pid =>
      if sys.outstanding = true ∧ sys.points pid = .idle then
        some ({ sys with
          outstanding := false
          transfers := sys.transfers ++ [sampleValue sys.rx.1 sys.rx.2] }.setPoint pid .readRx)
      else none
  | .proceed pid error => statementStep sys pid error (sys.points pid)
  | .bus rx => if sys.outstanding then some { sys with rx := rx } else none
  | .pop count =>
      some { sys with
        fifo := sys.fifo.drop count
        popped := sys.popped ++ sys.fifo.take count }

end Machine

section Safety

variable {Pid : Type}

/-- The one message and its buffers are used by one transfer at a time, and each transfer offers
one sample, which the fifo keeps unless it is full. -/
structure TransferSafe (sys : TransferSys Pid) : Prop where
  submit : ∀ pid, sys.points pid = .submit → sys.outstanding = false
  tx : ∀ pid, sys.points pid = .prep → sys.outstanding = false
  rx : ∀ pid, sys.points pid = .readRx → sys.outstanding = false
  flag : sys.inProgress = true ↔ sys.outstanding = true ∨ ∃ pid, (sys.points pid).owns = true
  one : ∀ first second, (sys.points first).owns = true → (sys.points second).owns = true →
    first = second
  submissions : sys.submissions = sys.transfers.length + if sys.outstanding then 1 else 0
  settled : (∀ pid, (sys.points pid).late sys.rx = []) →
    sys.offered.map Offered.value = sys.transfers
  late : ∀ pid, (sys.points pid).late sys.rx ≠ [] →
    sys.offered.map Offered.value ++ (sys.points pid).late sys.rx = sys.transfers
  kept : (sys.offered.filter Offered.kept).map Offered.value = sys.popped ++ sys.fifo
  full : ∀ offered ∈ sys.offered, offered.kept = false → offered.held = FIFO_SAMPLES

def TransferSys.late (sys : TransferSys Pid) : Option Pid → List Nat
  | none => []
  | some pid => (sys.points pid).late sys.rx

structure Carries (sys : TransferSys Pid) (holder : Option Pid) : Prop where
  held : Token.HeldBy TransferPoint.owns sys.points holder
  away : sys.outstanding = true → holder = none
  flag : sys.inProgress = true ↔ sys.outstanding = true ∨ holder ≠ none
  submissions : sys.submissions = sys.transfers.length + if sys.outstanding then 1 else 0
  samples : sys.transfers = sys.offered.map Offered.value ++ sys.late holder
  kept : (sys.offered.filter Offered.kept).map Offered.value = sys.popped ++ sys.fifo
  full : ∀ offered ∈ sys.offered, offered.kept = false → offered.held = FIFO_SAMPLES
  bounded : sys.fifo.length ≤ FIFO_SAMPLES

theorem carries_probed : Carries (.probed Pid) none where
  held := fun _ => iff_of_false Bool.false_ne_true (Option.some_ne_none _).symm
  away := fun _ => rfl
  flag := iff_of_false Bool.false_ne_true (by simp [TransferSys.probed])
  submissions := rfl
  samples := rfl
  kept := rfl
  full := fun _ listed => absurd listed List.not_mem_nil
  bounded := Nat.zero_le _

variable {sys next : TransferSys Pid} {holder : Option Pid} {pid : Pid} {point : TransferPoint}

theorem Carries.holder_of_owns (carries : Carries sys holder)
    (owns : (sys.points pid).owns = true) : holder = some pid ∧ sys.outstanding = false := by
  have here := (carries.held pid).mp owns
  refine ⟨here, ?_⟩
  by_contra away
  rw [carries.away (Bool.eq_true_of_not_eq_false away)] at here
  contradiction

variable [DecidableEq Pid]

theorem Carries.move (carries : Carries sys holder) (owns : point.owns = (sys.points pid).owns)
    (late : point.late sys.rx = (sys.points pid).late sys.rx) :
    Carries (sys.setPoint pid point) holder where
  held := carries.held.move owns
  away := carries.away
  flag := carries.flag
  submissions := carries.submissions
  samples := by
    rw [TransferSys.setPoint, carries.samples]
    congr 1
    cases holder with
    | none => rfl
    | some other =>
        simp only [TransferSys.late]
        by_cases here : other = pid
        · rw [here, Function.update_self, late]
        · rw [Function.update_of_ne here]
  kept := carries.kept
  full := carries.full
  bounded := carries.bounded

theorem Carries.give (carries : Carries sys (some pid)) (given : point.owns = false)
    (nothing : (sys.points pid).late sys.rx = []) :
    Carries ({ sys with inProgress := false }.setPoint pid point) none where
  held := carries.held.give given
  away := fun _ => rfl
  flag := by
    have here : sys.outstanding = false := by
      by_contra away
      exact absurd (carries.away (Bool.eq_true_of_not_eq_false away)) (Option.some_ne_none pid)
    simp only [TransferSys.setPoint, here, Bool.false_eq_true, ne_eq, not_true_eq_false, or_self]
  submissions := carries.submissions
  samples := by
    have samples := carries.samples
    simp only [TransferSys.late, nothing] at samples
    exact samples
  kept := carries.kept
  full := carries.full
  bounded := carries.bounded

theorem Carries.take (carries : Carries sys none) (free : sys.inProgress = false) :
    Carries ({ sys with inProgress := true }.setPoint pid .reinit) (some pid) where
  held := carries.held.take rfl
  away := by
    intro away
    have busy := carries.flag.mpr (.inl away)
    rw [free] at busy
    contradiction
  flag := iff_of_true rfl (.inr (Option.some_ne_none pid))
  submissions := carries.submissions
  samples := by
    have samples := carries.samples
    simp only [TransferSys.late, TransferSys.setPoint, Function.update_self, TransferPoint.late]
      at samples ⊢
    exact samples
  kept := carries.kept
  full := carries.full
  bounded := carries.bounded

theorem Carries.submit (carries : Carries sys (some pid)) (here : sys.points pid = .submit) :
    Carries ({ sys with
      outstanding := true
      submissions := sys.submissions + 1 }.setPoint pid .idle) none where
  held := carries.held.give rfl
  away := fun _ => rfl
  flag := iff_of_true (carries.flag.mpr (.inr (Option.some_ne_none pid))) (.inl rfl)
  submissions := by
    have before := carries.submissions
    have notAway : sys.outstanding = false := (carries.holder_of_owns (by rw [here]; rfl)).2
    rw [notAway] at before
    simp only [Bool.false_eq_true, ↓reduceIte, Nat.add_zero] at before
    simp only [TransferSys.setPoint, before, ↓reduceIte]
  samples := by
    have samples := carries.samples
    simp only [TransferSys.late, here, TransferPoint.late] at samples
    exact samples
  kept := carries.kept
  full := carries.full
  bounded := carries.bounded

theorem Carries.callback (carries : Carries sys holder) (away : sys.outstanding = true) :
    Carries ({ sys with
      outstanding := false
      transfers := sys.transfers ++ [sampleValue sys.rx.1 sys.rx.2] }.setPoint pid .readRx)
      (some pid) := by
  have free := carries.away away
  subst free
  have flag := carries.flag.mpr (.inl away)
  have before := carries.submissions
  have samples := carries.samples
  rw [away, if_pos rfl] at before
  simp only [TransferSys.late, List.append_nil] at samples
  exact {
    held := carries.held.take rfl
    away := fun still => absurd still Bool.false_ne_true
    flag := iff_of_true flag (.inr (Option.some_ne_none pid))
    submissions := by
      simp only [TransferSys.setPoint, before, List.length_append, List.length_singleton,
        Bool.false_eq_true, ↓reduceIte, Nat.add_zero]
    samples := by
      simp only [TransferSys.setPoint, TransferSys.late, Function.update_self,
        TransferPoint.late, samples]
    kept := carries.kept
    full := carries.full
    bounded := carries.bounded }

theorem Carries.push {value : Nat} {error : Bool} (carries : Carries sys (some pid))
    (here : sys.points pid = .push value)
    (taken : statementStep sys pid error (.push value) = some next) : Carries next (some pid) := by
  have samples := carries.samples
  have kept := carries.kept
  have bounded := carries.bounded
  have held : Token.HeldBy TransferPoint.owns (Function.update sys.points pid .clear)
      (some pid) := carries.held.move (by rw [here]; rfl)
  simp only [TransferSys.late, here, TransferPoint.late] at samples
  have fullNow : ∀ offered ∈ sys.offered ++ [⟨value, sys.fifo.length⟩], offered.kept = false →
      offered.held = FIFO_SAMPLES := by
    intro offered listed dropped
    rcases List.mem_append.mp listed with before | new
    · exact carries.full offered before dropped
    · rw [List.mem_singleton] at new
      subst new
      simp only [Offered.kept, decide_eq_false_iff_not] at dropped
      simp only
      omega
  have put : sys.transfers =
      (sys.offered ++ [Offered.mk value sys.fifo.length]).map Offered.value := by
    rw [samples, List.map_append, List.map_singleton]
  simp only [statementStep] at taken
  split at taken
  · rename_i room
    rw [← Option.some.inj taken]
    refine ⟨held, carries.away, carries.flag, carries.submissions, ?_, ?_, fullNow, ?_⟩
    · simp only [TransferSys.setPoint, TransferSys.late, Function.update_self, TransferPoint.late,
        List.append_nil, put]
    · have keeps : Offered.kept ⟨value, sys.fifo.length⟩ = true := decide_eq_true room
      simp only [TransferSys.setPoint, List.filter_append, List.map_append, kept,
        List.filter_cons_of_pos keeps, List.filter_nil, List.map_singleton, List.append_assoc]
    · simp only [TransferSys.setPoint, List.length_append, List.length_singleton]
      exact room
  · rename_i full
    rw [← Option.some.inj taken]
    refine ⟨held, carries.away, carries.flag, carries.submissions, ?_, ?_, fullNow, bounded⟩
    · simp only [TransferSys.setPoint, TransferSys.late, Function.update_self, TransferPoint.late,
        List.append_nil, put]
    · have drops : ¬Offered.kept ⟨value, sys.fifo.length⟩ = true := by
        rw [Offered.kept, decide_eq_true_eq]
        exact full
      simp only [TransferSys.setPoint, List.filter_append, kept, List.filter_cons_of_neg drops,
        List.filter_nil, List.append_nil]

theorem statementStep_carries {error : Bool} (carries : Carries sys holder)
    (taken : statementStep sys pid error (sys.points pid) = some next) :
    ∃ other, Carries next other := by
  have mine (owns : (sys.points pid).owns = true) := (carries.holder_of_owns owns).1
  cases here : sys.points pid with
  | idle =>
      rw [here] at taken
      contradiction
  | compare =>
      simp only [here, statementStep] at taken
      split at taken
      · rw [← Option.some.inj taken]
        exact ⟨holder, carries.move (by rw [here]; rfl) (by rw [here]; rfl)⟩
      · rename_i free
        rw [← Option.some.inj taken]
        have nobody : holder = none := by
          by_contra some
          exact free (carries.flag.mpr (.inr some))
        subst nobody
        exact ⟨_, carries.take (Bool.eq_false_of_not_eq_true free)⟩
  | reinit =>
      simp only [here, statementStep, Option.some.injEq] at taken
      have changed : Carries { sys with done := 0 } holder := { carries with }
      exact ⟨holder, taken ▸ changed.move (by rw [here]; rfl) (by rw [here]; rfl)⟩
  | prep =>
      simp only [here, statementStep, Option.some.injEq] at taken
      have changed : Carries { sys with tx := mcp3008PrepCmd sys.currChannel } holder :=
        { carries with }
      exact ⟨holder, taken ▸ changed.move (by rw [here]; rfl) (by rw [here]; rfl)⟩
  | submit =>
      have owner := mine (by rw [here]; rfl)
      subst owner
      simp only [here, statementStep] at taken
      split at taken
      · rw [← Option.some.inj taken]
        exact ⟨_, carries.move (by rw [here]; rfl) (by rw [here]; rfl)⟩
      · rw [← Option.some.inj taken]
        exact ⟨_, carries.submit here⟩
  | failed | clear =>
      have owner := mine (by rw [here]; rfl)
      subst owner
      simp only [here, statementStep, Option.some.injEq] at taken
      exact ⟨none, taken ▸ carries.give rfl (by rw [here]; rfl)⟩
  | failedDone | finish =>
      simp only [here, statementStep, Option.some.injEq] at taken
      have changed : Carries { sys with done := sys.done + 1 } holder := { carries with }
      exact ⟨holder, taken ▸ changed.move (by rw [here]; rfl) (by rw [here]; rfl)⟩
  | readRx =>
      simp only [here, statementStep, Option.some.injEq] at taken
      exact ⟨holder, taken ▸ carries.move (by rw [here]; rfl) (by rw [here]; rfl)⟩
  | push value =>
      have owner := mine (by rw [here]; rfl)
      subst owner
      rw [here] at taken
      exact ⟨_, carries.push here taken⟩

theorem transferStep_carries {action : TransferAction Pid} (carries : ∃ holder, Carries sys holder)
    (taken : transferStep sys action = some next) : ∃ holder, Carries next holder := by
  obtain ⟨holder, carries⟩ := carries
  cases action with
  | timer =>
      simp only [transferStep, Option.some.injEq] at taken
      exact ⟨holder, taken ▸ { carries with }⟩
  | runWork pid =>
      simp only [transferStep, Option.ite_none_right_eq_some, Option.some.injEq] at taken
      obtain ⟨⟨_, idle⟩, rfl⟩ := taken
      have changed : Carries { sys with workPending := false } holder := { carries with }
      exact ⟨holder, changed.move (by rw [idle]; rfl) (by rw [idle]; rfl)⟩
  | callback pid =>
      simp only [transferStep, Option.ite_none_right_eq_some, Option.some.injEq] at taken
      obtain ⟨⟨away, _⟩, rfl⟩ := taken
      exact ⟨_, carries.callback away⟩
  | proceed pid error => exact statementStep_carries carries taken
  | bus rx =>
      simp only [transferStep, Option.ite_none_right_eq_some, Option.some.injEq] at taken
      obtain ⟨away, rfl⟩ := taken
      have nobody := carries.away away
      subst nobody
      exact ⟨none, { carries with }⟩
  | pop count =>
      simp only [transferStep, Option.some.injEq] at taken
      subst taken
      refine ⟨holder, { carries with kept := ?_, bounded := ?_ }⟩
      · rw [carries.kept, List.append_assoc, List.take_append_drop]
      · rw [List.length_drop]
        exact (Nat.sub_le _ _).trans carries.bounded

omit [DecidableEq Pid] in
theorem Carries.safe (carries : Carries sys holder) : TransferSafe sys where
  submit := fun pid here => (carries.holder_of_owns (by rw [here]; rfl : (sys.points pid).owns = true)).2
  tx := fun pid here => (carries.holder_of_owns (by rw [here]; rfl : (sys.points pid).owns = true)).2
  rx := fun pid here => (carries.holder_of_owns (by rw [here]; rfl : (sys.points pid).owns = true)).2
  flag := by rw [carries.flag, carries.held.exists_iff]
  one := fun _ _ firstOwns secondOwns => carries.held.exclusive firstOwns secondOwns
  submissions := carries.submissions
  settled := by
    intro nothing
    have samples := carries.samples
    cases holder with
    | none => rw [samples, TransferSys.late, List.append_nil]
    | some pid => rw [samples, TransferSys.late, nothing pid, List.append_nil]
  late := by
    intro pid waiting
    have owns : (sys.points pid).owns = true := by
      cases here : sys.points pid <;> simp_all [TransferPoint.late, TransferPoint.owns]
    have samples := carries.samples
    rw [(carries.holder_of_owns owns).1] at samples
    exact samples.symm
  kept := carries.kept
  full := carries.full

theorem mcp3008_transfers_safe (actions : List (TransferAction Pid)) :
    StepMachine.Always transferStep TransferSafe (.probed Pid) actions :=
  StepMachine.always_of_meets (fun _ _ _ carries _ taken => transferStep_carries carries taken)
    (fun _ carries => carries.choose_spec.safe) ⟨none, carries_probed⟩
    (StepMachine.meets_true _ actions)

end Safety

end Ldd3.Adc
