import Mathlib.Tactic
import Ldd3.Lib.StepMachine
import Ldd3.Scull.Ioctl

/-!
What the return value of `scull_ioctl` says about the parameters, for any command word,
argument, capability and faults.
-/

namespace Ldd3.Scull

open CInt (int32)

def ioctlStep (globals : Geometry) (call : IoctlCall) : Option Geometry :=
  some (call.reply globals).globals

def Fails (ret : Int) : Prop := ret = -ENOTTY ∨ ret = -EFAULT ∨ ret = -EPERM ∨ ret = -EINVAL

instance (ret : Int) : Decidable (Fails ret) := by
  unfold Fails
  infer_instance

theorem fails_efault : Fails (-EFAULT) := by decide

theorem fails_einval : Fails (-EINVAL) := by decide

theorem not_fails_zero : ¬Fails 0 := by decide

def IoctlCall.Selects (call : IoctlCall) (command : IocCommand) : Prop :=
  ¬(iocType call.cmd ≠ SCULL_IOC_MAGIC ∨ SCULL_IOC_MAXNR < iocNr call.cmd) ∧
    ¬(iocDir call.cmd &&& (iocWrite ||| iocRead) ≠ 0 ∧
      call.env.accessOk call.arg (iocSize call.cmd) = false) ∧
    switchCase call.cmd = some command

/-- All that a command does to a parameter and to user memory was done. -/
def IocCommand.TakesEffect (env : IoctlEnv) : IocCommand → Prop
  | .reset => True
  | .set _ => env.capable = true ∧ env.userInt.isSome
  | .tell _ | .shift _ => env.capable = true
  | .exchange _ => env.capable = true ∧ env.userInt.isSome ∧ env.putFaults = false
  | .get _ | .query _ => False

structure Truthful (globals : Geometry) (call : IoctlCall) : Prop where
  failed : Fails (call.reply globals).ret → (call.reply globals).globals = globals
  succeeded : ∀ command, call.Selects command → command.TakesEffect call.env →
    ¬Fails (call.reply globals).ret

/-- `__get_user` finds an int, or the zero it leaves is what the parameter was. -/
def ReadsOrZero (env : IoctlEnv) (globals : Geometry) (register : Register) : Prop :=
  env.userInt = none → globals.get register = 0

/-- No reset succeeds and no tell does; the others must not fail half done, and a shift must
not hand back a value that looks like an error. -/
def IocCommand.TellsTruth (env : IoctlEnv) (globals : Geometry) : IocCommand → Prop
  | .reset => False
  | .set register => env.capable = true → ReadsOrZero env globals register
  | .tell _ => env.capable = false
  | .get _ | .query _ => True
  | .exchange register =>
      env.capable = true → ReadsOrZero env globals register ∧
        ∀ value, env.userInt = some value → env.putFaults = true →
          int32 value = globals.get register
  | .shift _ => env.capable = true → ¬Fails globals.quantum

def TellsTruth (globals : Geometry) (call : IoctlCall) : Prop :=
  ∀ command, call.Selects command → command.TellsTruth call.env globals

theorem fails_of_selects_none (globals : Geometry) {call : IoctlCall}
    (unselected : ∀ command, ¬call.Selects command) :
    ∃ ret, call.reply globals = ⟨globals, ret, none⟩ := by
  simp only [IoctlCall.reply, scullIoctl]
  split
  · exact ⟨_, rfl⟩
  · rename_i known
    split
    · exact ⟨_, rfl⟩
    · rename_i accessible
      cases selected : switchCase call.cmd with
      | none => exact ⟨_, rfl⟩
      | some command => exact absurd ⟨known, accessible, selected⟩ (unselected command)

theorem IoctlCall.reply_of_selects {globals : Geometry} {call : IoctlCall} {command : IocCommand}
    (selects : call.Selects command) :
    call.reply globals = ioctlCase call.env globals call.arg command := by
  obtain ⟨known, accessible, selected⟩ := selects
  rw [reply, scullIoctl, if_neg known, if_neg accessible, selected]

theorem IoctlCall.Selects.unique {call : IoctlCall} {command other : IocCommand}
    (selects : call.Selects command) (also : call.Selects other) : other = command :=
  Option.some.inj (also.2.2.symm.trans selects.2.2)

structure CaseTruthful (env : IoctlEnv) (globals : Geometry) (command : IocCommand)
    (reply : IoctlReply) : Prop where
  failed : Fails reply.ret → reply.globals = globals
  succeeded : command.TakesEffect env → ¬Fails reply.ret

section Cases

variable {env : IoctlEnv} {globals : Geometry} {register : Register}

theorem iocReset_untruthful : ¬CaseTruthful env globals .reset iocReset :=
  fun truthful => truthful.succeeded trivial fails_einval

theorem refused_truthful {command : IocCommand} (effect : command.TakesEffect env → False) :
    CaseTruthful env globals command ⟨globals, -EPERM, none⟩ :=
  ⟨fun _ => rfl, fun taken => (effect taken).elim⟩

theorem iocSet_truthful_iff : CaseTruthful env globals (.set register) (iocSet env globals register) ↔
    IocCommand.TellsTruth env globals (.set register) := by
  by_cases capable : env.capable = true
  · simp only [IocCommand.TellsTruth, capable, forall_const, iocSet, ↓reduceIte]
    cases found : env.userInt with
    | none =>
        have faulted : getUser env = (-EFAULT, 0) := by simp only [getUser, found]
        rw [faulted]
        constructor
        · intro truthful _
          have kept := truthful.failed fails_efault
          exact ((Geometry.set_eq_self_iff globals register 0).mp kept).symm
        · intro zero
          refine ⟨fun _ => ?_, fun effect => ?_⟩
          · exact (Geometry.set_eq_self_iff globals register 0).mpr (zero found).symm
          · simp [IocCommand.TakesEffect, found] at effect
    | some value =>
        have read : (getUser env).1 = 0 := by simp only [getUser, found]
        rw [read]
        refine iff_of_true ⟨fun fails => absurd fails not_fails_zero, fun _ => not_fails_zero⟩ ?_
        intro faulted
        simp [found] at faulted
  · have refused : iocSet env globals register = ⟨globals, -EPERM, none⟩ := by
      rw [iocSet, if_neg capable]
    rw [refused]
    exact iff_of_true (refused_truthful fun effect => capable effect.1)
      fun yes => absurd yes capable

theorem iocTell_truthful_iff (arg : Nat) :
    CaseTruthful env globals (.tell register) (iocTell env globals register arg) ↔
      IocCommand.TellsTruth env globals (.tell register) := by
  by_cases capable : env.capable = true
  · have told : iocTell env globals register arg =
        ⟨globals.set register (int32 arg), -EINVAL, none⟩ := by
      rw [iocTell, if_pos capable]
    rw [told]
    refine iff_of_false ?_ ?_
    · intro truthful
      exact truthful.succeeded capable fails_einval
    · simp [IocCommand.TellsTruth, capable]
  · have refused : iocTell env globals register arg = ⟨globals, -EPERM, none⟩ := by
      rw [iocTell, if_neg capable]
    rw [refused]
    exact iff_of_true (refused_truthful capable) (by simpa [IocCommand.TellsTruth] using capable)

theorem iocExchange_truthful_iff :
    CaseTruthful env globals (.exchange register) (iocExchange env globals register) ↔
      IocCommand.TellsTruth env globals (.exchange register) := by
  by_cases capable : env.capable = true
  · simp only [IocCommand.TellsTruth, capable, forall_const]
    have set_eq := Geometry.set_eq_self_iff globals register
    cases found : env.userInt with
    | none =>
        have faulted : iocExchange env globals register =
            ⟨globals.set register 0, -EFAULT, none⟩ := by
          simp only [iocExchange, capable, ↓reduceIte, getUser, found]
          rw [if_neg (by decide)]
        rw [faulted]
        constructor
        · intro truthful
          refine ⟨fun _ => ((set_eq 0).mp (truthful.failed fails_efault)).symm, ?_⟩
          intro value read
          contradiction
        · rintro ⟨zero, _⟩
          refine ⟨fun _ => (set_eq 0).mpr (zero found).symm, fun effect => ?_⟩
          simp [IocCommand.TakesEffect, found] at effect
    | some value =>
        have readsOrZero : ReadsOrZero env globals register := by
          intro faulted
          simp [found] at faulted
        have stored : iocExchange env globals register =
            ⟨globals.set register (int32 value), (putUser env (globals.get register)).1,
              (putUser env (globals.get register)).2⟩ := by
          simp only [iocExchange, capable, ↓reduceIte, getUser, found]
        rw [stored]
        by_cases faults : env.putFaults = true
        · have faulted : (putUser env (globals.get register)).1 = -EFAULT := by
            rw [putUser, if_pos faults]
          rw [faulted]
          constructor
          · intro truthful
            refine ⟨readsOrZero, ?_⟩
            intro other read _
            rw [← Option.some.inj read]
            exact (set_eq (int32 value)).mp (truthful.failed fails_efault)
          · rintro ⟨_, same⟩
            refine ⟨fun _ => (set_eq (int32 value)).mpr (same value rfl faults), ?_⟩
            intro effect
            exact absurd faults (by simp [effect.2.2])
        · have written : (putUser env (globals.get register)).1 = 0 := by
            rw [putUser, if_neg faults]
          rw [written]
          refine iff_of_true ⟨fun fails => absurd fails not_fails_zero, fun _ => not_fails_zero⟩ ?_
          exact ⟨readsOrZero, fun _ _ yes => absurd yes faults⟩
  · have refused : iocExchange env globals register = ⟨globals, -EPERM, none⟩ := by
      rw [iocExchange, if_neg capable]
    rw [refused]
    exact iff_of_true (refused_truthful fun effect => capable effect.1)
      fun yes => absurd yes capable

theorem iocShift_truthful_iff (arg : Nat) :
    CaseTruthful env globals (.shift register) (iocShift env globals .quantum arg) ↔
      IocCommand.TellsTruth env globals (.shift register) := by
  by_cases capable : env.capable = true
  · have shifted : iocShift env globals .quantum arg =
        ⟨globals.set .quantum (int32 arg), globals.quantum, none⟩ := by
      rw [iocShift, if_pos capable]
      rfl
    rw [shifted]
    simp only [IocCommand.TellsTruth, capable, forall_const]
    constructor
    · exact fun truthful => truthful.succeeded capable
    · exact fun succeeds => ⟨fun fails => absurd fails succeeds, fun _ => succeeds⟩
  · have refused : iocShift env globals .quantum arg = ⟨globals, -EPERM, none⟩ := by
      rw [iocShift, if_neg capable]
    rw [refused]
    exact iff_of_true (refused_truthful capable) fun yes => absurd yes capable

theorem ioctlCase_truthful_iff (arg : Nat) (command : IocCommand) :
    CaseTruthful env globals command (ioctlCase env globals arg command) ↔
      command.TellsTruth env globals := by
  cases command with
  | reset => exact iff_of_false iocReset_untruthful not_false
  | set register => exact iocSet_truthful_iff
  | tell register => exact iocTell_truthful_iff arg
  | get register => exact iff_of_true ⟨fun _ => rfl, False.elim⟩ trivial
  | query register => exact iff_of_true ⟨fun _ => rfl, False.elim⟩ trivial
  | exchange register => exact iocExchange_truthful_iff
  | shift register => cases register <;> exact iocShift_truthful_iff arg

end Cases

theorem truthful_iff (globals : Geometry) (call : IoctlCall) :
    Truthful globals call ↔ TellsTruth globals call := by
  by_cases selected : ∃ command, call.Selects command
  · obtain ⟨command, selects⟩ := selected
    have exactly : CaseTruthful call.env globals command (call.reply globals) ↔
        command.TellsTruth call.env globals := by
      rw [IoctlCall.reply_of_selects selects]
      exact ioctlCase_truthful_iff call.arg command
    constructor
    · intro truthful other also
      rw [selects.unique also]
      exact exactly.mp ⟨truthful.failed, truthful.succeeded command selects⟩
    · intro tells
      have truthful := exactly.mpr (tells command selects)
      refine ⟨truthful.failed, ?_⟩
      intro other also
      rw [selects.unique also]
      exact truthful.succeeded
  · have unselected := not_exists.mp selected
    obtain ⟨ret, replied⟩ := fails_of_selects_none globals unselected
    refine iff_of_true ⟨?_, ?_⟩ ?_
    · intro _
      rw [replied]
    · exact fun command selects => absurd selects (unselected command)
    · exact fun command selects => absurd selects (unselected command)

/-- Along any sequence of calls the return value can be trusted exactly when no call is a reset
or a permitted tell, none faults with a parameter changed, and no shift hands back the number
of an error. -/
theorem scullIoctl_truthful_iff (globals : Geometry) (calls : List IoctlCall) :
    StepMachine.Meets ioctlStep Truthful globals calls ↔
      StepMachine.Meets ioctlStep TellsTruth globals calls := by
  have same : Truthful = TellsTruth := by
    funext globals call
    exact propext (truthful_iff globals call)
  rw [same]

def resetIoctl : IoctlCall where
  env := { capable := true, accessOk := fun _ _ => true, userInt := none, putFaults := false }
  cmd := IocCommand.reset.word
  arg := 0

theorem resetIoctl_reports_failure :
    ¬ StepMachine.Meets ioctlStep Truthful ⟨512, 4⟩ [resetIoctl] := by
  intro meets
  have truthful := (meets ⟨SCULL_QUANTUM, SCULL_QSET⟩ rfl).1
  exact truthful.succeeded .reset (by refine ⟨?_, ?_, ?_⟩ <;> decide) trivial (by decide)

end Ldd3.Scull
