import Mathlib.Tactic
import Ldd3.Uac.Channels
import Ldd3.Uac.Printed
import Ldd3.Uac.Range
import Ldd3.Uac.Snap

/-!
The tool, the driver and the device together: `uacctl set-vol` and `uacctl --raw get-vol` one after
the other, with any of their requests failing.
-/

namespace Ldd3.Uac

open CInt (int32)

/-- A device that always answers the same to the queries of its range, and what the driver keeps
of it. -/
structure Audio where
  unit : FeatureUnit
  range : ControlMsg → BitVec 16

def Audio.device (audio : Audio) (query : ControlMsg → ControlEnv) : Device :=
  fun msg => ⟨query msg, audio.range msg⟩

/-- The driver has found the unit and read its range from the device, which is not empty and has a
step. -/
structure Audio.Probed (audio : Audio) : Prop where
  found : ∃ query interfaceNumber extra,
    uacProbeUnit (audio.device query) interfaceNumber extra = .ok (some audio.unit)
  step : 0 < audio.unit.resVol.toInt
  ordered : audio.unit.minVol.toInt ≤ audio.unit.maxVol.toInt

structure ToolEnv where
  query : ControlMsg → ControlEnv
  left : ControlEnv
  right : ControlEnv

/-- `volume` is what the last successful `set-vol` passed to the ioctl, unless one failed later that
changed the device. -/
structure Session where
  sys : VolumeSys
  volume : Option Int

/-- The driver writes an `s16` to the address of an `int`. -/
def storeShort (v : Int) (vol : BitVec 16) : Int := int32 (v / 65536 * 65536 + vol.toNat)

def ioctlGetInt (v : Int) (got : Except Int (BitVec 16)) : Option Int :=
  got.toOption.map (storeShort v)

def Audio.limits (audio : Audio) (env : ToolEnv) : Option Limits :=
  let device := audio.device env.query
  loadLimits (ioctlGetInt 0 (uacGetVolume audio.unit device UAC_GET_MIN))
    (ioctlGetInt 0 (uacGetVolume audio.unit device UAC_GET_MAX))
    (ioctlGetInt 0 (uacGetVolume audio.unit device UAC_GET_RES))

/-- The driver reads an `s16` from the address of an `int`. -/
def ioctlSetVol (audio : Audio) (env : ToolEnv) (val : Int) : Except Oops VolumeReply :=
  uacIoctlSetVol audio.unit env.left env.right (some (BitVec.ofInt 16 val))

/-- `set-vol`, which sends nothing unless its argument is a volume. -/
def toolSetVol (audio : Audio) (strtod : Strtod) (env : ToolEnv) (session : Session)
    (command : Command) : Except Oops (Session × Int) :=
  match (setVol strtod (audio.limits env) true command).sent with
  | none => .ok (session, (setVol strtod (audio.limits env) false command).rc)
  | some q88 => do
      let reply ← ioctlSetVol audio env q88
      let sys := session.sys.afterSet env.left env.right reply
      let volume :=
        if 0 ≤ reply.ret then some q88 else if sys = session.sys then session.volume else none
      return (⟨sys, volume⟩, (setVol strtod (audio.limits env) (0 ≤ reply.ret) command).rc)

def toolGetVol (audio : Audio) (env : ToolEnv) (session : Session) : Option (List Char) := do
  let _ ← audio.limits env
  let v ← ioctlGetInt 0 (uacIoctlGetVol audio.unit (session.sys.device env.left env.right) false)
  return printRaw (se16 v)

def setVolCommand (text : Arg) : Command where
  dev := defaultDev
  fmt := .FMT_DEFAULT
  fmtSeen := false
  cmd := setVolWord
  args := [text]

/-- The volume is a step of the device, or the top of its range from which the driver rounds up,
to a step that 16 bits still hold. -/
def Keeps (unit : FeatureUnit) (q88 : Int) : Prop :=
  unit.resVol.toInt ∣ q88 - unit.minVol.toInt ∨
    q88 = unit.maxVol.toInt ∧ q88 ≤ unit.stepped unit.maxVol ∧ unit.stepped unit.maxVol ≤ 32767

instance (unit : FeatureUnit) (q88 : Int) : Decidable (Keeps unit q88) :=
  inferInstanceAs (Decidable (_ ∨ _))

/-- The loudest volume is between two steps, and the next one is past 16 bits. -/
example : ¬Keeps ⟨0, 32767, 2, 2, 0⟩ 32767 := by decide

section Limits

variable {audio : Audio} {env : ToolEnv} {unit : FeatureUnit} {device : Device} {parameter : Nat}

theorem se16_storeShort (vol : BitVec 16) : se16 (storeShort 0 vol) = vol.toInt := by
  have bound := vol.isLt
  have stored : storeShort 0 vol = (vol.toNat : Int) := by
    have low : (0 : Int) / 65536 * 65536 + vol.toNat = vol.toNat := by omega
    rw [storeShort, low]
    exact CInt.int32_of_fits ⟨by omega, by omega⟩
  rw [se16, stored, BitVec.ofInt_natCast, BitVec.ofNat_toNat, BitVec.setWidth_eq]

theorem ioctlGetInt_eq {v : Int} (got : ioctlGetInt 0 (uacGetVolume unit device parameter) = some v) :
    se16 v = (device.averages unit parameter).toInt := by
  by_cases answers : device.Answers unit parameter
  · rw [getVolume_of_answers answers] at got
    rw [← Option.some.inj got, se16_storeShort]
  · obtain ⟨ret, failed, _⟩ := getVolume_fails answers
    rw [failed] at got
    contradiction

theorem Audio.Probed.averages_eq (probed : audio.Probed) (query : ControlMsg → ControlEnv) :
    (audio.device query).averages audio.unit UAC_GET_MIN = audio.unit.minVol ∧
      (audio.device query).averages audio.unit UAC_GET_MAX = audio.unit.maxVol ∧
      (audio.device query).averages audio.unit UAC_GET_RES = audio.unit.resVol := by
  obtain ⟨_, _, _, found⟩ := probed.found
  obtain ⟨_, _, _, built⟩ := probeUnit_eq_iff.mp found
  rw [built]
  exact ⟨rfl, rfl, rfl⟩

theorem limits_eq (probed : audio.Probed) {limits : Limits}
    (loaded : audio.limits env = some limits) :
    limits.minv = audio.unit.minVol.toInt ∧ limits.maxv = audio.unit.maxVol.toInt ∧
      limits.resv = audio.unit.resVol.toInt := by
  simp only [Audio.limits, loadLimits] at loaded
  obtain ⟨minv, gotMin, loaded⟩ := Option.bind_eq_some_iff.mp loaded
  obtain ⟨maxv, gotMax, loaded⟩ := Option.bind_eq_some_iff.mp loaded
  obtain ⟨resv, gotRes, loaded⟩ := Option.bind_eq_some_iff.mp loaded
  have minEq := ioctlGetInt_eq gotMin
  have maxEq := ioctlGetInt_eq gotMax
  have resEq := ioctlGetInt_eq gotRes
  obtain ⟨quietest, loudest, smallest⟩ := probed.averages_eq env.query
  rw [quietest] at minEq
  rw [loudest] at maxEq
  rw [smallest] at resEq
  have step := probed.step
  have ordered := probed.ordered
  rw [← Option.some.inj loaded]
  simp only [minEq, maxEq, resEq, min_eq_left ordered, max_eq_right ordered,
    if_neg (not_le.mpr step), and_self]

end Limits

/-! The two roundings. -/

section Rounds

variable {unit : FeatureUnit} {q88 : Int} {value : BitVec 16}

theorem stepped_eq (unit : FeatureUnit) (vol : BitVec 16) :
    unit.stepped vol = unit.minVol.toInt +
      nearestMultiple unit.resVol.toInt (vol.toInt - unit.minVol.toInt) := by
  rw [FeatureUnit.stepped, nearestStep_mul]

theorem keeps_top {vol : BitVec 16} (top : vol.toInt = unit.maxVol.toInt) : vol = unit.maxVol :=
  BitVec.eq_of_toInt_eq top

theorem Keeps.fits {vol : BitVec 16} (accepts : unit.Accepts vol) (keeps : Keeps unit vol.toInt) :
    unit.stepped vol ≤ 32767 := by
  rcases keeps with grid | ⟨top, _, fits⟩
  · have upper := vol.toInt_lt
    rw [stepped_eq, nearestMultiple_of_dvd accepts.step grid]
    omega
  · rwa [keeps_top top]

theorem ideal_same_iff {vol : BitVec 16} (accepts : unit.Accepts vol)
    (fits : unit.stepped vol ≤ 32767) :
    idealVolume vol.toInt unit.minVol.toInt unit.maxVol.toInt unit.resVol.toInt = vol.toInt ↔
      Keeps unit vol.toInt := by
  have step : stepOf unit.resVol.toInt = unit.resVol.toInt := if_neg (not_le.mpr accepts.step)
  have bounds := accepts.stepped_bounds
  have above := accepts.above
  have below := accepts.below
  have clamped : idealVolume vol.toInt unit.minVol.toInt unit.maxVol.toInt unit.resVol.toInt =
      max unit.minVol.toInt (min unit.maxVol.toInt (unit.stepped vol)) := by
    rw [idealVolume, step, stepped_eq]
  constructor
  · intro same
    rcases idealVolume_grid vol.toInt unit.minVol.toInt unit.maxVol.toInt unit.resVol.toInt with
      top | grid
    · have loudest := keeps_top (same.symm.trans top)
      refine .inr ⟨same.symm.trans top, ?_⟩
      rw [← loudest]
      exact ⟨by omega, fits⟩
    · rw [step, same] at grid
      exact .inl grid
  · rintro (grid | ⟨top, reaches, _⟩)
    · exact idealVolume_of_grid above below (step.symm ▸ grid)
    · rw [keeps_top top] at clamped bounds ⊢
      rw [keeps_top top] at reaches
      omega

theorem wraps_cases {vol : BitVec 16} (accepts : unit.Accepts vol)
    (past : 32767 < unit.stepped vol) (rounded : roundVolume unit vol = .ok value) :
    value = unit.minVol ∨ value.toInt = unit.stepped vol - 65536 := by
  have bounds := accepts.stepped_bounds
  have above := accepts.above
  have below := accepts.below
  have volUpper := vol.toInt_lt
  have resUpper := unit.resVol.toInt_lt
  have minLower := unit.minVol.le_toInt
  have narrowed := toInt_narrowed (by omega : -32768 ≤ unit.stepped vol) (by omega)
  rw [if_neg (by omega)] at narrowed
  rw [accepts.roundVolume_eq, if_neg (by omega), Except.ok.injEq] at rounded
  rw [← rounded]
  split
  · exact .inl rfl
  · exact .inr narrowed

theorem rounds_same_iff {vol : BitVec 16} (accepts : unit.Accepts vol)
    (rounded : roundVolume unit vol = .ok value) : value = vol ↔ Keeps unit vol.toInt := by
  by_cases fits : unit.stepped vol ≤ 32767
  · obtain ⟨other, roundedOther, snaps⟩ := accepts.roundVolume_snaps fits
    rw [rounded, Except.ok.injEq] at roundedOther
    rw [← roundedOther, snapToRes_eq_ideal (accepts.above.trans accepts.below)] at snaps
    rw [← ideal_same_iff accepts fits, ← snaps]
    exact ⟨congrArg BitVec.toInt, BitVec.eq_of_toInt_eq⟩
  · refine iff_of_false ?_ fun keeps => fits (keeps.fits accepts)
    rintro rfl
    have bounds := accepts.stepped_bounds
    have minUpper := unit.minVol.toInt_lt
    have resUpper := unit.resVol.toInt_lt
    rcases wraps_cases accepts (not_le.mp fits) rounded with quietest | wrapped
    · have least := accepts.stepped_least (congrArg BitVec.toInt quietest)
      omega
    · omega

end Rounds

/-! One invocation. -/

section Invocations

variable {audio : Audio} {strtod : Strtod} {env : ToolEnv} {session next : Session}
  {command : Command} {q88 : Int} {rc : Int}

theorem sent_accepted (probed : audio.Probed)
    (sent : (setVol strtod (audio.limits env) true command).sent = some q88) :
    (BitVec.ofInt 16 q88).toInt = q88 ∧ audio.unit.Accepts (BitVec.ofInt 16 q88) := by
  obtain ⟨limits, loaded, above, below⟩ := setVol_sent sent
  obtain ⟨minEq, maxEq, _⟩ := limits_eq probed loaded
  rw [minEq] at above
  rw [maxEq] at below
  have lower := audio.unit.minVol.le_toInt
  have upper := audio.unit.maxVol.toInt_lt
  have same := toInt_narrowed (by omega : -32768 ≤ q88) (by omega)
  rw [if_pos (by omega)] at same
  exact ⟨same, probed.step, same.symm ▸ above, same.symm ▸ below⟩

theorem setVol_fails (limits : Option Limits) : (setVol strtod limits false command).rc ≠ 0 := by
  unfold setVol
  split
  · decide
  · decide
  · split
    · decide
    · exact Int.one_ne_zero

theorem setVol_succeeds {limits : Option Limits}
    (sent : (setVol strtod limits true command).sent = some q88) :
    (setVol strtod limits true command).rc = 0 := by
  unfold setVol at sent ⊢
  split at sent
  · contradiction
  · contradiction
  · split at sent
    · contradiction
    · simp only [if_true]

inductive SetMove (audio : Audio) (strtod : Strtod) (env : ToolEnv) (session : Session)
    (command : Command) (next : Session) (rc : Int) : Prop
  | quiet (unsent : ∀ q88, (setVol strtod (audio.limits env) true command).sent = some q88 →
      ¬(env.left.Answered ∧ env.right.Answered)) (failed : rc ≠ 0) (same : next = session)
  | broke (unanswered : ¬(env.left.Answered ∧ env.right.Answered)) (failed : rc ≠ 0)
      (none : next.volume = none)
  | set (q88 : Int) (value : BitVec 16) (answered : env.left.Answered ∧ env.right.Answered)
      (sent : (setVol strtod (audio.limits env) true command).sent = some q88)
      (rounded : roundVolume audio.unit (BitVec.ofInt 16 q88) = .ok value) (done : rc = 0)
      (built : next = ⟨.equal value, some q88⟩)

theorem toolSetVol_moves (probed : audio.Probed)
    (returned : toolSetVol audio strtod env session command = .ok (next, rc)) :
    SetMove audio strtod env session command next rc := by
  rw [toolSetVol] at returned
  cases sent : (setVol strtod (audio.limits env) true command).sent with
  | none =>
      simp only [sent, Except.ok.injEq, Prod.mk.injEq] at returned
      exact .quiet (by simp [sent]) (returned.2 ▸ setVol_fails _) returned.1.symm
  | some q88 =>
      obtain ⟨same, accepts⟩ := sent_accepted probed sent
      simp only [sent] at returned
      obtain ⟨reply, replied, returned⟩ := bind_eq_ok_iff.mp returned
      simp only [pure, Except.pure, Except.ok.injEq, Prod.mk.injEq] at returned
      obtain ⟨rfl, rfl⟩ := returned
      have outcome := setVolume_outcome replied session.sys
      generalize after : session.sys.afterSet env.left env.right reply = sys at outcome ⊢
      generalize reply.ret = ret at outcome ⊢
      cases outcome with
      | refused error unanswered =>
          refine .quiet ?_ ?_ ?_
          · intro _ _ answered
            exact unanswered _ rfl ⟨accepts.above, accepts.below⟩ answered.1
          · simp only [not_le.mpr error, decide_false]
            exact setVol_fails _
          · simp only [if_neg (not_le.mpr error), if_true]
      | @leftOnly ret vol value error given contained rounded left right =>
          by_cases unchanged : (⟨value, session.sys.right, false⟩ : VolumeSys) = session.sys
          · refine .quiet (fun _ _ answered => right answered.2) ?_ ?_
            · simp only [not_le.mpr error, decide_false]
              exact setVol_fails _
            · simp only [if_neg (not_le.mpr error), if_pos unchanged]
              rw [unchanged]
          · refine .broke (fun answered => right answered.2) ?_ ?_
            · simp only [not_le.mpr error, decide_false]
              exact setVol_fails _
            simp only [if_neg (not_le.mpr error), if_neg unchanged]
      | @both vol value given contained rounded left right =>
          rw [← Option.some.inj given] at rounded
          refine .set q88 value ⟨left, right⟩ sent rounded ?_ ?_
          · simp only [le_refl, decide_true]
            exact setVol_succeeds sent
          · simp only [le_refl, if_true]
            rfl

/-! What is printed. -/

theorem toolGetVol_text {text : List Char} (printed : toolGetVol audio env session = some text) :
    text = printRaw (average session.sys.left session.sys.right).toInt := by
  obtain ⟨limits, _, printed⟩ := Option.bind_eq_some_iff.mp printed
  obtain ⟨v, got, printed⟩ := Option.bind_eq_some_iff.mp printed
  obtain ⟨vol, read, stored⟩ := Option.map_eq_some_iff.mp got
  have ok : uacIoctlGetVol audio.unit (session.sys.device env.left env.right) false = .ok vol := by
    cases answer : uacIoctlGetVol audio.unit (session.sys.device env.left env.right) false with
    | error ret => simp only [answer, Except.toOption, reduceCtorEq] at read
    | ok other =>
        rw [answer, Except.toOption, Option.some.injEq] at read
        rw [read]
  rw [← Option.some.inj printed, ← stored, se16_storeShort, getVolume_reads ok]

def ToolEnv.good : ToolEnv := ⟨fun _ => ⟨true, 2⟩, ⟨true, 2⟩, ⟨true, 2⟩⟩

theorem limits_good (audio : Audio) : ∃ limits, audio.limits .good = some limits := by
  have answers (parameter : Nat) :
      (audio.device ToolEnv.good.query).Answers audio.unit parameter :=
    ⟨⟨rfl, rfl⟩, ⟨rfl, rfl⟩⟩
  simp only [Audio.limits, getVolume_of_answers (answers _)]
  exact ⟨_, rfl⟩

theorem getVol_good (unit : FeatureUnit) (sys : VolumeSys) :
    uacIoctlGetVol unit (sys.device ToolEnv.good.left ToolEnv.good.right) false =
      .ok (average sys.left sys.right) := by
  have right : ¬uacWValue UAC_FU_VOLUME (CH_R % 256) = uacWValue UAC_FU_VOLUME CH_L := by decide
  have left : uacWValue UAC_FU_VOLUME (CH_L % 256) = uacWValue UAC_FU_VOLUME CH_L := rfl
  have answers : (sys.device ToolEnv.good.left ToolEnv.good.right).Answers unit UAC_GET_CUR := by
    constructor
    · simp only [VolumeSys.device, getVolumeMsg, left, if_true]
      exact ⟨rfl, rfl⟩
    · simp only [VolumeSys.device, getVolumeMsg, right, if_false]
      exact ⟨rfl, rfl⟩
  rw [uacIoctlGetVol, getVolume_of_answers answers]
  simp only [bind, Except.bind, Bool.false_eq_true, Device.averages, VolumeSys.device,
    getVolumeMsg, left, right, if_true, if_false]

theorem toolGetVol_good (audio : Audio) (session : Session) :
    toolGetVol audio .good session =
      some (printRaw (average session.sys.left session.sys.right).toInt) := by
  obtain ⟨limits, loaded⟩ := limits_good audio
  rw [toolGetVol, loaded, getVol_good, ← se16_storeShort]
  rfl

end Invocations

def soundCard : Audio where
  unit := ⟨-12800, 0, 256, 2, 0⟩
  range msg :=
    if msg.request = UAC_GET_MIN then -12800 else if msg.request = UAC_GET_RES then 256 else 0

theorem soundCard_probed : soundCard.Probed where
  found := ⟨fun _ => ⟨true, 2⟩, 0, [10, 0x24, 6, 2, 1, 1, 0, 3, 3, 0], by decide +kernel⟩
  step := by decide
  ordered := by decide

end Ldd3.Uac
