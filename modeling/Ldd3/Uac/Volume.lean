import Mathlib.Tactic
import Ldd3.Kernel
import Ldd3.Lib.CInt

/-!
The volume of the USB audio driver: `_uac_set_volume` rounds a request to a step
of the device in 16 and 32 bits, `snap_to_res` of the `uacctl` tool does the
same in a `long`.
-/

namespace Ldd3.Uac

open CInt (int32)

def UAC_SET_CUR : Nat := 0x01
def BMRT_CLASS_IF_OUT : Nat := 0x21
def UAC_FU_VOLUME : Nat := 0x02
def UAC_TIMEOUT : Nat := 1000
def CH_L : Nat := 1
def CH_R : Nat := 2
def EIO : Int := 5

/-- What `struct uac_dev` knows of the feature unit; the volumes are `s16`. -/
structure FeatureUnit where
  minVol : BitVec 16
  maxVol : BitVec 16
  resVol : BitVec 16
  fuId : BitVec 8
  acIfnum : BitVec 8
  deriving DecidableEq, Repr

structure ControlMsg where
  request : Nat
  requestType : Nat
  value : Nat
  index : Nat
  data : List Byte
  timeout : Nat
  deriving DecidableEq, Repr

/-- Whether `kmalloc` succeeds and what `usb_control_msg` returns. -/
structure ControlEnv where
  kmalloc : Bool
  answer : Int

structure VolumeReply where
  sent : List ControlMsg
  ret : Int
  deriving DecidableEq, Repr

def uacWValue (cs ch : Nat) : Nat := (cs <<< 8 ||| ch) % 65536

def uacWIndex (fuId ifnum : BitVec 8) : Nat := fuId.toNat <<< 8 ||| ifnum.toNat

def cpuToLe16 (value : BitVec 16) : List Byte := [.ofNat value.toNat, .ofNat (value.toNat / 256)]

/-- The lines of `_uac_set_volume` from `offset` to the two comparisons. -/
def roundVolume (unit : FeatureUnit) (vol : BitVec 16) : Except Oops (BitVec 16) :=
  let offset := int32 (vol.toInt - unit.minVol.toInt)
  if unit.resVol.toInt = 0 then .error .divide
  else
    let steps := (int32 (offset + unit.resVol.toInt.tdiv 2)).tdiv unit.resVol.toInt
    let offset := int32 (steps * unit.resVol.toInt)
    -- the sum is an int, and vol is an s16
    let vol := BitVec.ofInt 16 (unit.minVol.toInt + offset)
    let vol := if vol.toInt < unit.minVol.toInt then unit.minVol else vol
    .ok (if unit.maxVol.toInt < vol.toInt then unit.maxVol else vol)

def setCurVolume (unit : FeatureUnit) (ch : Nat) (vol : BitVec 16) : ControlMsg where
  request := UAC_SET_CUR
  requestType := BMRT_CLASS_IF_OUT
  value := uacWValue UAC_FU_VOLUME (ch % 256)
  index := uacWIndex unit.fuId unit.acIfnum
  data := cpuToLe16 vol
  timeout := UAC_TIMEOUT

def _uacSetVolume (unit : FeatureUnit) (env : ControlEnv) (ch : Nat) (vol : BitVec 16) :
    Except Oops VolumeReply :=
  if env.kmalloc then do
    let vol ← roundVolume unit vol
    let ret := if env.answer = 2 then 0 else if env.answer < 0 then env.answer else (- EIO)
    .ok ⟨[setCurVolume unit ch vol], ret⟩
  else .ok ⟨[], -ENOMEM⟩

def uacSetVolume (unit : FeatureUnit) (left right : ControlEnv) (vol : BitVec 16) :
    Except Oops VolumeReply := do
  let first ← _uacSetVolume unit left CH_L vol
  if first.ret < 0 then .ok first
  else
    let second ← _uacSetVolume unit right CH_R vol
    .ok ⟨first.sent ++ second.sent, second.ret⟩

/-- `UAC_IOC_SET_VOL` in `uac_ioctl`; `v` is `none` when `copy_from_user` faults. -/
def uacIoctlSetVol (unit : FeatureUnit) (left right : ControlEnv) (v : Option (BitVec 16)) :
    Except Oops VolumeReply :=
  match v with
  | none => .ok ⟨[], -EFAULT⟩
  | some v =>
      if v.toInt < unit.minVol.toInt ∨ unit.maxVol.toInt < v.toInt then .ok ⟨[], -EINVAL⟩
      else do
        let reply ← uacSetVolume unit left right v
        .ok (if reply.ret < 0 then reply else { reply with ret := 0 })

/-- `snap_to_res`; no `long` overflows on arguments that are `int`s. -/
def snapToRes (v min max res : Int) : Int :=
  let step := if res ≤ 0 then 1 else res
  let off := v - min
  let snapped := (off + step.tdiv 2).tdiv step * step
  let out := min + snapped
  let out := if out < min then min else out
  if max < out then max else out

/-! Rounding to a step, without a bound on the numbers. -/

section Rounding

variable {min res v : Int}

def nearestStep (min res v : Int) : Int := (v - min + res / 2) / res

theorem nearestStep_nonneg (positive : 0 < res) (above : min ≤ v) : 0 ≤ nearestStep min res v :=
  Int.ediv_nonneg (by omega) positive.le

theorem nearestStep_mono (positive : 0 < res) {quieter : Int} (less : quieter ≤ v) :
    nearestStep min res quieter ≤ nearestStep min res v :=
  Int.ediv_le_ediv positive (by omega)

theorem nearestStep_near (min v : Int) (positive : 0 < res) :
    nearestStep min res v * res ≤ v - min + res / 2 ∧
      v - min + res / 2 < nearestStep min res v * res + res := by
  have split := Int.ediv_mul_add_emod (v - min + res / 2) res
  have lower := Int.emod_nonneg (v - min + res / 2) positive.ne'
  have upper := Int.emod_lt_of_pos (v - min + res / 2) positive
  simp only [nearestStep]
  omega

theorem snapToRes_eq (positive : 0 < res) (above : min ≤ v) (max : Int) :
    snapToRes v min max res =
      if max < min + nearestStep min res v * res then max
      else min + nearestStep min res v * res := by
  have half : res.tdiv 2 = res / 2 := Int.tdiv_eq_ediv_of_nonneg positive.le
  have steps : (v - min + res / 2).tdiv res = nearestStep min res v :=
    Int.tdiv_eq_ediv_of_nonneg (by omega)
  have nonneg := Int.mul_nonneg (nearestStep_nonneg positive above) positive.le
  simp only [snapToRes, positive.not_ge, ↓reduceIte, half, steps]
  rw [if_neg (by omega : ¬min + nearestStep min res v * res < min)]

end Rounding

/-! Rounding in the driver. -/

theorem toInt_narrowed {value : Int} (lower : -32768 ≤ value) (upper : value < 65536) :
    (BitVec.ofInt 16 value).toInt = if value ≤ 32767 then value else value - 65536 := by
  rw [BitVec.toInt_ofInt, Int.bmod_def]
  split <;> omega

def FeatureUnit.stepped (unit : FeatureUnit) (vol : BitVec 16) : Int :=
  unit.minVol.toInt +
    nearestStep unit.minVol.toInt unit.resVol.toInt vol.toInt * unit.resVol.toInt

structure FeatureUnit.Accepts (unit : FeatureUnit) (vol : BitVec 16) : Prop where
  step : 0 < unit.resVol.toInt
  above : unit.minVol.toInt ≤ vol.toInt
  below : vol.toInt ≤ unit.maxVol.toInt

namespace FeatureUnit.Accepts

variable {unit : FeatureUnit} {vol : BitVec 16}

theorem stepped_bounds (accepts : unit.Accepts vol) :
    unit.minVol.toInt ≤ unit.stepped vol ∧ unit.stepped vol ≤ vol.toInt + unit.resVol.toInt / 2 := by
  obtain ⟨step, above, _⟩ := accepts
  have nonneg := Int.mul_nonneg (nearestStep_nonneg step above) step.le
  have near := (nearestStep_near unit.minVol.toInt vol.toInt step).1
  simp only [stepped]
  omega

theorem stepped_least (accepts : unit.Accepts vol) (least : vol.toInt = unit.minVol.toInt) :
    unit.stepped vol = unit.minVol.toInt := by
  have step := accepts.step
  have none : nearestStep unit.minVol.toInt unit.resVol.toInt vol.toInt = 0 := by
    rw [nearestStep, least, sub_self, zero_add]
    exact Int.ediv_eq_zero_of_lt (by omega) (by omega)
  rw [FeatureUnit.stepped, none, zero_mul, add_zero]

theorem stepped_fits_iff (accepts : unit.Accepts vol) :
    unit.stepped vol ≤ 32767 ↔
      vol.toInt - unit.minVol.toInt + unit.resVol.toInt / 2 <
        ((32767 - unit.minVol.toInt) / unit.resVol.toInt + 1) * unit.resVol.toInt := by
  rw [← Int.ediv_lt_iff_lt_mul accepts.step, Int.lt_add_one_iff,
    Int.le_ediv_iff_mul_le accepts.step, FeatureUnit.stepped, nearestStep]
  omega

theorem roundVolume_eq (accepts : unit.Accepts vol) :
    roundVolume unit vol = .ok
      (if unit.maxVol.toInt < (BitVec.ofInt 16 (unit.stepped vol)).toInt then unit.maxVol
      else if (BitVec.ofInt 16 (unit.stepped vol)).toInt < unit.minVol.toInt then unit.minVol
      else BitVec.ofInt 16 (unit.stepped vol)) := by
  have bounds := accepts.stepped_bounds
  obtain ⟨step, above, below⟩ := accepts
  have minLower := unit.minVol.le_toInt
  have volUpper := vol.toInt_lt
  have resUpper := unit.resVol.toInt_lt
  have half : unit.resVol.toInt.tdiv 2 = unit.resVol.toInt / 2 := Int.tdiv_eq_ediv_of_nonneg step.le
  have offset : int32 (vol.toInt - unit.minVol.toInt) = vol.toInt - unit.minVol.toInt :=
    CInt.int32_of_fits ⟨by omega, by omega⟩
  have sum : int32 (vol.toInt - unit.minVol.toInt + unit.resVol.toInt / 2) =
      vol.toInt - unit.minVol.toInt + unit.resVol.toInt / 2 :=
    CInt.int32_of_fits ⟨by omega, by omega⟩
  have steps : (vol.toInt - unit.minVol.toInt + unit.resVol.toInt / 2).tdiv unit.resVol.toInt =
      nearestStep unit.minVol.toInt unit.resVol.toInt vol.toInt :=
    Int.tdiv_eq_ediv_of_nonneg (by omega)
  have product : int32 (nearestStep unit.minVol.toInt unit.resVol.toInt vol.toInt *
      unit.resVol.toInt) =
        nearestStep unit.minVol.toInt unit.resVol.toInt vol.toInt * unit.resVol.toInt := by
    simp only [stepped] at bounds
    exact CInt.int32_of_fits ⟨by omega, by omega⟩
  have total : unit.minVol.toInt + nearestStep unit.minVol.toInt unit.resVol.toInt vol.toInt *
      unit.resVol.toInt = unit.stepped vol := rfl
  simp only [roundVolume, step.ne', ↓reduceIte, half, offset, sum, steps, product, total]
  by_cases low : (BitVec.ofInt 16 (unit.stepped vol)).toInt < unit.minVol.toInt
  · have ordered : ¬unit.maxVol.toInt < unit.minVol.toInt := by omega
    have notAbove : ¬unit.maxVol.toInt < (BitVec.ofInt 16 (unit.stepped vol)).toInt := by omega
    simp only [low, ↓reduceIte, ordered, notAbove]
  · simp only [low, ↓reduceIte]

theorem roundVolume_snaps (accepts : unit.Accepts vol) (fits : unit.stepped vol ≤ 32767) :
    ∃ value, roundVolume unit vol = .ok value ∧
      value.toInt = snapToRes vol.toInt unit.minVol.toInt unit.maxVol.toInt unit.resVol.toInt := by
  have bounds := accepts.stepped_bounds
  have minLower := unit.minVol.le_toInt
  have narrowed := toInt_narrowed (by omega : -32768 ≤ unit.stepped vol) (by omega)
  rw [if_pos fits] at narrowed
  refine ⟨_, accepts.roundVolume_eq, ?_⟩
  rw [snapToRes_eq accepts.step accepts.above, narrowed]
  simp only [← FeatureUnit.stepped.eq_def]
  split
  · rfl
  · rw [if_neg (by omega), narrowed]

theorem roundVolume_wraps (accepts : unit.Accepts vol) (past : 32767 < unit.stepped vol)
    {value : BitVec 16} (rounded : roundVolume unit vol = .ok value) :
    value.toInt ≠
      snapToRes vol.toInt unit.minVol.toInt unit.maxVol.toInt unit.resVol.toInt := by
  have bounds := accepts.stepped_bounds
  have maxUpper := unit.maxVol.toInt_lt
  have resUpper := unit.resVol.toInt_lt
  have volUpper := vol.toInt_lt
  have narrowed := toInt_narrowed (by omega : -32768 ≤ unit.stepped vol) (by omega)
  rw [if_neg (by omega)] at narrowed
  rw [accepts.roundVolume_eq, Except.ok.injEq] at rounded
  have snapped : snapToRes vol.toInt unit.minVol.toInt unit.maxVol.toInt unit.resVol.toInt =
      unit.maxVol.toInt := by
    rw [snapToRes_eq accepts.step accepts.above]
    simp only [← FeatureUnit.stepped.eq_def]
    rw [if_pos (by omega)]
  rw [snapped, ← rounded, if_neg (by rw [narrowed]; have := accepts.below; omega)]
  split
  · intro single
    have least : vol.toInt = unit.minVol.toInt := by
      have := accepts.above
      have := accepts.below
      omega
    have := accepts.stepped_least least
    omega
  · rw [narrowed]
    have := accepts.below
    omega

end FeatureUnit.Accepts

/-! The request. -/

theorem cpuToLe16_inj {value other : BitVec 16} (same : cpuToLe16 value = cpuToLe16 other) :
    value = other := by
  have low := value.isLt
  have otherLow := other.isLt
  simp only [cpuToLe16, List.cons.injEq, and_true] at same
  have first := congrArg UInt8.toNat same.1
  have second := congrArg UInt8.toNat same.2
  simp only [UInt8.toNat_ofNat'] at first second
  apply BitVec.eq_of_toNat_eq
  omega

def FeatureUnit.Sends (unit : FeatureUnit) (vol value : BitVec 16) : Prop :=
  ∀ env ch, env.kmalloc = true →
    ∃ ret, _uacSetVolume unit env ch vol = .ok ⟨[setCurVolume unit ch value], ret⟩

theorem FeatureUnit.sends_iff (unit : FeatureUnit) (vol value : BitVec 16) :
    unit.Sends vol value ↔ roundVolume unit vol = .ok value := by
  constructor
  · intro sends
    obtain ⟨ret, sent⟩ := sends ⟨true, 2⟩ CH_L rfl
    simp only [_uacSetVolume, ↓reduceIte] at sent
    obtain ⟨other, rounded, sent⟩ := bind_eq_ok_iff.mp sent
    simp only [Except.ok.injEq, VolumeReply.mk.injEq, setCurVolume, List.cons.injEq,
      ControlMsg.mk.injEq, true_and, and_true] at sent
    rw [rounded, cpuToLe16_inj sent.1]
  · intro rounded env ch allocated
    exact ⟨_, by simp only [_uacSetVolume, allocated, ↓reduceIte, rounded, ok_bind]; rfl⟩

theorem _uacSetVolume_sent {unit : FeatureUnit} {env : ControlEnv} {ch : Nat} {vol : BitVec 16}
    {reply : VolumeReply} (replied : _uacSetVolume unit env ch vol = .ok reply) {msg : ControlMsg}
    (sent : msg ∈ reply.sent) :
    ∃ value, roundVolume unit vol = .ok value ∧ msg = setCurVolume unit ch value := by
  simp only [_uacSetVolume] at replied
  split at replied
  · obtain ⟨value, rounded, replied⟩ := bind_eq_ok_iff.mp replied
    simp only [Except.ok.injEq] at replied
    rw [← replied, List.mem_singleton] at sent
    exact ⟨value, rounded, sent⟩
  · simp only [Except.ok.injEq] at replied
    rw [← replied] at sent
    contradiction

theorem uacIoctlSetVol_cases {unit : FeatureUnit} {left right : ControlEnv}
    {v : Option (BitVec 16)} {reply : VolumeReply}
    (replied : uacIoctlSetVol unit left right v = .ok reply) :
    (reply.sent = [] ∧ reply.ret < 0 ∧ ∀ vol, v = some vol →
        ¬(unit.minVol.toInt ≤ vol.toInt ∧ vol.toInt ≤ unit.maxVol.toInt)) ∨
      ∃ vol first, v = some vol ∧ unit.minVol.toInt ≤ vol.toInt ∧
        vol.toInt ≤ unit.maxVol.toInt ∧ _uacSetVolume unit left CH_L vol = .ok first ∧
        (first.ret < 0 ∧ reply = first ∨
          ¬first.ret < 0 ∧ ∃ second, _uacSetVolume unit right CH_R vol = .ok second ∧
            reply = ⟨first.sent ++ second.sent, if second.ret < 0 then second.ret else 0⟩) := by
  cases v with
  | none =>
      simp only [uacIoctlSetVol, Except.ok.injEq] at replied
      subst replied
      exact .inl ⟨rfl, by decide, fun _ none => by contradiction⟩
  | some vol =>
      simp only [uacIoctlSetVol] at replied
      split at replied
      · rename_i outside
        simp only [Except.ok.injEq] at replied
        subst replied
        refine .inl ⟨rfl, by decide, ?_⟩
        intro other same
        rw [← Option.some.inj same]
        omega
      rename_i inside
      right
      obtain ⟨sets, replies, replied⟩ := bind_eq_ok_iff.mp replied
      obtain ⟨first, repliedFirst, replies⟩ := bind_eq_ok_iff.mp replies
      refine ⟨vol, first, rfl, by omega, by omega, repliedFirst, ?_⟩
      split at replies
      · rename_i failed
        simp only [Except.ok.injEq] at replies replied
        subst replies
        rw [if_pos failed] at replied
        exact .inl ⟨failed, replied.symm⟩
      · rename_i succeeded
        obtain ⟨second, repliedSecond, replies⟩ := bind_eq_ok_iff.mp replies
        simp only [Except.ok.injEq] at replies replied
        refine .inr ⟨succeeded, second, repliedSecond, ?_⟩
        rw [← replied, ← replies]
        split <;> rfl

theorem uacIoctlSetVol_sent {unit : FeatureUnit} {left right : ControlEnv}
    {v : Option (BitVec 16)} {reply : VolumeReply}
    (replied : uacIoctlSetVol unit left right v = .ok reply) {msg : ControlMsg}
    (sent : msg ∈ reply.sent) :
    ∃ vol ch value, v = some vol ∧ unit.minVol.toInt ≤ vol.toInt ∧
      vol.toInt ≤ unit.maxVol.toInt ∧ roundVolume unit vol = .ok value ∧
      msg = setCurVolume unit ch value := by
  rcases uacIoctlSetVol_cases replied with
    ⟨none, _, _⟩ | ⟨vol, first, given, above, below, repliedFirst, rest⟩
  · rw [none] at sent
    contradiction
  have fromChannel {env : ControlEnv} {ch : Nat} {channel : VolumeReply}
      (channelReplied : _uacSetVolume unit env ch vol = .ok channel) (listed : msg ∈ channel.sent) :
      ∃ other ch value, v = some other ∧ unit.minVol.toInt ≤ other.toInt ∧
        other.toInt ≤ unit.maxVol.toInt ∧ roundVolume unit other = .ok value ∧
        msg = setCurVolume unit ch value := by
    obtain ⟨value, rounded, same⟩ := _uacSetVolume_sent channelReplied listed
    exact ⟨vol, ch, value, given, above, below, rounded, same⟩
  rcases rest with ⟨_, rfl⟩ | ⟨_, second, repliedSecond, rfl⟩
  · exact fromChannel repliedFirst sent
  · rcases List.mem_append.mp sent with listed | listed
    · exact fromChannel repliedFirst listed
    · exact fromChannel repliedSecond listed

/-- What the tool announces is sent, it is in range, and no quieter volume sends more. -/
structure FeatureUnit.SendsSnapped (unit : FeatureUnit) (vol value : BitVec 16) : Prop where
  sends : unit.Sends vol value
  snapped : value.toInt =
    snapToRes vol.toInt unit.minVol.toInt unit.maxVol.toInt unit.resVol.toInt
  inRange : unit.minVol.toInt ≤ value.toInt ∧ value.toInt ≤ unit.maxVol.toInt
  louder : ∀ quieter : BitVec 16, unit.minVol.toInt ≤ quieter.toInt →
    quieter.toInt ≤ vol.toInt → ∃ less, unit.Sends quieter less ∧ less.toInt ≤ value.toInt

section Snapped

variable {min max res v : Int}

theorem snapToRes_inRange (positive : 0 < res) (above : min ≤ v) (ordered : min ≤ max) :
    min ≤ snapToRes v min max res ∧ snapToRes v min max res ≤ max := by
  have nonneg := Int.mul_nonneg (nearestStep_nonneg positive above) positive.le
  rw [snapToRes_eq positive above]
  split <;> omega

theorem snapToRes_mono (positive : 0 < res) {quieter : Int} (above : min ≤ quieter)
    (less : quieter ≤ v) : snapToRes quieter min max res ≤ snapToRes v min max res := by
  have steps := Int.mul_le_mul_of_nonneg_right
    (@nearestStep_mono min res v positive quieter less) positive.le
  rw [snapToRes_eq positive above, snapToRes_eq positive (above.trans less)]
  split <;> split <;> omega

end Snapped

/-- The driver sends what the tool announces exactly when the step nearest to the volume is in
16 bits: otherwise it is narrowed before it is clamped. -/
theorem setVolume_snapped_iff {unit : FeatureUnit} {vol : BitVec 16} (accepts : unit.Accepts vol) :
    (∃ value, unit.SendsSnapped vol value) ↔
      vol.toInt - unit.minVol.toInt + unit.resVol.toInt / 2 <
        ((32767 - unit.minVol.toInt) / unit.resVol.toInt + 1) * unit.resVol.toInt := by
  rw [← accepts.stepped_fits_iff]
  constructor
  · rintro ⟨value, sends, snapped, _, _⟩
    by_contra past
    exact accepts.roundVolume_wraps (not_le.mp past) ((unit.sends_iff vol value).mp sends) snapped
  · intro fits
    obtain ⟨value, rounded, snapped⟩ := accepts.roundVolume_snaps fits
    have ordered := accepts.above.trans accepts.below
    refine ⟨value, (unit.sends_iff vol value).mpr rounded, snapped, ?_, ?_⟩
    · rw [snapped]
      exact snapToRes_inRange accepts.step accepts.above ordered
    · intro quieter above less
      have acceptsQuieter : unit.Accepts quieter :=
        ⟨accepts.step, above, less.trans accepts.below⟩
      have fitsQuieter : unit.stepped quieter ≤ 32767 := by
        rw [acceptsQuieter.stepped_fits_iff]
        rw [accepts.stepped_fits_iff] at fits
        omega
      obtain ⟨lower, roundedQuieter, snappedQuieter⟩ := acceptsQuieter.roundVolume_snaps fitsQuieter
      refine ⟨lower, (unit.sends_iff quieter lower).mpr roundedQuieter, ?_⟩
      rw [snapped, snappedQuieter]
      exact snapToRes_mono accepts.step above less

def evenSteps : FeatureUnit := ⟨0, 32767, 2, 2, 0⟩

theorem setVolume_snapped_iff_low :
    (∃ value, evenSteps.SendsSnapped 5 value) ↔
      (5 : BitVec 16).toInt - evenSteps.minVol.toInt + evenSteps.resVol.toInt / 2 <
        ((32767 - evenSteps.minVol.toInt) / evenSteps.resVol.toInt + 1) *
          evenSteps.resVol.toInt :=
  setVolume_snapped_iff ⟨by decide, by decide, by decide⟩

/-- The step nearest to the loudest volume is 32768, which is sent as the quietest one. -/
theorem setVolume_not_snapped :
    ¬∀ (unit : FeatureUnit) (vol : BitVec 16), unit.Accepts vol →
      ∃ value, unit.SendsSnapped vol value := by
  intro claimed
  obtain ⟨value, sends, snapped, _, _⟩ := claimed evenSteps 32767 ⟨by decide, by decide, by decide⟩
  have rounded := (evenSteps.sends_iff 32767 value).mp sends
  have quietest : roundVolume evenSteps 32767 = .ok 0 := by decide +kernel
  rw [quietest, Except.ok.injEq] at rounded
  rw [← rounded] at snapped
  exact absurd snapped (by decide +kernel)

end Ldd3.Uac
