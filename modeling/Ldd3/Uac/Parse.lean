import Mathlib.Tactic
import Ldd3.Lib.Records
import Ldd3.Uac.Core
import Ldd3.Uac.Volume
import Ldd3.Uac.Disconnect

/-!
What `uac_parse_feature_unit` reads from the descriptors behind the control interface and from
the device, and what `UAC_IOC_SET_VOL` makes of it later.
-/

namespace Ldd3.Uac

def UAC_GET_CUR : Nat := 0x81
def UAC_GET_MIN : Nat := 0x82
def UAC_GET_MAX : Nat := 0x83
def UAC_GET_RES : Nat := 0x84
def BMRT_CLASS_IF_IN : Nat := 0xA1
def USB_DT_CS_INTERFACE : Byte := 0x24
def UAC_FU_DESCRIPTOR : Byte := 0x06

structure GetEnv extends ControlEnv where
  reply : BitVec 16

abbrev Device := ControlMsg → GetEnv

def getVolumeMsg (unit : FeatureUnit) (ch parameter : Nat) : ControlMsg where
  request := parameter
  requestType := BMRT_CLASS_IF_IN
  value := uacWValue UAC_FU_VOLUME (ch % 256)
  index := uacWIndex unit.fuId unit.acIfnum
  data := []
  timeout := UAC_TIMEOUT

/-- The error is the negative return value; `*vol` is only written beside a return of 0. -/
def _uacGetVolumeParam (unit : FeatureUnit) (device : Device) (ch parameter : Nat) :
    Except Int (BitVec 16) :=
  let env := device (getVolumeMsg unit ch parameter)
  if env.kmalloc then
    if env.answer = 2 then .ok env.reply
    else .error (if env.answer < 0 then env.answer else (- EIO))
  else .error (-ENOMEM)

/-- `(l + r) / 2` is computed as an `int`. -/
def average (l r : BitVec 16) : BitVec 16 := BitVec.ofInt 16 ((l.toInt + r.toInt).tdiv 2)

def uacGetVolume (unit : FeatureUnit) (device : Device) (parameter : Nat) :
    Except Int (BitVec 16) := do
  let l ← _uacGetVolumeParam unit device CH_L parameter
  let r ← _uacGetVolumeParam unit device CH_R parameter
  .ok (average l r)

/-- The queries of `uac_parse_feature_unit` once `fu_id` is known. -/
def queryVolumes (unit : FeatureUnit) (device : Device) : FeatureUnit × Int :=
  match uacGetVolume unit device UAC_GET_MIN with
  | .error ret => (unit, ret)
  | .ok minVol =>
      let unit := { unit with minVol }
      match uacGetVolume unit device UAC_GET_MAX with
      | .error ret => (unit, ret)
      | .ok maxVol =>
          let unit := { unit with maxVol }
          match uacGetVolume unit device UAC_GET_RES with
          | .error ret => (unit, ret)
          | .ok resVol => ({ unit with resVol }, 0)

def readExtra (extra : List Byte) (index : Nat) : Except Oops Byte :=
  match extra[index]? with
  | none => .error .outOfBounds
  | some byte => .ok byte

/-- The loop of `uac_parse_feature_unit`: `ptr` is an index into the descriptors. -/
def parseDescriptors (unit : FeatureUnit) (device : Device) (extra : List Byte) (ptr len : Nat) :
    Except Oops (FeatureUnit × Int) :=
  if len ≤ 3 then .ok (unit, -ENODEV)
  else do
    let dLen ← readExtra extra ptr
    let dType ← readExtra extra (ptr + 1)
    let dSubType ← readExtra extra (ptr + 2)
    if _malformed : dLen.toNat = 0 ∨ len < dLen.toNat then .ok (unit, -EINVAL)
    else if dType = USB_DT_CS_INTERFACE ∧ dSubType = UAC_FU_DESCRIPTOR then do
      let fuId ← readExtra extra (ptr + 3)
      .ok (queryVolumes { unit with fuId := fuId.toBitVec } device)
    else parseDescriptors unit device extra (ptr + dLen.toNat) (len - dLen.toNat)
termination_by len
decreasing_by omega

def uacParseFeatureUnit (unit : FeatureUnit) (device : Device) (interfaceNumber : BitVec 8)
    (extra : List Byte) : Except Oops (FeatureUnit × Int) :=
  parseDescriptors { unit with acIfnum := interfaceNumber } device extra 0 extra.length

/-- The unit with which `uac_probe` registers a device file; `dev` is zeroed memory, and a
parse that fails ends the probe before `usb_register_dev`. -/
def uacProbeUnit (device : Device) (interfaceNumber : BitVec 8) (extra : List Byte) :
    Except Oops (Option FeatureUnit) := do
  let (unit, ret) ← uacParseFeatureUnit ⟨0, 0, 0, 0, 0⟩ device interfaceNumber extra
  .ok (if ret ≠ 0 then none else some unit)

/-! The queries. -/

def ControlEnv.Answered (env : ControlEnv) : Prop := env.kmalloc = true ∧ env.answer = 2

def Device.Answers (device : Device) (unit : FeatureUnit) (parameter : Nat) : Prop :=
  (device (getVolumeMsg unit CH_L parameter)).Answered ∧
    (device (getVolumeMsg unit CH_R parameter)).Answered

def Device.averages (device : Device) (unit : FeatureUnit) (parameter : Nat) : BitVec 16 :=
  average (device (getVolumeMsg unit CH_L parameter)).reply
    (device (getVolumeMsg unit CH_R parameter)).reply

structure Device.AnswersQueries (device : Device) (unit : FeatureUnit) : Prop where
  min : device.Answers unit UAC_GET_MIN
  max : device.Answers unit UAC_GET_MAX
  res : device.Answers unit UAC_GET_RES

def FeatureUnit.queried (unit : FeatureUnit) (device : Device) : FeatureUnit :=
  { unit with
    minVol := device.averages unit UAC_GET_MIN
    maxVol := device.averages unit UAC_GET_MAX
    resVol := device.averages unit UAC_GET_RES }

section Queries

variable {unit : FeatureUnit} {device : Device} {ch parameter : Nat}

theorem getVolumeParam_of_answered (answered : (device (getVolumeMsg unit ch parameter)).Answered) :
    _uacGetVolumeParam unit device ch parameter =
      .ok (device (getVolumeMsg unit ch parameter)).reply := by
  simp only [_uacGetVolumeParam, answered.1, answered.2, ↓reduceIte]

theorem getVolumeParam_fails
    (unanswered : ¬(device (getVolumeMsg unit ch parameter)).Answered) :
    ∃ ret, _uacGetVolumeParam unit device ch parameter = .error ret ∧ ret < 0 := by
  simp only [ControlEnv.Answered, not_and] at unanswered
  simp only [_uacGetVolumeParam]
  split
  · rename_i allocated
    rw [if_neg (unanswered allocated)]
    refine ⟨_, rfl, ?_⟩
    simp only [ EIO]
    split <;> omega
  · exact ⟨_, rfl, by decide⟩

theorem getVolume_of_answers (answers : device.Answers unit parameter) :
    uacGetVolume unit device parameter = .ok (device.averages unit parameter) := by
  simp only [uacGetVolume, getVolumeParam_of_answered answers.1,
    getVolumeParam_of_answered answers.2]
  rfl

theorem getVolume_fails (unanswered : ¬device.Answers unit parameter) :
    ∃ ret, uacGetVolume unit device parameter = .error ret ∧ ret < 0 := by
  by_cases left : (device (getVolumeMsg unit CH_L parameter)).Answered
  · obtain ⟨ret, failed, negative⟩ := getVolumeParam_fails fun right => unanswered ⟨left, right⟩
    refine ⟨ret, ?_, negative⟩
    simp only [uacGetVolume, getVolumeParam_of_answered left, failed]
    rfl
  · obtain ⟨ret, failed, negative⟩ := getVolumeParam_fails left
    refine ⟨ret, ?_, negative⟩
    simp only [uacGetVolume, failed]
    rfl

@[simp] theorem getVolume_volumes (minVol maxVol resVol : BitVec 16) :
    uacGetVolume ⟨minVol, maxVol, resVol, unit.fuId, unit.acIfnum⟩ device parameter =
      uacGetVolume unit device parameter := by
  have same (ch : Nat) : getVolumeMsg ⟨minVol, maxVol, resVol, unit.fuId, unit.acIfnum⟩ ch parameter =
      getVolumeMsg unit ch parameter := rfl
  simp only [uacGetVolume, _uacGetVolumeParam, same]

theorem queryVolumes_of_answers (answers : device.AnswersQueries unit) :
    queryVolumes unit device = (unit.queried device, 0) := by
  simp only [queryVolumes, getVolume_volumes, getVolume_of_answers answers.min,
    getVolume_of_answers answers.max, getVolume_of_answers answers.res, FeatureUnit.queried]

theorem answers_of_queryVolumes (succeeds : (queryVolumes unit device).2 = 0) :
    device.AnswersQueries unit := by
  have answered {parameter : Nat}
      (ok : ∀ ret, uacGetVolume unit device parameter = .error ret → ret = 0) :
      device.Answers unit parameter := by
    by_contra unanswered
    obtain ⟨ret, failed, negative⟩ := getVolume_fails unanswered
    have := ok ret failed
    omega
  have min : device.Answers unit UAC_GET_MIN := by
    apply answered
    intro ret failed
    simpa only [queryVolumes, failed] using succeeds
  have max : device.Answers unit UAC_GET_MAX := by
    apply answered
    intro ret failed
    simpa only [queryVolumes, getVolume_of_answers min, getVolume_volumes, failed] using succeeds
  refine ⟨min, max, answered ?_⟩
  intro ret failed
  simpa only [queryVolumes, getVolume_of_answers min, getVolume_of_answers max, getVolume_volumes,
    failed] using succeeds

end Queries

/-! The walk along the descriptors. -/

/-- What the string says of the size of its first descriptor; the last 3 bytes hold none. -/
def descriptorSize (rest : List Byte) : Nat := if rest.length ≤ 3 then 0 else (rest.headD 0).toNat

/-- The test of the loop, which looks past the end of a descriptor of 1 or 2 bytes. -/
def looksLikeUnit (front : List Byte) : Bool :=
  front[1]? == some USB_DT_CS_INTERFACE && front[2]? == some UAC_FU_DESCRIPTOR

/-- A class-specific feature-unit descriptor with its `bUnitID`. -/
def isFeatureUnit (descriptor : List Byte) : Bool :=
  decide (4 ≤ descriptor.length) && looksLikeUnit descriptor

def firstLookalike (extra : List Byte) : Option (List Byte) :=
  (Records.fronts descriptorSize extra).find? looksLikeUnit

def firstUnit (extra : List Byte) : Option (List Byte) :=
  (Records.records descriptorSize extra).find? isFeatureUnit

def walkResult (unit : FeatureUnit) (device : Device) (rest : List Byte) : FeatureUnit × Int :=
  match firstLookalike rest with
  | some front => queryVolumes { unit with fuId := (front.getD 3 0).toBitVec } device
  | none =>
      (unit, if (Records.remainder descriptorSize rest).length ≤ 3 then (- ENODEV) else -EINVAL)

theorem readExtra_drop {extra : List Byte} {ptr index : Nat}
    (inside : ptr + index < extra.length) :
    readExtra extra (ptr + index) = .ok ((extra.drop ptr).getD index 0) := by
  simp only [readExtra, List.getElem?_eq_getElem inside, List.getD_eq_getElem?_getD,
    List.getElem?_drop, Option.getD_some]

theorem looksLikeUnit_iff {front : List Byte} (long : 3 < front.length) :
    looksLikeUnit front = true ↔
      front.getD 1 0 = USB_DT_CS_INTERFACE ∧ front.getD 2 0 = UAC_FU_DESCRIPTOR := by
  have second : 1 < front.length := by omega
  have third : 2 < front.length := by omega
  simp only [looksLikeUnit, List.getD_eq_getElem?_getD, List.getElem?_eq_getElem second,
    List.getElem?_eq_getElem third, Bool.and_eq_true, beq_iff_eq, Option.some.injEq,
    Option.getD_some]

theorem descriptorSize_of_long {rest : List Byte} (long : 3 < rest.length) :
    descriptorSize rest = (rest.getD 0 0).toNat := by
  rw [descriptorSize, if_neg (by omega), List.headD_eq_head?_getD, List.head?_eq_getElem?,
    List.getD_eq_getElem?_getD]

theorem parseDescriptors_walk (unit : FeatureUnit) (device : Device) {extra : List Byte} :
    ∀ len ptr, ptr + len = extra.length →
      parseDescriptors unit device extra ptr len =
        .ok (walkResult unit device (extra.drop ptr)) := by
  intro len
  induction len using Nat.strongRecOn with
  | ind len ih =>
      intro ptr ends
      have restLength : (extra.drop ptr).length = len := by
        rw [List.length_drop]
        omega
      rw [parseDescriptors]
      by_cases short : len ≤ 3
      · have stops : ¬Records.Cuts descriptorSize (extra.drop ptr) := by
          simp only [Records.Cuts, descriptorSize, restLength, short, ↓reduceIte]
          omega
        simp only [short, ↓reduceIte, walkResult, firstLookalike, Records.fronts_of_not_cuts stops,
          Records.remainder_of_not_cuts stops, restLength, List.find?_nil]
      have first : readExtra extra ptr = .ok ((extra.drop ptr).getD 0 0) :=
        @readExtra_drop extra ptr 0 (by omega)
      have second := @readExtra_drop extra ptr 1 (by omega)
      have third := @readExtra_drop extra ptr 2 (by omega)
      have fourth := @readExtra_drop extra ptr 3 (by omega)
      have size := @descriptorSize_of_long (extra.drop ptr) (by omega)
      have looks := @looksLikeUnit_iff (extra.drop ptr) (by omega)
      simp only [short, ↓reduceIte, first, second, third, fourth, ok_bind, ← size, ← looks]
      by_cases malformed : descriptorSize (extra.drop ptr) = 0 ∨
          len < descriptorSize (extra.drop ptr)
      · have stops : ¬Records.Cuts descriptorSize (extra.drop ptr) := by
          simp only [Records.Cuts, restLength]
          omega
        simp only [malformed, ↓reduceDIte, walkResult, firstLookalike, restLength, short,
          Records.fronts_of_not_cuts stops, Records.remainder_of_not_cuts stops, List.find?_nil,
          ↓reduceIte]
      have cuts : Records.Cuts descriptorSize (extra.drop ptr) := by
        simp only [Records.Cuts, restLength]
        omega
      simp only [malformed, ↓reduceDIte, walkResult, firstLookalike, Records.fronts_of_cuts cuts,
        Records.remainder_of_cuts cuts, List.drop_drop]
      by_cases found : looksLikeUnit (extra.drop ptr) = true
      · simp only [found, ↓reduceIte, List.find?_cons_of_pos]
      · rw [if_neg found, List.find?_cons_of_neg found]
        exact ih _ (by omega) _ (by omega)

theorem uacParseFeatureUnit_walk (unit : FeatureUnit) (device : Device)
    (interfaceNumber : BitVec 8) (extra : List Byte) :
    uacParseFeatureUnit unit device interfaceNumber extra =
      .ok (walkResult { unit with acIfnum := interfaceNumber } device extra) :=
  parseDescriptors_walk _ device extra.length 0 (Nat.zero_add _)

theorem isFeatureUnit_take {front : List Byte} (cuts : Records.Cuts descriptorSize front) :
    isFeatureUnit (front.take (descriptorSize front)) = true ↔
      4 ≤ descriptorSize front ∧ looksLikeUnit front = true := by
  have fits := cuts.2
  simp only [isFeatureUnit, List.length_take_of_le fits, Bool.and_eq_true, decide_eq_true_eq]
  refine and_congr_right fun long => ?_
  simp only [looksLikeUnit, List.getElem?_take, if_pos (by omega : 1 < descriptorSize front),
    if_pos (by omega : 2 < descriptorSize front)]

theorem looksLikeUnit_of_take {front : List Byte}
    (unit : isFeatureUnit (front.take (descriptorSize front)) = true) :
    looksLikeUnit front = true := by
  simp only [isFeatureUnit, looksLikeUnit, List.length_take, List.getElem?_take,
    Bool.and_eq_true, decide_eq_true_eq] at unit ⊢
  rw [if_pos (by omega), if_pos (by omega)] at unit
  exact unit.2

/-- What the parse is for: `bUnitID` of the first feature unit of the chain. -/
structure FindsUnit (extra : List Byte) (unit : FeatureUnit) (ret : Int) : Prop where
  found : ∀ descriptor, firstUnit extra = some descriptor →
    ret = 0 ∧ unit.fuId = (descriptor.getD 3 0).toBitVec
  malformed : firstUnit extra = none →
    3 < (Records.remainder descriptorSize extra).length → ret = -EINVAL
  absent : firstUnit extra = none →
    (Records.remainder descriptorSize extra).length ≤ 3 → ret = -ENODEV

/-- The first descriptor at which the bytes of a feature unit stand holds them itself, or the
byte that stands for its id is the id of the first feature unit. -/
def UnitNotMisread (extra : List Byte) : Prop :=
  ∀ front, firstLookalike extra = some front →
    4 ≤ descriptorSize front ∨
      ∃ descriptor, firstUnit extra = some descriptor ∧ descriptor.getD 3 0 = front.getD 3 0

theorem firstUnit_none {extra : List Byte} (none : firstLookalike extra = none) :
    firstUnit extra = Option.none :=
  Records.find_records_none (fun _ => looksLikeUnit_of_take) none

theorem firstUnit_of_lookalike {extra front : List Byte}
    (first : firstLookalike extra = some front) (long : 4 ≤ descriptorSize front) :
    firstUnit extra = some (front.take (descriptorSize front)) := by
  have looks := List.find?_some first
  have cuts := Records.cuts_of_mem (List.mem_of_find?_eq_some first)
  exact Records.find_records_of_find_fronts (fun _ => looksLikeUnit_of_take) first
    ((isFeatureUnit_take cuts).mpr ⟨long, looks⟩)

theorem walkResult_findsUnit_iff {unit : FeatureUnit} {device : Device}
    (answers : ∀ fuId, device.AnswersQueries { unit with fuId }) (extra : List Byte) :
    FindsUnit extra (walkResult unit device extra).1 (walkResult unit device extra).2 ↔
      UnitNotMisread extra := by
  cases first : firstLookalike extra with
  | none =>
      have absent := firstUnit_none first
      simp only [walkResult, first]
      constructor
      · intro _ front found
        rw [first] at found
        contradiction
      · intro _
        constructor
        · intro descriptor found
          rw [absent] at found
          contradiction
        · intro _ long
          rw [if_neg (by omega)]
        · intro _ short
          rw [if_pos short]
  | some front =>
      have queried := queryVolumes_of_answers (answers (front.getD 3 0).toBitVec)
      simp only [walkResult, first, queried, FeatureUnit.queried, UnitNotMisread,
        Option.some.injEq, forall_eq']
      constructor
      · rintro ⟨found, malformed, absent⟩
        cases right : firstUnit extra with
        | none =>
            by_cases short : (Records.remainder descriptorSize extra).length ≤ 3
            · exact absurd (absent right short) (by decide)
            · exact absurd (malformed right (by omega)) (by decide)
        | some descriptor =>
            have same := (found descriptor right).2
            exact .inr ⟨descriptor, rfl, (UInt8.toBitVec_inj.mp same).symm⟩
      · intro right
        have unit : ∃ descriptor, firstUnit extra = some descriptor ∧
            descriptor.getD 3 0 = front.getD 3 0 := by
          rcases right with long | same
          · refine ⟨_, firstUnit_of_lookalike first long, ?_⟩
            rw [List.getD_eq_getElem?_getD, List.getElem?_take, if_pos (by omega),
              ← List.getD_eq_getElem?_getD]
          · exact same
        obtain ⟨descriptor, right, same⟩ := unit
        constructor
        · intro other found
          rw [right, Option.some.injEq] at found
          rw [← found, same]
          exact ⟨rfl, rfl⟩
        · intro absent
          rw [right] at absent
          contradiction
        · intro absent
          rw [right] at absent
          contradiction

/-- The parse ends and stays inside the descriptors. It finds the first feature unit exactly
when no descriptor of 1 to 3 bytes that looks like one is met before, short of a coincidence of
the two ids. -/
theorem parse_findsUnit_iff (unit : FeatureUnit) (device : Device) (interfaceNumber : BitVec 8)
    (extra : List Byte)
    (answers : ∀ fuId, device.AnswersQueries { unit with acIfnum := interfaceNumber, fuId }) :
    ∃ parsed ret,
      uacParseFeatureUnit unit device interfaceNumber extra = .ok (parsed, ret) ∧
        (FindsUnit extra parsed ret ↔ UnitNotMisread extra) := by
  refine ⟨_, _, uacParseFeatureUnit_walk unit device interfaceNumber extra, ?_⟩
  exact walkResult_findsUnit_iff answers extra

def constantDevice (reply : BitVec 16) : Device := fun _ => ⟨⟨true, 2⟩, reply⟩

theorem constantDevice_answers (reply : BitVec 16) (unit : FeatureUnit) :
    (constantDevice reply).AnswersQueries unit :=
  ⟨⟨⟨rfl, rfl⟩, ⟨rfl, rfl⟩⟩, ⟨⟨rfl, rfl⟩, ⟨rfl, rfl⟩⟩, ⟨⟨rfl, rfl⟩, ⟨rfl, rfl⟩⟩⟩

theorem parse_findsUnit_iff_headerFirst :
    ∃ parsed ret,
      uacParseFeatureUnit ⟨0, 0, 0, 0, 0⟩ (constantDevice 1) 0
          [4, 0x24, 1, 0, 5, 0x24, 6, 2, 1] = .ok (parsed, ret) ∧
        (FindsUnit [4, 0x24, 1, 0, 5, 0x24, 6, 2, 1] parsed ret ↔
          UnitNotMisread [4, 0x24, 1, 0, 5, 0x24, 6, 2, 1]) :=
  parse_findsUnit_iff ⟨0, 0, 0, 0, 0⟩ (constantDevice 1) 0 [4, 0x24, 1, 0, 5, 0x24, 6, 2, 1]
    fun _ => constantDevice_answers 1 _

def stubFirst : List Byte := [3, 0x24, 6, 9, 0x24, 6, 5, 1, 0, 0, 0, 0]

theorem parse_misreads_unit :
    ¬∀ (unit : FeatureUnit) (device : Device) (interfaceNumber : BitVec 8) (extra : List Byte),
      (∀ fuId, device.AnswersQueries { unit with acIfnum := interfaceNumber, fuId }) →
        ∃ parsed ret,
          uacParseFeatureUnit unit device interfaceNumber extra = .ok (parsed, ret) ∧
            FindsUnit extra parsed ret := by
  intro claimed
  obtain ⟨parsed, ret, parses, finds⟩ := claimed ⟨0, 0, 0, 0, 0⟩ (constantDevice 1) 0 stubFirst
    fun _ => constantDevice_answers 1 _
  have lookalike : firstLookalike stubFirst = some stubFirst := by decide +kernel
  have right : firstUnit stubFirst = some [9, 0x24, 6, 5, 1, 0, 0, 0, 0] := by decide +kernel
  rw [uacParseFeatureUnit_walk, Except.ok.injEq] at parses
  have walked : FindsUnit stubFirst (walkResult ⟨0, 0, 0, 0, 0⟩ (constantDevice 1) stubFirst).1
      (walkResult ⟨0, 0, 0, 0, 0⟩ (constantDevice 1) stubFirst).2 := by
    rw [parses]
    exact finds
  have misread : UnitNotMisread stubFirst :=
    (walkResult_findsUnit_iff (fun _ => constantDevice_answers 1 _) stubFirst).mp walked
  rcases misread stubFirst lookalike with long | ⟨descriptor, found, same⟩
  · exact absurd long (by decide)
  · rw [right, Option.some.injEq] at found
    rw [← found] at same
    exact absurd same (by decide)

end Ldd3.Uac
