import Mathlib.Tactic
import Ldd3.Uac.Parse

/-!
The volumes that `UAC_IOC_SET_VOL` sends to a device whose range came from the device itself.
-/

namespace Ldd3.Uac

theorem tdiv_two (sum : Int) : sum.tdiv 2 = if 0 ≤ sum then sum / 2 else -(-sum / 2) := by
  split
  · exact Int.tdiv_eq_ediv_of_nonneg ‹0 ≤ sum›
  · rw [← Int.tdiv_eq_ediv_of_nonneg (by omega : 0 ≤ -sum), Int.neg_tdiv, neg_neg]

theorem average_toInt (l r : BitVec 16) : (average l r).toInt = (l.toInt + r.toInt).tdiv 2 := by
  have leftLower := l.le_toInt
  have leftUpper := l.toInt_lt
  have rightLower := r.le_toInt
  have rightUpper := r.toInt_lt
  have bounds : -32768 ≤ (l.toInt + r.toInt).tdiv 2 ∧ (l.toInt + r.toInt).tdiv 2 ≤ 32767 := by
    rw [tdiv_two]
    split <;> omega
  rw [average, toInt_narrowed bounds.1 (by omega), if_pos bounds.2]

theorem average_eq_zero_iff (l r : BitVec 16) :
    (average l r).toInt = 0 ↔ -1 ≤ l.toInt + r.toInt ∧ l.toInt + r.toInt ≤ 1 := by
  rw [average_toInt, tdiv_two]
  split <;> omega

def FeatureUnit.Contains (unit : FeatureUnit) (vol : BitVec 16) : Prop :=
  unit.minVol.toInt ≤ vol.toInt ∧ vol.toInt ≤ unit.maxVol.toInt

/-- The call divides by no zero, and sends no volume outside the range. -/
def FeatureUnit.SetsInRange (unit : FeatureUnit) (left right : ControlEnv)
    (v : Option (BitVec 16)) : Prop :=
  ∃ reply, uacIoctlSetVol unit left right v = .ok reply ∧
    ∀ msg ∈ reply.sent, ∃ ch value, msg = setCurVolume unit ch value ∧ unit.Contains value

section Range

variable {unit : FeatureUnit}

theorem contains_clamped (ordered : unit.minVol.toInt ≤ unit.maxVol.toInt) {vol low : BitVec 16}
    (raised : low = if vol.toInt < unit.minVol.toInt then unit.minVol else vol) :
    unit.Contains (if unit.maxVol.toInt < low.toInt then unit.maxVol else low) := by
  have above : unit.minVol.toInt ≤ low.toInt := by
    rw [raised]
    split <;> omega
  simp only [FeatureUnit.Contains]
  split
  · exact ⟨ordered, le_rfl⟩
  · exact ⟨above, by omega⟩

theorem roundVolume_contained (step : unit.resVol.toInt ≠ 0)
    (ordered : unit.minVol.toInt ≤ unit.maxVol.toInt) (vol : BitVec 16) :
    ∃ value, roundVolume unit vol = .ok value ∧ unit.Contains value := by
  simp only [roundVolume, step, ↓reduceIte]
  exact ⟨_, rfl, contains_clamped ordered rfl⟩

theorem uacSetVolume_returns {vol value : BitVec 16} (rounded : roundVolume unit vol = .ok value)
    (left right : ControlEnv) : ∃ reply, uacSetVolume unit left right vol = .ok reply := by
  have channel (env : ControlEnv) (ch : Nat) :
      ∃ reply, _uacSetVolume unit env ch vol = .ok reply := by
    simp only [_uacSetVolume, rounded, ok_bind]
    split
    · exact ⟨_, rfl⟩
    · exact ⟨_, rfl⟩
  obtain ⟨first, sentFirst⟩ := channel left CH_L
  obtain ⟨second, sentSecond⟩ := channel right CH_R
  simp only [uacSetVolume, sentFirst, sentSecond, ok_bind]
  split
  · exact ⟨_, rfl⟩
  · exact ⟨_, rfl⟩

theorem setsInRange_of_step (step : unit.resVol.toInt ≠ 0) (left right : ControlEnv)
    (v : Option (BitVec 16)) : unit.SetsInRange left right v := by
  have returns : ∃ reply, uacIoctlSetVol unit left right v = .ok reply := by
    cases v with
    | none => exact ⟨_, rfl⟩
    | some vol =>
        simp only [uacIoctlSetVol]
        split
        · exact ⟨_, rfl⟩
        · rename_i inRange
          obtain ⟨value, rounded, _⟩ := roundVolume_contained step (by omega) vol
          obtain ⟨reply, sets⟩ := uacSetVolume_returns rounded left right
          simp only [sets, ok_bind]
          exact ⟨_, rfl⟩
  obtain ⟨reply, replied⟩ := returns
  refine ⟨reply, replied, ?_⟩
  intro msg sent
  obtain ⟨vol, ch, value, _, above, below, rounded, same⟩ := uacIoctlSetVol_sent replied sent
  obtain ⟨other, roundedOther, contained⟩ := roundVolume_contained step (above.trans below) vol
  rw [rounded, Except.ok.injEq] at roundedOther
  exact ⟨ch, value, same, roundedOther ▸ contained⟩

theorem setsInRange_of_empty (empty : unit.maxVol.toInt < unit.minVol.toInt)
    (left right : ControlEnv) (v : Option (BitVec 16)) : unit.SetsInRange left right v := by
  cases v with
  | none => exact ⟨⟨[], -EFAULT⟩, rfl, by simp only [List.not_mem_nil, false_implies, implies_true]⟩
  | some vol =>
      refine ⟨⟨[], -EINVAL⟩, ?_, by simp only [List.not_mem_nil, false_implies, implies_true]⟩
      rw [uacIoctlSetVol, if_pos (by omega)]

theorem setVolume_divides (noStep : unit.resVol.toInt = 0)
    (ordered : unit.minVol.toInt ≤ unit.maxVol.toInt) (right : ControlEnv) :
    uacIoctlSetVol unit ⟨true, 2⟩ right (some unit.minVol) = .error .divide := by
  have rounds : roundVolume unit unit.minVol = .error .divide := by
    simp only [roundVolume, noStep, ↓reduceIte]
  have inRange : ¬(unit.minVol.toInt < unit.minVol.toInt ∨
      unit.maxVol.toInt < unit.minVol.toInt) := by omega
  simp only [uacIoctlSetVol, inRange, ↓reduceIte, uacSetVolume, _uacSetVolume, rounds, error_bind]

theorem setsInRange_iff (unit : FeatureUnit) :
    (∀ left right v, unit.SetsInRange left right v) ↔
      unit.maxVol.toInt < unit.minVol.toInt ∨ unit.resVol.toInt ≠ 0 := by
  constructor
  · intro sets
    by_contra degenerate
    obtain ⟨reply, replied, _⟩ := sets ⟨true, 2⟩ ⟨true, 2⟩ (some unit.minVol)
    rw [setVolume_divides (by omega) (by omega)] at replied
    contradiction
  · rintro (empty | step) left right v
    · exact setsInRange_of_empty empty left right v
    · exact setsInRange_of_step step left right v

end Range

def foundUnit (front : List Byte) (interfaceNumber : BitVec 8) : FeatureUnit :=
  ⟨0, 0, 0, (front.getD 3 0).toBitVec, interfaceNumber⟩

theorem probeUnit_eq_iff {device : Device} {interfaceNumber : BitVec 8} {extra : List Byte}
    {unit : FeatureUnit} :
    uacProbeUnit device interfaceNumber extra = .ok (some unit) ↔
      ∃ front, firstLookalike extra = some front ∧
        device.AnswersQueries (foundUnit front interfaceNumber) ∧
        unit = (foundUnit front interfaceNumber).queried device := by
  simp only [uacProbeUnit, uacParseFeatureUnit_walk, ok_bind, Except.ok.injEq]
  cases first : firstLookalike extra with
  | none =>
      have failed : (walkResult ⟨0, 0, 0, 0, interfaceNumber⟩ device extra).2 ≠ 0 := by
        simp only [walkResult, first]
        split <;> decide
      rw [if_pos failed]
      simp
  | some front =>
      have walked : walkResult ⟨0, 0, 0, 0, interfaceNumber⟩ device extra =
          queryVolumes (foundUnit front interfaceNumber) device := by
        simp only [walkResult, first, foundUnit]
      rw [walked]
      by_cases answers : device.AnswersQueries (foundUnit front interfaceNumber)
      · simp [queryVolumes_of_answers answers, answers, eq_comm]
      · have failed : (queryVolumes (foundUnit front interfaceNumber) device).2 ≠ 0 :=
          fun succeeds => answers (answers_of_queryVolumes succeeds)
        rw [if_pos failed]
        simp [answers]

def Device.stepSum (device : Device) (unit : FeatureUnit) : Int :=
  (device (getVolumeMsg unit CH_L UAC_GET_RES)).reply.toInt +
    (device (getVolumeMsg unit CH_R UAC_GET_RES)).reply.toInt

theorem queried_setsInRange_iff (unit : FeatureUnit) (device : Device) :
    (∀ left right v, (unit.queried device).SetsInRange left right v) ↔
      (device.averages unit UAC_GET_MAX).toInt < (device.averages unit UAC_GET_MIN).toInt ∨
        ¬(-1 ≤ device.stepSum unit ∧ device.stepSum unit ≤ 1) := by
  rw [setsInRange_iff]
  simp only [FeatureUnit.queried, ne_eq]
  rw [Device.stepSum, ← average_eq_zero_iff]
  rfl

/-- After a probe no `UAC_IOC_SET_VOL` divides by zero or leaves the range, unless the device
answered all queries with a range that is not empty and a step that averages to zero. -/
theorem probe_setsInRange_iff (device : Device) (interfaceNumber : BitVec 8) (extra : List Byte) :
    (∀ unit, uacProbeUnit device interfaceNumber extra = .ok (some unit) →
        ∀ left right v, unit.SetsInRange left right v) ↔
      ∀ front, firstLookalike extra = some front →
        device.AnswersQueries (foundUnit front interfaceNumber) →
          (device.averages (foundUnit front interfaceNumber) UAC_GET_MAX).toInt <
              (device.averages (foundUnit front interfaceNumber) UAC_GET_MIN).toInt ∨
            ¬(-1 ≤ device.stepSum (foundUnit front interfaceNumber) ∧
              device.stepSum (foundUnit front interfaceNumber) ≤ 1) := by
  constructor
  · intro sets front first answers
    rw [← queried_setsInRange_iff]
    exact sets _ (probeUnit_eq_iff.mpr ⟨front, first, answers, rfl⟩)
  · intro usable unit probed
    obtain ⟨front, first, answers, rfl⟩ := probeUnit_eq_iff.mp probed
    exact (queried_setsInRange_iff _ device).mpr (usable front first answers)

/-- Reports the range from -50 dB to 0 dB and no step. -/
def steplessDevice : Device :=
  fun msg => ⟨⟨true, 2⟩, if msg.request = UAC_GET_MIN then -12800 else 0⟩

theorem probe_setsOutOfRange :
    ¬∀ (device : Device) (interfaceNumber : BitVec 8) (extra : List Byte) (unit : FeatureUnit),
      uacProbeUnit device interfaceNumber extra = .ok (some unit) →
        ∀ left right v, unit.SetsInRange left right v := by
  intro claimed
  have probed : uacProbeUnit steplessDevice 0 [10, 0x24, 6, 2, 1, 1, 0, 3, 3, 0] =
      .ok (some ⟨-12800, 0, 0, 2, 0⟩) := by decide +kernel
  obtain ⟨reply, replied, _⟩ := claimed _ _ _ _ probed ⟨true, 2⟩ ⟨true, 2⟩ (some (-12800))
  have divides := @setVolume_divides ⟨-12800, 0, 0, 2, 0⟩ (by decide) (by decide) ⟨true, 2⟩
  rw [divides] at replied
  contradiction

end Ldd3.Uac
