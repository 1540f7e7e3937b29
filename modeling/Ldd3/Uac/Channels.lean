import Mathlib.Tactic
import Ldd3.Lib.StepMachine
import Ldd3.Uac.Range

/-!
The two channels of the device under any sequence of `UAC_IOC_SET_VOL` and `UAC_IOC_GET_VOL`.
The device stores the volume of a request that it acknowledges; any request may fail.
-/

namespace Ldd3.Uac

open StepMachine

def le16ToCpu (data : List Byte) : BitVec 16 :=
  .ofNat 16 ((data.getD 0 0).toNat + 256 * (data.getD 1 0).toNat)

/-- The volumes of the device; the last request that it acknowledged, if any, was for the right
channel when it is `settled`. -/
structure VolumeSys where
  left : BitVec 16
  right : BitVec 16
  settled : Bool
  deriving DecidableEq, Repr

def VolumeSys.equal (vol : BitVec 16) : VolumeSys := ⟨vol, vol, true⟩

def VolumeSys.receive (left right : ControlEnv) (sys : VolumeSys) (msg : ControlMsg) : VolumeSys :=
  if msg.value = uacWValue UAC_FU_VOLUME CH_L then
    if left.answer = 2 then { sys with left := le16ToCpu msg.data, settled := false } else sys
  else if right.answer = 2 then { sys with right := le16ToCpu msg.data, settled := true } else sys

def VolumeSys.device (sys : VolumeSys) (left right : ControlEnv) : Device :=
  fun msg =>
    if msg.value = uacWValue UAC_FU_VOLUME CH_L then ⟨left, sys.left⟩ else ⟨right, sys.right⟩

/-- `UAC_IOC_GET_VOL` in `uac_ioctl`; `fault` is that of `copy_to_user`. -/
def uacIoctlGetVol (unit : FeatureUnit) (device : Device) (fault : Bool) :
    Except Int (BitVec 16) := do
  let v ← uacGetVolume unit device UAC_GET_CUR
  if fault then .error (-EFAULT) else .ok v

inductive VolumeCall
  | set (left right : ControlEnv) (v : Option (BitVec 16))
  | get (left right : ControlEnv) (fault : Bool)

def VolumeSys.afterSet (sys : VolumeSys) (left right : ControlEnv) (reply : VolumeReply) :
    VolumeSys :=
  reply.sent.foldl (VolumeSys.receive left right) sys

def volumeStep (unit : FeatureUnit) (sys : VolumeSys) : VolumeCall → Option VolumeSys
  | .set left right v =>
      match uacIoctlSetVol unit left right v with
      | .error _ => none
      | .ok reply => some (sys.afterSet left right reply)
  | .get _ _ _ => some sys

/-! One call. -/

theorem le16ToCpu_cpuToLe16 (vol : BitVec 16) : le16ToCpu (cpuToLe16 vol) = vol := by
  have bound := vol.isLt
  apply BitVec.eq_of_toNat_eq
  simp only [le16ToCpu, cpuToLe16, List.getD_cons_zero, List.getD_cons_succ, UInt8.toNat_ofNat',
    BitVec.toNat_ofNat]
  omega

theorem average_self (vol : BitVec 16) : average vol vol = vol := by
  apply BitVec.eq_of_toInt_eq
  rw [average_toInt, ← two_mul, Int.mul_tdiv_cancel_left _ (by decide)]

section Calls

variable {unit : FeatureUnit} {left right : ControlEnv} {vol value : BitVec 16}

theorem receive_left (sys : VolumeSys) :
    sys.receive left right (setCurVolume unit CH_L value) =
      if left.answer = 2 then ⟨value, sys.right, false⟩ else sys := by
  simp only [VolumeSys.receive, setCurVolume, CH_L, le16ToCpu_cpuToLe16, ↓reduceIte]

theorem receive_right (sys : VolumeSys) :
    sys.receive left right (setCurVolume unit CH_R value) =
      if right.answer = 2 then ⟨sys.left, value, true⟩ else sys := by
  have other : ¬uacWValue UAC_FU_VOLUME (CH_R % 256) = uacWValue UAC_FU_VOLUME CH_L := by decide
  simp only [VolumeSys.receive, setCurVolume, other, le16ToCpu_cpuToLe16, ↓reduceIte]

inductive SetOutcome (unit : FeatureUnit) (left right : ControlEnv) (v : Option (BitVec 16))
    (sys : VolumeSys) : Int → VolumeSys → Prop
  | refused {ret : Int} : ret < 0 →
      (∀ vol, v = some vol → unit.Contains vol → ¬left.Answered) →
      SetOutcome unit left right v sys ret sys
  | leftOnly {ret : Int} {vol value : BitVec 16} : ret < 0 → v = some vol → unit.Contains vol →
      roundVolume unit vol = .ok value → left.Answered → ¬right.Answered →
      SetOutcome unit left right v sys ret ⟨value, sys.right, false⟩
  | both {vol value : BitVec 16} : v = some vol → unit.Contains vol →
      roundVolume unit vol = .ok value → left.Answered → right.Answered →
      SetOutcome unit left right v sys 0 ⟨value, value, true⟩

theorem setChannel_cases {env : ControlEnv} {ch : Nat} {reply : VolumeReply}
    (replied : _uacSetVolume unit env ch vol = .ok reply) :
    (env.Answered ∧ ∃ value, roundVolume unit vol = .ok value ∧
        reply = ⟨[setCurVolume unit ch value], 0⟩) ∨
      (¬env.Answered ∧ reply.ret < 0 ∧
        (reply.sent = [] ∨
          env.answer ≠ 2 ∧ ∃ value, reply.sent = [setCurVolume unit ch value])) := by
  simp only [_uacSetVolume] at replied
  split at replied
  · rename_i allocated
    obtain ⟨value, rounded, replied⟩ := bind_eq_ok_iff.mp replied
    simp only [Except.ok.injEq] at replied
    subst replied
    by_cases answered : env.answer = 2
    · exact .inl ⟨⟨allocated, answered⟩, value, rounded, by simp only [answered, ↓reduceIte]⟩
    · refine .inr ⟨fun both => answered both.2, ?_, .inr ⟨answered, value, rfl⟩⟩
      simp only [answered, ↓reduceIte, EIO]
      split <;> omega
  · rename_i exhausted
    simp only [Except.ok.injEq] at replied
    subst replied
    exact .inr ⟨fun both => exhausted both.1, by decide, .inl rfl⟩

theorem setVolume_outcome {v : Option (BitVec 16)} {reply : VolumeReply}
    (replied : uacIoctlSetVol unit left right v = .ok reply) (sys : VolumeSys) :
    SetOutcome unit left right v sys reply.ret (sys.afterSet left right reply) := by
  rcases uacIoctlSetVol_cases replied with
    ⟨none, failed, outside⟩ | ⟨vol, first, rfl, above, below, repliedFirst, rest⟩
  · have unchanged : sys.afterSet left right reply = sys := by
      simp only [VolumeSys.afterSet, none, List.foldl_nil]
    rw [unchanged]
    exact .refused failed fun vol given contained => absurd contained (outside vol given)
  have contained : unit.Contains vol := ⟨above, below⟩
  rcases setChannel_cases repliedFirst with
    ⟨leftAnswered, value, rounded, rfl⟩ | ⟨unanswered, failed, sent⟩
  · have leftStored : sys.receive left right (setCurVolume unit CH_L value) =
        ⟨value, sys.right, false⟩ := by
      rw [receive_left, if_pos leftAnswered.2]
    obtain ⟨_, second, repliedSecond, rfl⟩ := rest.resolve_left fun early => early.1.false
    rcases setChannel_cases repliedSecond with
      ⟨rightAnswered, other, roundedOther, rfl⟩ | ⟨unanswered, failed, sent⟩
    · rw [rounded, Except.ok.injEq] at roundedOther
      subst roundedOther
      have after : sys.afterSet left right
          ⟨[setCurVolume unit CH_L value, setCurVolume unit CH_R value], 0⟩ =
            ⟨value, value, true⟩ := by
        simp only [VolumeSys.afterSet, List.foldl_cons, List.foldl_nil, leftStored,
          receive_right, rightAnswered.2, ↓reduceIte]
      simp only [lt_irrefl, ↓reduceIte, List.cons_append, List.nil_append, after]
      exact .both rfl contained rounded leftAnswered rightAnswered
    · rw [if_pos failed]
      have after : sys.afterSet left right
          ⟨[setCurVolume unit CH_L value] ++ second.sent, second.ret⟩ =
            ⟨value, sys.right, false⟩ := by
        rcases sent with none | ⟨notStored, other, one⟩
        · simp only [VolumeSys.afterSet, none, List.append_nil, List.foldl_cons,
            List.foldl_nil, leftStored]
        · simp only [VolumeSys.afterSet, one, List.cons_append, List.nil_append,
            List.foldl_cons, List.foldl_nil, leftStored, receive_right, notStored,
            ↓reduceIte]
      rw [after]
      exact .leftOnly failed rfl contained rounded leftAnswered unanswered
  · obtain ⟨_, rfl⟩ := rest.resolve_right fun later => later.1 failed
    have unchanged : sys.afterSet left right reply = sys := by
      rcases sent with none | ⟨notStored, other, one⟩
      · simp only [VolumeSys.afterSet, none, List.foldl_nil]
      · simp only [VolumeSys.afterSet, one, List.foldl_cons, List.foldl_nil, receive_left,
          notStored, ↓reduceIte]
    rw [unchanged]
    exact .refused failed fun _ _ _ => unanswered

theorem getVolume_reads {sys : VolumeSys} {fault : Bool}
    (got : uacIoctlGetVol unit (sys.device left right) fault = .ok value) :
    value = average sys.left sys.right := by
  by_cases answers : (sys.device left right).Answers unit UAC_GET_CUR
  · simp only [uacIoctlGetVol, getVolume_of_answers answers] at got
    cases fault with
    | false => exact (Except.ok.inj got).symm
    | true => exact absurd got (by simp [bind, Except.bind])
  · obtain ⟨ret, failed, _⟩ := getVolume_fails answers
    simp [uacIoctlGetVol, failed, bind, Except.bind] at got

end Calls

/-- What the calls promise in a state of the device: a `SET_VOL` that returns 0 leaves its rounded
volume in both channels, and `GET_VOL` reads it; one that fails leaves the right channel alone. -/
structure KeepsChannels (unit : FeatureUnit) (sys : VolumeSys) : Prop where
  equal : sys.settled = true → sys.left = sys.right
  set : ∀ left right v reply, uacIoctlSetVol unit left right v = .ok reply →
    SetOutcome unit left right v sys reply.ret (sys.afterSet left right reply)
  setThenGet : ∀ left right vol reply, uacIoctlSetVol unit left right (some vol) = .ok reply →
    reply.ret = 0 → ∃ value, roundVolume unit vol = .ok value ∧
      ∀ left' right' fault got,
        uacIoctlGetVol unit ((sys.afterSet left right reply).device left' right') fault =
          .ok got → got = value
  get : ∀ left right fault got, uacIoctlGetVol unit (sys.device left right) fault = .ok got →
    got = average sys.left sys.right ∧ (sys.settled = true → got = sys.left)

theorem keepsChannels_of_equal {unit : FeatureUnit} {sys : VolumeSys}
    (equal : sys.settled = true → sys.left = sys.right) : KeepsChannels unit sys where
  equal := equal
  set := fun _ _ _ _ replied => setVolume_outcome replied sys
  setThenGet := by
    intro left right vol reply replied done
    have outcome := setVolume_outcome replied sys
    rw [done] at outcome
    generalize after : sys.afterSet left right reply = next at outcome ⊢
    cases outcome with
    | refused failed => contradiction
    | leftOnly failed => contradiction
    | @both vol' value same contained rounded =>
        rw [← Option.some.inj same] at rounded
        refine ⟨value, rounded, ?_⟩
        intro left' right' fault got read
        rw [getVolume_reads read, average_self]
  get := by
    intro left right fault got read
    have reads := getVolume_reads read
    refine ⟨reads, fun settled => ?_⟩
    rw [reads, ← equal settled, average_self]

theorem volumeStep_equal {unit : FeatureUnit} {sys next : VolumeSys} {call : VolumeCall}
    (equal : sys.settled = true → sys.left = sys.right)
    (taken : volumeStep unit sys call = some next) :
    next.settled = true → next.left = next.right := by
  cases call with
  | get left right fault =>
      simp only [volumeStep, Option.some.injEq] at taken
      exact taken ▸ equal
  | set left right v =>
      simp only [volumeStep] at taken
      split at taken
      · contradiction
      · rename_i reply replied
        have outcome := setVolume_outcome replied sys
        rw [Option.some.inj taken] at outcome
        generalize reply.ret = ret at outcome
        cases outcome with
        | refused => exact equal
        | leftOnly => intro settled; contradiction
        | both => intro _; rfl

/-- In every state that a sequence of calls reaches from equal channels, the channels differ only
after a `SET_VOL` whose request for the right channel alone failed. -/
theorem volume_keepsChannels (unit : FeatureUnit) (vol : BitVec 16) (calls : List VolumeCall) :
    Always (volumeStep unit) (KeepsChannels unit) (VolumeSys.equal vol) calls :=
  always_of_meets (fun _ _ _ equal _ taken => volumeStep_equal equal taken)
    (fun _ equal => keepsChannels_of_equal equal) (fun _ => rfl) (meets_true _ calls)

/-- The two channels never differ: an ioctl that fails changes neither. -/
structure SetsBothOrNone (unit : FeatureUnit) (sys : VolumeSys) : Prop where
  equal : sys.left = sys.right
  failed : ∀ left right v reply, uacIoctlSetVol unit left right v = .ok reply → reply.ret < 0 →
    (sys.afterSet left right reply).left = sys.left ∧
      (sys.afterSet left right reply).right = sys.right
  setThenGet : ∀ left right vol reply, uacIoctlSetVol unit left right (some vol) = .ok reply →
    reply.ret = 0 → ∃ value, roundVolume unit vol = .ok value ∧
      ∀ left' right' fault got,
        uacIoctlGetVol unit ((sys.afterSet left right reply).device left' right') fault =
          .ok got → got = value

/-- The right channel stalls once, and the failed ioctl leaves the new volume on the left. -/
theorem volume_channels_differ :
    ¬∀ (unit : FeatureUnit) (vol : BitVec 16) (calls : List VolumeCall),
      Always (volumeStep unit) (SetsBothOrNone unit) (VolumeSys.equal vol) calls := by
  intro claimed
  have first := (claimed ⟨0, 256, 1, 2, 0⟩ 0 []).head
  have stalls : uacIoctlSetVol ⟨0, 256, 1, 2, 0⟩ ⟨true, 2⟩ ⟨true, -32⟩ (some 256) =
      .ok ⟨[setCurVolume ⟨0, 256, 1, 2, 0⟩ CH_L 256, setCurVolume ⟨0, 256, 1, 2, 0⟩ CH_R 256],
        -32⟩ := by decide +kernel
  have kept := (first.failed ⟨true, 2⟩ ⟨true, -32⟩ (some 256) _ stalls (by decide)).1
  exact absurd kept (by decide +kernel)

end Ldd3.Uac
