import Mathlib.Tactic
import Ldd3.Kernel

/-!
`edu_probe`: its acquisitions, its two checks of the device, and the ladder of
labels that it leaves through. What the PCI, interrupt, DMA and misc helpers
answer is given by the environment.
-/

namespace Ldd3.Edu

def ENODEV : Int := 19

inductive Resource
  | device
  | memRegions
  | bar0
  | irqVectors
  | irq
  | dmaBuf
  | miscdev
  deriving DecidableEq, Repr

structure Status where
  code : Int
  nonpos : code ≤ 0
  deriving DecidableEq, Repr

def Status.ok : Status := ⟨0, le_rfl⟩

/-- `irqVectors` is the number of vectors or a negative error; the two registers are what
`ioread32` reads from them. -/
structure ProbeEnv where
  kzalloc : Bool
  enableDevice : Status
  requestRegions : Status
  iomap : Bool
  idReg : BitVec 32
  livenessReg : BitVec 32
  irqVectors : Int
  requestIrq : Status
  dmaMask : Status
  dmaAlloc : Bool
  miscRegister : Status

inductive ProbeOutcome
  | returned (ret : Int) (acquired released : List Resource)
  | oops
  deriving DecidableEq, Repr

inductive Rung
  | errFreeDma
  | errIrq
  | errVectors
  | unmap
  | releaseMem
  | disableDev
  deriving DecidableEq, Repr

def ladder : List Resource := [.dmaBuf, .irq, .irqVectors, .bar0, .memRegions, .device]

def unwind (rung : Rung) : List Resource := ladder.drop rung.ctorIdx

def leave (ret : Int) (acquired : List Resource) (rung : Rung) : ProbeOutcome :=
  .returned ret acquired (unwind rung)

def signatureMatches (reg : BitVec 32) : Bool := reg &&& 0xFF == 0xED

def revisionPresent (reg : BitVec 32) : Bool :=
  !((reg >>> 24 &&& 0xFF == 0) && (reg >>> 16 &&& 0xFF == 0))

/-- `edu_probe`. The checks jump with `ret` as `pci_request_mem_regions` left it, and the
allocation of `struct edu_dev` is not checked before `mutex_init` uses it. -/
def eduProbe (env : ProbeEnv) : ProbeOutcome :=
  if !env.kzalloc then .oops
  else if env.enableDevice.code ≠ 0 then .returned env.enableDevice.code [] []
  else
    let ret := env.requestRegions.code
    if ret ≠ 0 then leave ret [.device] .disableDev
    else if !env.iomap then leave (-ENODEV) [.device, .memRegions] .releaseMem
    else
      let acquired := [.device, .memRegions, .bar0]
      if !signatureMatches env.idReg then leave ret acquired .releaseMem
      else if !revisionPresent env.idReg then leave ret acquired .releaseMem
      else if env.livenessReg ≠ 0 then leave ret acquired .releaseMem
      else if env.irqVectors < 0 then leave (-ENODEV) acquired .unmap
      else
        let ret := env.requestIrq.code
        if ret < 0 then leave ret (acquired ++ [.irqVectors]) .errVectors
        else
          let acquired := acquired ++ [.irqVectors, .irq]
          let ret := env.dmaMask.code
          if ret ≠ 0 then leave ret acquired .errIrq
          else if !env.dmaAlloc then leave (-ENOMEM) acquired .errIrq
          else
            let ret := env.miscRegister.code
            if ret ≠ 0 then leave ret (acquired ++ [.dmaBuf]) .errFreeDma
            else .returned 0 (acquired ++ [.dmaBuf, .miscdev]) []

/-! What a probe should leave behind. -/

def ProbeEnv.checksPass (env : ProbeEnv) : Bool :=
  signatureMatches env.idReg && revisionPresent env.idReg && env.livenessReg == 0

def ProbeEnv.Mapped (env : ProbeEnv) : Prop :=
  env.enableDevice.code = 0 ∧ env.requestRegions.code = 0 ∧ env.iomap = true

instance (env : ProbeEnv) : Decidable env.Mapped := by
  unfold ProbeEnv.Mapped
  infer_instance

structure ProbeEnv.AllSucceed (env : ProbeEnv) : Prop where
  kzalloc : env.kzalloc = true
  mapped : env.Mapped
  checks : env.checksPass = true
  irqVectors : 0 ≤ env.irqVectors
  requestIrq : env.requestIrq.code = 0
  dmaMask : env.dmaMask.code = 0
  dmaAlloc : env.dmaAlloc = true
  miscRegister : env.miscRegister.code = 0

def Balanced (acquired released : List Resource) : Prop :=
  ∀ resource, released.count resource = if resource ∈ acquired then 1 else 0

structure ProbeCorrect (env : ProbeEnv) (ret : Int) (acquired released : List Resource) : Prop where
  nonpos : ret ≤ 0
  zero_iff : ret = 0 ↔ env.AllSucceed
  held : ret = 0 → (∀ resource, resource ∈ acquired) ∧ released = []
  unwound : ret < 0 → Balanced acquired released

theorem balanced_of_reverse {acquired released : List Resource} (distinct : acquired.Nodup)
    (reversed : released = acquired.reverse) : Balanced acquired released := by
  intro resource
  rw [reversed, List.count_reverse, List.Nodup.count distinct]

theorem probeCorrect_of_failure {env : ProbeEnv} {ret : Int} {acquired released : List Resource}
    (failed : ret < 0) (reason : ¬env.AllSucceed) (distinct : acquired.Nodup)
    (reversed : released = acquired.reverse) : ProbeCorrect env ret acquired released where
  nonpos := failed.le
  zero_iff := iff_of_false failed.ne reason
  held := fun zero => absurd zero failed.ne
  unwound := fun _ => balanced_of_reverse distinct reversed

theorem Status.code_neg {status : Status} (nonzero : status.code ≠ 0) : status.code < 0 :=
  lt_of_le_of_ne status.nonpos nonzero

theorem checksPass_iff (env : ProbeEnv) :
    env.checksPass = true ↔ signatureMatches env.idReg = true ∧ revisionPresent env.idReg = true ∧
      env.livenessReg = 0 := by
  simp only [ProbeEnv.checksPass, Bool.and_eq_true, beq_iff_eq, and_assoc]

/-- A failed check leaves with the 0 of the step before it, and past the label that unmaps. -/
theorem eduProbe_check_failed {env : ProbeEnv} (kzalloc : env.kzalloc = true) (mapped : env.Mapped)
    (failed : env.checksPass = false) :
    eduProbe env = leave 0 [.device, .memRegions, .bar0] .releaseMem := by
  obtain ⟨enabled, regions, iomap⟩ := mapped
  simp only [eduProbe, kzalloc, enabled, regions, iomap, Bool.not_true, Bool.false_eq_true,
    ne_eq, not_true_eq_false, ↓reduceIte]
  by_cases signature : signatureMatches env.idReg = true
  · by_cases revision : revisionPresent env.idReg = true
    · have alive : ¬env.livenessReg = 0 := by
        intro zero
        rw [(checksPass_iff env).mpr ⟨signature, revision, zero⟩] at failed
        contradiction
      simp only [signature, revision, alive, Bool.not_true, Bool.false_eq_true, not_false_eq_true,
        ↓reduceIte]
    · simp only [signature, revision, Bool.not_true, Bool.not_false, Bool.false_eq_true, ↓reduceIte]
  · simp only [signature, Bool.not_false, ↓reduceIte]

theorem eduProbe_correct {env : ProbeEnv} (kzalloc : env.kzalloc = true)
    (checked : env.Mapped → env.checksPass = true) :
    ∃ ret acquired released, eduProbe env = .returned ret acquired released ∧
      ProbeCorrect env ret acquired released := by
  simp only [eduProbe, kzalloc, Bool.not_true, Bool.false_eq_true, ↓reduceIte]
  by_cases enabled : env.enableDevice.code = 0
  swap
  · refine ⟨_, _, _, if_pos enabled, ?_⟩
    exact probeCorrect_of_failure (Status.code_neg enabled)
      (fun all => enabled all.mapped.1) (by decide) rfl
  rw [if_neg (not_not.mpr enabled)]
  by_cases regions : env.requestRegions.code = 0
  swap
  · refine ⟨_, _, _, if_pos regions, ?_⟩
    exact probeCorrect_of_failure (Status.code_neg regions)
      (fun all => regions all.mapped.2.1) (by decide) rfl
  rw [if_neg (not_not.mpr regions)]
  cases iomap : env.iomap with
  | false =>
      refine ⟨_, _, _, rfl, ?_⟩
      apply probeCorrect_of_failure (by decide) _ (by decide) rfl
      intro all
      rw [all.mapped.2.2] at iomap
      contradiction
  | true =>
      obtain ⟨signature, revision, alive⟩ :=
        (checksPass_iff env).mp (checked ⟨enabled, regions, iomap⟩)
      simp only [signature, revision, alive, Bool.not_true, Bool.false_eq_true, ne_eq,
        not_true_eq_false, ↓reduceIte]
      by_cases vectors : env.irqVectors < 0
      · refine ⟨_, _, _, if_pos vectors, ?_⟩
        exact probeCorrect_of_failure (by decide) (fun all => all.irqVectors.not_gt vectors)
          (by decide) rfl
      rw [if_neg vectors]
      by_cases irq : env.requestIrq.code < 0
      · refine ⟨_, _, _, if_pos irq, ?_⟩
        exact probeCorrect_of_failure irq (fun all => irq.ne all.requestIrq) (by decide) rfl
      rw [if_neg irq]
      by_cases mask : env.dmaMask.code = 0
      swap
      · refine ⟨_, _, _, if_pos mask, ?_⟩
        exact probeCorrect_of_failure (Status.code_neg mask) (fun all => mask all.dmaMask)
          (by decide) rfl
      rw [if_neg (not_not.mpr mask)]
      cases buffer : env.dmaAlloc with
      | false =>
          refine ⟨_, _, _, rfl, ?_⟩
          apply probeCorrect_of_failure (by decide) _ (by decide) rfl
          intro all
          rw [all.dmaAlloc] at buffer
          contradiction
      | true =>
          simp only [Bool.not_true, Bool.false_eq_true, ↓reduceIte]
          by_cases misc : env.miscRegister.code = 0
          · have succeed : env.AllSucceed :=
              { kzalloc, mapped := ⟨enabled, regions, iomap⟩
                checks := checked ⟨enabled, regions, iomap⟩
                irqVectors := not_lt.mp vectors
                requestIrq := le_antisymm env.requestIrq.nonpos (not_lt.mp irq)
                dmaMask := mask, dmaAlloc := buffer, miscRegister := misc }
            refine ⟨_, _, _, if_neg (not_not.mpr misc), le_rfl, iff_of_true rfl succeed, ?_, ?_⟩
            · intro _
              exact ⟨fun resource => by cases resource <;> decide, rfl⟩
            · intro negative
              exact absurd negative (lt_irrefl 0)
          · refine ⟨_, _, _, if_pos misc, ?_⟩
            exact probeCorrect_of_failure (Status.code_neg misc) (fun all => misc all.miscRegister)
              (by decide) rfl

/-- The probe returns and is right about its result and its resources exactly when the device
structure was allocated and the checks, if it gets to them, pass. -/
theorem eduProbe_correct_iff (env : ProbeEnv) :
    (∃ ret acquired released, eduProbe env = .returned ret acquired released ∧
        ProbeCorrect env ret acquired released) ↔
      env.kzalloc = true ∧ (env.Mapped → env.checksPass = true) := by
  constructor
  · rintro ⟨ret, acquired, released, probed, correct⟩
    cases kzalloc : env.kzalloc with
    | false => simp [eduProbe, kzalloc] at probed
    | true =>
        refine ⟨rfl, fun mapped => ?_⟩
        by_contra failed
        rw [Bool.not_eq_true] at failed
        rw [eduProbe_check_failed kzalloc mapped failed, leave, ProbeOutcome.returned.injEq] at probed
        have succeed := correct.zero_iff.mp probed.1.symm
        rw [succeed.checks] at failed
        contradiction
  · rintro ⟨kzalloc, checked⟩
    exact eduProbe_correct kzalloc checked

def foreignDevice : ProbeEnv where
  kzalloc := true
  enableDevice := .ok
  requestRegions := .ok
  iomap := true
  idReg := 0
  livenessReg := 0
  irqVectors := 1
  requestIrq := .ok
  dmaMask := .ok
  dmaAlloc := true
  miscRegister := .ok

/-- It is reported as probed, its BAR stays mapped and the rest is released. -/
theorem eduProbe_incorrect :
    eduProbe foreignDevice =
        .returned 0 [.device, .memRegions, .bar0] [.memRegions, .device] ∧
      ¬∀ env, ∃ ret acquired released, eduProbe env = .returned ret acquired released ∧
        ProbeCorrect env ret acquired released := by
  have probed : eduProbe foreignDevice =
      .returned 0 [.device, .memRegions, .bar0] [.memRegions, .device] := by decide
  refine ⟨probed, fun claimed => ?_⟩
  obtain ⟨ret, acquired, released, returned, correct⟩ := claimed foreignDevice
  rw [probed, ProbeOutcome.returned.injEq] at returned
  have succeed := correct.zero_iff.mp returned.1.symm
  exact absurd succeed.checks (by decide)

end Ldd3.Edu
