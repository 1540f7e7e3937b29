import Mathlib.Tactic
import Ldd3.Lib.StepMachine
import Ldd3.Adc.Core

/-!
Every sample against the reads. `mcp3008_read` empties the fifo before it knows how many
samples the caller has room for, and copies rows of `buf` with their terminators as if they
were one text.
-/

namespace Ldd3.Adc

open CInt (int32)

def samplesText (samples : List Nat) : List Byte := samples.flatMap sampleText

/-- The samples that left the fifo are the oldest ones, and the reads returned their texts. -/
def SamplesKept (sys : AdcSys) : Prop :=
  ∃ gone, sys.converted = gone ++ sys.fifo ∧ sys.delivered = samplesText gone

/-- A read finds the fifo empty, or one sample of at most three digits that the caller has
room for and that is copied without a fault. -/
def ReadsWhole (sys : AdcSys) : AdcAction → Prop
  | .complete _ _ => True
  | .read env _ count =>
      sys.fifo = [] ∨ ∃ sample, sys.fifo = [sample] ∧ sample < 1000 ∧
        0 < int32 (count / 5 : Nat) ∧ env.faults (sampleText sample).length = false

structure FifoInvariant (sys : AdcSys) : Prop where
  bounded : sys.fifo.length ≤ FIFO_SAMPLES
  samples : ∀ sample ∈ sys.fifo, sample < 1024

/-! The text of a sample. -/

theorem sampleValue_lt (rx1 rx2 : Byte) : sampleValue rx1 rx2 < 1024 := by
  have low := rx2.toNat_lt
  simp only [sampleValue]
  omega

theorem length_sampleText (sample : Nat) :
    (sampleText sample).length = (Nat.toDigits 10 sample).length + 1 := by
  simp [sampleText]

theorem two_le_length_sampleText (sample : Nat) : 2 ≤ (sampleText sample).length := by
  have digits : 0 < (Nat.toDigits 10 sample).length := Nat.length_toDigits_pos
  rw [length_sampleText]
  omega

theorem length_sampleText_le_iff (sample : Nat) :
    (sampleText sample).length ≤ 4 ↔ sample < 1000 := by
  have digits : (Nat.toDigits 10 sample).length ≤ 3 ↔ sample < 10 ^ 3 :=
    Nat.length_toDigits_le_iff (by decide) (by decide)
  rw [length_sampleText]
  omega

theorem zero_not_mem_sampleText (sample : Nat) : 0 ∉ sampleText sample := by
  intro inside
  rw [sampleText, List.mem_append, List.mem_map] at inside
  obtain ⟨digit, listed, byte⟩ | newline := inside
  · have range := Nat.isDigit_of_mem_toDigits (by decide) (by decide) listed
    have value := congrArg UInt8.toNat byte
    simp only [Char.isDigit, Bool.and_eq_true, decide_eq_true_eq, UInt32.le_iff_toNat_le] at range
    change digit.toNat % 256 = 0 at value
    change 48 ≤ digit.toNat ∧ digit.toNat ≤ 57 at range
    omega
  · simp at newline

theorem zero_not_mem_samplesText (samples : List Nat) : 0 ∉ samplesText samples := by
  intro inside
  obtain ⟨sample, _, byte⟩ := List.mem_flatMap.mp inside
  exact zero_not_mem_sampleText sample byte

/-! What a read of the popped samples returns. -/

theorem zero_mem_rows (junk : Nat → Byte) {first len : Nat} (rest : List (Nat × Nat))
    (past : (scnprintf first).length < len) :
    0 ∈ (((first, 0) :: rest).map fun entry => textRow junk entry.2 entry.1).flatten.take len := by
  have reaches : ((((first, 0) :: rest).map fun entry =>
      textRow junk entry.2 entry.1).flatten.take len)[(scnprintf first).length]? = some 0 := by
    rw [List.getElem?_take_of_lt past]
    simp only [List.map_cons, List.flatten_cons, textRow, List.append_assoc]
    rw [List.getElem?_append_right (le_refl _), Nat.sub_self]
    rfl
  exact List.mem_of_getElem? reaches

theorem copySamples_sys (env : Env) (sys : AdcSys) (samples : List Nat) (count : Nat) :
    (copySamples env sys samples count).sys = sys := by
  simp only [copySamples]
  split_ifs <;> rfl

theorem copySamples_out (env : Env) (sys : AdcSys) (samples : List Nat) (count : Nat) :
    (copySamples env sys samples count).out = [] ∨
      ∃ fitting len, (copySamples env sys samples count).out =
        (((samples.take fitting).zipIdx.map fun entry =>
          textRow env.junk entry.2 entry.1).flatten).take len := by
  by_cases fitting : numSamples samples.length count = 0
  · simp only [copySamples, fitting, ↓reduceIte, true_or]
  · simp only [copySamples, fitting, ↓reduceIte]
    generalize (if count < _ then count else _) = len
    by_cases fault : env.faults len = true
    · simp only [fault, ↓reduceIte, true_or]
    · rw [if_neg fault]
      exact .inr ⟨_, len, rfl⟩

theorem copySamples_several (env : Env) (sys : AdcSys) (first second : Nat) (more : List Nat)
    (count : Nat) :
    (copySamples env sys (first :: second :: more) count).out ≠
      samplesText (first :: second :: more) := by
  intro whole
  have firstLong := two_le_length_sampleText first
  have secondLong := two_le_length_sampleText second
  have total : (scnprintf first).length < (samplesText (first :: second :: more)).length := by
    simp only [samplesText, List.flatMap_cons, List.length_append, scnprintf, List.length_take]
    omega
  rcases copySamples_out env sys (first :: second :: more) count with none | ⟨fitting, len, rows⟩
  · rw [← whole, none, List.length_nil] at total
    omega
  rw [whole] at rows
  cases fitting with
  | zero =>
      simp only [List.take_zero, List.zipIdx_nil, List.map_nil, List.flatten_nil,
        List.take_nil] at rows
      rw [rows, List.length_nil] at total
      omega
  | succ fitting =>
      simp only [List.take_succ_cons, List.zipIdx_cons] at rows
      by_cases past : (scnprintf first).length < len
      · have terminator := zero_mem_rows env.junk
          (((second :: more).take fitting).zipIdx (0 + 1)) past
        rw [← rows] at terminator
        exact zero_not_mem_samplesText _ terminator
      · rw [rows, List.length_take] at total
        omega

theorem scnprintf_eq_iff (sample : Nat) : scnprintf sample = sampleText sample ↔ sample < 1000 := by
  rw [← length_sampleText_le_iff]
  constructor
  · intro same
    have lengths := congrArg List.length same
    rw [scnprintf, List.length_take] at lengths
    omega
  · exact List.take_of_length_le

theorem copySamples_room (env : Env) (sys : AdcSys) (sample : Nat) {count : Nat}
    (room : 0 < int32 (count / 5 : Nat)) :
    (copySamples env sys [sample] count).out =
      if env.faults (scnprintf sample).length then [] else scnprintf sample := by
  have one : numSamples [sample].length count = 1 := by
    simp only [numSamples, List.length_singleton, Nat.cast_one]
    omega
  have fits : ¬ count < (scnprintf sample).length := by
    have atMost : (scnprintf sample).length ≤ 4 := by
      rw [scnprintf, List.length_take]
      omega
    have quotient : 0 < count / 5 := by
      by_contra none
      have zero : count / 5 = 0 := by omega
      rw [zero] at room
      exact absurd room (by decide)
    omega
  have taken : [sample].take (1 : Int).toNat = [sample] := rfl
  have front : (textRow env.junk 0 sample).take (scnprintf sample).length = scnprintf sample := by
    simp only [textRow, List.take_left']
  simp only [copySamples, one, one_ne_zero, ↓reduceIte, taken, List.zipIdx_cons, List.zipIdx_nil,
    List.map_cons, List.map_nil, List.flatten_cons, List.flatten_nil, List.append_nil,
    List.sum_cons, List.sum_nil, Nat.add_zero, fits, front]
  split_ifs <;> rfl

/-- Without room for one sample, and also where the number of samples overflows. -/
theorem copySamples_noRoom (env : Env) (sys : AdcSys) (sample : Nat) {count : Nat}
    (room : ¬ 0 < int32 (count / 5 : Nat)) : (copySamples env sys [sample] count).out = [] := by
  have few : numSamples [sample].length count ≤ 0 := by
    simp only [numSamples]
    omega
  by_cases zero : numSamples [sample].length count = 0
  · simp only [copySamples, zero, ↓reduceIte]
  · have negative : (numSamples [sample].length count).toNat = 0 := by omega
    simp only [copySamples, zero, ↓reduceIte, negative, List.take_zero, List.zipIdx_nil,
      List.map_nil, List.flatten_nil, List.take_nil]
    split_ifs <;> rfl

theorem copySamples_one (env : Env) (sys : AdcSys) (sample count : Nat) :
    (copySamples env sys [sample] count).out = samplesText [sample] ↔
      sample < 1000 ∧ 0 < int32 (count / 5 : Nat) ∧
        env.faults (sampleText sample).length = false := by
  have text : samplesText [sample] = sampleText sample := by
    simp only [samplesText, List.flatMap_cons, List.flatMap_nil, List.append_nil]
  have filled : sampleText sample ≠ [] := by
    intro empty
    have long := two_le_length_sampleText sample
    rw [empty, List.length_nil] at long
    omega
  rw [text]
  by_cases room : 0 < int32 (count / 5 : Nat)
  · rw [copySamples_room env sys sample room]
    by_cases threeDigits : sample < 1000
    · rw [(scnprintf_eq_iff sample).mpr threeDigits]
      cases env.faults (sampleText sample).length with
      | true => simp [filled.symm]
      | false => simpa [threeDigits] using room
    · have cut : scnprintf sample ≠ sampleText sample :=
        fun same => threeDigits ((scnprintf_eq_iff sample).mp same)
      cases env.faults (scnprintf sample).length with
      | true => simp [filled.symm, threeDigits]
      | false => simp [cut, threeDigits]
  · rw [copySamples_noRoom env sys sample room]
    exact ⟨fun empty => absurd empty.symm filled, fun whole => absurd whole.2.1 room⟩

/-! The steps of a run. -/

theorem read_cases {sys next : AdcSys} {env : Env} {nonblock : Bool} {count : Nat}
    (bounded : sys.fifo.length ≤ FIFO_SAMPLES)
    (taken : adcStep sys (.read env nonblock count) = some next) :
    sys.fifo = [] ∧ next = sys ∨ sys.fifo ≠ [] ∧ next =
      { fifo := [], converted := sys.converted
        delivered := sys.delivered ++
          (copySamples env { sys with fifo := [] } sys.fifo count).out } := by
  obtain ⟨reply, replied, rfl⟩ := Option.map_eq_some_iff.mp taken
  simp only [mcp3008Read] at replied
  by_cases empty : sys.fifo = []
  · left
    rw [if_pos empty] at replied
    have unchanged : reply.sys = sys ∧ reply.out = [] := by
      split_ifs at replied
      · rw [← Option.some.inj replied]
        exact ⟨rfl, rfl⟩
      · rw [← Option.some.inj replied]
        exact ⟨rfl, rfl⟩
    rw [unchanged.1, unchanged.2, List.append_nil]
    exact ⟨empty, rfl⟩
  · right
    rw [if_neg empty, List.take_of_length_le bounded, List.drop_eq_nil_of_le bounded,
      Option.some.injEq] at replied
    rw [← replied, copySamples_sys]
    exact ⟨empty, rfl⟩

theorem complete_cases (sys : AdcSys) (rx1 rx2 : Byte) :
    mcp3008AsyncComplete sys rx1 rx2 = sys ∨ sys.fifo.length < FIFO_SAMPLES ∧
      mcp3008AsyncComplete sys rx1 rx2 =
        { sys with
          fifo := sys.fifo ++ [sampleValue rx1 rx2]
          converted := sys.converted ++ [sampleValue rx1 rx2] } := by
  by_cases room : sys.fifo.length < FIFO_SAMPLES
  · exact .inr ⟨room, if_pos room⟩
  · exact .inl (if_neg room)

theorem fifoInvariant_step {sys next : AdcSys} {action : AdcAction} (invariant : FifoInvariant sys)
    (taken : adcStep sys action = some next) : FifoInvariant next := by
  cases action with
  | complete rx1 rx2 =>
      simp only [adcStep, Option.some.injEq] at taken
      rw [← taken]
      rcases complete_cases sys rx1 rx2 with same | ⟨room, put⟩
      · rw [same]
        exact invariant
      · rw [put]
        refine ⟨by rw [List.length_append, List.length_singleton]; exact room, ?_⟩
        intro sample inside
        rcases List.mem_append.mp inside with before | new
        · exact invariant.samples sample before
        · rw [List.mem_singleton.mp new]
          exact sampleValue_lt rx1 rx2
  | read env nonblock count =>
      rcases read_cases invariant.bounded taken with ⟨_, rfl⟩ | ⟨_, rfl⟩
      · exact invariant
      · exact ⟨Nat.zero_le _, fun sample inside => absurd inside List.not_mem_nil⟩

theorem samplesKept_read_iff {sys next : AdcSys} {env : Env} {nonblock : Bool} {count : Nat}
    (invariant : FifoInvariant sys) (kept : SamplesKept sys)
    (taken : adcStep sys (.read env nonblock count) = some next) :
    SamplesKept next ↔ ReadsWhole sys (.read env nonblock count) := by
  rcases read_cases invariant.bounded taken with ⟨empty, rfl⟩ | ⟨filled, rfl⟩
  · exact iff_of_true kept (.inl empty)
  obtain ⟨gone, converted, delivered⟩ := kept
  generalize copied : copySamples env { sys with fifo := [] } sys.fifo count = reply
  have whole : SamplesKept
      { fifo := [], converted := sys.converted, delivered := sys.delivered ++ reply.out } ↔
      reply.out = samplesText sys.fifo := by
    simp only [SamplesKept, List.append_nil, exists_eq_left', converted, delivered, samplesText,
      List.flatMap_append, List.append_cancel_left_eq]
  rw [whole, ← copied]
  simp only [ReadsWhole, filled, false_or]
  cases fifo : sys.fifo with
  | nil => exact absurd fifo filled
  | cons first more =>
      cases more with
      | nil =>
          rw [copySamples_one env _ first count]
          simp only [List.cons.injEq, and_true, exists_eq_left']
      | cons second more =>
          refine iff_of_false (copySamples_several env _ first second more count) ?_
          rintro ⟨sample, one, _⟩
          rw [List.cons.injEq] at one
          exact absurd one.2 (List.cons_ne_nil second more)

theorem samplesKept_step_iff {sys next : AdcSys} {action : AdcAction}
    (invariant : FifoInvariant sys) (kept : SamplesKept sys)
    (taken : adcStep sys action = some next) : SamplesKept next ↔ ReadsWhole sys action := by
  cases action with
  | complete rx1 rx2 =>
      simp only [adcStep, Option.some.injEq] at taken
      rw [← taken]
      refine iff_of_true ?_ trivial
      rcases complete_cases sys rx1 rx2 with same | ⟨_, put⟩
      · rw [same]
        exact kept
      · rw [put]
        obtain ⟨gone, converted, delivered⟩ := kept
        exact ⟨gone, by rw [converted, List.append_assoc], delivered⟩
  | read env nonblock count => exact samplesKept_read_iff invariant kept taken

/-- Over any sequence of conversions and reads no sample is lost or cut exactly when each read
finds at most one sample, of at most three digits, and can deliver it. -/
theorem mcp3008_samplesKept_iff (actions : List AdcAction) :
    StepMachine.Always adcStep SamplesKept .opened actions ↔
      StepMachine.Meets adcStep ReadsWhole .opened actions := by
  refine StepMachine.always_iff_meets
    (fun _ _ _ invariant _ taken => fifoInvariant_step invariant taken)
    (fun _ _ _ invariant kept taken => samplesKept_step_iff invariant kept taken) actions ?_ ?_
  · exact ⟨Nat.zero_le _, by simp [AdcSys.opened]⟩
  · exact ⟨[], rfl, rfl⟩

def shortRead : List AdcAction := [.complete 0 7, .read (.good fun _ => 0) true 4]

theorem mcp3008_sample_lost : ¬ StepMachine.Always adcStep SamplesKept .opened shortRead := by
  intro always
  have ran : StepMachine.run adcStep .opened shortRead =
      some { fifo := [], converted := [7], delivered := [] } := by decide
  obtain ⟨gone, converted, delivered⟩ := always.last ran
  rw [List.append_nil] at converted
  subst converted
  exact absurd delivered (by decide)

end Ldd3.Adc
