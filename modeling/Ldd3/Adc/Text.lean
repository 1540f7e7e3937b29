import Mathlib.Tactic
import Ldd3.Adc.Samples

/-!
The texts that the two MCP3008 drivers return for their samples, and what a reader that goes
through them line by line makes of them.
-/

namespace Ldd3.Adc

open CInt (int32)

/-- Reads one number a line; `current` is that of the digits of the line so far. -/
def parseLines : List Byte → Option Nat → Option (List Nat)
  | [], none => some []
  | [], some _ => none
  | byte :: rest, current =>
      if byte = 10 then
        match current with
        | none => none
        | some value => (parseLines rest none).map (value :: ·)
      else if 48 ≤ byte.toNat ∧ byte.toNat ≤ 57 then
        parseLines rest (some (10 * current.getD 0 + (byte.toNat - 48)))
      else none

/-- `mcp3008_read` of the synchronous driver (`adc/mcp3008_spi.c`): `transferred` is what
`spi_sync` returns, and the 5 bytes of `result_str` hold what one row of the other driver does. -/
def mcp3008SyncRead (env : Env) (transferred : Int) (rx1 rx2 : Byte) (ppos count : Nat) :
    Int × List Byte :=
  if ppos ≠ 0 then (0, [])
  else if transferred < 0 then (transferred, [])
  else
    let text := scnprintf (sampleValue rx1 rx2)
    let len := if count < text.length then count else text.length
    if env.faults len then (-EFAULT, []) else (len, text.take len)

/-! Lines. -/

theorem parseLines_digit {digit : Char} (decimal : digit.isDigit = true) (rest : List Byte)
    (current : Option Nat) :
    parseLines (digit.toNat.toUInt8 :: rest) current =
      parseLines rest (some (10 * current.getD 0 + (digit.toNat - 48))) := by
  simp only [Char.isDigit, Bool.and_eq_true, decide_eq_true_eq, UInt32.le_iff_toNat_le] at decimal
  change 48 ≤ digit.toNat ∧ digit.toNat ≤ 57 at decimal
  have byte : digit.toNat.toUInt8.toNat = digit.toNat := Nat.mod_eq_of_lt (by omega)
  have notNewline : digit.toNat.toUInt8 ≠ 10 := by
    intro newline
    rw [newline] at byte
    have ten : (10 : UInt8).toNat = 10 := rfl
    omega
  simp only [parseLines, notNewline, ↓reduceIte, byte, decimal, and_self]

theorem parseLines_digits {digits : List Char} (decimal : ∀ digit ∈ digits, digit.isDigit = true)
    (rest : List Byte) (value : Nat) :
    parseLines (digits.map (fun digit => digit.toNat.toUInt8) ++ rest) (some value) =
      parseLines rest (some (Nat.ofDigitChars 10 digits value)) := by
  induction digits generalizing value with
  | nil => rw [List.map_nil, List.nil_append, Nat.ofDigitChars_nil]
  | cons digit later ih =>
      rw [List.map_cons, List.cons_append, parseLines_digit (decimal digit List.mem_cons_self),
        ih fun other listed => decimal other (List.mem_cons_of_mem _ listed),
        Nat.ofDigitChars_cons]
      rfl

theorem parseLines_sampleText (sample : Nat) (rest : List Byte) :
    parseLines (sampleText sample ++ rest) none = (parseLines rest none).map (sample :: ·) := by
  have value : Nat.ofDigitChars 10 (Nat.toDigits 10 sample) 0 = sample :=
    Nat.ofDigitChars_ten_toDigits
  have decimal : ∀ digit ∈ Nat.toDigits 10 sample, digit.isDigit = true :=
    fun _ listed => Nat.isDigit_of_mem_toDigits (by decide) (by decide) listed
  rw [sampleText, List.append_assoc]
  cases digits : Nat.toDigits 10 sample with
  | nil => exact absurd digits Nat.toDigits_ne_nil
  | cons first later =>
      rw [digits] at value decimal
      rw [List.map_cons, List.cons_append, parseLines_digit (decimal first List.mem_cons_self),
        parseLines_digits fun other listed => decimal other (List.mem_cons_of_mem _ listed)]
      rw [Nat.ofDigitChars_cons] at value
      change parseLines _ (some (Nat.ofDigitChars 10 later (10 * 0 + (first.toNat - '0'.toNat)))) = _
      rw [value]
      rfl

theorem parseLines_samplesText (samples : List Nat) :
    parseLines (samplesText samples) none = some samples := by
  induction samples with
  | nil => rfl
  | cons sample more ih =>
      have split : samplesText (sample :: more) = sampleText sample ++ samplesText more := by
        rw [samplesText, List.flatMap_cons, samplesText]
      rw [split, parseLines_sampleText, ih, Option.map_some]

/-! What the reads return. -/

def fittingSamples (samples : List Nat) (count : Nat) : List Nat :=
  samples.take (numSamples samples.length count).toNat

/-- A read that does not fail returns the texts of the samples that it delivers, and they read back
as these samples. -/
structure ReturnsTexts (reply : ReadReply) (samples : List Nat) (count : Nat) : Prop where
  texts : 0 ≤ reply.ret → reply.out = samplesText (fittingSamples samples count)
  readBack : 0 ≤ reply.ret → parseLines reply.out none = some (fittingSamples samples count)

theorem returnsTexts_iff {reply : ReadReply} {samples : List Nat} {count : Nat} :
    ReturnsTexts reply samples count ↔
      (0 ≤ reply.ret → reply.out = samplesText (fittingSamples samples count)) := by
  constructor
  · exact fun returns => returns.texts
  · intro texts
    exact ⟨texts, fun kept => by rw [texts kept, parseLines_samplesText]⟩

section Async

variable {env : Env} {sys : AdcSys} {samples : List Nat} {count : Nat}

theorem fittingSamples_room (positive : 0 < numSamples samples.length count) :
    5 * (fittingSamples samples count).length ≤ count ∧
      (fittingSamples samples count).length = (numSamples samples.length count).toNat := by
  have few : numSamples samples.length count ≤ samples.length := by
    simp only [numSamples]
    omega
  have room : numSamples samples.length count ≤ (count / 5 : Nat) := by
    have wrapped : numSamples samples.length count ≤ int32 (count / 5 : Nat) := min_le_right _ _
    have low : int32 (count / 5 : Nat) ≤ (count / 5 : Nat) := by
      simp only [int32] at wrapped ⊢
      omega
    exact wrapped.trans low
  have length : (fittingSamples samples count).length = (numSamples samples.length count).toNat := by
    rw [fittingSamples, List.length_take]
    omega
  exact ⟨by omega, length⟩

def textLength (samples : List Nat) : Nat :=
  (samples.map fun sample => (scnprintf sample).length).sum

def textRows (junk : Nat → Byte) (samples : List Nat) : List Byte :=
  (samples.zipIdx.map fun entry => textRow junk entry.2 entry.1).flatten

theorem textLength_le (samples : List Nat) : textLength samples ≤ 4 * samples.length := by
  induction samples with
  | nil => exact Nat.le_refl _
  | cons sample more ih =>
      have row : (scnprintf sample).length ≤ 4 := by
        rw [scnprintf, List.length_take]
        exact min_le_left _ _
      simp only [textLength, List.map_cons, List.sum_cons, List.length_cons] at ih ⊢
      omega

/-- The comparison with `count` never cuts: the rows are wider than their texts. -/
theorem copySamples_positive (positive : 0 < numSamples samples.length count) :
    copySamples env sys samples count =
      if env.faults (textLength (fittingSamples samples count)) then ⟨sys, -EFAULT, []⟩
      else ⟨sys, textLength (fittingSamples samples count),
        (textRows env.junk (fittingSamples samples count)).take
          (textLength (fittingSamples samples count))⟩ := by
  have room := (fittingSamples_room positive).1
  have short := textLength_le (fittingSamples samples count)
  have whole : ¬count < textLength (fittingSamples samples count) := by omega
  simp only [fittingSamples, textLength, textRows] at whole ⊢
  simp only [copySamples, positive.ne', ↓reduceIte, whole]
  congr

theorem copySamples_negative (none : numSamples samples.length count ≤ 0) :
    (copySamples env sys samples count).ret < 0 ∨ (copySamples env sys samples count).out = [] := by
  by_cases zero : numSamples samples.length count = 0
  · left
    simp only [copySamples, zero, ↓reduceIte]
    decide
  · right
    have nothing : (numSamples samples.length count).toNat = 0 := by omega
    simp only [copySamples, zero, ↓reduceIte, nothing, List.take_zero, List.zipIdx_nil,
      List.map_nil, List.flatten_nil, List.take_nil]
    split_ifs <;> rfl

theorem textRows_several (junk : Nat → Byte) (first second : Nat) (more : List Nat) :
    (textRows junk (first :: second :: more)).take (textLength (first :: second :: more)) ≠
      samplesText (first :: second :: more) := by
  intro whole
  have secondLong : 2 ≤ (scnprintf second).length := by
    have long := two_le_length_sampleText second
    rw [scnprintf, List.length_take]
    omega
  have past : (scnprintf first).length < textLength (first :: second :: more) := by
    simp only [textLength, List.map_cons, List.sum_cons]
    omega
  have terminator := zero_mem_rows junk ((second :: more).zipIdx (0 + 1)) past
  rw [textRows, List.zipIdx_cons] at whole
  rw [whole] at terminator
  exact zero_not_mem_samplesText _ terminator

theorem textRows_one (junk : Nat → Byte) (sample : Nat) :
    (textRows junk [sample]).take (textLength [sample]) = scnprintf sample := by
  simp only [textRows, textLength, List.zipIdx_cons, List.zipIdx_nil, List.map_cons, List.map_nil,
    List.flatten_cons, List.flatten_nil, List.append_nil, List.sum_cons, List.sum_nil, Nat.add_zero,
    textRow, List.take_left']

theorem copySamples_texts_iff (samples : List Nat) (count : Nat) :
    (∀ env sys, ReturnsTexts (copySamples env sys samples count) samples count) ↔
      numSamples samples.length count ≤ 0 ∨
        numSamples samples.length count = 1 ∧ ∀ first ∈ samples.head?, first < 1000 := by
  simp only [returnsTexts_iff]
  by_cases none : numSamples samples.length count ≤ 0
  · refine iff_of_true ?_ (.inl none)
    intro env sys kept
    have nothing : fittingSamples samples count = [] := by
      rw [fittingSamples, Int.toNat_of_nonpos none, List.take_zero]
    rcases @copySamples_negative env sys samples count none with failed | empty
    · omega
    · rw [empty, nothing]
      rfl
  rw [not_le] at none
  have length := (fittingSamples_room none).2
  have head : (fittingSamples samples count).head? = samples.head? := by
    rw [fittingSamples, List.head?_take, if_neg (by omega)]
  have returned (env : Env) (sys : AdcSys) := @copySamples_positive env sys samples count none
  have noFault (len : Nat) : (Env.good fun _ => 0).faults len = false := rfl
  constructor
  · intro texts
    have out := texts (.good fun _ => 0) .opened
    rw [returned, noFault] at out
    simp only [Bool.false_eq_true, ↓reduceIte, Nat.cast_nonneg, forall_const] at out
    right
    match fits : fittingSamples samples count with
    | [] =>
        rw [fits, List.length_nil] at length
        omega
    | [first] =>
        rw [fits, textRows_one, samplesText, List.flatMap_cons, List.flatMap_nil, List.append_nil,
          scnprintf_eq_iff] at out
        rw [fits, List.length_singleton] at length
        refine ⟨by omega, ?_⟩
        rw [← head, fits]
        intro head listed
        rw [List.head?_cons, Option.mem_some_iff] at listed
        exact listed ▸ out
    | first :: second :: more =>
        rw [fits] at out
        exact absurd out (textRows_several _ first second more)
  · rintro (few | ⟨one, short⟩) env sys kept
    · omega
    · obtain ⟨first, fits⟩ := List.length_eq_one_iff.mp (length.trans (by rw [one]; rfl))
      rw [← head, fits] at short
      have text := (scnprintf_eq_iff first).mpr (short first rfl)
      rw [returned] at kept ⊢
      split at kept
      · exact absurd kept (by simp [EFAULT])
      · rename_i noFault
        rw [if_neg noFault, fits, textRows_one, text, samplesText, List.flatMap_cons,
          List.flatMap_nil, List.append_nil]

end Async

/-- The first read of an open file returns the text of the sample when the caller has room. -/
def SyncReturnsText (rx1 rx2 : Byte) (count : Nat) : Prop :=
  (sampleText (sampleValue rx1 rx2)).length ≤ count →
    ∀ env transferred, 0 ≤ transferred →
      0 ≤ (mcp3008SyncRead env transferred rx1 rx2 0 count).1 →
        (mcp3008SyncRead env transferred rx1 rx2 0 count).2 = sampleText (sampleValue rx1 rx2)

theorem syncReturnsText_iff (rx1 rx2 : Byte) (count : Nat) :
    SyncReturnsText rx1 rx2 count ↔
      count < (sampleText (sampleValue rx1 rx2)).length ∨ sampleValue rx1 rx2 < 1000 := by
  by_cases room : (sampleText (sampleValue rx1 rx2)).length ≤ count
  · have whole : ¬count < (scnprintf (sampleValue rx1 rx2)).length := by
      rw [scnprintf, List.length_take]
      omega
    have read (env : Env) {transferred : Int} (done : 0 ≤ transferred) :
        mcp3008SyncRead env transferred rx1 rx2 0 count =
          if env.faults (scnprintf (sampleValue rx1 rx2)).length then (-EFAULT, [])
          else ((scnprintf (sampleValue rx1 rx2)).length, scnprintf (sampleValue rx1 rx2)) := by
      simp only [mcp3008SyncRead, ne_eq, not_true_eq_false, done.not_gt, ↓reduceIte, whole,
        List.take_length]
    rw [SyncReturnsText, or_iff_right room.not_gt, ← scnprintf_eq_iff]
    constructor
    · intro returns
      have text := returns room (.good fun _ => 0) 0 le_rfl
      rw [read _ le_rfl] at text
      exact text (Int.natCast_nonneg _)
    · intro text _ env transferred done kept
      rw [read env done] at kept ⊢
      split at kept
      · exact absurd kept (by decide)
      · rename_i noFault
        rw [if_neg noFault, text]
  · exact iff_of_true (fun fits => absurd fits room) (.inl (not_le.mp room))

/-- The asynchronous driver returns the texts of what it delivers exactly when it delivers nothing
or one sample of at most three digits, the synchronous one exactly when the sample has at most
three digits or the caller has no room for its text. -/
theorem mcp3008_texts_iff (samples : List Nat) (count : Nat) (rx1 rx2 : Byte) (syncCount : Nat) :
    ((∀ env sys, ReturnsTexts (copySamples env sys samples count) samples count) ↔
        numSamples samples.length count ≤ 0 ∨
          numSamples samples.length count = 1 ∧ ∀ first ∈ samples.head?, first < 1000) ∧
      (SyncReturnsText rx1 rx2 syncCount ↔
        syncCount < (sampleText (sampleValue rx1 rx2)).length ∨ sampleValue rx1 rx2 < 1000) :=
  ⟨copySamples_texts_iff samples count, syncReturnsText_iff rx1 rx2 syncCount⟩

theorem mcp3008_texts_gap :
    ¬∀ (samples : List Nat) (count : Nat), (∀ sample ∈ samples, sample < 1024) →
      ∀ env sys, ReturnsTexts (copySamples env sys samples count) samples count := by
  intro claimed
  rcases (copySamples_texts_iff [5, 6] 10).mp (claimed [5, 6] 10 (by decide)) with none | ⟨one, _⟩
  · exact absurd none (by decide)
  · exact absurd one (by decide)

end Ldd3.Adc
