import Mathlib.Tactic
import Ldd3.Dac.Core

/-!
What is heard of the DAC. Each refill starts the table again, so that the tone of the first
512 frames is continued only where a period happens to begin with a cycle.
-/

namespace Ldd3.Dac

section Fill

theorem fillFrames_cells {buf frames i : Nat} {buffer : Buffer Int}
    (inside : buf + (i + frames) * 2 ≤ buffer.length) :
    ∃ filled, fillFrames buf frames i buffer = .ok filled ∧ filled.length = buffer.length ∧
      ∀ cell : Nat, filled[cell]? =
        if buf + i * 2 ≤ cell ∧ cell < buf + (i + frames) * 2 then
          some (some (sine ((cell - buf) / 2)))
        else buffer[cell]? := by
  induction frames generalizing i buffer with
  | zero =>
      refine ⟨buffer, rfl, rfl, ?_⟩
      intro cell
      rw [if_neg (by omega)]
  | succ frames ih =>
      have leftInside : buf + i * 2 < buffer.length := by omega
      obtain ⟨left, leftStored, leftLength, leftCells⟩ := Buffer.store_one leftInside (sine i)
      have rightInside : buf + (i * 2 + 1) < left.length := by omega
      obtain ⟨right, rightStored, rightLength, rightCells⟩ := Buffer.store_one rightInside (sine i)
      have restInside : buf + (i + 1 + frames) * 2 ≤ right.length := by omega
      obtain ⟨filled, fills, length, cells⟩ := ih restInside
      refine ⟨filled, ?_, by omega, ?_⟩
      · rw [fillFrames, leftStored, ok_bind, rightStored, ok_bind, fills]
      · intro cell
        rw [cells cell, rightCells cell, leftCells cell]
        by_cases here : cell = buf + i * 2 ∨ cell = buf + (i * 2 + 1)
        · have frame : (cell - buf) / 2 = i := by omega
          have notLater : ¬(buf + (i + 1) * 2 ≤ cell ∧ cell < buf + (i + 1 + frames) * 2) := by
            omega
          have inFrames : buf + i * 2 ≤ cell ∧ cell < buf + (i + (frames + 1)) * 2 := by omega
          rw [if_neg notLater, if_pos inFrames, frame]
          obtain same | same := here
          · rw [if_neg (by omega), if_pos same]
          · rw [if_pos same]
        · rw [if_neg (show cell ≠ buf + (i * 2 + 1) by omega),
            if_neg (show cell ≠ buf + i * 2 by omega)]
          have later : (buf + (i + 1) * 2 ≤ cell ∧ cell < buf + (i + 1 + frames) * 2) ↔
              (buf + i * 2 ≤ cell ∧ cell < buf + (i + (frames + 1)) * 2) := by
            omega
          simp only [later]

theorem fillAudioBuffer_cells {buf len : Nat} {buffer : Buffer Int}
    (inside : buf + len / 2 ≤ buffer.length) (small : len < 4294967296) :
    ∃ filled, fillAudioBuffer buffer buf len = .ok filled ∧ filled.length = buffer.length ∧
      ∀ cell : Nat, filled[cell]? =
        if buf ≤ cell ∧ cell < buf + len / 4 * 2 then some (some (sine ((cell - buf) / 2)))
        else buffer[cell]? := by
  have quarter : len / (SAMPLE_SIZE * 2) = len / 4 := rfl
  have frames : (CInt.int32 (len / (SAMPLE_SIZE * 2) : Nat)).toNat = len / 4 := by
    rw [quarter, CInt.int32_natCast (by omega), Int.toNat_natCast]
  have fits : buf + (0 + len / 4) * 2 ≤ buffer.length := by omega
  have filled := fillFrames_cells fits
  rw [fillAudioBuffer, frames]
  simpa only [Nat.zero_mul, Nat.add_zero, Nat.zero_add] using filled

theorem callback_cells {dev : Pcm5102aDev} (size : dev.txBufLen = TX_BUF_LEN)
    (idx : dev.periodIdx < 8) (length : dev.txBuf.length = 1024) :
    ∃ refilled, pcm5102aTxCallback dev =
        .ok { dev with txBuf := refilled, periodIdx := (dev.periodIdx + 1) % 8 } ∧
      refilled.length = 1024 ∧
      ∀ cell : Nat, refilled[cell]? =
        if cell / 128 = dev.periodIdx then some (some (sine (cell % 128 / 2)))
        else dev.txBuf[cell]? := by
  have buf : CInt.uint32 (dev.periodIdx * PERIOD_LEN : Nat) / SAMPLE_SIZE =
      128 * dev.periodIdx := by
    rw [PERIOD_LEN, SAMPLE_SIZE, CInt.uint32]
    omega
  have next : CInt.uint32 (dev.periodIdx + 1) = dev.periodIdx + 1 := by
    rw [CInt.uint32]
    omega
  have eight : dev.maxPeriod = 8 := by
    rw [Pcm5102aDev.maxPeriod, size]
    rfl
  have inside : 128 * dev.periodIdx + PERIOD_LEN / 2 ≤ dev.txBuf.length := by
    rw [length, PERIOD_LEN]
    omega
  obtain ⟨refilled, fills, kept, cells⟩ := fillAudioBuffer_cells inside (by decide)
  refine ⟨refilled, ?_, kept.trans length, ?_⟩
  · rw [pcm5102aTxCallback]
    simp only [buf, fills, ok_bind, eight, next]
    rfl
  · intro cell
    have frames : 128 * dev.periodIdx + PERIOD_LEN / 4 * 2 = 128 * dev.periodIdx + 128 := rfl
    rw [cells cell, frames]
    by_cases here : cell / 128 = dev.periodIdx
    · have within : 128 * dev.periodIdx ≤ cell ∧ cell < 128 * dev.periodIdx + 128 := by omega
      have position : cell - 128 * dev.periodIdx = cell % 128 := by omega
      rw [if_pos within, if_pos here, position]
    · rw [if_neg (by omega), if_neg here]

end Fill

section Playback

/-- The samples of a stream whose periods restart the table after the first eight. -/
def playedSample (cell : Nat) : Int := sine (if cell < 1024 then cell / 2 else cell % 128 / 2)

/-- After a number of periods, of which the last eight at most are still as they were refilled. -/
structure Played (periods : Nat) (sys : Playback) : Prop where
  size : sys.dev.txBufLen = TX_BUF_LEN
  idx : sys.dev.periodIdx = periods % 8
  dma : sys.dmaPeriod = periods % 8
  length : sys.dev.txBuf.length = 1024
  cells : ∀ cell < 1024, sys.dev.txBuf[cell]? =
    some (some (sine (if cell / 128 < periods then cell % 128 / 2 else cell / 2)))
  count : sys.played.length = 128 * periods
  samples : ∀ cell < 128 * periods, sys.played[cell]? = some (playedSample cell)

theorem probe_played : ∃ dev, pcm5102aProbe = .ok dev ∧ Played 0 (.start dev) := by
  have allocated : (List.replicate (TX_BUF_LEN / SAMPLE_SIZE) (some (0 : Int))).length = 1024 :=
    List.length_replicate
  have inside : 0 + TX_BUF_LEN / 2 ≤
      (List.replicate (TX_BUF_LEN / SAMPLE_SIZE) (some (0 : Int))).length := by
    rw [allocated]
    decide
  obtain ⟨filled, fills, length, cells⟩ := fillAudioBuffer_cells inside (by decide)
  refine ⟨{ txBuf := filled, txBufLen := TX_BUF_LEN, periodIdx := 0 }, ?_, ?_⟩
  · rw [pcm5102aProbe]
    simp only [fills, ok_bind]
    rfl
  · refine ⟨rfl, rfl, rfl, length.trans allocated, ?_, rfl, ?_⟩
    · intro cell within
      have filledCell : 0 ≤ cell ∧ cell < 0 + TX_BUF_LEN / 4 * 2 := by
        rw [TX_BUF_LEN]
        omega
      have notPlayed : ¬cell / 128 < 0 := Nat.not_lt_zero _
      have here : (Playback.start ⟨filled, TX_BUF_LEN, 0⟩).dev.txBuf = filled := rfl
      rw [here, cells cell, if_pos filledCell, if_neg notPlayed, Nat.sub_zero]
    · intro cell within
      omega

theorem Played.load {periods : Nat} {sys : Playback} (played : Played periods sys) :
    sys.dev.txBuf.load (sys.dmaPeriod * PERIOD_LEN / SAMPLE_SIZE) (PERIOD_LEN / SAMPLE_SIZE) =
      .ok ((List.range 128).map fun index => playedSample (128 * periods + index)) := by
  have start : sys.dmaPeriod * PERIOD_LEN / SAMPLE_SIZE = 128 * (periods % 8) := by
    rw [played.dma, PERIOD_LEN, SAMPLE_SIZE]
    omega
  have inside : 128 * (periods % 8) + 128 ≤ sys.dev.txBuf.length := by
    rw [played.length]
    omega
  rw [start]
  apply Buffer.load_cells inside
  intro index within
  rw [played.cells _ (by omega), playedSample]
  by_cases first : periods < 8
  · rw [if_neg (by omega), if_pos (by omega), Nat.mod_eq_of_lt first]
  · rw [if_pos (by omega), if_neg (by omega)]
    congr 3
    omega

theorem Played.step {periods : Nat} {sys : Playback} (played : Played periods sys) :
    ∃ next, playPeriod sys = .ok next ∧ Played (periods + 1) next := by
  have idx : sys.dev.periodIdx < 8 := by
    rw [played.idx]
    omega
  obtain ⟨refilled, refills, length, cells⟩ := callback_cells played.size idx played.length
  have eight : sys.dev.maxPeriod = 8 := by
    rw [Pcm5102aDev.maxPeriod, played.size]
    rfl
  refine ⟨{
    dev := { sys.dev with txBuf := refilled, periodIdx := (sys.dev.periodIdx + 1) % 8 }
    dmaPeriod := (sys.dmaPeriod + 1) % 8
    played := sys.played ++ (List.range 128).map fun index =>
      playedSample (128 * periods + index) }, ?_, ?_⟩
  · rw [playPeriod, played.load, ok_bind, refills, ok_bind, eight]
    rfl
  · refine ⟨played.size, ?_, ?_, length, ?_, ?_, ?_⟩
    · change (sys.dev.periodIdx + 1) % 8 = (periods + 1) % 8
      rw [played.idx]
      omega
    · change (sys.dmaPeriod + 1) % 8 = (periods + 1) % 8
      rw [played.dma]
      omega
    · intro cell within
      rw [cells cell, played.idx]
      by_cases refilledCell : cell / 128 = periods % 8
      · rw [if_pos refilledCell, if_pos (by omega)]
      · rw [if_neg refilledCell, played.cells cell within]
        have same : cell / 128 < periods ↔ cell / 128 < periods + 1 := by omega
        simp only [same]
    · rw [List.length_append, played.count, List.length_map, List.length_range]
      omega
    · intro cell within
      by_cases earlier : cell < 128 * periods
      · rw [List.getElem?_append_left (by rwa [played.count]), played.samples cell earlier]
      · rw [List.getElem?_append_right (by rw [played.count]; omega), played.count,
          List.getElem?_map, List.getElem?_range (by omega), Option.map_some,
          Nat.add_sub_cancel' (by omega)]

theorem playPeriods_played {periods before : Nat} {sys : Playback} (played : Played before sys) :
    ∃ final, playPeriods periods sys = .ok final ∧ Played (before + periods) final := by
  induction periods generalizing before sys with
  | zero => exact ⟨sys, rfl, played⟩
  | succ periods ih =>
      obtain ⟨next, stepped, nextPlayed⟩ := played.step
      obtain ⟨final, plays, finalPlayed⟩ := ih nextPlayed
      refine ⟨final, ?_, ?_⟩
      · rw [playPeriods, stepped, ok_bind, plays]
      · rwa [Nat.add_right_comm, Nat.add_assoc] at finalPlayed

theorem playback_played (periods : Nat) :
    ∃ sys, playback periods = .ok sys ∧ Played periods sys := by
  obtain ⟨dev, probed, fresh⟩ := probe_played
  obtain ⟨sys, plays, played⟩ := playPeriods_played fresh
  refine ⟨sys, ?_, Nat.zero_add periods ▸ played⟩
  rw [playback, probed, ok_bind, plays]

end Playback

section Tone

def FrameRight (k : Nat) : Prop :=
  ∀ periods sys, k < 64 * periods → playback periods = .ok sys →
    sys.played[2 * k]? = some (sine k) ∧ sys.played[2 * k + 1]? = some (sine k)

def FillsAgree (period : Nat) : Prop :=
  ∀ dev, pcm5102aProbe = .ok dev → ∃ refilled,
    pcm5102aTxCallback { dev with periodIdx := period } = .ok refilled ∧
      Block.slice refilled.txBuf (128 * period) 128 = Block.slice dev.txBuf (128 * period) 128

theorem sinTable_eq_iff : ∀ phase < 48, ∀ turn < 3,
    (sinTable.getD phase 0 = sinTable.getD ((phase + 16 * turn) % 48) 0 ↔
      turn = 0 ∨ (turn = 1 ∧ phase % 24 = 4) ∨ (turn = 2 ∧ phase % 24 = 20)) := by
  decide

theorem sine_period_iff (frame period : Nat) :
    sine frame = sine (64 * period + frame) ↔
      period % 3 = 0 ∨ (period % 3 = 1 ∧ frame % 24 = 4) ∨
        (period % 3 = 2 ∧ frame % 24 = 20) := by
  have phases := sinTable_eq_iff (frame % 48) (Nat.mod_lt _ (by decide)) (period % 3)
    (Nat.mod_lt _ (by decide))
  have later : (frame % 48 + 16 * (period % 3)) % 48 = (64 * period + frame) % 48 := by omega
  have halves : frame % 48 % 24 = frame % 24 := by omega
  rw [later, halves] at phases
  exact phases

theorem frameRight_iff (k : Nat) : FrameRight k ↔ k < 512 ∨ sine (k % 64) = sine k := by
  have left : playedSample (2 * k) = sine (if k < 512 then k else k % 64) := by
    rw [playedSample]
    congr 1
    split <;> split <;> omega
  have right : playedSample (2 * k + 1) = sine (if k < 512 then k else k % 64) := by
    rw [playedSample]
    congr 1
    split <;> split <;> omega
  have sample : sine (if k < 512 then k else k % 64) = sine k ↔ k < 512 ∨ sine (k % 64) = sine k := by
    by_cases first : k < 512
    · simp only [first, ↓reduceIte, true_or]
    · simp only [first, ↓reduceIte, false_or]
  rw [← sample]
  constructor
  · intro frame
    obtain ⟨sys, plays, played⟩ := playback_played (k / 64 + 1)
    have heard := (frame _ sys (by omega) plays).1
    rw [played.samples _ (by omega), left, Option.some.injEq] at heard
    exact heard
  · intro same periods sys within plays
    obtain ⟨other, otherPlays, played⟩ := playback_played periods
    rw [plays, Except.ok.injEq] at otherPlays
    subst otherPlays
    rw [played.samples _ (by omega), played.samples _ (by omega), left, right, same]
    exact ⟨rfl, rfl⟩

theorem slice_eq_iff {first second : Buffer Int} {start count : Nat} :
    Block.slice first start count = Block.slice second start count ↔
      ∀ index < count, first[start + index]? = second[start + index]? := by
  rw [List.ext_getElem?_iff]
  simp only [Block.getElem?_slice]
  constructor
  · intro same index within
    have here := same index
    rwa [if_pos within, if_pos within] at here
  · intro same index
    split
    · rename_i within
      exact same index within
    · rfl

theorem fillsAgree_iff {period : Nat} (inside : period < 8) :
    FillsAgree period ↔ period % 3 = 0 := by
  obtain ⟨dev, probed, fresh⟩ := probe_played
  have size : ({ dev with periodIdx := period } : Pcm5102aDev).txBufLen = TX_BUF_LEN := fresh.size
  obtain ⟨refilled, refills, -, cells⟩ := callback_cells size inside fresh.length
  have before : ∀ index < 128, dev.txBuf[128 * period + index]? =
      some (some (sine (64 * period + index / 2))) := by
    intro index within
    have cell := fresh.cells (128 * period + index) (by omega)
    have frame : (128 * period + index) / 2 = 64 * period + index / 2 := by omega
    rwa [if_neg (Nat.not_lt_zero _), frame] at cell
  have after : ∀ index < 128, refilled[128 * period + index]? =
      some (some (sine (index / 2))) := by
    intro index within
    have here : (128 * period + index) / 128 = period := by omega
    have frame : (128 * period + index) % 128 / 2 = index / 2 := by omega
    rw [cells, if_pos here, frame]
  constructor
  · intro agree
    obtain ⟨other, otherRefills, same⟩ := agree dev probed
    rw [refills, Except.ok.injEq] at otherRefills
    subst otherRefills
    have first := slice_eq_iff.mp same 0 (by decide)
    rw [after 0 (by decide), before 0 (by decide), Option.some.injEq, Option.some.injEq,
      sine_period_iff] at first
    omega
  · intro cycle other otherProbed
    rw [probed, Except.ok.injEq] at otherProbed
    subst otherProbed
    refine ⟨_, refills, slice_eq_iff.mpr ?_⟩
    intro index within
    have phase : sine (index / 2) = sine (64 * period + index / 2) :=
      (sine_period_iff _ _).mpr (.inl cycle)
    rw [after index within, before index within, phase]

/-- Every refill stays inside the buffer, but a frame after the first 512 carries the tone's
sample only in every third period and where the table happens to have the same sample twice, and
a refill keeps only the periods that begin with a cycle. -/
theorem pcm5102a_tone_iff (periods k : Nat) :
    (∃ sys, playback periods = .ok sys ∧ sys.played.length = 128 * periods) ∧
      (FrameRight k ↔
        k < 512 ∨ k / 64 % 3 = 0 ∨ (k / 64 % 3 = 1 ∧ k % 64 % 24 = 4) ∨
          (k / 64 % 3 = 2 ∧ k % 64 % 24 = 20)) ∧
      ∀ period < 8, FillsAgree period ↔ period % 3 = 0 := by
  refine ⟨?_, ?_, ?_⟩
  · obtain ⟨sys, plays, played⟩ := playback_played periods
    exact ⟨sys, plays, played.count⟩
  · have continued := sine_period_iff (k % 64) (k / 64)
    rw [Nat.div_add_mod] at continued
    rw [frameRight_iff, continued]
  · intro period inside
    exact fillsAgree_iff inside

theorem pcm5102a_tone_breaks : ¬FrameRight 512 ∧ ¬FillsAgree 1 := by
  rw [frameRight_iff, fillsAgree_iff (by decide)]
  decide

end Tone

end Ldd3.Dac
