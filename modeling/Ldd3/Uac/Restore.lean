import Mathlib.Tactic
import Ldd3.Uac.Session

/-!
Saving the volume with `uacctl --raw get-vol` and setting it again with `uacctl set-vol`.
-/

namespace Ldd3.Uac

/-- Whatever was set in between, a `set-vol` of the printed text that succeeds brings the volume
back. -/
def Restores (audio : Audio) (vol : BitVec 16) : Prop :=
  ∀ strtod saveEnv saved text env session command next,
    saved.sys = .equal vol → toolGetVol audio saveEnv saved = some (text ++ ['\n']) →
      command.args = [text] → command.parseHint ≠ .FMT_DB ∧ command.parseHint ≠ .FMT_PCT →
        toolSetVol audio strtod env session command = .ok (next, 0) → next.sys = .equal vol

section Saved

variable {audio : Audio} {strtod : Strtod} {env : ToolEnv} {command : Command} {vol : BitVec 16}
  {q88 : Int}

theorem decimal_chars {v : Int} {char : Char} (listed : char ∈ decimal v) :
    char = '-' ∨ char.isDigit = true := by
  rw [decimal] at listed
  split at listed
  · rcases List.mem_cons.mp listed with minus | digit
    · exact .inl minus
    · exact .inr (isDigit_toDigits digit)
  · exact .inr (isDigit_toDigits listed)

theorem endsInDb_decimal (v : Int) : endsInDb (decimal v) = false := by
  rw [endsInDb]
  split
  · rename_i last _ _ same
    have listed : last ∈ decimal v := by
      rw [← List.mem_reverse, same]
      exact List.mem_cons_self
    rcases decimal_chars listed with rfl | digit
    · simp
    · have other : ∀ letter : Char, letter.isDigit = false → (last == letter) = false := by
        intro letter noDigit
        rw [beq_eq_false_iff_ne]
        rintro rfl
        rw [digit] at noDigit
        contradiction
      rw [other 'b' (by decide), other 'B' (by decide), Bool.or_self, Bool.and_false]
  · rfl

theorem accepted_decimal {v : Int} (lower : LONG_MIN ≤ v) (upper : v ≤ LONG_MAX) :
    Accepted (decimal v) := by
  have read := strtol_decimal lower upper
  refine ⟨?_, congrArg Strtol.consumed read, congrArg Strtol.erange read⟩
  rw [read]
  rw [decimal]
  split
  · exact Nat.succ_ne_zero _
  · exact (Nat.length_toDigits_pos).ne'

theorem saved_sent (args : command.args = [decimal vol.toInt])
    (raw : command.parseHint ≠ .FMT_DB ∧ command.parseHint ≠ .FMT_PCT) {limits : Option Limits}
    {sets : Bool} :
    (setVol strtod limits sets command).sent = limits.map fun limits =>
      idealVolume vol.toInt limits.minv limits.maxv limits.resv := by
  have lower := vol.le_toInt
  have upper := vol.toInt_lt
  have longLower : LONG_MIN ≤ vol.toInt := by rw [LONG_MIN]; omega
  have longUpper : vol.toInt ≤ LONG_MAX := by rw [LONG_MAX]; omega
  have read := strtol_decimal longLower longUpper
  cases limits with
  | none => simp only [setVol, args, Option.map_none]
  | some limits =>
      have parsed : parseVolumeArg strtod (decimal vol.toInt) command.parseHint limits.minv
          limits.maxv limits.resv = _ :=
        parseVolumeArg_raw (accepted_decimal longLower longUpper) (endsInDb_decimal _) raw
          limits.ordered
      have small : CInt.int32 vol.toInt = vol.toInt := CInt.int32_of_fits ⟨by omega, by omega⟩
      simp only [read, small] at parsed
      simp only [setVol, args, parsed, Option.map_some]

theorem toolSetVol_returns (probed : audio.Probed) (strtod : Strtod) (env : ToolEnv) (session : Session)
    (command : Command) : ∃ result, toolSetVol audio strtod env session command = .ok result := by
  rw [toolSetVol]
  cases sent : (setVol strtod (audio.limits env) true command).sent with
  | none => exact ⟨_, rfl⟩
  | some q88 =>
      obtain ⟨reply, replied, _⟩ :=
        setsInRange_of_step probed.step.ne' env.left env.right (some (BitVec.ofInt 16 q88))
      simp only [ioctlSetVol, replied, ok_bind]
      exact ⟨_, rfl⟩

theorem keeps_of_rounds {unit : FeatureUnit} {vol snapped : BitVec 16} (accepts : unit.Accepts vol)
    (acceptsSnapped : unit.Accepts snapped)
    (ideal : snapped.toInt =
      idealVolume vol.toInt unit.minVol.toInt unit.maxVol.toInt unit.resVol.toInt)
    (rounded : roundVolume unit snapped = .ok vol) : Keeps unit vol.toInt := by
  have ordered := accepts.above.trans accepts.below
  have step : stepOf unit.resVol.toInt = unit.resVol.toInt := if_neg (not_le.mpr accepts.step)
  by_cases fits : unit.stepped snapped ≤ 32767
  · obtain ⟨value, roundedValue, snaps⟩ := acceptsSnapped.roundVolume_snaps fits
    rw [rounded, Except.ok.injEq] at roundedValue
    have again : idealVolume (idealVolume vol.toInt _ _ _) _ _ _ =
        idealVolume vol.toInt unit.minVol.toInt unit.maxVol.toInt unit.resVol.toInt :=
      (idealVolume_again_iff ordered).mpr (.inl accepts.below)
    rw [← roundedValue, snapToRes_eq_ideal ordered, ideal, again, ← ideal] at snaps
    rw [← BitVec.eq_of_toInt_eq snaps] at rounded
    exact (rounds_same_iff accepts rounded).mp rfl
  · have bounds := acceptsSnapped.stepped_bounds
    have resUpper := unit.resVol.toInt_lt
    rcases wraps_cases acceptsSnapped (not_le.mp fits) rounded with rfl | wrapped
    · have bottom : idealVolume unit.minVol.toInt unit.minVol.toInt unit.maxVol.toInt
          unit.resVol.toInt = unit.minVol.toInt :=
        idealVolume_of_grid le_rfl ordered (by rw [sub_self]; exact dvd_zero _)
      have least := acceptsSnapped.stepped_least (ideal.trans bottom)
      have minUpper := unit.minVol.toInt_lt
      omega
    · have near := idealVolume_near accepts.above accepts.below unit.resVol.toInt
      have apart := neg_le_abs (vol.toInt - snapped.toInt)
      rw [← ideal, step] at near
      omega

end Saved

/-- Saving and setting again works exactly for the volumes of the range that the driver keeps. -/
theorem restores_iff {audio : Audio} (probed : audio.Probed) (vol : BitVec 16) :
    Restores audio vol ↔ audio.unit.Contains vol ∧ Keeps audio.unit vol.toInt := by
  have reads : (average vol vol).toInt = vol.toInt := congrArg BitVec.toInt (average_self vol)
  constructor
  · intro restores
    obtain ⟨limits, loaded⟩ := limits_good audio
    obtain ⟨minEq, maxEq, resEq⟩ := limits_eq probed loaded
    have raw : (setVolCommand (decimal vol.toInt)).parseHint ≠ .FMT_DB ∧
        (setVolCommand (decimal vol.toInt)).parseHint ≠ .FMT_PCT := ⟨nofun, nofun⟩
    have printed := toolGetVol_good audio ⟨.equal vol, none⟩
    rw [VolumeSys.equal, reads] at printed
    have sent : (setVol (fun _ => (0, 0)) (audio.limits .good) true
        (setVolCommand (decimal vol.toInt))).sent = _ := saved_sent rfl raw
    rw [loaded, Option.map_some, minEq, maxEq, resEq, ← loaded] at sent
    obtain ⟨⟨next, rc⟩, returned⟩ := toolSetVol_returns probed (fun _ => (0, 0)) .good
      ⟨.equal vol, none⟩ (setVolCommand (decimal vol.toInt))
    cases toolSetVol_moves probed returned with
    | quiet unsent => exact absurd ⟨⟨rfl, rfl⟩, ⟨rfl, rfl⟩⟩ (unsent _ sent)
    | broke unanswered => exact absurd ⟨⟨rfl, rfl⟩, ⟨rfl, rfl⟩⟩ unanswered
    | set q88 value answered sentOther rounded done built =>
        rw [done] at returned
        have back := restores _ .good ⟨.equal vol, none⟩ _ .good _ _ next rfl printed rfl raw returned
        rw [built] at back
        obtain rfl : value = vol := congrArg VolumeSys.left back
        obtain ⟨same, accepts⟩ := sent_accepted probed sentOther
        obtain ⟨other, roundedOther, contained⟩ := roundVolume_contained probed.step.ne'
          probed.ordered (BitVec.ofInt 16 q88)
        rw [rounded, Except.ok.injEq] at roundedOther
        rw [← roundedOther] at contained
        rw [sent, Option.some.injEq] at sentOther
        exact ⟨contained, keeps_of_rounds ⟨probed.step, contained.1, contained.2⟩ accepts
          (same.trans sentOther.symm) rounded⟩
  · rintro ⟨⟨above, below⟩, keeps⟩
    intro strtod saveEnv saved text env session command next same printed args raw returned
    have accepts : audio.unit.Accepts vol := ⟨probed.step, above, below⟩
    have saves := toolGetVol_text printed
    rw [same, VolumeSys.equal, reads] at saves
    obtain rfl : text = decimal vol.toInt := List.append_cancel_right saves
    cases toolSetVol_moves probed returned with
    | quiet _ failed => exact absurd rfl failed
    | broke _ failed => exact absurd rfl failed
    | set q88 value answered sent rounded _ built =>
        obtain ⟨limits, loaded, _⟩ := setVol_sent sent
        obtain ⟨minEq, maxEq, resEq⟩ := limits_eq probed loaded
        have ideal := (ideal_same_iff accepts (keeps.fits accepts)).mpr keeps
        rw [saved_sent args raw, show audio.limits env = some limits from loaded] at sent
        simp only [Option.map_some, Option.some.injEq, minEq, maxEq, resEq, ideal] at sent
        rw [← sent, BitVec.ofInt_toInt] at rounded
        rw [built, (rounds_same_iff accepts rounded).mpr keeps]

theorem restores_iff_soundCard : Restores soundCard (-256) ∧ ¬Restores soundCard (-300) :=
  ⟨(restores_iff soundCard_probed _).mpr ⟨⟨by decide, by decide⟩, by decide⟩,
    fun restores => absurd ((restores_iff soundCard_probed _).mp restores).2 (by decide)⟩

end Ldd3.Uac
