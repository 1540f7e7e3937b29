import Mathlib.Tactic
import Ldd3.Uac.Tool

/-!
The format flags of `uacctl` before `set-vol`, and the unit in which its value is read.
-/

namespace Ldd3.Uac

inductive FormatFlag
  | raw
  | db
  | pct
  deriving DecidableEq, Repr

def FormatFlag.word : FormatFlag → Arg
  | .raw => rawWord
  | .db => dbWord
  | .pct => pctWord

def FormatFlag.fmt : FormatFlag → Volfmt
  | .raw => .FMT_RAW
  | .db => .FMT_DB
  | .pct => .FMT_PCT

inductive VolumeUnit
  | raw
  | decibel
  | percent
  deriving DecidableEq, Repr

def Volfmt.unit : Volfmt → VolumeUnit
  | .FMT_DEFAULT | .FMT_RAW => .raw
  | .FMT_DB => .decibel
  | .FMT_PCT => .percent

def unitRead (s : List Char) (hint : Volfmt) : VolumeUnit :=
  if endsInDb s then .decibel else if endsInPercent s then .percent else hint.unit

/-- The unit that the usage text promises: that of the last flag, raw without one. -/
def lastUnit (flags : List FormatFlag) : VolumeUnit :=
  match flags.getLast? with
  | none => .raw
  | some flag => flag.fmt.unit

def devArgs : Option Arg → List Arg
  | none => []
  | some dev => [devWord, dev]

def setVolArgv (prog : Arg) (dev : Option Arg) (flags : List FormatFlag) (value : Arg) : List Arg :=
  prog :: (devArgs dev ++ (flags.map FormatFlag.word ++ [setVolWord, value]))

/-- The argument is read in one unit, and two hints that say the same unit read the same volume. -/
theorem parseVolumeArg_congr {s : List Char} {hint other : Volfmt}
    (same : unitRead s hint = unitRead s other) (strtod : Strtod) (lo hi res : Int) :
    parseVolumeArg strtod s hint lo hi res = parseVolumeArg strtod s other lo hi res := by
  cases suffix : endsInDb s with
  | true => simp only [parseVolumeArg, suffix, ↓reduceIte]
  | false =>
      cases percent : endsInPercent s with
      | true => simp only [parseVolumeArg, suffix, percent, Bool.false_eq_true, ↓reduceIte]
      | false =>
          simp only [unitRead, suffix, percent, Bool.false_eq_true, ↓reduceIte] at same
          simp only [parseVolumeArg, suffix, percent, Bool.false_eq_true, ↓reduceIte]
          cases hint <;> cases other <;> simp only [Volfmt.unit, reduceCtorEq] at same ⊢

/-! The scan. -/

theorem scanFlags_word (flag : FormatFlag) (fmt : Volfmt) (fmtSeen : Bool) (rest : List Arg) :
    scanFlags fmt fmtSeen (flag.word :: rest) = scanFlags flag.fmt fmtSeen rest := by
  cases flag with
  | raw => rw [FormatFlag.word, scanFlags, if_pos rfl, FormatFlag.fmt]
  | db => rw [FormatFlag.word, scanFlags, if_neg (by decide), if_pos rfl, FormatFlag.fmt]
  | pct =>
      rw [FormatFlag.word, scanFlags, if_neg (by decide), if_neg (by decide), if_pos rfl,
        FormatFlag.fmt]

/-- The loop leaves at the command, and the break clears `fmt_seen` whatever flags it saw. -/
theorem scanFlags_command (flags : List FormatFlag) (fmt : Volfmt) (fmtSeen : Bool)
    (args : List Arg) :
    ∃ last, scanFlags fmt fmtSeen (flags.map FormatFlag.word ++ setVolWord :: args) =
      (last, false, setVolWord :: args) := by
  induction flags generalizing fmt with
  | nil =>
      refine ⟨fmt, ?_⟩
      rw [List.map_nil, List.nil_append, scanFlags, if_neg (by decide), if_neg (by decide),
        if_neg (by decide)]
  | cons flag rest ih =>
      rw [List.map_cons, List.cons_append, scanFlags_word]
      exact ih flag.fmt

theorem scanDev_flags (flags : List FormatFlag) (args : List Arg) :
    scanDev (flags.map FormatFlag.word ++ setVolWord :: args) =
      (defaultDev, flags.map FormatFlag.word ++ setVolWord :: args) := by
  have other (arg : Arg) (rest : List Arg) (different : arg ≠ devWord) :
      scanDev (arg :: rest) = (defaultDev, arg :: rest) := by
    cases rest with
    | nil => rfl
    | cons dev later => rw [scanDev, if_neg different]
  cases flags with
  | nil => exact other _ _ (by decide)
  | cons flag rest => exact other _ _ (by cases flag <;> decide)

theorem mainCommand_setVol (prog : Arg) (dev : Option Arg) (flags : List FormatFlag) (value : Arg) :
    ∃ command, mainCommand (setVolArgv prog dev flags value) = some command ∧
      command.dev = dev.getD defaultDev ∧ command.cmd = setVolWord ∧ command.args = [value] ∧
      command.parseHint = .FMT_DEFAULT := by
  obtain ⟨last, scanned⟩ := scanFlags_command flags .FMT_DEFAULT true [value]
  have command (path : Arg) (found : scanDev (setVolArgv prog dev flags value).tail =
      (path, flags.map FormatFlag.word ++ [setVolWord, value])) :
      mainCommand (setVolArgv prog dev flags value) =
        some ⟨path, last, false, setVolWord, [value]⟩ := by
    simp only [mainCommand, found, scanned]
  cases dev with
  | none => exact ⟨_, command defaultDev (scanDev_flags flags [value]), rfl, rfl, rfl, rfl⟩
  | some path =>
      refine ⟨_, command path ?_, rfl, rfl, rfl, rfl⟩
      rw [setVolArgv, List.tail_cons, devArgs, List.cons_append, List.cons_append, scanDev,
        if_pos rfl, List.nil_append]

theorem lastUnit_eq_raw_iff (flags : List FormatFlag) :
    lastUnit flags = .raw ↔
      flags.getLast? ≠ some FormatFlag.db ∧ flags.getLast? ≠ some FormatFlag.pct := by
  simp only [lastUnit]
  cases flags.getLast? with
  | none => simp
  | some flag => cases flag <;> simp [FormatFlag.fmt, Volfmt.unit]

/-- `set-vol` always passes the default hint, so it reads the value in the unit of the last flag
exactly when that flag is neither `--db` nor `--pct`. -/
theorem setVol_unit_iff (prog : Arg) (dev : Option Arg) (flags : List FormatFlag) (value : Arg)
    (plain : endsInDb value = false ∧ endsInPercent value = false) :
    ∃ command, mainCommand (setVolArgv prog dev flags value) = some command ∧
      command.dev = dev.getD defaultDev ∧ command.cmd = setVolWord ∧ command.args = [value] ∧
      command.parseHint = .FMT_DEFAULT ∧
      (unitRead value command.parseHint = lastUnit flags ↔
        flags.getLast? ≠ some FormatFlag.db ∧ flags.getLast? ≠ some FormatFlag.pct) := by
  obtain ⟨command, found, path, cmd, args, hint⟩ := mainCommand_setVol prog dev flags value
  refine ⟨command, found, path, cmd, args, hint, ?_⟩
  rw [← lastUnit_eq_raw_iff, hint]
  simp only [unitRead, plain, Bool.false_eq_true, ↓reduceIte, Volfmt.unit]
  exact eq_comm

theorem setVol_unit_iff_percent :
    ∃ command, mainCommand (setVolArgv ['u'] none [.db, .pct] ['5', '0']) = some command ∧
      command.dev = (none : Option Arg).getD defaultDev ∧ command.cmd = setVolWord ∧
      command.args = [['5', '0']] ∧ command.parseHint = .FMT_DEFAULT ∧
      (unitRead ['5', '0'] command.parseHint = lastUnit [.db, .pct] ↔
        [FormatFlag.db, FormatFlag.pct].getLast? ≠ some FormatFlag.db ∧
          [FormatFlag.db, FormatFlag.pct].getLast? ≠ some FormatFlag.pct) :=
  setVol_unit_iff ['u'] none [.db, .pct] ['5', '0'] (by decide)

/-- `uacctl --db set-vol -5` reads -5 as a raw volume. -/
theorem setVol_ignores_flag :
    ¬∀ (prog : Arg) (dev : Option Arg) (flags : List FormatFlag) (value : Arg),
      endsInDb value = false ∧ endsInPercent value = false →
        ∃ command, mainCommand (setVolArgv prog dev flags value) = some command ∧
          command.cmd = setVolWord ∧ command.args = [value] ∧
          unitRead value command.parseHint = lastUnit flags := by
  intro claimed
  obtain ⟨command, found, _, _, unit⟩ := claimed ['u'] none [.db] ['-', '5'] (by decide)
  obtain ⟨other, foundOther, _, _, _, hint⟩ := mainCommand_setVol ['u'] none [.db] ['-', '5']
  rw [found, Option.some.injEq] at foundOther
  rw [foundOther, hint] at unit
  exact absurd unit (by decide)

end Ldd3.Uac
