import Mathlib.Tactic
import Ldd3.Lib.CInt
import Ldd3.Uac.Volume

/-!
`uacctl.c`, the tool that sets the volume: its arguments, the limits it asks the driver for, and
the value it makes of its argument. A C string is a list of characters without the terminator.
-/

namespace Ldd3.Uac

open CInt (int32)

def LONG_MIN : Int := -9223372036854775808
def LONG_MAX : Int := 9223372036854775807

/-- `consumed` is `end - s`. -/
structure Strtol where
  value : Int
  consumed : Nat
  erange : Bool
  deriving DecidableEq, Repr

def isSpace (c : Char) : Bool := c.toNat == 32 || (9 ≤ c.toNat && c.toNat ≤ 13)

def digitValue (c : Char) : Nat :=
  if 48 ≤ c.toNat ∧ c.toNat ≤ 57 then c.toNat - 48
  else if 97 ≤ c.toNat ∧ c.toNat ≤ 122 then c.toNat - 87
  else if 65 ≤ c.toNat ∧ c.toNat ≤ 90 then c.toNat - 55
  else 36

def leadingDigits (base : Nat) (s : List Char) : List Nat :=
  (s.map digitValue).takeWhile fun digit => digit < base

def strtolBase : List Char → Nat × Nat
  | '0' :: x :: digit :: _ =>
      if (x = 'x' ∨ x = 'X') ∧ digitValue digit < 16 then (16, 2) else (8, 0)
  | '0' :: _ => (8, 0)
  | _ => (10, 0)

def strtolDigits (s : List Char) : Nat × Nat :=
  let spaces := (s.takeWhile isSpace).length
  let signs := if s[spaces]? = some '-' ∨ s[spaces]? = some '+' then 1 else 0
  let (base, prefixed) := strtolBase (s.drop (spaces + signs))
  (spaces + signs + prefixed, base)

/-- `strtol(s, &end, 0)` of a 64-bit `long`. -/
def strtol (s : List Char) : Strtol :=
  let (start, base) := strtolDigits s
  let digits := leadingDigits base (s.drop start)
  let magnitude := digits.foldl (fun (total : Int) (digit : Nat) => total * base + digit) 0
  let value := if (s.dropWhile isSpace).head? = some '-' then -magnitude else magnitude
  if digits = [] then ⟨0, 0, false⟩
  else if value < LONG_MIN then ⟨LONG_MIN, start + digits.length, true⟩
  else if LONG_MAX < value then ⟨LONG_MAX, start + digits.length, true⟩
  else ⟨value, start + digits.length, false⟩

/-- The value that `strtod` reads and `end - s`. -/
abbrev Strtod := List Char → Float × Nat

inductive Volfmt
  | FMT_DEFAULT
  | FMT_RAW
  | FMT_DB
  | FMT_PCT
  deriving DecidableEq, Repr

def clampi (v lo hi : Int) : Int := if v < lo then lo else if hi < v then hi else v

def q88ToDb (q88 : Int) : Float := Float.ofInt q88 / 256.0

def dbToQ88 (db : Float) : Int :=
  let q := db * 256.0
  let q := if q ≥ 0.0 then q + 0.5 else q - 0.5
  let q := if q < -32768 then -32768 else q
  let q := if q > 32767 then 32767 else q
  q.toInt32.toInt

def pctToQ88 (pct : Float) (minQ88 maxQ88 : Int) : Int :=
  let pct := if pct < 0.0 then 0.0 else pct
  let pct := if pct > 100.0 then 100.0 else pct
  let dbMin := q88ToDb minQ88
  let dbMax := q88ToDb maxQ88
  dbToQ88 (dbMin + (pct / 100.0) * (dbMax - dbMin))

def snapped (q minQ88 maxQ88 resQ88 : Int) : Int :=
  clampi (snapToRes q minQ88 maxQ88 resQ88) minQ88 maxQ88

def endsInDb (s : List Char) : Bool :=
  match s.reverse with
  | b :: d :: _ => (d == 'd' || d == 'D') && (b == 'b' || b == 'B')
  | _ => false

def endsInPercent (s : List Char) : Bool := s.getLast? == some '%'

def parseVolumeArg (strtod : Strtod) (s : List Char) (hint : Volfmt)
    (minQ88 maxQ88 resQ88 : Int) : Except Int Int :=
  if endsInDb s then
    if (strtod s).2 ≠ s.length - 2 then .error (-EINVAL)
    else .ok (snapped (dbToQ88 (strtod s).1) minQ88 maxQ88 resQ88)
  else if endsInPercent s then
    if (strtod s).2 ≠ s.length - 1 then .error (-EINVAL)
    else .ok (snapped (pctToQ88 (strtod s).1 minQ88 maxQ88) minQ88 maxQ88 resQ88)
  else match hint with
  | .FMT_DB =>
      if (strtod s).2 = 0 ∨ (strtod s).2 < s.length then .error (-EINVAL)
      else .ok (snapped (dbToQ88 (strtod s).1) minQ88 maxQ88 resQ88)
  | .FMT_PCT =>
      if (strtod s).2 = 0 ∨ (strtod s).2 < s.length then .error (-EINVAL)
      else .ok (snapped (pctToQ88 (strtod s).1 minQ88 maxQ88) minQ88 maxQ88 resQ88)
  | .FMT_DEFAULT | .FMT_RAW =>
      let v := strtol s
      if v.consumed = 0 ∨ v.consumed < s.length ∨ v.erange then .error (-EINVAL)
      -- int q = (int)v
      else .ok (snapped (int32 v.value) minQ88 maxQ88 resQ88)

/-- What `load_limits` leaves: a range that is not empty, and a step. -/
structure Limits where
  minv : Int
  maxv : Int
  resv : Int
  lower : -32768 ≤ minv
  ordered : minv ≤ maxv
  upper : maxv ≤ 32767
  step : 0 < resv

def se16 (v : Int) : Int := (BitVec.ofInt 16 v).toInt

/-- The arguments are what the three ioctls leave, `none` where one fails. -/
def loadLimits (minv maxv resv : Option Int) : Option Limits := do
  let minv ← minv
  let maxv ← maxv
  let resv ← resv
  some
    { minv := min (se16 minv) (se16 maxv)
      maxv := max (se16 minv) (se16 maxv)
      resv := if se16 resv ≤ 0 then 1 else se16 resv
      lower := le_min (BitVec.le_toInt _) (BitVec.le_toInt _)
      ordered := min_le_max
      upper := max_le (Int.le_of_lt_add_one BitVec.toInt_lt) (Int.le_of_lt_add_one BitVec.toInt_lt)
      step := by split <;> omega }

abbrev Arg := List Char

def defaultDev : Arg := ['/', 'd', 'e', 'v', '/', 'u', 'a', 'c', '0']
def devWord : Arg := ['-', '-', 'd', 'e', 'v']
def rawWord : Arg := ['-', '-', 'r', 'a', 'w']
def dbWord : Arg := ['-', '-', 'd', 'b']
def pctWord : Arg := ['-', '-', 'p', 'c', 't']
def setVolWord : Arg := ['s', 'e', 't', '-', 'v', 'o', 'l']

/-- The loop over the format flags: `fmt`, `fmt_seen` and the arguments left behind it. -/
def scanFlags (fmt : Volfmt) (fmtSeen : Bool) : List Arg → Volfmt × Bool × List Arg
  | [] => (fmt, fmtSeen, [])
  | arg :: rest =>
      if arg = rawWord then scanFlags .FMT_RAW fmtSeen rest
      else if arg = dbWord then scanFlags .FMT_DB fmtSeen rest
      else if arg = pctWord then scanFlags .FMT_PCT fmtSeen rest
      else (fmt, false, arg :: rest)

structure Command where
  dev : Arg
  fmt : Volfmt
  fmtSeen : Bool
  cmd : Arg
  args : List Arg
  deriving DecidableEq, Repr

def scanDev : List Arg → Arg × List Arg
  | arg :: dev :: rest => if arg = devWord then (dev, rest) else (defaultDev, arg :: dev :: rest)
  | rest => (defaultDev, rest)

/-- `main` up to the `open` of the device; `none` where it prints its usage and returns 2. -/
def mainCommand (argv : List Arg) : Option Command :=
  let (dev, flags) := scanDev argv.tail
  match scanFlags .FMT_DEFAULT true flags with
  | (_, _, []) => none
  | (fmt, fmtSeen, cmd :: args) => some { dev, fmt, fmtSeen, cmd, args }

def Command.parseHint (command : Command) : Volfmt :=
  if command.fmtSeen then command.fmt else .FMT_DEFAULT

/-- What `set-vol` returns, and what it passes to `UAC_IOC_SET_VOL`. -/
structure ToolResult where
  rc : Int
  sent : Option Int
  deriving DecidableEq, Repr

/-- `set-vol` in `main`; `sets` is whether the ioctl succeeds. -/
def setVol (strtod : Strtod) (limits : Option Limits) (sets : Bool) (command : Command) :
    ToolResult :=
  match command.args, limits with
  | [], _ => ⟨2, none⟩
  | _ :: _, none => ⟨1, none⟩
  | value :: _, some limits =>
      match parseVolumeArg strtod value command.parseHint limits.minv limits.maxv limits.resv with
      | .error _ => ⟨2, none⟩
      | .ok q88 => ⟨if sets then 0 else 1, some q88⟩

section Sent

variable {strtod : Strtod} {lo hi res q : Int}

theorem clampi_bounds (ordered : lo ≤ hi) (v : Int) : lo ≤ clampi v lo hi ∧ clampi v lo hi ≤ hi := by
  rw [clampi]
  split
  · exact ⟨le_rfl, ordered⟩
  · split <;> omega

theorem parseVolumeArg_bounds (ordered : lo ≤ hi) {s : List Char} {hint : Volfmt}
    (parsed : parseVolumeArg strtod s hint lo hi res = .ok q) : lo ≤ q ∧ q ≤ hi := by
  have clamped (v : Int) (same : snapped v lo hi res = q) : lo ≤ q ∧ q ≤ hi :=
    same ▸ clampi_bounds ordered _
  simp only [parseVolumeArg] at parsed
  split at parsed
  · split at parsed
    · contradiction
    · exact clamped _ (Except.ok.inj parsed)
  · split at parsed
    · split at parsed
      · contradiction
      · exact clamped _ (Except.ok.inj parsed)
    · cases hint with
      | FMT_DB | FMT_PCT | FMT_DEFAULT | FMT_RAW =>
          simp only at parsed
          split at parsed
          · contradiction
          · exact clamped _ (Except.ok.inj parsed)

theorem setVol_sent {minv maxv resv : Option Int} {sets : Bool} {command : Command}
    (sent : (setVol strtod (loadLimits minv maxv resv) sets command).sent = some q) :
    ∃ limits, loadLimits minv maxv resv = some limits ∧ limits.minv ≤ q ∧ q ≤ limits.maxv := by
  simp only [setVol] at sent
  split at sent
  · contradiction
  · contradiction
  · rename_i limits _ found
    split at sent
    · contradiction
    · rename_i q88 parsed
      simp only [Option.some.injEq] at sent
      exact ⟨limits, found, parseVolumeArg_bounds limits.ordered (sent ▸ parsed)⟩

end Sent

end Ldd3.Uac
