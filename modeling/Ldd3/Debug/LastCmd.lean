import Mathlib.Tactic
import Ldd3.Lib.CInt
import Ldd3.Buffer

/-!
The `last_cmd` file of debugfs (`ch04_debug/debugfs.c`): what is written to it is kept in 64
bytes, without its newline, and read back with one.
-/

namespace Ldd3.Debug

open CInt (uint64)

def LAST_CMD_SIZE : Nat := 64

structure LastCmd where
  bytes : List Byte
  size : bytes.length = LAST_CMD_SIZE

structure DebugSys where
  lastCmd : LastCmd
  counter : Nat

structure Reply where
  ret : Int
  ppos : Int
  out : List Byte
  deriving DecidableEq, Repr

def LastCmd.zeroed : LastCmd where
  bytes := List.replicate LAST_CMD_SIZE 0
  size := List.length_replicate

def LastCmd.memcpy (lastCmd : LastCmd) (bytes : List Byte) : Except Oops LastCmd :=
  if fits : 0 + bytes.length ≤ lastCmd.bytes.length then
    .ok ⟨Block.overwrite lastCmd.bytes 0 bytes, (Block.length_overwrite fits).trans lastCmd.size⟩
  else .error .outOfBounds

/-- The string that starts with the array, as `%s` prints it. -/
def LastCmd.string (lastCmd : LastCmd) : Except Oops (List Byte) :=
  if 0 ∈ lastCmd.bytes then .ok (lastCmd.bytes.takeWhile (· ≠ 0)) else .error .outOfBounds

/-- The text is cut to the buffer, but its whole length is returned. -/
def snprintf (buffer : Buffer Byte) (size : Nat) (text : List Byte) :
    Except Oops (Nat × Buffer Byte) :=
  if size = 0 then .ok (text.length, buffer)
  else do
    let printed ← buffer.store 0 (text.take (size - 1) ++ [0])
    return (text.length, printed)

def simpleReadFromBuffer (env : Env) (count : Nat) (ppos : Int) (source : Buffer Byte)
    (available : Nat) : Except Oops Reply :=
  if ppos < 0 then .ok ⟨-EINVAL, ppos, []⟩
  else if (available : Int) ≤ ppos ∨ count = 0 then .ok ⟨0, ppos, []⟩
  else do
    let bytes ← source.load ppos.toNat (min count (available - ppos.toNat))
    let copied := (env.fault.getD bytes.length).min bytes.length
    if copied = 0 then return ⟨-EFAULT, ppos, []⟩
    else return ⟨copied, ppos + copied, bytes.take copied⟩

def scullLastcmdRead (env : Env) (sys : DebugSys) (len : Nat) (ppos : Int) : Except Oops Reply := do
  let lastCmd ← sys.lastCmd.string
  let (n, tmp) ← snprintf (.uninit LAST_CMD_SIZE) LAST_CMD_SIZE (lastCmd ++ [10])
  simpleReadFromBuffer env len ppos tmp n

def scullLastcmdWrite (env : Env) (sys : DebugSys) (ubuf : List Byte) (ppos : Int) :
    Except Oops (Reply × DebugSys) := do
  let n := min ubuf.length LAST_CMD_SIZE
  if env.faults n then return (⟨-EFAULT, ppos, []⟩, sys)
  let tmp ← (Buffer.uninit LAST_CMD_SIZE).store 0 (ubuf.take n)
  let last ← tmp.load (uint64 (n - 1)) 1
  let n := if last = [10] then n - 1 else n
  let tmp ← tmp.store n [0]
  let text ← tmp.load 0 (n + 1)
  let lastCmd ← sys.lastCmd.memcpy text
  return (⟨ubuf.length, 0, []⟩,
    { lastCmd := lastCmd, counter := CInt.uint32 (sys.counter + 1) })

def withoutNewline (bytes : List Byte) : List Byte :=
  if bytes.getLast? = some 10 then bytes.dropLast else bytes

/-- What the file is to keep of a string: what `tmp` has room for, without a last newline. -/
def storedText (s : List Byte) : List Byte := withoutNewline (s.take LAST_CMD_SIZE)

/-- The string is stored, terminated, and the next read from the start returns as much of it and
of a newline as the reader asks for. Both calls can access the user's memory. -/
def RoundTrip (sys : DebugSys) (s : List Byte) (ppos : Int) : Prop :=
  ∀ env : Env, env.fault = none →
    ∃ next, scullLastcmdWrite env sys s ppos = .ok (⟨s.length, 0, []⟩, next) ∧
      0 ∈ next.lastCmd.bytes ∧
      ∀ len, (scullLastcmdRead env next len 0).map Reply.out =
        .ok ((storedText s ++ [10]).take len)

section Write

variable {env : Env} (sys : DebugSys) {s : List Byte}

theorem length_withoutNewline (bytes : List Byte) :
    (withoutNewline bytes).length =
      if bytes.getLast? = some 10 then bytes.length - 1 else bytes.length := by
  rw [withoutNewline]
  split
  · exact List.length_dropLast
  · rfl

theorem take_withoutNewline (bytes : List Byte) :
    bytes.take (withoutNewline bytes).length = withoutNewline bytes := by
  rw [length_withoutNewline, withoutNewline]
  split
  · exact List.dropLast_eq_take.symm
  · exact List.take_length

theorem length_withoutNewline_le (bytes : List Byte) :
    (withoutNewline bytes).length ≤ bytes.length := by
  rw [length_withoutNewline]
  split <;> omega

theorem load_last {bytes : List Byte} (left : Buffer Byte) (some : bytes ≠ [])
    (small : bytes.length ≤ LAST_CMD_SIZE) :
    Buffer.load (bytes.map .some ++ left) (uint64 (bytes.length - 1)) 1 =
      .ok [bytes.getLast some] := by
  have positive : 0 < bytes.length := List.length_pos_iff.mpr some
  have index : uint64 (bytes.length - 1) = bytes.length - 1 := by
    rw [LAST_CMD_SIZE] at small
    rw [uint64]
    omega
  rw [index, Buffer.load_written (by omega), Block.slice, List.drop_length_sub_one some]
  rfl

theorem scullLastcmdWrite_empty (valid : env.fault = none) (ppos : Int) :
    scullLastcmdWrite env sys [] ppos = .error .outOfBounds := by
  have copied : env.faults 0 = false := Env.faults_of_none valid 0
  rw [scullLastcmdWrite]
  simp only [List.length_nil, Nat.zero_min, copied, Bool.false_eq_true, ↓reduceIte]
  rfl

def terminate (sys : DebugSys) (s : List Byte) (tmp : Buffer Byte) : Except Oops (Reply × DebugSys) := do
  let tmp ← tmp.store (storedText s).length [0]
  let text ← tmp.load 0 ((storedText s).length + 1)
  let lastCmd ← sys.lastCmd.memcpy text
  return (⟨s.length, 0, []⟩, { lastCmd := lastCmd, counter := CInt.uint32 (sys.counter + 1) })

theorem scullLastcmdWrite_eq (valid : env.fault = none) (some : s ≠ []) (ppos : Int) :
    ∃ left : Buffer Byte, (s.take LAST_CMD_SIZE).length + left.length = LAST_CMD_SIZE ∧
      scullLastcmdWrite env sys s ppos =
        terminate sys s ((s.take LAST_CMD_SIZE).map .some ++ left) := by
  have copied := Env.faults_of_none valid (min s.length LAST_CMD_SIZE)
  have small : (s.take LAST_CMD_SIZE).length ≤ LAST_CMD_SIZE := List.length_take_le _ _
  have count : min s.length LAST_CMD_SIZE = (s.take LAST_CMD_SIZE).length := by
    rw [List.length_take, Nat.min_comm]
  have taken : s.take (s.take LAST_CMD_SIZE).length = s.take LAST_CMD_SIZE := by
    rw [List.length_take, ← List.take_take, List.take_length]
  have bytes : s.take LAST_CMD_SIZE ≠ [] := by
    rw [Ne, List.take_eq_nil_iff]
    exact not_or.mpr ⟨by decide, some⟩
  obtain ⟨left, stored, length⟩ := Buffer.store_uninit small
  have stripped : (if [(s.take LAST_CMD_SIZE).getLast bytes] = [10]
      then (s.take LAST_CMD_SIZE).length - 1 else (s.take LAST_CMD_SIZE).length) =
      (storedText s).length := by
    rw [storedText, length_withoutNewline, List.getLast?_eq_some_getLast bytes]
    simp only [List.cons.injEq, and_true, Option.some.injEq]
  refine ⟨left, length, ?_⟩
  rw [scullLastcmdWrite]
  simp only [copied, Bool.false_eq_true, ↓reduceIte]
  rw [count, taken, stored, ok_bind, load_last left bytes small, ok_bind, stripped, terminate]

theorem scullLastcmdWrite_fits (valid : env.fault = none) (some : s ≠ []) (ppos : Int)
    (fits : (storedText s).length < LAST_CMD_SIZE) :
    ∃ next, scullLastcmdWrite env sys s ppos = .ok (⟨s.length, 0, []⟩, next) ∧
      next.lastCmd.bytes = Block.overwrite sys.lastCmd.bytes 0 (storedText s ++ [0]) := by
  obtain ⟨left, length, written⟩ := scullLastcmdWrite_eq sys valid some ppos
  have within : (storedText s).length ≤ (s.take LAST_CMD_SIZE).length :=
    length_withoutNewline_le _
  have inside : (storedText s).length + [(0 : Byte)].length ≤
      (s.take LAST_CMD_SIZE).length + left.length := by
    rw [length]
    exact fits
  obtain ⟨rest, stored, -⟩ := Buffer.store_written within inside
  have text : (s.take LAST_CMD_SIZE).take (storedText s).length = storedText s :=
    take_withoutNewline _
  have loaded : 0 + ((storedText s).length + 1) ≤ (storedText s ++ [0]).length := by
    rw [List.length_append, Nat.zero_add]
    exact le_rfl
  have whole : Block.slice (storedText s ++ [0]) 0 ((storedText s).length + 1) =
      storedText s ++ [0] := by
    rw [Block.slice, List.drop_zero]
    exact List.take_of_length_le (by rw [List.length_append]; exact le_rfl)
  have room : 0 + (storedText s ++ [0]).length ≤ sys.lastCmd.bytes.length := by
    rw [sys.lastCmd.size, List.length_append, Nat.zero_add]
    exact fits
  rw [text] at stored
  rw [written, terminate, stored, ok_bind, Buffer.load_written loaded, whole, ok_bind,
    LastCmd.memcpy, dif_pos room]
  exact ⟨_, rfl, rfl⟩

theorem scullLastcmdWrite_full (valid : env.fault = none) (ppos : Int)
    (full : LAST_CMD_SIZE ≤ (storedText s).length) :
    scullLastcmdWrite env sys s ppos = .error .outOfBounds := by
  have some : s ≠ [] := by
    rintro rfl
    contradiction
  obtain ⟨left, length, written⟩ := scullLastcmdWrite_eq sys valid some ppos
  have outside : ((s.take LAST_CMD_SIZE).map Option.some ++ left).length <
      (storedText s).length + [(0 : Byte)].length := by
    rw [List.length_append, List.length_map, length]
    exact Nat.lt_succ_of_le full
  rw [written, terminate, Buffer.store_outside outside, error_bind]

end Write

section Read

variable {env : Env} {sys : DebugSys} {text : List Byte}

def LastCmd.Keeps (lastCmd : LastCmd) (text : List Byte) : Prop :=
  ∃ rest, lastCmd.bytes = text ++ 0 :: rest

theorem LastCmd.Keeps.string_eq {lastCmd : LastCmd} (keeps : lastCmd.Keeps text)
    (noNul : 0 ∉ text) : lastCmd.string = .ok text := by
  obtain ⟨rest, bytes⟩ := keeps
  have terminated : 0 ∈ lastCmd.bytes := by
    rw [bytes]
    exact List.mem_append_right _ List.mem_cons_self
  have chars : ∀ byte ∈ text, decide (byte ≠ 0) = true := by
    intro byte listed
    rw [decide_eq_true_eq]
    rintro rfl
    exact noNul listed
  rw [string, if_pos terminated, bytes, List.takeWhile_append_of_pos chars]
  simp only [ne_eq, not_true_eq_false, decide_false, Bool.false_eq_true, not_false_eq_true,
    List.takeWhile_cons_of_neg, List.append_nil]

theorem simpleReadFromBuffer_start (valid : env.fault = none) {bytes : List Byte}
    {left : Buffer Byte} {count available : Nat} (some : 0 < available)
    (written : min count available ≤ bytes.length) :
    (simpleReadFromBuffer env count 0 (bytes.map .some ++ left) available).map Reply.out =
      .ok (bytes.take (min count available)) := by
  rw [simpleReadFromBuffer, if_neg (by decide)]
  by_cases nothing : count = 0
  · rw [if_pos (.inr nothing), nothing, Nat.zero_min]
    rfl
  · have loaded : 0 + min count available ≤ bytes.length := by omega
    have some : ¬((available : Int) ≤ 0 ∨ count = 0) := by omega
    have length : (bytes.take (min count available)).length ≠ 0 := by
      rw [List.length_take]
      omega
    rw [if_neg some, Int.toNat_zero, Nat.sub_zero, Buffer.load_written loaded, ok_bind,
      Block.slice, List.drop_zero, valid, Option.getD_none]
    simp only [Nat.min_self, if_neg length]
    exact congrArg Except.ok List.take_length

def printed (text : List Byte) : List Byte := (text ++ [10]).take (LAST_CMD_SIZE - 1) ++ [0]

theorem length_printed (text : List Byte) :
    (printed text).length = min (LAST_CMD_SIZE - 1) (text.length + 1) + 1 := by
  rw [printed, List.length_append, List.length_take, List.length_append]
  rfl

theorem scullLastcmdRead_eq (valid : env.fault = none) (keeps : sys.lastCmd.Keeps text)
    (noNul : 0 ∉ text) (fits : text.length < LAST_CMD_SIZE) (len : Nat) :
    (scullLastcmdRead env sys len 0).map Reply.out =
      .ok ((printed text).take (min len (text.length + 1))) := by
  have size : LAST_CMD_SIZE = 64 := rfl
  have length := length_printed text
  have room : (printed text).length ≤ LAST_CMD_SIZE := by omega
  obtain ⟨left, stored, -⟩ := Buffer.store_uninit room
  have formatted : snprintf (.uninit LAST_CMD_SIZE) LAST_CMD_SIZE (text ++ [10]) =
      .ok (text.length + 1, (printed text).map some ++ left) := by
    have printing : (text ++ [10]).take (LAST_CMD_SIZE - 1) ++ [0] = printed text := rfl
    rw [snprintf, if_neg (by decide), printing, stored, ok_bind, List.length_append]
    rfl
  rw [scullLastcmdRead, keeps.string_eq noNul, ok_bind, formatted, ok_bind]
  exact simpleReadFromBuffer_start valid (Nat.succ_pos _) (by omega)

theorem printed_short (short : text.length < LAST_CMD_SIZE - 1) :
    printed text = text ++ [10] ++ [0] := by
  have all : (text ++ [10]).length ≤ LAST_CMD_SIZE - 1 := by
    rw [List.length_append]
    exact short
  rw [printed, List.take_of_length_le all]

theorem printed_long (long : text.length = LAST_CMD_SIZE - 1) : printed text = text ++ [0] := by
  rw [printed, List.take_append_of_le_length long.ge, List.take_of_length_le long.le]

theorem reads_back_iff (valid : env.fault = none) (keeps : sys.lastCmd.Keeps text)
    (noNul : 0 ∉ text) (fits : text.length < LAST_CMD_SIZE) :
    (∀ len, (scullLastcmdRead env sys len 0).map Reply.out = .ok ((text ++ [10]).take len)) ↔
      text.length < LAST_CMD_SIZE - 1 := by
  simp only [scullLastcmdRead_eq valid keeps noNul fits, Except.ok.injEq]
  constructor
  · intro reads
    by_contra long
    have whole := reads (text.length + 1)
    have last : text.length = LAST_CMD_SIZE - 1 := by omega
    rw [Nat.min_self, printed_long last, List.take_of_length_le (by simp),
      List.take_of_length_le (by simp), List.append_cancel_left_eq] at whole
    contradiction
  · intro short len
    have length : (text ++ [10]).length = text.length + 1 := List.length_append
    rw [printed_short short, List.take_append_of_le_length (by omega), ← length,
      ← List.take_eq_take_min]

end Read

section RoundTrip

theorem storedText_subset {s : List Byte} : storedText s ⊆ s := by
  apply List.Subset.trans _ (List.take_subset LAST_CMD_SIZE s)
  rw [storedText, withoutNewline]
  split
  · exact List.dropLast_subset _
  · exact List.Subset.refl _

theorem keeps_of_overwrite {lastCmd : LastCmd} {old text : List Byte}
    (written : lastCmd.bytes = Block.overwrite old 0 (text ++ [0])) : lastCmd.Keeps text := by
  refine ⟨old.drop (0 + (text ++ [0]).length), ?_⟩
  rw [written, Block.overwrite, List.take_zero, List.nil_append, List.append_assoc]
  rfl

theorem storedText_short_iff {s : List Byte} (nonempty : s ≠ []) :
    (storedText s).length < LAST_CMD_SIZE - 1 ↔
      s.length ≤ 62 ∨ s.length = 63 ∧ s.getLast? = some 10 := by
  have positive : 0 < s.length := List.length_pos_iff.mpr nonempty
  rw [storedText, length_withoutNewline, List.length_take, LAST_CMD_SIZE]
  by_cases long : 63 < s.length
  · split <;> omega
  · rw [List.take_of_length_le (by omega)]
    split <;> rename_i newline <;> simp only [newline, and_true, and_false, or_false] <;> omega

theorem roundTrip_iff_short {sys : DebugSys} {s : List Byte} {ppos : Int} (noNul : 0 ∉ s) :
    RoundTrip sys s ppos ↔ s ≠ [] ∧ (storedText s).length < LAST_CMD_SIZE - 1 := by
  have textNoNul : 0 ∉ storedText s := fun listed => noNul (storedText_subset listed)
  constructor
  · intro trip
    have valid : (Env.good fun _ => 0).fault = none := rfl
    obtain ⟨next, written, -, reads⟩ := trip _ valid
    have nonempty : s ≠ [] := by
      rintro rfl
      rw [scullLastcmdWrite_empty sys valid] at written
      contradiction
    have fits : (storedText s).length < LAST_CMD_SIZE := by
      by_contra full
      rw [scullLastcmdWrite_full sys valid ppos (Nat.le_of_not_lt full)] at written
      contradiction
    obtain ⟨stored, writtenStored, bytes⟩ :=
      scullLastcmdWrite_fits sys valid nonempty ppos fits
    rw [written, Except.ok.injEq, Prod.mk.injEq] at writtenStored
    have keeps := keeps_of_overwrite (writtenStored.2 ▸ bytes)
    exact ⟨nonempty, (reads_back_iff valid keeps textNoNul fits).mp reads⟩
  · rintro ⟨nonempty, short⟩ env valid
    have fits : (storedText s).length < LAST_CMD_SIZE := short.trans (by decide)
    obtain ⟨next, written, bytes⟩ := scullLastcmdWrite_fits sys valid nonempty ppos fits
    have keeps := keeps_of_overwrite bytes
    have terminated : 0 ∈ next.lastCmd.bytes := by
      obtain ⟨rest, split⟩ := keeps
      rw [split]
      exact List.mem_append_right _ List.mem_cons_self
    exact ⟨next, written, terminated, (reads_back_iff valid keeps textNoNul fits).mpr short⟩

theorem lastcmd_round_trip_iff (sys : DebugSys) (s : List Byte) (ppos : Int) (noNul : 0 ∉ s) :
    RoundTrip sys s ppos ↔
      0 < s.length ∧ (s.length ≤ 62 ∨ s.length = 63 ∧ s.getLast? = some 10) := by
  rw [roundTrip_iff_short noNul, List.length_pos_iff]
  exact and_congr_right storedText_short_iff

theorem lastcmd_round_trip_inc :
    (0 : Byte) ∉ [105, 110, 99, 10] ∧
      RoundTrip { lastCmd := .zeroed, counter := 0 } [105, 110, 99, 10] 0 := by
  have noNul : (0 : Byte) ∉ [105, 110, 99, 10] := by decide
  exact ⟨noNul, (lastcmd_round_trip_iff _ _ 0 noNul).mpr (by decide)⟩

/-- No byte at all, a text without room for its newline, and one without room for its
terminator. -/
theorem lastcmd_round_trip_fails :
    ¬RoundTrip { lastCmd := .zeroed, counter := 0 } [] 0 ∧
      ¬RoundTrip { lastCmd := .zeroed, counter := 0 } (List.replicate 63 97) 0 ∧
      ¬RoundTrip { lastCmd := .zeroed, counter := 0 } (List.replicate 64 97) 0 := by
  refine ⟨?_, ?_, ?_⟩
  · rw [roundTrip_iff_short (by decide)]
    decide
  · rw [roundTrip_iff_short (by decide)]
    decide
  · rw [roundTrip_iff_short (by decide)]
    decide

end RoundTrip

end Ldd3.Debug
