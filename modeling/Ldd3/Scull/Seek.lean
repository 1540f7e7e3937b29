import Mathlib.Tactic
import Ldd3.Lib.StepMachine
import Ldd3.Scull.Reset

/-!
`scull_llseek`, and the position of one open file over its seeks, reads and
writes against what POSIX says of them.
-/

namespace Ldd3.Scull

open CInt (int64 uint64)

def SEEK_SET : Int := 0

def SEEK_CUR : Int := 1

def SEEK_END : Int := 2

structure SeekReply where
  fPos : Int
  ret : Int
  deriving DecidableEq, Repr

/-- `scull_llseek`; `SEEK_END` does not look at `off`. -/
def scullLlseek (dev : ScullDev) (fPos off whence : Int) : SeekReply :=
  if whence = SEEK_SET then move off
  else if whence = SEEK_CUR then move (int64 (fPos + off))
  else if whence = SEEK_END then move (int64 dev.size)
  else ⟨fPos, -EINVAL⟩
where
  move (newpos : Int) : SeekReply := if newpos < 0 then ⟨fPos, -EINVAL⟩ else ⟨newpos, newpos⟩

/-! The reference. -/

def posixTarget (size : Nat) (fPos off whence : Int) : Option Int :=
  if whence = SEEK_SET then some off
  else if whence = SEEK_CUR then some (fPos + off)
  else if whence = SEEK_END then some (size + off)
  else none

def posixSeek (size : Nat) (fPos off whence : Int) : SeekReply :=
  match posixTarget size fPos off whence with
  | none => ⟨fPos, -EINVAL⟩
  | some target =>
      if 0 ≤ target ∧ target < 9223372036854775808 then ⟨target, target⟩ else ⟨fPos, -EINVAL⟩

/-! One open file. -/

structure OpenFile where
  dev : ScullDev
  fPos : Int
  deriving DecidableEq

/-- The system call layer does not call `read` or `write` with a range that passes the largest
`loff_t`. `elsewhere` is what other open files do to the device in between. -/
inductive FileAction
  | seek (off : BitVec 64) (whence : Int)
  | read (env : Env) (count : Nat)
  | write (env : Env) (data : List Byte)
  | elsewhere (dev : ScullDev)

def OpenFile.perform (file : OpenFile) (call : Int → Call) : Option Reply :=
  match Scull.perform file.dev (call file.fPos) with
  | .ok reply => some reply
  | .error _ => none

def openFileStep (file : OpenFile) : FileAction → Option OpenFile
  | .seek off whence =>
      some { file with fPos := (scullLlseek file.dev file.fPos off.toInt whence).fPos }
  | .read env count =>
      if file.fPos + count < 9223372036854775808 then
        (file.perform (.read env count)).map fun reply => ⟨reply.dev, reply.fPos⟩
      else none
  | .write env data =>
      if file.fPos + data.length < 9223372036854775808 then
        (file.perform (.write env data)).map fun reply => ⟨reply.dev, reply.fPos⟩
      else none
  | .elsewhere dev => if dev.size < 9223372036854775808 then some { file with dev := dev } else none

/-- A seek answers and moves as the reference does, a transfer moves by what it returns when
that is positive. -/
def FollowsPosix (file : OpenFile) : FileAction → Prop
  | .seek off whence =>
      scullLlseek file.dev file.fPos off.toInt whence =
        posixSeek file.dev.size file.fPos off.toInt whence
  | .read env count => ∀ reply, file.perform (.read env count) = some reply →
      reply.fPos = if 0 < reply.ret then file.fPos + reply.ret else file.fPos
  | .write env data => ∀ reply, file.perform (.write env data) = some reply →
      reply.fPos = if 0 < reply.ret then file.fPos + reply.ret else file.fPos
  | .elsewhere _ => True

def SeeksEndOnly : FileAction → Prop
  | .seek off whence => whence = SEEK_END → off = 0
  | _ => True

instance : (action : FileAction) → Decidable (SeeksEndOnly action)
  | .seek off whence => inferInstanceAs (Decidable (whence = SEEK_END → off = 0))
  | .read _ _ | .write _ _ | .elsewhere _ => isTrue trivial

/-! Seeks. -/

section Seek

variable {dev : ScullDev} {fPos : Int}

theorem scullLlseek_bounds (nonneg : 0 ≤ fPos) (bound : fPos < 9223372036854775808)
    (off : BitVec 64) (whence : Int) :
    0 ≤ (scullLlseek dev fPos off.toInt whence).fPos ∧
      (scullLlseek dev fPos off.toInt whence).fPos < 9223372036854775808 := by
  have offBound := off.toInt_lt
  have moveBounds (newpos : Int) (fits : newpos < 9223372036854775808) :
      0 ≤ (scullLlseek.move fPos newpos).fPos ∧
        (scullLlseek.move fPos newpos).fPos < 9223372036854775808 := by
    simp only [scullLlseek.move]
    split
    · exact ⟨nonneg, bound⟩
    · simp only
      omega
  have wraps (value : Int) : int64 value < 9223372036854775808 := by
    simp only [int64]
    omega
  simp only [scullLlseek]
  split
  · exact moveBounds _ (by omega)
  split
  · exact moveBounds _ (wraps _)
  split
  · exact moveBounds _ (wraps _)
  · exact ⟨nonneg, bound⟩

theorem move_eq_posix {newpos target : Int}
    (exact : 0 ≤ target ∧ target < 9223372036854775808 → newpos = target)
    (outside : ¬(0 ≤ target ∧ target < 9223372036854775808) → newpos < 0) :
    scullLlseek.move fPos newpos =
      if 0 ≤ target ∧ target < 9223372036854775808 then ⟨target, target⟩ else ⟨fPos, -EINVAL⟩ := by
  simp only [scullLlseek.move]
  by_cases inRange : 0 ≤ target ∧ target < 9223372036854775808
  · rw [exact inRange, if_pos inRange, if_neg (by omega)]
  · rw [if_neg inRange, if_pos (outside inRange)]

theorem scullLlseek_posix_iff (nonneg : 0 ≤ fPos) (bound : fPos < 9223372036854775808)
    (small : dev.size < 9223372036854775808) (off : BitVec 64) (whence : Int) :
    scullLlseek dev fPos off.toInt whence = posixSeek dev.size fPos off.toInt whence ↔
      (whence = SEEK_END → off = 0) := by
  have upper := off.toInt_lt
  have lower := off.le_toInt
  simp only [scullLlseek, posixSeek, posixTarget]
  by_cases set : whence = SEEK_SET
  · have other : whence ≠ SEEK_END := by
      rw [set]
      decide
    rw [if_pos set, if_pos set]
    refine iff_of_true (move_eq_posix (fun _ => rfl) ?_) (fun last => absurd last other)
    omega
  by_cases cur : whence = SEEK_CUR
  · have other : whence ≠ SEEK_END := by
      rw [cur]
      decide
    rw [if_neg set, if_pos cur, if_neg set, if_pos cur]
    refine iff_of_true (move_eq_posix ?_ ?_) (fun last => absurd last other)
    all_goals
      simp only [int64]
      omega
  by_cases last : whence = SEEK_END
  · have size : int64 dev.size = dev.size := CInt.int64_natCast small
    have present : ¬(dev.size : Int) < 0 := by omega
    have zero : off = 0 ↔ off.toInt = 0 := by
      rw [← BitVec.toInt_inj]
      rfl
    rw [if_neg set, if_neg cur, if_pos last, if_neg set, if_neg cur, if_pos last]
    simp only [last, scullLlseek.move, size, present, ↓reduceIte, true_imp_iff, zero]
    split
    · rw [SeekReply.mk.injEq]
      omega
    · rw [SeekReply.mk.injEq]
      simp only [EINVAL]
      omega
  · simp only [set, cur, last, ↓reduceIte, false_imp_iff]

end Seek

/-! Transfers. -/

structure Advances (size : Nat) (fPos : Int) (count : Nat) (reply : Reply) : Prop where
  moved : reply.fPos = if 0 < reply.ret then fPos + reply.ret else fPos
  within : reply.ret ≤ count
  size : reply.dev.size = size ∨ reply.dev.size = max size (uint64 reply.fPos)

theorem Advances.still {size count : Nat} {fPos ret : Int} {dev : ScullDev} {out : List Byte}
    (failed : ret ≤ 0) (same : dev.size = size) : Advances size fPos count ⟨dev, fPos, ret, out⟩ :=
  ⟨by simp only [failed.not_gt, ↓reduceIte], by simp only; omega, .inl same⟩

theorem Advances.by_count {size count moved : Nat} {fPos : Int} {dev : ScullDev} {out : List Byte}
    (nonneg : 0 ≤ fPos) (bound : fPos + count < 9223372036854775808) (within : moved ≤ count)
    (grown : dev.size = size ∨ dev.size = max size (uint64 (int64 (fPos + moved)))) :
    Advances size fPos count ⟨dev, int64 (fPos + moved), moved, out⟩ := by
  have exact : int64 (fPos + moved) = fPos + moved := by
    simp only [int64]
    omega
  refine ⟨?_, by simp only; omega, grown⟩
  simp only [exact]
  split <;> omega

theorem Advances.landed {size count : Nat} {fPos : Int} {reply : Reply}
    (advances : Advances size fPos count reply) (nonneg : 0 ≤ fPos)
    (bound : fPos + count < 9223372036854775808) :
    0 ≤ reply.fPos ∧ reply.fPos < 9223372036854775808 := by
  have within := advances.within
  rw [advances.moved]
  split <;> omega

theorem Advances.size_lt {size count : Nat} {fPos : Int} {reply : Reply}
    (advances : Advances size fPos count reply) (nonneg : 0 ≤ fPos)
    (bound : fPos + count < 9223372036854775808) (small : size < 9223372036854775808) :
    reply.dev.size < 9223372036854775808 := by
  obtain ⟨lower, upper⟩ := advances.landed nonneg bound
  rcases advances.size with same | grown
  · rwa [same]
  · rw [grown, CInt.uint64_of_range lower (by omega)]
    omega

theorem clipToSize_le_count {size count : Nat} {fPos : Int} (nonneg : 0 ≤ fPos)
    (bound : fPos + count < 9223372036854775808) (before : fPos < size) :
    clipToSize size fPos count ≤ count := by
  by_cases past : size < uint64 (fPos + count)
  · rw [clipToSize, if_pos past]
    simp only [uint64] at past ⊢
    omega
  · rw [clipToSize, if_neg past]

section Transfers

variable {env : Env} {quantum qset fPos : Int} {dev : ScullDev} {count : Nat} {data : List Byte}
  {reply : Reply}

theorem scullRead_advances (nonneg : 0 ≤ fPos) (bound : fPos + count < 9223372036854775808)
    (replied : scullRead env quantum qset dev count fPos = .ok reply) :
    Advances dev.size fPos count reply := by
  rcases scullRead_cases replied with ⟨ret, failed, rfl⟩ | ⟨unfinished, pos, _, result, _⟩
  · exact .still failed rfl
  have before : fPos < dev.size := by
    simp only [uint64] at unfinished
    omega
  cases result with
  | interrupted _ => exact .still (by decide) rfl
  | endOfFile _ => exact .still le_rfl rfl
  | noNode extra _ _ => exact .still le_rfl rfl
  | hole extra _ => exact .still le_rfl rfl
  | faulted extra _ _ _ => exact .still (by decide) rfl
  | copied extra _ _ _ =>
      have limited := limitToQuantum_le_count quantum pos.qPos (clipToSize dev.size fPos count)
      have clipped := clipToSize_le_count nonneg bound before
      exact .by_count nonneg bound (limited.trans clipped) (.inl rfl)

theorem copyIntoQuantum_advances (nonneg : 0 ≤ fPos)
    (bound : fPos + data.length < 9223372036854775808) {qPos : Int} {index sPos : Nat}
    {array : PointerArray} {block : List Byte}
    (replied : copyIntoQuantum env quantum dev data fPos qPos index array sPos block = .ok reply) :
    Advances dev.size fPos data.length reply := by
  simp only [copyIntoQuantum] at replied
  split at replied
  · split at replied
    · simp only [Except.ok.injEq] at replied
      exact replied ▸ .still (by decide) rfl
    · simp only [Except.ok.injEq] at replied
      have limited := limitToQuantum_le_count quantum qPos data.length
      exact replied ▸ .by_count nonneg bound limited (.inr rfl)
  · contradiction

theorem withArray_advances (nonneg : 0 ≤ fPos)
    (bound : fPos + data.length < 9223372036854775808)
    {allocQuantum : Env → Nat → Except Oops (Option (List Byte))} {index used : Nat}
    {array : PointerArray} {pos : Position}
    (replied : scullWriteWith.withArray allocQuantum env quantum data fPos dev index array used pos =
      .ok reply) : Advances dev.size fPos data.length reply := by
  rcases withArray_cases replied with rfl | ⟨_, _, _, _, copied⟩
  · exact .still (by decide) rfl
  · exact copyIntoQuantum_advances nonneg bound copied

theorem scullWriteWith_advances (nonneg : 0 ≤ fPos)
    (bound : fPos + data.length < 9223372036854775808)
    {allocQuantum : Env → Nat → Except Oops (Option (List Byte))}
    (replied : scullWriteWith allocQuantum env quantum qset dev data fPos = .ok reply) :
    Advances dev.size fPos data.length reply := by
  rcases scullWriteWith_cases replied with
    ⟨extra, ret, failed, rfl⟩ | ⟨_, _, _, _, _, _, _, _, stored⟩
  · have negative : ret ≤ 0 := by rcases failed with rfl | rfl <;> decide
    exact .still negative rfl
  · have advances := withArray_advances nonneg bound stored
    exact advances

end Transfers

/-! Runs. -/

structure OpenFile.InRange (file : OpenFile) : Prop where
  nonneg : 0 ≤ file.fPos
  bound : file.fPos < 9223372036854775808
  size : file.dev.size < 9223372036854775808

theorem OpenFile.perform_reply {file : OpenFile} {call : Int → Call} {reply : Reply}
    (performed : file.perform call = some reply) :
    Scull.perform file.dev (call file.fPos) = .ok reply := by
  simp only [OpenFile.perform] at performed
  split at performed
  · rename_i answer replied
    rw [replied, ← Option.some.inj performed]
  · contradiction

section Runs

variable {file : OpenFile} {reply : Reply}

theorem read_advances (inRange : file.InRange) {env : Env} {count : Nat}
    (bound : file.fPos + count < 9223372036854775808)
    (performed : file.perform (.read env count) = some reply) :
    Advances file.dev.size file.fPos count reply :=
  scullRead_advances inRange.nonneg bound (OpenFile.perform_reply performed)

theorem write_advances (inRange : file.InRange) {env : Env} {data : List Byte}
    (bound : file.fPos + data.length < 9223372036854775808)
    (performed : file.perform (.write env data) = some reply) :
    Advances file.dev.size file.fPos data.length reply :=
  scullWriteWith_advances inRange.nonneg bound (OpenFile.perform_reply performed)

theorem Advances.inRange {count : Nat} (inRange : file.InRange)
    (bound : file.fPos + count < 9223372036854775808)
    (advances : Advances file.dev.size file.fPos count reply) :
    OpenFile.InRange ⟨reply.dev, reply.fPos⟩ := by
  obtain ⟨nonneg, upper⟩ := advances.landed inRange.nonneg bound
  exact ⟨nonneg, upper, advances.size_lt inRange.nonneg bound inRange.size⟩

theorem inRange_step {next : OpenFile} {action : FileAction} (inRange : file.InRange)
    (taken : openFileStep file action = some next) : next.InRange := by
  cases action with
  | seek off whence =>
      simp only [openFileStep, Option.some.injEq] at taken
      have landed := @scullLlseek_bounds file.dev _ inRange.nonneg inRange.bound off whence
      exact taken ▸ ⟨landed.1, landed.2, inRange.size⟩
  | read env count =>
      simp only [openFileStep, Option.ite_none_right_eq_some, Option.map_eq_some_iff] at taken
      obtain ⟨bound, reply, performed, built⟩ := taken
      exact built ▸ (read_advances inRange bound performed).inRange inRange bound
  | write env data =>
      simp only [openFileStep, Option.ite_none_right_eq_some, Option.map_eq_some_iff] at taken
      obtain ⟨bound, reply, performed, built⟩ := taken
      exact built ▸ (write_advances inRange bound performed).inRange inRange bound
  | elsewhere dev =>
      simp only [openFileStep, Option.ite_none_right_eq_some, Option.some.injEq] at taken
      obtain ⟨small, built⟩ := taken
      exact built ▸ ⟨inRange.nonneg, inRange.bound, small⟩

theorem followsPosix_iff {next : OpenFile} {action : FileAction} (inRange : file.InRange)
    (taken : openFileStep file action = some next) :
    FollowsPosix file action ↔ SeeksEndOnly action := by
  cases action with
  | seek off whence =>
      exact scullLlseek_posix_iff inRange.nonneg inRange.bound inRange.size off whence
  | read env count =>
      simp only [openFileStep, Option.ite_none_right_eq_some] at taken
      refine iff_of_true ?_ trivial
      intro reply performed
      exact (read_advances inRange taken.1 performed).moved
  | write env data =>
      simp only [openFileStep, Option.ite_none_right_eq_some] at taken
      refine iff_of_true ?_ trivial
      intro reply performed
      exact (write_advances inRange taken.1 performed).moved
  | elsewhere dev => exact Iff.rfl

end Runs

theorem position_nonneg {dev : ScullDev} (small : dev.size < 9223372036854775808)
    (actions : List FileAction) :
    StepMachine.Always openFileStep (fun file => 0 ≤ file.fPos) ⟨dev, 0⟩ actions :=
  StepMachine.always_of_meets (fun _ _ _ inRange _ taken => inRange_step inRange taken)
    (fun _ inRange => inRange.nonneg) (OpenFile.InRange.mk le_rfl (by norm_num) small)
    (StepMachine.meets_true _ actions)

/-- The position of a file opened on any device is never negative and follows the reference
exactly when no seek from the end has an offset. -/
theorem position_posix_iff {dev : ScullDev} (small : dev.size < 9223372036854775808)
    (actions : List FileAction) :
    StepMachine.Always openFileStep (fun file => 0 ≤ file.fPos) ⟨dev, 0⟩ actions ∧
        StepMachine.Meets openFileStep FollowsPosix ⟨dev, 0⟩ actions ↔
      StepMachine.Meets openFileStep (fun _ action => SeeksEndOnly action) ⟨dev, 0⟩ actions := by
  rw [and_iff_right (position_nonneg small actions)]
  exact StepMachine.meets_congr (fun _ _ _ inRange taken => inRange_step inRange taken)
    (fun _ _ _ inRange taken => followsPosix_iff inRange taken) actions
    (OpenFile.InRange.mk le_rfl (by norm_num) small)

def seekBack : List FileAction := [.seek 5 SEEK_CUR, .seek (-9) SEEK_CUR]

theorem position_posix_iff_seekBack :
    StepMachine.Always openFileStep (fun file => 0 ≤ file.fPos) ⟨.fresh ⟨4, 4⟩, 0⟩ seekBack ∧
        StepMachine.Meets openFileStep FollowsPosix ⟨.fresh ⟨4, 4⟩, 0⟩ seekBack ↔
      StepMachine.Meets openFileStep (fun _ action => SeeksEndOnly action) ⟨.fresh ⟨4, 4⟩, 0⟩
        seekBack :=
  position_posix_iff (by decide) seekBack

theorem position_not_posix :
    ¬∀ (dev : ScullDev) (actions : List FileAction), dev.size < 9223372036854775808 →
      StepMachine.Always openFileStep (fun file => 0 ≤ file.fPos) ⟨dev, 0⟩ actions ∧
        StepMachine.Meets openFileStep FollowsPosix ⟨dev, 0⟩ actions := by
  intro claimed
  have follows := (claimed (.fresh ⟨4, 4⟩) [.seek 1 SEEK_END] (by decide)).2
  have taken : openFileStep ⟨.fresh ⟨4, 4⟩, 0⟩ (.seek 1 SEEK_END) =
      some ⟨.fresh ⟨4, 4⟩, 0⟩ := by decide +kernel
  have differs : ¬FollowsPosix ⟨.fresh ⟨4, 4⟩, 0⟩ (.seek 1 SEEK_END) := by
    simp only [FollowsPosix]
    decide +kernel
  exact differs (follows _ taken).1

end Ldd3.Scull
