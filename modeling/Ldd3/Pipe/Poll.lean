import Mathlib.Tactic
import Ldd3.Lib.StepMachine
import Ldd3.Pipe.Fifo
import Ldd3.Pipe.Openers

/-!
`scull_p_poll` against the calls it speaks for. The mask is computed from `rp`, `wp` and
`nwriters` on its own, and has to say what a nonblocking read or write would do next.
-/

namespace Ldd3.Pipe

def EAGAIN : Int := 11

def POLLIN : BitVec 32 := 0x0001
def POLLOUT : BitVec 32 := 0x0004
def POLLHUP : BitVec 32 := 0x0010
def POLLRDNORM : BitVec 32 := 0x0040
def POLLWRNORM : BitVec 32 := 0x0100

def scullPPoll (dev : ScullPipe) : BitVec 32 :=
  let mask := 0
  let mask := if dev.rp ≠ dev.wp then mask ||| (POLLIN ||| POLLRDNORM) else mask
  let mask := if getSpacefree dev ≠ 0 then mask ||| (POLLOUT ||| POLLWRNORM) else mask
  if dev.rp = dev.wp ∧ dev.nwriters = 0 then mask ||| (POLLHUP ||| POLLIN) else mask

def Reports (mask event : BitVec 32) : Prop := mask &&& event ≠ 0

instance (mask event : BitVec 32) : Decidable (Reports mask event) := by
  unfold Reports
  infer_instance

def nonblockRead (env : Env) (dev : ScullPipe) (count : Nat) : Except Oops Int :=
  if env.interrupted then .ok (-ERESTARTSYS)
  else
    match scullPReadLocked env dev count with
    | .error oops => .error oops
    | .ok (_, .endOfFile) => .ok 0
    | .ok (_, .empty) => .ok (-EAGAIN)
    | .ok (_, .fault) => .ok (-EFAULT)
    | .ok (_, .data bytes) => .ok bytes.length

def nonblockWrite (env : Env) (dev : ScullPipe) (data : List Byte) : Except Oops Int :=
  if env.interrupted then .ok (-ERESTARTSYS)
  else
    match scullPWriteLocked env dev data with
    | .error oops => .error oops
    | .ok (_, .full) => .ok (-EAGAIN)
    | .ok (_, .fault) => .ok (-EFAULT)
    | .ok (_, .accepted bytes) => .ok bytes.length

def Succeeds (least : Int) (answer : Except Oops Int) : Prop :=
  ∃ ret, answer = .ok ret ∧ least ≤ ret

/-- The mask says what a nonblocking read of `count` bytes and a nonblocking write of `data`
would do; a call that it does not announce returns `-EAGAIN`. -/
structure PollAgrees (env : Env) (dev : ScullPipe) (count : Nat) (data : List Byte) : Prop where
  pollin : Reports (scullPPoll dev) POLLIN ↔ Succeeds 0 (nonblockRead env dev count)
  noPollin : ¬ Reports (scullPPoll dev) POLLIN ↔ nonblockRead env dev count = .ok (-EAGAIN)
  pollout : Reports (scullPPoll dev) POLLOUT ↔ Succeeds 1 (nonblockWrite env dev data)
  noPollout : ¬ Reports (scullPPoll dev) POLLOUT ↔ nonblockWrite env dev data = .ok (-EAGAIN)
  pollhup : Reports (scullPPoll dev) POLLHUP ↔ nonblockRead env dev count = .ok 0

/-! The three events by the tests of the poll. -/

theorem pollMask_events (nonempty room hangup : Bool) :
    let mask := 0
    let mask := if nonempty = true then mask ||| (POLLIN ||| POLLRDNORM) else mask
    let mask := if room = true then mask ||| (POLLOUT ||| POLLWRNORM) else mask
    let mask := if hangup = true then mask ||| (POLLHUP ||| POLLIN) else mask
    (Reports mask POLLIN ↔ nonempty = true ∨ hangup = true) ∧ (Reports mask POLLOUT ↔ room = true) ∧
      (Reports mask POLLHUP ↔ hangup = true) := by
  cases nonempty <;> cases room <;> cases hangup <;> decide

theorem scullPPoll_events (dev : ScullPipe) :
    (Reports (scullPPoll dev) POLLIN ↔ dev.rp ≠ dev.wp ∨ dev.rp = dev.wp ∧ dev.nwriters = 0) ∧
      (Reports (scullPPoll dev) POLLOUT ↔ getSpacefree dev ≠ 0) ∧
      (Reports (scullPPoll dev) POLLHUP ↔ dev.rp = dev.wp ∧ dev.nwriters = 0) := by
  have events := pollMask_events (decide (dev.rp ≠ dev.wp)) (decide (getSpacefree dev ≠ 0))
    (decide (dev.rp = dev.wp ∧ dev.nwriters = 0))
  simpa only [decide_eq_true_eq, scullPPoll] using events

/-! The two calls by the same tests. -/

theorem readCount_pos {dev : ScullPipe} {buffer : List Byte} (sound : Sound dev buffer)
    {count : Nat} (some : 0 < count) : 0 < readCount dev count := by
  obtain ⟨reader, writer⟩ := sound.inside
  have fits := sound.fits
  simp only [readCount, sound.length]
  split
  · rw [minSize_of_nonneg count (by omega) (by omega)]
    omega
  · rw [minSize_of_nonneg count (by omega) (by omega)]
    omega

theorem writeCount_pos {dev : ScullPipe} {buffer : List Byte} (sound : Sound dev buffer)
    (room : getSpacefree dev ≠ 0) {count : Nat} (some : 0 < count) : 0 < writeCount dev count := by
  have balance := getSpacefree_stored sound
  have bound := Ring.stored_lt sound.inside
  obtain ⟨reader, writer⟩ := sound.inside
  have fits := sound.fits
  have toEnd : 0 < CInt.uint64 ((buffer.length : Int) - dev.wp) := by
    rw [CInt.uint64_of_range (by omega) (by omega)]
    omega
  simp only [writeCount, sound.length]
  simp only [Ring.stored] at balance bound
  rw [minSize_of_nonneg count (by omega) (by omega)]
  split at balance
  · rename_i ahead
    rw [if_pos ahead, if_pos toEnd]
    omega
  · rename_i behind
    rw [if_neg behind, minSize_of_nonneg _ (by omega) (by omega)]
    omega

section Calls

variable {env : Env} {dev : ScullPipe} {buffer : List Byte}

theorem nonblockRead_empty (quiet : env.interrupted = false) (empty : dev.rp = dev.wp)
    (count : Nat) :
    nonblockRead env dev count = .ok (if dev.nwriters = 0 then 0 else -EAGAIN) := by
  simp only [nonblockRead, scullPReadLocked, quiet, empty]
  by_cases last : dev.nwriters = 0
  · simp only [last, if_true, Bool.false_eq_true, if_false]
  · simp only [last, if_true, Bool.false_eq_true, if_false]

theorem nonblockRead_data (quiet : env.interrupted = false) (noFault : env.fault = none)
    (sound : Sound dev buffer) (nonempty : dev.rp ≠ dev.wp) {count : Nat} (some : 0 < count) :
    Succeeds 1 (nonblockRead env dev count) := by
  have available := readCount_readable sound nonempty count
  have reach := readable_fits sound.inside
  have positive := readCount_pos sound some
  have fits : dev.rp + readCount dev count ≤ buffer.length := by omega
  refine ⟨readCount dev count, ?_, by omega⟩
  simp only [nonblockRead, scullPReadLocked, quiet, nonempty, sound.start, fits,
    Env.faults_of_none noFault, Bool.false_eq_true, ↓reduceIte, Block.length_slice fits]

theorem nonblockWrite_full (quiet : env.interrupted = false) (full : getSpacefree dev = 0)
    (data : List Byte) : nonblockWrite env dev data = .ok (-EAGAIN) := by
  simp only [nonblockWrite, scullPWriteLocked, quiet, full, Bool.false_eq_true, ↓reduceIte]

theorem nonblockWrite_room (quiet : env.interrupted = false) (noFault : env.fault = none)
    (sound : Sound dev buffer) (room : getSpacefree dev ≠ 0) {data : List Byte} (some : data ≠ []) :
    Succeeds 1 (nonblockWrite env dev data) := by
  obtain ⟨withinData, withinRoom⟩ := writeCount_writable sound data.length
  have reach := writable_fits sound.inside
  have positive := writeCount_pos sound room (List.length_pos_of_ne_nil some)
  have fits : dev.wp + writeCount dev data.length ≤ buffer.length := by omega
  refine ⟨writeCount dev data.length, ?_, by omega⟩
  simp only [nonblockWrite, scullPWriteLocked, quiet, room, sound.start, fits,
    Env.faults_of_none noFault, Bool.false_eq_true, ↓reduceIte, List.length_take,
    Nat.min_eq_left withinData]

theorem pollAgrees_of_sound (quiet : env.interrupted = false) (noFault : env.fault = none)
    (sound : Sound dev buffer) {count : Nat} (someCount : 0 < count) {data : List Byte}
    (someData : data ≠ []) : PollAgrees env dev count data := by
  obtain ⟨pollin, pollout, pollhup⟩ := scullPPoll_events dev
  have reading : (dev.rp ≠ dev.wp ∨ dev.rp = dev.wp ∧ dev.nwriters = 0 ↔
        Succeeds 0 (nonblockRead env dev count)) ∧
      (¬ (dev.rp ≠ dev.wp ∨ dev.rp = dev.wp ∧ dev.nwriters = 0) ↔
        nonblockRead env dev count = .ok (-EAGAIN)) ∧
      (dev.rp = dev.wp ∧ dev.nwriters = 0 ↔ nonblockRead env dev count = .ok 0) := by
    by_cases empty : dev.rp = dev.wp
    · rw [nonblockRead_empty quiet empty]
      by_cases last : dev.nwriters = 0
      · simp [empty, last, Succeeds, EAGAIN]
      · simp [empty, last, Succeeds, EAGAIN]
    · obtain ⟨ret, answer, positive⟩ := nonblockRead_data quiet noFault sound empty someCount
      have negative : ret ≠ -EAGAIN := by
        simp only [EAGAIN]
        omega
      have nonzero : ret ≠ 0 := by omega
      have nonneg : 0 ≤ ret := by omega
      simp [empty, Succeeds, answer, negative, nonzero, nonneg]
  have writing : (getSpacefree dev ≠ 0 ↔ Succeeds 1 (nonblockWrite env dev data)) ∧
      (¬ getSpacefree dev ≠ 0 ↔ nonblockWrite env dev data = .ok (-EAGAIN)) := by
    by_cases full : getSpacefree dev = 0
    · rw [nonblockWrite_full quiet full]
      simp [full, Succeeds, EAGAIN]
    · obtain ⟨ret, answer, positive⟩ := nonblockWrite_room quiet noFault sound full someData
      have negative : ret ≠ -EAGAIN := by
        simp only [EAGAIN]
        omega
      simp [full, Succeeds, answer, negative, positive]
  constructor
  · rw [pollin]
    exact reading.1
  · rw [pollin]
    exact reading.2.1
  · rw [pollout]
    exact writing.1
  · rw [pollout]
    exact writing.2
  · rw [pollhup]
    exact reading.2.2

end Calls

section Machine

variable {Pid File : Type} [DecidableEq Pid] [DecidableEq File] [Fintype Pid] [Fintype File]

/-- While a file is open for reading or for writing, so that a read or a write can be made at
all, a poll in any reachable state says what the next nonblocking call does. -/
theorem scullPPoll_agrees {size : Nat} (two : 2 ≤ size) (fits : size < 2147483648)
    {sys : PipeSys Pid File}
    (reached : StepMachine.Reachable (pipeStep size) (.loaded Pid File) sys)
    {file : File} {mode : FileMode} (opened : sys.files file = some mode)
    (usable : mode.read = true ∨ mode.write = true)
    {env : Env} (quiet : env.interrupted = false) (noFault : env.fault = none)
    {count : Nat} (someCount : 0 < count) {data : List Byte} (someData : data ≠ []) :
    PollAgrees env sys.dev count data := by
  have openers := openersInvariant_reachable reached
  have used := used_of_opened openers opened usable
  obtain ⟨buffer, allocated⟩ := Option.ne_none_iff_exists'.mp (openers.allocated used)
  obtain ⟨queue, represents⟩ := fifoInvariant_reachable two fits reached buffer allocated
  exact pollAgrees_of_sound quiet noFault represents.sound someCount someData

end Machine

/-- Two bytes are left of the three written first, and one has been written past the end. -/
def wrappedRun : List (PipeAction Unit Unit) :=
  let proceed := .proceed () (.good fun _ => 0)
  [.openFile () ⟨true, true, true⟩ (.good fun _ => 0), .startWrite () () [1, 2, 3], proceed, proceed,
    .startRead () () 2, proceed, proceed, .startWrite () () [4, 5], proceed, proceed]

theorem scullPPoll_agrees_wrapped :
    ∃ sys : PipeSys Unit Unit, StepMachine.Reachable (pipeStep 4) (.loaded Unit Unit) sys ∧
      sys.dev = { start := some [1, 2, 3, 4], buffersize := 4, rp := 2, wp := 0, nreaders := 1,
                  nwriters := 1 } ∧
      PollAgrees (.good fun _ => 0) sys.dev 1 [7] := by
  have reached : ((StepMachine.run (pipeStep 4) (.loaded Unit Unit) wrappedRun).map
      fun sys => (sys.files (), sys.dev)) = some (some ⟨true, true, true⟩,
        { start := some [1, 2, 3, 4], buffersize := 4, rp := 2, wp := 0, nreaders := 1,
          nwriters := 1 }) := by
    decide +kernel
  obtain ⟨sys, ran, left⟩ := Option.map_eq_some_iff.mp reached
  obtain ⟨opened, dev⟩ := Prod.mk.inj left
  exact ⟨sys, ⟨_, ran⟩, dev, scullPPoll_agrees (by decide) (by decide) ⟨_, ran⟩ opened (Or.inl rfl)
    rfl rfl (by decide) (by decide)⟩

end Ldd3.Pipe
