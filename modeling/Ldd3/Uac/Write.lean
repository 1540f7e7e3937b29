import Mathlib.Tactic
import Ldd3.Lib.StepMachine
import Ldd3.Uac.Core

/-!
One call of `uac_write`, statement by statement, beside users of the ring that take bytes from it
and put others into it between any two of its steps.
-/

namespace Ldd3.Uac

open StepMachine

/-- Where the call stands: before `copy_from_user`, before `kfifo_in` with the bytes in `tmp`, in
`wait_event_interruptible`. -/
inductive WritePoint
  | copy (off : Nat)
  | insert (off : Nat) (tmp : List Byte)
  | wait (off : Nat)
  | returned (ret : Int)
  deriving DecidableEq, Repr

structure WriteCall where
  point : WritePoint
  ring : List Byte

inductive WriteAction
  | copy (fault : Bool)
  | insert
  | wait (signal : Bool)
  | others (ring : List Byte)

def WriteCall.start (ring : List Byte) : WriteCall := ⟨.copy 0, ring⟩

/-- `data` are the `count` bytes at `buf`. -/
def writeStep (data : List Byte) (call : WriteCall) : WriteAction → Option WriteCall
  | .copy fault =>
      match call.point with
      | .copy off =>
          if off < data.length then
            let chunk := min (data.length - off) BUF_SIZE
            if fault then
              some { call with point := .returned (if off = 0 then -EFAULT else off) }
            else some { call with point := .insert off ((data.drop off).take chunk) }
          else some { call with point := .returned off }
      | _ => none
  | .insert =>
      match call.point with
      | .insert off tmp =>
          let chunk := min tmp.length (AUDIO_RING_SIZE - call.ring.length)
          some {
            point := if chunk = 0 then .wait off else .copy (off + chunk)
            ring := call.ring ++ tmp.take chunk }
      | _ => none
  | .wait signal =>
      match call.point with
      | .wait off =>
          if BUF_SIZE ≤ AUDIO_RING_SIZE - call.ring.length then some { call with point := .copy off }
          else if signal then
            some { call with point := .returned (if off = 0 then -ERESTARTSYS else off) }
          else none
      | _ => none
  | .others ring =>
      if ring.length ≤ AUDIO_RING_SIZE then some { call with ring := ring } else none

/-! The account of the call. -/

def WriteAction.isOwn : WriteAction → Bool
  | .others _ => false
  | _ => true

def WriteAction.isFault : WriteAction → Bool
  | .copy fault => fault
  | _ => false

def WriteAction.isSignal : WriteAction → Bool
  | .wait signal => signal
  | _ => false

abbrev WriteTrace := List (TakenStep WriteCall WriteAction)

def ownSteps (trace : WriteTrace) : WriteTrace := trace.filter fun step => step.action.isOwn

def appended (trace : WriteTrace) : List Byte :=
  (ownSteps trace).flatMap fun step => step.after.ring.drop step.before.ring.length

/-- The step that returned met a fault or a signal. -/
def CutShort (trace : WriteTrace) : Prop :=
  ∃ last, (ownSteps trace).getLast? = some last ∧
    (last.action.isFault = true ∨ last.action.isSignal = true)

/-- The call takes nothing out of the ring. When it returns `n ≥ 0` it has appended the first `n`
bytes of its buffer, and when it returns an error none; fewer than `count` only by a fault or a
signal. -/
structure WriteExact (data : List Byte) (state : WriteCall × WriteTrace) : Prop where
  kept : ∀ step ∈ ownSteps state.2, step.before.ring <+: step.after.ring
  exact : ∀ n : Nat, state.1.point = .returned n →
    n ≤ data.length ∧ appended state.2 = data.take n
  nothing : ∀ ret, state.1.point = .returned ret → ret < 0 → appended state.2 = []
  cut : ∀ ret, state.1.point = .returned ret → ret ≠ data.length → CutShort state.2
  chunk : ∀ off tmp, state.1.point = .insert off tmp → tmp.length ≤ BUF_SIZE

def WritePoint.Accounts (data : List Byte) (trace : WriteTrace) : WritePoint → Prop
  | .copy off | .wait off => off ≤ data.length ∧ appended trace = data.take off
  | .insert off tmp =>
      off < data.length ∧ appended trace = data.take off ∧ tmp = (data.drop off).take BUF_SIZE
  | .returned ret =>
      (∃ off, off ≤ data.length ∧ appended trace = data.take off ∧
          (ret = off ∨ off = 0 ∧ ret < 0)) ∧
        (ret ≠ data.length → CutShort trace)

structure WriteInvariant (data : List Byte) (state : WriteCall × WriteTrace) : Prop where
  kept : ∀ step ∈ ownSteps state.2, step.before.ring <+: step.after.ring
  accounts : state.1.point.Accounts data state.2

section Call

variable {data : List Byte} {call after : WriteCall} {trace : WriteTrace} {action : WriteAction}

theorem take_chunk (data : List Byte) (off : Nat) :
    (data.drop off).take (min (data.length - off) BUF_SIZE) = (data.drop off).take BUF_SIZE := by
  rw [← List.length_drop, ← List.take_take]
  exact List.take_of_length_le (by rw [List.length_take]; omega)

theorem ownSteps_snoc (own : action.isOwn = true) :
    ownSteps (trace ++ [⟨call, action, after⟩]) = ownSteps trace ++ [⟨call, action, after⟩] := by
  simp only [ownSteps, List.filter_append, List.filter_singleton, own, cond_true]

theorem ownSteps_others {ring : List Byte} :
    ownSteps (trace ++ [⟨call, .others ring, after⟩]) = ownSteps trace := by
  simp only [ownSteps, List.filter_append, List.filter_singleton, WriteAction.isOwn, cond_false,
    List.append_nil]

theorem appended_snoc (own : action.isOwn = true) {bytes : List Byte}
    (grown : after.ring = call.ring ++ bytes) :
    appended (trace ++ [⟨call, action, after⟩]) = appended trace ++ bytes := by
  simp only [appended, ownSteps_snoc own, List.flatMap_append, List.flatMap_singleton, grown,
    List.drop_left]

theorem kept_snoc (own : action.isOwn = true) {bytes : List Byte}
    (kept : ∀ step ∈ ownSteps trace, step.before.ring <+: step.after.ring)
    (grown : after.ring = call.ring ++ bytes) :
    ∀ step ∈ ownSteps (trace ++ [⟨call, action, after⟩]), step.before.ring <+: step.after.ring := by
  intro step member
  rw [ownSteps_snoc own] at member
  rcases List.mem_append.mp member with old | new
  · exact kept step old
  · rw [List.mem_singleton.mp new]
    exact ⟨bytes, grown.symm⟩

theorem WriteInvariant.aside (invariant : WriteInvariant data (call, trace)) (own : action.isOwn = true)
    (same : after.ring = call.ring)
    (accounts : appended (trace ++ [⟨call, action, after⟩]) = appended trace →
      after.point.Accounts data (trace ++ [⟨call, action, after⟩])) :
    WriteInvariant data (after, trace ++ [⟨call, action, after⟩]) := by
  have grown : after.ring = call.ring ++ [] := by rw [same, List.append_nil]
  refine ⟨kept_snoc own invariant.kept grown, accounts ?_⟩
  rw [appended_snoc own grown, List.append_nil]

theorem accounts_early {off : Nat} {error : Int} (negative : error < 0) (inside : off ≤ data.length)
    (account : appended trace = data.take off) (early : CutShort trace) :
    WritePoint.Accounts data trace (.returned (if off = 0 then error else off)) := by
  refine ⟨⟨off, inside, account, ?_⟩, fun _ => early⟩
  split
  · rename_i first
    exact .inr ⟨first, negative⟩
  · exact .inl rfl

theorem cutShort_snoc (own : action.isOwn = true)
    (cut : action.isFault = true ∨ action.isSignal = true) :
    CutShort (trace ++ [⟨call, action, after⟩]) := by
  refine ⟨⟨call, action, after⟩, ?_, cut⟩
  rw [ownSteps_snoc own, List.getLast?_concat]

theorem WriteInvariant.copy (invariant : WriteInvariant data (call, trace)) {fault : Bool}
    (taken : writeStep data call (.copy fault) = some after) :
    WriteInvariant data (after, trace ++ [⟨call, .copy fault, after⟩]) := by
  have account := invariant.accounts
  simp only [writeStep] at taken
  split at taken
  · rename_i off here
    rw [here] at account
    obtain ⟨inside, bytes⟩ := account
    split at taken
    · rename_i more
      split at taken
      · rename_i faults
        rw [← Option.some.inj taken]
        refine invariant.aside rfl rfl fun same => ?_
        exact accounts_early (by decide) inside (same.trans bytes) (cutShort_snoc rfl (.inl faults))
      · rw [← Option.some.inj taken]
        exact invariant.aside rfl rfl fun same =>
          ⟨more, same.trans bytes, take_chunk data off⟩
    · rw [← Option.some.inj taken]
      have whole : off = data.length := by omega
      refine invariant.aside rfl rfl fun same => ?_
      exact ⟨⟨off, inside, same.trans bytes, .inl rfl⟩, fun short => absurd (by rw [whole]) short⟩
  · contradiction

theorem WriteInvariant.insert (invariant : WriteInvariant data (call, trace))
    (taken : writeStep data call .insert = some after) :
    WriteInvariant data (after, trace ++ [⟨call, .insert, after⟩]) := by
  have account := invariant.accounts
  simp only [writeStep] at taken
  split at taken
  · rename_i off tmp here
    rw [here] at account
    obtain ⟨inside, bytes, copied⟩ := account
    have tmpLength : tmp.length ≤ data.length - off := by
      rw [copied, List.length_take, List.length_drop]
      exact min_le_right _ _
    generalize chunkEq : min tmp.length (AUDIO_RING_SIZE - call.ring.length) = chunk at taken
    have taking : tmp.take chunk = (data.drop off).take chunk := by
      have bound : tmp.length ≤ BUF_SIZE := by
        rw [copied, List.length_take]
        exact min_le_left _ _
      rw [copied, List.take_take, Nat.min_eq_left (by omega)]
    have grown : after.ring = call.ring ++ tmp.take chunk := by rw [← Option.some.inj taken]
    have later : appended (trace ++ [⟨call, .insert, after⟩]) = data.take (off + chunk) := by
      rw [appended_snoc rfl grown, bytes, taking, List.take_add]
    refine ⟨kept_snoc rfl invariant.kept grown, ?_⟩
    have point : after.point = if chunk = 0 then .wait off else .copy (off + chunk) := by
      rw [← Option.some.inj taken]
    simp only [point]
    split
    · rename_i none
      exact ⟨inside.le, by rw [later, none, Nat.add_zero]⟩
    · exact ⟨by omega, later⟩
  · contradiction

theorem WriteInvariant.wait (invariant : WriteInvariant data (call, trace)) {signal : Bool}
    (taken : writeStep data call (.wait signal) = some after) :
    WriteInvariant data (after, trace ++ [⟨call, .wait signal, after⟩]) := by
  have account := invariant.accounts
  simp only [writeStep] at taken
  split at taken
  · rename_i off here
    rw [here] at account
    obtain ⟨inside, bytes⟩ := account
    split at taken
    · rw [← Option.some.inj taken]
      exact invariant.aside rfl rfl fun same => ⟨inside, same.trans bytes⟩
    · split at taken
      · rename_i signals
        rw [← Option.some.inj taken]
        refine invariant.aside rfl rfl fun same => ?_
        exact accounts_early (by decide) inside (same.trans bytes)
          (cutShort_snoc rfl (.inr signals))
      · contradiction
  · contradiction

theorem WriteInvariant.others (invariant : WriteInvariant data (call, trace)) {ring : List Byte}
    (taken : writeStep data call (.others ring) = some after) :
    WriteInvariant data (after, trace ++ [⟨call, .others ring, after⟩]) := by
  have account := invariant.accounts
  simp only [writeStep] at taken
  split at taken
  · have point : after.point = call.point := by rw [← Option.some.inj taken]
    refine ⟨by rw [ownSteps_others]; exact invariant.kept, ?_⟩
    simp only [point]
    cases here : call.point <;> simp only [here] at account ⊢ <;>
      simpa only [WritePoint.Accounts, appended, CutShort, ownSteps_others] using account
  · contradiction

theorem writeStep_invariant {state next : WriteCall × WriteTrace}
    (invariant : WriteInvariant data state)
    (taken : traced (writeStep data) state action = some next) : WriteInvariant data next := by
  obtain ⟨after, stepped, rfl⟩ := traced_inv taken
  cases action with
  | copy fault => exact invariant.copy stepped
  | insert => exact invariant.insert stepped
  | wait signal => exact invariant.wait stepped
  | others ring => exact invariant.others stepped

theorem writeExact_of_invariant {state : WriteCall × WriteTrace}
    (invariant : WriteInvariant data state) : WriteExact data state where
  kept := invariant.kept
  exact := by
    intro n here
    have account := invariant.accounts
    rw [here] at account
    obtain ⟨⟨off, inside, bytes, same | ⟨_, negative⟩⟩, _⟩ := account
    · rw [Int.ofNat_inj.mp same]
      exact ⟨inside, bytes⟩
    · omega
  nothing := by
    intro ret here negative
    have account := invariant.accounts
    rw [here] at account
    obtain ⟨⟨off, inside, bytes, same | ⟨none, _⟩⟩, _⟩ := account
    · omega
    · rw [bytes, none, List.take_zero]
  cut := by
    intro ret here
    have account := invariant.accounts
    rw [here] at account
    exact account.2
  chunk := by
    intro off tmp here
    have account := invariant.accounts
    rw [here] at account
    rw [account.2.2, List.length_take]
    exact min_le_left _ _

end Call

/-- Whatever happens to the ring between the steps of the call, its account is exact. -/
theorem uacWrite_exact (data ring : List Byte) (actions : List WriteAction) :
    Always (traced (writeStep data)) (WriteExact data) (.start ring, []) actions :=
  always_of_meets (fun _ _ _ invariant _ taken => writeStep_invariant invariant taken)
    (fun _ invariant => writeExact_of_invariant invariant)
    ⟨fun _ member => absurd member List.not_mem_nil, Nat.zero_le _, rfl⟩
    (meets_true _ actions)

/-! The same call among the readers and the packets of the driver. -/

def UacSys.bytes {Pid : Type} (sys : UacSys Pid) : List Byte := sys.ring.map Cell.value

def WritePoint.Matches (data : List Byte) : WritePoint → UacPoint → Prop
  | .copy off, .writing buf offset => buf = data ∧ offset = off
  | .wait off, .writeWait buf offset => buf = data ∧ offset = off
  | .returned ret, .returned value given => value = ret ∧ given = []
  | _, _ => False

section Driver

variable {Pid : Type} [DecidableEq Pid] {sys next : UacSys Pid} {pid : Pid} {data : List Byte}
  {call : WriteCall}

@[simp] theorem setPoint_points (sys : UacSys Pid) (pid : Pid) (point : UacPoint) :
    (sys.setPoint pid point).points pid = point := by
  simp only [UacSys.setPoint, Function.update_self]

theorem writtenCells_bytes (position : Nat) (data : List Byte) :
    (writtenCells position data).map Cell.value = data := by
  rw [writtenCells, List.map_map]
  exact List.zipIdx_map_fst position data

omit [DecidableEq Pid] in
@[simp] theorem bytes_uacAccept (sys : UacSys Pid) (pid : Pid) (data : List Byte) :
    (uacAccept sys pid data).bytes = sys.bytes ++ data := by
  simp only [UacSys.bytes, uacAccept, List.map_append, writtenCells_bytes]

theorem insert_simulated {off chunk : Nat} (room : off < data.length)
    (here : call = ⟨.copy off, sys.bytes⟩)
    (chunkEq : min ((data.drop off).take BUF_SIZE).length (kfifoAvail sys.ring) = chunk)
    (taken : (if chunk = 0 then some (sys.setPoint pid (.writeWait data off))
      else some ((uacAccept sys pid (((data.drop off).take BUF_SIZE).take chunk)).setPoint pid
        (.writing data (off + chunk)))) = some next) :
    ∃ actions after, run (writeStep data) call actions = some after ∧ after.ring = next.bytes ∧
      after.point.Matches data (next.points pid) := by
  have copied : writeStep data call (.copy false) = some
      ⟨.insert off ((data.drop off).take BUF_SIZE), sys.bytes⟩ := by
    simp only [here, writeStep, room, ↓reduceIte, Bool.false_eq_true, take_chunk]
  have inserted : writeStep data ⟨.insert off ((data.drop off).take BUF_SIZE), sys.bytes⟩ .insert =
      some ⟨if chunk = 0 then .wait off else .copy (off + chunk),
        sys.bytes ++ ((data.drop off).take BUF_SIZE).take chunk⟩ := by
    have same : min ((data.drop off).take BUF_SIZE).length (AUDIO_RING_SIZE - sys.bytes.length) =
        chunk := by
      rw [UacSys.bytes, List.length_map]
      exact chunkEq
    simp only [writeStep, same]
  refine ⟨[.copy false, .insert], _, run_cons_some copied (run_cons_some inserted rfl), ?_⟩
  by_cases none : chunk = 0
  · rw [if_pos none] at taken
    rw [← Option.some.inj taken, none]
    refine ⟨List.append_nil _, ?_⟩
    simp only [↓reduceIte, setPoint_points]
    exact ⟨rfl, rfl⟩
  · rw [if_neg none] at taken
    rw [← Option.some.inj taken]
    refine ⟨(bytes_uacAccept sys pid _).symm, ?_⟩
    simp only [none, ↓reduceIte, setPoint_points]
    exact ⟨rfl, rfl⟩

/-- A step of a writer in the driver is one or two steps of the call. -/
theorem uacProceed_write {interrupted fault : Bool} (ring : call.ring = sys.bytes)
    (here : call.point.Matches data (sys.points pid))
    (taken : uacProceed sys pid interrupted fault (sys.points pid) = some next) :
    ∃ actions after, run (writeStep data) call actions = some after ∧ after.ring = next.bytes ∧
      after.point.Matches data (next.points pid) := by
  obtain ⟨point, callRing⟩ := call
  simp only at ring
  subst ring
  generalize sys.points pid = driverPoint at here taken
  cases point with
  | copy off =>
      cases driverPoint with
      | writing buf offset =>
          obtain ⟨rfl, rfl⟩ := here
          simp only [uacProceed] at taken
          split at taken
          · rename_i whole
            rw [← Option.some.inj taken]
            refine ⟨[.copy false], ⟨.returned offset, sys.bytes⟩, ?_, rfl, ?_⟩
            · simp [run, writeStep, whole]
            · simp [WritePoint.Matches]
          · rename_i more
            have room : offset < buf.length := by omega
            split at taken
            · rename_i faults
              rw [← Option.some.inj taken]
              refine ⟨[.copy true], ⟨.returned (if offset = 0 then -EFAULT else offset),
                sys.bytes⟩, ?_, rfl, ?_⟩
              · simp [run, writeStep, room]
              · simp [WritePoint.Matches]
            split at taken
            · contradiction
            exact insert_simulated room rfl rfl taken
      | _ => contradiction
  | wait off =>
      cases driverPoint with
      | writeWait buf offset =>
          obtain ⟨rfl, rfl⟩ := here
          have length : sys.bytes.length = sys.ring.length := List.length_map _
          simp only [uacProceed, kfifoAvail, ← length] at taken
          split at taken
          · rename_i room
            rw [← Option.some.inj taken]
            refine ⟨[.wait false], ⟨.copy offset, sys.bytes⟩, ?_, rfl, ?_⟩
            · simp [run, writeStep, room]
            · simp [WritePoint.Matches]
          · rename_i full
            split at taken
            · rw [← Option.some.inj taken]
              refine ⟨[.wait true], ⟨.returned (if offset = 0 then -ERESTARTSYS else offset),
                sys.bytes⟩, ?_, rfl, ?_⟩
              · simp [run, writeStep, full]
              · simp [WritePoint.Matches]
            · contradiction
      | _ => contradiction
  | insert off tmp => cases driverPoint <;> contradiction
  | returned ret =>
      cases driverPoint with
      | returned value given => simp [uacProceed] at taken
      | _ => contradiction

end Driver

end Ldd3.Uac
