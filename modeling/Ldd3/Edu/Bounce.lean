import Mathlib.Tactic
import Ldd3.Lib.StepMachine
import Ldd3.Edu.Core

/-!
`edu_write` and `edu_read` through the one `dma_buf`: the copies to and from user memory
are made outside `xfer_lock`, which covers only the DMA. The abstract device buffer is
the replay of the writes in the order of their DMAs.
-/

namespace Ldd3.Edu

/-- `dma_buf` on the bus, below `DMA_BIT_MASK(28)`. -/
structure DmaBuf where
  handle : Nat
  masked : handle + DMA_BUF_SIZE ≤ 268435456

/-- A call of `edu_write` or `edu_read`. A write knows its caller's data to the end, a read the
writes whose DMA came before its own, and at its end the bytes it gave. -/
inductive Call
  | idle
  | writing (data : List Byte)
  | copied (data : List Byte)
  | wrote (data : List Byte) (ret : Int)
  | reading (count : Nat)
  | loaded (count : Nat) (seen : List (List Byte))
  | gave (ret : Int) (seen : List (List Byte)) (given : List Byte)
  | failed (ret : Int)
  deriving DecidableEq, Repr

def clamped (count : Nat) : Nat := min count DMA_BUF_SIZE

/-- `history` has each write at its DMA, and `reported` for each process the first `ret` bytes of
the data of each of its calls of `edu_write` that returned `ret`. -/
structure BounceSys (Pid : Type) where
  memory : Memory
  calls : Pid → Call
  history : List (Pid × List Byte)
  reported : Pid → List (List Byte)

def BounceSys.opened (Pid : Type) (memory : Memory) : BounceSys Pid :=
  { memory := memory, calls := fun _ => .idle, history := [], reported := fun _ => [] }

def BounceSys.writes {Pid : Type} (sys : BounceSys Pid) : List (List Byte) :=
  sys.history.map Prod.snd

/-- `refuse` is a call that fails between its copies: the device does not resume, or
`edu_dma_transfers` returns before its DMA. -/
inductive BounceAction (Pid : Type)
  | write (pid : Pid) (data : List Byte)
  | read (pid : Pid) (count : Nat)
  | proceed (pid : Pid)
  | refuse (pid : Pid) (ret : Int)

def Call.isOver : Call → Bool
  | .idle | .wrote _ _ | .gave _ _ _ | .failed _ => true
  | _ => false

def Call.mayFail : Call → Bool
  | .copied _ | .reading _ => true
  | _ => false

def bytesOf (data : List Byte) : Nat → Byte := fun index => data.getD index 0

def writeRequest (buf : DmaBuf) (data : List Byte) : DmaRequest :=
  ⟨buf.handle, EDU_DMA_DIR_RAM_TO_DEV, clamped data.length⟩

def readRequest (buf : DmaBuf) (count : Nat) : DmaRequest :=
  ⟨buf.handle, EDU_DMA_DIR_DEV_TO_RAM, clamped count⟩

def bufBytes (buf : DmaBuf) (memory : Memory) (count : Nat) : List Byte :=
  (List.range count).map fun index => memory.ram (buf.handle + index)

section Machine

variable {Pid : Type} [DecidableEq Pid] (interruptsEnabled : Bool) (buf : DmaBuf)

def Call.memory (memory : Memory) : Call → Memory
  | .writing data =>
      { memory with
        ram := copyBytes memory.ram buf.handle (bytesOf data) 0 (clamped data.length) }
  | .copied data => (eduDmaTransfers interruptsEnabled memory (writeRequest buf data)).2
  | .reading count => (eduDmaTransfers interruptsEnabled memory (readRequest buf count)).2
  | _ => memory

def BounceSys.setCall (sys : BounceSys Pid) (pid : Pid) (call : Call) : BounceSys Pid :=
  { sys with calls := Function.update sys.calls pid call }

def BounceSys.writesOf (sys : BounceSys Pid) (pid : Pid) : List (List Byte) :=
  (sys.history.filter fun entry => entry.1 = pid).map Prod.snd

/-- A call of `edu_write` that has come to its end reports its first `ret` bytes. -/
def BounceSys.recordReturn (sys : BounceSys Pid) (pid : Pid) : Call → BounceSys Pid
  | .wrote data ret =>
      { sys with
        reported := Function.update sys.reported pid (sys.reported pid ++ [data.take ret.toNat]) }
  | _ => sys

def bounceProceed (sys : BounceSys Pid) (pid : Pid) (call : Call) : Option (BounceSys Pid) :=
  let memory := call.memory interruptsEnabled buf sys.memory
  match call with
  | .writing data => some ({ sys with memory := memory }.setCall pid (.copied data))
  | .copied data =>
      let moved :=
        { sys with memory := memory, history := sys.history ++ [(pid, data.take DMA_BUF_SIZE)] }
      some (moved.setCall pid (.wrote data (clamped data.length)))
  | .reading count =>
      some ({ sys with memory := memory }.setCall pid (.loaded count sys.writes))
  | .loaded count seen =>
      some (sys.setCall pid (.gave (clamped count) seen (bufBytes buf sys.memory (clamped count))))
  | _ => none

def bounceStep (sys : BounceSys Pid) : BounceAction Pid → Option (BounceSys Pid)
  | .write pid data =>
      if (sys.calls pid).isOver then some (sys.setCall pid (.writing data)) else none
  | .read pid count =>
      if (sys.calls pid).isOver then some (sys.setCall pid (.reading count)) else none
  | .proceed pid =>
      (bounceProceed interruptsEnabled buf sys pid (sys.calls pid)).map fun next =>
        next.recordReturn pid (next.calls pid)
  | .refuse pid ret =>
      if (sys.calls pid).mayFail ∧ ret < 0 then some (sys.setCall pid (.failed ret)) else none

/-- How many bytes at the front of `dma_buf` a call has put there and still needs. -/
def Call.needs : Call → Nat
  | .copied data => clamped data.length
  | .loaded count _ => clamped count
  | _ => 0

/-- A step leaves the bytes in `dma_buf` that the other calls still need as they are. -/
def Undisturbed (sys : BounceSys Pid) : BounceAction Pid → Prop
  | .proceed pid =>
      ∀ other, other ≠ pid → ∀ index < (sys.calls other).needs,
        ((sys.calls pid).memory interruptsEnabled buf sys.memory).ram (buf.handle + index) =
          sys.memory.ram (buf.handle + index)
  | _ => True

instance [Fintype Pid] (sys : BounceSys Pid) (action : BounceAction Pid) :
    Decidable (Undisturbed interruptsEnabled buf sys action) := by
  cases action <;> simp only [Undisturbed] <;> infer_instance

/-- The device buffer after the writes, in order, each of the first bytes of it. -/
def replay (first : Nat → Byte) (history : List (List Byte)) : Nat → Byte :=
  history.foldl (fun dev data => copyBytes dev 0 (bytesOf data) 0 data.length) first

/-- The device buffer is what the writes so far make of it; each call of `edu_write` that returned
`ret` is one of them, with the first `ret` bytes of its own caller; and every read gave the front
of the buffer as its own DMA found it, after the writes before. -/
structure Linear (first : Nat → Byte) (sys : BounceSys Pid) : Prop where
  device : sys.memory.dev = replay first sys.writes
  reported : ∀ pid, sys.writesOf pid = sys.reported pid
  wrote : ∀ pid data ret, sys.calls pid = .wrote data ret →
    (sys.writesOf pid).getLast? = some (data.take ret.toNat)
  gave : ∀ pid ret seen given, sys.calls pid = .gave ret seen given →
    seen <+: sys.writes ∧ given = (List.range ret.toNat).map (replay first seen)

variable {interruptsEnabled} {buf}

theorem DmaBuf.handle_lt (buf : DmaBuf) : buf.handle < 4294967296 := by
  have masked := buf.masked
  omega

theorem clamped_le (count : Nat) : clamped count ≤ DMA_BUF_SIZE := Nat.min_le_right _ _

theorem copied_memory (memory : Memory) (data : List Byte) :
    (Call.copied data).memory interruptsEnabled buf memory =
      { memory with dev := copyBytes memory.dev 0 memory.ram buf.handle (clamped data.length) } := by
  simp only [Call.memory, writeRequest, eduDmaTransfers_toDev interruptsEnabled memory (clamped_le _)
    buf.handle_lt]

theorem reading_memory (memory : Memory) (count : Nat) :
    (Call.reading count).memory interruptsEnabled buf memory =
      { memory with ram := copyBytes memory.ram buf.handle memory.dev 0 (clamped count) } := by
  simp only [Call.memory, readRequest, eduDmaTransfers_toRam interruptsEnabled memory (clamped_le _)
    buf.handle_lt]

theorem bytesOf_take (data : List Byte) {count index : Nat} (inside : index < count) :
    bytesOf (data.take count) index = bytesOf data index := by
  simp only [bytesOf, List.getD_eq_getElem?_getD, List.getElem?_take_of_lt inside]

theorem replay_append (first : Nat → Byte) (history : List (List Byte)) (data : List Byte) :
    replay first (history ++ [data.take DMA_BUF_SIZE]) =
      copyBytes (replay first history) 0 (bytesOf data) 0 (clamped data.length) := by
  simp only [replay, List.foldl_append, List.foldl_cons, List.foldl_nil, List.length_take]
  rw [Nat.min_comm]
  apply copyBytes_congr
  intro index inside
  rw [Nat.zero_add]
  exact bytesOf_take data (Nat.lt_of_lt_of_le inside (Nat.min_le_right _ _))

def Holds (buf : DmaBuf) (first : Nat → Byte) (memory : Memory) : Call → Prop
  | .copied data => ∀ index < clamped data.length, memory.ram (buf.handle + index) = bytesOf data index
  | .loaded count seen =>
      ∀ index < clamped count, memory.ram (buf.handle + index) = replay first seen index
  | .gave ret seen given => given = (List.range ret.toNat).map (replay first seen)
  | _ => True

def Call.written : Call → Option (List Byte)
  | .wrote data ret => some (data.take ret.toNat)
  | _ => none

def Call.seen : Call → List (List Byte)
  | .loaded _ seen | .gave _ seen _ => seen
  | _ => []

structure Bounced (buf : DmaBuf) (first : Nat → Byte) (sys : BounceSys Pid) : Prop where
  device : sys.memory.dev = replay first sys.writes
  reported : ∀ pid, sys.writesOf pid = sys.reported pid
  wrote : ∀ pid bytes, (sys.calls pid).written = some bytes →
    (sys.writesOf pid).getLast? = some bytes
  held : ∀ pid, Holds buf first sys.memory (sys.calls pid)
  before : ∀ pid, (sys.calls pid).seen <+: sys.writes

theorem Bounced.linear {first : Nat → Byte} {sys : BounceSys Pid} (bounced : Bounced buf first sys) :
    Linear first sys := by
  refine ⟨bounced.device, bounced.reported, ?_, ?_⟩
  · intro pid data ret here
    exact bounced.wrote pid _ (congrArg Call.written here)
  · intro pid ret seen given here
    have held := bounced.held pid
    have before := bounced.before pid
    rw [here] at held before
    exact ⟨before, held⟩

theorem Holds.frame {first : Nat → Byte} {before after : Memory} {call : Call}
    (holds : Holds buf first before call)
    (same : ∀ index < call.needs, after.ram (buf.handle + index) = before.ram (buf.handle + index)) :
    Holds buf first after call := by
  cases call with
  | copied data =>
      intro index inside
      rw [same index inside]
      exact holds index inside
  | loaded count seen =>
      intro index inside
      rw [same index inside]
      exact holds index inside
  | gave ret seen given => exact holds
  | _ => trivial

theorem Bounced.setCall {first : Nat → Byte} {sys : BounceSys Pid} {memory : Memory} {pid : Pid}
    {call : Call} (bounced : Bounced buf first sys) (device : memory.dev = sys.memory.dev)
    (others : ∀ other, other ≠ pid → ∀ index < (sys.calls other).needs,
      memory.ram (buf.handle + index) = sys.memory.ram (buf.handle + index))
    (goesOn : call.written = none) (own : Holds buf first memory call)
    (before : call.seen <+: sys.writes) :
    Bounced buf first ({ sys with memory := memory }.setCall pid call) := by
  refine ⟨device.trans bounced.device, bounced.reported, ?_, ?_, ?_⟩
  · intro other bytes
    simp only [BounceSys.setCall, Function.update_apply]
    split
    · rw [goesOn]
      exact fun none => absurd none (by simp)
    · exact bounced.wrote other bytes
  · intro other
    simp only [BounceSys.setCall, Function.update_apply]
    split
    · exact own
    · rename_i different
      exact (bounced.held other).frame (others other different)
  · intro other
    simp only [BounceSys.setCall, Function.update_apply]
    split
    · exact before
    · exact bounced.before other

theorem writesOf_snoc {sys next : BounceSys Pid} {pid : Pid} {data : List Byte}
    (grown : next.history = sys.history ++ [(pid, data)]) (other : Pid) :
    next.writesOf other = sys.writesOf other ++ if other = pid then [data] else [] := by
  rw [BounceSys.writesOf, grown, List.filter_append, List.map_append, BounceSys.writesOf]
  by_cases here : other = pid
  · simp [here]
  · simp [here, Ne.symm here]

theorem take_clamped (data : List Byte) :
    data.take (clamped data.length : Int).toNat = data.take DMA_BUF_SIZE := by
  rw [Int.toNat_natCast, clamped, Nat.min_comm, List.take_eq_take_iff]
  omega

theorem Bounced.write {first : Nat → Byte} {sys : BounceSys Pid} {pid : Pid} {data : List Byte}
    (bounced : Bounced buf first sys)
    (held : ∀ index < clamped data.length, sys.memory.ram (buf.handle + index) = bytesOf data index) :
    Bounced buf first
      (({ sys with
          memory := (Call.copied data).memory interruptsEnabled buf sys.memory
          history := sys.history ++ [(pid, data.take DMA_BUF_SIZE)] }.setCall pid
            (.wrote data (clamped data.length))).recordReturn pid
              (.wrote data (clamped data.length))) := by
  rw [copied_memory]
  refine ⟨?_, ?_, ?_, ?_, ?_⟩
  · simp only [BounceSys.recordReturn, BounceSys.setCall, BounceSys.writes, List.map_append,
      List.map_cons, List.map_nil]
    rw [replay_append, ← BounceSys.writes, ← bounced.device]
    apply copyBytes_congr
    intro index inside
    rw [held index inside, Nat.zero_add]
  · intro other
    rw [writesOf_snoc rfl, bounced.reported other]
    simp only [BounceSys.recordReturn, BounceSys.setCall, Function.update_apply, take_clamped]
    split
    · rename_i same
      rw [same]
    · rw [List.append_nil]
  · intro other bytes
    rw [writesOf_snoc rfl]
    simp only [BounceSys.recordReturn, BounceSys.setCall, Function.update_apply]
    split
    · rw [List.getLast?_concat, Call.written, take_clamped]
      exact id
    · rw [List.append_nil]
      exact bounced.wrote other bytes
  · intro other
    simp only [BounceSys.recordReturn, BounceSys.setCall, Function.update_apply]
    split
    · trivial
    · exact (bounced.held other).frame fun _ _ => rfl
  · intro other
    have grown : sys.writes <+:
        (sys.history ++ [(pid, data.take DMA_BUF_SIZE)]).map Prod.snd := by
      rw [List.map_append]
      exact List.prefix_append _ _
    simp only [BounceSys.recordReturn, BounceSys.setCall, BounceSys.writes, Function.update_apply]
    split
    · exact List.nil_prefix
    · exact (bounced.before other).trans grown

section Record

variable (sys : BounceSys Pid) (pid : Pid) (call : Call)

@[simp] theorem recordReturn_memory : (sys.recordReturn pid call).memory = sys.memory := by
  cases call <;> rfl

@[simp] theorem recordReturn_calls : (sys.recordReturn pid call).calls = sys.calls := by
  cases call <;> rfl

@[simp] theorem recordReturn_writes : (sys.recordReturn pid call).writes = sys.writes := by
  cases call <;> rfl

end Record

theorem setCall_recordReturn {sys : BounceSys Pid} {pid : Pid} {call : Call}
    (goesOn : call.written = none) :
    (sys.setCall pid call).recordReturn pid ((sys.setCall pid call).calls pid) =
      sys.setCall pid call := by
  simp only [BounceSys.setCall, Function.update_self]
  cases call with
  | wrote data ret => simp [Call.written] at goesOn
  | _ => rfl

theorem bounced_proceed {first : Nat → Byte} {sys next : BounceSys Pid} {pid : Pid}
    (bounced : Bounced buf first sys)
    (undisturbed : Undisturbed interruptsEnabled buf sys (.proceed pid))
    (taken : bounceProceed interruptsEnabled buf sys pid (sys.calls pid) = some next) :
    Bounced buf first (next.recordReturn pid (next.calls pid)) := by
  have held := bounced.held pid
  simp only [Undisturbed] at undisturbed
  cases here : sys.calls pid with
  | writing data =>
      rw [here] at taken undisturbed
      cases taken
      rw [setCall_recordReturn rfl]
      refine bounced.setCall rfl undisturbed rfl ?_ List.nil_prefix
      intro index inside
      simp only [Call.memory]
      rw [copyBytes_inside _ _ _ inside, Nat.zero_add]
  | copied data =>
      rw [here] at taken held
      cases taken
      simp only [BounceSys.setCall, Function.update_self]
      exact bounced.write held
  | reading count =>
      rw [here] at taken undisturbed
      cases taken
      rw [setCall_recordReturn rfl]
      refine bounced.setCall ?_ undisturbed rfl ?_ (List.prefix_refl _)
      · rw [reading_memory]
      · intro index inside
        rw [reading_memory, ← bounced.device]
        simp only
        rw [copyBytes_inside _ _ _ inside, Nat.zero_add]
  | loaded count seen =>
      have before := bounced.before pid
      rw [here] at taken held before
      cases taken
      rw [setCall_recordReturn rfl]
      refine bounced.setCall rfl (fun _ _ _ _ => rfl) rfl ?_ before
      simp only [Holds, bufBytes, Int.toNat_natCast]
      apply List.map_congr_left
      intro index inside
      exact held index (List.mem_range.mp inside)
  | _ => simp [here, bounceProceed] at taken

theorem bounced_step {first : Nat → Byte} {sys next : BounceSys Pid} {action : BounceAction Pid}
    (bounced : Bounced buf first sys) (undisturbed : Undisturbed interruptsEnabled buf sys action)
    (taken : bounceStep interruptsEnabled buf sys action = some next) : Bounced buf first next := by
  have unchanged {pid : Pid} {call : Call} (goesOn : call.written = none)
      (own : Holds buf first sys.memory call) (before : call.seen <+: sys.writes) :
      Bounced buf first (sys.setCall pid call) :=
    bounced.setCall rfl (fun _ _ _ _ => rfl) goesOn own before
  cases action with
  | proceed pid =>
      obtain ⟨after, proceeded, rfl⟩ := Option.map_eq_some_iff.mp taken
      exact bounced_proceed bounced undisturbed proceeded
  | write pid data | read pid count | refuse pid ret =>
      simp only [bounceStep] at taken
      split at taken
      · cases taken
        exact unchanged rfl trivial List.nil_prefix
      · contradiction

theorem disturbing_step {first : Nat → Byte} {sys next : BounceSys Pid} {pid other : Pid}
    {index : Nat} (bounced : Bounced buf first sys) (different : other ≠ pid)
    (taken : bounceStep interruptsEnabled buf sys (.proceed pid) = some next)
    (changed : ((sys.calls pid).memory interruptsEnabled buf sys.memory).ram (buf.handle + index) ≠
      sys.memory.ram (buf.handle + index)) :
    next.memory.dev = replay first next.writes ∧ next.calls other = sys.calls other ∧
      next.memory.ram (buf.handle + index) ≠ sys.memory.ram (buf.handle + index) := by
  obtain ⟨after, proceeded, rfl⟩ := Option.map_eq_some_iff.mp taken
  rw [recordReturn_memory, recordReturn_writes, recordReturn_calls]
  cases here : sys.calls pid with
  | writing data =>
      rw [here] at proceeded changed
      cases proceeded
      exact ⟨bounced.device, Function.update_of_ne different _ _, changed⟩
  | reading count =>
      rw [here] at proceeded changed
      cases proceeded
      refine ⟨?_, Function.update_of_ne different _ _, changed⟩
      simp only [BounceSys.setCall]
      rw [reading_memory]
      exact bounced.device
  | copied data =>
      rw [here, copied_memory] at changed
      exact absurd rfl changed
  | _ =>
      rw [here] at changed
      exact absurd rfl changed

/-- Where a step changes what another call still needs, that call's next step is not
linearizable. -/
theorem disturbed_breaks {first : Nat → Byte} {sys next : BounceSys Pid} {pid other : Pid}
    {index : Nat} (bounced : Bounced buf first sys) (different : other ≠ pid)
    (taken : bounceStep interruptsEnabled buf sys (.proceed pid) = some next)
    (needed : index < (sys.calls other).needs)
    (changed : ((sys.calls pid).memory interruptsEnabled buf sys.memory).ram (buf.handle + index) ≠
      sys.memory.ram (buf.handle + index)) :
    ∃ later, bounceStep interruptsEnabled buf next (.proceed other) = some later ∧
      ¬ Linear first later := by
  obtain ⟨device, same, spoilt⟩ := disturbing_step bounced different taken changed
  have held := bounced.held other
  cases here : sys.calls other with
  | copied data =>
      rw [here] at held same needed
      refine ⟨_, by simp only [bounceStep, same, bounceProceed]; rfl, ?_⟩
      intro linear
      have inside : index < clamped data.length := needed
      have moved := congrFun linear.device (0 + index)
      rw [recordReturn_memory, recordReturn_writes] at moved
      simp only [BounceSys.setCall, BounceSys.writes, List.map_append, List.map_cons,
        List.map_nil] at moved
      rw [replay_append, copied_memory, ← BounceSys.writes, ← device] at moved
      simp only at moved
      rw [copyBytes_inside _ _ _ inside, copyBytes_inside _ _ _ inside, Nat.zero_add,
        ← held index inside] at moved
      exact spoilt moved
  | loaded count seen =>
      rw [here] at held same needed
      have later : bounceStep interruptsEnabled buf next (.proceed other) = some (next.setCall other
          (.gave (clamped count) seen (bufBytes buf next.memory (clamped count)))) := by
        simp only [bounceStep, same, bounceProceed, Option.map_some]
        rw [setCall_recordReturn rfl]
      refine ⟨_, later, ?_⟩
      intro linear
      have given := (linear.gave other _ _ _ (Function.update_self _ _ _)).2
      simp only [bufBytes, Int.toNat_natCast, List.map_inj_left, List.mem_range] at given
      exact spoilt ((given index needed).trans (held index needed).symm)
  | _ =>
      rw [here] at needed
      exact absurd needed (Nat.not_lt_zero index)

theorem bounced_opened (memory : Memory) :
    Bounced buf memory.dev (BounceSys.opened Pid memory) where
  device := rfl
  reported := fun _ => rfl
  wrote := fun _ _ none => absurd none (by simp [BounceSys.opened, Call.written])
  held := fun _ => trivial
  before := fun _ => List.nil_prefix

/-- `edu_write` and `edu_read` are linearizable, each at its DMA, in every run in which no
step overwrites in `dma_buf` what another call has put there and still needs. -/
theorem eduReadWrite_linearizable (interruptsEnabled : Bool) (buf : DmaBuf) (memory : Memory)
    (actions : List (BounceAction Pid))
    (undisturbed : StepMachine.Meets (bounceStep interruptsEnabled buf)
      (Undisturbed interruptsEnabled buf) (.opened Pid memory) actions) :
    StepMachine.Always (bounceStep interruptsEnabled buf) (Linear memory.dev) (.opened Pid memory)
      actions := by
  have preserved : ∀ (sys : BounceSys Pid) action next, Bounced buf memory.dev sys →
      Undisturbed interruptsEnabled buf sys action →
      bounceStep interruptsEnabled buf sys action = some next → Bounced buf memory.dev next :=
    fun _ _ _ bounced undisturbed taken => bounced_step bounced undisturbed taken
  exact StepMachine.always_of_meets preserved (fun _ bounced => bounced.linear)
    (bounced_opened memory) undisturbed

end Machine

def pageAligned : DmaBuf := { handle := 8192, masked := by decide }

def writesThenRead : List (BounceAction Bool) :=
  [.write true [1, 2], .proceed true, .proceed true, .write false [3], .proceed false, .proceed false,
    .read true 2, .proceed true, .write false [3], .proceed false, .proceed true, .proceed false]

theorem eduReadWrite_linearizable_writesThenRead :
    StepMachine.Always (bounceStep true pageAligned) (Linear fun _ => 0)
      (.opened Bool ⟨fun _ => 0, fun _ => 0⟩) writesThenRead :=
  eduReadWrite_linearizable true pageAligned ⟨fun _ => 0, fun _ => 0⟩ writesThenRead
    (by decide +kernel)

/-- Both writers copy in before the first DMA. -/
def twoWriters : List (BounceAction Bool) :=
  [.write true [1], .write false [2], .proceed true, .proceed false, .proceed true]

/-- A writer copies in between the DMA of a read and its copy to the user. -/
def writerBesideReader : List (BounceAction Bool) :=
  [.read true 1, .proceed true, .write false [2], .proceed false, .proceed true]

theorem twoWriters_device :
    (StepMachine.run (bounceStep true pageAligned) (.opened Bool ⟨fun _ => 0, fun _ => 0⟩)
      twoWriters).map (fun sys => (sys.memory.dev 0, sys.writes)) = some (2, [[1]]) := by
  decide +kernel

theorem writerBesideReader_gave :
    (StepMachine.run (bounceStep true pageAligned) (.opened Bool ⟨fun _ => 0, fun _ => 0⟩)
      writerBesideReader).map (fun sys => sys.calls true) = some (.gave 1 [] [2]) := by
  decide +kernel

theorem eduReadWrite_not_linearizable :
    ¬ StepMachine.Always (bounceStep true pageAligned) (Linear fun _ => 0)
        (.opened Bool ⟨fun _ => 0, fun _ => 0⟩) twoWriters ∧
      ¬ StepMachine.Always (bounceStep true pageAligned) (Linear fun _ => 0)
        (.opened Bool ⟨fun _ => 0, fun _ => 0⟩) writerBesideReader := by
  constructor
  · intro always
    obtain ⟨sys, linear, both⟩ := always.observed twoWriters_device
    rw [Prod.mk.injEq] at both
    have device := congrFun linear.device 0
    rw [both.1, both.2] at device
    contradiction
  · intro always
    obtain ⟨sys, linear, gave⟩ := always.observed writerBesideReader_gave
    have given := (linear.gave true 1 [] [2] gave).2
    contradiction

end Ldd3.Edu
