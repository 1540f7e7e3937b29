import Mathlib.Tactic
import Ldd3.Lib.Linearize
import Ldd3.Scull.Geometry

/-!
The critical sections of the scull device statement by statement: `scull_read`, `scull_write` and
the reset of `scull_open`, each under `dev->sem`, against the calls as wholes. What a call loads
without the semaphore (`dev->quantum` and `dev->qset` before it, `scull_quantum` and `scull_qset`
in a reset) may be anything that an ioctl or a reset has put there in the meantime.
-/

namespace Ldd3.Scull

open Linearize (Method Ends Reaches Agrees)

inductive ScullOp
  | io (request : Request)
  | openWriteOnly
  deriving DecidableEq, Repr

/-- A call with its local copies of the geometry, and what a reset finds in the parameters. -/
structure ScullCall where
  env : Env
  quantum : Int
  qset : Int
  globals : Geometry
  op : ScullOp

inductive ScullResult
  | replied (fPos ret : Int) (out : List Byte)
  | opened (ret : Int)
  | oops (oops : Oops)
  deriving DecidableEq, Repr

structure Locals where
  env : Env
  quantum : Int
  qset : Int
  request : Request
  count : Nat
  pos : Position

inductive Stage
  | enter (call : ScullCall)
  | findItem (locals : Locals)
  | findNext (locals : Locals) (rounds index used : Nat)
  | found (locals : Locals) (index used : Nat)
  | quantum (locals : Locals) (index used : Nat)
  | copy (locals : Locals) (index : Nat)
  | advance (locals : Locals) (count : Nat)
  | walk (globals : Geometry) (next : Option Nat) (curr : Nat)
  | clearSize (globals : Geometry)
  | clearQuantum (globals : Geometry)
  | clearQset (globals : Geometry)
  | clearData

abbrev Stepped := ScullDev × (Stage ⊕ ScullResult)

def Locals.returns (locals : Locals) (dev : ScullDev) (ret : Int) (out : List Byte) : Stepped :=
  (dev, .inr (.replied locals.request.fPos ret out))

/-- `goto out` where a part of the list is missing: `ret` is as it was initialised. -/
def Locals.goOut (locals : Locals) (dev : ScullDev) : Stepped :=
  match locals.request with
  | .read _ _ => locals.returns dev 0 []
  | .write _ _ => locals.returns dev (-ENOMEM) []

def enterStep (dev : ScullDev) (call : ScullCall) (count : Nat) (request : Request) : Stepped :=
  match calculatePositions call.quantum call.qset request.fPos with
  | .error oops => (dev, .inr (.oops oops))
  | .ok pos => (dev, .inl (.findItem ⟨call.env, call.quantum, call.qset, request, count, pos⟩))

def findNextStep (dev : ScullDev) (locals : Locals) (rounds index used : Nat) : Stepped :=
  match rounds with
  | 0 => (dev, .inl (.found locals index used))
  | rounds + 1 =>
      if index + 1 < dev.data.length then (dev, .inl (.findNext locals rounds (index + 1) used))
      else if locals.env.alloc used then
        ({ dev with data := dev.data ++ [.empty] },
          .inl (.findNext locals rounds (index + 1) (used + 1)))
      else locals.goOut dev

def loadQuantum (dev : ScullDev) (index : Nat) (sPos : Int) : Except Oops (Option (List Byte)) :=
  match (dev.data.getD index .empty).data with
  | none => .error .outOfBounds
  | some array => entryAt array sPos

def setQuantum (dev : ScullDev) (index : Nat) (sPos : Int) (block : List Byte) : ScullDev :=
  match (dev.data.getD index .empty).data with
  | none => dev
  | some array =>
      { dev with data := dev.data.set index ⟨some (array.set sPos.toNat (some block))⟩ }

def foundStep (dev : ScullDev) (locals : Locals) (index used : Nat) : Stepped :=
  match locals.request with
  | .read _ _ =>
      match (dev.data.getD index .empty).data with
      | none => locals.goOut dev
      | some array =>
          match entryAt array locals.pos.sPos with
          | .error oops => (dev, .inr (.oops oops))
          | .ok none => locals.goOut dev
          | .ok (some _) => (dev, .inl (.copy locals index))
  | .write _ _ =>
      match (dev.data.getD index .empty).data with
      | some _ => (dev, .inl (.quantum locals index used))
      | none =>
          if locals.env.alloc used ∧ 0 ≤ locals.qset then
            ({ dev with
                data := dev.data.set index ⟨some (List.replicate locals.qset.toNat none)⟩ },
              .inl (.quantum locals index (used + 1)))
          else locals.goOut dev

def quantumStep (dev : ScullDev) (locals : Locals) (index used : Nat) : Stepped :=
  match loadQuantum dev index locals.pos.sPos with
  | .error oops => (dev, .inr (.oops oops))
  | .ok (some _) => (dev, .inl (.copy locals index))
  | .ok none =>
      match kmallocQuantum locals.quantum dev.quantum locals.env used with
      | .error oops => (dev, .inr (.oops oops))
      | .ok none => locals.goOut dev
      | .ok (some block) =>
          (setQuantum dev index locals.pos.sPos block, .inl (.copy locals index))

def copyStep (dev : ScullDev) (locals : Locals) (index : Nat) : Stepped :=
  match loadQuantum dev index locals.pos.sPos with
  | .error oops => (dev, .inr (.oops oops))
  | .ok none => (dev, .inr (.oops .outOfBounds))
  | .ok (some block) =>
      let count := limitToQuantum locals.quantum locals.pos.qPos locals.count
      if InBlock block locals.pos.qPos count then
        match locals.request with
        | .read _ fPos =>
            let bytes := Block.slice block locals.pos.qPos.toNat count
            if locals.env.faults count then
              locals.returns dev (-EFAULT) (bytes.take (locals.env.fault.getD 0))
            else (dev, .inr (.replied (CInt.int64 (fPos + count)) count bytes))
        | .write data _ =>
            let block := Block.overwrite block locals.pos.qPos.toNat
              (locals.env.copied (data.take count))
            let dev := setQuantum dev index locals.pos.sPos block
            if locals.env.faults count then locals.returns dev (-EFAULT) []
            else (dev, .inl (.advance locals count))
      else (dev, .inr (.oops .outOfBounds))

def walkStep (globals : Geometry) (dev : ScullDev) (next : Option Nat) (curr : Nat) : Stepped :=
  match dev.data[curr]? with
  | none => (dev, .inl (.clearSize globals))
  | some node =>
      match node.data with
      | some array =>
          if dev.qset ≤ array.length then (dev, .inl (.walk globals (some (curr + 1)) (curr + 1)))
          else (dev, .inr (.oops .outOfBounds))
      | none =>
          match next with
          | some stale => (dev, .inl (.walk globals next stale))
          | none => (dev, .inr (.oops .uninitialised))

def stageStep (dev : ScullDev) : Stage → Stepped
  | .enter call =>
      match call.op with
      | .openWriteOnly => (dev, .inl (.walk call.globals none 0))
      | .io (.read count fPos) =>
          if dev.size ≤ CInt.uint64 fPos then (dev, .inr (.replied fPos 0 []))
          else enterStep dev call (clipToSize dev.size fPos count) (.read count fPos)
      | .io (.write data fPos) => enterStep dev call data.length (.write data fPos)
  | .findItem locals =>
      match dev.data with
      | [] =>
          if locals.env.alloc 0 then
            ({ dev with data := [.empty] },
              .inl (.findNext locals (findRounds locals.pos.item) 0 1))
          else locals.goOut dev
      | _ :: _ => (dev, .inl (.findNext locals (findRounds locals.pos.item) 0 0))
  | .findNext locals rounds index used => findNextStep dev locals rounds index used
  | .found locals index used => foundStep dev locals index used
  | .quantum locals index used => quantumStep dev locals index used
  | .copy locals index => copyStep dev locals index
  | .advance locals count =>
      let fPos := CInt.int64 (locals.request.fPos + count)
      ({ dev with size := max dev.size (CInt.uint64 fPos) }, .inr (.replied fPos count []))
  | .walk globals next curr => walkStep globals dev next curr
  | .clearSize globals => ({ dev with size := 0 }, .inl (.clearQuantum globals))
  | .clearQuantum globals =>
      ({ dev with quantum := globals.quantum }, .inl (.clearQset globals))
  | .clearQset globals => ({ dev with qset := globals.qset }, .inl .clearData)
  | .clearData => ({ dev with data := [] }, .inr (.opened 0))

def ScullResult.unlocks : ScullResult → Bool
  | .replied _ _ _ | .opened _ => true
  | .oops _ => false

def ScullCall.interrupted (call : ScullCall) : Option ScullResult :=
  if call.env.interrupted then
    match call.op with
    | .io request => some (.replied request.fPos (-ERESTARTSYS) [])
    | .openWriteOnly => some (.opened (-ERESTARTSYS))
  else none

/-- A process that dies of an oops keeps `dev->sem`. -/
def scullMethod : Method ScullDev ScullCall Stage ScullResult where
  start := .enter
  step := stageStep
  unlocks := ScullResult.unlocks
  refused := ScullCall.interrupted

def wholeCall (dev : ScullDev) (call : ScullCall) : Option (ScullDev × ScullResult) :=
  match call.op with
  | .io request =>
      match runSection call.env ⟨call.quantum, call.qset, request⟩ dev with
      | .ok reply => some (reply.dev, .replied reply.fPos reply.ret reply.out)
      | .error oops => some (dev, .oops oops)
  | .openWriteOnly =>
      match scullDevReset (dev.data.length + 1) call.globals dev with
      | .returned after _ => some (after, .opened 0)
      | .oops oops => some (dev, .oops oops)
      | .running => none

/-! A read or a write from each stage on. -/

section Sections

variable {dev : ScullDev} {locals : Locals} {computed : Except Oops Reply} {index used : Nat}

def Concludes (computed : Except Oops Reply) (after : ScullDev) (result : ScullResult) : Prop :=
  match computed with
  | .ok reply => after = reply.dev ∧ result = .replied reply.fPos reply.ret reply.out
  | .error oops => result = .oops oops

def EndsAs (dev : ScullDev) (stage : Stage) (computed : Except Oops Reply) : Prop :=
  ∃ after result, Ends scullMethod dev stage after result ∧
    Concludes computed after result

theorem EndsAs.more {stage next : Stage} {middle : ScullDev}
    (rest : EndsAs middle next computed)
    (taken : stageStep dev stage = (middle, .inl next)) :
    EndsAs dev stage computed := by
  obtain ⟨after, result, ends, concludes⟩ := rest
  exact ⟨after, result, .more taken ends, concludes⟩

theorem EndsAs.last {stage : Stage} {after : ScullDev} {result : ScullResult}
    (taken : stageStep dev stage = (after, .inr result))
    (concludes : Concludes computed after result) : EndsAs dev stage computed :=
  ⟨after, result, .last taken, concludes⟩

theorem entryAt_set {array : PointerArray} {sPos : Int} {entry other : Option (List Byte)}
    (found : entryAt array sPos = .ok entry) :
    entryAt (array.set sPos.toNat other) sPos = .ok other := by
  have inside := (entryAt_inside found).1
  rw [entryAt] at found ⊢
  split at found
  · rename_i bounds
    rw [List.length_set, if_pos bounds]
    simp [List.getD, inside]
  · contradiction

theorem getD_set_self {nodes : List ScullQset} (inside : index < nodes.length)
    (node : ScullQset) : (nodes.set index node).getD index .empty = node := by
  simp [List.getD, inside]

theorem loadQuantum_eq {array : PointerArray} {sPos : Int}
    (present : (dev.data.getD index .empty).data = some array) :
    loadQuantum dev index sPos = entryAt array sPos := by
  rw [loadQuantum, present]

theorem setQuantum_eq {array : PointerArray} {sPos : Int} {block : List Byte}
    (present : (dev.data.getD index .empty).data = some array) :
    setQuantum dev index sPos block =
      { dev with data := dev.data.set index ⟨some (array.set sPos.toNat (some block))⟩ } := by
  rw [setQuantum, present]

theorem goOut_read {count : Nat} {fPos : Int} (reads : locals.request = .read count fPos) :
    locals.goOut dev = (dev, .inr (.replied fPos 0 [])) := by
  simp only [Locals.goOut, Locals.returns, reads, Request.fPos]

theorem goOut_write {data : List Byte} {fPos : Int} (writes : locals.request = .write data fPos) :
    locals.goOut dev = (dev, .inr (.replied fPos (-ENOMEM) [])) := by
  simp only [Locals.goOut, Locals.returns, writes, Request.fPos]

theorem copy_read_ends {count : Nat} {fPos : Int} {array : PointerArray} {block : List Byte}
    (reads : locals.request = .read count fPos)
    (present : (dev.data.getD index .empty).data = some array)
    (entry : entryAt array locals.pos.sPos = .ok (some block)) :
    EndsAs dev (.copy locals index)
      (let count := limitToQuantum locals.quantum locals.pos.qPos locals.count
        if InBlock block locals.pos.qPos count then
          let bytes := Block.slice block locals.pos.qPos.toNat count
          if locals.env.faults count then
            .ok ⟨dev, fPos, -EFAULT, bytes.take (locals.env.fault.getD 0)⟩
          else .ok ⟨dev, CInt.int64 (fPos + count), count, bytes⟩
        else .error .outOfBounds) := by
  have step : stageStep dev (.copy locals index) = copyStep dev locals index := rfl
  simp only [copyStep, loadQuantum_eq present, entry, reads] at step
  dsimp only
  split_ifs at step ⊢ with inBlock faults
  · rw [Locals.returns, reads] at step
    exact .last step ⟨rfl, rfl⟩
  · exact .last step ⟨rfl, rfl⟩
  · exact .last step rfl

theorem copy_write_ends {data : List Byte} {fPos : Int} {array : PointerArray} {block : List Byte}
    (writes : locals.request = .write data fPos) (whole : locals.count = data.length)
    (present : (dev.data.getD index .empty).data = some array)
    (entry : entryAt array locals.pos.sPos = .ok (some block)) :
    EndsAs dev (.copy locals index)
      (copyIntoQuantum locals.env locals.quantum dev data fPos locals.pos.qPos index array
        locals.pos.sPos.toNat block) := by
  have step : stageStep dev (.copy locals index) = copyStep dev locals index := rfl
  simp only [copyStep, loadQuantum_eq present, entry, writes, whole, setQuantum_eq present] at step
  simp only [copyIntoQuantum]
  split_ifs at step ⊢ with inBlock faults
  · rw [Locals.returns, writes] at step
    exact .last step ⟨rfl, rfl⟩
  · refine .more ?_ step
    refine .last rfl ?_
    rw [writes]
    exact ⟨rfl, rfl⟩
  · exact .last step rfl

theorem copy_stored_ends {data : List Byte} {fPos : Int} {array : PointerArray} {block : List Byte}
    (writes : locals.request = .write data fPos) (whole : locals.count = data.length)
    (inside : index < dev.data.length) (entry : entryAt array locals.pos.sPos = .ok none) :
    EndsAs
      { dev with
        data := dev.data.set index ⟨some (array.set locals.pos.sPos.toNat (some block))⟩ }
      (.copy locals index)
      (copyIntoQuantum locals.env locals.quantum dev data fPos locals.pos.qPos index array
        locals.pos.sPos.toNat block) := by
  let stored : ScullDev :=
    { dev with
      data := dev.data.set index ⟨some (array.set locals.pos.sPos.toNat (some block))⟩ }
  have present : (stored.data.getD index .empty).data =
      some (array.set locals.pos.sPos.toNat (some block)) := by
    rw [getD_set_self inside]
  have rest : EndsAs stored (.copy locals index) _ :=
    copy_write_ends writes whole present (entryAt_set entry)
  simpa only [copyIntoQuantum, stored, List.set_set] using rest

theorem quantum_ends {data : List Byte} {fPos : Int} {array : PointerArray}
    (writes : locals.request = .write data fPos) (whole : locals.count = data.length)
    (inside : index < dev.data.length)
    (present : (dev.data.getD index .empty).data = some array) :
    EndsAs dev (.quantum locals index used)
      (scullWriteWith.withArray (kmallocQuantum locals.quantum dev.quantum) locals.env
        locals.quantum data fPos dev index array used locals.pos) := by
  have step : stageStep dev (.quantum locals index used) =
    quantumStep dev locals index used := rfl
  rw [quantumStep, loadQuantum_eq present] at step
  rw [scullWriteWith.withArray]
  cases entry : entryAt array locals.pos.sPos with
  | error oops =>
      rw [entry] at step
      exact .last step rfl
  | ok found =>
      rw [entry] at step
      rw [ok_bind]
      cases found with
      | some block => exact .more (copy_write_ends writes whole present entry) step
      | none =>
          dsimp only at step ⊢
          cases obtained : kmallocQuantum locals.quantum dev.quantum locals.env used with
          | error oops =>
              rw [obtained] at step
              exact .last step rfl
          | ok block =>
              rw [obtained] at step
              rw [ok_bind]
              cases block with
              | none =>
                  exact .last (step.trans (goOut_write writes)) ⟨rfl, rfl⟩
              | some block =>
                  dsimp only at step ⊢
                  rw [setQuantum_eq present] at step
                  exact .more (copy_stored_ends writes whole inside entry) step

def readRest (locals : Locals) (dev : ScullDev) (index : Nat) (fPos : Int) : Except Oops Reply :=
  match (dev.data.getD index .empty).data with
  | none => .ok ⟨dev, fPos, 0, []⟩
  | some array => do
      match ← entryAt array locals.pos.sPos with
      | none => .ok ⟨dev, fPos, 0, []⟩
      | some block =>
          let count := limitToQuantum locals.quantum locals.pos.qPos locals.count
          if InBlock block locals.pos.qPos count then
            let bytes := Block.slice block locals.pos.qPos.toNat count
            if locals.env.faults count then
              .ok ⟨dev, fPos, -EFAULT, bytes.take (locals.env.fault.getD 0)⟩
            else .ok ⟨dev, CInt.int64 (fPos + count), count, bytes⟩
          else .error .outOfBounds

theorem found_read_ends {count : Nat} {fPos : Int} (reads : locals.request = .read count fPos) :
    EndsAs dev (.found locals index used) (readRest locals dev index fPos) := by
  have step : stageStep dev (.found locals index used) =
    foundStep dev locals index used := rfl
  rw [foundStep, reads] at step
  rw [readRest]
  cases present : (dev.data.getD index .empty).data with
  | none =>
      rw [present] at step
      exact .last (step.trans (goOut_read reads)) ⟨rfl, rfl⟩
  | some array =>
      rw [present] at step
      dsimp only at step ⊢
      cases entry : entryAt array locals.pos.sPos with
      | error oops =>
          rw [entry] at step
          exact .last step rfl
      | ok found =>
          rw [entry] at step
          rw [ok_bind]
          cases found with
          | none => exact .last (step.trans (goOut_read reads)) ⟨rfl, rfl⟩
          | some block => exact .more (copy_read_ends reads present entry) step

def writeRest (locals : Locals) (dev : ScullDev) (data : List Byte) (fPos : Int)
    (index used : Nat) : Except Oops Reply :=
  match (dev.data.getD index .empty).data with
  | some array =>
      scullWriteWith.withArray (kmallocQuantum locals.quantum dev.quantum) locals.env
        locals.quantum data fPos dev index array used locals.pos
  | none =>
      if locals.env.alloc used ∧ 0 ≤ locals.qset then
        let array := List.replicate locals.qset.toNat none
        scullWriteWith.withArray (kmallocQuantum locals.quantum dev.quantum) locals.env
          locals.quantum data fPos { dev with data := dev.data.set index ⟨some array⟩ } index array
          (used + 1) locals.pos
      else .ok ⟨dev, fPos, -ENOMEM, []⟩

theorem found_write_ends {data : List Byte} {fPos : Int}
    (writes : locals.request = .write data fPos) (whole : locals.count = data.length)
    (inside : index < dev.data.length) :
    EndsAs dev (.found locals index used) (writeRest locals dev data fPos index used) := by
  have step : stageStep dev (.found locals index used) =
    foundStep dev locals index used := rfl
  rw [foundStep, writes] at step
  rw [writeRest]
  cases present : (dev.data.getD index .empty).data with
  | some array =>
      rw [present] at step
      exact .more (quantum_ends writes whole inside present) step
  | none =>
      rw [present] at step
      dsimp only at step ⊢
      split_ifs at step ⊢ with obtained
      · refine .more ?_ step
        refine quantum_ends writes whole ?_ ?_
        · simpa only [List.length_set] using inside
        · rw [getD_set_self inside]
      · exact .last (step.trans (goOut_write writes)) ⟨rfl, rfl⟩

theorem goOut_concludes (dev : ScullDev) (locals : Locals) :
    ∃ result, locals.goOut dev = (dev, .inr result) := by
  rw [Locals.goOut]
  split
  all_goals exact ⟨_, rfl⟩

structure FindEnds (dev : ScullDev) (locals : Locals) (answer : Option Nat)
    (used offset : Nat) (computed : Except Oops Reply) : Prop where
  reached : ∀ index, answer = some index →
    EndsAs dev (.found locals (offset + index) used) computed
  missing : answer = none → ∀ result, locals.goOut dev = (dev, .inr result) →
    Concludes computed dev result

theorem findNext_ends {rounds : Nat} (inside : index < dev.data.length)
    (rest : FindEnds
      { dev with
        data := dev.data.take (index + 1) ++
          (followNext locals.env.alloc rounds (dev.data.drop (index + 1)) used).nodes }
      locals (followNext locals.env.alloc rounds (dev.data.drop (index + 1)) used).index
      (followNext locals.env.alloc rounds (dev.data.drop (index + 1)) used).used index computed) :
    EndsAs dev (.findNext locals rounds index used) computed := by
  induction rounds generalizing dev index used with
  | zero =>
      simp only [followNext, List.take_append_drop] at rest
      exact .more (rest.reached 0 rfl) rfl
  | succ rounds ih =>
      have step : stageStep dev (.findNext locals (rounds + 1) index used) =
        findNextStep dev locals (rounds + 1) index used := rfl
      simp only [findNextStep] at step
      by_cases another : index + 1 < dev.data.length
      · rw [if_pos another] at step
        refine .more (ih another ?_) step
        rw [List.drop_eq_getElem_cons another] at rest
        simp only [followNext] at rest
        rw [← List.take_append_getElem another, List.append_assoc]
        refine ⟨?_, ?_⟩
        · intro offset found
          have later := rest.reached (offset + 1) (by rw [found, Option.map_some])
          have shifted : index + 1 + offset = index + (offset + 1) := by omega
          rw [shifted]
          exact later
        · intro none
          exact rest.missing (by rw [none, Option.map_none])
      · have nothing : dev.data.drop (index + 1) = [] := List.drop_eq_nil_of_le (by omega)
        have whole : dev.data.take (index + 1) = dev.data := List.take_of_length_le (by omega)
        rw [if_neg another] at step
        rw [nothing, whole] at rest
        by_cases obtained : locals.env.alloc used = true
        · rw [if_pos obtained] at step
          simp only [followNext, if_pos obtained] at rest
          have longer : index + 1 < (dev.data ++ [ScullQset.empty]).length := by
            rw [List.length_append, List.length_singleton]
            omega
          refine .more (ih longer ?_) step
          rw [List.drop_eq_nil_of_le (by rw [List.length_append, List.length_singleton]; omega),
            List.take_of_length_le (by rw [List.length_append, List.length_singleton]; omega),
            List.append_assoc]
          refine ⟨?_, ?_⟩
          · intro offset found
            have later := rest.reached (offset + 1) (by rw [found, Option.map_some])
            have shifted : index + 1 + offset = index + (offset + 1) := by omega
            rw [shifted]
            exact later
          · intro none
            exact rest.missing (by rw [none, Option.map_none])
        · rw [if_neg obtained] at step
          simp only [followNext, if_neg obtained, List.append_nil] at rest
          obtain ⟨result, out⟩ := goOut_concludes dev locals
          exact .last (step.trans out) (rest.missing rfl result out)

theorem findItem_ends
    (rest : FindEnds
      { dev with data := (scullFindItem locals.env.alloc dev.data locals.pos.item).nodes } locals
      (scullFindItem locals.env.alloc dev.data locals.pos.item).index
      (scullFindItem locals.env.alloc dev.data locals.pos.item).used 0 computed) :
    EndsAs dev (.findItem locals) computed := by
  cases nodes : dev.data with
  | nil =>
      rw [nodes] at rest
      by_cases obtained : locals.env.alloc 0 = true
      · have step : stageStep dev (.findItem locals) =
            ({ dev with data := [.empty] },
              .inl (.findNext locals (findRounds locals.pos.item) 0 1)) := by
          simp only [stageStep, nodes, obtained, if_true]
        simp only [scullFindItem, if_pos obtained] at rest
        refine .more ?_ step
        exact findNext_ends (by simp) rest
      · have step : stageStep dev (.findItem locals) = locals.goOut dev := by
          simp only [stageStep, nodes, obtained, Bool.false_eq_true, if_false]
        simp only [scullFindItem, if_neg obtained, ← nodes] at rest
        obtain ⟨result, out⟩ := goOut_concludes dev locals
        exact .last (step.trans out) (rest.missing rfl result out)
  | cons node after =>
      have step : stageStep dev (.findItem locals) =
          (dev, .inl (.findNext locals (findRounds locals.pos.item) 0 0)) := by
        simp only [stageStep, nodes]
      rw [nodes] at rest
      refine .more (findNext_ends (by simp [nodes]) ?_) step
      simpa only [scullFindItem, nodes, Nat.zero_add, List.take_succ_cons, List.take_zero,
        List.drop_succ_cons, List.drop_zero, List.cons_append, List.nil_append] using rest

theorem io_ends (dev : ScullDev) {call : ScullCall} {request : Request}
    (io : call.op = .io request) (waits : call.env.interrupted = false) :
    EndsAs dev (.enter call)
      (runSection call.env ⟨call.quantum, call.qset, request⟩ dev) := by
  cases request with
  | read count fPos =>
      simp only [runSection, scullRead, waits, Bool.false_eq_true, if_false]
      have step : stageStep dev (.enter call) =
          if dev.size ≤ CInt.uint64 fPos then (dev, .inr (.replied fPos 0 []))
          else enterStep dev call (clipToSize dev.size fPos count) (.read count fPos) := by
        simp only [stageStep, io]
      split_ifs at step ⊢ with past
      · exact .last step ⟨rfl, rfl⟩
      · simp only [enterStep, Request.fPos] at step
        cases computed : calculatePositions call.quantum call.qset fPos with
        | error oops =>
            rw [computed] at step
            exact .last step rfl
        | ok pos =>
            rw [computed] at step
            rw [ok_bind]
            refine .more (findItem_ends ⟨?_, ?_⟩) step
            · intro index found
              have rest : EndsAs
                  { dev with data := (scullFindItem call.env.alloc dev.data pos.item).nodes }
                  (.found ⟨call.env, call.quantum, call.qset, .read count fPos,
                    clipToSize dev.size fPos count, pos⟩ index
                    (scullFindItem call.env.alloc dev.data pos.item).used) _ :=
                found_read_ends rfl
              rw [Nat.zero_add]
              simp only [found, Option.bind_some]
              exact rest
            · intro none result out
              simp only [none, Option.bind_none]
              rw [goOut_read rfl, Prod.mk.injEq, Sum.inr.injEq] at out
              exact ⟨rfl, out.2.symm⟩
  | write data fPos =>
      simp only [runSection, scullWrite, scullWriteWith, waits, Bool.false_eq_true, if_false]
      have step : stageStep dev (.enter call) =
          enterStep dev call data.length (.write data fPos) := by
        simp only [stageStep, io]
      simp only [enterStep, Request.fPos] at step
      cases computed : calculatePositions call.quantum call.qset fPos with
      | error oops =>
          rw [computed] at step
          exact .last step rfl
      | ok pos =>
          rw [computed] at step
          rw [ok_bind]
          refine .more (findItem_ends ⟨?_, ?_⟩) step
          · intro index found
            obtain ⟨extra, grown, indices⟩ :=
              scullFindItem_spec call.env.alloc dev.data pos.item
            have inside :
                index < (scullFindItem call.env.alloc dev.data pos.item).nodes.length := by
              rw [grown, grow, List.length_append, List.length_replicate]
              exact (indices index found).2
            have rest : EndsAs
                { dev with data := (scullFindItem call.env.alloc dev.data pos.item).nodes }
                (.found ⟨call.env, call.quantum, call.qset, .write data fPos, data.length, pos⟩
                  index (scullFindItem call.env.alloc dev.data pos.item).used) _ :=
              found_write_ends rfl rfl inside
            rw [Nat.zero_add]
            simp only [found]
            exact rest
          · intro none result out
            simp only [none]
            rw [goOut_write rfl, Prod.mk.injEq, Sum.inr.injEq] at out
            exact ⟨rfl, out.2.symm⟩

end Sections

/-! The reset. -/

section Reset

variable {globals : Geometry} {dev after : ScullDev} {result : ScullResult}

theorem clear_ends (globals : Geometry) (dev : ScullDev) :
    Ends scullMethod dev (.clearSize globals) (.fresh globals) (.opened 0) :=
  .more rfl (.more rfl (.more rfl (.last rfl)))

theorem walk_ends {stage : Stage} (ends : Ends scullMethod dev stage after result) :
    ∀ next curr, stage = .walk globals next curr → ∀ visited, ∃ fuel,
      (∃ order, resetLoop globals dev fuel next curr visited = .returned after order ∧
        result = .opened 0) ∨
      ∃ oops, resetLoop globals dev fuel next curr visited = .oops oops ∧
        result = .oops oops := by
  induction ends with
  | @last dev after here result taken =>
      rintro next curr rfl visited
      refine ⟨1, .inr ?_⟩
      simp only [scullMethod, stageStep, walkStep] at taken
      simp only [resetLoop]
      cases found : dev.data[curr]? with
      | none => simp [found] at taken
      | some node =>
          simp only [found] at taken ⊢
          cases present : node.data with
          | some array =>
              simp only [present] at taken ⊢
              split_ifs at taken ⊢ with sized
              · simp at taken
              · rw [Prod.mk.injEq, Sum.inr.injEq] at taken
                exact ⟨_, rfl, taken.2.symm⟩
          | none =>
              simp only [present] at taken ⊢
              cases next with
              | some stale => simp at taken
              | none =>
                  rw [Prod.mk.injEq, Sum.inr.injEq] at taken
                  exact ⟨_, rfl, taken.2.symm⟩
  | @more dev middle after here there result taken rest ih =>
      rintro next curr rfl visited
      simp only [scullMethod, stageStep, walkStep] at taken
      cases found : dev.data[curr]? with
      | none =>
          simp only [found, Prod.mk.injEq, Sum.inl.injEq] at taken
          obtain ⟨rfl, rfl⟩ := taken
          obtain ⟨same, opened⟩ := rest.unique (clear_ends globals dev)
          refine ⟨1, .inl ⟨visited, ?_, opened⟩⟩
          simp only [resetLoop, found, same]
      | some node =>
          cases present : node.data with
          | some array =>
              simp only [found, present] at taken
              split_ifs at taken with sized
              · rw [Prod.mk.injEq, Sum.inl.injEq] at taken
                obtain ⟨rfl, rfl⟩ := taken
                obtain ⟨fuel, outcome⟩ := ih _ _ rfl (visited ++ [curr])
                refine ⟨fuel + 1, ?_⟩
                simpa only [resetLoop, found, present, if_pos sized] using outcome
              · simp at taken
          | none =>
              cases next with
              | none => simp [found, present] at taken
              | some stale =>
                  simp only [found, present, Prod.mk.injEq, Sum.inl.injEq] at taken
                  obtain ⟨rfl, rfl⟩ := taken
                  obtain ⟨fuel, outcome⟩ := ih _ _ rfl (visited ++ [curr])
                  refine ⟨fuel + 1, ?_⟩
                  simpa only [resetLoop, found, present] using outcome

theorem resetLoop_hole {curr : Nat} {node : ScullQset} (found : dev.data[curr]? = some node)
    (empty : node.data = none) :
    ∀ fuel visited, resetLoop globals dev fuel (some curr) curr visited = .running := by
  intro fuel
  induction fuel with
  | zero =>
      intro visited
      rfl
  | succ fuel ih =>
      intro visited
      simp only [resetLoop, found, empty]
      exact ih _

theorem resetLoop_step {curr fuel : Nat} {next : Option Nat} {node : ScullQset}
    {array : PointerArray} (found : dev.data[curr]? = some node) (present : node.data = some array)
    (sized : dev.qset ≤ array.length) (visited : List Nat) :
    resetLoop globals dev (fuel + 1) next curr visited =
      resetLoop globals dev fuel (some (curr + 1)) (curr + 1) (visited ++ [curr]) := by
  conv_lhs => unfold resetLoop
  simp only [found, present, if_pos sized]

theorem resetLoop_settled : ∀ remaining curr next visited fuel,
    curr + remaining = dev.data.length → next = none ∨ next = some curr →
    resetLoop globals dev fuel next curr visited ≠ .running →
    resetLoop globals dev (remaining + 1) next curr visited =
      resetLoop globals dev fuel next curr visited := by
  intro remaining
  induction remaining with
  | zero =>
      intro curr next visited fuel finished _ settled
      cases fuel with
      | zero => exact absurd rfl settled
      | succ fuel =>
          have past : dev.data[curr]? = none := List.getElem?_eq_none (by omega)
          simp only [resetLoop, past]
  | succ remaining ih =>
      intro curr next visited fuel finished stale settled
      cases fuel with
      | zero => exact absurd rfl settled
      | succ fuel =>
          have found : dev.data[curr]? = some dev.data[curr] :=
            List.getElem?_eq_getElem (by omega)
          rcases present : dev.data[curr].data with _ | array
          · rcases stale with rfl | rfl
            · simp only [resetLoop, found, present]
            · exact absurd (resetLoop_hole found present _ _) settled
          · by_cases sized : dev.qset ≤ array.length
            · rw [resetLoop_step found present sized] at settled
              rw [resetLoop_step found present sized, resetLoop_step found present sized]
              exact ih (curr + 1) (some (curr + 1)) (visited ++ [curr]) fuel (by omega)
                (.inr rfl) settled
            · simp only [resetLoop, found, present, if_neg sized]

theorem open_ends {call : ScullCall} (opens : call.op = .openWriteOnly)
    (ends : Ends scullMethod dev (.enter call) after result) :
    ∃ done, wholeCall dev call = some (done, result) ∧
      ((done = after ∧ result = .opened 0) ∨ (done = dev ∧ result.unlocks = false)) := by
  have step : scullMethod.step dev (.enter call) = (dev, .inl (.walk call.globals none 0)) := by
    simp only [scullMethod, stageStep, opens]
  have walked : Ends scullMethod dev (.walk call.globals none 0) after result := by
    cases ends with
    | last taken =>
        rw [step] at taken
        simp at taken
    | more taken rest =>
        rw [step, Prod.mk.injEq, Sum.inl.injEq] at taken
        obtain ⟨rfl, rfl⟩ := taken
        exact rest
  obtain ⟨fuel, outcome⟩ := walk_ends walked none 0 rfl []
  have settled : resetLoop call.globals dev fuel none 0 [] ≠ .running := by
    rcases outcome with ⟨order, returned, _⟩ | ⟨oops, failed, _⟩
    · simp [returned]
    · simp [failed]
  have same := resetLoop_settled dev.data.length 0 none [] fuel (Nat.zero_add _) (.inl rfl) settled
  simp only [wholeCall, opens, scullDevReset, same]
  rcases outcome with ⟨order, returned, rfl⟩ | ⟨oops, failed, rfl⟩
  · rw [returned]
    exact ⟨after, rfl, .inl ⟨rfl, rfl⟩⟩
  · rw [failed]
    exact ⟨dev, rfl, .inr ⟨rfl, rfl⟩⟩

end Reset

/-! Whole calls. -/

theorem scullMethod_agrees : Agrees scullMethod wholeCall := by
  intro dev call after result waits ends
  cases op : call.op with
  | openWriteOnly =>
      obtain ⟨done, whole, ⟨rfl, rfl⟩ | ⟨rfl, dies⟩⟩ := open_ends op ends
      · exact ⟨done, whole, fun _ => rfl⟩
      · refine ⟨done, whole, fun unlocks => ?_⟩
        exact absurd (dies.symm.trans unlocks) Bool.false_ne_true
  | io request =>
      have calm : call.env.interrupted = false := by
        by_contra interrupted
        simp [scullMethod, ScullCall.interrupted, interrupted, op] at waits
      obtain ⟨last, answer, also, concludes⟩ := io_ends dev op calm
      obtain ⟨rfl, rfl⟩ := ends.unique also
      simp only [wholeCall, op]
      cases computed : runSection call.env ⟨call.quantum, call.qset, request⟩ dev with
      | ok reply =>
          rw [computed] at concludes
          obtain ⟨rfl, rfl⟩ := concludes
          exact ⟨reply.dev, rfl, fun _ => rfl⟩
      | error oops =>
          rw [computed] at concludes
          obtain rfl := concludes
          refine ⟨dev, rfl, fun unlocks => ?_⟩
          contradiction

/-- Every interleaving of the statements of reads, writes and resets has the history of whole
calls, one after the other in the order in which they leave the critical section. -/
theorem scull_calls_linearized {Pid : Type} [DecidableEq Pid] (first : ScullDev)
    (actions : List (Linearize.Action Pid ScullCall)) :
    StepMachine.Always (Linearize.fineStep scullMethod)
      (Linearize.Linearized scullMethod wholeCall first) (.start first) actions :=
  Linearize.linearized scullMethod_agrees first actions

end Ldd3.Scull
