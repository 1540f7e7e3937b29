import Mathlib.Tactic
import Ldd3.Lib.StepMachine
import Ldd3.Scull.Shape

/-!
Termination of `scull_dev_reset`. The walk only advances past nodes that have a
pointer array, while `scull_find_item` makes nodes without one whenever a read or
a write skips over them or runs out of memory.
-/

namespace Ldd3.Scull

/-! What any call leaves of the list, with no assumption about the geometry. -/

def ArraysSized (size : Nat) (nodes : List ScullQset) : Prop :=
  ∀ node ∈ nodes, ∀ array, node.data = some array → array.length = size

theorem arraysSized_grow {size : Nat} {nodes : List ScullQset} (sized : ArraysSized size nodes)
    (extra : Nat) : ArraysSized size (grow nodes extra) := by
  intro node member array found
  rcases List.mem_append.mp member with old | fresh
  · exact sized node old array found
  · rw [List.eq_of_mem_replicate fresh] at found
    simp [ScullQset.empty] at found

theorem arraysSized_set {size index : Nat} {nodes : List ScullQset} {array : PointerArray}
    (sized : ArraysSized size nodes) (length : array.length = size) :
    ArraysSized size (nodes.set index ⟨some array⟩) := by
  intro node member other found
  rcases List.mem_or_eq_of_mem_set member with old | same
  · exact sized node old other found
  · subst same
    simp only [Option.some.injEq] at found
    exact found ▸ length

theorem scullRead_device {env : Env} {quantum qset fPos : Int} {dev : ScullDev} {count : Nat}
    {reply : Reply} (replied : scullRead env quantum qset dev count fPos = .ok reply) :
    ∃ extra, reply.dev = { dev with data := grow dev.data extra } := by
  rcases scullRead_cases replied with ⟨ret, _, rfl⟩ | ⟨_, pos, _, result, _⟩
  · exact ⟨0, by rw [grow_zero]⟩
  · exact result.device

section Write

variable {allocQuantum : Env → Nat → Except Oops (Option (List Byte))} {env : Env}
  {quantum qset fPos : Int} {dev : ScullDev} {data : List Byte} {reply : Reply} {size : Nat}

theorem copyIntoQuantum_arrays {qPos : Int} {index sPos : Nat} {array : PointerArray}
    {block : List Byte} (sized : ArraysSized size dev.data) (length : array.length = size)
    (replied : copyIntoQuantum env quantum dev data fPos qPos index array sPos block = .ok reply) :
    ArraysSized size reply.dev.data ∧ reply.dev.qset = dev.qset ∧
      reply.dev.quantum = dev.quantum := by
  simp only [copyIntoQuantum] at replied
  split at replied
  · split at replied
    all_goals
      simp only [Except.ok.injEq] at replied
      rw [← replied]
      exact ⟨arraysSized_set sized (by rw [List.length_set]; exact length), rfl, rfl⟩
  · contradiction

theorem withArray_arrays {index used : Nat} {array : PointerArray} {pos : Position}
    (replied : scullWriteWith.withArray allocQuantum env quantum data fPos dev index array used pos =
      .ok reply) (sized : ArraysSized size dev.data) (length : array.length = size) :
    ArraysSized size reply.dev.data ∧ reply.dev.qset = dev.qset ∧
      reply.dev.quantum = dev.quantum := by
  rcases withArray_cases replied with rfl | ⟨_, _, _, _, copied⟩
  · exact ⟨sized, rfl, rfl⟩
  · exact copyIntoQuantum_arrays sized length copied

theorem scullWriteWith_arrays (sized : ArraysSized qset.toNat dev.data)
    (replied : scullWriteWith allocQuantum env quantum qset dev data fPos = .ok reply) :
    ArraysSized qset.toNat reply.dev.data ∧ reply.dev.qset = dev.qset ∧
      reply.dev.quantum = dev.quantum := by
  rcases scullWriteWith_cases replied with
    ⟨extra, _, _, rfl⟩ | ⟨_, extra, _, array, _, _, bound, ⟨present, rfl⟩ | ⟨_, rfl, rfl⟩, stored⟩
  · exact ⟨arraysSized_grow sized extra, rfl, rfl⟩
  · have grown := arraysSized_grow sized extra
    rw [List.getD_eq_getElem _ _ bound] at present
    have arrays := withArray_arrays stored grown (grown _ (List.getElem_mem bound) array present)
    exact arrays
  · have grown := arraysSized_grow sized extra
    have arrays := withArray_arrays stored (arraysSized_set grown List.length_replicate)
      List.length_replicate
    exact arrays

end Write

theorem callStep_replied {dev next : ScullDev} {call : Call} (taken : callStep dev call = some next) :
    ∃ reply, perform dev call = .ok reply ∧ next = reply.dev := by
  simp only [callStep] at taken
  split at taken
  · rename_i reply replied
    exact ⟨reply, replied, (Option.some.inj taken).symm⟩
  · contradiction

theorem callStep_arrays {dev next : ScullDev} {call : Call}
    (sized : ArraysSized dev.qset.toNat dev.data) (taken : callStep dev call = some next) :
    ArraysSized next.qset.toNat next.data := by
  obtain ⟨reply, replied, rfl⟩ := callStep_replied taken
  cases call with
  | read env count fPos =>
      obtain ⟨extra, device⟩ := scullRead_device replied
      rw [device]
      exact arraysSized_grow sized extra
  | write env data fPos =>
      obtain ⟨arrays, qsetSame, _⟩ := scullWriteWith_arrays sized replied
      rw [qsetSame]
      exact arrays

theorem reachable_arrays {geometry : Geometry} {dev : ScullDev}
    (reached : StepMachine.Reachable callStep (.fresh geometry) dev) :
    ArraysSized dev.qset.toNat dev.data := by
  let invariant (dev : ScullDev) := ArraysSized dev.qset.toNat dev.data
  have initial : invariant (.fresh geometry) := by
    intro node member
    simp [ScullDev.fresh] at member
  exact StepMachine.reachable_invariant
    (fun _ _ _ sized taken => callStep_arrays sized taken) initial reached

/-! The walk. -/

theorem resetLoop_fresh {globals : Geometry} {dev after : ScullDev} {visited : List Nat} :
    ∀ fuel next curr before,
      resetLoop globals dev fuel next curr before = .returned after visited →
        after = .fresh globals := by
  intro fuel
  induction fuel with
  | zero => intro next curr before returned; simp [resetLoop] at returned
  | succ fuel ih =>
      intro next curr before returned
      simp only [resetLoop] at returned
      split at returned
      · simp only [ResetOutcome.returned.injEq] at returned
        exact returned.1.symm
      · split at returned
        · split at returned
          · exact ih _ _ _ returned
          · contradiction
        · split at returned
          · exact ih _ _ _ returned
          · contradiction

def nextAt (curr : Nat) : Option Nat := if curr = 0 then none else some curr

def AllFilled (nodes : List ScullQset) : Prop := ∀ node ∈ nodes, node.data ≠ none

instance (nodes : List ScullQset) : Decidable (AllFilled nodes) := by
  unfold AllFilled
  infer_instance

theorem resetLoop_filled (globals : Geometry) {dev : ScullDev}
    (sized : ArraysSized dev.qset.toNat dev.data) (filled : AllFilled dev.data) :
    ∀ remaining curr next, curr + remaining = dev.data.length →
      resetLoop globals dev (remaining + 1) next curr (List.range curr) =
        .returned (.fresh globals) (List.range dev.data.length) := by
  intro remaining
  induction remaining with
  | zero =>
      intro curr next finished
      simp only [Nat.add_zero] at finished
      simp only [resetLoop, finished, List.getElem?_eq_none (le_refl dev.data.length)]
  | succ remaining ih =>
      intro curr next finished
      have inside : curr < dev.data.length := by omega
      unfold resetLoop
      rw [List.getElem?_eq_getElem inside]
      have present := filled _ (List.getElem_mem inside)
      cases found : dev.data[curr].data with
      | none => contradiction
      | some array =>
          have length := sized _ (List.getElem_mem inside) array found
          have enough : dev.qset ≤ array.length := by omega
          simp only [found, enough, ↓reduceIte, ← List.range_succ]
          exact ih (curr + 1) _ (by omega)

/-- From a node at or before an empty one, reached by advancing, the walk never returns: at
the empty node it follows a `next` that was not taken from that node. -/
theorem resetLoop_stuck {globals : Geometry} {dev : ScullDev} {hole : Nat} {node : ScullQset}
    (found : dev.data[hole]? = some node) (empty : node.data = none) :
    ∀ fuel curr visited, curr ≤ hole → ∀ after order,
      resetLoop globals dev fuel (nextAt curr) curr visited ≠ .returned after order := by
  intro fuel
  induction fuel with
  | zero => intro curr visited _ after order; simp [resetLoop]
  | succ fuel ih =>
      intro curr visited before after order
      have inside : curr < dev.data.length := by
        have bound := (List.getElem?_eq_some_iff.mp found).1
        omega
      unfold resetLoop
      rw [List.getElem?_eq_getElem inside]
      cases current : dev.data[curr].data with
      | some array =>
          have notHole : curr ≠ hole := by
            intro same
            subst same
            rw [List.getElem?_eq_getElem inside, Option.some.injEq] at found
            rw [found, empty] at current
            contradiction
          simp only [current]
          split
          · exact ih (curr + 1) _ (by omega) after order
          · simp
      | none =>
          by_cases first : curr = 0
          · subst first
            simp [current, nextAt]
          · have step := ih curr (visited ++ [curr]) before after order
            simp only [nextAt, first, ↓reduceIte] at step
            simp only [current, nextAt, first, ↓reduceIte]
            exact step

/-- `scull_dev_reset` returns, having visited every node once in list order and leaving an
empty device. -/
def ResetsCleanly (globals : Geometry) (dev : ScullDev) : Prop :=
  ∃ fuel after, scullDevReset fuel globals dev = .returned after (List.range dev.data.length) ∧
    after.size = 0 ∧ after.data = []

theorem scullDevReset_walks {dev : ScullDev} (sized : ArraysSized dev.qset.toNat dev.data)
    (filled : AllFilled dev.data) (globals : Geometry) :
    scullDevReset (dev.data.length + 1) globals dev =
      .returned (.fresh globals) (List.range dev.data.length) :=
  resetLoop_filled globals sized filled dev.data.length 0 none (Nat.zero_add _)

theorem allFilled_of_returned {fuel : Nat} {globals : Geometry} {dev after : ScullDev}
    {visited : List Nat} (returned : scullDevReset fuel globals dev = .returned after visited) :
    AllFilled dev.data := by
  intro node member empty
  obtain ⟨hole, inside, same⟩ := List.mem_iff_getElem.mp member
  have found : dev.data[hole]? = some node := by rw [List.getElem?_eq_getElem inside, same]
  exact resetLoop_stuck found empty fuel 0 [] (Nat.zero_le _) after visited returned

/-- From a reachable device the reset works exactly when every node has a pointer array. -/
theorem scullDevReset_returns_iff {geometry : Geometry} {dev : ScullDev}
    (reached : StepMachine.Reachable callStep (.fresh geometry) dev) (globals : Geometry) :
    ResetsCleanly globals dev ↔ AllFilled dev.data := by
  constructor
  · rintro ⟨fuel, after, returned, _⟩
    exact allFilled_of_returned returned
  · intro filled
    have walk := scullDevReset_walks (reachable_arrays reached) filled globals
    exact ⟨dev.data.length + 1, .fresh globals, walk, rfl, rfl⟩

theorem scullDevReset_returns_iff_written :
    ResetsCleanly ⟨2, 1⟩ { data := [⟨some [some [1, 0]]⟩, ⟨some [some [2, 0]]⟩], quantum := 2,
                           qset := 1, size := 5 } := by
  have reached : StepMachine.Reachable callStep (.fresh ⟨2, 1⟩)
      { data := [⟨some [some [1, 0]]⟩, ⟨some [some [2, 0]]⟩], quantum := 2, qset := 1, size := 5 } :=
    ⟨[.write (.good fun _ => 0) [1] 0, .write (.good fun _ => 0) [2] 4], by decide +kernel⟩
  exact (scullDevReset_returns_iff reached ⟨2, 1⟩).mpr (by decide)

theorem scullDevReset_stuck_sparse :
    ∃ dev, StepMachine.run callStep (.fresh ⟨2, 1⟩) [.write (.good fun _ => 0) [1] 6] = some dev ∧
      ¬ ResetsCleanly ⟨2, 1⟩ dev := by
  refine ⟨{ data := [.empty, .empty, ⟨some [some [1, 0]]⟩], quantum := 2, qset := 1, size := 7 },
    by decide +kernel, ?_⟩
  rintro ⟨fuel, after, returned, _⟩
  have firstEmpty : [ScullQset.empty, .empty, ⟨some [some [1, 0]]⟩][0]? = some .empty := rfl
  exact resetLoop_stuck firstEmpty rfl fuel 0 [] (Nat.zero_le _) after _ returned

end Ldd3.Scull
