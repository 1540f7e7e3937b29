import Mathlib.Tactic
import Ldd3.Lib.StepMachine
import Ldd3.Memory.Core

/-!
The size of a quantum buffer against `dev->quantum` and `scull_quantum`. The first is
fixed by the allocator, the second by the last reset and the third by the last ioctl.
-/

namespace Ldd3.Memory

open Scull

/-! A write over an allocator that is known by the size of its buffers only. -/

def SizedAlloc (alloc : Env → Nat → Except Oops (Option (List Byte))) (env : Env)
    (size : Nat) : Prop :=
  ∀ used, alloc env used = .ok none ∨
    ∃ block, alloc env used = .ok (some block) ∧ block.length = size

section Write

variable {alloc : Env → Nat → Except Oops (Option (List Byte))} {env : Env}
  {quantum qset fPos : Int} {size : Nat} {dev : ScullDev} {data : List Byte} {pos : Position}

theorem copyIntoQuantum_sized (inside : PositionInside quantum qset size pos)
    (shaped : Shaped qset.toNat size dev.data) {index : Nat} {array : PointerArray}
    (arrayLength : array.length = qset.toNat)
    (blocks : ∀ block, some block ∈ array → block.length = size) {block : List Byte}
    (length : block.length = size) :
    ∃ reply, copyIntoQuantum env quantum dev data fPos pos.qPos index array pos.sPos.toNat block =
        .ok reply ∧ Shaped qset.toNat size reply.dev.data := by
  have fits := inside.copyFits env data
  have stored : Shaped qset.toNat size (dev.data.set index ⟨some (array.set pos.sPos.toNat
      (some (Block.overwrite block pos.qPos.toNat
        (env.copied (data.take (limitToQuantum quantum pos.qPos data.length))))))⟩) := by
    apply shaped_set shaped
    · rw [List.length_set, arrayLength]
    · intro other member
      rcases List.mem_or_eq_of_mem_set member with old | same
      · exact blocks other old
      · simp only [Option.some.injEq] at same
        rw [same, Block.length_overwrite (by rw [length]; exact fits), length]
  simp only [copyIntoQuantum, inside.inBlock length data.length, if_true]
  split
  · exact ⟨_, rfl, stored⟩
  · exact ⟨_, rfl, stored⟩

theorem withArray_sized (sized : SizedAlloc alloc env size)
    (inside : PositionInside quantum qset size pos) (shaped : Shaped qset.toNat size dev.data)
    {array : PointerArray} (arrayLength : array.length = qset.toNat)
    (blocks : ∀ block, some block ∈ array → block.length = size) (index used : Nat) :
    ∃ reply, scullWriteWith.withArray alloc env quantum data fPos dev index array used pos =
        .ok reply ∧ Shaped qset.toNat size reply.dev.data := by
  have lower := inside.sLower
  have upper := inside.sUpper
  have entry := entryAt_ok array lower (by omega)
  simp only [scullWriteWith.withArray, entry, ok_bind]
  cases present : array.getD pos.sPos.toNat none with
  | some block =>
      exact copyIntoQuantum_sized inside shaped arrayLength blocks (blocks block (getD_mem present))
  | none =>
      rcases sized used with missing | ⟨block, allocated, length⟩
      · simp only [missing, ok_bind]
        exact ⟨_, rfl, shaped⟩
      · simp only [allocated, ok_bind]
        exact copyIntoQuantum_sized inside shaped arrayLength blocks length

theorem scullWriteWith_sized (data : List Byte) (sized : SizedAlloc alloc env size)
    (computed : calculatePositions quantum qset fPos = .ok pos)
    (inside : PositionInside quantum qset size pos) (shaped : Shaped qset.toNat size dev.data) :
    ∃ reply, scullWriteWith alloc env quantum qset dev data fPos = .ok reply ∧
      Shaped qset.toNat size reply.dev.data := by
  obtain ⟨extra, nodes, indices⟩ := scullFindItem_spec env.alloc dev.data pos.item
  have grown : Shaped qset.toNat size (grow dev.data extra) := shaped_append_empty shaped extra
  simp only [scullWriteWith, computed, ok_bind, nodes]
  split
  · exact ⟨_, rfl, shaped⟩
  split
  · exact ⟨_, rfl, grown⟩
  rename_i index found
  obtain ⟨_, bound⟩ := indices index found
  have inGrown : index < (grow dev.data extra).length := by simpa using bound
  split
  · rename_i array present
    rw [List.getD_eq_getElem _ _ inGrown] at present
    obtain ⟨length, blocks⟩ := grown _ (List.getElem_mem inGrown) array present
    exact withArray_sized sized inside grown length blocks index _
  · split
    · have fresh : (List.replicate qset.toNat (none : Option (List Byte))).length = qset.toNat :=
        List.length_replicate
      have none : ∀ block : List Byte, some block ∈ List.replicate qset.toNat none →
          block.length = size := by
        intro block member
        exact absurd (List.eq_of_mem_replicate member) (by simp)
      exact withArray_sized sized inside (shaped_set grown fresh none) fresh none index _
    · exact ⟨_, rfl, grown⟩

end Write

/-! The three allocators. -/

def ClearsInside (driver : Driver) (load globals : Geometry) : Prop :=
  driver = .scullc → globals.quantum ≤ bufferSize load driver

/-- A device with this geometry fits its quanta into the buffers, or every read and write of
it stops at the division by a `quantum * qset` that wraps to 0. -/
def HasRoom (driver : Driver) (load geometry : Geometry) : Prop :=
  geometry.quantum ≤ bufferSize load driver ∨ CInt.int32 (geometry.quantum * geometry.qset) = 0

theorem uint64_quantum {quantum : Int} (nonneg : 0 ≤ quantum) (fits : CInt.FitsInt quantum) :
    CInt.uint64 quantum = quantum.toNat := by
  simp only [CInt.FitsInt] at fits
  exact CInt.uint64_of_range nonneg (by omega)

section Allocators

variable {driver : Driver} {load globals : Geometry}

theorem allocQuantum_allocated (clears : ClearsInside driver load globals)
    (positive : globals.Positive) {env : Env} {used : Nat} (allocated : env.alloc used = true) :
    ∃ block, allocQuantum load globals driver env used = .ok (some block) ∧
      block.length = bufferSize load driver := by
  cases driver with
  | scullc =>
      have quantum := positive.quantum
      have bound := clears rfl
      simp only [bufferSize] at bound
      have count := uint64_quantum quantum.le positive.quantumFits
      have inside : InBlock ((List.range load.quantum.toNat).map env.junk) 0
          globals.quantum.toNat := by
        simp only [InBlock, List.length_map, List.length_range]
        omega
      refine ⟨Block.overwrite ((List.range load.quantum.toNat).map env.junk) 0
        (List.replicate globals.quantum.toNat 0), ?_, ?_⟩
      · simp only [allocQuantum, scullcAllocQuantum, allocated, count, inside, if_true]
      · rw [Block.length_overwrite]
        · simp [bufferSize]
        · simpa using inside.2
  | scullp =>
      exact ⟨_, by simp only [allocQuantum, scullpAllocQuantum, allocated, if_true]; rfl,
        List.length_replicate⟩
  | scullv =>
      exact ⟨_, by simp only [allocQuantum, Scullv.scullvAllocQuantum, allocated, if_true]; rfl,
        List.length_replicate⟩

theorem allocQuantum_sized (clears : ClearsInside driver load globals)
    (positive : globals.Positive) (env : Env) :
    SizedAlloc (allocQuantum load globals driver) env (bufferSize load driver) := by
  intro used
  cases allocated : env.alloc used with
  | false =>
      left
      cases driver <;>
        simp [allocQuantum, scullcAllocQuantum, scullpAllocQuantum, Scullv.scullvAllocQuantum,
          allocated]
  | true => exact Or.inr (allocQuantum_allocated clears positive allocated)

theorem allocQuantum_inside_iff (positive : globals.Positive) :
    (∀ env used, allocQuantum load globals driver env used ≠ .error .outOfBounds) ↔
      ClearsInside driver load globals := by
  constructor
  · rintro inside rfl
    have quantum := positive.quantum
    have count := uint64_quantum quantum.le positive.quantumFits
    by_contra larger
    apply inside (.good fun _ => 0) 0
    have outside : ¬ InBlock ((List.range load.quantum.toNat).map fun _ => (0 : Byte)) 0
        globals.quantum.toNat := by
      simp only [bufferSize] at larger
      simp only [InBlock, List.length_map, List.length_range]
      omega
    simp only [allocQuantum, scullcAllocQuantum, Env.good, if_true, count, outside, if_false]
  · intro clears env used failed
    rcases allocQuantum_sized clears positive env used with missing | ⟨block, found, _⟩
    · simp [missing] at failed
    · simp [found] at failed

end Allocators

/-! The device. -/

structure MemoryInvariant (driver : Driver) (load : Geometry) (sys : MemorySys) : Prop where
  positive : sys.dev.geometry.Positive
  globalsPositive : sys.globals.Positive
  shaped : Shaped sys.dev.qset.toNat (bufferSize load driver) sys.dev.data
  stopped : CInt.int32 (sys.dev.quantum * sys.dev.qset) = 0 → sys.dev.data = []

/-- Every quantum buffer in use has its real size and is as long as `dev->quantum`, an
allocation clears no more than it got, and no read or write runs past a quantum. -/
structure QuantaHold (driver : Driver) (load : Geometry) (sys : MemorySys) : Prop where
  long : ∀ node ∈ sys.dev.data, ∀ array, node.data = some array → ∀ block, some block ∈ array →
    block.length = bufferSize load driver ∧ sys.dev.quantum ≤ block.length
  clears : ∀ env used, allocQuantum load sys.globals driver env used ≠ .error .outOfBounds
  inside : ∀ call, 0 ≤ call.fPos → performMemory driver load sys call ≠ .error .outOfBounds

/-- No ioctl gives scullc a quantum above its cache's object size, and no reset takes over a
quantum that the buffers have no room for. -/
def KeepsRoom (driver : Driver) (load : Geometry) (sys : MemorySys) : MemoryAction → Prop
  | .call _ => True
  | .openWriteOnly _ => HasRoom driver load sys.globals
  | .ioctl globals => ClearsInside driver load globals

section Device

variable {driver : Driver} {load : Geometry} {sys next : MemorySys}

theorem calculatePositions_stopped {quantum qset : Int} (stops : CInt.int32 (quantum * qset) = 0)
    (fPos : Int) : calculatePositions quantum qset fPos = .error .divide := by
  simp only [calculatePositions, stops, if_true]

theorem performMemory_stopped (call : MemoryCall)
    (stops : CInt.int32 (sys.dev.quantum * sys.dev.qset) = 0) :
    performMemory driver load sys call = .error .divide ∨
      ∃ reply, performMemory driver load sys call = .ok reply ∧ reply.dev = sys.dev := by
  cases call with
  | read env count fPos =>
      simp only [performMemory, scullRead, calculatePositions_stopped stops, error_bind]
      split
      · exact Or.inr ⟨_, rfl, rfl⟩
      · split
        · exact Or.inr ⟨_, rfl, rfl⟩
        · exact Or.inl rfl
  | write env data fPos =>
      simp only [performMemory, scullWriteWith, calculatePositions_stopped stops, error_bind]
      split
      · exact Or.inr ⟨_, rfl, rfl⟩
      · exact Or.inl rfl

theorem performMemory_room (invariant : MemoryInvariant driver load sys)
    (clears : ClearsInside driver load sys.globals)
    (room : sys.dev.quantum ≤ bufferSize load driver) {call : MemoryCall}
    (nonneg : 0 ≤ call.fPos) :
    performMemory driver load sys call = .error .divide ∨
      ∃ reply, performMemory driver load sys call = .ok reply ∧
        reply.dev.geometry = sys.dev.geometry ∧
        Shaped sys.dev.qset.toNat (bufferSize load driver) reply.dev.data := by
  have quantumPositive : 0 < sys.dev.quantum := invariant.positive.quantum
  have qsetPositive : 0 < sys.dev.qset := invariant.positive.qset
  by_cases stops : CInt.int32 (sys.dev.quantum * sys.dev.qset) = 0
  · rcases performMemory_stopped call stops with failed | ⟨reply, replied, same⟩
    · exact Or.inl failed
    · exact Or.inr ⟨reply, replied, by rw [same], by rw [same]; exact invariant.shaped⟩
  rcases calculatePositions_bounds quantumPositive qsetPositive nonneg with
    failed | ⟨pos, computed, sLower, sUpper, qLower, qUpper⟩
  · simp only [calculatePositions, stops, if_false, quantumPositive.ne'] at failed
    contradiction
  right
  have inside : PositionInside sys.dev.quantum sys.dev.qset (bufferSize load driver) pos :=
    ⟨sLower, sUpper, qLower, qUpper, invariant.positive.quantumFits, room⟩
  cases call with
  | read env count fPos =>
      obtain ⟨reply, replied, result⟩ := scullRead_result env count computed inside invariant.shaped
      obtain ⟨extra, device⟩ := result.device
      refine ⟨reply, replied, by rw [device]; rfl, ?_⟩
      rw [device]
      exact shaped_append_empty invariant.shaped extra
  | write env data fPos =>
      have sized := allocQuantum_sized clears invariant.globalsPositive env
      obtain ⟨reply, replied, shaped⟩ :=
        scullWriteWith_sized data sized computed inside invariant.shaped
      have arrays : ArraysSized sys.dev.qset.toNat sys.dev.data :=
        fun node member array found => (invariant.shaped node member array found).1
      obtain ⟨_, qsetSame, quantumSame⟩ := scullWriteWith_arrays arrays replied
      refine ⟨reply, replied, ?_, shaped⟩
      simp only [ScullDev.geometry, quantumSame, qsetSame]

theorem calculatePositions_origin {quantum qset : Int} (quantumPositive : 0 < quantum)
    (divides : CInt.int32 (quantum * qset) ≠ 0) :
    calculatePositions quantum qset 0 = .ok ⟨0, 0, 0⟩ := by
  have zero : CInt.int32 0 = 0 := rfl
  simp only [calculatePositions, divides, quantumPositive.ne', if_false, Int.zero_tdiv,
    Int.zero_tmod, zero]

theorem fullWrite_outside (invariant : MemoryInvariant driver load sys)
    (clears : ClearsInside driver load sys.globals)
    (divides : CInt.int32 (sys.dev.quantum * sys.dev.qset) ≠ 0)
    (larger : (bufferSize load driver : Int) < sys.dev.quantum)
    (unused : ∀ node ∈ sys.dev.data, ∀ array, node.data = some array → ∀ block,
      some block ∉ array) :
    performMemory driver load sys
      (.write (.good fun _ => 0) (List.replicate sys.dev.quantum.toNat 0) 0) =
        .error .outOfBounds := by
  have quantumPositive : 0 < sys.dev.quantum := invariant.positive.quantum
  have qsetPositive : 0 < sys.dev.qset := invariant.positive.qset
  have quantumFits := invariant.positive.quantumFits
  have stores : ∀ (dev : ScullDev) (array : PointerArray) (used : Nat),
      array.length = sys.dev.qset.toNat → array.getD 0 none = none →
      scullWriteWith.withArray (allocQuantum load sys.globals driver) (.good fun _ => 0)
        sys.dev.quantum (List.replicate sys.dev.quantum.toNat 0) 0 dev 0 array used ⟨0, 0, 0⟩ =
          .error .outOfBounds := by
    intro dev array used length free
    obtain ⟨block, allocated, size⟩ := allocQuantum_allocated clears invariant.globalsPositive
      (rfl : (Env.good fun _ => 0).alloc used = true)
    have entry := entryAt_ok array (le_refl 0) (by simp only [Int.toNat_zero]; omega)
    have count : limitToQuantum sys.dev.quantum 0
        (List.replicate sys.dev.quantum.toNat (0 : Byte)).length = sys.dev.quantum.toNat := by
      rw [limitToQuantum_le _ (le_refl 0) quantumPositive quantumFits, List.length_replicate]
      simp
    have outside : ¬ InBlock block 0 sys.dev.quantum.toNat := by
      simp only [InBlock, size]
      omega
    simp only [scullWriteWith.withArray, entry, ok_bind, Int.toNat_zero, free, allocated,
      copyIntoQuantum, count, outside, if_false]
  obtain ⟨extra, nodes, indices⟩ := scullFindItem_spec (fun _ => true) sys.dev.data 0
  have succeeds : ∀ index, (fun _ : Nat => true) index = true := fun _ => rfl
  have found := scullFindItem_found succeeds sys.dev.data 0
  have bound := (indices _ found).2
  have first : findRounds 0 = 0 := rfl
  rw [first] at found bound
  have inGrown : 0 < (grow sys.dev.data extra).length := by simpa using bound
  simp only [performMemory, scullWriteWith, calculatePositions_origin quantumPositive divides,
    ok_bind, Env.good, Bool.false_eq_true, if_false, nodes, found]
  rw [List.getD_eq_getElem _ _ inGrown]
  split
  · rename_i array present
    have grown := shaped_append_empty invariant.shaped extra
    have length := (grown _ (List.getElem_mem inGrown) array present).1
    apply stores _ _ _ length
    cases entry : array.getD 0 none with
    | none => rfl
    | some block =>
        rcases List.mem_append.mp (List.getElem_mem inGrown) with old | fresh
        · exact absurd (getD_mem entry) (unused _ old array present block)
        · rw [List.eq_of_mem_replicate fresh] at present
          simp [ScullQset.empty] at present
  · rw [if_pos ⟨trivial, qsetPositive.le⟩]
    apply stores
    · exact List.length_replicate
    · simp

theorem quantaHold_iff (invariant : MemoryInvariant driver load sys) :
    QuantaHold driver load sys ↔
      ClearsInside driver load sys.globals ∧ HasRoom driver load sys.dev.geometry := by
  constructor
  · intro hold
    have clears := (allocQuantum_inside_iff invariant.globalsPositive).mp hold.clears
    refine ⟨clears, ?_⟩
    by_contra noRoom
    simp only [HasRoom, ScullDev.geometry, not_or, not_le] at noRoom
    have outside := fullWrite_outside invariant clears noRoom.2 noRoom.1 (by
      intro node member array found block stored
      obtain ⟨length, long⟩ := hold.long node member array found block stored
      rw [length] at long
      omega)
    refine hold.inside _ ?_ outside
    exact le_refl (0 : Int)
  · rintro ⟨clears, room⟩
    refine ⟨?_, (allocQuantum_inside_iff invariant.globalsPositive).mpr clears, ?_⟩
    · intro node member array found block stored
      have length := (invariant.shaped node member array found).2 block stored
      refine ⟨length, ?_⟩
      rcases room with room | stops
      · rw [length]
        exact room
      · rw [invariant.stopped stops] at member
        simp at member
    · intro call nonneg failed
      rcases room with room | stops
      · rcases performMemory_room invariant clears room nonneg with divides | ⟨reply, replied, _⟩
        · rw [divides] at failed
          contradiction
        · rw [replied] at failed
          contradiction
      · rcases performMemory_stopped call stops with divides | ⟨reply, replied, _⟩
        · rw [divides] at failed
          contradiction
        · rw [replied] at failed
          contradiction

theorem QuantaHold.call (invariant : MemoryInvariant driver load sys)
    (hold : QuantaHold driver load sys) {call : MemoryCall} (nonneg : 0 ≤ call.fPos)
    {reply : Reply} (replied : performMemory driver load sys call = .ok reply) :
    reply.dev.geometry = sys.dev.geometry ∧
      MemoryInvariant driver load { sys with dev := reply.dev } := by
  obtain ⟨clears, room⟩ := (quantaHold_iff invariant).mp hold
  by_cases stops : CInt.int32 (sys.dev.quantum * sys.dev.qset) = 0
  · rcases performMemory_stopped call stops with divides | ⟨other, answered, same⟩
    · rw [divides] at replied
      contradiction
    · rw [answered] at replied
      cases replied
      rw [same]
      exact ⟨rfl, invariant⟩
  · rcases performMemory_room invariant clears (room.resolve_right stops) nonneg with
      divides | ⟨other, answered, geometry, shaped⟩
    · rw [divides] at replied
      contradiction
    · rw [answered] at replied
      cases replied
      have quantumSame := congrArg Geometry.quantum geometry
      have qsetSame := congrArg Geometry.qset geometry
      simp only [ScullDev.geometry] at quantumSame qsetSame
      refine ⟨geometry, ?_, invariant.globalsPositive, ?_, ?_⟩
      · rw [geometry]
        exact invariant.positive
      · rw [qsetSame]
        exact shaped
      · simp only [quantumSame, qsetSame]
        exact fun wraps => absurd wraps stops

theorem memoryInvariant_step {action : MemoryAction} (invariant : MemoryInvariant driver load sys)
    (hold : QuantaHold driver load sys) (taken : memoryStep driver load sys action = some next) :
    MemoryInvariant driver load next := by
  cases action with
  | call call =>
      simp only [memoryStep] at taken
      split at taken
      · rename_i nonneg
        split at taken
        · rename_i reply replied
          cases taken
          exact (hold.call invariant nonneg replied).2
        · contradiction
      · contradiction
  | openWriteOnly fuel =>
      simp only [memoryStep] at taken
      split at taken
      · rename_i dev visited returned
        cases taken
        rw [resetLoop_fresh _ _ _ _ returned]
        exact ⟨invariant.globalsPositive, invariant.globalsPositive, shaped_nil _ _, fun _ => rfl⟩
      · contradiction
  | ioctl globals =>
      simp only [memoryStep] at taken
      split at taken
      · rename_i positive
        cases taken
        exact ⟨invariant.positive, positive, invariant.shaped, invariant.stopped⟩
      · contradiction

theorem quantaHold_step_iff {action : MemoryAction} (invariant : MemoryInvariant driver load sys)
    (hold : QuantaHold driver load sys) (taken : memoryStep driver load sys action = some next) :
    QuantaHold driver load next ↔ KeepsRoom driver load sys action := by
  obtain ⟨clears, room⟩ := (quantaHold_iff invariant).mp hold
  rw [quantaHold_iff (memoryInvariant_step invariant hold taken)]
  cases action with
  | call call =>
      simp only [memoryStep] at taken
      split at taken
      · rename_i nonneg
        split at taken
        · rename_i reply replied
          cases taken
          rw [(hold.call invariant nonneg replied).1]
          exact ⟨fun _ => trivial, fun _ => ⟨clears, room⟩⟩
        · contradiction
      · contradiction
  | openWriteOnly fuel =>
      simp only [memoryStep] at taken
      split at taken
      · rename_i dev visited returned
        cases taken
        rw [resetLoop_fresh _ _ _ _ returned]
        exact ⟨fun after => after.2, fun fits => ⟨clears, fits⟩⟩
      · contradiction
  | ioctl globals =>
      simp only [memoryStep] at taken
      split at taken
      · cases taken
        exact ⟨fun after => after.1, fun fits => ⟨fits, room⟩⟩
      · contradiction

theorem memoryInvariant_loaded (positive : load.Positive) :
    MemoryInvariant driver load (.loaded load) :=
  ⟨positive, positive, shaped_nil _ _, fun _ => rfl⟩

/-- Along any sequence of ioctls, O_WRONLY opens, reads and writes, no access leaves a
quantum exactly when the buffers have room for the quantum of the load and of every reset,
and no ioctl gives scullc a larger quantum than it was loaded with. -/
theorem quanta_hold_iff (driver : Driver) (positive : load.Positive)
    (actions : List MemoryAction) :
    StepMachine.Always (memoryStep driver load) (QuantaHold driver load) (.loaded load) actions ↔
      HasRoom driver load load ∧
        StepMachine.Meets (memoryStep driver load) (KeepsRoom driver load) (.loaded load)
          actions := by
  have initial : MemoryInvariant driver load (.loaded load) := memoryInvariant_loaded positive
  have steps (good : QuantaHold driver load (.loaded load)) :
      StepMachine.Always (memoryStep driver load) (QuantaHold driver load) (.loaded load) actions ↔
        StepMachine.Meets (memoryStep driver load) (KeepsRoom driver load) (.loaded load)
          actions := by
    apply StepMachine.always_iff_meets _ _ actions initial good
    · intro sys action next invariant hold taken
      exact memoryInvariant_step invariant hold taken
    · intro sys action next invariant hold taken
      exact quantaHold_step_iff invariant hold taken
  have cleared : ClearsInside driver load load := by
    rintro rfl
    have quantum := positive.quantum
    simp only [bufferSize]
    omega
  constructor
  · intro always
    exact ⟨((quantaHold_iff initial).mp always.head).2, (steps always.head).mp always⟩
  · rintro ⟨room, meets⟩
    exact (steps ((quantaHold_iff initial).mpr ⟨cleared, room⟩)).mpr meets

end Device

def onePageRun : List MemoryAction :=
  [.call (.write (.good fun _ => 0) [1, 2] 4095), .openWriteOnly 3]

theorem quanta_hold_iff_onePage :
    StepMachine.Always (memoryStep .scullp ⟨4096, 1000⟩) (QuantaHold .scullp ⟨4096, 1000⟩)
        (.loaded ⟨4096, 1000⟩) onePageRun ↔
      HasRoom .scullp ⟨4096, 1000⟩ ⟨4096, 1000⟩ ∧
        StepMachine.Meets (memoryStep .scullp ⟨4096, 1000⟩) (KeepsRoom .scullp ⟨4096, 1000⟩)
          (.loaded ⟨4096, 1000⟩) onePageRun :=
  quanta_hold_iff .scullp (by decide) _

def raisedQuantum : List MemoryAction := [.ioctl ⟨8, 1⟩]

theorem raisedQuantum_outside :
    ((StepMachine.run (memoryStep .scullc ⟨4, 1⟩) (.loaded ⟨4, 1⟩) raisedQuantum).map fun sys =>
      performMemory .scullc ⟨4, 1⟩ sys (.write (.good fun _ => 0) [1] 0)) =
    some (.error .outOfBounds) := by
  decide +kernel

theorem quanta_overrun_raisedQuantum :
    ¬ StepMachine.Always (memoryStep .scullc ⟨4, 1⟩) (QuantaHold .scullc ⟨4, 1⟩)
      (.loaded ⟨4, 1⟩) raisedQuantum := by
  intro always
  obtain ⟨sys, hold, outside⟩ := always.observed raisedQuantum_outside
  refine hold.inside _ ?_ outside
  exact le_refl (0 : Int)

end Ldd3.Memory
