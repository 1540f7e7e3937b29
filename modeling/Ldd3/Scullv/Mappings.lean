import Mathlib.Tactic
import Ldd3.Lib.StepMachine
import Ldd3.Scull.Reset
import Ldd3.Scullv.Fault
import Ldd3.Scullv.Sigbus

/-!
`dev->vmas` against the live mappings. `scull_dev_reset` frees the quanta only when the
counter is zero, and the counter starts with what `kmalloc` left in the device.
-/

namespace Ldd3.Scullv

open Scull

def Present (nodes : List ScullQset) (page : FaultPlace) : Prop :=
  blockAt nodes page.node page.offset ≠ none

structure MapsCounted (sys : DriverSys) : Prop where
  counted : sys.vmas = sys.mappings.length
  busy : sys.mappings ≠ [] → ∀ fuel,
    scullvDevReset fuel sys = .busy ∧ driverStep sys (.openWriteOnly fuel) = some sys
  freed : sys.mappings = [] → ∃ fuel, scullvDevReset fuel sys =
    .walked (.returned (.fresh sys.globals) (List.range sys.dev.data.length))
  kept : ∀ mapping ∈ sys.mappings, ∀ page ∈ mapping.pages, Present sys.dev.data page

/-- The counter starts at zero and has not wrapped, and where a reset would free the quanta
every node of the list has a pointer array. -/
def CountsUsable (memory : Int) (sys : DriverSys) : Prop :=
  CInt.int32 memory = 0 ∧ sys.mappings.length < 2147483648 ∧
    (sys.mappings = [] → AllFilled sys.dev.data)

structure MapsInvariant (memory : Int) (sys : DriverSys) : Prop where
  vmas : sys.vmas = CInt.int32 (memory + sys.mappings.length)
  sized : ArraysSized sys.dev.qset.toNat sys.dev.data
  present : ∀ mapping ∈ sys.mappings, ∀ page ∈ mapping.pages, Present sys.dev.data page

/-! Calls never take a quantum away. -/

def Keeps (before after : List ScullQset) : Prop :=
  ∀ page, Present before page → Present after page

theorem keeps_grow (nodes : List ScullQset) (extra : Nat) : Keeps nodes (grow nodes extra) := by
  intro page present
  simpa only [Present, blockAt_grow] using present

theorem keeps_set {nodes : List ScullQset} {index : Nat} {array : PointerArray}
    (same : ∀ entry, blockAt nodes index entry ≠ none → array.getD entry none ≠ none) :
    Keeps nodes (nodes.set index ⟨some array⟩) := by
  intro page present
  simp only [Present, blockAt, List.getD_eq_getElem?_getD, List.getElem?_set] at present same ⊢
  by_cases here : index = page.node
  · subst here
    by_cases inList : page.node < nodes.length
    · simp only [inList, ↓reduceIte, Option.getD_some, Option.bind_some]
      have kept := same page.offset present
      cases entry : array[page.offset]? with
      | none => simp [entry] at kept
      | some found => simpa [entry] using kept
    · simp [List.getElem?_eq_none (by omega : nodes.length ≤ page.node), ScullQset.empty] at present
  · simpa only [here, ↓reduceIte] using present

section Write

variable {allocQuantum : Env → Nat → Except Oops (Option (List Byte))} {env : Env}
  {quantum qset fPos : Int} {dev : ScullDev} {data : List Byte} {reply : Reply}

theorem copyIntoQuantum_keeps {qPos : Int} {index sPos : Nat} {array : PointerArray}
    {block : List Byte}
    (same : ∀ entry, blockAt dev.data index entry ≠ none → array.getD entry none ≠ none)
    (replied : copyIntoQuantum env quantum dev data fPos qPos index array sPos block = .ok reply) :
    Keeps dev.data reply.dev.data := by
  have stored : ∀ block entry, blockAt dev.data index entry ≠ none →
      (array.set sPos (some block)).getD entry none ≠ none := by
    intro block entry present
    have before := same entry present
    simp only [List.getD_eq_getElem?_getD, List.getElem?_set] at before ⊢
    by_cases here : sPos = entry
    · subst here
      by_cases inArray : sPos < array.length
      · simp [inArray]
      · simp [List.getElem?_eq_none (by omega : array.length ≤ sPos)] at before
    · simpa only [here, ↓reduceIte] using before
  simp only [copyIntoQuantum] at replied
  split at replied
  · split at replied
    all_goals
      simp only [Except.ok.injEq] at replied
      rw [← replied]
      exact keeps_set (stored _)
  · contradiction

theorem withArray_keeps {index used : Nat} {array : PointerArray} {pos : Position}
    (same : ∀ entry, blockAt dev.data index entry ≠ none → array.getD entry none ≠ none)
    (replied : scullWriteWith.withArray allocQuantum env quantum data fPos dev index array used pos =
      .ok reply) : Keeps dev.data reply.dev.data := by
  rcases withArray_cases replied with rfl | ⟨_, _, _, _, copied⟩
  · exact fun page present => present
  · exact copyIntoQuantum_keeps same copied

theorem scullWriteWith_keeps
    (replied : scullWriteWith allocQuantum env quantum qset dev data fPos = .ok reply) :
    Keeps dev.data reply.dev.data := by
  rcases scullWriteWith_cases replied with ⟨extra, _, _, rfl⟩ |
    ⟨pos, extra, _, array, _, _, _, ⟨found, rfl⟩ | ⟨hole, rfl, rfl⟩, stored⟩
  · exact keeps_grow dev.data extra
  · have grown := keeps_grow dev.data extra
    have same : ∀ entry, blockAt (grow dev.data extra) (findRounds pos.item) entry ≠ none →
        array.getD entry none ≠ none := by
      intro entry present
      simpa only [blockAt, found, Option.bind_some] using present
    have kept := withArray_keeps same stored
    exact fun page present => kept page (grown page present)
  · have grown := keeps_grow dev.data extra
    have empty : ∀ entry, blockAt (grow dev.data extra) (findRounds pos.item) entry = none := by
      intro entry
      simp only [blockAt, hole, Option.bind_none]
    have attached : Keeps (grow dev.data extra) ((grow dev.data extra).set (findRounds pos.item)
        ⟨some (List.replicate qset.toNat none)⟩) :=
      keeps_set fun entry present => absurd (empty entry) present
    have same : ∀ entry, blockAt ((grow dev.data extra).set (findRounds pos.item)
        ⟨some (List.replicate qset.toNat none)⟩) (findRounds pos.item) entry ≠ none →
        (List.replicate qset.toNat (none : Option (List Byte))).getD entry none ≠ none := by
      intro entry present
      simp only [blockAt, List.getD_eq_getElem?_getD, List.getElem?_set, ↓reduceIte] at present
      split at present
      · simpa only [Option.getD_some, Option.bind_some, List.getD_eq_getElem?_getD] using present
      · simp [ScullQset.empty] at present
    have kept := withArray_keeps same stored
    exact fun page present => kept page (attached page (grown page present))

end Write

theorem scullvStep_keeps {dev next : ScullDev} {call : ScullvCall}
    (taken : scullvStep dev call = some next) : Keeps dev.data next.data := by
  cases call with
  | read env count position =>
      obtain ⟨extra, rfl⟩ := scullvStep_read taken
      exact keeps_grow dev.data extra
  | write env data position =>
      obtain ⟨reply, replied, rfl⟩ := scullvStep_write taken
      exact scullWriteWith_keeps replied

/-! The page that a fault installs is that of a quantum of the device. -/

theorem noPageFault_present {dev : ScullDev} {vma : Vma} {address node index : Nat}
    (installed : noPageFault dev vma address = .ok (.installed node index)) :
    Present dev.data ⟨node, index⟩ := by
  simp only [noPageFault] at installed
  split at installed
  · simp at installed
  · split at installed
    · simp at installed
    · rename_i found inList
      split at installed
      · contradiction
      · rename_i array held
        split at installed
        · contradiction
        · simp at installed
        · rename_i block entered
          simp only [Except.ok.injEq, FaultReply.installed.injEq] at installed
          obtain ⟨rfl, rfl⟩ := installed
          have entry := (entryAt_inside entered).2
          simp only [Int.toNat_natCast] at entry
          have node : dev.data.getD (faultWalk (CInt.uint32 dev.qset) dev.data
              (CInt.uint32 ((address : Int) - vma.start + vma.pgoff * pageSize) / pageSize)).node
              .empty = found := by
            rw [List.getD_eq_getElem?_getD, inList, Option.getD_some]
          simp only [Present, blockAt, node, held, Option.bind_some, ← entry]
          exact Option.some_ne_none block

/-! One step of the driver. -/

theorem mapsInvariant_step {memory : Int} {sys next : DriverSys} {action : DriverAction}
    (invariant : MapsInvariant memory sys) (counts : MapsCounted sys)
    (taken : driverStep sys action = some next) : MapsInvariant memory next := by
  have wrapped := invariant.vmas
  cases action with
  | call call =>
      obtain ⟨dev, stepped, rfl⟩ := Option.map_eq_some_iff.mp taken
      refine ⟨wrapped, (scullvStep_geometry invariant.sized stepped).1, ?_⟩
      intro mapping member page inMapping
      exact scullvStep_keeps stepped page (invariant.present mapping member page inMapping)
  | openWriteOnly fuel =>
      by_cases unmapped : sys.mappings = []
      · have zero : sys.vmas = 0 := by rw [counts.counted, unmapped]; rfl
        simp only [driverStep, scullvDevReset, if_neg (not_not.mpr zero)] at taken
        split at taken
        · contradiction
        · rename_i dev visited returned
          simp only [DevReset.walked.injEq] at returned
          cases taken
          rw [resetLoop_fresh _ _ _ _ returned]
          refine ⟨wrapped, ?_, ?_⟩
          · intro node member
            simp [ScullDev.fresh] at member
          · simp [unmapped]
        · contradiction
      · rw [(counts.busy unmapped fuel).2] at taken
        cases taken
        exact invariant
  | mmap vma =>
      simp only [driverStep, scullvMmap, scullvVmaOpen, Option.some.injEq] at taken
      subst taken
      refine ⟨?_, invariant.sized, ?_⟩
      · simp only [wrapped, CInt.int32, List.length_append, List.length_singleton]
        omega
      · intro mapping member page inMapping
        rcases List.mem_append.mp member with old | fresh
        · exact invariant.present mapping old page inMapping
        · rw [List.mem_singleton.mp fresh] at inMapping
          simp at inMapping
  | fork index =>
      simp only [driverStep] at taken
      split at taken
      · rename_i copied found
        simp only [scullvVmaOpen, Option.some.injEq] at taken
        subst taken
        refine ⟨?_, invariant.sized, ?_⟩
        · simp only [wrapped, CInt.int32, List.length_append, List.length_singleton]
          omega
        · intro mapping member page inMapping
          rcases List.mem_append.mp member with old | fresh
          · exact invariant.present mapping old page inMapping
          · rw [List.mem_singleton.mp fresh] at inMapping
            exact invariant.present copied (List.mem_of_getElem? found) page inMapping
      · contradiction
  | unmap index =>
      simp only [driverStep] at taken
      split at taken
      · rename_i inside
        simp only [scullvVmaClose, Option.some.injEq] at taken
        subst taken
        refine ⟨?_, invariant.sized, ?_⟩
        · simp only [wrapped, CInt.int32, List.length_eraseIdx_of_lt inside]
          omega
        · intro mapping member page inMapping
          exact invariant.present mapping (List.mem_of_mem_eraseIdx member) page inMapping
      · contradiction
  | fault index address =>
      simp only [driverStep] at taken
      split at taken
      · contradiction
      rename_i faulted found
      split at taken
      · cases taken
        exact invariant
      · rename_i node entry installed
        cases taken
        refine ⟨by rw [List.length_set]; exact wrapped, invariant.sized, ?_⟩
        intro mapping member page inMapping
        rcases List.mem_or_eq_of_mem_set member with old | same
        · exact invariant.present mapping old page inMapping
        · rw [same] at inMapping
          rcases List.mem_cons.mp inMapping with new | old
          · rw [new]
            exact noPageFault_present installed
          · exact invariant.present faulted (List.mem_of_getElem? found) page old
      · contradiction
  | ioctl globals =>
      simp only [driverStep] at taken
      split at taken
      · cases taken
        exact ⟨wrapped, invariant.sized, invariant.present⟩
      · contradiction

theorem int32_counts_iff {memory : Int} {count : Nat} :
    CInt.int32 (memory + count) = count ↔ CInt.int32 memory = 0 ∧ count < 2147483648 := by
  simp only [CInt.int32]
  omega

theorem mapsCounted_iff {memory : Int} {sys : DriverSys} (invariant : MapsInvariant memory sys) :
    MapsCounted sys ↔ CountsUsable memory sys := by
  have wrapped := invariant.vmas
  constructor
  · intro counts
    have counted := counts.counted
    rw [wrapped, int32_counts_iff] at counted
    refine ⟨counted.1, counted.2, ?_⟩
    intro unmapped
    obtain ⟨fuel, returned⟩ := counts.freed unmapped
    simp only [scullvDevReset] at returned
    split at returned
    · contradiction
    · exact allFilled_of_returned (DevReset.walked.inj returned)
  · rintro ⟨zero, bound, filled⟩
    have counted : sys.vmas = sys.mappings.length := by
      rw [wrapped, int32_counts_iff]
      exact ⟨zero, bound⟩
    refine ⟨counted, ?_, ?_, invariant.present⟩
    · intro mapped fuel
      have positive := List.length_pos_of_ne_nil mapped
      have busy : scullvDevReset fuel sys = .busy := by
        rw [scullvDevReset, if_pos (by omega)]
      simp only [driverStep, busy, and_self]
    · intro unmapped
      refine ⟨sys.dev.data.length + 1, ?_⟩
      have none : sys.vmas = 0 := by rw [counted, unmapped]; rfl
      rw [scullvDevReset, if_neg (by omega),
        scullDevReset_walks invariant.sized (filled unmapped) sys.globals]

theorem mapsInvariant_loaded (memory : Int) (load : Geometry) :
    MapsInvariant memory (.loaded memory load) := by
  refine ⟨by simp [DriverSys.loaded], ?_, by simp [DriverSys.loaded]⟩
  intro node member
  simp [DriverSys.loaded, ScullDev.fresh] at member

/-- Along any run the counter is the number of live mappings, a reset frees everything or
nothing by it, and installed pages keep their quanta, exactly when the counter started at
zero, did not wrap, and no hole was in the list while the device had no mapping. -/
theorem maps_counted_iff (memory : Int) (load : Geometry) (actions : List DriverAction) :
    StepMachine.Always driverStep MapsCounted (.loaded memory load) actions ↔
      StepMachine.Always driverStep (CountsUsable memory) (.loaded memory load) actions := by
  refine StepMachine.always_congr ?_ ?_ actions (mapsInvariant_loaded memory load)
  · intro sys action next invariant counts taken
    exact mapsInvariant_step invariant counts taken
  · intro sys invariant
    exact mapsCounted_iff invariant

def mappedThenReset : List DriverAction :=
  [.call (oneByte 0), .mmap ⟨0, 0⟩, .fault 0 0, .openWriteOnly 2]

def danglingMapping : DriverSys :=
  { dev := .fresh onePage, globals := onePage, vmas := 0, mappings := [⟨⟨0, 0⟩, [⟨0, 0⟩]⟩] }

theorem mappedThenReset_frees :
    StepMachine.run driverStep (.loaded (-1) onePage) mappedThenReset = some danglingMapping := by
  obtain ⟨block, stepped⟩ : ∃ block, scullvStep (.fresh onePage) (oneByte 0) =
      some { data := [⟨some [some block]⟩], quantum := 4096, qset := 1, size := 1 } :=
    scullvStep_fresh onePage 0 (by decide)
      (by decide : _ = Except.ok (Position.mk 0 (0 : Nat) (0 : Nat)))
      (by decide : _ = Found.mk [.empty] (some 0) 1) rfl (by decide) (by decide)
  simp only [mappedThenReset, StepMachine.run, driverStep, DriverSys.loaded, stepped]
  rfl

theorem maps_miscounted_junk :
    ¬ StepMachine.Always driverStep MapsCounted (.loaded (-1) onePage) mappedThenReset := by
  intro always
  have counts := always.last mappedThenReset_frees
  have present := counts.kept ⟨⟨0, 0⟩, [⟨0, 0⟩]⟩ (List.mem_singleton.mpr rfl) ⟨0, 0⟩
    (List.mem_singleton.mpr rfl)
  exact present rfl

end Ldd3.Scullv
