import Mathlib.Tactic
import Ldd3.Lib.StepMachine
import Ldd3.Mint.Core

/-!
The references that the mint driver holds. A look-up by name raises the count of the device it
finds; of the three callers only `mint_write` has a use for the reference, and none drops it.
-/

namespace Ldd3.Mint

/-- One reference for each device of the bus and one for the selection. -/
structure RefsExact (sys : MintSys) : Prop where
  onBus : ∀ (index : Nat) (device : MintDev), sys.devices[index]? = some device →
    device.onBus = true → device.refs = 1 + if sys.selectedDev = some index then 1 else 0
  removed : ∀ (index : Nat) (device : MintDev), sys.devices[index]? = some device →
    device.onBus = false → sys.selectedDev ≠ some index →
      device.refs = 0 ∧ device.released = 1 ∧ device.privData = none

def IsName (buf : List Byte) : Prop :=
  ¬((firstLine buf).length = 0 ∨ MAX_MINT_ID_LEN ≤ (firstLine buf).length)

/-- An add finds no device of its name, a remove finds none or the selected one, and a write
finds one only while none is selected. -/
def LookupsBalanced (sys : MintSys) : MintAction → Prop
  | .add _ buf => IsName buf → sys.lookup (firstLine buf) = none
  | .remove buf =>
      IsName buf → ∀ index, sys.lookup (firstLine buf) = some index → sys.selectedDev = some index
  | .write env data =>
      env.faults = false → sys.lookup (firstLine (data.take (MAX_MINT_ID_LEN - 1))) ≠ none →
        sys.selectedDev = none

def SelectionHeld (sys : MintSys) : Prop :=
  ∀ index, sys.selectedDev = some index →
    ∃ device, sys.devices[index]? = some device ∧ 2 ≤ device.refs

theorem lookup_found {sys : MintSys} {name : Name} {index : Nat}
    (found : sys.lookup name = some index) :
    ∃ device, sys.devices[index]? = some device ∧ device.onBus = true := by
  obtain ⟨inside, holds, _⟩ := List.findIdx?_eq_some_iff_getElem.mp found
  simp only [Bool.and_eq_true] at holds
  exact ⟨_, List.getElem?_eq_getElem inside, holds.1⟩

theorem MintSys.update_self {sys : MintSys} {index : Nat} {device : MintDev}
    (found : sys.devices[index]? = some device) (change : MintDev → MintDev) :
    (sys.update index change).devices[index]? = some (change device) := by
  simp only [update, List.getElem?_modify, found, ↓reduceIte, Option.map_eq_map, Option.map_some]

theorem MintSys.update_of_ne {sys : MintSys} {index other : Nat} (different : other ≠ index)
    (change : MintDev → MintDev) :
    (sys.update index change).devices[other]? = sys.devices[other]? := by
  simp only [update, List.getElem?_modify, Ne.symm different, ↓reduceIte, Option.map_eq_map,
    Option.map_id']

/-! A step as a change of one device, of the selection, or a new device. -/

inductive MintMove (sys : MintSys) (action : MintAction) (next : MintSys) : Prop
  | quiet (meets : LookupsBalanced sys action) (same : next = sys)
  | found (index : Nat) (device : MintDev) (held : sys.devices[index]? = some device)
      (onBus : device.onBus = true) (fails : ¬LookupsBalanced sys action)
      (built : next = sys.update index getDevice)
  | added (meets : LookupsBalanced sys action) (device : MintDev)
      (fresh : device.onBus = true ∧ device.refs = 1 ∨
        device.onBus = false ∧ device.refs = 0 ∧ device.released = 1 ∧ device.privData = none)
      (built : next = { sys with devices := sys.devices ++ [device] })
  | removed (index : Nat) (device : MintDev) (held : sys.devices[index]? = some device)
      (onBus : device.onBus = true)
      (exactly : LookupsBalanced sys action ↔ sys.selectedDev = some index)
      (built : next = (sys.update index getDevice).update index deviceUnregister)
  | selected (index : Nat) (device : MintDev) (held : sys.devices[index]? = some device)
      (onBus : device.onBus = true) (exactly : LookupsBalanced sys action ↔ sys.selectedDev = none)
      (built : next = { sys.update index getDevice with selectedDev := some index })
  | stored (meets : LookupsBalanced sys action) (index : Nat) (copy : Option (List Byte))
      (selected : sys.selectedDev = some index)
      (built : next = sys.update index fun device => { device with privData := copy })

theorem mintStep_moves {sys next : MintSys} {action : MintAction}
    (taken : mintStep sys action = some next) : MintMove sys action next := by
  cases action with
  | add env buf =>
      simp only [mintStep, addDeviceStore, Option.some.injEq] at taken
      by_cases unnamed : (firstLine buf).length = 0 ∨ MAX_MINT_ID_LEN ≤ (firstLine buf).length
      · rw [if_pos unnamed] at taken
        exact .quiet (fun named => absurd unnamed named) taken.symm
      rw [if_neg unnamed, busFindDeviceByName] at taken
      cases found : sys.lookup (firstLine buf) with
      | some index =>
          obtain ⟨device, held, onBus⟩ := lookup_found found
          simp only [found] at taken
          refine .found index device held onBus ?_ taken.symm
          intro meets
          rw [meets unnamed] at found
          contradiction
      | none =>
          have meets : LookupsBalanced sys (.add env buf) := fun _ => found
          simp only [found] at taken
          split at taken
          · split at taken
            · exact .added meets _ (.inl ⟨rfl, rfl⟩) taken.symm
            · exact .added meets _ (.inr ⟨rfl, rfl, rfl, rfl⟩) taken.symm
          · exact .quiet meets taken.symm
  | remove buf =>
      simp only [mintStep, removeDeviceStore] at taken
      by_cases unnamed : (firstLine buf).length = 0 ∨ MAX_MINT_ID_LEN ≤ (firstLine buf).length
      · rw [if_pos unnamed, Option.map_some, Option.some.injEq] at taken
        exact .quiet (fun named => absurd unnamed named) taken.symm
      rw [if_neg unnamed, busFindDeviceByName] at taken
      cases found : sys.lookup (firstLine buf) with
      | some index =>
          obtain ⟨device, held, onBus⟩ := lookup_found found
          simp only [found] at taken
          split at taken
          · rw [Option.map_some, Option.some.injEq] at taken
            refine .removed index device held onBus ⟨?_, ?_⟩ taken.symm
            · exact fun meets => meets unnamed index found
            · intro selected _ other foundOther
              rw [found] at foundOther
              rwa [← Option.some.inj foundOther]
          · simp at taken
      | none =>
          simp only [found, Option.map_some, Option.some.injEq] at taken
          refine .quiet ?_ taken.symm
          intro _ index foundIndex
          rw [found] at foundIndex
          contradiction
  | write env data =>
      simp only [mintStep, mintWrite, Option.some.injEq] at taken
      by_cases faults : env.faults = true
      · rw [if_pos faults] at taken
        exact .quiet (fun complete => by simp [faults] at complete) taken.symm
      rw [if_neg faults, busFindDeviceByName] at taken
      cases found : sys.lookup (firstLine (data.take (MAX_MINT_ID_LEN - 1))) with
      | some index =>
          obtain ⟨device, held, onBus⟩ := lookup_found found
          simp only [found] at taken
          refine .selected index device held onBus ⟨?_, ?_⟩ taken.symm
          · exact fun meets => meets (by simpa using faults) (by simp [found])
          · exact fun unselected _ _ => unselected
      | none =>
          have meets : LookupsBalanced sys (.write env data) := fun _ present => absurd found present
          simp only [found] at taken
          cases selected : sys.selectedDev with
          | none =>
              simp only [selected] at taken
              exact .quiet meets taken.symm
          | some index =>
              simp only [selected] at taken
              exact .stored meets index _ selected taken.symm

theorem removed_found {sys : MintSys} {index : Nat} {device : MintDev}
    (held : sys.devices[index]? = some device) (positive : 0 < device.refs) :
    ((sys.update index getDevice).update index deviceUnregister).devices[index]? =
      some { device with onBus := false } := by
  have many : device.refs + 1 ≠ 1 := by omega
  rw [MintSys.update_self (MintSys.update_self held getDevice)]
  simp only [deviceUnregister, putDevice, getDevice, many, ↓reduceIte, Nat.add_sub_cancel]

theorem removed_other {sys : MintSys} {index other : Nat} (different : other ≠ index) :
    ((sys.update index getDevice).update index deviceUnregister).devices[other]? =
      sys.devices[other]? := by
  rw [MintSys.update_of_ne different, MintSys.update_of_ne different]

theorem added_found {sys : MintSys} {device added : MintDev} {index : Nat}
    (found : (sys.devices ++ [added])[index]? = some device) :
    sys.devices[index]? = some device ∨ index = sys.devices.length ∧ device = added := by
  by_cases inside : index < sys.devices.length
  · rw [List.getElem?_append_left inside] at found
    exact .inl found
  · rw [List.getElem?_append_right (Nat.le_of_not_lt inside), List.getElem?_singleton] at found
    split at found
    · exact .inr ⟨by omega, (Option.some.inj found).symm⟩
    · contradiction

theorem selectionHeld_step {sys next : MintSys} {action : MintAction} (selection : SelectionHeld sys)
    (balanced : RefsExact sys) (taken : mintStep sys action = some next) : SelectionHeld next := by
  intro index selected
  cases mintStep_moves taken with
  | quiet _ same =>
      rw [same] at selected ⊢
      exact selection index selected
  | found place device held _ _ built =>
      rw [built] at selected ⊢
      obtain ⟨old, found, many⟩ := selection index selected
      by_cases here : index = place
      · subst here
        exact ⟨_, MintSys.update_self found getDevice, many.trans (Nat.le_succ _)⟩
      · exact ⟨old, by rw [MintSys.update_of_ne here]; exact found, many⟩
  | added _ device _ built =>
      rw [built] at selected ⊢
      obtain ⟨old, found, many⟩ := selection index selected
      have inside := (List.getElem?_eq_some_iff.mp found).1
      exact ⟨old, by rw [List.getElem?_append_left inside]; exact found, many⟩
  | removed place device held _ _ built =>
      rw [built] at selected ⊢
      obtain ⟨old, found, many⟩ := selection index selected
      by_cases here : index = place
      · subst here
        exact ⟨_, removed_found found (by omega), many⟩
      · exact ⟨old, (removed_other here).trans found, many⟩
  | selected place device held onBus _ built =>
      rw [built] at selected ⊢
      have here := Option.some.inj selected
      subst here
      have refs := balanced.onBus place device held onBus
      refine ⟨_, MintSys.update_self held getDevice, ?_⟩
      simp only [getDevice]
      omega
  | stored _ place copy selectedOld built =>
      rw [built] at selected ⊢
      obtain ⟨old, found, many⟩ := selection index selected
      by_cases here : index = place
      · subst here
        exact ⟨_, MintSys.update_self found _, many⟩
      · exact ⟨old, by rw [MintSys.update_of_ne here]; exact found, many⟩

theorem refsExact_added {sys : MintSys} {device : MintDev} (selection : SelectionHeld sys)
    (balanced : RefsExact sys)
    (fresh : device.onBus = true ∧ device.refs = 1 ∨
      device.onBus = false ∧ device.refs = 0 ∧ device.released = 1 ∧ device.privData = none) :
    RefsExact { sys with devices := sys.devices ++ [device] } := by
  have unselected : sys.selectedDev ≠ some sys.devices.length := by
    intro selected
    obtain ⟨old, found, _⟩ := selection _ selected
    exact absurd (List.getElem?_eq_some_iff.mp found).1 (Nat.lt_irrefl _)
  constructor
  · intro index other found onBus
    rcases added_found found with old | ⟨last, same⟩
    · exact balanced.onBus index other old onBus
    · subst last same
      rcases fresh with ⟨_, refs⟩ | ⟨off, _⟩
      · rw [refs, if_neg unselected]
      · rw [off] at onBus
        contradiction
  · intro index other found off unselectedOther
    rcases added_found found with old | ⟨last, same⟩
    · exact balanced.removed index other old off unselectedOther
    · subst last same
      rcases fresh with ⟨onBus, _⟩ | ⟨_, gone⟩
      · rw [onBus] at off
        contradiction
      · exact gone

theorem refsExact_found {sys : MintSys} {index : Nat} {device : MintDev} (balanced : RefsExact sys)
    (held : sys.devices[index]? = some device) (onBus : device.onBus = true) :
    ¬RefsExact (sys.update index getDevice) := by
  intro balancedNext
  have refs := balanced.onBus index device held onBus
  have refsNext := balancedNext.onBus index (getDevice device) (MintSys.update_self held getDevice) onBus
  have sameSelection : (sys.update index getDevice).selectedDev = sys.selectedDev := rfl
  simp only [getDevice, sameSelection] at refsNext
  omega

theorem refsExact_removed_iff {sys : MintSys} {index : Nat} {device : MintDev}
    (balanced : RefsExact sys) (held : sys.devices[index]? = some device)
    (onBus : device.onBus = true) :
    RefsExact ((sys.update index getDevice).update index deviceUnregister) ↔
      sys.selectedDev = some index := by
  have refs := balanced.onBus index device held onBus
  have found := removed_found held (by omega)
  constructor
  · intro balancedNext
    by_contra unselected
    have gone := (balancedNext.removed index _ found rfl unselected).1
    simp only at gone
    omega
  · intro selected
    constructor
    · intro other later foundLater onBusLater
      by_cases here : other = index
      · subst here
        rw [found, Option.some.injEq] at foundLater
        rw [← foundLater] at onBusLater
        contradiction
      · exact balanced.onBus other later ((removed_other here).symm.trans foundLater) onBusLater
    · intro other later foundLater off unselected
      by_cases here : other = index
      · subst here
        exact absurd selected unselected
      · exact balanced.removed other later ((removed_other here).symm.trans foundLater) off unselected

theorem refsExact_selected_iff {sys : MintSys} {index : Nat} {device : MintDev}
    (selection : SelectionHeld sys) (balanced : RefsExact sys)
    (held : sys.devices[index]? = some device) (onBus : device.onBus = true) :
    RefsExact { sys.update index getDevice with selectedDev := some index } ↔
      sys.selectedDev = none := by
  have refs := balanced.onBus index device held onBus
  have found := MintSys.update_self held getDevice
  constructor
  · intro balancedNext
    by_contra another
    obtain ⟨old, selected⟩ := Option.ne_none_iff_exists'.mp another
    obtain ⟨oldDevice, heldOld, many⟩ := selection old selected
    by_cases same : old = index
    · subst same
      have refsNext := balancedNext.onBus old (getDevice device) found onBus
      rw [if_pos selected] at refs
      simp only [getDevice, ↓reduceIte] at refsNext
      omega
    · have unselected : some index ≠ some old := by
        simpa using Ne.symm same
      have heldNext : (sys.update index getDevice).devices[old]? = some oldDevice := by
        rw [MintSys.update_of_ne same]
        exact heldOld
      cases onBusOld : oldDevice.onBus with
      | true =>
          have refsOld := balancedNext.onBus old oldDevice heldNext onBusOld
          rw [if_neg unselected] at refsOld
          omega
      | false =>
          have gone := (balancedNext.removed old oldDevice heldNext onBusOld unselected).1
          omega
  · intro unselectedBefore
    rw [unselectedBefore, if_neg (by simp)] at refs
    constructor
    · intro other later foundLater onBusLater
      by_cases here : other = index
      · subst here
        have same := Option.some.inj (found.symm.trans foundLater)
        simp only [← same, getDevice, refs, ↓reduceIte]
      · have before := balanced.onBus other later
          ((MintSys.update_of_ne here getDevice).symm.trans foundLater) onBusLater
        rw [unselectedBefore, if_neg (by simp)] at before
        rw [before, if_neg (by simpa using Ne.symm here)]
    · intro other later foundLater off unselected
      have different : other ≠ index := by
        intro same
        exact unselected (congrArg some same.symm)
      refine balanced.removed other later
        ((MintSys.update_of_ne different getDevice).symm.trans foundLater) off ?_
      rw [unselectedBefore]
      simp

theorem refsExact_stored {sys : MintSys} {index : Nat} (balanced : RefsExact sys)
    (selected : sys.selectedDev = some index) (copy : Option (List Byte)) :
    RefsExact (sys.update index fun device => { device with privData := copy }) := by
  have earlier {other : Nat} {later : MintDev} (here : other = index)
      (found : (sys.update index fun device => { device with privData := copy }).devices[other]? =
        some later) : ∃ device, sys.devices[other]? = some device ∧ device.onBus = later.onBus ∧
          device.refs = later.refs := by
    subst here
    simp only [MintSys.update, List.getElem?_modify, ↓reduceIte, Option.map_eq_map,
      Option.map_eq_some_iff] at found
    obtain ⟨device, held, built⟩ := found
    exact ⟨device, held, by rw [← built], by rw [← built]⟩
  constructor
  · intro other later found onBus
    by_cases here : other = index
    · obtain ⟨device, held, sameBus, sameRefs⟩ := earlier here found
      rw [← sameRefs]
      exact balanced.onBus other device held (sameBus.trans onBus)
    · exact balanced.onBus other later ((MintSys.update_of_ne here _).symm.trans found) onBus
  · intro other later found off unselected
    have different : other ≠ index := by
      intro same
      subst same
      exact unselected selected
    exact balanced.removed other later ((MintSys.update_of_ne different _).symm.trans found) off
      unselected

theorem refsExact_next_iff {sys next : MintSys} {action : MintAction}
    (selection : SelectionHeld sys) (balanced : RefsExact sys)
    (taken : mintStep sys action = some next) :
    RefsExact next ↔ LookupsBalanced sys action := by
  cases mintStep_moves taken with
  | quiet meets same =>
      rw [same]
      exact iff_of_true balanced meets
  | found index device held onBus fails built =>
      rw [built]
      exact iff_of_false (refsExact_found balanced held onBus) fails
  | added meets device fresh built =>
      rw [built]
      exact iff_of_true (refsExact_added selection balanced fresh) meets
  | removed index device held onBus exactly built =>
      rw [built, exactly]
      exact refsExact_removed_iff balanced held onBus
  | selected index device held onBus exactly built =>
      rw [built, exactly]
      exact refsExact_selected_iff selection balanced held onBus
  | stored meets index copy selected built =>
      rw [built]
      exact iff_of_true (refsExact_stored balanced selected copy) meets

/-- Over any sequence of calls the driver's references are exact just as long as no look-up
finds a device whose reference nobody has a use for. -/
theorem mint_refsExact_iff (actions : List MintAction) :
    StepMachine.Always mintStep RefsExact .loaded actions ↔
      StepMachine.Meets mintStep LookupsBalanced .loaded actions := by
  have empty (index : Nat) : MintSys.loaded.devices[index]? = none := by simp [MintSys.loaded]
  refine StepMachine.always_iff_meets
    (fun _ _ _ selection balanced taken => selectionHeld_step selection balanced taken)
    (fun _ _ _ selection balanced taken => refsExact_next_iff selection balanced taken) actions ?_ ?_
  · intro index selected
    contradiction
  · constructor
    · intro index device found
      rw [empty index] at found
      contradiction
    · intro index device found
      rw [empty index] at found
      contradiction

/-- `echo a > add_device; echo a > remove_device`. -/
def addedThenRemoved : List MintAction :=
  [.add { alloc := true, deviceAdd := 0, classDev := true } [97, 10], .remove [97, 10]]

theorem addedThenRemoved_leaks :
    ¬ StepMachine.Always mintStep RefsExact .loaded addedThenRemoved := by
  intro always
  have ran : StepMachine.run mintStep .loaded addedThenRemoved =
      some
        { devices := [⟨[97], 1, false, true, none, 0⟩], selectedDev := none } := by decide +kernel
  have gone := (always.last ran).removed 0 ⟨[97], 1, false, true, none, 0⟩ rfl rfl (by decide)
  exact absurd gone.1 (by decide)

end Ldd3.Mint
