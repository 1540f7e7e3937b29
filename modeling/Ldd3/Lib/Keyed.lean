import Mathlib.Tactic

/-! Lists of items that are looked up by a key of theirs. -/

namespace Keyed

variable {Item Key : Type} [DecidableEq Key]

def lookup (key : Item → Key) (items : List Item) (wanted : Key) : Option Item :=
  items.find? fun item => decide (key item = wanted)

def change (key : Item → Key) (items : List Item) (wanted : Key) (changed : Item → Item) :
    List Item :=
  items.map fun item => if key item = wanted then changed item else item

variable {key : Item → Key} {items : List Item} {item : Item} {wanted : Key}

theorem lookup_some (found : lookup key items wanted = some item) :
    item ∈ items ∧ key item = wanted := by
  rw [lookup] at found
  have chosen := List.find?_some found
  exact ⟨List.mem_of_find?_eq_some found, of_decide_eq_true chosen⟩

theorem lookup_none : lookup key items wanted = none ↔ wanted ∉ items.map key := by
  simp only [lookup, List.find?_eq_none, decide_eq_true_eq, List.mem_map, not_exists, not_and]

theorem lookup_of_mem (unique : (items.map key).Nodup) (member : item ∈ items) :
    lookup key items (key item) = some item := by
  induction items with
  | nil => contradiction
  | cons head rest ih =>
      rw [List.map_cons, List.nodup_cons] at unique
      rw [lookup, List.find?_cons]
      rcases List.mem_cons.mp member with rfl | later
      · simp only [decide_true]
      · have apart : key head ≠ key item :=
          fun same => unique.1 (same ▸ List.mem_map_of_mem later)
        simp only [decide_eq_false apart]
        exact ih unique.2 later

theorem lookup_cons_self : lookup key (item :: items) (key item) = some item := by
  simp only [lookup, List.find?_cons, decide_true]

theorem lookup_cons_of_ne (apart : key item ≠ wanted) :
    lookup key (item :: items) wanted = lookup key items wanted := by
  simp only [lookup, List.find?_cons, decide_eq_false apart]

theorem map_change {Field : Type} (key : Item → Key) (items : List Item) (wanted : Key)
    (changed : Item → Item) (field : Item → Field)
    (kept : ∀ item, field (changed item) = field item) :
    (change key items wanted changed).map field = items.map field := by
  rw [change, List.map_map]
  apply List.map_congr_left
  intro item _
  rw [Function.comp_apply]
  split
  · exact kept item
  · rfl

theorem lookup_change (key other : Item → Key) (items : List Item) (wanted : Key)
    (changed : Item → Item) (kept : ∀ item, other (changed item) = other item) (sought : Key) :
    lookup other (change key items wanted changed) sought =
      (lookup other items sought).map fun item =>
        if key item = wanted then changed item else item := by
  have same : ((fun item => decide (other item = sought)) ∘ fun item =>
      if key item = wanted then changed item else item) =
      fun item => decide (other item = sought) := by
    funext item
    rw [Function.comp_apply]
    split
    · rw [kept]
    · rfl
  rw [lookup, change, List.find?_map, same, lookup]

end Keyed
