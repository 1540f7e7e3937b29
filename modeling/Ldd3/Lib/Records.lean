import Mathlib.Tactic

/-!
A string that is cut into records from its front. `size` reads the size of the first record off
the string; a size of zero or past the end of the string ends the cutting.
-/

namespace Records

variable {α : Type} (size : List α → Nat)

def Cuts (rest : List α) : Prop := 0 < size rest ∧ size rest ≤ rest.length

instance (rest : List α) : Decidable (Cuts size rest) :=
  inferInstanceAs (Decidable (_ ∧ _))

variable {size} in
theorem Cuts.shorter {rest : List α} (cuts : Cuts size rest) :
    (rest.drop (size rest)).length < rest.length := by
  obtain ⟨positive, fits⟩ := cuts
  rw [List.length_drop]
  omega

/-- The string from the start of each record on. -/
def fronts (rest : List α) : List (List α) :=
  if _cuts : Cuts size rest then rest :: fronts (rest.drop (size rest)) else []
termination_by rest.length
decreasing_by exact _cuts.shorter

def remainder (rest : List α) : List α :=
  if _cuts : Cuts size rest then remainder (rest.drop (size rest)) else rest
termination_by rest.length
decreasing_by exact _cuts.shorter

def records (rest : List α) : List (List α) :=
  (fronts size rest).map fun front => front.take (size front)

variable {size} {rest : List α}

theorem fronts_of_cuts (cuts : Cuts size rest) :
    fronts size rest = rest :: fronts size (rest.drop (size rest)) := by
  rw [fronts, dif_pos cuts]

theorem fronts_of_not_cuts (ends : ¬Cuts size rest) : fronts size rest = [] := by
  rw [fronts, dif_neg ends]

theorem remainder_of_cuts (cuts : Cuts size rest) :
    remainder size rest = remainder size (rest.drop (size rest)) := by
  rw [remainder, dif_pos cuts]

theorem remainder_of_not_cuts (ends : ¬Cuts size rest) : remainder size rest = rest := by
  rw [remainder, dif_neg ends]

theorem cuts_of_mem {front : List α} (listed : front ∈ fronts size rest) : Cuts size front := by
  induction rest using fronts.induct size with
  | case1 rest cuts ih =>
      rw [fronts_of_cuts cuts] at listed
      rcases List.mem_cons.mp listed with first | later
      · exact first ▸ cuts
      · exact ih later
  | case2 rest ends =>
      rw [fronts_of_not_cuts ends] at listed
      contradiction

theorem find_records_of_find_fronts {record front : List α → Bool} {first : List α}
    (weaker : ∀ front', record (front'.take (size front')) = true → front front' = true)
    (found : (fronts size rest).find? front = some first)
    (holds : record (first.take (size first)) = true) :
    (records size rest).find? record = some (first.take (size first)) := by
  obtain ⟨_, before, after, split, none⟩ := List.find?_eq_some_iff_append.mp found
  rw [records, List.find?_map, Option.map_eq_some_iff]
  refine ⟨first, List.find?_eq_some_iff_append.mpr ⟨holds, before, after, split, ?_⟩, rfl⟩
  intro earlier listed
  have notFront := none earlier listed
  by_contra isRecord
  simp only [Function.comp_apply, Bool.not_eq_true, Bool.not_eq_false'] at isRecord
  simp only [weaker earlier isRecord, Bool.not_true, Bool.false_eq_true] at notFront

theorem find_records_none {record front : List α → Bool}
    (weaker : ∀ front', record (front'.take (size front')) = true → front front' = true)
    (missing : (fronts size rest).find? front = none) :
    (records size rest).find? record = none := by
  rw [List.find?_eq_none] at missing ⊢
  intro cut listed isRecord
  obtain ⟨front', listedFront, rfl⟩ := List.mem_map.mp listed
  exact missing front' listedFront (weaker front' isRecord)

end Records
