import Mathlib.Tactic
import Ldd3.Mint.Core

/-!
`minibus_match`: the walk along the `id_table` of a driver for the name of a device.
-/

namespace Ldd3.Mint

/-- `struct mint_id`: a string in an array of `MAX_MINT_ID_LEN` characters. -/
structure MintId where
  name : Name
  fits : name.length < MAX_MINT_ID_LEN
  noNul : 0 ∉ name

/-- The table of a driver as it declares it: the entry behind the named ones has the empty name. -/
structure IdTable where
  named : List MintId
  nonempty : ∀ id ∈ named, id.name ≠ []

def MintId.terminator : MintId := ⟨[], by decide, List.not_mem_nil⟩

def IdTable.entries (table : IdTable) : List MintId := table.named ++ [MintId.terminator]

/-- The terminators are not in the lists. -/
def strcmp : Name → Name → Int
  | [], [] => 0
  | [], _ :: _ => -1
  | _ :: _, [] => 1
  | first :: left, second :: right =>
      if first ≠ second then if first < second then -1 else 1 else strcmp left right

/-- `id->name` as a condition is the address of an array inside `*id`. -/
def MintId.nameAddress (_ : MintId) : Bool := true

/-- The loop from an entry on; behind the last entry there is other memory. -/
def minibusMatch (device : MintId) : List MintId → Except Oops Int
  | [] => .error .outOfBounds
  | id :: rest =>
      if id.nameAddress then
        if strcmp id.name device.name = 0 then .ok 1 else minibusMatch device rest
      else .ok 0

theorem strcmp_eq_zero_iff : ∀ left right : Name, strcmp left right = 0 ↔ left = right
  | [], [] => by simp only [strcmp]
  | [], _ :: _ => by simp [strcmp]
  | _ :: _, [] => by simp [strcmp]
  | first :: left, second :: right => by
      by_cases same : first = second
      · simp only [strcmp, same, ne_eq, not_true_eq_false, ↓reduceIte, List.cons.injEq, true_and]
        exact strcmp_eq_zero_iff left right
      · simp only [strcmp, ne_eq, same, not_false_eq_true, ↓reduceIte, List.cons.injEq, false_and,
          iff_false]
        split <;> decide

theorem minibusMatch_eq (device : MintId) (entries : List MintId) :
    minibusMatch device entries =
      if ∃ id ∈ entries, id.name = device.name then .ok 1 else .error .outOfBounds := by
  induction entries with
  | nil => rw [minibusMatch, if_neg (by simp)]
  | cons id rest ih =>
      simp only [minibusMatch, MintId.nameAddress, ↓reduceIte, strcmp_eq_zero_iff, ih,
        List.mem_cons, exists_eq_or_imp]
      by_cases here : id.name = device.name
      · simp only [here, ↓reduceIte, true_or]
      · simp only [here, ↓reduceIte, false_or]

/-- The walk ends inside the table, with 1 for the names before the terminator alone. -/
def IdTable.MatchedRight (table : IdTable) (device : MintId) : Prop :=
  ∃ ret, minibusMatch device table.entries = .ok ret ∧
    (ret = 1 ↔ ∃ id ∈ table.named, id.name = device.name)

/-- The walk does not see the terminator: it is right exactly when it finds the name before. -/
theorem minibusMatch_right_iff (table : IdTable) (device : MintId) :
    table.MatchedRight device ↔ ∃ id ∈ table.named, id.name = device.name := by
  rw [IdTable.MatchedRight, minibusMatch_eq]
  constructor
  · rintro ⟨ret, returned, one⟩
    apply one.mp
    split at returned
    · exact (Except.ok.inj returned).symm
    · contradiction
  · rintro ⟨id, listed, same⟩
    have found : ∃ id ∈ table.entries, id.name = device.name :=
      ⟨id, List.mem_append_left _ listed, same⟩
    exact ⟨1, by rw [if_pos found], iff_of_true rfl ⟨id, listed, same⟩⟩

def peppermint : MintId :=
  ⟨[112, 101, 112, 112, 101, 114, 109, 105, 110, 116], by decide, by decide⟩

def spearmint : MintId := ⟨[115, 112, 101, 97, 114, 109, 105, 110, 116], by decide, by decide⟩

def mintIdTable : IdTable := ⟨[peppermint, spearmint], by decide⟩

theorem minibusMatch_runs_past :
    ¬∀ (table : IdTable) (device : MintId), table.MatchedRight device := by
  intro claimed
  obtain ⟨ret, returned, _⟩ := claimed mintIdTable ⟨[109, 105, 110, 116], by decide, by decide⟩
  have past : minibusMatch ⟨[109, 105, 110, 116], by decide, by decide⟩ mintIdTable.entries =
      .error .outOfBounds := rfl
  rw [past] at returned
  contradiction

end Ldd3.Mint
