import Mathlib.Data.List.GetD
import Mathlib.Tactic

/-!
A flat file given by its history: a log of writes, the newest first, each with
its position and its bytes. The second half is about a store in which two
positions may share one cell.
-/

namespace WriteLog

variable {α : Type} (blank : α)

abbrev Entry (α : Type) := Nat × List α

def covers (entry : Entry α) (position : Nat) : Bool :=
  decide (entry.1 ≤ position ∧ position < entry.1 + entry.2.length)

def Entry.value (entry : Entry α) (position : Nat) : α := entry.2.getD (position - entry.1) blank

def last (log : List (Entry α)) (position : Nat) : α :=
  match log.find? fun entry => covers entry position with
  | none => blank
  | some entry => entry.value blank position

/-- What a cell shared by two positions holds: the last write to either of them. -/
def lastShared (log : List (Entry α)) (position partner : Nat) : α :=
  match log.find? fun entry => covers entry position || covers entry partner with
  | none => blank
  | some entry =>
      if covers entry position then entry.value blank position else entry.value blank partner

/-- The last write to a position or its partner was one to the position, or it left
the partner with the same byte. -/
def Fresh (log : List (Entry α)) (position partner : Nat) : Prop :=
  ∀ entry, (log.find? fun entry => covers entry position || covers entry partner) = some entry →
    covers entry position = true ∨ entry.value blank partner = last blank log position

instance [DecidableEq α] (log : List (Entry α)) (position partner : Nat) :
    Decidable (Fresh blank log position partner) :=
  match found : log.find? fun entry => covers entry position || covers entry partner with
  | none => .isTrue fun entry same => by simp [found] at same
  | some entry =>
      decidable_of_iff (covers entry position = true ∨
        entry.value blank partner = last blank log position) <| by
        simp only [Fresh, found, Option.some.injEq, forall_eq']

theorem last_cons (entry : Entry α) (log : List (Entry α)) (position : Nat) :
    last blank (entry :: log) position =
      if covers entry position then entry.value blank position else last blank log position := by
  cases hit : covers entry position with
  | true => simp only [last, List.find?_cons, hit, ↓reduceIte]
  | false => simp only [last, List.find?_cons, hit, Bool.false_eq_true, ↓reduceIte]

theorem lastShared_cons (entry : Entry α) (log : List (Entry α)) (position partner : Nat) :
    lastShared blank (entry :: log) position partner =
      if covers entry position then entry.value blank position
      else if covers entry partner then entry.value blank partner
      else lastShared blank log position partner := by
  cases hit : covers entry position with
  | true => simp only [lastShared, List.find?_cons, hit, Bool.true_or, ↓reduceIte]
  | false =>
      cases other : covers entry partner with
      | true =>
          simp only [lastShared, List.find?_cons, hit, other, Bool.or_true, Bool.false_eq_true,
            ↓reduceIte]
      | false =>
          simp only [lastShared, List.find?_cons, hit, other, Bool.or_false, Bool.false_eq_true,
            ↓reduceIte]

theorem last_of_first_hit {log : List (Entry α)} {position partner : Nat} {entry : Entry α}
    (found : (log.find? fun entry => covers entry position || covers entry partner) = some entry)
    (hit : covers entry position = true) :
    last blank log position = entry.value blank position := by
  induction log with
  | nil => simp at found
  | cons head rest ih =>
      rw [last_cons]
      cases first : covers head position with
      | true =>
          simp only [List.find?_cons, first, Bool.true_or, Option.some.injEq] at found
          subst found
          simp only [↓reduceIte]
      | false =>
          cases other : covers head partner with
          | true =>
              simp only [List.find?_cons, first, other, Bool.or_true, Option.some.injEq] at found
              subst found
              simp only [hit, Bool.true_eq_false] at first
          | false =>
              simp only [List.find?_cons, first, other, Bool.or_false] at found
              simp only [Bool.false_eq_true, ↓reduceIte]
              exact ih found

theorem last_of_untouched {log : List (Entry α)} {position partner : Nat}
    (untouched : (log.find? fun entry => covers entry position || covers entry partner) = none) :
    last blank log position = blank := by
  have missing : (log.find? fun entry => covers entry position) = none := by
    rw [List.find?_eq_none] at untouched ⊢
    intro entry member hit
    exact untouched entry member (by simp only [hit, Bool.true_or])
  simp only [last, missing]

theorem lastShared_eq_last_iff (log : List (Entry α)) (position partner : Nat) :
    lastShared blank log position partner = last blank log position ↔
      Fresh blank log position partner := by
  cases found : log.find? fun entry => covers entry position || covers entry partner with
  | none =>
      simp only [lastShared, Fresh, found, last_of_untouched blank found, true_iff]
      intro entry impossible
      contradiction
  | some entry =>
      simp only [lastShared, Fresh, found, Option.some.injEq, forall_eq']
      cases hit : covers entry position with
      | true => simp only [↓reduceIte, last_of_first_hit blank found hit, true_or]
      | false => simp only [Bool.false_eq_true, ↓reduceIte, false_or]

end WriteLog
