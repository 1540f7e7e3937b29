import Mathlib.Tactic
import Ldd3.Lib.CInt
import Ldd3.Lib.StepMachine

/-!
`/proc/scull_hlist` (`ch04_debug/proc_seq_iter.c`): a list of items that the seq_file core walks
through with the iterator of the module.
-/

namespace Ldd3.Debug

open CInt (int32)
open StepMachine

structure Item where
  id : Nat
  value : Nat
  name : String
  deriving DecidableEq, Repr

/-- What a local `int` may contain before anything is assigned to it. -/
abbrev IntJunk := { n : Int // CInt.FitsInt n }

/-- The loop of `scull_hlist_start`. A pointer to a node is the list from there on, and `NULL` is
the empty list. -/
def scullHlistStart (n : Int) (pos : Nat) : List Item → List Item
  | [] => []
  | item :: rest => if n = pos then item :: rest else scullHlistStart (int32 (n + 1)) pos rest

def scullHlistNext (v : List Item) (pos : Nat) : List Item × Nat := (v.tail, pos + 1)

def scullHlistShow (item : Item) : String :=
  "id=" ++ toString item.id ++ " value=" ++ toString item.value ++ " name=" ++ item.name ++ "\n"

structure HlistLock where
  held : Bool
  acquired : Nat
  released : Nat
  deriving DecidableEq, Repr

def HlistLock.unheld : HlistLock := { held := false, acquired := 0, released := 0 }

/-- A mutex is not recursive: its holder waits for ever. -/
def HlistLock.lock (lock : HlistLock) : Option HlistLock :=
  if lock.held then none else some { lock with held := true, acquired := lock.acquired + 1 }

def HlistLock.unlock (lock : HlistLock) : HlistLock :=
  { lock with held := false, released := lock.released + 1 }

inductive SeqPoint
  | idle
  | started (v : List Item)
  | shown (v : List Item)
  deriving DecidableEq, Repr

/-- An open file: where its iterator is, the saved position, and the items whose records have
been put into the buffer. -/
structure SeqSys where
  point : SeqPoint
  index : Nat
  listed : List Item
  lock : HlistLock

def SeqSys.opened : SeqSys := { point := .idle, index := 0, listed := [], lock := .unheld }

def SeqSys.text (sys : SeqSys) : String := String.join (sys.listed.map scullHlistShow)

inductive SeqAction
  | start (n : IntJunk)
  | showItem
  | next
  | stop
  deriving DecidableEq, Repr

/-- The calls of the seq_file core. It stops at the end of the list and, with a full buffer,
before any item; a record that does not fit is shown again after the next start. -/
def seqStep (items : List Item) (sys : SeqSys) : SeqAction → Option SeqSys
  | .start n =>
      match sys.point with
      | .idle => some { sys with point := .started (scullHlistStart n.1 sys.index items) }
      | _ => none
  | .showItem =>
      match sys.point with
      | .started (item :: rest) =>
          some { sys with point := .shown (item :: rest), listed := sys.listed ++ [item] }
      | _ => none
  | .next =>
      match sys.point with
      | .shown v =>
          let (v, index) := scullHlistNext v sys.index
          some { sys with point := .started v, index := index }
      | _ => none
  | .stop =>
      match sys.point with
      | .started _ => some { sys with point := .idle, lock := sys.lock.unlock }
      | _ => none

def exitLoop : List Item → HlistLock → Option HlistLock
  | [], lock => some lock
  | _ :: rest, lock => (lock.lock).bind (exitLoop rest)

def scullSeqIterExit (items : List Item) (lock : HlistLock) : Option HlistLock :=
  (exitLoop items lock).map HlistLock.unlock

/-! What the file is to be. -/

def SeqSys.progress (sys : SeqSys) : Nat :=
  match sys.point with
  | .shown _ => sys.index + 1
  | _ => sys.index

/-- The records so far are those of the first items, each once, the iterator is at the saved
position, and the text of a list that has been walked through is that of all its items. -/
structure ListsInOrder (items : List Item) (sys : SeqSys) : Prop where
  listed : sys.listed = items.take sys.progress
  cursor : ∀ v, sys.point = .started v ∨ sys.point = .shown v → v = items.drop sys.index
  whole : sys.point = .started [] → sys.text = String.join (items.map scullHlistShow)

/-- The lock is held from start to stop only, and released as often as it was acquired. -/
structure LockPaired (sys : SeqSys) : Prop where
  idle : sys.point = .idle → sys.lock.held = false ∧ sys.lock.acquired = sys.lock.released
  iterating : sys.point ≠ .idle →
    sys.lock.held = true ∧ sys.lock.acquired = sys.lock.released + 1

def ExitBalanced (items : List Item) : Prop :=
  ∃ lock, scullSeqIterExit items .unheld = some lock ∧ lock.held = false ∧
    lock.acquired = lock.released

structure SeqIterCorrect (items : List Item) : Prop where
  start : ∀ (n : IntJunk) (pos : Nat), scullHlistStart n.1 pos items = items.drop pos
  next : ∀ pos < items.length, scullHlistNext (items.drop pos) pos = (items.drop (pos + 1), pos + 1)
  lists : ∀ actions, Always (seqStep items) (ListsInOrder items) .opened actions
  locks : ∀ actions, Always (seqStep items) LockPaired .opened actions
  exit : ExitBalanced items

section Start

variable {n : Int} {pos : Nat} {items : List Item}

theorem scullHlistStart_found (n : Int) (pos : Nat) (items : List Item)
    (fits : CInt.FitsInt n) :
    ∃ found ≤ items.length, scullHlistStart n pos items = items.drop found ∧
      (∀ earlier < found, int32 (n + earlier) ≠ pos) ∧
      (found < items.length → int32 (n + found) = pos) := by
  induction items generalizing n with
  | nil => exact ⟨0, le_rfl, rfl, by omega, by intro absurd; contradiction⟩
  | cons item rest ih =>
      have counter : ∀ count : Nat, int32 (int32 (n + 1) + count) = int32 (n + (count + 1 : Nat)) := by
        intro count
        simp only [int32]
        omega
      have first : int32 (n + (0 : Nat)) = n := by
        rw [Int.natCast_zero, Int.add_zero, CInt.int32_of_fits fits]
      by_cases here : n = pos
      · refine ⟨0, Nat.zero_le _, if_pos here, by omega, ?_⟩
        intro _
        exact first.trans here
      · obtain ⟨found, within, starts, earlier, hit⟩ := ih (int32 (n + 1)) (CInt.int32_fits _)
        refine ⟨found + 1, Nat.succ_le_succ within, ?_, ?_, ?_⟩
        · rw [scullHlistStart, if_neg here, starts, List.drop_succ_cons]
        · intro index before
          cases index with
          | zero => rwa [first]
          | succ index =>
              rw [← counter]
              exact earlier index (Nat.lt_of_succ_lt_succ before)
        · intro inside
          rw [← counter]
          exact hit (Nat.lt_of_succ_lt_succ inside)

def StartsRight (items : List Item) (n : Int) (pos : Nat) : Prop :=
  (pos < items.length → n = 0 ∧ pos < 2147483648) ∧
    (items.length ≤ pos → ∀ index < items.length, int32 (n + index) ≠ pos)

theorem scullHlistStart_eq_drop_iff (fits : CInt.FitsInt n) :
    scullHlistStart n pos items = items.drop pos ↔ StartsRight items n pos := by
  obtain ⟨found, within, starts, earlier, hit⟩ := scullHlistStart_found n pos items fits
  have drops : items.drop found = items.drop pos ↔ found = min pos items.length := by
    constructor
    · intro same
      have lengths := congrArg List.length same
      rw [List.length_drop, List.length_drop] at lengths
      omega
    · rintro rfl
      rw [List.drop_eq_drop_iff]
      omega
  obtain ⟨low, high⟩ := fits
  rw [starts, drops, StartsRight]
  constructor
  · intro first
    refine ⟨?_, ?_⟩
    · intro inside
      have here : found = pos := by omega
      have counted := hit (here ▸ inside)
      rw [here, int32] at counted
      omega
    · intro beyond index indexInside
      exact earlier index (by omega)
  · rintro ⟨right, never⟩
    by_cases inside : pos < items.length
    · obtain ⟨rfl, small⟩ := right inside
      have counted : int32 (0 + pos) = pos := by
        rw [int32]
        omega
      by_contra other
      obtain before | after : found < pos ∨ pos < found := by omega
      · have wrong := hit (before.trans inside)
        rw [int32] at wrong
        omega
      · exact earlier pos after counted
    · by_contra other
      exact never (by omega) found (by omega) (hit (by omega))

theorem scullHlistStart_right_iff (fits : CInt.FitsInt n) :
    (∀ pos, scullHlistStart n pos items = items.drop pos) ↔
      items = [] ∨ n = 0 ∧ items.length ≤ 2147483648 := by
  simp only [scullHlistStart_eq_drop_iff fits]
  constructor
  · intro right
    by_cases empty : items = []
    · exact .inl empty
    · have zero := ((right 0).1 (List.length_pos_iff.mpr empty)).1
      refine .inr ⟨zero, ?_⟩
      by_contra long
      have overflow := ((right 2147483648).1 (by omega)).2
      contradiction
  · rintro (rfl | ⟨rfl, short⟩) pos
    · exact ⟨fun inside => absurd inside (Nat.not_lt_zero pos),
        fun _ index inside => absurd inside (Nat.not_lt_zero index)⟩
    · refine ⟨fun inside => ⟨rfl, by omega⟩, ?_⟩
      intro beyond index inside
      rw [int32]
      omega

end Start

section Listing

variable {items : List Item} {sys next : SeqSys} {action : SeqAction}

def StartsAt (items : List Item) (sys : SeqSys) : SeqAction → Prop
  | .start n => StartsRight items n.1 sys.index
  | .showItem | .next | .stop => True

theorem seqStep_start {n : IntJunk} (taken : seqStep items sys (.start n) = some next) :
    sys.point = .idle ∧
      next = { sys with point := .started (scullHlistStart n.1 sys.index items) } := by
  simp only [seqStep] at taken
  split at taken
  · rename_i idle
    rw [Option.some.injEq] at taken
    exact ⟨idle, taken.symm⟩
  · contradiction

theorem seqStep_showItem (taken : seqStep items sys .showItem = some next) :
    ∃ item rest, sys.point = .started (item :: rest) ∧
      next = { sys with point := .shown (item :: rest), listed := sys.listed ++ [item] } := by
  simp only [seqStep] at taken
  split at taken
  · rename_i item rest started
    rw [Option.some.injEq] at taken
    exact ⟨item, rest, started, taken.symm⟩
  · contradiction

theorem seqStep_next (taken : seqStep items sys .next = some next) :
    ∃ v, sys.point = .shown v ∧ next = { sys with point := .started v.tail, index := sys.index + 1 } := by
  simp only [seqStep] at taken
  split at taken
  · rename_i v shown
    rw [Option.some.injEq] at taken
    exact ⟨v, shown, taken.symm⟩
  · contradiction

theorem seqStep_stop (taken : seqStep items sys .stop = some next) :
    ∃ v, sys.point = .started v ∧ next = { sys with point := .idle, lock := sys.lock.unlock } := by
  simp only [seqStep] at taken
  split at taken
  · rename_i v started
    rw [Option.some.injEq] at taken
    exact ⟨v, started, taken.symm⟩
  · contradiction

theorem listsInOrder_started {v : List Item} (started : sys.point = .started v)
    (listed : sys.listed = items.take sys.index) (cursor : v = items.drop sys.index) :
    ListsInOrder items sys where
  listed := by rw [listed, SeqSys.progress, started]
  cursor := by
    intro other
    rintro (here | shown)
    · rw [started, SeqPoint.started.injEq] at here
      exact here ▸ cursor
    · rw [started] at shown
      contradiction
  whole := by
    intro ended
    rw [started, SeqPoint.started.injEq] at ended
    rw [ended] at cursor
    rw [SeqSys.text, listed, List.take_of_length_le (List.drop_eq_nil_iff.mp cursor.symm)]

theorem ListsInOrder.step_iff (good : ListsInOrder items sys)
    (taken : seqStep items sys action = some next) :
    ListsInOrder items next ↔ StartsAt items sys action := by
  have listed := good.listed
  rw [SeqSys.progress] at listed
  cases action with
  | start n =>
      obtain ⟨idle, rfl⟩ := seqStep_start taken
      rw [idle] at listed
      rw [StartsAt, ← scullHlistStart_eq_drop_iff n.2]
      constructor
      · intro started
        exact started.cursor _ (.inl rfl)
      · intro cursor
        exact listsInOrder_started rfl listed cursor
  | showItem =>
      obtain ⟨item, rest, started, rfl⟩ := seqStep_showItem taken
      have cursor := good.cursor _ (.inl started)
      rw [started] at listed
      have first : items[sys.index]? = some item := by
        rw [← List.head?_drop, ← cursor, List.head?_cons]
      rw [StartsAt, iff_true]
      refine ⟨?_, ?_, ?_⟩
      · rw [SeqSys.progress, List.take_add_one, first, listed]
        rfl
      · rintro v (absurd | shown)
        · contradiction
        · rw [SeqPoint.shown.injEq] at shown
          exact shown ▸ cursor
      · intro absurd
        contradiction
  | next =>
      obtain ⟨v, shown, rfl⟩ := seqStep_next taken
      have cursor := good.cursor v (.inr shown)
      rw [shown] at listed
      rw [StartsAt, iff_true]
      apply listsInOrder_started rfl listed
      rw [cursor, List.tail_drop]
  | stop =>
      obtain ⟨v, started, rfl⟩ := seqStep_stop taken
      rw [started] at listed
      rw [StartsAt, iff_true]
      refine ⟨listed, ?_, ?_⟩
      · rintro other (absurd | absurd)
        · contradiction
        · contradiction
      · intro absurd
        contradiction

theorem listsInOrder_opened : ListsInOrder items .opened where
  listed := rfl
  cursor := by
    intro v
    rintro (started | shown)
    · contradiction
    · contradiction
  whole := by
    intro started
    contradiction

end Listing

section Locks

variable {items : List Item} {sys next : SeqSys} {action : SeqAction}

def NoStart (_ : SeqSys) : SeqAction → Prop
  | .start _ => False
  | .showItem | .next | .stop => True

theorem LockPaired.step_iff (paired : LockPaired sys)
    (taken : seqStep items sys action = some next) : LockPaired next ↔ NoStart sys action := by
  cases action with
  | start n =>
      obtain ⟨idle, rfl⟩ := seqStep_start taken
      rw [NoStart, iff_false]
      intro locked
      have held := (locked.iterating SeqPoint.noConfusion).1
      have free := (paired.idle idle).1
      exact absurd (free.symm.trans held) Bool.noConfusion
  | showItem =>
      obtain ⟨item, rest, started, rfl⟩ := seqStep_showItem taken
      have held := paired.iterating (started ▸ SeqPoint.noConfusion)
      rw [NoStart, iff_true]
      exact ⟨fun absurd => SeqPoint.noConfusion absurd, fun _ => held⟩
  | next =>
      obtain ⟨v, shown, rfl⟩ := seqStep_next taken
      have held := paired.iterating (shown ▸ SeqPoint.noConfusion)
      rw [NoStart, iff_true]
      exact ⟨fun absurd => SeqPoint.noConfusion absurd, fun _ => held⟩
  | stop =>
      obtain ⟨v, started, rfl⟩ := seqStep_stop taken
      have held := paired.iterating (started ▸ SeqPoint.noConfusion)
      rw [NoStart, iff_true]
      exact ⟨fun _ => ⟨rfl, held.2⟩, fun iterating => absurd rfl iterating⟩

theorem lockPaired_opened : LockPaired .opened where
  idle := fun _ => ⟨rfl, rfl⟩
  iterating := fun iterating => absurd rfl iterating

/-- The second item waits for the lock that the first one took. -/
theorem exitBalanced_iff : ExitBalanced items ↔ items.length = 1 := by
  constructor
  · rintro ⟨lock, exits, -, balanced⟩
    rcases items with _ | ⟨first, _ | ⟨second, rest⟩⟩
    · rw [scullSeqIterExit, exitLoop, Option.map_some, Option.some.injEq] at exits
      subst exits
      contradiction
    · rfl
    · contradiction
  · intro single
    obtain ⟨item, rfl⟩ := List.length_eq_one_iff.mp single
    exact ⟨_, rfl, rfl, rfl⟩

end Locks

theorem seq_lists_iff (items : List Item) (actions : List SeqAction) :
    Always (seqStep items) (ListsInOrder items) .opened actions ↔
      Meets (seqStep items) (StartsAt items) .opened actions := by
  have initial : ListsInOrder items .opened := listsInOrder_opened
  apply always_iff_meets_of_good _ _ actions initial initial
  · intro state action next _ _ _ good
    exact good
  · intro state action next _ good taken
    exact good.step_iff taken

theorem seq_locks_iff (items : List Item) (actions : List SeqAction) :
    Always (seqStep items) LockPaired .opened actions ↔
      Meets (seqStep items) NoStart .opened actions := by
  apply always_iff_meets_of_good _ _ actions lockPaired_opened lockPaired_opened
  · intro state action next _ _ _ paired
    exact paired
  · intro state action next _ paired taken
    exact paired.step_iff taken

theorem not_seqIterCorrect (items : List Item) : ¬SeqIterCorrect items := by
  intro correct
  have junk : IntJunk := ⟨0, by decide⟩
  have started := (seq_locks_iff items [.start junk]).mp (correct.locks _)
  exact (started _ rfl).1

/-- No list is iterated with the lock held. The rest of what is promised holds exactly when the
counter happens to start at zero, and the exit is right for a single item. -/
theorem seq_iter_correct_never (items : List Item) :
    ¬SeqIterCorrect items ∧
      (∀ n : IntJunk, (∀ pos, scullHlistStart n.1 pos items = items.drop pos) ↔
        items = [] ∨ n.1 = 0 ∧ items.length ≤ 2147483648) ∧
      (∀ pos, scullHlistNext (items.drop pos) pos = (items.drop (pos + 1), pos + 1)) ∧
      (∀ actions, Always (seqStep items) (ListsInOrder items) .opened actions ↔
        Meets (seqStep items) (StartsAt items) .opened actions) ∧
      (∀ actions, Always (seqStep items) LockPaired .opened actions ↔
        Meets (seqStep items) NoStart .opened actions) ∧
      (ExitBalanced items ↔ items.length = 1) := by
  refine ⟨not_seqIterCorrect items, ?_, ?_, seq_lists_iff items, seq_locks_iff items,
    exitBalanced_iff⟩
  · intro n
    exact scullHlistStart_right_iff n.2
  · intro pos
    rw [scullHlistNext, List.tail_drop]

def demoItem : Item := { id := 0, value := 2000, name := "hitem0" }

/-- With a counter that starts at one, the first item is not found, and the lock is not held. -/
theorem seq_iter_demo_fails :
    scullHlistStart 1 0 [demoItem] = [] ∧
      (∀ next, seqStep [demoItem] .opened (.start ⟨1, by decide⟩) = some next →
        next.lock.held = false) ∧
      ¬SeqIterCorrect [demoItem] := by
  refine ⟨rfl, ?_, not_seqIterCorrect _⟩
  rintro next ⟨⟩
  rfl

end Ldd3.Debug
