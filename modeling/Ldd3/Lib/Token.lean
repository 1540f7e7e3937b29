import Mathlib.Tactic

/-!
A token that at most one process holds at a time, read off the points of the processes; nobody
holds it while it is somewhere else.
-/

namespace Token

variable {Pid Point : Type} {holds : Point → Bool} {points : Pid → Point}

def HeldBy (holds : Point → Bool) (points : Pid → Point) (holder : Option Pid) : Prop :=
  ∀ pid, holds (points pid) = true ↔ holder = some pid

theorem HeldBy.exclusive {holder : Option Pid} (held : HeldBy holds points holder)
    {first second : Pid} (firstHolds : holds (points first) = true)
    (secondHolds : holds (points second) = true) : first = second := by
  have same := ((held first).mp firstHolds).symm.trans ((held second).mp secondHolds)
  exact Option.some.inj same

theorem HeldBy.exists_iff {holder : Option Pid} (held : HeldBy holds points holder) :
    (∃ pid, holds (points pid) = true) ↔ holder ≠ none := by
  constructor
  · rintro ⟨pid, here⟩
    rw [(held pid).mp here]
    exact Option.some_ne_none pid
  · intro some
    obtain ⟨pid, here⟩ := Option.ne_none_iff_exists'.mp some
    exact ⟨pid, (held pid).mpr here⟩

variable [DecidableEq Pid] {pid : Pid} {point : Point}

theorem HeldBy.move {holder : Option Pid} (held : HeldBy holds points holder)
    (same : holds point = holds (points pid)) :
    HeldBy holds (Function.update points pid point) holder := by
  intro other
  by_cases here : other = pid
  · rw [here, Function.update_self, same]
    exact held pid
  · rw [Function.update_of_ne here]
    exact held other

theorem HeldBy.take (free : HeldBy holds points none) (taken : holds point = true) :
    HeldBy holds (Function.update points pid point) (some pid) := by
  intro other
  by_cases here : other = pid
  · rw [here, Function.update_self]
    exact iff_of_true taken rfl
  · rw [Function.update_of_ne here, free other]
    exact iff_of_false (Option.some_ne_none other).symm fun same => here (Option.some.inj same).symm

theorem HeldBy.give (held : HeldBy holds points (some pid)) (given : holds point = false) :
    HeldBy holds (Function.update points pid point) none := by
  intro other
  by_cases here : other = pid
  · rw [here, Function.update_self, given]
    exact iff_of_false Bool.false_ne_true (Option.some_ne_none pid).symm
  · rw [Function.update_of_ne here, held other]
    exact iff_of_false (fun same => here (Option.some.inj same).symm) (Option.some_ne_none other).symm

end Token
