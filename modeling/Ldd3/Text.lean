import Mathlib.Tactic

/-! Comparisons of the texts that a user writes into the files of a driver. -/

namespace Ldd3

/-- Strings of C without their terminator; one of the two may end in a newline more. -/
def sysfsStreq {α : Type} [DecidableEq α] (newline : α) (s1 s2 : List α) : Bool :=
  s1 == s2 || s1 == s2 ++ [newline] || s1 ++ [newline] == s2

end Ldd3
