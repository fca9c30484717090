import Mathlib

/-!
# Literals

A numeral of the reals is at least two, and an index of a nonempty axis has a first
position.  Definitions name these facts, so that each of them is stated once.
-/

namespace OneShotOPD.Literals

theorem atLeastTwo_two : Nat.AtLeastTwo 2 := ⟨le_rfl⟩

theorem atLeastTwo_ten : Nat.AtLeastTwo 10 := ⟨by decide⟩

theorem atLeastTwo_twenty : Nat.AtLeastTwo 20 := ⟨by decide⟩

theorem neZero_two : NeZero 2 := ⟨by decide⟩

theorem neZero_four : NeZero 4 := ⟨by decide⟩

theorem neZero_succ (n : ℕ) : NeZero (n + 1) := ⟨n.succ_ne_zero⟩

end OneShotOPD.Literals
