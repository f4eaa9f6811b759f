/-
Machine words: the 64-bit two's-complement integers that cells, operands and answers hold.
Addition, subtraction and multiplication wrap; division rounds towards minus infinity.
-/
namespace StackMachine

/-- A 64-bit two's-complement integer. -/
abbrev Word := Int64

namespace Word

/-- The integer that the smallest word denotes. -/
def least : Int := -9223372036854775808

/-- The integer that the largest word denotes. -/
def greatest : Int := 9223372036854775807

/-- The word that denotes `i`, for `i` in range. -/
def ofInt? (i : Int) : Option Word :=
  if least ≤ i ∧ i ≤ greatest then some (Int64.ofInt i) else none

theorem least_le_toInt (w : Word) : least ≤ w.toInt := by
  have := w.le_toInt
  unfold least
  omega

theorem toInt_le_greatest (w : Word) : w.toInt ≤ greatest := by
  have := w.toInt_lt
  unfold greatest
  omega

@[simp] theorem ofInt?_toInt (w : Word) : ofInt? w.toInt = some w := by
  rw [ofInt?, if_pos ⟨w.least_le_toInt, w.toInt_le_greatest⟩, Int64.ofInt_toInt]

theorem ofInt?_eq_some {i : Int} {w : Word} : ofInt? i = some w ↔ w.toInt = i := by
  constructor
  · intro h
    unfold ofInt? at h
    split at h
    · rename_i hi
      cases h
      unfold least greatest at hi
      exact Int64.toInt_ofInt_of_le (by omega) (by omega)
    · cases h
  · rintro rfl
    exact ofInt?_toInt w

/-- The flag that logical and comparing operations leave: 1 for true, 0 for false. -/
def ofBool (b : Bool) : Word := if b then 1 else 0

/-- Division rounding towards minus infinity, undefined for a zero divisor. The truncated quotient
is one too large exactly when there is a remainder whose sign is not the divisor's. -/
def floorDiv? (a b : Word) : Option Word :=
  if b = 0 then none
  else
    let q := a / b
    let r := a % b
    some (if r ≠ 0 ∧ decide (r < 0) ≠ decide (b < 0) then q - 1 else q)

/-- `a + n`, held at the largest word. -/
def clampAdd (a : Int) (n : Nat) : Int := min (a + n) greatest

end Word

end StackMachine
