/-
Division rounds down. The quotient of two words is put together from the truncated quotient, which rounds
towards zero, and a test of remainder and signs that takes one off where this was upwards (`RoundsUp`). Over
the integers that is the floor of the quotient (`fdiv_eq_tdiv_sub`); over words it is the same floor, wrapped
to 64 bits (`toInt_floored`), and only one pair of operands has a floor that is no word (`Overflows`).
-/
import Mathlib.Data.Rat.Floor
import StackMachine.Proofs.Expression

namespace StackMachine

/-! ## Quotients of integers -/

theorem floor_div_eq_fdiv (x y : Int) : ⌊(x : ℚ) / y⌋ = x.fdiv y := by
  obtain ⟨n, rfl | rfl⟩ := y.eq_nat_or_neg
  · rw [Int.fdiv_eq_ediv_of_nonneg x (Int.natCast_nonneg n)]
    exact Rat.floor_intCast_div_natCast x n
  · -- the sign of the divisor goes over to the dividend
    have hsign : (x : ℚ) / ((-(n : Int) : Int) : ℚ) = ((-x : Int) : ℚ) / n := by
      push_cast
      rw [div_neg, neg_div]
    rw [hsign, Rat.floor_intCast_div_natCast, ← Int.neg_fdiv_neg, Int.neg_neg,
      Int.fdiv_eq_ediv_of_nonneg _ (Int.natCast_nonneg n)]

/-- A remainder has the sign of the dividend. -/
theorem tmod_neg_iff {x y : Int} (h : x.tmod y ≠ 0) : x.tmod y < 0 ↔ x < 0 := by
  have hsign := Int.sign_tmod x y
  rw [if_neg (fun hdvd => h (Int.tmod_eq_zero_of_dvd hdvd))] at hsign
  rw [← Int.sign_eq_neg_one_iff_neg, hsign, Int.sign_eq_neg_one_iff_neg]

/-- The floor is one less than the truncated quotient if there is a remainder and the signs differ. -/
theorem fdiv_eq_tdiv_sub {x y : Int} (hy : y ≠ 0) :
    x.fdiv y = x.tdiv y - if x.tmod y ≠ 0 ∧ ¬(x < 0 ↔ y < 0) then 1 else 0 := by
  rw [Int.fdiv_eq_tdiv]
  by_cases hdvd : y ∣ x
  · simp [hdvd, Int.tmod_eq_zero_of_dvd hdvd]
  · have hrem : x.tmod y ≠ 0 := fun h => hdvd (Int.dvd_of_tmod_eq_zero h)
    rcases Int.lt_or_gt_of_ne hy with hneg | hpos
    · rw [Int.sign_eq_neg_one_of_neg hneg]
      grind
    · rw [Int.sign_eq_one_of_pos hpos]
      grind

/-- Where there is a remainder, the truncated quotient is at most half as large as the dividend. -/
theorem two_mul_natAbs_tdiv_le {x y : Int} (hrem : x.tmod y ≠ 0) : 2 * (x.tdiv y).natAbs ≤ x.natAbs := by
  rcases (show y = 0 ∨ y.natAbs = 1 ∨ 2 ≤ y.natAbs by omega) with rfl | hone | htwo
  · rw [Int.tdiv_zero]
    exact Nat.zero_le _
  · exact absurd (Int.tmod_eq_zero_of_dvd (Int.natAbs_dvd_natAbs.1 (hone ▸ Nat.one_dvd _))) hrem
  · calc 2 * (x.tdiv y).natAbs ≤ y.natAbs * (x.tdiv y).natAbs := Nat.mul_le_mul_right _ htwo
      _ = y.natAbs * (x.natAbs / y.natAbs) := congrArg _ (Int.natAbs_tdiv x y)
      _ ≤ x.natAbs := Nat.mul_div_le _ _

namespace Word

/-! ## Quotients of words -/

/-- To cut off the fraction of `a / b` is to round it upwards. -/
def RoundsUp (a b : Word) : Prop := a % b ≠ 0 ∧ ¬(a < 0 ↔ b < 0)

instance (a b : Word) : Decidable (RoundsUp a b) := inferInstanceAs (Decidable (_ ∧ _))

/-- The smallest word divided by -1: one more than the largest word. -/
def Overflows (a b : Word) : Prop := a = Int64.minValue ∧ b = -1

theorem toInt_eq_zero {w : Word} : w.toInt = 0 ↔ w = 0 := by
  rw [← Int64.toInt_inj, Int64.toInt_zero]

theorem neg_iff_toInt {w : Word} : w < 0 ↔ w.toInt < 0 := by
  rw [Int64.lt_iff_toInt_lt, Int64.toInt_zero]

theorem roundsUp_iff {a b : Word} :
    RoundsUp a b ↔ a.toInt.tmod b.toInt ≠ 0 ∧ ¬(a.toInt < 0 ↔ b.toInt < 0) := by
  unfold RoundsUp
  rw [ne_eq, ← toInt_eq_zero, Int64.toInt_mod, neg_iff_toInt, neg_iff_toInt]

/-- It does not matter whether the sign of the dividend is tested or that of the remainder. -/
theorem floorDiv?_eq_some {a b : Word} (hb : b ≠ 0) :
    floorDiv? a b = some (if RoundsUp a b then a / b - 1 else a / b) := by
  have htest : (a % b ≠ 0 ∧ decide (a % b < 0) ≠ decide (b < 0)) ↔ RoundsUp a b := by
    unfold RoundsUp
    rw [ne_eq (decide _), decide_eq_decide]
    refine and_congr_right fun hrem => ?_
    rw [ne_eq, ← toInt_eq_zero, Int64.toInt_mod] at hrem
    rw [neg_iff_toInt (w := a % b), Int64.toInt_mod, tmod_neg_iff hrem, ← neg_iff_toInt]
  unfold floorDiv?
  rw [if_neg hb]
  simp only [htest]

theorem floorDiv?_eq_none {a b : Word} : floorDiv? a b = none ↔ b = 0 := by
  constructor
  · intro h
    by_contra hb
    rw [floorDiv?_eq_some hb] at h
    cases h
  · rintro rfl
    rfl

/-- Where one is taken off, the truncated quotient is far from the smallest word. -/
theorem RoundsUp.toInt_sub_one {a b : Word} (h : RoundsUp a b) : (a / b - 1).toInt = (a / b).toInt - 1 := by
  have hhalf := two_mul_natAbs_tdiv_le (roundsUp_iff.1 h).1
  have hle := a.le_toInt
  have hlt := a.toInt_lt
  rw [Int64.toInt_sub, Int64.toInt_div, Int.bmod_sub_bmod, Int64.toInt_one,
    Int.bmod_eq_of_le (by omega) (by omega), Int.bmod_eq_of_le (by omega) (by omega)]

/-- The floor of the quotient, wrapped. -/
theorem toInt_floored {a b : Word} (hb : b ≠ 0) :
    (if RoundsUp a b then a / b - 1 else a / b).toInt = (a.toInt.fdiv b.toInt).bmod (2 ^ 64) := by
  rw [fdiv_eq_tdiv_sub (fun h => hb (toInt_eq_zero.1 h))]
  simp only [← roundsUp_iff]
  split
  · rw [Int64.toInt_sub, Int64.toInt_div, Int.bmod_sub_bmod, Int64.toInt_one]
  · rw [Int64.toInt_div, Int.sub_zero]

theorem toInt_div_of_not_overflows {a b : Word} (h : ¬Overflows a b) :
    (a / b).toInt = a.toInt.tdiv b.toInt := by
  by_cases ha : a = Int64.minValue
  · exact Int64.toInt_div_of_ne_right a b fun hb => h ⟨ha, hb⟩
  · exact Int64.toInt_div_of_ne_left a b ha

theorem toInt_floored_of_not_overflows {a b : Word} (hb : b ≠ 0) (h : ¬Overflows a b) :
    (if RoundsUp a b then a / b - 1 else a / b).toInt = a.toInt.fdiv b.toInt := by
  rw [fdiv_eq_tdiv_sub (fun h => hb (toInt_eq_zero.1 h))]
  simp only [← roundsUp_iff]
  split
  · rename_i hup
    rw [hup.toInt_sub_one, toInt_div_of_not_overflows h]
  · rw [toInt_div_of_not_overflows h, Int.sub_zero]

theorem Overflows.floored {a b : Word} (h : Overflows a b) :
    (if RoundsUp a b then a / b - 1 else a / b) = Int64.minValue ∧ a.toInt.fdiv b.toInt = 2 ^ 63 := by
  obtain ⟨rfl, rfl⟩ := h
  decide

end Word

/-! ## Dividing -/

/-- Division is the floor of the quotient: there is no result exactly for a zero divisor, and any other
result is the floor of the rational quotient, wrapped to 64 bits. The floor itself is a word, and so the
result, for all operands but the smallest word and -1, whose quotient wraps to the smallest word. The result
is the truncated quotient, or one less, in words as in integers, where there is a remainder and the signs
differ. And this is what the machine does with the two values on top of its stack: it pushes the result in
their place, or fails for want of one. -/
theorem division_floors (a b : Word) :
    (Word.floorDiv? a b = none ↔ b = 0) ∧
    (b ≠ 0 → ∃ q, Word.floorDiv? a b = some q ∧
      q.toInt = ⌊(a.toInt : ℚ) / b.toInt⌋.bmod (2 ^ 64) ∧
      (q.toInt = ⌊(a.toInt : ℚ) / b.toInt⌋ ↔ ¬Word.Overflows a b) ∧
      (Word.Overflows a b → q = Int64.minValue) ∧
      (Word.RoundsUp a b → q = a / b - 1 ∧ q.toInt = (a / b).toInt - 1) ∧
      (¬Word.RoundsUp a b → q = a / b)) ∧
    ∀ (labels : Labels) (m : Machine), m.memory.Contains m.sp → m.memory.Contains (m.sp - 1) →
      m.memory.get (m.sp - 1) = a → m.memory.get m.sp = b →
      (b = 0 → (Operation.binary .divi).execute labels m = .error .divisionByZero { m with sp := m.sp - 2 }) ∧
      ∀ q, Word.floorDiv? a b = some q →
        (Operation.binary .divi).execute labels m =
          .ok .nothing { m with memory := m.memory.set (m.sp - 1) q, sp := m.sp - 1 } := by
  refine ⟨Word.floorDiv?_eq_none, fun hb => ?_, ?_⟩
  · refine ⟨_, Word.floorDiv?_eq_some hb, ?_⟩
    rw [floor_div_eq_fdiv]
    refine ⟨Word.toInt_floored hb, ⟨fun hexact hover => ?_, Word.toInt_floored_of_not_overflows hb⟩,
      fun hover => (Word.Overflows.floored hover).1, fun hup => ?_, fun hup => if_neg hup⟩
    · obtain ⟨hwrapped, hfloor⟩ := Word.Overflows.floored hover
      rw [hwrapped, hfloor] at hexact
      exact absurd hexact (by decide)
    · rw [if_pos hup]
      exact ⟨rfl, Word.RoundsUp.toInt_sub_one hup⟩
  · rintro labels m hright hleft rfl rfl
    refine ⟨fun hb => ?_, fun q hq => Operation.execute_binary hright hleft hq⟩
    rw [Operation.execute_binary_zero hright hleft (BinaryOp.eval?_eq_none.2 ⟨rfl, hb⟩), Int.sub_sub]
    rfl

/-- A machine with -7 below 2. -/
def sevenBelowTwo : Machine where
  memory := ⟨#[-7, 2]⟩
  sp := 1

theorem division_floors_sevenBelowTwo :
    (∃ q, Word.floorDiv? (-7) 2 = some q ∧ q.toInt = ⌊((-7 : Word).toInt : ℚ) / (2 : Word).toInt⌋) ∧
    (Operation.binary .divi).execute .empty sevenBelowTwo = .ok .nothing { memory := ⟨#[-4, 2]⟩, sp := 0 } := by
  obtain ⟨-, hquotient, hmachine⟩ := division_floors (-7) 2
  obtain ⟨q, hq, -, hexact, -⟩ := hquotient (by decide)
  refine ⟨⟨q, hq, hexact.2 (fun h => absurd h.1 (by decide))⟩, ?_⟩
  exact (hmachine .empty sevenBelowTwo (by decide) (by decide) rfl rfl).2 (-4) (by decide)

end StackMachine
