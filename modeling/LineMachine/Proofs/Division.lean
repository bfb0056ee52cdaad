/-
**Division: quotients truncated toward zero, and their remainders.**

The quotient of two cells is the exact one, which is a fraction, truncated toward zero.  It is a
cell again unless the lowest cell is divided by minus one; that quotient lies just beyond the cells
and wraps to the lowest one.  The remainder is what the exact quotient leaves of the left operand,
so it never has to be wrapped, and it has the sign of that operand.  Together the two give the left
operand back, in the arithmetic of cells even where the quotient has wrapped.

Main definitions:

* `LineMachine.truncate` — **a fraction truncated toward zero**.

Main results:

* `LineMachine.truncate_div` — a quotient of whole numbers, truncated;
* `LineMachine.Cell.toInt_div_eq`, `LineMachine.Cell.wrap_div_mul_add_mod` — quotients of cells;
* `LineMachine.Machine.dispatch_div_mod` — **what dividing leaves on the data stack**.
-/

import LineMachine.Proofs.Postfix
import Mathlib.Data.Rat.Floor

set_option relaxedAutoImplicit false
set_option autoImplicit false

namespace LineMachine

/-! ### Fractions -/

/-- **A fraction truncated toward zero**: the last whole number between zero and it. -/
def truncate (x : ℚ) : ℤ := if 0 ≤ x then ⌊x⌋ else ⌈x⌉

theorem truncate_div_of_pos (a : ℤ) {b : ℤ} (hb : 0 < b) : truncate ((a : ℚ) / b) = a.tdiv b := by
  obtain ⟨d, rfl⟩ := Int.eq_ofNat_of_zero_le hb.le
  have hd : (0 : ℚ) < d := by exact_mod_cast hb
  unfold truncate
  rw [Int.cast_natCast]
  by_cases ha : 0 ≤ a
  · have hx : 0 ≤ (a : ℚ) / d := div_nonneg (by exact_mod_cast ha) hd.le
    rw [if_pos hx, Rat.floor_intCast_div_natCast, Int.tdiv_eq_ediv_of_nonneg ha]
  · have hneg : a < 0 := Int.not_le.1 ha
    have hx : ¬ 0 ≤ (a : ℚ) / d := not_le.2 (div_neg_of_neg_of_pos (by exact_mod_cast hneg) hd)
    rw [if_neg hx, Rat.ceil_intCast_div_natCast, ← Int.tdiv_eq_ediv_of_nonneg (by omega),
      Int.neg_tdiv, Int.neg_neg]

/-- **The quotient of whole numbers**, truncated toward zero. -/
theorem truncate_div (a : ℤ) {b : ℤ} (hb : b ≠ 0) : truncate ((a : ℚ) / b) = a.tdiv b := by
  rcases lt_or_gt_of_ne hb with hneg | hpos
  · have hpos : 0 < -b := Int.neg_pos_of_neg hneg
    rw [← Int.neg_tdiv_neg, ← truncate_div_of_pos (-a) hpos, Int.cast_neg, Int.cast_neg,
      neg_div_neg_eq]
  · exact truncate_div_of_pos a hpos

/-! ### Quotients of cells -/

namespace Cell

variable {a b : Cell}

theorem toInt_ne_zero (hb : b ≠ 0) : b.toInt ≠ 0 := fun h => hb (toInt_eq_zero_iff.1 h)

/-- **The quotient of two cells** is the truncated one, unless it lies beyond the cells. -/
theorem toInt_div_eq (h : ¬ (a = Int32.minValue ∧ b = -1)) :
    (a / b).toInt = a.toInt.tdiv b.toInt := by
  by_cases ha : a = Int32.minValue
  · exact Int32.toInt_div_of_ne_right a b fun hb => h ⟨ha, hb⟩
  · exact Int32.toInt_div_of_ne_left a b ha

/-- The lowest cell over minus one wraps to itself. -/
theorem minValue_div_neg_one : (Int32.minValue / -1 : Cell) = Int32.minValue := by decide

/-- A remainder is less than the divisor, whatever their signs. -/
theorem abs_toInt_mod_lt (hb : b ≠ 0) : |(a % b).toInt| < |b.toInt| := by
  have hpos : 0 < b.toInt.natAbs := Int.natAbs_pos.2 (toInt_ne_zero hb)
  have hlt : (a.toInt.tmod b.toInt).natAbs < b.toInt.natAbs := by
    rw [Int.natAbs_tmod]
    exact Nat.mod_lt _ hpos
  rw [Int32.toInt_mod, Int.abs_eq_natAbs, Int.abs_eq_natAbs]
  exact_mod_cast hlt

/-- A remainder has the sign of the left operand, or there is none. -/
theorem mod_eq_zero_or_sign : a % b = 0 ∨ (a % b).toInt.sign = a.toInt.sign := by
  have hsign := Int.sign_tmod a.toInt b.toInt
  rw [← Int32.toInt_mod] at hsign
  split at hsign
  · exact .inl (toInt_eq_zero_iff.1 (Int.sign_eq_zero_iff_zero.1 hsign))
  · exact .inr hsign

/-- **The quotient and the remainder give the left operand back**, even where the quotient has
wrapped. -/
theorem wrap_div_mul_add_mod (a b : Cell) :
    wrap ((a / b).toInt * b.toInt + (a % b).toInt) = a := by
  have hquotient : wrap (a / b).toInt = wrap (a.toInt.tdiv b.toInt) := by
    rw [wrap_toInt, wrap_tdiv_toInt]
  calc wrap ((a / b).toInt * b.toInt + (a % b).toInt)
      = wrap (a.toInt.tdiv b.toInt * b.toInt + a.toInt.tmod b.toInt) := by
        rw [wrap_add, wrap_mul, hquotient, ← wrap_mul, Int32.toInt_mod, ← wrap_add]
    _ = wrap a.toInt := by rw [Int.tdiv_mul_add_tmod]
    _ = a := wrap_toInt a

end Cell

/-! ### Dividing on the data stack -/

namespace Machine

variable {m : Machine} {below : Stack Cell} {a b : Cell}

/-- An operator takes two cells off the data stack, the right operand first. -/
theorem dispatch_operator (o : Operator) (hdata : m.data = (below.push a).push b) :
    m.dispatch o.slot =
      match o.apply a b with
      | some c => .next { m with data := below.push c }
      | none =>
          .halt (.divisionByZero (m.diagnose "division by zero")) { m with data := below } := by
  rw [dispatch_of_act o.slot_lt o.ofSlot_slot]
  cases happly : o.apply a b with
  | some c => simp only [perform, hdata, Stack.push, happly]
  | none => simp only [perform, hdata, Stack.push, happly]

/-- **What dividing leaves on the data stack.**  The remainder is what the truncated quotient leaves
of the left operand; it is less than the divisor and has the sign of the left operand.  The quotient
is the truncated one, unless the lowest cell is divided by minus one, and with the remainder it
gives the left operand back.  By zero neither is formed. -/
theorem dispatch_div_mod (hdata : m.data = (below.push a).push b) :
    (b ≠ 0 → ∃ (q r : Cell) (t : Int),
      m.dispatch Operator.div.slot = .next { m with data := below.push q } ∧
      m.dispatch Operator.mod.slot = .next { m with data := below.push r } ∧
      t = truncate (a.toInt / b.toInt) ∧
      r.toInt = a.toInt - b.toInt * t ∧
      |r.toInt| < |b.toInt| ∧
      (r = 0 ∨ r.toInt.sign = a.toInt.sign) ∧
      (¬ (a.toInt = -Cell.bound ∧ b.toInt = -1) → q.toInt = t) ∧
      (a.toInt = -Cell.bound ∧ b.toInt = -1 → q.toInt = -Cell.bound) ∧
      Cell.wrap (q.toInt * b.toInt + r.toInt) = a) ∧
    (b = 0 →
      m.dispatch Operator.div.slot =
        .halt (.divisionByZero (m.diagnose "division by zero")) { m with data := below } ∧
      m.dispatch Operator.mod.slot =
        .halt (.divisionByZero (m.diagnose "division by zero")) { m with data := below }) := by
  rw [dispatch_operator .div hdata, dispatch_operator .mod hdata]
  constructor
  · intro hb
    have hexception : a.toInt = -Cell.bound ∧ b.toInt = -1 ↔ a = Int32.minValue ∧ b = -1 := by
      rw [← Int32.toInt_inj, ← Int32.toInt_inj]
      rfl
    refine ⟨a / b, a % b, a.toInt.tdiv b.toInt, ?_, ?_, ?_, ?_, Cell.abs_toInt_mod_lt hb,
      Cell.mod_eq_zero_or_sign, ?_, ?_, Cell.wrap_div_mul_add_mod a b⟩
    · rw [Operator.apply_div hb]
    · rw [Operator.apply_mod hb]
    · exact (truncate_div a.toInt (Cell.toInt_ne_zero hb)).symm
    · rw [Int32.toInt_mod, Int.tmod_def]
    · rw [hexception]
      exact Cell.toInt_div_eq
    · rw [hexception]
      rintro ⟨rfl, rfl⟩
      rw [Cell.minValue_div_neg_one]
      rfl
  · rintro rfl
    exact ⟨rfl, rfl⟩

/-- Fractions of either sign, the quotient that wraps, and a division by zero. -/
theorem dispatch_div_mod_of_mixed_signs :
    let m : Machine := fresh [] .emptyText
    let lowest : Cell := Int32.minValue
    (∃ q r : Cell, { m with data := .ofList [5, -7, 2] }.dispatch 3 =
        .next { m with data := .ofList [5, q] } ∧
      { m with data := .ofList [5, -7, 2] }.dispatch 4 = .next { m with data := .ofList [5, r] } ∧
      r.toInt = -7 - 2 * truncate (-7 / 2) ∧ q.toInt = truncate (-7 / 2)) ∧
    (∃ q : Cell, { m with data := .ofList [lowest, -1] }.dispatch 3 =
        .next { m with data := .ofList [q] } ∧ q.toInt = -2147483648) ∧
    { m with data := .ofList [5, 1, 0] }.dispatch 4 =
      .halt (.divisionByZero ⟨"division by zero", "", some 21⟩)
        { m with data := .ofList [5] } := by
  intro m lowest
  -- the operands on top of the data stack, and what lies below them
  have hsigns : ({ m with data := .ofList [5, -7, 2] } : Machine).data =
      ((Stack.ofList [5]).push (-7)).push 2 := rfl
  have hwraps : ({ m with data := .ofList [lowest, -1] } : Machine).data =
      (Stack.empty.push lowest).push (-1) := rfl
  have hzero : ({ m with data := .ofList [5, 1, 0] } : Machine).data =
      ((Stack.ofList [5]).push 1).push 0 := rfl
  refine ⟨?_, ?_, ((dispatch_div_mod hzero).2 rfl).2⟩
  · obtain ⟨q, r, t, hdiv, hmod, ht, hr, -, -, hq, -, -⟩ :=
      (dispatch_div_mod hsigns).1 (by decide)
    have ha : (-7 : Cell).toInt = -7 := by decide
    have hb : (2 : Cell).toInt = 2 := by decide
    rw [ha, hb] at ht hr
    obtain rfl : t = truncate (-7 / 2) := by simpa using ht
    exact ⟨q, r, hdiv, hmod, hr, hq (by decide)⟩
  · obtain ⟨q, r, t, hdiv, -, -, -, -, -, -, hq, -⟩ := (dispatch_div_mod hwraps).1 (by decide)
    exact ⟨q, hdiv, hq (by decide)⟩

end Machine

end LineMachine
