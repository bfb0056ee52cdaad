/-
**Arithmetic: what the operators make of numbers.**

Each operator has a result on whole numbers, and on cells it gives the cell that this result wraps
to.  The quotient is truncated toward zero and a remainder has the sign of the left operand; truth
values are `1` and `0`.  Sums, differences and products may be wrapped before or after they are
formed.

Main definitions:

* `LineMachine.Operator.onInts` — **the result of an operator on whole numbers**;
* `LineMachine.Operator.Divides` — the operators that have no result on a zero.

Main results:

* `LineMachine.Operator.quotient_eq_tdiv`, `LineMachine.Operator.sub_mul_quotient` — the quotient
  and the remainder are the truncated ones;
* `LineMachine.Operator.apply_div`, `LineMachine.Operator.apply_mod` — dividing cells;
* `LineMachine.Operator.apply_eq` — **an operator on cells**;
* `LineMachine.Operator.wrap_onInts` — operators that wrapping commutes with.
-/

import LineMachine.Opcode

set_option relaxedAutoImplicit false
set_option autoImplicit false

namespace LineMachine

namespace Cell

theorem wrap_add (a b : Int) : wrap (a + b) = wrap a + wrap b := Int32.ofInt_add a b

theorem wrap_sub (a b : Int) : wrap (a - b) = wrap a - wrap b := Int32.ofInt_sub a b

theorem wrap_mul (a b : Int) : wrap (a * b) = wrap a * wrap b := Int32.ofInt_mul a b

/-- Wrapping the quotient of two cells' numbers divides the cells. -/
theorem wrap_tdiv_toInt (a b : Cell) : wrap (a.toInt.tdiv b.toInt) = a / b := by
  rw [← Int32.toInt_inj, toInt_wrap, Int32.toInt_div]
  rfl

/-- A remainder of two cells' numbers is in range. -/
theorem wrap_tmod_toInt (a b : Cell) : wrap (a.toInt.tmod b.toInt) = a % b := by
  rw [← Int32.toInt_mod, wrap_toInt]

theorem toInt_eq_zero_iff {c : Cell} : c.toInt = 0 ↔ c = 0 := by
  rw [← Int32.toInt_inj]
  rfl

/-- The truth value of a proposition about numbers. -/
theorem wrap_ite {p : Prop} [Decidable p] {b : Bool} (h : b = true ↔ p) :
    wrap (if p then 1 else 0) = ofBool b := by
  cases b with
  | true =>
      rw [if_pos (h.1 rfl)]
      rfl
  | false =>
      rw [if_neg fun hp => Bool.false_ne_true (h.2 hp)]
      rfl

end Cell

namespace Operator

/-- **The result of an operator on whole numbers.**  Every number but zero is true. -/
def onInts : Operator → Int → Int → Int
  | plus, left, right => left + right
  | minus, left, right => left - right
  | mult, left, right => left * right
  | div, left, right => left.tdiv right
  | mod, left, right => left.tmod right
  | and, left, right => if left ≠ 0 ∧ right ≠ 0 then 1 else 0
  | or, left, right => if left ≠ 0 ∨ right ≠ 0 then 1 else 0

/-- **The quotient truncated toward zero**, by the signs of the two numbers. -/
theorem quotient_eq_tdiv (left right : Int) : quotient left right = left.tdiv right := by
  unfold quotient
  rcases Int.lt_or_le left 0 with hleft | hleft
  · obtain ⟨a, rfl⟩ : ∃ a : Nat, left = -a := ⟨left.natAbs, by omega⟩
    rcases Int.lt_or_le right 0 with hright | hright
    · obtain ⟨b, rfl⟩ : ∃ b : Nat, right = -b := ⟨right.natAbs, by omega⟩
      rw [if_pos (iff_of_true hleft hright)]
      simp only [Int.natAbs_neg, Int.natAbs_natCast, Int.ofNat_tdiv, Int.neg_tdiv_neg]
    · obtain ⟨b, rfl⟩ := Int.eq_ofNat_of_zero_le hright
      rw [if_neg fun h => absurd (h.1 hleft) (Int.not_lt.2 hright)]
      simp only [Int.natAbs_neg, Int.natAbs_natCast, Int.ofNat_tdiv, Int.neg_tdiv]
  · obtain ⟨a, rfl⟩ := Int.eq_ofNat_of_zero_le hleft
    rcases Int.lt_or_le right 0 with hright | hright
    · obtain ⟨b, rfl⟩ : ∃ b : Nat, right = -b := ⟨right.natAbs, by omega⟩
      rw [if_neg fun h => absurd (h.2 hright) (Int.not_lt.2 hleft)]
      simp only [Int.natAbs_neg, Int.natAbs_natCast, Int.ofNat_tdiv, Int.tdiv_neg]
    · obtain ⟨b, rfl⟩ := Int.eq_ofNat_of_zero_le hright
      rw [if_pos (iff_of_false (Int.not_lt.2 hleft) (Int.not_lt.2 hright))]
      simp only [Int.natAbs_natCast, Int.ofNat_tdiv]

/-- **The remainder** is what that quotient leaves of the left operand. -/
theorem sub_mul_quotient (left right : Int) :
    left - right * quotient left right = left.tmod right := by
  rw [quotient_eq_tdiv, Int.tmod_def]

/-- **To divide cells** is to wrap their quotient. -/
theorem apply_div {left right : Cell} (h : right ≠ 0) :
    div.apply left right = some (left / right) := by
  rw [apply, if_neg h, quotient_eq_tdiv, Cell.wrap_tdiv_toInt]

theorem apply_mod {left right : Cell} (h : right ≠ 0) :
    mod.apply left right = some (left % right) := by
  rw [apply, if_neg h, sub_mul_quotient, Cell.wrap_tmod_toInt]

/-- The operators that have no result if their right operand is zero. -/
def Divides (o : Operator) : Prop := o = div ∨ o = mod

instance (o : Operator) : Decidable o.Divides := inferInstanceAs (Decidable (_ ∨ _))

/-- **The result of an operator on cells** is the cell that its result on their numbers wraps to. -/
theorem apply_eq {o : Operator} (left right : Cell) (h : ¬ (o.Divides ∧ right = 0)) :
    o.apply left right = some (Cell.wrap (o.onInts left.toInt right.toInt)) := by
  cases o with
  | plus => simp [apply, onInts, Cell.wrap_add]
  | minus => simp [apply, onInts, Cell.wrap_sub]
  | mult => simp [apply, onInts, Cell.wrap_mul]
  | div =>
      have hright : right ≠ 0 := fun hzero => h ⟨.inl rfl, hzero⟩
      rw [apply_div hright, onInts, Cell.wrap_tdiv_toInt]
  | mod =>
      have hright : right ≠ 0 := fun hzero => h ⟨.inr rfl, hzero⟩
      rw [apply_mod hright, onInts, Cell.wrap_tmod_toInt]
  | and =>
      rw [apply, onInts, Cell.wrap_ite (b := left != 0 && right != 0)]
      simp [Cell.toInt_eq_zero_iff]
  | or =>
      rw [apply, onInts, Cell.wrap_ite (b := left != 0 || right != 0)]
      simp [Cell.toInt_eq_zero_iff]

/-- **Wrapping commutes** with sums, differences and products. -/
theorem wrap_onInts {o : Operator} (ho : o = plus ∨ o = minus ∨ o = mult) (a b : Int) :
    Cell.wrap (o.onInts (Cell.wrap a).toInt (Cell.wrap b).toInt) = Cell.wrap (o.onInts a b) := by
  rcases ho with rfl | rfl | rfl
  · simp [onInts, Cell.wrap_add]
  · simp [onInts, Cell.wrap_sub]
  · simp [onInts, Cell.wrap_mul]

end Operator

end LineMachine
