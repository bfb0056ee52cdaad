/-
**Opcodes: what the numbers below the first program line do.**

The opcodes below `LineMachine.firstLine` are the intrinsics of the machine.  Two of them are
branches, which take another opcode from the data stack and run it; the others are actions, which
are done when they are run.  Slots behind the last named opcode act like `exit`.

Main definitions:

* `LineMachine.Operator` — the seven operators that take two cells and leave one;
* `LineMachine.Operator.quotient`, `LineMachine.Operator.apply` — quotients truncated toward zero,
  and the result of an operator;
* `LineMachine.Action`, `LineMachine.Opcode` — everything an opcode can stand for;
* `LineMachine.Opcode.ofSlot` — the intrinsic in a slot;
* `LineMachine.Opcode.name?`, `LineMachine.Opcode.ofName?` — opcodes by name.

Main results:

* `LineMachine.Operator.apply_eq_none_iff` — an operator fails only on a zero divisor.
-/

import LineMachine.Cell
import LineMachine.Text.Upper

set_option relaxedAutoImplicit false
set_option autoImplicit false

namespace LineMachine

/-! ### Operators -/

/-- The operators that replace two cells by one. -/
inductive Operator where
  | plus | minus | mult | div | mod | and | or
  deriving DecidableEq, Repr

namespace Operator

/-- **The quotient of two numbers**, truncated toward zero: that of their absolute values, which is
negated if only one of the two numbers is negative. -/
def quotient (left right : Int) : Int :=
  let q : Int := (left.natAbs / right.natAbs : Nat)
  if left < 0 ↔ right < 0 then q else -q

/-- **The result of an operator**, wrapped to a cell; `none` is a division by zero.  A remainder is
what the quotient leaves of the left operand, before the quotient is wrapped.  Every cell but zero
is true, and the logical operators give `1` or `0`. -/
def apply : Operator → Cell → Cell → Option Cell
  | plus, left, right => some (left + right)
  | minus, left, right => some (left - right)
  | mult, left, right => some (left * right)
  | div, left, right =>
      if right = 0 then none else some (Cell.wrap (quotient left.toInt right.toInt))
  | mod, left, right =>
      if right = 0 then none
      else some (Cell.wrap (left.toInt - right.toInt * quotient left.toInt right.toInt))
  | and, left, right => some (Cell.ofBool (left != 0 && right != 0))
  | or, left, right => some (Cell.ofBool (left != 0 || right != 0))

/-- An operator fails exactly when it divides by zero. -/
theorem apply_eq_none_iff {o : Operator} {left right : Cell} :
    o.apply left right = none ↔ (o = div ∨ o = mod) ∧ right = 0 := by
  cases o <;> simp [apply]

end Operator

/-! ### Actions and opcodes -/

/-- The intrinsics that are done when they are run. -/
inductive Action where
  /-- Replace two cells by one. -/
  | operator (o : Operator)
  /-- Replace a cell by its truth value negated. -/
  | not
  /-- Exchange the two cells on top. -/
  | swap
  /-- Copy the cell on top. -/
  | dup
  /-- Drop the cell on top. -/
  | drop
  /-- Restart the line unless the cell on top is zero; drop a zero and go on. -/
  | loop
  /-- Write the cell on top as one character code. -/
  | emit
  /-- Push the next character code of the input. -/
  | read
  /-- Stop the program with the cell on top as its status. -/
  | exit
  deriving DecidableEq, Repr

/-- **An opcode below the first program line.** -/
inductive Opcode where
  | act (a : Action)
  /-- Take an opcode and a condition, and run the opcode if the condition holds. -/
  | ifTrue
  /-- Take two opcodes and a condition, and run one of the two. -/
  | ifElse
  deriving DecidableEq, Repr

namespace Opcode

/-- The named opcodes in the order of their numbers, from zero on. -/
def named : List (String × Opcode) :=
  [("PLUS", act (.operator .plus)), ("MINUS", act (.operator .minus)),
   ("MULT", act (.operator .mult)), ("DIV", act (.operator .div)),
   ("MOD", act (.operator .mod)), ("AND", act (.operator .and)),
   ("OR", act (.operator .or)), ("NOT", act .not),
   ("SWAP", act .swap), ("DUP", act .dup), ("DROP", act .drop),
   ("LOOP", act .loop), ("IF", ifTrue), ("IF_ELSE", ifElse),
   ("EMIT", act .emit), ("READ", act .read), ("EXIT", act .exit)]

/-- Whether a number is an intrinsic's, named or not. -/
def IsIntrinsic (v : Int) : Prop := 0 ≤ v ∧ v < firstLine

instance (v : Int) : Decidable (IsIntrinsic v) := inferInstanceAs (Decidable (_ ∧ _))

/-- **The intrinsic in a slot.**  Slots behind the named opcodes exit. -/
def ofSlot (slot : Nat) : Opcode :=
  match slot with
  | 0 => act (.operator .plus)
  | 1 => act (.operator .minus)
  | 2 => act (.operator .mult)
  | 3 => act (.operator .div)
  | 4 => act (.operator .mod)
  | 5 => act (.operator .and)
  | 6 => act (.operator .or)
  | 7 => act .not
  | 8 => act .swap
  | 9 => act .dup
  | 10 => act .drop
  | 11 => act .loop
  | 12 => ifTrue
  | 13 => ifElse
  | 14 => act .emit
  | 15 => act .read
  | _ => act .exit

/-- The name of the opcode with a number, if it has one. -/
def name? (v : Int) : Option String :=
  if v < 0 then none else (named[v.toNat]?).map (·.1)

/-- The key under which a name is looked up: names may be written in either case. -/
def key (name : String) : String := Text.upper name

/-- The number of the opcode with a name. -/
def ofName? (name : String) : Option Nat :=
  named.findIdx? (fun entry => entry.1 == key name)

end Opcode

end LineMachine
