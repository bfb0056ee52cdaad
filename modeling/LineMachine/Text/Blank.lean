/-
**Blank characters.**

Two notions of blank space are used.  A line is blank, and a number on the command line may be
surrounded by blanks, after Unicode's white space; the cells of a line are set apart by a few ASCII
characters only.

Main definitions:

* `LineMachine.Text.isBlank` — Unicode's white space with the information separators;
* `LineMachine.Text.isSeparator` — what stands between the cells of a line.

Main results:

* `LineMachine.Text.isBlank_of_isSeparator` — every separator is blank.
-/

set_option relaxedAutoImplicit false
set_option autoImplicit false

namespace LineMachine.Text

/-- The first and the last code of each range of blank characters. -/
def blanks : List (Nat × Nat) :=
  [(0x09, 0x0D), (0x1C, 0x20), (0x85, 0x85), (0xA0, 0xA0), (0x1680, 0x1680), (0x2000, 0x200A),
   (0x2028, 0x2029), (0x202F, 0x202F), (0x205F, 0x205F), (0x3000, 0x3000)]

/-- **Whether a character is blank.** -/
def isBlank (c : Char) : Bool :=
  blanks.any (fun r => r.1 ≤ c.toNat && c.toNat ≤ r.2)

/-- **Whether a character separates cells**: a space, a tab, a carriage return, a form feed or a
vertical tab. -/
def isSeparator (c : Char) : Bool :=
  c == ' ' || c == '\t' || c == '\r' || c == '\x0c' || c == '\x0b'

/-- Every separator is blank. -/
theorem isBlank_of_isSeparator {c : Char} (h : isSeparator c) : isBlank c := by
  simp only [isSeparator, Bool.or_eq_true, beq_iff_eq] at h
  rcases h with (((rfl | rfl) | rfl) | rfl) | rfl <;> decide

end LineMachine.Text
