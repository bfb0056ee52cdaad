/-
**Numerals.**

Numbers are written in decimal.  In source text and test cases a numeral is an optional sign and a
run of ASCII digits.  On the command line it may stand between blanks, single underscores may
stand between its digits, and the digits may be those of any script.  Either way a numeral has at
most `LineMachine.Numeral.maxDigits` digits, and a number that needs more cannot be written.

Main definitions:

* `LineMachine.Numeral.ofDigits` — the number with the given digits;
* `LineMachine.Numeral.prefixLength` — how much of a text is a numeral;
* `LineMachine.Numeral.value` — the value of a numeral;
* `LineMachine.Numeral.IsWritable` — a number that has a numeral;
* `LineMachine.Numeral.readLoose?` — the number that an argument of the command line is.

Main results:

* `LineMachine.Numeral.prefixLength_le` — no more is a numeral than there is.
-/

import LineMachine.Text.Blank
import LineMachine.Text.Digit

set_option relaxedAutoImplicit false
set_option autoImplicit false

namespace LineMachine.Numeral

/-- The most digits that a numeral may have. -/
def maxDigits : Nat := 4300

/-- The number with the given digits, the highest first. -/
def ofDigits (ds : List Nat) : Nat := ds.foldl (fun n d => 10 * n + d) 0

/-- Whether a character is a sign. -/
def isSign (c : Char) : Bool := c == '+' || c == '-'

/-- A text without the sign at its beginning, if it has one. -/
def unsigned : List Char → List Char
  | [] => []
  | c :: cs => if isSign c then cs else c :: cs

/-- A number with the sign that a text begins with. -/
def signed (text : List Char) (n : Nat) : Int := if text.head? = some '-' then -n else n

/-! ### Numerals of source text -/

/-- The length of the longest beginning of a text that is a numeral, or zero if there is none. -/
def prefixLength (text : List Char) : Nat :=
  match ((unsigned text).takeWhile Char.isDigit).length with
  | 0 => 0
  | n => text.length - (unsigned text).length + n

/-- Whether a whole text is a numeral. -/
def isNumeral (text : List Char) : Bool := prefixLength text == text.length && text != []

/-- **The value of a numeral**; a numeral with too many digits is refused with their number. -/
def value (text : List Char) : Except Nat Int :=
  let digits := unsigned text
  if maxDigits < digits.length then .error digits.length
  else .ok (signed text (ofDigits (digits.map (fun c => c.toNat - '0'.toNat))))

/-- What is said of a numeral with too many digits. -/
def tooLongMessage (digits : Nat) : String :=
  s!"Exceeds the limit ({maxDigits} digits) for integer string conversion: " ++
    s!"value has {digits} digits; use sys.set_int_max_str_digits() to increase the limit"

/-- **A number that can be written**: it has no more digits than a numeral may have. -/
def IsWritable (v : Int) : Prop := (Nat.toDigits 10 v.natAbs).length ≤ maxDigits

instance (v : Int) : Decidable (IsWritable v) := inferInstanceAs (Decidable (_ ≤ _))

/-- What is said of a number that cannot be written. -/
def unwritableMessage : String :=
  s!"Exceeds the limit ({maxDigits} digits) for integer string conversion; " ++
    "use sys.set_int_max_str_digits() to increase the limit"

theorem length_unsigned_le (text : List Char) : (unsigned text).length ≤ text.length := by
  unfold unsigned
  split
  · simp
  · split <;> simp

private theorem length_takeWhile_isDigit_le (cs : List Char) :
    (cs.takeWhile Char.isDigit).length ≤ cs.length :=
  (List.takeWhile_prefix _).length_le

/-- No more of a text is a numeral than there is. -/
theorem prefixLength_le (text : List Char) : prefixLength text ≤ text.length := by
  have h₁ := length_unsigned_le text
  have h₂ := length_takeWhile_isDigit_le (unsigned text)
  unfold prefixLength
  split
  · omega
  · omega

/-! ### Numerals of the command line -/

/-- Blanks that may surround a number on the command line: all but the information separators. -/
def isPadding (c : Char) : Bool := Text.isBlank c && !(0x1C ≤ c.toNat && c.toNat ≤ 0x1F)

/-- A text without the padding at both ends. -/
def trim (text : List Char) : List Char :=
  ((text.dropWhile isPadding).reverse.dropWhile isPadding).reverse

/-- The digits of a run in which single underscores may stand between digits.  The first argument
says whether a digit has just been read. -/
def digitRun? : Bool → List Char → Option (List Nat)
  | afterDigit, [] => if afterDigit then some [] else none
  | afterDigit, c :: cs =>
      if afterDigit && c == '_' then digitRun? false cs
      else
        match Text.digitValue? c with
        | none => none
        | some d => (digitRun? true cs).map (d :: ·)

/-- **The number that an argument of the command line is**, if it is one. -/
def readLoose? (text : String) : Option Int :=
  let body := trim text.toList
  match digitRun? false (unsigned body) with
  | none => none
  | some ds => if maxDigits < ds.length then none else some (signed body (ofDigits ds))

end LineMachine.Numeral
