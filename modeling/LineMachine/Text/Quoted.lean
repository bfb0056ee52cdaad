/-
**Quoted text.**

A text is quoted with single quotes, or with double quotes if it holds a single quote and no double
one.  Inside, the quote and the backslash are escaped, and so is every character that is not
printable: by a letter where there is one, else by its code in two, four or eight hexadecimal
digits.

Main definitions:

* `LineMachine.Text.escape` — a character as it is written between quotes;
* `LineMachine.Text.quoted` — a text as it is quoted.
-/

import LineMachine.Text.Printable

set_option relaxedAutoImplicit false
set_option autoImplicit false

namespace LineMachine.Text

/-- The lower-case hexadecimal digits of a number, with zeros in front up to a width. -/
def hexDigits (width n : Nat) : List Char :=
  let digits := Nat.toDigits 16 n
  List.replicate (width - digits.length) '0' ++ digits

/-- The quote to put around a text. -/
def quoteFor (cs : List Char) : Char :=
  if cs.contains '\'' && !cs.contains '"' then '"' else '\''

/-- A character as it is written between quotes. -/
def escape (quote c : Char) : List Char :=
  if c = quote ∨ c = '\\' then ['\\', c]
  else if c = '\t' then ['\\', 't']
  else if c = '\n' then ['\\', 'n']
  else if c = '\r' then ['\\', 'r']
  else if isPrintable c then [c]
  else if c.toNat < 0x100 then ['\\', 'x'] ++ hexDigits 2 c.toNat
  else if c.toNat < 0x10000 then ['\\', 'u'] ++ hexDigits 4 c.toNat
  else ['\\', 'U'] ++ hexDigits 8 c.toNat

/-- **A text as it is quoted.** -/
def quoted (s : String) : String :=
  let quote := quoteFor s.toList
  String.ofList (quote :: s.toList.flatMap (escape quote) ++ [quote])

end LineMachine.Text
