/-
**Faults: why the machine stops.**

The machine stops when a stack runs out, when it divides by zero, when it looks for a cell before
the beginning of a line, and when the program asks to.  A fault is kept as its cause; the first
two carry a diagnosis with the file and the line at which they arose.

Main definitions:

* `LineMachine.Diagnosis`, `LineMachine.Diagnosis.message` — what went wrong where;
* `LineMachine.Fault` — the causes.
-/

import LineMachine.Cell

set_option relaxedAutoImplicit false
set_option autoImplicit false

namespace LineMachine

/-- **What went wrong**, in which file and at which line; the line may be unknown. -/
structure Diagnosis where
  what : String
  file : String
  line : Option Int
  deriving DecidableEq, Repr

namespace Diagnosis

/-- The text of a line number that may be unknown. -/
def lineText : Option Int → String
  | none => "None"
  | some n => toString n

/-- The message of a diagnosis: the place, then what went wrong there. -/
def message (d : Diagnosis) : String := s!"{d.file}({lineText d.line}): {d.what}"

end Diagnosis

/-- **Why the machine stops.** -/
inductive Fault where
  /-- A stack did not hold enough cells. -/
  | underflow (d : Diagnosis)
  /-- The right operand of a division was zero. -/
  | divisionByZero (d : Diagnosis)
  /-- The address lay before the beginning of its line. -/
  | missingCell
  /-- The program asked to stop. -/
  | exit (status : Cell)
  deriving DecidableEq, Repr

/-- The message of a fault, as far as it has one. -/
def Fault.message : Fault → String
  | underflow d => d.message
  | divisionByZero d => d.message
  | missingCell => "list index out of range"
  | exit status => toString status.toInt

end LineMachine
