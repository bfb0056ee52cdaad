/-
**Test cases.**

A test case names a line to call, the cells to push before the call and the data stack that is
expected when the call returns.  Cases are written in a file of directives, one on a line, each a
leader, a space and a parameter:

* `= name` starts a case;
* `@ 22` sets the line that the case calls;
* `^ 1 2 3` adds cells to push, the lowest first;
* `v 6` adds cells to expect.

Main definitions:

* `LineMachine.Case` — a test case;
* `LineMachine.Case.Defect`, `LineMachine.Case.Fault` — what can be wrong with a line of a case
  file, and the line that is at fault;
* `LineMachine.Case.ofLines` — the cases that the lines of a file are.

Main results:

* `LineMachine.Case.read_append` — a file is read line by line.
-/

import LineMachine.Cell
import LineMachine.Source.Line
import LineMachine.Source.Word

set_option relaxedAutoImplicit false
set_option autoImplicit false

namespace LineMachine

/-- **A test case.** -/
structure Case where
  name : String
  /-- The line to call; the first program line if it is not set. -/
  start : Option Int
  /-- What is pushed before the call, the lowest first. -/
  inputs : List Int
  /-- The data stack that is expected in the end, bottom first. -/
  outputs : List Int
  deriving DecidableEq, Repr

namespace Case

/-- The case with a name and nothing else. -/
def named (name : String) : Case := ⟨name, none, [], []⟩

/-- What can be wrong with a line of a case file. -/
inductive Defect where
  | missingLeader
  | missingSpace
  | noCase
  | unreadableStart
  | lowStart
  | unreadableNumber
  | badLeader
  /-- A numeral has too many digits to be converted. -/
  | tooLong (digits : Nat)
  deriving DecidableEq, Repr

/-- What is said of a defect. -/
def Defect.message : Defect → String
  | missingLeader => "Missing line leader"
  | missingSpace => "Missing space in line leader"
  | noCase => "No test declared"
  | unreadableStart => "Can't parse start line"
  | lowStart => "Start line too low"
  | unreadableNumber => "Can't parse number"
  | badLeader => "Bad line leader"
  | tooLong digits => Numeral.tooLongMessage digits

/-- **The line of a case file that is at fault**, and its defect. -/
structure Fault where
  file : String
  line : Nat
  defect : Defect
  deriving DecidableEq, Repr

/-- The message of a fault.  Too long a numeral is not told with its place. -/
def Fault.message (f : Fault) : String :=
  match f.defect with
  | .tooLong digits => Numeral.tooLongMessage digits
  | d => s!"{f.file}:{f.line}: Parse error ({d.message})"

/-! ### Reading case files -/

/-- The numbers that a directive gives, with the defect of a parameter that holds anything else. -/
def numbers (param : List Char) (defect : Defect) : Except Defect (List Int) :=
  match Source.readNumbers param with
  | .ok vs => .ok vs
  | .error (.ungrammatical _) => .error defect
  | .error (.tooLong digits) => .error (.tooLong digits)

/-- A case with its start line set by a parameter. -/
def setStart (c : Case) (param : List Char) : Except Defect Case :=
  match numbers param .unreadableStart with
  | .error d => .error d
  | .ok [v] => if v < firstLine then .error .lowStart else .ok { c with start := some v }
  | .ok _ => .error .unreadableStart

/-- A case with more inputs. -/
def addInputs (c : Case) (param : List Char) : Except Defect Case :=
  (numbers param .unreadableNumber).map fun vs => { c with inputs := c.inputs ++ vs }

/-- A case with more expected outputs. -/
def addOutputs (c : Case) (param : List Char) : Except Defect Case :=
  (numbers param .unreadableNumber).map fun vs => { c with outputs := c.outputs ++ vs }

/-- Changes the case that was started last, which is the first of the list. -/
def changeLast (change : Case → Except Defect Case) :
    List Case → Except Defect (List Case)
  | [] => .error .noCase
  | c :: cs => (change c).map (· :: cs)

/-- The cases after a directive.  The case that was started last comes first. -/
def direct (cases : List Case) (leader : Char) (param : List Char) : Except Defect (List Case) :=
  match leader with
  | '=' => .ok (named (String.ofList param) :: cases)
  | '@' => changeLast (·.setStart param) cases
  | '^' => changeLast (·.addInputs param) cases
  | 'v' => changeLast (·.addOutputs param) cases
  | _ => .error .badLeader

/-- A line without the line ends behind it. -/
def dropLineEnds (line : List Char) : List Char :=
  (line.reverse.dropWhile (fun c => c == '\r' || c == '\n')).reverse

/-- The cases after a line of a case file. -/
def readLine (cases : List Case) (line : List Char) : Except Defect (List Case) :=
  let line := dropLineEnds line
  if Source.isComment line then .ok cases
  else
    match line with
    | leader :: space :: param =>
        if space = ' ' then direct cases leader param else .error .missingSpace
    | _ => .error .missingLeader

/-- The cases after the numbered lines of a case file. -/
def read (file : String) (cases : List Case) (entries : List (List Char × Nat)) :
    Except Fault (List Case) :=
  entries.foldlM
    (fun cases entry => (readLine cases entry.1).mapError (Fault.mk file entry.2)) cases

/-- **The cases that the lines of a file are.**  The first faulty line is reported. -/
def ofLines (file : String) (lines : List (List Char)) : Except Fault (List Case) :=
  (read file [] (Source.numbered lines)).map List.reverse

/-- The cases that a text is. -/
def ofText (file : String) (text : List Char) : Except Fault (List Case) :=
  ofLines file (Source.lines text)

/-- A file is read line by line. -/
theorem read_append (file : String) (cases : List Case) (e₁ e₂ : List (List Char × Nat)) :
    read file cases (e₁ ++ e₂) = (read file cases e₁).bind (fun cs => read file cs e₂) := by
  simp only [read, List.foldlM_append]
  rfl

end Case

end LineMachine
