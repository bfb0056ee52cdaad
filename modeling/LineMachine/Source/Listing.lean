/-
**Listings: programs as text.**

A listing gives the cells of each program line.  It is written as source text, in which the number
of a text line is the number of the program line: reserved lines and lines without content are
passed over, and every other line holds numbers in the range of cells.

Main definitions:

* `LineMachine.Row`, `LineMachine.Listing` — a program line with its numbers, and a program;
* `LineMachine.Listing.ofText` — the listing that a source text is;
* `LineMachine.Listing.Fault` — why a source text is no listing;
* `LineMachine.Memory.load` — appends a listing to program memory;
* `LineMachine.Memory.listing` — the listing that program memory holds.
-/

import LineMachine.Machine.Basic
import LineMachine.Source.Line
import LineMachine.Source.Word

set_option relaxedAutoImplicit false
set_option autoImplicit false

namespace LineMachine

/-- **A program line** with the numbers on it. -/
structure Row where
  number : Int
  values : List Int
  deriving DecidableEq, Repr

/-- **A program**: its lines, each listed once. -/
abbrev Listing := List Row

namespace Listing

/-- Sets a line of a listing.  A line that is listed already is replaced. -/
def set (listing : Listing) (row : Row) : Listing :=
  if listing.any (·.number == row.number) then
    listing.map (fun r => if r.number = row.number then row else r)
  else listing ++ [row]

/-- The listing with the given rows, of which a later one replaces an earlier one. -/
def ofRows (rows : List Row) : Listing := rows.foldl set []

/-! ### Reading source text -/

/-- Why a source text cannot be loaded. -/
inductive Fault where
  /-- A line holds something other than numbers in the range of cells. -/
  | notANumber (file : String) (line : Int) (excerpt : String)
  /-- A numeral has too many digits to be converted. -/
  | tooLong (digits : Nat)
  /-- The file cannot be opened. -/
  | unopened (path : String)
  deriving DecidableEq, Repr

/-- The message of a fault. -/
def Fault.message : Fault → String
  | notANumber file line excerpt => s!"{file}({line}): not a number at '{excerpt}'"
  | tooLong digits => Numeral.tooLongMessage digits
  | unopened path => s!"Cannot open '{path}'"

/-- What a message quotes of a line: a few characters from a position on. -/
def excerpt (line : List Char) (position : Nat) : String :=
  String.ofList ((line.drop position).take 10)

/-- **The numbers on a program line.**  The line has to be grammatical as a whole before any number
on it is looked at; then the first number that is out of range or too long is at fault. -/
def readLine (file : String) (number : Int) (line : List Char) : Except Fault (List Int) :=
  match Source.scan line with
  | .error position => .error (.notANumber file number (excerpt line position))
  | .ok ws => ws.mapM fun w =>
      match Numeral.value w.text with
      | .error digits => .error (.tooLong digits)
      | .ok v =>
          if Cell.InRange v then .ok v
          else .error (.notANumber file number (excerpt line w.start))

/-- Whether a line of source text belongs to the program. -/
def isProgramLine (entry : List Char × Nat) : Bool :=
  decide (IsCompiled entry.2) && !Source.isComment entry.1

/-- **The listing that a source text is.**  The first faulty line is reported. -/
def ofText (file : String) (text : List Char) : Except Fault Listing :=
  ((Source.numbered (Source.lines text)).filter isProgramLine).mapM fun entry =>
    (readLine file entry.2 entry.1).map (Row.mk entry.2)

end Listing

/-! ### Loading -/

/-- Appends the cells of a row to program memory. -/
def Memory.loadRow (m : Memory) (row : Row) : Memory :=
  row.values.foldl (fun m v => m.compile row.number v) m

/-- **Appends a listing to program memory.** -/
def Memory.load (m : Memory) (listing : Listing) : Memory := listing.foldl loadRow m

/-- **The listing of program memory**: its lines that hold cells. -/
def Memory.listing (m : Memory) : Listing :=
  ((List.range m.size).map fun (n : Nat) => Row.mk n ((m.line n).map Int32.toInt)).filter
    fun row => !row.values.isEmpty

/-- Appends a listing to the program of the machine. -/
def Machine.load (m : Machine) (listing : Listing) : Machine :=
  { m with memory := m.memory.load listing }

end LineMachine
