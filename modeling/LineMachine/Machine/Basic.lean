/-
**The state of the machine.**

The machine has a data stack and a return stack, program memory, an instruction pointer that is an
address in that memory, the name of the file the program came from, the input that is still unread
and the output so far.  This module holds the state, what an operation on it can come to, and the
operations on its stacks.

Main definitions:

* `LineMachine.Machine`, `LineMachine.Machine.fresh` — the state, and the state at the start;
* `LineMachine.Outcome` — the state after an operation, with the fault that interrupted it, if any;
* `LineMachine.Machine.push`, `LineMachine.Machine.pop?`, `LineMachine.Machine.pushReturn`,
  `LineMachine.Machine.popReturn?` — the stacks.
-/

import LineMachine.Fault
import LineMachine.Memory
import LineMachine.Sink
import LineMachine.Stack

set_option relaxedAutoImplicit false
set_option autoImplicit false

namespace LineMachine

/-- **The state of the machine.** -/
structure Machine where
  /-- The data stack. -/
  data : Stack Cell
  /-- The return stack.  A call saves two cells on it, its line and above that its column. -/
  ret : Stack Cell
  /-- Program memory. -/
  memory : Memory
  /-- The instruction pointer: the address of the next cell. -/
  ip : Place
  /-- The name of the file that the program came from. -/
  file : String
  /-- The input that has not been read. -/
  input : List Char
  /-- The output so far. -/
  output : Sink
  deriving DecidableEq, Repr

/-- **What an operation comes to**: it completes, or a fault interrupts it.  Either way it leaves
the machine in some state. -/
inductive Outcome where
  | next (m : Machine)
  | halt (f : Fault) (m : Machine)
  deriving DecidableEq, Repr

/-- The state that is left. -/
def Outcome.machine : Outcome → Machine
  | next m => m
  | halt _ m => m

/-- The fault that interrupted the operation. -/
def Outcome.fault? : Outcome → Option Fault
  | next _ => none
  | halt f _ => some f

namespace Machine

/-- The machine at the start: nothing on its stacks, no program, and the instruction pointer at
the first program line. -/
def fresh (input : List Char) (output : Sink) : Machine where
  data := .empty
  ret := .empty
  memory := .empty
  ip := .start firstLine
  file := ""
  input := input
  output := output

/-! ### Faults at the current line -/

/-- What went wrong, at the current line of the program. -/
def diagnose (m : Machine) (what : String) : Diagnosis := ⟨what, m.file, some m.ip.line⟩

/-- The fault of taking a cell from an empty data stack. -/
def dataUnderflow (m : Machine) : Fault := .underflow (m.diagnose "data stack underflow")

/-- The fault of taking a cell from an empty return stack. -/
def returnUnderflow (m : Machine) : Fault := .underflow (m.diagnose "return stack underflow")

/-- The fault of an operation that finds too few cells on the data stack. -/
def shortage (m : Machine) (count : Int) (what : String) : Fault :=
  .underflow (m.diagnose s!"{what} needs {count} on the data stack")

/-- Checks that the data stack holds so many cells. -/
def require (m : Machine) (count : Int) (what : String) : Outcome :=
  if m.data.has count then .next m else .halt (m.shortage count what) m

/-! ### Stacks -/

/-- Pushes a number on the data stack, as data. -/
def push (m : Machine) (v : Int) : Machine := { m with data := m.data.push (Cell.wrap v) }

/-- Pushes numbers on the data stack, as data, the first one lowest. -/
def pushAll (m : Machine) (vs : List Int) : Machine := vs.foldl push m

/-- The cell on top of the data stack and the machine without it. -/
def pop? (m : Machine) : Option (Cell × Machine) :=
  m.data.pop?.map (fun (c, data) => (c, { m with data := data }))

/-- Pushes a number on the return stack. -/
def pushReturn (m : Machine) (v : Int) : Machine := { m with ret := m.ret.push (Cell.wrap v) }

/-- The cell on top of the return stack and the machine without it. -/
def popReturn? (m : Machine) : Option (Cell × Machine) :=
  m.ret.pop?.map (fun (c, ret) => (c, { m with ret := ret }))

/-! ### Addresses and memory -/

/-- Moves the instruction pointer to the beginning of a line. -/
def jump (m : Machine) (line : Int) : Machine := { m with ip := .start line }

/-- Whether the instruction pointer is at an address. -/
def isAt (m : Machine) (p : Place) : Bool := m.ip == p

/-- Appends a value to a line of program memory. -/
def compile (m : Machine) (line value : Int) : Machine :=
  { m with memory := m.memory.compile line value }

/-- The text of the state: the instruction pointer and the two stacks. -/
def render (m : Machine) : String :=
  let numbers (s : Stack Cell) : Stack Int := .ofList (s.toList.map Int32.toInt)
  let data := (numbers m.data).render "Data"
  let ret := (numbers m.ret).render "Return"
  s!"Runtime(ip={m.ip.render}, {data}, {ret})"

end Machine

end LineMachine
