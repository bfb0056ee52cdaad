/-
**Dispatch: running an opcode.**

A negative opcode does nothing, an opcode from the first program line on calls that line, and the
opcodes between are the intrinsics.  A branch takes its operands from the data stack and goes on
with an opcode that it found there; since that leaves fewer cells each time, a chain of branches
ends, and it ends in at most one action or call.

Main definitions:

* `LineMachine.Leaf`, `LineMachine.resolve` — where a chain of branches ends;
* `LineMachine.Machine.perform` — an action;
* `LineMachine.Machine.call` — a call;
* `LineMachine.Machine.dispatch`, `LineMachine.Machine.execute` — running an opcode, and executing
  a cell.

Main results:

* `LineMachine.resolve_suffix` — a chain of branches only takes cells off the top.
-/

import LineMachine.Machine.Basic
import LineMachine.Opcode

set_option relaxedAutoImplicit false
set_option autoImplicit false

namespace LineMachine

/-! ### Chains of branches -/

/-- Where a chain of branches ends. -/
inductive Leaf where
  /-- Nothing is left to do. -/
  | nothing
  /-- An action is to be performed. -/
  | act (a : Action)
  /-- A line is to be called. -/
  | call (line : Int)
  deriving DecidableEq, Repr

/-- **Where an opcode leads**, given the data stack with its top first, and the cells that are left
then; `none` if a branch runs out of cells, which takes all of them. -/
def resolve (opcode : Int) (cells : List Cell) : Option (Leaf × List Cell) :=
  if opcode < 0 then some (.nothing, cells)
  else if firstLine ≤ opcode then some (.call opcode, cells)
  else
    match Opcode.ofSlot opcode.toNat, cells with
    | .act a, cells => some (.act a, cells)
    | .ifTrue, chosen :: cond :: rest =>
        if cond = 0 then some (.nothing, rest) else resolve chosen.toInt rest
    | .ifElse, no :: yes :: cond :: rest => resolve (if cond = 0 then no else yes).toInt rest
    | _, _ => none

/-- A chain of branches only takes cells off the top. -/
theorem resolve_suffix {opcode : Int} {cells rest : List Cell} {leaf : Leaf}
    (h : resolve opcode cells = some (leaf, rest)) : rest <:+ cells := by
  fun_induction resolve opcode cells with
  | case1 => simp_all
  | case2 => simp_all
  | case3 => simp_all
  | case4 => simp_all [List.suffix_cons_iff]
  | case5 _ _ _ _ _ _ _ _ ih =>
      exact (ih h).trans ((List.suffix_cons _ _).trans (List.suffix_cons _ _))
  | case6 _ _ _ _ _ _ _ _ ih =>
      exact (ih h).trans
        (((List.suffix_cons _ _).trans (List.suffix_cons _ _)).trans (List.suffix_cons _ _))
  | case7 => simp_all

/-! ### Actions and calls -/

namespace Machine

/-- The output after a cell has been emitted.  Cells that are no byte, and the byte 255, leave no
trace. -/
def emitted (output : Sink) (c : Cell) : Sink :=
  if 0 ≤ c ∧ c < 255 then output.put c.toInt.toNat.toUInt8 else output

/-- **Performs an action.**  The operands are taken off before the action finds out that there are
too few of them, except by the actions that only look at the stack; so too few operands leave an
empty stack. -/
def perform (m : Machine) (a : Action) : Outcome :=
  match a, m.data.topFirst with
  | .operator o, right :: left :: rest =>
      match o.apply left right with
      | some c => .next { m with data := ⟨c :: rest⟩ }
      | none => .halt (.divisionByZero (m.diagnose "division by zero")) { m with data := ⟨rest⟩ }
  | .operator _, _ => .halt m.dataUnderflow { m with data := .empty }
  | .not, c :: rest => .next { m with data := ⟨Cell.ofBool (c == 0) :: rest⟩ }
  | .swap, b :: a :: rest => .next { m with data := ⟨a :: b :: rest⟩ }
  | .swap, _ => .halt (m.shortage 2 "swap") m
  | .dup, c :: rest => .next { m with data := ⟨c :: c :: rest⟩ }
  | .dup, [] => .halt (m.shortage 1 "dup") m
  | .drop, _ :: rest => .next { m with data := ⟨rest⟩ }
  | .loop, c :: rest =>
      if c = 0 then .next { m with data := ⟨rest⟩ } else .next (m.jump m.ip.line)
  | .loop, [] => .halt (m.shortage 1 "loop") m
  | .emit, c :: rest => .next { m with data := ⟨rest⟩, output := emitted m.output c }
  | .read, cells =>
      match m.input with
      | [] => .next { m with data := ⟨-1 :: cells⟩ }
      | c :: input => .next { m with data := ⟨Cell.wrap c.toNat :: cells⟩, input := input }
  | .exit, c :: rest => .halt (.exit c) { m with data := ⟨rest⟩ }
  | _, [] => .halt m.dataUnderflow m

/-- **Calls a line**: saves the instruction pointer and goes to the beginning of the line. -/
def call (m : Machine) (line : Int) : Machine :=
  ((m.pushReturn m.ip.line).pushReturn m.ip.col).jump line

/-- **Runs an opcode.** -/
def dispatch (m : Machine) (opcode : Int) : Outcome :=
  match resolve opcode m.data.topFirst with
  | none => .halt m.dataUnderflow { m with data := .empty }
  | some (leaf, rest) =>
      let m := { m with data := ⟨rest⟩ }
      match leaf with
      | .nothing => .next m
      | .act a => m.perform a
      | .call line => .next (m.call line)

/-- **Executes a number as a cell**: the call cell takes the cell below it and runs it as an
opcode, and any other number is data. -/
def execute (m : Machine) (v : Int) : Outcome :=
  if v = callCell then
    match m.pop? with
    | none => .halt m.dataUnderflow m
    | some (opcode, m) => m.dispatch opcode.toInt
  else .next (m.push v)

end Machine

end LineMachine
