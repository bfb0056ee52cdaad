/-
**Tracing: the machine with its log.**

Calls, returns, wraps and exits are logged where they happen, next to the change of state that they
are about.  So what a step comes to comes with what it writes to the journal, and so does a run.
`LineMachine.Machine.step` and `LineMachine.Machine.runUntil` are what is left of the two without
the journal.

Main definitions:

* `LineMachine.Machine.performTraced`, `LineMachine.Machine.callTraced`,
  `LineMachine.Machine.dispatchTraced`, `LineMachine.Machine.executeTraced` — running an opcode and
  executing a cell, with their log;
* `LineMachine.Machine.stepTraced` — **a step with its log**;
* `LineMachine.Machine.runFromTraced`, `LineMachine.Machine.runUntilTraced` — a run with its log.
-/

import LineMachine.Journal
import LineMachine.Machine.Step

set_option relaxedAutoImplicit false
set_option autoImplicit false

namespace LineMachine.Machine

open Logging

/-! ### One step -/

/-- **Performs an action.**  Only to stop the program is logged. -/
def performTraced (m : Machine) (a : Action) : Logging Outcome :=
  match a, m.data.topFirst with
  | .exit, status :: rest => do
      log (.exited status)
      return .halt (.exit status) { m with data := ⟨rest⟩ }
  | a, _ => return m.perform a

/-- **Calls a line**, and logs it before the instruction pointer is saved. -/
def callTraced (m : Machine) (line : Int) : Logging Machine := do
  log (.called line m.ip)
  return m.call line

/-- **Runs an opcode.** -/
def dispatchTraced (m : Machine) (opcode : Int) : Logging Outcome :=
  match resolve opcode m.data.topFirst with
  | none => return .halt m.dataUnderflow { m with data := .empty }
  | some (leaf, rest) =>
      let m := { m with data := ⟨rest⟩ }
      match leaf with
      | .nothing => return .next m
      | .act a => m.performTraced a
      | .call line => return .next (← m.callTraced line)

/-- **Executes a number as a cell.** -/
def executeTraced (m : Machine) (v : Int) : Logging Outcome :=
  if v = callCell then
    match m.pop? with
    | none => return .halt m.dataUnderflow m
    | some (opcode, m) => m.dispatchTraced opcode.toInt
  else return .next (m.push v)

/-- **Returns**, and logs where to once the instruction pointer is there. -/
def comeBackTraced (m : Machine) : Logging Outcome :=
  match m.comeBack with
  | .halt f m => return .halt f m
  | .next m => do
      log (.returned m.ip)
      return .next m

/-- **One step of the machine.**  A wrap is logged before the instruction pointer moves. -/
def stepTraced (m : Machine) : Logging Outcome :=
  match m.memory.fetch m.ip with
  | .outside => do
      log (.wrapped m.ip)
      return .next (m.jump firstLine)
  | .cell c => m.advance.executeTraced c.toInt
  | .lineEnd => m.comeBackTraced
  | .missing => return .halt .missingCell m

/-! ### Runs -/

/-- A run that continues after some completed steps. -/
def runFromTraced (stop : Machine → Bool) (limit done : Nat) (m : Machine) : Logging Run :=
  if stop m then return ⟨m, done, .arrived⟩
  else
    match limit with
    | 0 => return ⟨m, done, .outOfSteps⟩
    | limit + 1 => do
        match ← m.stepTraced with
        | .next m => runFromTraced stop limit (done + 1) m
        | .halt f m => return ⟨m, done, .halted f⟩

/-- **Runs the machine** until a condition holds, with the log of its steps. -/
def runUntilTraced (stop : Machine → Bool) (limit : Nat) (m : Machine) : Logging Run :=
  runFromTraced stop limit 0 m

end LineMachine.Machine
