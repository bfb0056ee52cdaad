/-
**Steps and runs.**

A step does exactly one thing.  Outside memory the instruction pointer wraps to the first program
line; at a cell that cell is executed; behind the last cell of a line the machine returns to the
address on the return stack.  A run takes steps until a condition holds, a limit is reached or a
fault interrupts a step.

Main definitions:

* `LineMachine.Machine.step` — one step;
* `LineMachine.Machine.steps` — a number of steps;
* `LineMachine.Run`, `LineMachine.Machine.runUntil` — a run with a stopping condition and a limit.

Main results:

* `LineMachine.Machine.steps_add` — steps compose.
-/

import LineMachine.Machine.Dispatch

set_option relaxedAutoImplicit false
set_option autoImplicit false

namespace LineMachine

namespace Machine

/-! ### One step -/

/-- **Returns** to the address on the return stack, whose column lies above its line. -/
def comeBack (m : Machine) : Outcome :=
  match m.popReturn? with
  | none => .halt m.returnUnderflow m
  | some (col, m) =>
      match m.popReturn? with
      | none => .halt m.returnUnderflow m
      | some (line, m) => .next { m with ip := ⟨line.toInt, col.toInt⟩ }

/-- The machine with the instruction pointer behind the current cell. -/
def advance (m : Machine) : Machine := { m with ip := ⟨m.ip.line, m.ip.col + 1⟩ }

/-- **One step of the machine.** -/
def step (m : Machine) : Outcome :=
  match m.memory.fetch m.ip with
  | .outside => .next (m.jump firstLine)
  | .cell c => m.advance.execute c.toInt
  | .lineEnd => m.comeBack
  | .missing => .halt .missingCell m

/-- Whether the next step reads input that the machine does not have. -/
def awaitsInput (m : Machine) : Bool :=
  m.input.isEmpty &&
    match m.memory.fetch m.ip, m.data.topFirst with
    | .cell c, opcode :: cells =>
        c.toInt == callCell && (resolve opcode.toInt cells).map (·.1) == some (.act .read)
    | _, _ => false

/-! ### Several steps -/

/-- So many steps, ending early at a fault. -/
def steps : Nat → Machine → Outcome
  | 0, m => .next m
  | n + 1, m =>
      match m.step with
      | .next m => steps n m
      | .halt f m => .halt f m

@[simp] theorem steps_zero (m : Machine) : steps 0 m = .next m := rfl

theorem steps_succ {n : Nat} {m m' : Machine} (h : m.step = .next m') :
    steps (n + 1) m = steps n m' := by
  simp only [steps, h]

theorem steps_succ_halt {n : Nat} {m m' : Machine} {f : Fault} (h : m.step = .halt f m') :
    steps (n + 1) m = .halt f m' := by
  simp only [steps, h]

/-- Steps compose. -/
theorem steps_add {n k : Nat} {m m' : Machine} (h : steps n m = .next m') :
    steps (n + k) m = steps k m' := by
  induction n generalizing m with
  | zero =>
      simp only [steps_zero, Outcome.next.injEq] at h
      rw [Nat.zero_add, h]
  | succ n ih =>
      cases hs : m.step with
      | next m₁ =>
          rw [steps_succ hs] at h
          rw [Nat.succ_add, steps_succ hs, ih h]
      | halt f m₁ =>
          rw [steps_succ_halt hs] at h
          cases h

end Machine

/-! ### Runs -/

/-- How a run ended. -/
inductive Ending where
  /-- The condition held. -/
  | arrived
  /-- The limit was reached. -/
  | outOfSteps
  /-- A fault interrupted a step. -/
  | halted (f : Fault)
  deriving DecidableEq, Repr

/-- **A run**: the state it left, how many steps it completed and how it ended. -/
structure Run where
  machine : Machine
  steps : Nat
  ending : Ending
  deriving DecidableEq, Repr

namespace Machine

/-- A run that continues after some completed steps. -/
def runFrom (stop : Machine → Bool) (limit done : Nat) (m : Machine) : Run :=
  if stop m then ⟨m, done, .arrived⟩
  else
    match limit with
    | 0 => ⟨m, done, .outOfSteps⟩
    | limit + 1 =>
        match m.step with
        | .next m => runFrom stop limit (done + 1) m
        | .halt f m => ⟨m, done, .halted f⟩

/-- **Runs the machine** until a condition holds.  The condition is looked at before the limit, and
the limit before each step; a step that a fault interrupts does not count. -/
def runUntil (stop : Machine → Bool) (limit : Nat) (m : Machine) : Run := runFrom stop limit 0 m

end Machine

end LineMachine
