/-
**Control: what one step does to the instruction pointer and the return stack.**

A step wraps, executes a cell or returns.  Executing a cell either calls a line, which saves the
address behind the call, or stays in the line that it stands in.  This module says so once, with
everything that the other cases leave alone, so that what a run keeps is proved by one look at
each of the six cases of `LineMachine.Machine.Control`.

Main definitions:

* `LineMachine.Machine.OperandFault` — the faults of executing a cell;
* `LineMachine.Outcome.StaysIn` — an operation that neither calls nor returns;
* `LineMachine.Machine.Control` — **the six things that a step can do**;
* `LineMachine.Machine.Calls` — the next step calls a line.

Main results:

* `LineMachine.Machine.control_step` — every step does one of the six;
* `LineMachine.Machine.step_of_calls` — what a call comes to.
-/

import LineMachine.Machine.Step

set_option relaxedAutoImplicit false
set_option autoImplicit false

namespace LineMachine

/-! ### Staying in a line -/

/-- **The faults of executing a cell**, diagnosed at the line of the instruction pointer. -/
inductive Machine.OperandFault (m : Machine) : Fault → Prop where
  | dataUnderflow : OperandFault m m.dataUnderflow
  | swap : OperandFault m (m.shortage 2 "swap")
  | dup : OperandFault m (m.shortage 1 "dup")
  | loop : OperandFault m (m.shortage 1 "loop")
  | divisionByZero : OperandFault m (.divisionByZero (m.diagnose "division by zero"))
  | exit (status : Cell) : OperandFault m (.exit status)

/-- The faults of executing a cell depend on the file and the line alone. -/
theorem Machine.OperandFault.of_diagnose {m m' : Machine} {f : Fault} (h : m.OperandFault f)
    (hd : m.diagnose = m'.diagnose) : m'.OperandFault f := by
  cases h with
  | dataUnderflow =>
      rw [Machine.dataUnderflow, hd]
      exact .dataUnderflow
  | swap =>
      rw [shortage, hd]
      exact .swap
  | dup =>
      rw [shortage, hd]
      exact .dup
  | loop =>
      rw [shortage, hd]
      exact .loop
  | divisionByZero =>
      rw [hd]
      exact .divisionByZero
  | exit status => exact .exit status

/-- **An operation that neither calls nor returns.**  It leaves the return stack, program memory
and the file alone, it leaves the instruction pointer where it is or restarts the line, and it
fails for its operands only. -/
structure Outcome.StaysIn (o : Outcome) (m : Machine) : Prop where
  ret : o.machine.ret = m.ret
  memory : o.machine.memory = m.memory
  file : o.machine.file = m.file
  ip : o.machine.ip = m.ip ∨ o.machine.ip = .start m.ip.line
  fault : ∀ f, o.fault? = some f → m.OperandFault f

namespace Outcome.StaysIn

variable {m m' : Machine}

theorem of_next (hret : m'.ret = m.ret) (hmemory : m'.memory = m.memory)
    (hfile : m'.file = m.file) (hip : m'.ip = m.ip ∨ m'.ip = .start m.ip.line) :
    (Outcome.next m').StaysIn m where
  ret := hret
  memory := hmemory
  file := hfile
  ip := hip
  fault := by simp [Outcome.fault?]

theorem of_halt {f : Fault} (hret : m'.ret = m.ret) (hmemory : m'.memory = m.memory)
    (hfile : m'.file = m.file) (hip : m'.ip = m.ip) (hf : m.OperandFault f) :
    (Outcome.halt f m').StaysIn m where
  ret := hret
  memory := hmemory
  file := hfile
  ip := .inl hip
  fault := by simpa [Outcome.fault?] using hf

end Outcome.StaysIn

namespace Machine

open Outcome.StaysIn

/-- **An action stays in its line.** -/
theorem staysIn_perform (m : Machine) (a : Action) : (m.perform a).StaysIn m := by
  -- only a loop moves the instruction pointer
  have done {m' : Machine} (hret : m'.ret = m.ret) (hmemory : m'.memory = m.memory)
      (hfile : m'.file = m.file) (hip : m'.ip = m.ip) : (Outcome.next m').StaysIn m :=
    of_next hret hmemory hfile (.inl hip)
  cases a with
  | operator o =>
      rcases hdata : m.data.topFirst with _ | ⟨right, _ | ⟨left, rest⟩⟩
      · simp only [perform, hdata]
        exact of_halt rfl rfl rfl rfl .dataUnderflow
      · simp only [perform, hdata]
        exact of_halt rfl rfl rfl rfl .dataUnderflow
      · simp only [perform, hdata]
        cases o.apply left right with
        | some c => exact done rfl rfl rfl rfl
        | none => exact of_halt rfl rfl rfl rfl .divisionByZero
  | not =>
      rcases hdata : m.data.topFirst with _ | ⟨c, rest⟩
      · simp only [perform, hdata]
        exact of_halt rfl rfl rfl rfl .dataUnderflow
      · simp only [perform, hdata]
        exact done rfl rfl rfl rfl
  | swap =>
      rcases hdata : m.data.topFirst with _ | ⟨b, _ | ⟨a, rest⟩⟩
      · simp only [perform, hdata]
        exact of_halt rfl rfl rfl rfl .swap
      · simp only [perform, hdata]
        exact of_halt rfl rfl rfl rfl .swap
      · simp only [perform, hdata]
        exact done rfl rfl rfl rfl
  | dup =>
      rcases hdata : m.data.topFirst with _ | ⟨c, rest⟩
      · simp only [perform, hdata]
        exact of_halt rfl rfl rfl rfl .dup
      · simp only [perform, hdata]
        exact done rfl rfl rfl rfl
  | drop =>
      rcases hdata : m.data.topFirst with _ | ⟨c, rest⟩
      · simp only [perform, hdata]
        exact of_halt rfl rfl rfl rfl .dataUnderflow
      · simp only [perform, hdata]
        exact done rfl rfl rfl rfl
  | loop =>
      rcases hdata : m.data.topFirst with _ | ⟨c, rest⟩
      · simp only [perform, hdata]
        exact of_halt rfl rfl rfl rfl .loop
      · simp only [perform, hdata]
        split
        · exact done rfl rfl rfl rfl
        · exact of_next rfl rfl rfl (.inr rfl)
  | emit =>
      rcases hdata : m.data.topFirst with _ | ⟨c, rest⟩
      · simp only [perform, hdata]
        exact of_halt rfl rfl rfl rfl .dataUnderflow
      · simp only [perform, hdata]
        exact done rfl rfl rfl rfl
  | read =>
      simp only [perform]
      cases m.input with
      | nil => exact done rfl rfl rfl rfl
      | cons c input => exact done rfl rfl rfl rfl
  | exit =>
      rcases hdata : m.data.topFirst with _ | ⟨c, rest⟩
      · simp only [perform, hdata]
        exact of_halt rfl rfl rfl rfl .dataUnderflow
      · simp only [perform, hdata]
        exact of_halt rfl rfl rfl rfl (.exit c)

/-- What is taken off the data stack first has no part in whether an operation stays. -/
theorem staysIn_of_data {m : Machine} {data : Stack Cell} {o : Outcome}
    (h : o.StaysIn { m with data := data }) : o.StaysIn m where
  ret := h.ret
  memory := h.memory
  file := h.file
  ip := h.ip
  fault f hf := (h.fault f hf).of_diagnose rfl

/-! ### Calling -/

/-- A chain of branches ends in a call of compiled-line numbers only. -/
theorem firstLine_le_of_resolve {opcode line : Int} {cells rest : List Cell}
    (h : resolve opcode cells = some (.call line, rest)) : firstLine ≤ line := by
  fun_induction resolve opcode cells with
  | case1 => simp at h
  | case2 opcode cells _ hfirst =>
      simp only [Option.some.injEq, Prod.mk.injEq, Leaf.call.injEq] at h
      exact h.1 ▸ hfirst
  | case3 => simp at h
  | case4 => simp at h
  | case5 _ _ _ _ _ _ _ _ ih => exact ih h
  | case6 _ _ _ _ _ _ _ _ ih => exact ih h
  | case7 => simp at h

/-- Running an opcode stays in the line or calls one. -/
theorem dispatch_staysIn_or_call (m : Machine) (opcode : Int) :
    (m.dispatch opcode).StaysIn m ∨
      ∃ line data, firstLine ≤ line ∧
        m.dispatch opcode = .next ({ m with data := data }.call line) := by
  unfold dispatch
  cases hleaf : resolve opcode m.data.topFirst with
  | none => exact .inl (of_halt rfl rfl rfl rfl .dataUnderflow)
  | some found =>
      obtain ⟨leaf, rest⟩ := found
      cases leaf with
      | nothing => exact .inl (of_next rfl rfl rfl (.inl rfl))
      | act a => exact .inl (staysIn_of_data (staysIn_perform _ a))
      | call line => exact .inr ⟨line, ⟨rest⟩, firstLine_le_of_resolve hleaf, rfl⟩

/-- Executing a cell stays in the line, unless it is the call cell and calls one. -/
theorem execute_staysIn_or_call (m : Machine) (v : Int) :
    (m.execute v).StaysIn m ∨
      v = callCell ∧ ∃ line data, firstLine ≤ line ∧
        m.execute v = .next ({ m with data := data }.call line) := by
  unfold execute
  split
  · rename_i hv
    cases hpop : m.pop? with
    | none => exact .inl (of_halt rfl rfl rfl rfl .dataUnderflow)
    | some popped =>
        obtain ⟨⟨opcode, data⟩, hdata, rfl⟩ := Option.map_eq_some_iff.1 hpop
        rcases dispatch_staysIn_or_call { m with data := data } opcode.toInt with h | h
        · exact .inl (staysIn_of_data h)
        · exact .inr ⟨hv, h⟩
  · exact .inl (of_next rfl rfl rfl (.inl rfl))

/-! ### One step -/

/-- **The six things that a step can do**, with what each of them does to control. -/
inductive Control (m : Machine) : Outcome → Prop where
  /-- Outside memory: go to the first program line. -/
  | wrap (hf : m.memory.fetch m.ip = .outside) : Control m (.next (m.jump firstLine))
  /-- At a cell: execute it and stay in the line. -/
  | stay {c : Cell} {o : Outcome} (hf : m.memory.fetch m.ip = .cell c)
      (ho : o.StaysIn m.advance) : Control m o
  /-- At a call cell: save the address behind it and call a line. -/
  | call {c : Cell} {line : Int} {data : Stack Cell} (hf : m.memory.fetch m.ip = .cell c)
      (hc : c.toInt = callCell) (hline : firstLine ≤ line) :
      Control m (.next ({ m.advance with data := data }.call line))
  /-- Behind the last cell: return to the address on the return stack. -/
  | comeBack {line col : Cell} {ret : Stack Cell} (hf : m.memory.fetch m.ip = .lineEnd)
      (hret : m.ret = (ret.push line).push col) :
      Control m (.next { m with ret := ret, ip := ⟨line.toInt, col.toInt⟩ })
  /-- Behind the last cell, without a whole address to return to: fail. -/
  | strand (hf : m.memory.fetch m.ip = .lineEnd) (hret : m.ret.depth < 2) :
      Control m (.halt m.returnUnderflow { m with ret := .empty })
  /-- Before the first cell: fail. -/
  | missing (hf : m.memory.fetch m.ip = .missing) : Control m (.halt .missingCell m)

theorem comeBack_of_push_push {m : Machine} {line col : Cell} {ret : Stack Cell}
    (hret : m.ret = (ret.push line).push col) :
    m.comeBack = .next { m with ret := ret, ip := ⟨line.toInt, col.toInt⟩ } := by
  simp [comeBack, popReturn?, hret]

/-- A return takes a whole address off the return stack, or empties it. -/
theorem control_comeBack {m : Machine} (hf : m.memory.fetch m.ip = .lineEnd) :
    m.Control m.comeBack := by
  -- no cell, a cell that is no whole address, or an address on top
  rcases hret : m.ret with ⟨_ | ⟨col, _ | ⟨line, rest⟩⟩⟩
  · have hempty : (Stack.empty : Stack Cell) = m.ret := hret.symm
    have hcome : m.comeBack = .halt m.returnUnderflow { m with ret := .empty } := by
      have hpop : m.popReturn? = none := by simp [popReturn?, hret, Stack.pop?]
      simp only [hempty, comeBack, hpop]
    rw [hcome]
    exact .strand hf (by simp [hret, Stack.depth])
  · have hcome : m.comeBack = .halt m.returnUnderflow { m with ret := .empty } := by
      simp [comeBack, popReturn?, hret, Stack.pop?, Stack.empty, returnUnderflow, diagnose]
    rw [hcome]
    exact .strand hf (by simp [hret, Stack.depth])
  · rw [comeBack_of_push_push hret]
    exact .comeBack hf hret

/-- **Every step does one of the six things.** -/
theorem control_step (m : Machine) : m.Control m.step := by
  unfold step
  cases hf : m.memory.fetch m.ip with
  | outside => exact .wrap hf
  | cell c =>
      rcases execute_staysIn_or_call m.advance c.toInt with h | ⟨hc, line, data, hline, h⟩
      · exact .stay hf h
      · dsimp only
        rw [h]
        exact .call hf hc hline
  | lineEnd => exact control_comeBack hf
  | missing => exact .missing hf

/-- No step changes program memory. -/
theorem memory_step (m : Machine) : m.step.machine.memory = m.memory := by
  have hcontrol := m.control_step
  generalize m.step = o at hcontrol ⊢
  cases hcontrol with
  | stay hf ho => exact ho.memory
  | wrap | call | comeBack | strand | missing => rfl

/-! ### Steps that return or call -/

/-- Behind the last cell of a line the machine returns to the address on the return stack. -/
theorem step_of_push_push {m : Machine} {line col : Cell} {ret : Stack Cell}
    (hf : m.memory.fetch m.ip = .lineEnd) (hret : m.ret = (ret.push line).push col) :
    m.step = .next { m with ret := ret, ip := ⟨line.toInt, col.toInt⟩ } := by
  simp only [step, hf]
  exact comeBack_of_push_push hret

/-- **The next step calls a line**: it executes the call cell, and the opcode below it leads to
the call, by itself or through branches. -/
def Calls (m : Machine) (line : Int) : Prop :=
  ∃ c opcode cells rest, m.memory.fetch m.ip = .cell c ∧ c.toInt = callCell ∧
    m.data.topFirst = opcode :: cells ∧ resolve opcode.toInt cells = some (.call line, rest)

/-- **What a call comes to**: the address behind the call cell is saved, line first, and the
instruction pointer goes to the beginning of the line. -/
theorem step_of_calls {m : Machine} {line : Int} (h : m.Calls line) :
    ∃ m₁, m.step = .next m₁ ∧ m₁.ip = .start line ∧
      m₁.ret = (m.ret.push (Cell.wrap m.ip.line)).push (Cell.wrap (m.ip.col + 1)) := by
  obtain ⟨c, opcode, cells, rest, hf, hc, hdata, hleaf⟩ := h
  have hpop : m.advance.pop? = some (opcode, { m.advance with data := ⟨cells⟩ }) := by
    simp [pop?, advance, Stack.pop?, hdata]
  refine ⟨{ m.advance with data := ⟨rest⟩ }.call line, ?_, rfl, rfl⟩
  simp only [step, hf, execute, if_pos hc, hpop, dispatch, hleaf]

end Machine

end LineMachine
