/-
**Straight lines: runs that go along a line and change the data stack only.**

Where cells stand at the instruction pointer, a step executes the first of them and goes on to the
next, unless it calls a line or restarts this one.  As long as each step does, and nothing is read
or written, only the data stack changes besides.  Such runs are put together from shorter ones, down
to single cells that are data, and to an opcode with the call cell behind it that is an action.

Main definitions:

* `LineMachine.Machine.Faces` — **cells that stand at the instruction pointer**;
* `LineMachine.Machine.moved`, `LineMachine.Machine.Along` — the machine further on its line, and
  **runs that go there step by step**.

Main results:

* `LineMachine.Machine.Along.trans` — runs along a line compose;
* `LineMachine.Machine.step_of_faces`, `LineMachine.Machine.step_of_faces_call` — what a step makes
  of the cell that it finds;
* `LineMachine.Machine.dispatch_of_act` — an opcode that is an action.
-/

import LineMachine.Proofs.Layout
import LineMachine.Proofs.Runs

set_option relaxedAutoImplicit false
set_option autoImplicit false

namespace LineMachine

namespace Machine

variable {m : Machine} {cells cells' : List Cell} {data : Stack Cell} {n : Nat}

/-! ### Cells at the instruction pointer -/

/-- **Cells that stand at the instruction pointer.** -/
def Faces (m : Machine) (cells : List Cell) : Prop :=
  ∃ before behind, m.memory.line m.ip.line = before ++ (cells ++ behind) ∧
    m.ip.col = before.length

/-- The machine so many cells further on its line, with another data stack. -/
def moved (m : Machine) (n : Nat) (data : Stack Cell) : Machine :=
  { m with data := data, ip := ⟨m.ip.line, m.ip.col + n⟩ }

theorem moved_zero (m : Machine) : m.moved 0 m.data = m := by
  simp [moved]

theorem moved_moved (m : Machine) (n k : Nat) (data data' : Stack Cell) :
    (m.moved n data).moved k data' = m.moved (n + k) data' := by
  simp only [moved, Int.natCast_add, Int.add_assoc]

/-- In front of cells the first of them stand too. -/
theorem Faces.left (h : m.Faces (cells ++ cells')) : m.Faces cells := by
  obtain ⟨before, behind, hline, hcol⟩ := h
  rw [List.append_assoc] at hline
  exact ⟨before, cells' ++ behind, hline, hcol⟩

/-- Behind the first of them stand the others. -/
theorem Faces.right (h : m.Faces (cells ++ cells')) (data : Stack Cell) :
    (m.moved cells.length data).Faces cells' := by
  obtain ⟨before, behind, hline, hcol⟩ := h
  refine ⟨before ++ cells, behind, ?_, ?_⟩
  · simpa [moved] using hline
  · simp [moved, hcol]

/-- The first of them is found there. -/
theorem Faces.fetch {c : Cell} (h : m.Faces (c :: cells)) : m.memory.fetch m.ip = .cell c := by
  obtain ⟨before, behind, hline, hcol⟩ := h
  have hf : m.memory.fetch ⟨m.ip.line, before.length⟩ = .cell c := Memory.fetch_eq_cell hline
  rw [← hcol] at hf
  exact hf

/-! ### Runs along a line -/

/-- **A run along a line**: each step goes on to the next cell, and changes nothing else but the
data stack. -/
inductive Along (m : Machine) : Nat → Stack Cell → Prop where
  | start : Along m 0 m.data
  | step {n : Nat} {data data' : Stack Cell} (h : Along m n data)
      (hstep : (m.moved n data).step = .next (m.moved (n + 1) data')) : Along m (n + 1) data'

namespace Along

theorem steps (h : m.Along n data) : steps n m = .next (m.moved n data) := by
  induction h with
  | start => rw [moved_zero, steps_zero]
  | step _ hstep ih => exact steps_succ_eq_next_iff.2 ⟨_, ih, hstep⟩

/-- At every step before, the run was on the cell of that number. -/
theorem earlier (h : m.Along n data) {j : Nat} (hj : j ≤ n) : ∃ data', m.Along j data' := by
  induction h with
  | start =>
      obtain rfl : j = 0 := by omega
      exact ⟨m.data, .start⟩
  | @step n data data' h hstep ih =>
      rcases Nat.lt_or_eq_of_le hj with hlt | rfl
      · exact ih (Nat.le_of_lt_succ hlt)
      · exact ⟨data', .step h hstep⟩

theorem single (hstep : m.step = .next (m.moved 1 data)) : m.Along 1 data := by
  refine .step .start ?_
  rwa [moved_zero]

/-- **Runs along a line compose.** -/
theorem trans {k : Nat} {data' : Stack Cell} (h : m.Along n data)
    (h' : (m.moved n data).Along k data') : m.Along (n + k) data' := by
  induction h' with
  | start => exact h
  | step _ hstep ih =>
      refine .step ih ?_
      rwa [moved_moved, moved_moved] at hstep

end Along

/-! ### Single cells -/

/-- A cell that is not the call cell is put on the data stack. -/
theorem step_of_faces {c : Cell} (h : m.Faces (c :: cells)) (hc : c.toInt ≠ callCell) :
    m.step = .next (m.moved 1 (m.data.push c)) := by
  simp only [step, h.fetch, execute, if_neg hc, push, Cell.wrap_toInt]
  rfl

/-- The call cell takes an opcode off the data stack and runs it. -/
theorem step_of_faces_call {opcode : Cell} (h : m.Faces (Cell.wrap callCell :: cells))
    (hdata : m.data = data.push opcode) : m.step = (m.moved 1 data).dispatch opcode.toInt := by
  have hcall : (Cell.wrap callCell).toInt = callCell := by decide
  simp only [step, h.fetch, execute, if_pos hcall, pop?, advance, hdata, Stack.pop?_push,
    Option.map_some]
  rfl

/-- **An opcode that is an action** performs it. -/
theorem dispatch_of_act {slot : Nat} {a : Action} (hslot : (slot : Int) < firstLine)
    (ha : Opcode.ofSlot slot = .act a) (m : Machine) : m.dispatch slot = m.perform a := by
  have hresolve : resolve slot m.data.topFirst = some (.act a, m.data.topFirst) := by
    unfold resolve
    rw [if_neg (by omega), if_neg (by omega), Int.toNat_natCast, ha]
  unfold dispatch
  rw [hresolve]

/-- The cells that run an opcode. -/
def runs (slot : Nat) : List Cell := [Cell.wrap slot, Cell.wrap callCell]

/-- **An opcode and the call cell** perform an action in two steps. -/
theorem step_of_faces_runs {slot : Nat} {a : Action} (h : m.Faces (runs slot))
    (hslot : (slot : Int) < firstLine) (ha : Opcode.ofSlot slot = .act a) :
    m.Along 1 (m.data.push (Cell.wrap slot)) ∧
      (m.moved 1 (m.data.push (Cell.wrap slot))).step = (m.moved 2 m.data).perform a := by
  have htoInt : (Cell.wrap slot).toInt = slot := by
    refine Cell.toInt_wrap_of_inRange ?_
    unfold firstLine at hslot
    simp only [Cell.InRange, Cell.bound]
    omega
  have hdata : (Cell.wrap slot).toInt ≠ callCell := by
    unfold firstLine at hslot
    unfold callCell
    omega
  have hboth : m.Faces ([Cell.wrap slot] ++ [Cell.wrap callCell]) := h
  have hcall : (m.moved 1 (m.data.push (Cell.wrap slot))).Faces [Cell.wrap callCell] :=
    hboth.right (m.data.push (Cell.wrap slot))
  refine ⟨.single (step_of_faces h hdata), ?_⟩
  rw [step_of_faces_call hcall rfl, htoInt, dispatch_of_act hslot ha, moved_moved]

end Machine

end LineMachine
