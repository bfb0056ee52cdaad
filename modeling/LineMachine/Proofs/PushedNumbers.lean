/-
**Pushed numbers: where a number is more than its cell.**

A number reaches the data stack in two ways.  It is pushed by hand, or it is compiled onto a line
and pushed when that cell is executed.  Compiling wraps the number, so what is executed is a cell.
A number that is pushed by hand is held against the call cell first and wrapped only when it is
stored.  The two ways come apart on the numbers that hide a call: they wrap to the call cell without
being equal to it.  By hand they are data, and as cells they call.  On all other numbers only the
cell counts.

Main definitions:

* `LineMachine.Cell.HidesCall` — **the numbers that hide a call**;
* `LineMachine.Machine.poised` — a machine about to execute the cell that a number was compiled to.

Main results:

* `LineMachine.Cell.hidesCall_iff` — which numbers hide a call;
* `LineMachine.Machine.depth_dispatch_le` — an opcode leaves at most one cell more than there were;
* `LineMachine.Machine.step_poised` — what executing a compiled number comes to;
* `LineMachine.Machine.execute_wrap` — **only the cell counts unless a number hides a call**.
-/

import LineMachine.Machine.Step
import LineMachine.Proofs.ProgramMemory

set_option relaxedAutoImplicit false
set_option autoImplicit false

namespace LineMachine

/-! ### Numbers that hide a call -/

namespace Cell

variable {v w : Int}

/-- Numbers wrap to one cell if they differ by a multiple of the number of cells. -/
theorem wrap_eq_wrap_iff : wrap v = wrap w ↔ ∃ k : Int, v = w + k * count := by
  rw [← Int32.toInt_inj, toInt_wrap, toInt_wrap, Int.bmod_eq_bmod_iff_bmod_sub_eq_zero,
    ← Int.dvd_iff_bmod_eq_zero]
  constructor
  · rintro ⟨k, hk⟩
    refine ⟨k, ?_⟩
    rw [Int.mul_comm]
    omega
  · rintro ⟨k, rfl⟩
    refine ⟨k, ?_⟩
    rw [Int.mul_comm]
    omega

/-- **A number that hides a call**: it wraps to the call cell and is not the number that calls. -/
def HidesCall (v : Int) : Prop := v ≠ callCell ∧ wrap v = wrap callCell

instance (v : Int) : Decidable (HidesCall v) := inferInstanceAs (Decidable (_ ∧ _))

/-- The numbers that hide a call are as far from the call cell as a multiple of the number of
cells. -/
theorem hidesCall_iff : HidesCall v ↔ ∃ k : Int, k ≠ 0 ∧ v = callCell + k * count := by
  unfold HidesCall
  rw [wrap_eq_wrap_iff]
  constructor
  · rintro ⟨hne, k, rfl⟩
    refine ⟨k, ?_, rfl⟩
    rintro rfl
    exact hne (by simp)
  · rintro ⟨k, hk, rfl⟩
    refine ⟨?_, k, rfl⟩
    simp only [count]
    omega

/-- No number in range hides a call. -/
theorem not_hidesCall_of_inRange (h : InRange v) : ¬ HidesCall v := by
  rintro ⟨hne, hwrap⟩
  refine hne ?_
  have hcall : InRange callCell := by decide
  rw [← toInt_wrap_of_inRange h, hwrap, toInt_wrap_of_inRange hcall]

end Cell

namespace Machine

variable {m : Machine} {v w number : Int}

/-! ### How much a cell can push -/

/-- An action leaves at most one cell more than there were. -/
theorem depth_perform_le (m : Machine) (a : Action) :
    (m.perform a).machine.data.depth ≤ m.data.depth + 1 := by
  unfold Stack.depth
  cases a with
  | operator o =>
      rcases hdata : m.data.topFirst with _ | ⟨right, _ | ⟨left, rest⟩⟩
      · simp [perform, hdata, Outcome.machine, Stack.empty]
      · simp [perform, hdata, Outcome.machine, Stack.empty]
      · cases happly : o.apply left right with
        | some c => simp [perform, hdata, happly, Outcome.machine]
        | none =>
            simp only [perform, hdata, happly, Outcome.machine, List.length_cons]
            omega
  | swap =>
      rcases hdata : m.data.topFirst with _ | ⟨b, _ | ⟨a, rest⟩⟩
      · simp [perform, hdata, Outcome.machine]
      · simp [perform, hdata, Outcome.machine]
      · simp [perform, hdata, Outcome.machine]
  | loop =>
      rcases hdata : m.data.topFirst with _ | ⟨c, rest⟩
      · simp [perform, hdata, Outcome.machine]
      · by_cases hc : c = 0
        · simp only [perform, hdata, if_pos hc, Outcome.machine, List.length_cons]
          omega
        · simp [perform, hdata, if_neg hc, Outcome.machine, jump]
  | read =>
      cases hinput : m.input with
      | nil => simp [perform, hinput, Outcome.machine]
      | cons c input => simp [perform, hinput, Outcome.machine]
  | not | dup | drop | emit | exit =>
      rcases hdata : m.data.topFirst with _ | ⟨c, rest⟩
      · simp [perform, hdata, Outcome.machine]
      · simp only [perform, hdata, Outcome.machine, List.length_cons]
        omega

/-- **An opcode leaves at most one cell more than there were.** -/
theorem depth_dispatch_le (m : Machine) (opcode : Int) :
    (m.dispatch opcode).machine.data.depth ≤ m.data.depth + 1 := by
  unfold dispatch
  cases hleaf : resolve opcode m.data.topFirst with
  | none => exact Nat.zero_le _
  | some found =>
      obtain ⟨leaf, rest⟩ := found
      -- branches only take cells off
      have hrest : rest.length ≤ m.data.depth := (resolve_suffix hleaf).length_le
      cases leaf with
      | nothing => exact Nat.le_succ_of_le hrest
      | call line => exact Nat.le_succ_of_le hrest
      | act a =>
          have hact := depth_perform_le { m with data := ⟨rest⟩ } a
          exact Nat.le_trans hact (Nat.succ_le_succ hrest)

/-- **The call cell leaves no more cells than there were**: it takes the opcode that it runs. -/
theorem depth_execute_callCell_le (m : Machine) :
    (m.execute callCell).machine.data.depth ≤ m.data.depth := by
  unfold execute
  rw [if_pos rfl]
  rcases hdata : m.data.topFirst with _ | ⟨opcode, cells⟩
  · have hpop : m.pop? = none := by simp [pop?, Stack.pop?, hdata]
    rw [hpop]
    exact Nat.le_refl _
  · have hpop : m.pop? = some (opcode, { m with data := ⟨cells⟩ }) := by
      simp [pop?, Stack.pop?, hdata]
    have hdepth : m.data.depth = cells.length + 1 := by simp [Stack.depth, hdata]
    rw [hpop, hdepth]
    exact depth_dispatch_le _ opcode.toInt

/-! ### Numbers that are pushed by hand -/

/-- A number that does not call is stored as its cell. -/
theorem execute_of_ne_callCell (hv : v ≠ callCell) :
    m.execute v = .next { m with data := m.data.push (Cell.wrap v) } := by
  unfold execute
  rw [if_neg hv]
  rfl

/-- Storing a cell and calling are told apart by what is left on the data stack. -/
theorem execute_ne_execute_callCell (hv : v ≠ callCell) : m.execute v ≠ m.execute callCell := by
  intro heq
  have hcalled := depth_execute_callCell_le m
  rw [← heq, execute_of_ne_callCell hv] at hcalled
  simp only [Outcome.machine, Stack.depth, Stack.push, List.length_cons] at hcalled
  omega

/-- **Numbers with one cell do the same** if both call or neither does, and only then. -/
theorem execute_eq_execute_iff (hcell : Cell.wrap w = Cell.wrap v) :
    m.execute w = m.execute v ↔ (w = callCell ↔ v = callCell) := by
  by_cases hw : w = callCell
  · subst hw
    by_cases hv : v = callCell
    · subst hv
      exact iff_of_true rfl Iff.rfl
    · refine iff_of_false ?_ fun h => hv (h.1 rfl)
      exact (execute_ne_execute_callCell hv).symm
  · by_cases hv : v = callCell
    · subst hv
      refine iff_of_false ?_ fun h => hw (h.2 rfl)
      exact execute_ne_execute_callCell hw
    · refine iff_of_true ?_ (iff_of_false hw hv)
      rw [execute_of_ne_callCell hw, execute_of_ne_callCell hv, hcell]

/-- A number and its cell do the same unless the number hides a call. -/
theorem execute_eq_execute_wrap_iff :
    m.execute v = m.execute (Cell.wrap v).toInt ↔ ¬ Cell.HidesCall v := by
  have hcell : Cell.wrap v = Cell.wrap (Cell.wrap v).toInt := (Cell.wrap_toInt _).symm
  have hcall : (Cell.wrap v).toInt = callCell ↔ Cell.wrap v = Cell.wrap callCell := by
    rw [← Int32.toInt_inj]
    exact Iff.rfl
  rw [execute_eq_execute_iff hcell, hcall, Cell.HidesCall]
  by_cases hv : v = callCell
  · simp [hv]
  · simp [hv]

/-! ### Numbers that are compiled -/

/-- **A machine about to execute a number that was compiled**: the number has become the last cell
of a line, and that is the next cell. -/
def poised (m : Machine) (number v : Int) : Machine :=
  { m.compile number v with ip := ⟨number, m.memory.lineSize number⟩ }

/-- **Executing a compiled number** is pushing its cell, behind the place where it stands. -/
theorem step_poised (hline : IsCompiled number) :
    (m.poised number v).step = (m.poised number v).advance.execute (Cell.wrap v).toInt := by
  have hcells : (m.memory.compile number v).line number =
      m.memory.line number ++ Cell.wrap v :: [] := by
    rw [Memory.line_compile, if_pos ⟨rfl, hline⟩]
  have hfetch : (m.poised number v).memory.fetch (m.poised number v).ip = .cell (Cell.wrap v) := by
    have hlast := Memory.fetch_eq_cell hcells
    rwa [Memory.length_line] at hlast
  simp only [step, hfetch]

/-! ### Both ways -/

/-- **Only the cell counts unless a number hides a call.**

Numbers that wrap to one cell do the same when they are pushed, if both of them or neither is the
number that calls.  So a number does what its cell does, and pushing it by hand does what executing
it does once it is compiled, with the machine in the same place; the exceptions are the numbers that
hide a call, and these are as far from the call cell as a multiple of the number of cells.  Such a
number is out of range.  It is stored as the call cell when it is pushed by hand, where its cell,
which calls, leaves no more cells than there were. -/
theorem execute_wrap (m : Machine) (v : Int) :
    (∀ w, Cell.wrap w = Cell.wrap v →
      (m.execute w = m.execute v ↔ (w = callCell ↔ v = callCell))) ∧
    (m.execute v = m.execute (Cell.wrap v).toInt ↔ ¬ Cell.HidesCall v) ∧
    (∀ number, IsCompiled number →
      ((m.poised number v).advance.execute v = (m.poised number v).step ↔ ¬ Cell.HidesCall v)) ∧
    (Cell.HidesCall v ↔ ∃ k : Int, k ≠ 0 ∧ v = callCell + k * Cell.count) ∧
    (Cell.HidesCall v → ¬ Cell.InRange v ∧
      m.execute v = .next { m with data := m.data.push (Cell.wrap callCell) } ∧
      (m.execute (Cell.wrap v).toInt).machine.data.depth ≤ m.data.depth) := by
  refine ⟨fun w => execute_eq_execute_iff, execute_eq_execute_wrap_iff, ?_,
    Cell.hidesCall_iff, ?_⟩
  · intro number hline
    rw [step_poised hline]
    exact execute_eq_execute_wrap_iff
  · rintro ⟨hne, hwrap⟩
    have hcell : (Cell.wrap callCell).toInt = callCell := by decide
    rw [execute_of_ne_callCell hne, hwrap, hcell]
    exact ⟨fun hrange => Cell.not_hidesCall_of_inRange hrange ⟨hne, hwrap⟩, rfl,
      depth_execute_callCell_le m⟩

/-- A machine with two cells, of which the upper one is the opcode that copies a cell. -/
def aboutToCopy : Machine := { fresh [] .emptyText with data := ⟨[9, 5]⟩ }

/-- A negative number that wraps to a copied line, and the first number that hides a call, which is
data by hand and copies as a cell. -/
theorem execute_wrap_hidden_copy :
    aboutToCopy.execute (-4294967275) = aboutToCopy.execute 21 ∧
    aboutToCopy.execute 4294967338 = .next { aboutToCopy with data := ⟨[42, 9, 5]⟩ } ∧
    (aboutToCopy.execute (Cell.wrap 4294967338).toInt).machine.data = ⟨[5, 5]⟩ ∧
    (aboutToCopy.poised 21 4294967338).advance.execute 4294967338 ≠
      (aboutToCopy.poised 21 4294967338).step ∧
    (aboutToCopy.poised 21 (-4294967275)).advance.execute (-4294967275) =
      (aboutToCopy.poised 21 (-4294967275)).step := by
  have hhides : Cell.HidesCall 4294967338 := by decide
  have hplain : ¬ Cell.HidesCall (-4294967275) := by decide
  obtain ⟨-, -, hpoised, -, hhidden⟩ := execute_wrap aboutToCopy 4294967338
  obtain ⟨hsame, -, hpoised', -, -⟩ := execute_wrap aboutToCopy (-4294967275)
  obtain ⟨-, hdata, -⟩ := hhidden hhides
  refine ⟨?_, hdata, by decide, ?_, (hpoised' 21 (by decide)).2 hplain⟩
  · exact ((hsame 21 (by decide)).2 (by decide)).symm
  · exact fun heq => (hpoised 21 (by decide)).1 heq hhides

/-- A number that hides a call does not do what its cell does. -/
theorem hidden_copy_stays_data :
    ¬ ∀ (m : Machine) (v : Int), m.execute v = m.execute (Cell.wrap v).toInt := by
  intro hsame
  have hcopy := hsame aboutToCopy 4294967338
  exact absurd hcopy (by decide)

end Machine

end LineMachine
