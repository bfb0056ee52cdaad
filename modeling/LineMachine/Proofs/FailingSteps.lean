/-
**Failing steps: what a fault leaves behind.**

A fault interrupts a step before it has pushed, saved or written anything: the operands that were
taken off the data stack are gone, and nothing else has happened.  This is proved from the inside
out, for an action, for an opcode that leads to it through any number of branches, and for the
cell that runs the opcode.  Since a fault does not move the instruction pointer to another line,
its diagnosis names the line at which the step began.

Main definitions:

* `LineMachine.Machine.Interrupts` — a fault that has taken cells off the data stack only;
* `LineMachine.Machine.Spares` — **what a failing step leaves alone**.

Main results:

* `LineMachine.Machine.interrupts_of_perform`, `LineMachine.Machine.interrupts_of_dispatch`,
  `LineMachine.Machine.interrupts_of_execute` — a fault interrupts an action, an opcode, a cell;
* `LineMachine.Machine.spares_of_step` — **the frame of a failing step**.
-/

import LineMachine.Proofs.Control
import LineMachine.Proofs.ProgramMemory

set_option relaxedAutoImplicit false
set_option autoImplicit false

namespace LineMachine

namespace Machine

variable {m m' : Machine} {f : Fault}

/-! ### Executing a cell -/

/-- **A fault interrupts an operation**: it is one of executing a cell, some cells have been taken
off the top of the data stack, and nothing else has changed. -/
structure Interrupts (f : Fault) (m m' : Machine) : Prop where
  operandFault : m.OperandFault f
  eq_data : m' = { m with data := m'.data }
  data : m'.data.topFirst <:+ m.data.topFirst

theorem Interrupts.of_data {data : Stack Cell} (hdata : data.topFirst <:+ m.data.topFirst)
    (h : Interrupts f { m with data := data } m') : Interrupts f m m' where
  operandFault := h.operandFault.of_diagnose rfl
  eq_data := h.eq_data
  data := h.data.trans hdata

/-- A fault interrupts an action. -/
theorem interrupts_of_perform {a : Action} (h : m.perform a = .halt f m') :
    Interrupts f m m' := by
  have hfault : m.OperandFault f := by
    have hstays := m.staysIn_perform a
    rw [h] at hstays
    exact hstays.fault f rfl
  -- an action fails on too few operands, on a zero divisor, and to exit
  have taken : ∀ data : Stack Cell, data.topFirst <:+ m.data.topFirst →
      m' = { m with data := data } → Interrupts f m m' := by
    intro data hdata hm'
    subst hm'
    exact ⟨hfault, rfl, hdata⟩
  cases a with
  | operator o =>
      rcases hdata : m.data.topFirst with _ | ⟨right, _ | ⟨left, rest⟩⟩
      · simp only [perform, hdata] at h
        cases h
        exact taken .empty List.nil_suffix rfl
      · simp only [perform, hdata] at h
        cases h
        exact taken .empty List.nil_suffix rfl
      · simp only [perform, hdata] at h
        cases happly : o.apply left right with
        | some c =>
            rw [happly] at h
            cases h
        | none =>
            rw [happly] at h
            cases h
            refine taken ⟨rest⟩ ?_ rfl
            rw [hdata]
            exact (List.suffix_cons left rest).trans (List.suffix_cons right _)
  | swap =>
      rcases hdata : m.data.topFirst with _ | ⟨b, _ | ⟨a, rest⟩⟩
      · simp only [perform, hdata] at h
        cases h
        exact taken m.data List.suffix_rfl rfl
      · simp only [perform, hdata] at h
        cases h
        exact taken m.data List.suffix_rfl rfl
      · simp only [perform, hdata] at h
        cases h
  | exit =>
      rcases hdata : m.data.topFirst with _ | ⟨status, rest⟩
      · simp only [perform, hdata] at h
        cases h
        exact taken m.data List.suffix_rfl rfl
      · simp only [perform, hdata] at h
        cases h
        refine taken ⟨rest⟩ ?_ rfl
        rw [hdata]
        exact List.suffix_cons status rest
  | not | drop | dup | emit =>
      rcases hdata : m.data.topFirst with _ | ⟨c, rest⟩
      · simp only [perform, hdata] at h
        cases h
        exact taken m.data List.suffix_rfl rfl
      · simp only [perform, hdata] at h
        cases h
  | loop =>
      rcases hdata : m.data.topFirst with _ | ⟨c, rest⟩
      · simp only [perform, hdata] at h
        cases h
        exact taken m.data List.suffix_rfl rfl
      · simp only [perform, hdata] at h
        split at h <;> cases h
  | read =>
      simp only [perform] at h
      split at h <;> cases h

/-- A fault interrupts an opcode, at the end of any chain of branches. -/
theorem interrupts_of_dispatch {opcode : Int} (h : m.dispatch opcode = .halt f m') :
    Interrupts f m m' := by
  unfold dispatch at h
  cases hleaf : resolve opcode m.data.topFirst with
  | none =>
      simp only [hleaf] at h
      cases h
      exact ⟨.dataUnderflow, rfl, List.nil_suffix⟩
  | some found =>
      obtain ⟨leaf, rest⟩ := found
      have hrest : rest <:+ m.data.topFirst := resolve_suffix hleaf
      simp only [hleaf] at h
      cases leaf with
      | nothing => cases h
      | act a => exact (interrupts_of_perform h).of_data hrest
      | call line => cases h

/-- A fault interrupts a cell. -/
theorem interrupts_of_execute {v : Int} (h : m.execute v = .halt f m') : Interrupts f m m' := by
  unfold execute at h
  by_cases hv : v = callCell
  · rw [if_pos hv] at h
    rcases hdata : m.data.topFirst with _ | ⟨opcode, rest⟩
    · have hpop : m.pop? = none := by simp [pop?, Stack.pop?, hdata]
      simp only [hpop] at h
      cases h
      exact ⟨.dataUnderflow, rfl, List.suffix_rfl⟩
    · have hpop : m.pop? = some (opcode, { m with data := ⟨rest⟩ }) := by
        simp [pop?, Stack.pop?, hdata]
      simp only [hpop] at h
      have hrest : rest <:+ m.data.topFirst := by
        rw [hdata]
        exact List.suffix_cons opcode rest
      exact (interrupts_of_dispatch h).of_data hrest
  · rw [if_neg hv] at h
    cases h

/-! ### One step -/

/-- **What a failing step leaves alone**, and what it says. -/
structure Spares (f : Fault) (m m' : Machine) : Prop where
  ret : m'.ret = m.ret
  memory : m'.memory = m.memory
  line : m'.ip.line = m.ip.line
  file : m'.file = m.file
  output : m'.output = m.output
  input : m'.input = m.input
  /-- Nothing was pushed or reordered. -/
  data : m'.data.toList <+: m.data.toList
  /-- A return fails on an empty return stack and changes nothing; any other step that fails has
  gone on by one column. -/
  col : (m.memory.fetch m.ip = .lineEnd ∧ m.ret = .empty ∧ m' = m) ∨
    (m.memory.fetch m.ip ≠ .lineEnd ∧ m'.ip.col = m.ip.col + 1)
  /-- The program asked to stop, or the message begins with the file and the line. -/
  message : (∃ status, f = .exit status) ∨
    ∃ d, (f = .underflow d ∨ f = .divisionByZero d) ∧
      f.message = s!"{m.file}({m.ip.line}): {d.what}"

theorem OperandFault.message_eq (h : m.OperandFault f) :
    (∃ status, f = .exit status) ∨
      ∃ d, (f = .underflow d ∨ f = .divisionByZero d) ∧
        f.message = s!"{m.file}({m.ip.line}): {d.what}" := by
  cases h with
  | dataUnderflow | swap | dup | loop => exact .inr ⟨_, .inl rfl, rfl⟩
  | divisionByZero => exact .inr ⟨_, .inr rfl, rfl⟩
  | exit status => exact .inl ⟨status, rfl⟩

/-- A step that a fault interrupts at a cell. -/
theorem Interrupts.spares {c : Cell} (hf : m.memory.fetch m.ip = .cell c)
    (h : Interrupts f m.advance m') : Spares f m m' := by
  have hm' := h.eq_data
  have hfault : m.OperandFault f := h.operandFault.of_diagnose rfl
  have hdata : m'.data.toList <+: m.data.toList := List.reverse_prefix.2 h.data
  rw [hm']
  exact {
    ret := rfl
    memory := rfl
    line := rfl
    file := rfl
    output := rfl
    input := rfl
    data := hdata
    col := .inr ⟨by simp [hf], rfl⟩
    message := hfault.message_eq }

/-- **The frame of a failing step.**  If the return stack has even depth and the column is not
negative, then a step that fails leaves everything alone but the cells that it has taken off the
data stack and the column; a return that fails leaves all as it was. -/
theorem spares_of_step (heven : m.ret.depth % 2 = 0) (hcol : 0 ≤ m.ip.col)
    (hstep : m.step = .halt f m') : Spares f m m' := by
  cases hf : m.memory.fetch m.ip with
  | outside =>
      simp only [step, hf] at hstep
      cases hstep
  | cell c =>
      simp only [step, hf] at hstep
      exact (interrupts_of_execute hstep).spares hf
  | lineEnd =>
      have hcontrol := m.control_step
      rw [hstep] at hcontrol
      cases hcontrol with
      | stay hf' _ | missing hf' => simp [hf] at hf'
      | strand _ hdepth =>
          -- a return stack of even depth that holds no whole address is empty
          have hempty : m.ret = .empty := by
            rcases hret : m.ret with ⟨_ | ⟨col, rest⟩⟩
            · rfl
            · simp only [hret, Stack.depth, List.length_cons] at heven hdepth
              omega
          have hsame : { m with ret := .empty } = m := by rw [← hempty]
          rw [hsame]
          exact {
            ret := rfl
            memory := rfl
            line := rfl
            file := rfl
            output := rfl
            input := rfl
            data := List.prefix_rfl
            col := .inl ⟨hf, hempty, rfl⟩
            message := .inr ⟨_, .inl rfl, rfl⟩ }
  | missing =>
      -- no column is missing unless it is negative
      exact absurd hf (Memory.fetch_ne_missing hcol)

/-- A branch inside a branch that leads to a division by zero: of nine cells the lowest is left, and
the return address is still there. -/
theorem spares_of_nested_division :
    ∃ m m' : Machine, ∃ d : Diagnosis, m.ip = ⟨21, 1⟩ ∧ m.ret = .ofList [22, 3] ∧
      m.data = .ofList [9, 7, 0, 1, 3, 8, 1, 13, 12] ∧ m.step = .halt (.divisionByZero d) m' ∧
      m'.data = .ofList [9] ∧ d.message = "p(21): division by zero" ∧
      Spares (.divisionByZero d) m m' := by
  let m : Machine :=
    { fresh [] .emptyText with
      data := .ofList [9, 7, 0, 1, 3, 8, 1, 13, 12]
      ret := .ofList [22, 3]
      memory := (Memory.empty.compile 21 5).compile 21 42
      ip := ⟨21, 1⟩
      file := "p" }
  let m' : Machine := { m.advance with data := .ofList [9] }
  have hstep : m.step = .halt (.divisionByZero (m.diagnose "division by zero")) m' := by
    decide +kernel
  have heven : m.ret.depth % 2 = 0 := by decide
  have hcol : 0 ≤ m.ip.col := by decide
  exact ⟨m, m', _, rfl, rfl, rfl, hstep, rfl, by decide +kernel, spares_of_step heven hcol hstep⟩

end Machine

end LineMachine
