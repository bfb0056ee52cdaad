/-
**Postfix code: expressions evaluated on the data stack.**

An expression over cells and the operators of the machine is written in postfix form: the code of
the operands from left to right, then the opcode and the call cell.  The code takes as many steps as
it has cells, one for each, and what they come to is the value of the expression on top of the data
stack.  Nothing that is computed on the way is ever called, not even a result that is the call cell
or an opcode.  If the expression divides by zero, the first node that does, in the order of the
code, stops the run.

Main definitions:

* `LineMachine.Expr`, `LineMachine.Expr.code` — expressions and **their postfix code**;
* `LineMachine.Expr.value`, `LineMachine.Expr.exact` — **the value of an expression**, with each
  result wrapped to a cell, and without;
* `LineMachine.Expr.postorder`, `LineMachine.Expr.DividesByZero` — the nodes of an expression in
  the order of their code, and those that divide by zero.

Main results:

* `LineMachine.Expr.along`, `LineMachine.Expr.divides` — what the code of an expression comes to,
  and where it stops;
* `LineMachine.Expr.value_eq_wrap_exact` — values of sums, differences and products;
* `LineMachine.Expr.evaluates` — **postfix evaluation**.
-/

import LineMachine.Proofs.Arithmetic
import LineMachine.Proofs.StraightLine
import LineMachine.Proofs.Trials

set_option relaxedAutoImplicit false
set_option autoImplicit false

namespace LineMachine

/-! ### Expressions -/

/-- **An expression**: cells other than the call cell, and operators. -/
inductive Expr where
  | literal (c : Cell) (h : c.toInt ≠ callCell)
  | operate (o : Operator) (left right : Expr)
  | not (e : Expr)

/-- The slot of an operator. -/
def Operator.slot : Operator → Nat
  | plus => 0
  | minus => 1
  | mult => 2
  | div => 3
  | mod => 4
  | and => 5
  | or => 6

theorem Operator.ofSlot_slot (o : Operator) : Opcode.ofSlot o.slot = .act (.operator o) := by
  cases o <;> rfl

theorem Operator.slot_lt (o : Operator) : (o.slot : Int) < firstLine := by
  cases o <;> decide

namespace Expr

open Machine (runs)

/-- The cells of a node itself. -/
def own : Expr → List Cell
  | literal c _ => [c]
  | operate o _ _ => runs o.slot
  | not _ => runs 7

/-- **The postfix code** of an expression. -/
def code : Expr → List Cell
  | literal c _ => [c]
  | operate o left right => left.code ++ (right.code ++ runs o.slot)
  | not e => e.code ++ runs 7

/-- The nodes of an expression, operands before operators and from left to right. -/
def postorder : Expr → List Expr
  | literal c h => [literal c h]
  | operate o left right => left.postorder ++ (right.postorder ++ [operate o left right])
  | not e => e.postorder ++ [not e]

/-- **The value of an expression**, bottom up; every result is wrapped to a cell. -/
def value : Expr → Int
  | literal c _ => c.toInt
  | operate o left right => (Cell.wrap (o.onInts left.value right.value)).toInt
  | not e => if e.value = 0 then 1 else 0

/-- **A node that divides by zero.** -/
def DividesByZero : Expr → Prop
  | literal _ _ => False
  | operate o _ right => o.Divides ∧ right.value = 0
  | not _ => False

instance : (e : Expr) → Decidable e.DividesByZero
  | literal _ _ => inferInstanceAs (Decidable False)
  | operate _ _ _ => inferInstanceAs (Decidable (_ ∧ _))
  | not _ => inferInstanceAs (Decidable False)

/-- An expression of sums, differences and products only. -/
def IsPolynomial : Expr → Prop
  | literal _ _ => True
  | operate o left right => (o = .plus ∨ o = .minus ∨ o = .mult) ∧ left.IsPolynomial ∧
      right.IsPolynomial
  | not _ => False

/-- **The exact value of an expression**, with no result wrapped. -/
def exact : Expr → Int
  | literal c _ => c.toInt
  | operate o left right => o.onInts left.exact right.exact
  | not e => if e.exact = 0 then 1 else 0

variable {e : Expr} {m : Machine}

/-- The code is that of the nodes, one behind the other. -/
theorem code_eq (e : Expr) : e.code = e.postorder.flatMap own := by
  induction e with
  | literal c h => rfl
  | operate o left right ihl ihr => simp [code, postorder, own, ihl, ihr]
  | not e ih => simp [code, postorder, own, ih]

/-! ### Values -/

/-- The value of an expression is that of a cell. -/
theorem toInt_wrap_value (e : Expr) : (Cell.wrap e.value).toInt = e.value := by
  cases e with
  | literal c h => simp [value]
  | operate o left right => simp [value]
  | not e =>
      simp only [value]
      split
      · decide
      · decide

theorem wrap_value_eq_zero_iff (e : Expr) : Cell.wrap e.value = 0 ↔ e.value = 0 := by
  rw [← Cell.toInt_eq_zero_iff, toInt_wrap_value]

/-- **The value of sums, differences and products** is the exact one, wrapped once. -/
theorem value_eq_wrap_exact (h : e.IsPolynomial) : e.value = (Cell.wrap e.exact).toInt := by
  induction e with
  | literal c h => simp [value, exact]
  | operate o left right ihl ihr =>
      obtain ⟨ho, hl, hr⟩ := h
      rw [value, exact, ihl hl, ihr hr, Operator.wrap_onInts ho]
  | not e => exact absurd h id

/-! ### What a node comes to -/

theorem along_operator {o : Operator} {left right c : Cell} {below : Stack Cell}
    (hm : m.Faces (runs o.slot)) (hdata : m.data = (below.push left).push right)
    (hc : o.apply left right = some c) : m.Along 2 (below.push c) := by
  obtain ⟨halong, hstep⟩ := Machine.step_of_faces_runs hm o.slot_lt o.ofSlot_slot
  refine .step halong ?_
  rw [hstep]
  simp only [Machine.perform, Machine.moved, hdata, Stack.push, hc]

theorem along_not {c : Cell} {below : Stack Cell} (hm : m.Faces (runs 7))
    (hdata : m.data = below.push c) : m.Along 2 (below.push (Cell.ofBool (c == 0))) := by
  obtain ⟨halong, hstep⟩ := Machine.step_of_faces_runs hm (a := .not) (by decide) rfl
  refine .step halong ?_
  rw [hstep]
  simp only [Machine.perform, Machine.moved, hdata, Stack.push]

/-- **A division by zero ends a run along the line**, after so many completed steps. -/
def Divides (m : Machine) (n : Nat) : Prop :=
  ∃ data data', m.Along n data ∧
    (m.moved n data).step =
      .halt (.divisionByZero (m.diagnose "division by zero")) (m.moved (n + 1) data')

theorem Divides.after {n k : Nat} {data : Stack Cell} (h : m.Along n data)
    (h' : Divides (m.moved n data) k) : Divides m (n + k) := by
  obtain ⟨data₁, data₂, halong, hstep⟩ := h'
  refine ⟨data₁, data₂, h.trans halong, ?_⟩
  rwa [Machine.moved_moved, Machine.moved_moved] at hstep

theorem divides_of_operator {o : Operator} {left right : Cell} {below : Stack Cell}
    (hm : m.Faces (runs o.slot)) (hdata : m.data = (below.push left).push right)
    (hnone : o.apply left right = none) : Divides m 1 := by
  obtain ⟨halong, hstep⟩ := Machine.step_of_faces_runs hm o.slot_lt o.ofSlot_slot
  refine ⟨_, below, halong, ?_⟩
  rw [hstep]
  simp only [Machine.perform, Machine.moved, hdata, Stack.push, hnone]
  rfl

/-! ### What the code of an expression comes to -/

/-- **The code of an expression** puts its value on the data stack, if it does not divide by
zero. -/
theorem along (hm : m.Faces e.code) (h : ∀ node ∈ e.postorder, ¬ node.DividesByZero) :
    m.Along e.code.length (m.data.push (Cell.wrap e.value)) := by
  induction e generalizing m with
  | literal c hc =>
      rw [value, Cell.wrap_toInt]
      exact .single (Machine.step_of_faces hm hc)
  | operate o left right ihl ihr =>
      simp only [postorder, List.forall_mem_append, List.forall_mem_singleton] at h
      obtain ⟨hl, hr, hnode⟩ := h
      have hleft := ihl hm.left hl
      have hrest := hm.right (m.data.push (Cell.wrap left.value))
      have hright := ihr hrest.left hr
      have hop := hrest.right ((m.data.push (Cell.wrap left.value)).push (Cell.wrap right.value))
      have hresult : o.apply (Cell.wrap left.value) (Cell.wrap right.value) =
          some (Cell.wrap (operate o left right).value) := by
        rw [Operator.apply_eq _ _ (by rwa [wrap_value_eq_zero_iff]), toInt_wrap_value,
          toInt_wrap_value, value, Cell.wrap_toInt]
      have hdone := hleft.trans (hright.trans (along_operator hop rfl hresult))
      simpa [code, runs] using hdone
  | not e ih =>
      simp only [postorder, List.forall_mem_append, List.forall_mem_singleton] at h
      have hoperand := ih hm.left h.1
      have hop := hm.right (m.data.push (Cell.wrap e.value))
      have hresult : Cell.ofBool (Cell.wrap e.value == 0) = Cell.wrap (not e).value := by
        rw [value, Cell.wrap_ite (b := Cell.wrap e.value == 0)]
        rw [beq_iff_eq, wrap_value_eq_zero_iff]
      have hdone := hoperand.trans (along_not hop rfl)
      rw [hresult] at hdone
      simpa [code, runs] using hdone

/-- A node in two lists one behind the other is in the first, or in the second. -/
theorem split_append {α : Type} {l r before after : List α} {a : α}
    (h : l ++ r = before ++ a :: after) :
    (∃ rest, l = before ++ a :: rest) ∨ ∃ rest, before = l ++ rest ∧ r = rest ++ a :: after := by
  rcases List.append_eq_append_iff.1 h with ⟨rest, hbefore, hr⟩ | ⟨rest, hl, hrest⟩
  · exact .inr ⟨rest, hbefore, hr⟩
  · cases rest with
    | nil => exact .inr ⟨[], by simpa using hl.symm, by simpa using hrest.symm⟩
    | cons b rest =>
        obtain ⟨rfl, -⟩ := List.cons.inj hrest
        exact .inl ⟨rest, hl⟩

/-- A node in a list of one is that one. -/
theorem split_singleton {α : Type} {before after : List α} {a b : α}
    (h : [a] = before ++ b :: after) : before = [] ∧ a = b := by
  cases before with
  | nil => exact ⟨rfl, (List.cons.inj h).1⟩
  | cons c before => simp at h

/-- **The first node that divides by zero** stops the code of the expression. -/
theorem divides {before after : List Expr} {node : Expr} (hm : m.Faces e.code)
    (hsplit : e.postorder = before ++ node :: after)
    (hbefore : ∀ u ∈ before, ¬ u.DividesByZero) (hnode : node.DividesByZero) :
    Divides m ((before.flatMap own).length + 1) := by
  induction e generalizing m before after with
  | literal c hc =>
      obtain ⟨-, rfl⟩ := split_singleton hsplit
      exact absurd hnode id
  | operate o left right ihl ihr =>
      rcases split_append hsplit with ⟨rest, hl⟩ | ⟨rest, rfl, hrestsplit⟩
      · exact ihl hm.left hl hbefore
      · -- the left operand is evaluated
        obtain ⟨hleft, hbefore⟩ := List.forall_mem_append.1 hbefore
        have hrest := hm.right (m.data.push (Cell.wrap left.value))
        have halong := along hm.left hleft
        rcases split_append hrestsplit with ⟨rest', hr⟩ | ⟨rest', rfl, hlast⟩
        · have hdivides := Divides.after halong (ihr hrest.left hr hbefore)
          rw [List.flatMap_append, List.length_append, ← code_eq, Nat.add_assoc]
          exact hdivides
        · -- and so is the right one
          obtain ⟨hright, -⟩ := List.forall_mem_append.1 hbefore
          obtain ⟨rfl, rfl⟩ := split_singleton hlast
          have hop :=
            hrest.right ((m.data.push (Cell.wrap left.value)).push (Cell.wrap right.value))
          have hnone : o.apply (Cell.wrap left.value) (Cell.wrap right.value) = none := by
            rw [Operator.apply_eq_none_iff, wrap_value_eq_zero_iff]
            exact hnode
          have hdivides := Divides.after halong
            (Divides.after (along hrest.left hright) (divides_of_operator hop rfl hnone))
          rw [List.append_nil, List.flatMap_append, List.length_append, ← code_eq, ← code_eq,
            Nat.add_assoc]
          exact hdivides
  | not e ih =>
      rcases split_append hsplit with ⟨rest, he⟩ | ⟨rest, rfl, hlast⟩
      · exact ih hm.left he hbefore
      · obtain ⟨-, rfl⟩ := split_singleton hlast
        exact absurd hnode id

/-! ### Postfix evaluation -/

/-- A node that divides by zero is an opcode and the call cell. -/
theorem length_own {node : Expr} (h : node.DividesByZero) : node.own.length = 2 := by
  cases node with
  | operate o left right => rfl
  | literal c hc => exact absurd h id
  | not e => exact absurd h id

/-- **Postfix evaluation.**  Where the code of an expression stands at the instruction pointer, at
any column of a line, it takes as many steps as it has cells.  If no node divides by zero, each step
goes on to the next cell; in the end the value of the expression is on top of the data stack, and
only the instruction pointer has changed besides.  Otherwise the first node that does stops the run.
The value of sums, differences and products is the exact one, wrapped once. -/
theorem evaluates (e : Expr) (m : Machine) (before behind : List Cell)
    (hline : m.memory.line m.ip.line = before ++ (e.code ++ behind))
    (hcol : m.ip.col = before.length) :
    ((∀ node ∈ e.postorder, ¬ node.DividesByZero) →
      Machine.steps e.code.length m = .next
        { m with
          data := m.data.push (Cell.wrap e.value)
          ip := ⟨m.ip.line, m.ip.col + e.code.length⟩ } ∧
      (m.data.push (Cell.wrap e.value)).numbers = m.data.numbers ++ [e.value] ∧
      ∀ j ≤ e.code.length, ∃ data,
        Machine.steps j m = .next { m with data := data, ip := ⟨m.ip.line, m.ip.col + j⟩ }) ∧
    (∀ earlier node later, e.postorder = earlier ++ node :: later →
      (∀ u ∈ earlier, ¬ u.DividesByZero) → node.DividesByZero →
      ∃ n data, n = ((earlier ++ [node]).flatMap own).length ∧
        Machine.steps e.code.length m = .halt (.divisionByZero (m.diagnose "division by zero"))
          { m with data := data, ip := ⟨m.ip.line, m.ip.col + n⟩ } ∧
        ∀ j < n, ∃ data,
          Machine.steps j m = .next { m with data := data, ip := ⟨m.ip.line, m.ip.col + j⟩ }) ∧
    (e.IsPolynomial → e.value = (Cell.wrap e.exact).toInt) := by
  have hm : m.Faces e.code := ⟨before, behind, hline, hcol⟩
  refine ⟨?_, ?_, value_eq_wrap_exact⟩
  · intro h
    have halong := along hm h
    refine ⟨halong.steps, ?_, ?_⟩
    · rw [Stack.numbers_push, toInt_wrap_value]
    · intro j hj
      obtain ⟨data, hdata⟩ := halong.earlier hj
      exact ⟨data, hdata.steps⟩
  · intro earlier node later hsplit hearlier hnode
    obtain ⟨data, data', halong, hstep⟩ := divides hm hsplit hearlier hnode
    have hn : ((earlier ++ [node]).flatMap own).length = (earlier.flatMap own).length + 1 + 1 := by
      simp [length_own hnode]
    have hlt : (earlier.flatMap own).length + 1 < e.code.length := by
      rw [code_eq, hsplit]
      simp only [List.flatMap_append, List.flatMap_cons, List.length_append, length_own hnode]
      omega
    refine ⟨_, data', rfl, ?_, ?_⟩
    · rw [hn]
      exact Machine.steps_eq_halt halong.steps hstep hlt
    · intro j hj
      obtain ⟨data, hdata⟩ := halong.earlier (show j ≤ (earlier.flatMap own).length + 1 by omega)
      exact ⟨data, hdata.steps⟩

/-- A sum comes to the call cell, and a product of it overflows; another expression divides by the
difference of two such sums. -/
theorem evaluates_sums_equal_to_call_cell :
    let m : Machine := (Machine.fresh [] .emptyText).load
      [⟨21, [9, 40, 2, 0, 42, 2147483647, 2, 42, 1, 1, 42]⟩,
        ⟨22, [5, 40, 2, 0, 42, 2, 40, 0, 42, 1, 42, 3, 42, 7, 42]⟩]
    (∃ data : Stack Cell, data.numbers = [-43] ∧
      Machine.steps 10 { m with ip := ⟨21, 1⟩ } = .next { m with data := data, ip := ⟨21, 11⟩ }) ∧
    (∃ data : Stack Cell, Machine.steps 13 { m with ip := ⟨22, 0⟩ } =
      .halt (.divisionByZero ⟨"division by zero", "", some 22⟩)
        { m with data := data, ip := ⟨22, 13⟩ }) ∧
    -43 = (Cell.wrap ((40 + 2) * 2147483647 - 1)).toInt := by
  intro m
  obtain ⟨hvalue, -, hexact⟩ := evaluates
    (operate .minus
      (operate .mult (operate .plus (literal 40 (by decide)) (literal 2 (by decide)))
        (literal 2147483647 (by decide)))
      (literal 1 (by decide)))
    { m with ip := ⟨21, 1⟩ } [9] [] (by decide +kernel) rfl
  obtain ⟨hsteps, hnumbers, -⟩ := hvalue (by decide)
  let difference : Expr :=
    operate .minus (operate .plus (literal 40 (by decide)) (literal 2 (by decide)))
      (operate .plus (literal 2 (by decide)) (literal 40 (by decide)))
  obtain ⟨-, hdivides, -⟩ := evaluates (operate .div (literal 5 (by decide)) difference)
    { m with ip := ⟨22, 0⟩ } [] [7, 42] (by decide +kernel) rfl
  refine ⟨⟨_, hnumbers, hsteps⟩, ?_, hexact ?_⟩
  · obtain ⟨n, data, rfl, hhalt, -⟩ := hdivides (literal 5 (by decide) :: difference.postorder)
      (operate .div (literal 5 (by decide)) difference) [] rfl (by decide) (by decide)
    exact ⟨data, hhalt⟩
  · simp [IsPolynomial]

end Expr

end LineMachine
