/-
**Nesting: a call, everything that it leads to, and its return.**

A call puts two cells on the return stack, and a return takes two cells off.  From a call on, the
cells above the saved address therefore come and go in pairs: calls, loops, wraps, returns and
steps that fail leave an even number of them on top of it.  So the first step that goes below the
saved address is a return that finds exactly this address on top, and it takes the machine back
behind the call cell.  This needs no invariant of the machine that called: whatever its return
stack held stays below.

Main definitions:

* `LineMachine.Machine.Inside` — **the invariant**: an even number of cells above a return stack.

Main results:

* `LineMachine.Machine.Inside.step` — a step stays inside, or it is the return;
* `LineMachine.Machine.call_nests` — **a call is followed by its own return**, if by any.
-/

import LineMachine.Proofs.ReturnAddresses

set_option relaxedAutoImplicit false
set_option autoImplicit false

namespace LineMachine

namespace Machine

/-! ### Inside a call -/

/-- **Inside a call**: an even number of cells stands above the return stack that the call left. -/
def Inside (base : Stack Cell) (m : Machine) : Prop :=
  ∃ above : List Cell, above.length % 2 = 0 ∧ m.ret.topFirst = above ++ base.topFirst

namespace Inside

variable {base : Stack Cell} {m : Machine}

theorem refl (m : Machine) : m.Inside m.ret := ⟨[], rfl, rfl⟩

theorem of_ret_eq {m' : Machine} (h : m.Inside base) (hret : m'.ret = m.ret) : m'.Inside base := by
  unfold Inside
  rw [hret]
  exact h

theorem depth_le (h : m.Inside base) : base.depth ≤ m.ret.depth := by
  obtain ⟨above, -, hret⟩ := h
  simp only [Stack.depth, hret, List.length_append]
  omega

/-- What the call left is still there, at the bottom. -/
theorem numbers_prefix (h : m.Inside base) : base.numbers <+: m.ret.numbers := by
  obtain ⟨above, -, hret⟩ := h
  refine ⟨above.reverse.map Int32.toInt, ?_⟩
  simp [Stack.numbers, Stack.toList, hret]

/-- **A step stays inside**, unless it returns to the address that the call saved. -/
theorem step (h : m.Inside base) (hbase : 2 ≤ base.depth) :
    m.step.machine.Inside base ∨ m.memory.fetch m.ip = .lineEnd ∧ m.ret = base := by
  have hcontrol := m.control_step
  generalize m.step = o at hcontrol ⊢
  cases hcontrol with
  | wrap hf => exact .inl (h.of_ret_eq rfl)
  | stay hf ho => exact .inl (h.of_ret_eq ho.ret)
  | call hf hc hline =>
      obtain ⟨above, heven, hret⟩ := h
      refine .inl ⟨Cell.wrap (m.ip.col + 1) :: Cell.wrap m.ip.line :: above, ?_, ?_⟩
      · simp only [List.length_cons]
        omega
      · simp [Outcome.machine, call, pushReturn, jump, advance, Stack.push, hret]
  | @comeBack line col ret hf hret =>
      obtain ⟨above, heven, habove⟩ := h
      have hsplit : col :: line :: ret.topFirst = above ++ base.topFirst := by
        simpa [hret, Stack.push] using habove
      -- what the return takes off is the pair on top, or there is none and it is the address
      rcases above with _ | ⟨c₁, _ | ⟨c₂, above⟩⟩
      · refine .inr ⟨hf, ?_⟩
        rw [hret]
        cases base
        simpa [Stack.push] using hsplit
      · cases heven
      · refine .inl ⟨above, ?_, ?_⟩
        · simp only [List.length_cons] at heven
          omega
        · simp only [List.cons_append, List.cons.injEq] at hsplit
          exact hsplit.2.2
  | strand hf hret =>
      have hdepth := h.depth_le
      omega
  | missing hf => exact .inl (h.of_ret_eq rfl)

/-- **A run stays inside** a call as long as its return stack is not as deep as before it. -/
theorem after {line col : Cell} {ret : Stack Cell} (hret : m.ret = (ret.push line).push col)
    {n : Nat} (hdeep : ∀ i ≤ n, (m.after i).ret.depth ≠ ret.depth) : (m.after n).Inside m.ret := by
  have hbase : 2 ≤ m.ret.depth := by
    rw [hret]
    exact Nat.le_add_left 2 ret.depth
  induction n with
  | zero => exact .refl m
  | succ n ih =>
      have hinside := ih fun i hi => hdeep i (by omega)
      rcases hinside.step hbase with hstep | ⟨hend, hsame⟩
      · exact hstep
      · -- the return would make the stack as deep as before the call
        refine absurd ?_ (hdeep (n + 1) (Nat.le_refl _))
        rw [after_succ, step_of_push_push hend (hsame.trans hret)]
        rfl

end Inside

/-! ### The return of a call -/

/-- **A call is followed by its own return**, if by any.  As long as the return stack is not as
deep as before the call, it holds what it held then and the address behind the call cell above
that; and the first step that makes it as deep again is a return that goes to this address and
leaves the return stack as it was. -/
theorem call_nests {m : Machine} {line : Int} (hfits : m.memory.Fits) (hcall : m.Calls line) :
    ∃ m₁, m.step = .next m₁ ∧ m₁.ip = .start line ∧
      m₁.ret.numbers = m.ret.numbers ++ m.advance.ip.pair ∧
      ∀ n, (∀ i ≤ n, (m₁.after i).ret.depth ≠ m.ret.depth) →
        m.ret.numbers ++ m.advance.ip.pair <+: (m₁.after n).ret.numbers ∧
        ((m₁.after (n + 1)).ret.depth = m.ret.depth →
          (m₁.after n).memory.fetch (m₁.after n).ip = .lineEnd ∧
          (m₁.after n).step = .next (m₁.after (n + 1)) ∧
          (m₁.after (n + 1)).ret = m.ret ∧ (m₁.after (n + 1)).ip = m.advance.ip) := by
  obtain ⟨m₁, hstep, hip, hret⟩ := step_of_calls hcall
  obtain ⟨c, -, -, -, hf, -⟩ := hcall
  obtain ⟨hline, hcol⟩ := hfits.inRange hf
  have hnumbers : m₁.ret.numbers = m.ret.numbers ++ m.advance.ip.pair := by
    rw [hret]
    exact m.ret.numbers_save (p := m.advance.ip) hline hcol
  have hdepth : m₁.ret.depth = m.ret.depth + 2 := by
    rw [hret]
    rfl
  refine ⟨m₁, hstep, hip, hnumbers, fun n hdeep => ?_⟩
  have hinside := Inside.after hret hdeep
  refine ⟨hnumbers ▸ hinside.numbers_prefix, fun hback => ?_⟩
  rcases hinside.step (by omega) with hstill | ⟨hend, hsame⟩
  · -- inside, the return stack is deeper
    have hle := hstill.depth_le
    rw [← after_succ] at hle
    omega
  · have hreturn := step_of_push_push hend (hsame.trans hret)
    rw [Cell.toInt_wrap_of_inRange hline, Cell.toInt_wrap_of_inRange hcol] at hreturn
    rw [after_succ, hreturn]
    exact ⟨hend, rfl, rfl, rfl⟩

/-- A call through a branch, of a line that calls another one: the return of the inner call does
not make the return stack as deep as before the outer one, and the return of the outer one does. -/
theorem call_nests_around_call :
    ∃ m : Machine, m.memory.Fits ∧ m.Calls 22 ∧
      ∃ m₁, m.step = .next m₁ ∧ (∀ i ≤ 3, (m₁.after i).ret.depth ≠ m.ret.depth) ∧
        m.ret.numbers ++ [21, 1] <+: (m₁.after 3).ret.numbers ∧
        (m₁.after 4).ret = m.ret ∧ (m₁.after 4).ip = ⟨21, 1⟩ := by
  let memory := (((Memory.empty.compile 21 42).compile 22 23).compile 22 42).compile 24 0
  let m : Machine :=
    { fresh [] .emptyText with memory := memory, data := .ofList [1, 22, 12], ret := .ofList [7] }
  have hfits : m.memory.Fits := by decide +kernel
  have hcall : m.Calls 22 := ⟨42, 12, [22, 1], [], by decide +kernel⟩
  obtain ⟨m₁, hstep, -, -, hnests⟩ := call_nests hfits hcall
  have hm₁ : m₁ = m.step.machine := by
    rw [hstep]
    rfl
  have hdeep : ∀ i ≤ 3, (m₁.after i).ret.depth ≠ m.ret.depth := by
    rw [hm₁]
    decide +kernel
  have hback : (m₁.after (3 + 1)).ret.depth = m.ret.depth := by
    rw [hm₁]
    decide +kernel
  obtain ⟨hbelow, hreturn⟩ := hnests 3 hdeep
  obtain ⟨-, -, hret, hip⟩ := hreturn hback
  exact ⟨m, hfits, hcall, m₁, hstep, hdeep, hbelow, hret, hip⟩

end Machine

end LineMachine
