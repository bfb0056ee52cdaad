/-
**Return addresses: what stands on the return stack.**

A call saves the address behind its call cell as two cells, the line below the column, and a
return takes two cells off.  In a run over memory that was filled from empty the return stack
therefore holds whole addresses, each behind a call cell, above whatever address it was started
on; and the instruction pointer never leaves its line by more than the end.  The invariant is
`LineMachine.Machine.Rooted`.  The only step that ends it is the return to the address at the
root, which empties the return stack.

Main definitions:

* `LineMachine.Place.pair` — an address as it is saved;
* `LineMachine.Memory.BehindCall` — the addresses behind call cells;
* `LineMachine.Machine.Rooted` — **the invariant**;
* `LineMachine.Machine.LeavesTo` — the return to the root.

Main results:

* `LineMachine.Machine.Rooted.step` — what a step keeps;
* `LineMachine.Machine.after_sound` — **every state of a run**, from any line, on an empty return
  stack or on the one address that the test runner puts there.
-/

import LineMachine.Proofs.Control
import LineMachine.Proofs.ProgramMemory
import LineMachine.Proofs.Trials

set_option relaxedAutoImplicit false
set_option autoImplicit false

namespace LineMachine

/-! ### Addresses as numbers -/

/-- The two numbers that an address is saved as, the line below the column. -/
def Place.pair (p : Place) : List Int := [p.line, p.col]

theorem Place.pair_inj {p q : Place} (h : p.pair = q.pair) : p = q := by
  cases p
  cases q
  simpa [pair] using h

/-- An address that can be saved is saved as its two numbers. -/
theorem Stack.numbers_save (s : Stack Cell) {p : Place} (hline : Cell.InRange p.line)
    (hcol : Cell.InRange p.col) :
    ((s.push (Cell.wrap p.line)).push (Cell.wrap p.col)).numbers = s.numbers ++ p.pair := by
  simp [Place.pair, Cell.toInt_wrap_of_inRange hline, Cell.toInt_wrap_of_inRange hcol]

theorem Place.length_flatMap_pair (frames : List Place) :
    (frames.flatMap pair).length = 2 * frames.length := by
  induction frames with
  | nil => rfl
  | cons p frames ih =>
      rw [List.flatMap_cons, List.length_append, ih]
      simp [pair]
      omega

/-! ### Addresses behind call cells -/

/-- **The addresses behind call cells.** -/
structure Memory.BehindCall (mem : Memory) (p : Place) : Prop where
  firstLine_le : firstLine ≤ p.line
  lt_size : p.line < mem.size
  ne_callCell : p.line ≠ callCell
  one_le : 1 ≤ p.col
  le_lineSize : p.col ≤ mem.lineSize p.line
  call : (mem.line p.line)[(p.col - 1).toNat]? = some (Cell.wrap callCell)

/-- What a call saves is an address behind a call cell. -/
theorem Memory.behindCall_advance {m : Machine} {c : Cell} (hbuilt : m.memory.Built)
    (hcol : 0 ≤ m.ip.col) (hf : m.memory.fetch m.ip = .cell c) (hc : c.toInt = callCell) :
    m.memory.BehindCall m.advance.ip := by
  have hget := getElem?_of_fetch_eq_cell hf hcol
  obtain ⟨-, hlt, -, hhi⟩ := bounds_of_fetch_eq_cell hf
  have hcompiled := hbuilt.isCompiled hget
  exact {
    firstLine_le := hcompiled.1
    lt_size := hlt
    ne_callCell := hcompiled.2
    one_le := by simp only [Machine.advance]; omega
    le_lineSize := by simp only [Machine.advance]; omega
    call := by
      have hcol' : m.ip.col + 1 - 1 = m.ip.col := by omega
      simp only [Machine.advance, hcol', hget, ← hc, Cell.wrap_toInt] }

/-! ### The invariant -/

namespace Machine

/-- **The invariant of a run.**  The return stack holds, above the address at its root if there
is one, whole addresses behind call cells, and the column is within the line. -/
structure Rooted (mem : Memory) (root : Option Place) (m : Machine) : Prop where
  memory : m.memory = mem
  col_nonneg : 0 ≤ m.ip.col
  col_le : 0 ≤ m.ip.line → m.ip.line < mem.size → m.ip.col ≤ mem.lineSize m.ip.line
  ret : ∃ frames : List Place, m.ret.numbers = (root.toList ++ frames).flatMap Place.pair ∧
    ∀ p ∈ frames, mem.BehindCall p

/-- **The return to the root**: behind the last cell of a line, with nothing but one address on
the return stack. -/
structure LeavesTo (m : Machine) (root : Place) : Prop where
  lineEnd : m.memory.fetch m.ip = .lineEnd
  ret : m.ret.numbers = root.pair

/-- Returning to the root empties the return stack. -/
theorem LeavesTo.step {m : Machine} {root : Place} (h : m.LeavesTo root) :
    m.step = .next { m with ret := .empty, ip := root } := by
  have hcontrol := m.control_step
  generalize m.step = o at hcontrol ⊢
  cases hcontrol with
  | wrap hf | stay hf _ | call hf _ _ | missing hf => simp [h.lineEnd] at hf
  | @comeBack line col ret _ hret =>
      have hnumbers : ret.numbers ++ [line.toInt, col.toInt] = [] ++ root.pair := by
        simpa [hret] using h.ret
      obtain ⟨hempty, hpair⟩ := List.append_inj' hnumbers rfl
      have hroot : (⟨line.toInt, col.toInt⟩ : Place) = root := Place.pair_inj hpair
      rw [Stack.eq_empty_of_numbers hempty, hroot]
  | strand _ hret =>
      rw [← Stack.length_numbers, h.ret] at hret
      simp [Place.pair] at hret

theorem LeavesTo.eq_of_step {m m₁ : Machine} {root : Place} (h : m.LeavesTo root)
    (hstep : m.step = .next m₁) : m₁ = { m with ret := .empty, ip := root } := by
  rw [h.step] at hstep
  exact (Outcome.next.inj hstep).symm

namespace Rooted

variable {mem : Memory} {root : Option Place} {m : Machine}

/-- A run starts at the beginning of a line. -/
theorem start (hmemory : m.memory = mem) (hret : m.ret.numbers = root.toList.flatMap Place.pair)
    (line : Int) : (m.jump line).Rooted mem root where
  memory := hmemory
  col_nonneg := Int.le_refl 0
  col_le _ _ := Int.natCast_nonneg _
  ret := ⟨[], by simpa [jump] using hret, by simp⟩

/-- What stays in a line keeps the invariant. -/
theorem of_staysIn {c : Cell} {o : Outcome} (h : m.Rooted mem root)
    (hf : m.memory.fetch m.ip = .cell c) (ho : o.StaysIn m.advance) :
    o.machine.Rooted mem root := by
  obtain ⟨-, -, -, hhi⟩ := Memory.bounds_of_fetch_eq_cell hf
  rw [h.memory] at hhi
  have hnonneg := h.col_nonneg
  obtain ⟨frames, hret, hframes⟩ := h.ret
  refine ⟨ho.memory.trans h.memory, ?_, ?_, frames, ?_, hframes⟩
  · rcases ho.ip with hip | hip
    · rw [hip]
      simp only [advance]
      omega
    · rw [hip]
      exact Int.le_refl 0
  · intro _ _
    rcases ho.ip with hip | hip
    · rw [hip]
      simp only [advance]
      omega
    · rw [hip]
      exact Int.natCast_nonneg _
  · rw [ho.ret]
    exact hret

/-- A call puts an address behind a call cell on the return stack. -/
theorem of_call {c : Cell} {data : Stack Cell} (hbuilt : mem.Built) (hfits : mem.Fits)
    (h : m.Rooted mem root) (hf : m.memory.fetch m.ip = .cell c) (hc : c.toInt = callCell)
    (line : Int) : ({ m.advance with data := data }.call line).Rooted mem root := by
  obtain ⟨frames, hret, hframes⟩ := h.ret
  obtain rfl := h.memory
  obtain ⟨hline, hcol⟩ := hfits.inRange hf
  refine ⟨rfl, Int.le_refl 0, fun _ _ => Int.natCast_nonneg _, frames ++ [m.advance.ip], ?_, ?_⟩
  · have hsaved := m.ret.numbers_save (p := m.advance.ip) hline hcol
    rw [← List.append_assoc, List.flatMap_append, ← hret]
    exact hsaved.trans (by simp)
  · intro p hp
    rcases List.mem_append.1 hp with hp | hp
    · exact hframes p hp
    · rw [List.mem_singleton.1 hp]
      exact Memory.behindCall_advance hbuilt h.col_nonneg hf hc

/-- A return goes to an address behind a call cell, or to the root. -/
theorem of_comeBack {line col : Cell} {ret : Stack Cell} (h : m.Rooted mem root)
    (hf : m.memory.fetch m.ip = .lineEnd) (hret : m.ret = (ret.push line).push col) :
    ({ m with ret := ret, ip := ⟨line.toInt, col.toInt⟩ }.Rooted mem root ∧
        firstLine ≤ line.toInt) ∨
      ∃ p, root = some p ∧ m.LeavesTo p := by
  obtain ⟨frames, hnumbers, hframes⟩ := h.ret
  have hsplit : ret.numbers ++ [line.toInt, col.toInt] =
      (root.toList ++ frames).flatMap Place.pair := by
    rw [← hnumbers, hret]
    simp
  -- the cells that are taken off are the root, or the last address above it
  rcases List.eq_nil_or_concat frames with rfl | ⟨below, p, rfl⟩
  · cases root with
    | none => simp at hsplit
    | some p => exact .inr ⟨p, rfl, hf, by simpa using hnumbers⟩
  · left
    rw [List.concat_eq_append, ← List.append_assoc, List.flatMap_append] at hsplit
    obtain ⟨hbelow, hpair⟩ := List.append_inj' hsplit rfl
    have hp : (⟨line.toInt, col.toInt⟩ : Place) = p :=
      Place.pair_inj (by simpa [Place.pair] using hpair)
    have hcall : mem.BehindCall p := hframes p (by simp)
    subst hp
    have hone := hcall.one_le
    refine ⟨⟨h.memory, by dsimp only at hone ⊢; omega, fun _ _ => hcall.le_lineSize, below,
      hbelow, fun q hq => hframes q (by simp [hq])⟩, hcall.firstLine_le⟩

/-- Without a whole address on the return stack, there is none at all, and no root. -/
theorem of_strand (h : m.Rooted mem root) (hret : m.ret.depth < 2) :
    root = none ∧ m.ret = .empty := by
  -- whole addresses have an even number of cells
  obtain ⟨frames, hnumbers, -⟩ := h.ret
  have hlength := congrArg List.length hnumbers
  rw [Stack.length_numbers, Place.length_flatMap_pair, List.length_append] at hlength
  cases root with
  | none =>
      refine ⟨rfl, Stack.eq_empty_of_numbers (List.eq_nil_of_length_eq_zero ?_)⟩
      rw [Stack.length_numbers]
      simp only [Option.toList_none, List.length_nil] at hlength
      omega
  | some p =>
      simp only [Option.toList_some, List.length_singleton] at hlength
      omega

/-- **What a step keeps.**  It keeps the invariant, and it keeps the instruction pointer among the
program lines, unless it returns to the root. -/
theorem step (hbuilt : mem.Built) (hfits : mem.Fits) (h : m.Rooted mem root) :
    (m.step.machine.Rooted mem root ∧
        (firstLine ≤ m.ip.line → firstLine ≤ m.step.machine.ip.line)) ∨
      ∃ p, root = some p ∧ m.LeavesTo p := by
  have hcontrol := m.control_step
  generalize m.step = o at hcontrol ⊢
  cases hcontrol with
  | wrap hf =>
      refine .inl ⟨⟨h.memory, Int.le_refl 0, fun _ _ => Int.natCast_nonneg _, h.ret⟩, fun _ => ?_⟩
      exact Int.le_refl firstLine
  | stay hf ho =>
      refine .inl ⟨h.of_staysIn hf ho, fun hline => ?_⟩
      rcases ho.ip with hip | hip <;> rw [hip] <;> exact hline
  | call hf hc hline => exact .inl ⟨h.of_call hbuilt hfits hf hc _, fun _ => hline⟩
  | comeBack hf hret =>
      exact (h.of_comeBack hf hret).imp_left fun ⟨hrooted, hline⟩ => ⟨hrooted, fun _ => hline⟩
  | strand hf hret =>
      obtain ⟨-, hempty⟩ := h.of_strand hret
      refine .inl ⟨⟨h.memory, h.col_nonneg, h.col_le, ?_⟩, fun hline => hline⟩
      rw [← hempty]
      exact h.ret
  | missing hf => exact absurd hf (Memory.fetch_ne_missing h.col_nonneg)

/-- Returning to a root at the beginning of a line leaves a run without a root. -/
theorem of_leavesTo {p : Place} (h : m.Rooted mem root) (hp : p.col = 0) (hleave : m.LeavesTo p) :
    m.step.machine.Rooted mem none := by
  rw [hleave.step]
  refine ⟨h.memory, by simp [Outcome.machine, hp], ?_, [], by simp [Outcome.machine], by simp⟩
  intro _ _
  simp only [Outcome.machine, hp]
  exact Int.natCast_nonneg _

/-- Under the invariant a step fails for its operands, or it is a return on an empty return stack,
which changes nothing. -/
theorem fault {f : Fault} {m' : Machine} (h : m.Rooted mem root) (hstep : m.step = .halt f m') :
    m.OperandFault f ∨ f = m.returnUnderflow ∧ root = none ∧ m.ret = .empty ∧ m' = m := by
  have hcontrol := m.control_step
  rw [hstep] at hcontrol
  cases hcontrol with
  | stay hf ho => exact .inl ((ho.fault f rfl).of_diagnose rfl)
  | strand hf hret =>
      obtain ⟨hroot, hempty⟩ := h.of_strand hret
      refine .inr ⟨rfl, hroot, hempty, ?_⟩
      rw [← hempty]
  | missing hf => exact absurd hf (Memory.fetch_ne_missing h.col_nonneg)

end Rooted

/-! ### Every state of a run -/

/-- **What holds in every state of a run** over some memory, whose return stack held some numbers
in the beginning. -/
structure Sound (mem : Memory) (base : List Int) (m : Machine) : Prop where
  /-- Above what was there in the beginning, as long as that has not been returned to, the return
  stack holds whole addresses behind call cells. -/
  ret : ∃ (below : List Int) (frames : List Place), (below = base ∨ below = []) ∧
    m.ret.numbers = below ++ frames.flatMap Place.pair ∧ ∀ p ∈ frames, mem.BehindCall p
  col_nonneg : 0 ≤ m.ip.col
  col_le : 0 ≤ m.ip.line → m.ip.line < mem.size → m.ip.col ≤ mem.lineSize m.ip.line
  inRange : ∀ v ∈ m.data.numbers ++ m.ret.numbers, Cell.InRange v
  memory : m.memory = mem
  /-- The next step fails for its operands or on an empty return stack, and in no other way. -/
  fault : ∀ f m', m.step = .halt f m' →
    m.OperandFault f ∨ f = m.returnUnderflow ∧ m.ret = .empty ∧ m' = m

theorem Rooted.sound {mem : Memory} {root : Option Place} {m : Machine} {base : List Int}
    (h : m.Rooted mem root) (hbase : root.toList.flatMap Place.pair = base ∨ root = none) :
    m.Sound mem base where
  ret := by
    obtain ⟨frames, hret, hframes⟩ := h.ret
    refine ⟨root.toList.flatMap Place.pair, frames, ?_, ?_, hframes⟩
    · exact hbase.imp_right fun hroot => by simp [hroot]
    · rw [hret, List.flatMap_append]
  col_nonneg := h.col_nonneg
  col_le := h.col_le
  inRange v hv := (List.mem_append.1 hv).elim Stack.inRange_of_mem_numbers
    Stack.inRange_of_mem_numbers
  memory := h.memory
  fault _ _ hstep := (h.fault hstep).imp_right fun ⟨hf, _, hret, hm⟩ => ⟨hf, hret, hm⟩

/-- **Every state of a run is sound.**  The run starts at the beginning of any line, on memory
that was filled from empty and fits, with an empty return stack or with the sentinel on it; it
goes on whatever comes of its steps. -/
theorem after_sound {m : Machine} (hbuilt : m.memory.Built) (hfits : m.memory.Fits)
    (hret : m.ret.numbers = [] ∨ m.ret.numbers = sentinel.pair) (line : Int) (n : Nat) :
    ((m.jump line).after n).Sound m.memory m.ret.numbers := by
  obtain ⟨root, hroot, hnumbers⟩ : ∃ root : Option Place, (∀ p, root = some p → p = sentinel) ∧
      m.ret.numbers = root.toList.flatMap Place.pair := by
    rcases hret with hret | hret
    · exact ⟨none, by simp, hret⟩
    · exact ⟨some sentinel, by simp, by simpa using hret⟩
  -- the root is the one that the run started on, until it is returned to
  have hrun : ∃ now, (now = root ∨ now = none) ∧ ((m.jump line).after n).Rooted m.memory now := by
    refine after_induction (P := fun m' => ∃ now, (now = root ∨ now = none) ∧
      m'.Rooted m.memory now) ⟨root, .inl rfl, .start rfl hnumbers line⟩ ?_ n
    rintro m' ⟨now, hnow, h⟩
    rcases h.step hbuilt hfits with ⟨hstep, -⟩ | ⟨p, hp, hleave⟩
    · exact ⟨now, hnow, hstep⟩
    · have hsentinel : p = sentinel := by
        rcases hnow with rfl | rfl
        · exact hroot p hp
        · cases hp
      exact ⟨none, .inr rfl, h.of_leavesTo (by rw [hsentinel]; rfl) hleave⟩
  obtain ⟨now, hnow, h⟩ := hrun
  exact h.sound (hnow.imp_left fun heq => by rw [heq, hnumbers])

/-- A run from the sentinel whose fourth step fails, in a line that was called: the address behind
the call cell is on the return stack, and the next step is no worse. -/
theorem after_sound_of_failing_call :
    ∃ m : Machine, m.memory.Built ∧ m.memory.Fits ∧ m.ret.numbers = sentinel.pair ∧
      ((m.jump 21).after 3).step.fault? = some ((m.jump 22).dataUnderflow) ∧
      ((m.jump 21).after 4).ret.numbers = sentinel.pair ++ [21, 2] ∧
      ((m.jump 21).after 4).Sound m.memory m.ret.numbers := by
  let memory := (((Memory.empty.compile 21 22).compile 21 42).compile 22 10).compile 22 42
  have hbuilt : memory.Built :=
    .compile (.compile (.compile (.compile .empty 21 22) 21 42) 22 10) 22 42
  have hfits : memory.Fits := by decide +kernel
  refine ⟨{ fresh [] .emptyText with memory := memory, ret := .ofList [0, 0] }, hbuilt, hfits, ?_⟩
  refine ⟨by decide +kernel, by decide +kernel, by decide +kernel, ?_⟩
  exact after_sound hbuilt hfits (.inr (by decide +kernel)) 21 4

end Machine

end LineMachine
