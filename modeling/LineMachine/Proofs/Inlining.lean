/-
**Inlining: a call does what the cells of its line do in its place.**

A call can be replaced by the cells of the line that it calls.  The machine of the new program then
follows that of the old one: as long as the called line itself runs, it is as far behind the beginning
of those cells, without an address on the return stack; and as long as that line has called others,
both run the same cells, with the same addresses on their return stacks but for one.  The return of
the call is all that is left out, besides the two cells that made it.

Main definitions:

* `LineMachine.Inlining` — **a call that is replaced**, in a program that is otherwise the same;
* `LineMachine.Inlining.Saved`, `LineMachine.Inlining.InPlace` — return stacks that differ in one
  address, and **machines that do the same in the two programs**;
* `LineMachine.Inlining.CallReturns` — a run from a call to its return.

Main results:

* `LineMachine.Inlining.InPlace.step` — a step in one program is a step in the other, or it is the
  return;
* `LineMachine.Inlining.call_inlines` — **a call does what the cells of its line do in its place**.
-/

import LineMachine.Proofs.Branches
import LineMachine.Proofs.Effects
import LineMachine.Proofs.ProgramMemory
import LineMachine.Proofs.Runs

set_option relaxedAutoImplicit false
set_option autoImplicit false

namespace LineMachine

/-! ### Two programs -/

/-- **A call that is replaced** by the cells of the line that it calls, in a program that is
otherwise the same. -/
structure Inlining where
  /-- The program with the call. -/
  memory : Memory
  /-- The program without. -/
  inlined : Memory
  /-- The line with the call. -/
  caller : Int
  /-- The line that is called. -/
  callee : Int
  /-- The cells in front of the call. -/
  before : List Cell
  /-- The cells of the line that is called. -/
  body : List Cell
  /-- The cells behind the call. -/
  behind : List Cell
  fits : memory.Fits
  inlined_fits : inlined.Fits
  size_eq : inlined.size = memory.size
  ne : caller ≠ callee
  firstLine_le : firstLine ≤ callee
  ne_callCell : callee ≠ callCell
  body_ne_nil : body ≠ []
  line_caller : memory.line caller = before ++ ([Cell.wrap callee, Cell.wrap callCell] ++ behind)
  line_callee : memory.line callee = body
  inlined_caller : inlined.line caller = before ++ (body ++ behind)
  inlined_eq : ∀ number, number ≠ caller → inlined.line number = memory.line number

namespace Inlining

open Machine

variable (p : Inlining)

theorem caller_ne_nil : p.memory.line p.caller ≠ [] := by simp [p.line_caller]

theorem fetch_opcode : p.memory.fetch ⟨p.caller, p.before.length⟩ = .cell (Cell.wrap p.callee) :=
  Memory.fetch_eq_cell p.line_caller

theorem fetch_call :
    p.memory.fetch ⟨p.caller, p.before.length + 1⟩ = .cell (Cell.wrap callCell) := by
  have hline : p.memory.line p.caller =
      (p.before ++ [Cell.wrap p.callee]) ++ Cell.wrap callCell :: p.behind := by
    simp [p.line_caller]
  have hf := Memory.fetch_eq_cell hline
  rwa [List.length_append, Int.natCast_add] at hf

/-- The address behind the call can be saved. -/
theorem inRange_caller : Cell.InRange p.caller ∧ Cell.InRange (p.before.length + 2) := by
  have h := p.fits.inRange p.fetch_call
  rwa [Int.add_assoc] at h

theorem fetch_body {done todo : List Cell} {c : Cell} (h : p.body = done ++ c :: todo) :
    p.memory.fetch ⟨p.callee, done.length⟩ = .cell c :=
  Memory.fetch_eq_cell (p.line_callee.trans h)

theorem fetch_inlined {done todo : List Cell} {c : Cell} (h : p.body = done ++ c :: todo) :
    p.inlined.fetch ⟨p.caller, p.before.length + done.length⟩ = .cell c := by
  have hline : p.inlined.line p.caller = (p.before ++ done) ++ c :: (todo ++ p.behind) := by
    simp [p.inlined_caller, h]
  have hf := Memory.fetch_eq_cell hline
  rwa [List.length_append, Int.natCast_add] at hf

theorem fetch_end : p.memory.fetch ⟨p.callee, p.body.length⟩ = .lineEnd := by
  have hne : p.memory.line p.callee ≠ [] := by
    rw [p.line_callee]
    exact p.body_ne_nil
  have hf := Memory.fetch_eq_lineEnd hne
  rwa [p.line_callee] at hf

theorem inRange_callee : Cell.InRange p.callee := by
  have hne : p.memory.line p.callee ≠ [] := by
    rw [p.line_callee]
    exact p.body_ne_nil
  obtain ⟨hlow, hlt⟩ := Memory.bounds_of_line_ne_nil hne
  have hsize := p.fits.1
  simp only [Cell.InRange, Cell.bound] at hsize ⊢
  omega

/-- Every address behind a cell of the called line can be saved, in either program. -/
theorem inRange_body {done todo : List Cell} {c : Cell} (h : p.body = done ++ c :: todo) :
    Cell.InRange p.callee ∧ Cell.InRange (done.length + 1) ∧
      Cell.InRange (p.before.length + done.length + 1) := by
  obtain ⟨hline, hcol⟩ := p.fits.inRange (p.fetch_body h)
  obtain ⟨-, hcol'⟩ := p.inlined_fits.inRange (p.fetch_inlined h)
  exact ⟨hline, hcol, hcol'⟩

/-- Away from the line with the call the two programs are the same. -/
theorem fetch_away {place : Place} (h : place.line ≠ p.caller) :
    p.inlined.fetch place = p.memory.fetch place :=
  Memory.fetch_congr p.size_eq (p.inlined_eq place.line h)

/-- At the beginning of the line with the call there is a cell. -/
theorem exists_fetch_start : ∃ c, p.memory.fetch (.start p.caller) = .cell c := by
  obtain ⟨c, rest, hline⟩ := List.exists_cons_of_ne_nil p.caller_ne_nil
  have hfront : p.memory.line p.caller = [] ++ c :: rest := hline
  exact ⟨c, Memory.fetch_eq_cell hfront⟩

/-- Wherever a call or a wrap goes to, that is away from this line or its beginning. -/
theorem ne_or_start (number : Int) :
    number ≠ p.caller ∨ Place.start number = .start p.caller := by
  by_cases h : number = p.caller
  · exact .inr (by rw [h])
  · exact .inl h

/-! ### Two machines -/

/-- The return stack of the call. -/
def saved (base : Stack Cell) : Stack Cell :=
  (base.push (Cell.wrap p.caller)).push (Cell.wrap (p.before.length + 2))

/-- **Return stacks that differ in one address**: in the one there is that of the call, and above it
an address in the called line; in the other, the place of that cell in the line with the call. -/
inductive Saved (base : Stack Cell) : Stack Cell → Stack Cell → Prop where
  | own {done todo : List Cell} {c : Cell} (hbody : p.body = (done ++ [c]) ++ todo) :
      Saved base (((p.saved base).push (Cell.wrap p.callee)).push (Cell.wrap (done.length + 1)))
        ((base.push (Cell.wrap p.caller)).push (Cell.wrap (p.before.length + done.length + 1)))
  | deeper {ret ret' : Stack Cell} {line col : Cell} (h : Saved base ret ret')
      (hline : line.toInt ≠ p.caller) :
      Saved base ((ret.push line).push col) ((ret'.push line).push col)

/-- **Machines that do the same in the two programs.** -/
inductive InPlace (base : Stack Cell) : Machine → Machine → Prop where
  /-- The called line runs, in its own place and in that of the call. -/
  | own {s : Machine} {done todo : List Cell} (hmemory : s.memory = p.memory)
      (hbody : p.body = done ++ todo) (hip : s.ip = ⟨p.callee, done.length⟩)
      (hret : s.ret = p.saved base) :
      InPlace base s (s.placed p.inlined ⟨p.caller, p.before.length + done.length⟩ base)
  /-- Another line runs, which the called line has called. -/
  | deeper {s : Machine} {ret : Stack Cell} (hmemory : s.memory = p.memory)
      (hip : s.ip.line ≠ p.caller ∨ s.ip = .start p.caller) (hret : p.Saved base s.ret ret) :
      InPlace base s (s.placed p.inlined s.ip ret)

variable {p} {base : Stack Cell} {s s' t : Machine}

theorem Saved.depth_lt {ret ret' : Stack Cell} (h : p.Saved base ret ret') :
    base.depth + 2 < ret.depth := by
  induction h with
  | own _ =>
      simp only [saved, Stack.depth, Stack.push, List.length_cons]
      omega
  | deeper _ _ ih =>
      simp only [Stack.depth, Stack.push, List.length_cons] at ih ⊢
      omega

theorem InPlace.depth_lt (h : p.InPlace base s t) : base.depth < s.ret.depth := by
  cases h with
  | own _ _ _ hret =>
      rw [hret]
      exact Nat.lt_add_of_pos_right (Nat.succ_pos 1)
  | deeper _ _ hret =>
      have hdepth := hret.depth_lt
      omega

/-- **The return of the call**, and what the other machine has come to by then. -/
structure ComesBack (p : Inlining) (base : Stack Cell) (s' t : Machine) : Prop where
  ip : s'.ip = ⟨p.caller, p.before.length + 2⟩
  ret : s'.ret = base
  inlined : t = s'.placed p.inlined ⟨p.caller, p.before.length + p.body.length⟩ base

/-- Behind the last cell of the called line the call returns. -/
theorem comesBack_of_own (hmemory : s.memory = p.memory) (hip : s.ip = ⟨p.callee, p.body.length⟩)
    (hret : s.ret = p.saved base) (hstep : s.step = .next s') :
    p.ComesBack base s' (s.placed p.inlined ⟨p.caller, p.before.length + p.body.length⟩ base) := by
  have hend : s.memory.fetch s.ip = .lineEnd := by rw [hmemory, hip, p.fetch_end]
  obtain ⟨hline, hcol⟩ := p.inRange_caller
  have hback := step_of_push_push hend hret
  rw [hstep, Cell.toInt_wrap_of_inRange hline, Cell.toInt_wrap_of_inRange hcol] at hback
  cases hback
  exact ⟨rfl, rfl, rfl⟩

/-- Behind a cell of the called line the other machine is behind the same cell. -/
theorem InPlace.own_behind {done todo : List Cell} {c : Cell} (hmemory : s.memory = p.memory)
    (hbody : p.body = (done ++ [c]) ++ todo) (hip : s.ip = ⟨p.callee, done.length + 1⟩)
    (hret : s.ret = p.saved base) :
    p.InPlace base s (s.placed p.inlined ⟨p.caller, p.before.length + done.length + 1⟩ base) := by
  have hlength : ((done ++ [c]).length : Int) = done.length + 1 := by simp
  rw [← hlength] at hip
  have hown := InPlace.own hmemory hbody hip hret
  rw [hlength, ← Int.add_assoc] at hown
  exact hown

/-- A step at a cell of the called line is a step at the same cell in the place of the call. -/
theorem InPlace.step_own {done todo : List Cell} {c : Cell} (hmemory : s.memory = p.memory)
    (hbody : p.body = done ++ c :: todo) (hip : s.ip = ⟨p.callee, done.length⟩)
    (hret : s.ret = p.saved base) (hstep : s.step = .next s') (hrestart : ¬ s.Restarts) :
    ∃ t', (s.placed p.inlined ⟨p.caller, p.before.length + done.length⟩ base).step = .next t' ∧
      p.InPlace base s' t' := by
  have hf : s.memory.fetch s.ip = .cell c := by rw [hmemory, hip, p.fetch_body hbody]
  obtain ⟨e, he, rfl, hback⟩ := exists_effect_of_step hf hstep
  have hbehind : p.body = (done ++ [c]) ++ todo := by simp [hbody]
  refine ⟨_, he p.inlined ⟨p.caller, p.before.length + done.length⟩ base
    (p.fetch_inlined hbody), ?_⟩
  cases e with
  | goOn data input output =>
      have hnext : ((Effect.goOn data input output).on s.advance).ip =
          ⟨p.callee, done.length + 1⟩ := by
        simp [Effect.on, advance, hip]
      exact .own_behind (s := (Effect.goOn data input output).on s.advance) hmemory hbehind hnext
        hret
  | restart data => exact absurd (hback data rfl) hrestart
  | call line data =>
      have hsaved : ((Effect.call line data).on s.advance).ret =
          ((p.saved base).push (Cell.wrap p.callee)).push (Cell.wrap (done.length + 1)) := by
        simp [Effect.on, call, pushReturn, jump, advance, hip, hret]
      refine .deeper hmemory (p.ne_or_start line) ?_
      rw [hsaved]
      exact .own hbehind

/-- A return within the call takes either machine back to the cell that it left. -/
theorem InPlace.step_lineEnd {ret : Stack Cell} (hmemory : s.memory = p.memory)
    (hf : s.memory.fetch s.ip = .lineEnd) (hf' : p.inlined.fetch s.ip = .lineEnd)
    (hret : p.Saved base s.ret ret) (hstep : s.step = .next s') :
    ∃ t', (s.placed p.inlined s.ip ret).step = .next t' ∧ p.InPlace base s' t' := by
  generalize hs : s.ret = above at hret
  cases hret with
  | @own done todo c hbody =>
      have hcell : p.body = done ++ c :: todo := by simp [hbody]
      obtain ⟨hline, hcol, hcol'⟩ := p.inRange_body hcell
      have hback := step_of_push_push hf hs
      rw [hstep, Cell.toInt_wrap_of_inRange hline, Cell.toInt_wrap_of_inRange hcol] at hback
      cases hback
      refine ⟨_, step_of_push_push (m := s.placed p.inlined s.ip _) hf' rfl, ?_⟩
      rw [Cell.toInt_wrap_of_inRange p.inRange_caller.1, Cell.toInt_wrap_of_inRange hcol']
      exact .own_behind (s := { s with ret := p.saved base, ip := ⟨p.callee, done.length + 1⟩ })
        hmemory hbody rfl rfl
  | @deeper ret ret' line col hret hline =>
      have hback := step_of_push_push hf hs
      rw [hstep] at hback
      cases hback
      exact ⟨_, step_of_push_push (m := s.placed p.inlined s.ip _) hf' rfl,
        .deeper (s := { s with ret := ret, ip := ⟨line.toInt, col.toInt⟩ }) hmemory (.inl hline)
          hret⟩

/-- Away from the line with the call a step is the same step. -/
theorem InPlace.step_deeper {ret : Stack Cell} (hmemory : s.memory = p.memory)
    (hip : s.ip.line ≠ p.caller) (hret : p.Saved base s.ret ret) (hstep : s.step = .next s') :
    ∃ t', (s.placed p.inlined s.ip ret).step = .next t' ∧ p.InPlace base s' t' := by
  have hfetch : p.inlined.fetch s.ip = s.memory.fetch s.ip := by rw [hmemory, p.fetch_away hip]
  cases hf : s.memory.fetch s.ip with
  | outside =>
      rw [hf] at hfetch
      have hwrap : s.step = .next (s.jump firstLine) := by simp only [step, hf]
      rw [hstep] at hwrap
      cases hwrap
      have hwrap' : (s.placed p.inlined s.ip ret).step =
          .next ((s.placed p.inlined s.ip ret).jump firstLine) := by
        simp only [step, placed, hfetch]
      exact ⟨_, hwrap', .deeper (s := s.jump firstLine) hmemory (p.ne_or_start firstLine) hret⟩
  | cell c =>
      obtain ⟨hline, -⟩ := p.fits.inRange (hmemory ▸ hf)
      obtain ⟨e, he, rfl, -⟩ := exists_effect_of_step hf hstep
      refine ⟨_, he p.inlined s.ip ret (hfetch.trans hf), ?_⟩
      cases e with
      | goOn data input output =>
          exact .deeper (s := (Effect.goOn data input output).on s.advance) hmemory (.inl hip) hret
      | restart data =>
          exact .deeper (s := (Effect.restart data).on s.advance) hmemory (.inl hip) hret
      | call line data =>
          have haway : (Cell.wrap s.ip.line).toInt ≠ p.caller := by
            rwa [Cell.toInt_wrap_of_inRange hline]
          exact .deeper (s := (Effect.call line data).on s.advance) hmemory
            (p.ne_or_start line) (.deeper hret haway)
  | lineEnd =>
      exact step_lineEnd hmemory hf (hfetch.trans hf) hret hstep
  | missing =>
      simp only [step, hf] at hstep
      cases hstep

/-- **A step in one program is a step in the other**, or it is the return of the call. -/
theorem InPlace.step (h : p.InPlace base s t) (hstep : s.step = .next s')
    (haway : ∀ c, s.memory.fetch s.ip = .cell c → s.ip.line ≠ p.caller)
    (hrestart : s.ret.depth = base.depth + 2 → ¬ s.Restarts) :
    (∃ t', t.step = .next t' ∧ p.InPlace base s' t') ∨ p.ComesBack base s' t := by
  cases h with
  | @own done todo hmemory hbody hip hret =>
      cases todo with
      | nil =>
          rw [List.append_nil] at hbody
          subst hbody
          exact .inr (comesBack_of_own hmemory hip hret hstep)
      | cons c todo =>
          have hdepth : s.ret.depth = base.depth + 2 := by rw [hret]; rfl
          exact .inl (step_own hmemory hbody hip hret hstep (hrestart hdepth))
  | deeper hmemory hip hret =>
      have hline : s.ip.line ≠ p.caller := by
        rcases hip with hline | hstart
        · exact hline
        · obtain ⟨c, hc⟩ := p.exists_fetch_start
          exact haway c (by rw [hmemory, hstart, hc])
      exact .inl (step_deeper hmemory hline hret hstep)

/-! ### From the call to its return -/

/-- **A run from a call to its return**: no step fails, and the last one is the first that makes the
return stack as deep as before.  Within the call, no cell of the calling line is executed, and the
called line itself is not restarted. -/
structure CallReturns (p : Inlining) (m : Machine) (n : Nat) (m' : Machine) : Prop where
  steps : Machine.steps n m = .next m'
  long : 2 < n
  back : m'.ret.depth = m.ret.depth
  within : ∀ i < n, 2 ≤ i → (m.after i).ret.depth ≠ m.ret.depth
  away : ∀ i < n, 2 ≤ i → ∀ c, (m.after i).memory.fetch (m.after i).ip = .cell c →
    (m.after i).ip.line ≠ p.caller
  goes_on : ∀ i < n, 2 ≤ i → (m.after i).ret.depth = m.ret.depth + 2 → ¬ (m.after i).Restarts

section Runs

variable {m m' : Machine} {n : Nat}

/-- The two cells of the call put the machine at the beginning of the called line, with the address
behind them on the return stack. -/
theorem after_two (hmemory : m.memory = p.memory) (hip : m.ip = ⟨p.caller, p.before.length⟩) :
    m.after 2 = { m with ip := .start p.callee, ret := p.saved m.ret } := by
  have hopcode := Cell.toInt_wrap_of_inRange p.inRange_callee
  have hf : m.memory.fetch m.ip = .cell (Cell.wrap p.callee) := by
    rw [hmemory, hip, p.fetch_opcode]
  have hpush : m.step = .next (m.advance.push p.callee) := by
    rw [step_of_ne_callCell hf (by rw [hopcode]; exact p.ne_callCell), hopcode]
  have hf' : (m.advance.push p.callee).memory.fetch (m.advance.push p.callee).ip =
      .cell (Cell.wrap callCell) := by
    rw [← p.fetch_call, ← hmemory]
    simp [push, advance, hip]
  have hdata : (m.advance.push p.callee).data.topFirst = Cell.wrap p.callee :: m.data.topFirst :=
    rfl
  have hcall := step_of_callCell hf' (by decide) hdata
  rw [hopcode, dispatch_of_firstLine_le p.firstLine_le] at hcall
  have hcol : (p.before.length : Int) + 1 + 1 = p.before.length + 2 := Int.add_assoc _ 1 1
  rw [after_succ, after_succ, after_zero, hpush]
  simp only [Outcome.machine, hcall]
  simp only [call, pushReturn, jump, advance, push, hip, hcol]
  rfl

/-- **Within the call** the machines do the same in the two programs. -/
theorem exists_inPlace (hmemory : m.memory = p.memory) (hip : m.ip = ⟨p.caller, p.before.length⟩)
    (h : p.CallReturns m n m') {i : Nat} (hi : 2 + i < n) :
    ∃ t, Machine.steps i { m with memory := p.inlined } = .next t ∧
      p.InPlace m.ret (m.after (2 + i)) t := by
  induction i with
  | zero =>
      have hplaced : (m.after 2).placed p.inlined
          ⟨p.caller, p.before.length + ([] : List Cell).length⟩ m.ret =
            { m with memory := p.inlined } := by
        simp [after_two hmemory hip, placed, hip]
      refine ⟨_, steps_zero _, ?_⟩
      rw [← hplaced, after_two hmemory hip]
      exact .own hmemory (List.nil_append _).symm rfl rfl
  | succ i ih =>
      obtain ⟨t, hsteps, hplace⟩ := ih (by omega)
      have hstep := step_after_of_steps h.steps (i := 2 + i) (by omega)
      rcases hplace.step hstep (h.away _ (by omega) (by omega)) (h.goes_on _ (by omega) (by omega))
        with ⟨t', ht', hplace'⟩ | hback
      · exact ⟨t', steps_succ_eq_next_iff.2 ⟨t, hsteps, ht'⟩, hplace'⟩
      · have hdepth := h.within (2 + i + 1) (by omega) (by omega)
        rw [hback.ret] at hdepth
        exact absurd rfl hdepth

/-- **A call does what the cells of its line do in its place.**  A run from a call to its return
ends behind the call, with the return stack of before; without the two cells of the call and the
return, the same cells in the place of the call come to the same data, output and input. -/
theorem call_inlines (p : Inlining) (hmemory : m.memory = p.memory)
    (hip : m.ip = ⟨p.caller, p.before.length⟩) (h : p.CallReturns m n m') :
    m'.ip = ⟨p.caller, p.before.length + 2⟩ ∧ m'.ret = m.ret ∧
      Machine.steps (n - 3) { m with memory := p.inlined } =
        .next { m' with
          memory := p.inlined, ip := ⟨p.caller, p.before.length + p.body.length⟩ } := by
  obtain ⟨i, rfl⟩ := Nat.exists_eq_add_of_lt h.long
  obtain ⟨t, hsteps, hplace⟩ := exists_inPlace hmemory hip h (i := i) (by omega)
  have hstep := step_after_of_steps h.steps (i := 2 + i) (by omega)
  rw [after_of_steps h.steps] at hstep
  rcases hplace.step hstep (h.away _ (by omega) (by omega)) (h.goes_on _ (by omega) (by omega))
    with ⟨t', -, hplace'⟩ | hback
  · -- within the call the return stack is deeper than before
    have hdepth := hplace'.depth_lt
    rw [h.back] at hdepth
    exact absurd hdepth (Nat.lt_irrefl _)
  · refine ⟨hback.ip, hback.ret, ?_⟩
    have hi : 2 + i + 1 - 3 = i := by omega
    rw [hi, hsteps, hback.inlined, ← hback.ret]
    rfl

/-- A call of a line that calls a loop, which restarts its line once. -/
theorem call_inlines_around_loop :
    ∃ (p : Inlining) (m m' : Machine), m.memory = p.memory ∧
      m.ip = ⟨p.caller, p.before.length⟩ ∧ p.CallReturns m 20 m' ∧
      m'.ip = ⟨p.caller, p.before.length + 2⟩ ∧ m'.data = .ofList [1, 0] ∧
      Machine.steps 17 { m with memory := p.inlined } =
        .next { m' with
          memory := p.inlined, ip := ⟨p.caller, p.before.length + p.body.length⟩ } := by
  let loop : Listing := [⟨22, [23, 42]⟩, ⟨23, [-1, 0, 42, 9, 42, 11, 42]⟩]
  let p : Inlining :=
    { memory := Memory.empty.load (⟨21, [5, 22, 42, 0, 42]⟩ :: loop)
      inlined := Memory.empty.load (⟨21, [5, 23, 42, 0, 42]⟩ :: loop)
      caller := 21
      callee := 22
      before := [5]
      body := [23, 42]
      behind := [0, 42]
      fits := by decide +kernel
      inlined_fits := by decide +kernel
      size_eq := by decide +kernel
      ne := by decide
      firstLine_le := by decide
      ne_callCell := by decide
      body_ne_nil := by decide
      line_caller := by decide +kernel
      line_callee := by decide +kernel
      inlined_caller := by decide +kernel
      inlined_eq := by
        intro number hne
        have hcaller : ¬ (21 : Int) = number := Ne.symm hne
        simp [Memory.line_load, hcaller] }
  let m : Machine :=
    { Machine.fresh [] .emptyText with memory := p.memory, data := .ofList [2], ip := ⟨21, 1⟩ }
  have hreturns : p.CallReturns m 20 (m.after 20) :=
    { steps := by decide +kernel
      long := by decide
      back := by decide +kernel
      within := by decide +kernel
      away := by
        have hline : ∀ i < 20, 2 ≤ i → (m.after i).ip.line ≠ p.caller := by decide +kernel
        exact fun i hi hlow _ _ => hline i hi hlow
      goes_on := by
        -- where the called line runs, no opcode that leads to a loop is on top
        have hleaf : ∀ i < 20, 2 ≤ i ∧ (m.after i).ret.depth = m.ret.depth + 2 →
            ((m.after i).data.topFirst.head?.bind fun opcode =>
              resolve opcode.toInt (m.after i).data.topFirst.tail).map Prod.fst ≠
                some (.act .loop) := by
          decide +kernel
        rintro i hi hlow hdepth ⟨c, opcode, cells, -, -, hdata, top, rest, hresolve, -⟩
        have hother := hleaf i hi ⟨hlow, hdepth⟩
        rw [hdata, List.head?_cons, Option.bind_some, List.tail_cons, hresolve] at hother
        exact hother rfl }
  have hmemory : m.memory = p.memory := rfl
  have hip : m.ip = ⟨p.caller, p.before.length⟩ := rfl
  obtain ⟨hbehind, -, hsteps⟩ := call_inlines p hmemory hip hreturns
  exact ⟨p, m, m.after 20, hmemory, hip, hreturns, hbehind, by decide +kernel, hsteps⟩

end Runs

end Inlining

end LineMachine
