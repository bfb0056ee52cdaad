/-
**Counted loops: a line that is run as often as a counter says.**

The line takes a sum and a counter off the data stack.  It adds a cell to the sum, takes the counter
down by one, and starts again unless the counter is zero then.  Since a counter is taken down before
it is looked at, zero and the negative ones go all the way round the cells until they come to zero
from above.  A pass takes twelve steps, whatever the counter is, and the last one ends behind the
line.  If a test case calls the line, the step after that is the return to the sentinel.

Main definitions:

* `LineMachine.Cell.passes` — **how often a counter is taken down until it is zero**;
* `LineMachine.Machine.countedLoop` — the cells of the line;
* `LineMachine.Listing.smallSubroutines` — the text of a program that has such a line.

Main results:

* `LineMachine.Cell.countdown` — induction along a countdown;
* `LineMachine.Machine.AtLoop.steps_again`, `LineMachine.Machine.AtLoop.steps_last` — what one pass
  comes to;
* `LineMachine.Machine.AtLoop.counts` — what all passes come to;
* `LineMachine.Suite.meets_of_countedLoop`, `LineMachine.Suite.run_of_countedLoop` — a test case
  that calls the line, and its result;
* `LineMachine.steps_countedLoop` — **counted loops**.
-/

import LineMachine.Proofs.Control
import LineMachine.Proofs.Postfix

set_option relaxedAutoImplicit false
set_option autoImplicit false

namespace LineMachine

/-! ### Counters -/

namespace Cell

/-- **How often a counter is taken down until it is zero**: as often as it says modulo the number of
cells, and zero itself as often as there are cells. -/
def passes (n : Cell) : Nat := if n = 0 then count else (n.toInt % count).toNat

variable {n : Cell}

theorem passes_of_ne_zero (h : n ≠ 0) : (n.passes : Int) = n.toInt % count := by
  have hnonneg : 0 ≤ n.toInt % count := Int.emod_nonneg _ (by decide)
  simp only [passes, if_neg h, Int.toNat_of_nonneg hnonneg]

/-- There is one pass more than the cell below says. -/
theorem passes_eq (n : Cell) : (n.passes : Int) = (n - 1).toInt % count + 1 := by
  have hone : (1 : Cell).toInt = 1 := by decide
  have hsub : (n - 1).toInt % count = (n.toInt - 1) % count := by
    rw [Int32.toInt_sub, hone]
    exact Int.bmod_emod
  rw [hsub]
  by_cases h : n = 0
  · subst h
    decide
  · have hne : n.toInt ≠ 0 := fun hzero => h (toInt_eq_zero_iff.1 hzero)
    obtain ⟨hlow, hhigh⟩ := inRange_toInt n
    rw [passes_of_ne_zero h]
    simp only [bound, count] at hlow hhigh ⊢
    omega

theorem passes_of_sub_one_eq_zero (h : n - 1 = 0) : n.passes = 1 := by
  have hpasses := passes_eq n
  have hzero : (0 : Cell).toInt % count = 0 := by decide
  rw [h, hzero] at hpasses
  omega

theorem passes_of_sub_one_ne_zero (h : n - 1 ≠ 0) : n.passes = (n - 1).passes + 1 := by
  have hpasses := passes_eq n
  rw [← passes_of_ne_zero h] at hpasses
  omega

/-- **Induction along a countdown**: what holds of a counter that comes to zero at once, and of one
that goes on to a counter of which it holds, holds of every counter. -/
@[elab_as_elim]
theorem countdown {P : Cell → Prop} (last : ∀ n, n - 1 = 0 → P n)
    (again : ∀ n, n - 1 ≠ 0 → P (n - 1) → P n) (n : Cell) : P n := by
  -- on the passes, of which there is one at least
  induction hpasses : n.passes generalizing n with
  | zero =>
      have hpos := passes_eq n
      have hnonneg : 0 ≤ (n - 1).toInt % count := Int.emod_nonneg _ (by decide)
      omega
  | succ p ih =>
      by_cases h : n - 1 = 0
      · exact last n h
      · have hp : (n - 1).passes = p := by
          rw [passes_of_sub_one_ne_zero h] at hpasses
          omega
        exact again n h (ih (n - 1) hp)

/-- A sum to which a cell is added once and then some more times. -/
theorem wrap_add_mul_succ (a k : Cell) (p : Nat) :
    wrap (a.toInt + k.toInt * (p + 1 : Nat)) = wrap ((a + k).toInt + k.toInt * p) := by
  have hsplit : a.toInt + k.toInt * (p + 1 : Nat) = a.toInt + k.toInt + k.toInt * p := by
    rw [Int.natCast_add, Int.mul_add]
    omega
  rw [hsplit, wrap_add, wrap_add, wrap_toInt, wrap_toInt, wrap_add, wrap_toInt]

end Cell

/-! ### One pass -/

namespace Machine

variable {m : Machine} {below : Stack Cell} {a n k : Cell}

theorem along_swap {b : Cell} (hm : m.Faces (runs 8)) (hdata : m.data = (below.push a).push b) :
    m.Along 2 ((below.push b).push a) := by
  obtain ⟨halong, hstep⟩ := step_of_faces_runs hm (a := .swap) (by decide) rfl
  refine .step halong ?_
  rw [hstep]
  simp only [perform, moved, hdata, Stack.push]

/-- **The cells of a counted loop** that adds a cell on every pass: swap, the cell, plus, swap, one,
minus, loop. -/
def countedLoop (k : Cell) : List Cell := [8, 42, k, 0, 42, 8, 42, 1, 1, 42, 11, 42]

/-- The cells of a pass up to the opcode that looks at the counter. -/
def countedPass (k : Cell) : List Cell :=
  runs 8 ++ ([k] ++ (runs 0 ++ (runs 8 ++ ([1] ++ runs 1))))

theorem countedLoop_eq (k : Cell) : countedLoop k = countedPass k ++ runs 11 := rfl

/-- A pass adds the cell to the sum and takes the counter down. -/
theorem along_countedPass (hm : m.Faces (countedPass k)) (hk : k.toInt ≠ callCell)
    (hdata : m.data = (below.push a).push n) :
    m.Along 10 ((below.push (a + k)).push (n - 1)) := by
  have hswap := along_swap hm.left hdata
  -- the sum is on top
  have hsum := hm.right ((below.push n).push a)
  have hcell := Along.single (step_of_faces hsum hk)
  have hplus := hsum.right (((below.push n).push a).push k)
  have hadded := Expr.along_operator (o := .plus) hplus.left rfl rfl
  have hback := hplus.right ((below.push n).push (a + k))
  have hswapped := along_swap hback.left rfl
  -- and now the counter is
  have hcounter := hback.right ((below.push (a + k)).push n)
  have hone := Along.single (step_of_faces hcounter (by decide))
  have hminus := hcounter.right (((below.push (a + k)).push n).push 1)
  have htaken := Expr.along_operator (o := .minus) hminus rfl rfl
  exact hswap.trans (hcell.trans (hadded.trans (hswapped.trans (hone.trans htaken))))

/-- **The machine is at the beginning of a line that is a counted loop.** -/
structure AtLoop (m : Machine) (k : Cell) : Prop where
  line : m.memory.line m.ip.line = countedLoop k
  col : m.ip.col = 0

namespace AtLoop

theorem faces (h : m.AtLoop k) : m.Faces (countedPass k ++ runs 11) := by
  refine ⟨[], [], ?_, h.col⟩
  rw [h.line, countedLoop_eq]
  simp

/-- A restart comes back to the beginning of the line. -/
theorem moved_zero (h : m.AtLoop k) (data : Stack Cell) : (m.moved 0 data).AtLoop k where
  line := h.line
  col := by simp [moved, h.col]

/-- The pass goes on to its last cell, and there it looks at the counter. -/
theorem pass (h : m.AtLoop k) (hk : k.toInt ≠ callCell) (hdata : m.data = (below.push a).push n) :
    ∃ data, m.Along 11 data ∧
      (m.moved 11 data).step = (m.moved 12 ((below.push (a + k)).push (n - 1))).perform .loop := by
  have hpass := along_countedPass h.faces.left hk hdata
  obtain ⟨hlooks, hstep⟩ :=
    step_of_faces_runs (a := .loop) (h.faces.right ((below.push (a + k)).push (n - 1)))
      (by decide) rfl
  refine ⟨_, hpass.trans hlooks, ?_⟩
  rwa [moved_moved, moved_moved] at hstep

/-- **A pass that comes to another counter** restarts the line. -/
theorem steps_again (h : m.AtLoop k) (hk : k.toInt ≠ callCell)
    (hdata : m.data = (below.push a).push n) (hn : n - 1 ≠ 0) :
    steps 12 m = .next (m.moved 0 ((below.push (a + k)).push (n - 1))) := by
  obtain ⟨data, halong, hstep⟩ := h.pass hk hdata
  refine steps_succ_eq_next_iff.2 ⟨_, halong.steps, ?_⟩
  rw [hstep]
  simp [perform, moved, Stack.push, hn, jump, Place.start, h.col]

/-- **A pass that comes to zero** goes on behind the line. -/
theorem steps_last (h : m.AtLoop k) (hk : k.toInt ≠ callCell)
    (hdata : m.data = (below.push a).push n) (hn : n - 1 = 0) :
    steps 12 m = .next (m.moved 12 (below.push (a + k))) := by
  obtain ⟨data, halong, hstep⟩ := h.pass hk hdata
  refine steps_succ_eq_next_iff.2 ⟨_, halong.steps, ?_⟩
  rw [hstep]
  simp [perform, moved, Stack.push, hn]

theorem exists_steps_of_lt (h : m.AtLoop k) (hk : k.toInt ≠ callCell)
    (hdata : m.data = (below.push a).push n) {j : Nat} (hj : j < 12) :
    ∃ data, steps j m = .next (m.moved (j % 12) data) := by
  obtain ⟨data, halong, -⟩ := h.pass hk hdata
  obtain ⟨data', hearlier⟩ := halong.earlier (Nat.le_of_lt_succ hj)
  rw [Nat.mod_eq_of_lt hj]
  exact ⟨data', hearlier.steps⟩

/-! ### All passes -/

/-- **What all passes come to**: the cell has been added on each of them, and until then every step
was on one of the twelve cells. -/
theorem counts (h : m.AtLoop k) (hk : k.toInt ≠ callCell)
    (hdata : m.data = (below.push a).push n) :
    steps (12 * n.passes) m =
        .next (m.moved 12 (below.push (Cell.wrap (a.toInt + k.toInt * n.passes)))) ∧
      ∀ j < 12 * n.passes, ∃ data, steps j m = .next (m.moved (j % 12) data) := by
  induction n using Cell.countdown generalizing m a with
  | last n hn =>
      have hsum : Cell.wrap (a.toInt + k.toInt * (1 : Nat)) = a + k := by
        simp [Cell.wrap_add]
      rw [Cell.passes_of_sub_one_eq_zero hn, hsum]
      exact ⟨h.steps_last hk hdata hn, fun j hj => h.exists_steps_of_lt hk hdata hj⟩
  | again n hn ih =>
      have hpass := h.steps_again hk hdata hn
      obtain ⟨hrest, hon⟩ := ih (a := a + k) (h.moved_zero ((below.push (a + k)).push (n - 1))) rfl
      have hcount : 12 * n.passes = 12 + 12 * (n - 1).passes := by
        rw [Cell.passes_of_sub_one_ne_zero hn]
        omega
      rw [moved_moved, Nat.zero_add] at hrest
      constructor
      · rw [hcount, steps_add hpass, Cell.passes_of_sub_one_ne_zero hn, Cell.wrap_add_mul_succ]
        exact hrest
      · intro j hj
        by_cases hlt : j < 12
        · exact h.exists_steps_of_lt hk hdata hlt
        · obtain ⟨j, rfl⟩ := Nat.exists_eq_add_of_le (Nat.le_of_not_lt hlt)
          obtain ⟨data, hsteps⟩ := hon j (by omega)
          refine ⟨data, ?_⟩
          rw [moved_moved, Nat.zero_add] at hsteps
          rw [steps_add hpass, Nat.add_mod_left]
          exact hsteps

/-- Behind the line the machine returns. -/
theorem step_return {line col : Cell} {ret : Stack Cell} (h : m.AtLoop k)
    (hret : m.ret = (ret.push line).push col) (data : Stack Cell) :
    (m.moved 12 data).step =
      .next { m with data := data, ret := ret, ip := ⟨line.toInt, col.toInt⟩ } := by
  refine step_of_push_push ?_ hret
  have hne : m.memory.line m.ip.line ≠ [] := by
    rw [h.line]
    exact List.cons_ne_nil _ _
  have hend := Memory.fetch_eq_lineEnd hne
  rw [h.line] at hend
  simpa [moved, h.col, countedLoop] using hend

end AtLoop

end Machine

/-! ### Test cases that call a counted loop -/

namespace Suite

open Machine

variable {s : Suite} {c : Case} {a n k : Cell}

/-- **A test case that calls a counted loop** finds the sentinel one step after the last pass, and
not before. -/
theorem meets_of_countedLoop (io : Streams)
    (hline : (Memory.empty.load s.program).line (c.start.getD firstLine) = countedLoop k)
    (hk : k.toInt ≠ callCell) (hinputs : c.inputs.map Cell.wrap = [a, n]) :
    ∃ m, s.Meets c io (12 * n.passes + 1) m ∧ m.ip = sentinel ∧
      m.data = Stack.empty.push (Cell.wrap (a.toInt + k.toInt * n.passes)) := by
  have hmachine := machine_eq s c io
  have hloop : (s.machine c io).AtLoop k := by
    rw [hmachine]
    exact ⟨hline, rfl⟩
  have hdata : (s.machine c io).data = (Stack.empty.push a).push n := by
    rw [hmachine, hinputs]
    rfl
  have hret : (s.machine c io).ret = (Stack.empty.push 0).push 0 := by
    rw [hmachine]
    rfl
  -- the sentinel is not on a line that holds cells
  have hfirst : firstLine ≤ (s.machine c io).ip.line := by
    have hbuilt : (Memory.empty.load s.program).Built := .load .empty s.program
    rw [hmachine]
    exact (hbuilt.isCompiled (i := 0) (c := 8) (by rw [Place.start, hline]; rfl)).1
  have hoff : ∀ (j : Nat) (data : Stack Cell),
      ((s.machine c io).moved j data).isAt sentinel = false := by
    intro j data
    refine Bool.eq_false_iff.2 fun hat => ?_
    have hzero : (s.machine c io).ip.line = 0 := congrArg Place.line (isAt_iff.1 hat)
    unfold firstLine at hfirst
    omega
  obtain ⟨hsteps, hon⟩ := hloop.counts hk hdata
  have hreturn := hloop.step_return hret
    (Stack.empty.push (Cell.wrap (a.toInt + k.toInt * n.passes)))
  refine ⟨_, visits_iff.2 ⟨steps_succ_eq_next_iff.2 ⟨_, hsteps, hreturn⟩, fun j hj => ?_⟩, rfl, rfl⟩
  rcases Nat.lt_or_eq_of_le (Nat.le_of_lt_succ hj) with hlt | rfl
  · obtain ⟨data, hearlier⟩ := hon j hlt
    rw [after_of_steps hearlier]
    exact hoff _ _
  · rw [after_of_steps hsteps]
    exact hoff _ _

/-- **The result of a test case that calls a counted loop** is the sum that it comes to.  It has
the result if it has passed, or else if it can write what it expects. -/
theorem run_of_countedLoop (io : Streams)
    (hline : (Memory.empty.load s.program).line (c.start.getD firstLine) = countedLoop k)
    (hk : k.toInt ≠ callCell) (hinputs : c.inputs.map Cell.wrap = [a, n])
    (hlimit : (12 * n.passes + 1 : Nat) ≤ s.maxSteps) :
    ∃ r : CaseResult, s.run c io = r.stated ∧
      (r.passed ∨ c.IsWritable → s.run c io = .ok r) ∧ r.steps = 12 * n.passes + 1 ∧
      r.stack = [Cell.wrap (a.toInt + k.toInt * n.passes)] ∧ (r.passed ↔ r.values = c.outputs) := by
  obtain ⟨m, hmeets, hip, hdata⟩ := meets_of_countedLoop io hline hk hinputs
  let trial : Run := ⟨m, 12 * n.passes + 1, .arrived⟩
  have hrun : s.run c io = CaseResult.ofRun c trial :=
    run_eq_of_runsTo (.arrived hmeets (by omega) (isAt_iff.2 hip))
  refine ⟨_, hrun, fun h => ?_, rfl, ?_, CaseResult.passed_returned_iff⟩
  · have hwritten := h.imp_left CaseResult.passed_returned_iff.1
    exact hrun.trans (CaseResult.stated_returned hwritten)
  · rw [hdata]
    rfl

end Suite

/-! ### A program with a counted loop -/

namespace Listing

/-- **The text of a program** of a few subroutines.  The fourth of them is a counted loop. -/
def smallSubroutines : List Char :=
  ["# arith.fty: a few small forthytwo subroutines.",
   "#",
   "# Lines 1-20 are headers and never compiled. Every line after that is a",
   "# subroutine callable as <line> 42. Intrinsic opcodes used here:",
   "#   0 plus  1 minus  2 mult  3 div  4 mod  8 swap  9 dup",
   "#   11 loop  13 ifElse  14 emit  16 exit",
   "", "", "", "", "", "", "", "", "", "", "", "", "", "",
   "72 14 42 105 14 42 10 14 42 0 16 42",
   "9 42 2 42",
   "9 42 1 0 42 2 42 2 3 42",
   "8 42 4 0 42 8 42 1 1 42 11 42",
   "9 42 2 4 42 26 27 13 42",
   "1 0 42",
   "2 3 42"].flatMap fun line => line.toList ++ ['\n']

theorem exists_ofText_smallSubroutines (file : String) :
    ∃ program, ofText file smallSubroutines = .ok program ∧
      (Memory.empty.load program).line 24 = Machine.countedLoop 4 := by
  have hread : ofText "arith.fty" smallSubroutines = .ok
      [⟨21, [72, 14, 42, 105, 14, 42, 10, 14, 42, 0, 16, 42]⟩,
       ⟨22, [9, 42, 2, 42]⟩,
       ⟨23, [9, 42, 1, 0, 42, 2, 42, 2, 3, 42]⟩,
       ⟨24, [8, 42, 4, 0, 42, 8, 42, 1, 1, 42, 11, 42]⟩,
       ⟨25, [9, 42, 2, 4, 42, 26, 27, 13, 42]⟩,
       ⟨26, [1, 0, 42]⟩,
       ⟨27, [2, 3, 42]⟩] := by
    decide +kernel
  exact ⟨_, ofText_eq_ok_of_file hread, by decide +kernel⟩

end Listing

/-! ### Counted loops -/

open Machine in
/-- **Counted loops.**  From its first cell a counted loop takes twelve steps for each pass that the
counter says, and comes to the place behind its last cell with the cell added as often; nothing else
has changed, and all steps before were on its twelve cells.  The fourth line of the small
subroutines is such a line.  A test case that calls it finds the sentinel one step later, and not
before.  So it comes to its result, unless it has not passed and cannot write what it expects. -/
theorem steps_countedLoop :
    (∀ (m : Machine) (below : Stack Cell) (a n k : Cell), k.toInt ≠ callCell →
      m.memory.line m.ip.line = countedLoop k → m.ip.col = 0 →
      m.data = (below.push a).push n →
      steps (12 * n.passes) m = .next
        { m with
          data := below.push (Cell.wrap (a.toInt + k.toInt * n.passes))
          ip := ⟨m.ip.line, 12⟩ } ∧
      ∀ j < 12 * n.passes, ∃ data,
        steps j m = .next { m with data := data, ip := ⟨m.ip.line, (j % 12 : Nat)⟩ }) ∧
    ∀ file, ∃ program, Listing.ofText file Listing.smallSubroutines = .ok program ∧
      ∀ (s : Suite) (c : Case) (io : Streams) (a n : Cell), s.program = program →
        c.start = some 24 → c.inputs.map Cell.wrap = [a, n] →
        (12 * n.passes + 1 : Nat) ≤ s.maxSteps →
        (∃ m, steps (12 * n.passes + 1) (s.machine c io) = .next m ∧ m.ip = sentinel) ∧
        (∀ j < 12 * n.passes + 1, ((s.machine c io).after j).ip ≠ sentinel) ∧
        ∃ r : CaseResult, s.run c io = r.stated ∧
          (r.passed ∨ c.IsWritable → s.run c io = .ok r) ∧ r.steps = 12 * n.passes + 1 ∧
          r.stack = [Cell.wrap (a.toInt + 4 * n.passes)] ∧ (r.passed ↔ r.values = c.outputs) := by
  constructor
  · intro m below a n k hk hline hcol hdata
    have hcounts := AtLoop.counts ⟨hline, hcol⟩ hk hdata
    simpa [moved, hcol] using hcounts
  · intro file
    obtain ⟨program, hread, hline⟩ := Listing.exists_ofText_smallSubroutines file
    refine ⟨program, hread, ?_⟩
    rintro s c io a n rfl hstart hinputs hlimit
    have hstarted : (Memory.empty.load s.program).line (c.start.getD firstLine) =
        countedLoop 4 := by
      rw [hstart]
      exact hline
    have hk : (4 : Cell).toInt ≠ callCell := by decide
    obtain ⟨m, hmeets, hip, -⟩ := Suite.meets_of_countedLoop io hstarted hk hinputs
    obtain ⟨hsteps, hbefore⟩ := visits_iff.1 hmeets
    refine ⟨⟨m, hsteps, hip⟩, fun j hj hsentinel => ?_,
      Suite.run_of_countedLoop io hstarted hk hinputs hlimit⟩
    have hoff := hbefore j hj
    rw [isAt_iff.2 hsentinel] at hoff
    cases hoff

/-- A loop that takes three off for each of the passes of a negative counter, and a test case that
adds four for each of seven passes. -/
theorem steps_countedLoop_negative_and_seven :
    (∃ (m : Machine) (below : Stack Cell), below.numbers = [9] ∧ m.data.numbers = [9, 7, -1] ∧
      m.memory.line 21 = [8, 42, -3, 0, 42, 8, 42, 1, 1, 42, 11, 42] ∧ m.ip = ⟨21, 0⟩ ∧
      Machine.steps 51539607540 m =
        .next { m with data := below.push 10, ip := ⟨21, 12⟩ }) ∧
    ∃ (s : Suite) (c : Case) (r : CaseResult),
      Listing.ofText "" Listing.smallSubroutines = .ok s.program ∧ s.maxSteps = 85 ∧
      c.start = some 24 ∧ c.inputs = [5, 7] ∧ c.outputs = [33] ∧
      s.run c ⟨[], .emptyText⟩ = .ok r ∧ r.passed ∧ r.steps = 85 := by
  obtain ⟨hcounts, htexts⟩ := steps_countedLoop
  constructor
  · let m : Machine :=
      { Machine.fresh [] .emptyText with
        memory := Memory.empty.load [⟨21, [8, 42, -3, 0, 42, 8, 42, 1, 1, 42, 11, 42]⟩]
        data := .ofList [9, 7, -1] }
    have hline : m.memory.line 21 = Machine.countedLoop (-3) := by decide +kernel
    refine ⟨m, .ofList [9], rfl, rfl, hline, rfl, ?_⟩
    exact (hcounts m (.ofList [9]) 7 (-1) (-3) (by decide) hline rfl rfl).1
  · obtain ⟨program, hread, hcases⟩ := htexts ""
    let s : Suite := ⟨program, "", 85⟩
    let c : Case := ⟨"five and seven", some 24, [5, 7], [33]⟩
    obtain ⟨-, -, r, -, hrun, hsteps, hstack, hpassed⟩ :=
      hcases s c ⟨[], .emptyText⟩ 5 7 rfl rfl rfl (Int.le_refl 85)
    have hvalues : r.values = c.outputs := by
      rw [CaseResult.values, hstack]
      decide
    have hpassed := hpassed.2 hvalues
    exact ⟨s, c, r, hread, rfl, rfl, rfl, rfl, hrun (.inl hpassed), hpassed, hsteps⟩

end LineMachine
