/-
**The stack frame: no program looks below what it was given.**

Putting more cells below the two stacks of a machine changes nothing about a step, except that
those cells are still there afterwards, unless the step fails for want of cells.  So steps that
complete on some stacks complete alike on deeper ones, and a test case that passes also passes
with more inputs below its own, which then show below its outputs.

Main definitions:

* `LineMachine.Stack.onto`, `LineMachine.Machine.onto`, `LineMachine.Case.onto` — stacks, machines
  and test cases on top of more cells;
* `LineMachine.Outcome.RanOut` — a stack did not hold enough cells.

Main results:

* `LineMachine.resolve_append` — a chain of branches that ends does so on more cells;
* `LineMachine.Machine.step_onto` — **the frame of a step**;
* `LineMachine.Machine.steps_onto` — the frame of several steps;
* `LineMachine.Machine.execute_onto_nil` — executing a cell does not look at the return stack;
* `LineMachine.Suite.run_onto` — the frame of a test case;
* `LineMachine.stack_frame` — **no program looks below what it was given**.
-/

import LineMachine.Proofs.Control
import LineMachine.Proofs.Trials

set_option relaxedAutoImplicit false
set_option autoImplicit false

namespace LineMachine

/-! ### On top of more cells -/

/-- The stack on top of more values, of which the first lies lowest. -/
def Stack.onto {α : Type} (s : Stack α) (below : List α) : Stack α :=
  ⟨s.topFirst ++ below.reverse⟩

namespace Stack

variable {α : Type}

@[simp] theorem toList_onto (s : Stack α) (below : List α) :
    (s.onto below).toList = below ++ s.toList := by
  simp [onto, toList]

@[simp] theorem topFirst_onto (s : Stack α) (below : List α) :
    (s.onto below).topFirst = s.topFirst ++ below.reverse := rfl

@[simp] theorem onto_nil (s : Stack α) : s.onto [] = s := by
  cases s
  simp [onto]

theorem onto_eq_ofList (s : Stack α) (below : List α) :
    s.onto below = .ofList (below ++ s.toList) := by
  simp [onto, ofList, toList]

end Stack

/-- The machine on top of more cells on both of its stacks. -/
def Machine.onto (m : Machine) (data ret : List Cell) : Machine :=
  { m with data := m.data.onto data, ret := m.ret.onto ret }

namespace Outcome

/-- What is left on top of more cells, after the same fault if any. -/
def onto (o : Outcome) (data ret : List Cell) : Outcome :=
  match o with
  | next m => .next (m.onto data ret)
  | halt f m => .halt f (m.onto data ret)

/-- **A stack did not hold enough cells.** -/
def RanOut (o : Outcome) : Prop := ∃ d, o.fault? = some (.underflow d)

@[simp] theorem ranOut_next (m : Machine) : ¬ (next m).RanOut := by
  simp [RanOut, fault?]

@[simp] theorem ranOut_halt_underflow (d : Diagnosis) (m : Machine) :
    (halt (.underflow d) m).RanOut := ⟨d, rfl⟩

end Outcome

/-! ### One step -/

/-- **A chain of branches that ends** does so on more cells, and leaves those. -/
theorem resolve_append {opcode : Int} {cells rest : List Cell} {leaf : Leaf}
    (h : resolve opcode cells = some (leaf, rest)) (more : List Cell) :
    resolve opcode (cells ++ more) = some (leaf, rest ++ more) := by
  -- along the branches; the last case, a branch that runs out of cells, has no end
  fun_induction resolve opcode cells with
  | case1 _ _ hneg =>
      cases h
      unfold resolve
      rw [if_pos hneg]
  | case2 _ _ hneg hcall =>
      cases h
      unfold resolve
      rw [if_neg hneg, if_pos hcall]
  | case3 _ hneg hcall _ _ hslot =>
      cases h
      unfold resolve
      rw [if_neg hneg, if_neg hcall]
      simp only [hslot]
  | case4 _ hneg hcall _ _ hslot =>
      cases h
      unfold resolve
      rw [if_neg hneg, if_neg hcall]
      simp only [hslot, List.cons_append, if_true]
  | case5 _ hneg hcall _ _ _ hslot hcond ih =>
      unfold resolve
      rw [if_neg hneg, if_neg hcall]
      simp only [hslot, List.cons_append, if_neg hcond]
      exact ih h
  | case6 _ hneg hcall _ _ _ _ hslot ih =>
      unfold resolve
      rw [if_neg hneg, if_neg hcall]
      simp only [hslot, List.cons_append]
      exact ih h
  | case7 => cases h

namespace Machine

variable {m m' : Machine}

/-- An action that finds its operands does the same on top of more cells. -/
theorem perform_onto {a : Action} (h : ¬ (m.perform a).RanOut) (data ret : List Cell) :
    (m.onto data ret).perform a = (m.perform a).onto data ret := by
  -- with too few operands the action would have run out of cells
  cases a with
  | operator o =>
      rcases hdata : m.data.topFirst with _ | ⟨right, _ | ⟨left, rest⟩⟩
      · simp [perform, hdata, dataUnderflow] at h
      · simp [perform, hdata, dataUnderflow] at h
      · simp only [perform, onto, Stack.topFirst_onto, hdata, List.cons_append]
        cases o.apply left right with
        | some c => rfl
        | none => rfl
  | swap =>
      rcases hdata : m.data.topFirst with _ | ⟨b, _ | ⟨a, rest⟩⟩
      · simp [perform, hdata, shortage] at h
      · simp [perform, hdata, shortage] at h
      · simp only [perform, onto, Stack.topFirst_onto, hdata, List.cons_append]
        rfl
  | not | drop | emit | exit =>
      rcases hdata : m.data.topFirst with _ | ⟨c, rest⟩
      · simp [perform, hdata, dataUnderflow] at h
      · simp only [perform, onto, Stack.topFirst_onto, hdata, List.cons_append]
        rfl
  | dup =>
      rcases hdata : m.data.topFirst with _ | ⟨c, rest⟩
      · simp [perform, hdata, shortage] at h
      · simp only [perform, onto, Stack.topFirst_onto, hdata, List.cons_append]
        rfl
  | loop =>
      rcases hdata : m.data.topFirst with _ | ⟨c, rest⟩
      · simp [perform, hdata, shortage] at h
      · simp only [perform, onto, Stack.topFirst_onto, hdata, List.cons_append]
        split
        · rfl
        · simp [Outcome.onto, onto, jump, Stack.onto, hdata]
  | read =>
      simp only [perform, onto]
      cases m.input with
      | nil => rfl
      | cons c input => rfl

/-- Running an opcode that finds its operands does the same on top of more cells. -/
theorem dispatch_onto {opcode : Int} (h : ¬ (m.dispatch opcode).RanOut) (data ret : List Cell) :
    (m.onto data ret).dispatch opcode = (m.dispatch opcode).onto data ret := by
  unfold dispatch at h ⊢
  cases hleaf : resolve opcode m.data.topFirst with
  | none => simp [hleaf, dataUnderflow] at h
  | some found =>
      obtain ⟨leaf, rest⟩ := found
      have hmore : resolve opcode (m.onto data ret).data.topFirst =
          some (leaf, rest ++ data.reverse) := resolve_append hleaf data.reverse
      simp only [hleaf] at h
      simp only [hmore]
      cases leaf with
      | nothing => rfl
      | act a => exact perform_onto (m := { m with data := ⟨rest⟩ }) h data ret
      | call line => rfl

/-- Executing a cell that finds its operands does the same on top of more cells. -/
theorem execute_onto {v : Int} (h : ¬ (m.execute v).RanOut) (data ret : List Cell) :
    (m.onto data ret).execute v = (m.execute v).onto data ret := by
  unfold execute at h ⊢
  by_cases hv : v = callCell
  · rw [if_pos hv] at h ⊢
    rw [if_pos hv]
    rcases hdata : m.data.topFirst with _ | ⟨opcode, rest⟩
    · simp [pop?, Stack.pop?, hdata, dataUnderflow] at h
    · have hpop : m.pop? = some (opcode, { m with data := ⟨rest⟩ }) := by
        simp [pop?, Stack.pop?, hdata]
      have hmore : (m.onto data ret).pop? =
          some (opcode, ({ m with data := ⟨rest⟩ } : Machine).onto data ret) := by
        simp [pop?, Stack.pop?, onto, Stack.onto, hdata]
      simp only [hpop] at h
      simp only [hpop, hmore]
      exact dispatch_onto h data ret
  · rw [if_neg hv, if_neg hv]
    rfl

/-- A return that finds an address does the same on top of more cells. -/
theorem comeBack_onto (h : ¬ m.comeBack.RanOut) (data ret : List Cell) :
    (m.onto data ret).comeBack = m.comeBack.onto data ret := by
  rcases hret : m.ret with ⟨_ | ⟨col, _ | ⟨line, rest⟩⟩⟩
  · simp [comeBack, popReturn?, Stack.pop?, hret, returnUnderflow] at h
  · simp [comeBack, popReturn?, Stack.pop?, hret, returnUnderflow] at h
  · have hmore : (m.onto data ret).ret = ((Stack.push ⟨rest ++ ret.reverse⟩ line).push col) := by
      simp [onto, Stack.onto, Stack.push, hret]
    rw [comeBack_of_push_push hmore, comeBack_of_push_push hret]
    rfl

/-- **The frame of a step.**  A step that does not run out of cells does the same on top of more
of them, and leaves those. -/
theorem step_onto (h : ¬ m.step.RanOut) (data ret : List Cell) :
    (m.onto data ret).step = m.step.onto data ret := by
  unfold step at h ⊢
  have hip : (m.onto data ret).memory.fetch (m.onto data ret).ip = m.memory.fetch m.ip := rfl
  rw [hip]
  cases hf : m.memory.fetch m.ip with
  | outside => rfl
  | cell c =>
      rw [hf] at h
      exact execute_onto (m := m.advance) h data ret
  | lineEnd =>
      rw [hf] at h
      exact comeBack_onto h data ret
  | missing => rfl

/-! ### Several steps -/

theorem step_onto_of_next (h : m.step = .next m') (data ret : List Cell) :
    (m.onto data ret).step = .next (m'.onto data ret) := by
  have hran : ¬ m.step.RanOut := by
    rw [h]
    exact Outcome.ranOut_next m'
  rw [step_onto hran, h]
  rfl

/-- **The frame of several steps.** -/
theorem steps_onto {n : Nat} (h : steps n m = .next m') (data ret : List Cell) :
    steps n (m.onto data ret) = .next (m'.onto data ret) := by
  induction n generalizing m' with
  | zero =>
      obtain rfl : m = m' := by simpa using h
      rfl
  | succ n ih =>
      obtain ⟨m₁, hsteps, hstep⟩ := steps_succ_eq_next_iff.1 h
      exact steps_succ_eq_next_iff.2 ⟨_, ih hsteps, step_onto_of_next hstep data ret⟩

/-- A run that looks at no cells visits the same states on top of more of them. -/
theorem Visits.onto {stop : Machine → Bool} {data ret : List Cell}
    (hstop : ∀ m : Machine, stop (m.onto data ret) = stop m) {n : Nat} (h : Visits stop m n m') :
    Visits stop (m.onto data ret) n (m'.onto data ret) := by
  induction h with
  | start => exact .start
  | step _ hbefore hstep ih =>
      exact ih.step ((hstop _).trans hbefore) (step_onto_of_next hstep data ret)

/-! ### More cells on the return stack only -/

theorem onto_nil_eq (m : Machine) (ret : List Cell) :
    m.onto [] ret = { m with ret := m.ret.onto ret } := by
  simp [onto]

/-- An action does not look at the return stack. -/
theorem perform_onto_nil (m : Machine) (a : Action) (ret : List Cell) :
    (m.onto [] ret).perform a = (m.perform a).onto [] ret := by
  rw [onto_nil_eq]
  -- the data stacks are the same, so both sides are in the same case
  simp only [perform]
  split <;> (try split) <;> simp [Outcome.onto, onto_nil_eq, jump] <;> rfl

/-- Running an opcode does not look at the return stack. -/
theorem dispatch_onto_nil (m : Machine) (opcode : Int) (ret : List Cell) :
    (m.onto [] ret).dispatch opcode = (m.dispatch opcode).onto [] ret := by
  have hdata : (m.onto [] ret).data = m.data := by simp [onto]
  unfold dispatch
  rw [hdata]
  cases hleaf : resolve opcode m.data.topFirst with
  | none =>
      simp only [Outcome.onto, onto_nil_eq]
      rfl
  | some found =>
      obtain ⟨leaf, rest⟩ := found
      have hrest : { m.onto [] ret with data := ⟨rest⟩ } =
          ({ m with data := ⟨rest⟩ } : Machine).onto [] ret := by
        simp [onto_nil_eq]
      simp only [hrest]
      cases leaf with
      | nothing => rfl
      | act a => exact perform_onto_nil _ a ret
      | call line =>
          simp only [Outcome.onto, onto_nil_eq]
          rfl

/-- Executing a cell does not look at the return stack. -/
theorem execute_onto_nil (m : Machine) (v : Int) (ret : List Cell) :
    (m.onto [] ret).execute v = (m.execute v).onto [] ret := by
  have hdata : (m.onto [] ret).data = m.data := by simp [onto]
  unfold execute
  by_cases hv : v = callCell
  · rw [if_pos hv, if_pos hv]
    rcases htop : m.data.topFirst with _ | ⟨opcode, rest⟩
    · have hpop : m.pop? = none := by simp [pop?, Stack.pop?, htop]
      have hpop' : (m.onto [] ret).pop? = none := by simp [pop?, Stack.pop?, hdata, htop]
      simp only [hpop, hpop']
      rfl
    · have hpop : m.pop? = some (opcode, { m with data := ⟨rest⟩ }) := by
        simp [pop?, Stack.pop?, htop]
      have hpop' : (m.onto [] ret).pop? =
          some (opcode, ({ m with data := ⟨rest⟩ } : Machine).onto [] ret) := by
        simp [pop?, Stack.pop?, onto_nil_eq, htop]
      simp only [hpop, hpop']
      exact dispatch_onto_nil _ opcode.toInt ret
  · rw [if_neg hv, if_neg hv]
    simp [Outcome.onto, onto_nil_eq, push]

end Machine

/-! ### Test cases -/

/-- The case with more cells below both its inputs and its outputs. -/
def Case.onto (c : Case) (more : List Cell) : Case :=
  { c with
    inputs := more.map Int32.toInt ++ c.inputs
    outputs := more.map Int32.toInt ++ c.outputs }

/-- The machine of a case with more inputs is that of the case on top of them. -/
theorem Suite.machine_onto (s : Suite) (c : Case) (io : Streams) (more : List Cell) :
    s.machine (c.onto more) io = (s.machine c io).onto more [] := by
  have hcells : (more.map Int32.toInt).map Cell.wrap = more := by
    simp [Function.comp_def]
  simp [machine_eq, Case.onto, Machine.onto, Stack.onto_eq_ofList, hcells]

/-- **The frame of a test case.** -/
theorem Suite.run_onto {s : Suite} {c : Case} {io : Streams} {r : CaseResult}
    (h : s.run c io = .ok r) (hpassed : r.passed) (more : List Cell) :
    ∃ r', s.run (c.onto more) io = .ok r' ∧ r'.passed ∧ r'.steps = r.steps ∧
      r'.stack = more ++ r.stack := by
  obtain ⟨n, m, hmeets, hlimit, hip, houtputs, rfl⟩ := run_passed_iff.1 ⟨h, hpassed⟩
  have hmore : s.Meets (c.onto more) io n (m.onto more []) := by
    unfold Meets
    rw [machine_onto]
    exact hmeets.onto fun _ => rfl
  have hnumbers : (m.onto more []).data.numbers = (c.onto more).outputs := by
    simp [Stack.numbers, Machine.onto, Case.onto, ← houtputs]
  obtain ⟨hrun, hpass⟩ := run_passed_iff.2 ⟨n, _, hmore, hlimit, hip, hnumbers, rfl⟩
  exact ⟨_, hrun, hpass, rfl, by simp [Machine.onto]⟩

/-- **No program looks below what it was given.**  Steps that complete do so on top of more cells,
with the same address, input and output, and leave those cells; and if the next step fails then
for another reason than want of cells, it fails for the same one.  A case that passes also passes
with more cells below its inputs and its outputs, in as many steps. -/
theorem stack_frame :
    (∀ (n : Nat) (m m' : Machine) (data ret : List Cell), Machine.steps n m = .next m' →
      Machine.steps n (m.onto data ret) = .next (m'.onto data ret) ∧
      ∀ (f : Fault) (m'' : Machine), m'.step = .halt f m'' → (∀ d, f ≠ .underflow d) →
        (m'.onto data ret).step = .halt f (m''.onto data ret)) ∧
    (∀ (s : Suite) (c : Case) (io : Streams) (r : CaseResult) (more : List Cell),
      s.run c io = .ok r → r.passed →
      ∃ r', s.run (c.onto more) io = .ok r' ∧ r'.passed ∧ r'.steps = r.steps ∧
        r'.stack = more ++ r.stack) := by
  refine ⟨fun n m m' data ret hsteps => ⟨Machine.steps_onto hsteps data ret, ?_⟩, ?_⟩
  · intro f m'' hstep hf
    have hran : ¬ m'.step.RanOut := by
      rintro ⟨d, hd⟩
      rw [hstep] at hd
      exact hf d (Option.some.inj hd)
    rw [Machine.step_onto hran, hstep]
    rfl
  · intro s c io r more hrun hpassed
    exact Suite.run_onto hrun hpassed more

/-- A division by zero on top of a nine, and a case that drops a seven on top of a five. -/
theorem stack_frame_of_division_and_drop :
    (∃ m m' m'' : Machine, ∃ d, Machine.steps 3 m = .next m' ∧
      m'.step = .halt (.divisionByZero d) m'' ∧
      Machine.steps 3 (m.onto [9] [1]) = .next (m'.onto [9] [1]) ∧
      (m'.onto [9] [1]).step = .halt (.divisionByZero d) (m''.onto [9] [1])) ∧
    ∃ r, Suite.run ⟨[⟨21, [10, 42]⟩], "", 5⟩ ⟨"drop", none, [5, 7], [5]⟩ ⟨[], .emptyText⟩ = .ok r ∧
      r.passed ∧ r.steps = 3 := by
  let memory :=
    (((Memory.empty.compile 21 5).compile 21 0).compile 21 3).compile 21 42
  let m : Machine := { Machine.fresh [] .emptyText with memory := memory }
  obtain ⟨hframe, hcase⟩ := stack_frame
  constructor
  · have hsteps : Machine.steps 3 m = .next (m.after 3) := by decide +kernel
    have hstep : (m.after 3).step = .halt
        (.divisionByZero ((m.after 3).diagnose "division by zero")) (m.after 4) := by
      decide +kernel
    obtain ⟨hmore, hfault⟩ := hframe 3 m (m.after 3) [9] [1] hsteps
    exact ⟨m, m.after 3, m.after 4, _, hsteps, hstep, hmore, hfault _ _ hstep (by simp)⟩
  · let s : Suite := ⟨[⟨21, [10, 42]⟩], "", 5⟩
    let c : Case := ⟨"drop", none, [7], []⟩
    have htrial : s.trial c ⟨[], .emptyText⟩ =
        ⟨{ s.machine c ⟨[], .emptyText⟩ with data := .empty, ret := .empty, ip := sentinel }, 3,
          .arrived⟩ := by
      decide +kernel
    have hrun : s.run c ⟨[], .emptyText⟩ = .ok ⟨c, .passed, [], 3⟩ := by
      rw [Suite.run, htrial]
      rfl
    obtain ⟨r, hmore, hpassed, hsteps, -⟩ := hcase s c _ _ [5] hrun rfl
    exact ⟨r, hmore, hpassed, hsteps⟩

end LineMachine
