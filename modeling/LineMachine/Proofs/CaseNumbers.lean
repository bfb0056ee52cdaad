/-
**Case numbers: what becomes of numbers out of range.**

A case may state any numbers.  Its inputs are pushed, so only their cells count.  Its outputs are
held as they stand against the numbers of the cells on the data stack, so an output out of range is
never met.  Stating the cells instead leaves the run of the case alone, its steps, its stack and the
streams.  It can turn the verdict only from unexpected to passed, and only where an output was out
of range.  A cell can always be written, so the reduced case also has a result where an output of
the case could not be written.

Main definitions:

* `LineMachine.Cell.wrapAll`, `LineMachine.Case.wrapped` — numbers, and a case, reduced to cells;
* `LineMachine.CaseResult.CarriesOver` — **what is left of a result** when its case is reduced;
* `LineMachine.Suite.ReturnsAtOnce` — a case whose called line is empty.

Main results:

* `LineMachine.Cell.map_toInt_eq_iff` — which numbers cells can show;
* `LineMachine.CaseResult.ofRun_wrapped` — what a run comes to for a reduced case;
* `LineMachine.Suite.trial_congr` — of the inputs only their cells count;
* `LineMachine.Suite.exists_run_of_returnsAtOnce` — the result of a case that returns at once;
* `LineMachine.Suite.run_wrapped` — **a reduced case runs alike, and passes if the case would but
  for outputs out of range**.
-/

import LineMachine.Proofs.Control
import LineMachine.Proofs.Trials

set_option relaxedAutoImplicit false
set_option autoImplicit false

namespace LineMachine

/-! ### Numbers reduced to cells -/

namespace Cell

/-- The numbers of the cells that numbers wrap to. -/
def wrapAll (vs : List Int) : List Int := vs.map fun v => (wrap v).toInt

/-- Reduced numbers have the cells that they had. -/
theorem map_wrap_wrapAll (vs : List Int) : (wrapAll vs).map wrap = vs.map wrap := by
  unfold wrapAll
  rw [List.map_map]
  refine List.map_congr_left fun v _ => ?_
  exact wrap_toInt (wrap v)

theorem inRange_of_mem_wrapAll {vs : List Int} {v : Int} (h : v ∈ wrapAll vs) : InRange v := by
  obtain ⟨w, -, rfl⟩ := List.mem_map.1 h
  exact inRange_toInt (wrap w)

/-- **Cells show some numbers** just if they are the cells of those numbers and no number is out of
range. -/
theorem map_toInt_eq_iff {cells : List Cell} {vs : List Int} :
    cells.map Int32.toInt = vs ↔ cells = vs.map wrap ∧ ∀ v ∈ vs, InRange v := by
  constructor
  · rintro rfl
    constructor
    · have hkeep : cells.map (wrap ∘ Int32.toInt) = cells.map id :=
        List.map_congr_left fun c _ => wrap_toInt c
      rw [List.map_map, hkeep, List.map_id]
    · intro v hv
      obtain ⟨c, -, rfl⟩ := List.mem_map.1 hv
      exact inRange_toInt c
  · rintro ⟨rfl, hvs⟩
    exact map_toInt_map_wrap hvs

end Cell

/-! ### Cases reduced to cells -/

/-- **A case with its numbers reduced to cells.** -/
def Case.wrapped (c : Case) : Case :=
  { c with inputs := Cell.wrapAll c.inputs, outputs := Cell.wrapAll c.outputs }

/-- The number of a cell can be written. -/
theorem Cell.isWritable_of_inRange {v : Int} (h : InRange v) : Numeral.IsWritable v := by
  have hbound : v.natAbs < 10 ^ 10 := by
    simp only [InRange, bound] at h
    omega
  have hdigits := (Nat.length_toDigits_le_iff (by decide) (by decide)).2 hbound
  exact Nat.le_trans hdigits (by decide)

theorem Case.isWritable_wrapped (c : Case) : c.wrapped.IsWritable :=
  fun _ hv => Cell.isWritable_of_inRange (Cell.inRange_of_mem_wrapAll hv)

namespace CaseResult

/-- **What is left of a result** when its case is reduced to cells.  Steps and stack are the same;
the case has passed just if the reduced one has and no output was out of range; and the verdict is
the same, unless something else was expected and the reduced case has passed. -/
structure CarriesOver (r r' : CaseResult) : Prop where
  case : r'.case = r.case.wrapped
  steps : r'.steps = r.steps
  stack : r'.stack = r.stack
  passed_iff : r.passed = true ↔ r'.passed = true ∧ ∀ v ∈ r.case.outputs, Cell.InRange v
  verdict : r'.verdict = r.verdict ∨ r.verdict = .unexpected ∧ r'.verdict = .passed

/-- The result of a case that has not passed carries over with its verdict. -/
theorem carriesOver_of_ne {r : CaseResult} (hpassed : r.verdict ≠ .passed) :
    r.CarriesOver { r with case := r.case.wrapped } where
  case := rfl
  steps := rfl
  stack := rfl
  passed_iff := by simp [passed, hpassed]
  verdict := .inl rfl

/-- The verdict on what a call left on the data stack. -/
theorem carriesOver_arrived (c : Case) (stack : List Cell) (n : Nat) :
    CarriesOver ⟨c, if stack.map Int32.toInt = c.outputs then .passed else .unexpected, stack, n⟩
      ⟨c.wrapped, if stack.map Int32.toInt = c.wrapped.outputs then .passed else .unexpected,
        stack, n⟩ := by
  -- the stack shows the outputs just if it has their cells and they are in range
  have houtputs : stack.map Int32.toInt = c.outputs ↔
      stack = c.outputs.map Cell.wrap ∧ ∀ v ∈ c.outputs, Cell.InRange v := Cell.map_toInt_eq_iff
  have hcells : stack.map Int32.toInt = c.wrapped.outputs ↔ stack = c.outputs.map Cell.wrap := by
    have hrange : ∀ v ∈ c.wrapped.outputs, Cell.InRange v :=
      fun v hv => Cell.inRange_of_mem_wrapAll hv
    have hwrap : c.wrapped.outputs.map Cell.wrap = c.outputs.map Cell.wrap :=
      Cell.map_wrap_wrapAll c.outputs
    rw [Cell.map_toInt_eq_iff, and_iff_left hrange, hwrap]
  by_cases hmet : stack = c.outputs.map Cell.wrap
  · rw [if_pos (hcells.2 hmet)]
    by_cases hrange : ∀ v ∈ c.outputs, Cell.InRange v
    · rw [if_pos (houtputs.2 ⟨hmet, hrange⟩)]
      exact ⟨rfl, rfl, rfl, iff_of_true rfl ⟨rfl, hrange⟩, .inl rfl⟩
    · rw [if_neg fun h => hrange (houtputs.1 h).2]
      refine ⟨rfl, rfl, rfl, iff_of_false (by simp [passed]) fun h => hrange h.2, ?_⟩
      exact .inr ⟨rfl, rfl⟩
  · rw [if_neg fun h => hmet (hcells.1 h), if_neg fun h => hmet (houtputs.1 h).1]
    exact carriesOver_of_ne (by simp)

/-- **What a run comes to for a reduced case.**  Either it comes to no result for both, or its
result carries over; the reduced case can always write what it expects. -/
theorem ofRun_wrapped (c : Case) (run : Run) :
    (ofRun c run = .error .missingCell ∧ ofRun c.wrapped run = .error .missingCell) ∨
      ∃ r r' : CaseResult, r.case = c ∧ ofRun c run = r.stated ∧ ofRun c.wrapped run = .ok r' ∧
        r.CarriesOver r' := by
  obtain ⟨m, n, ending⟩ := run
  -- an ending that is not a return gives a result that has its reason
  have hresult {verdict : Verdict} (hpassed : verdict ≠ .passed) (hother : verdict ≠ .unexpected)
      (hrun : ∀ c', ofRun c' ⟨m, n, ending⟩ = .ok ⟨c', verdict, m.data.toList, n⟩) :
      ∃ r r' : CaseResult, r.case = c ∧ ofRun c ⟨m, n, ending⟩ = r.stated ∧
        ofRun c.wrapped ⟨m, n, ending⟩ = .ok r' ∧ r.CarriesOver r' := by
    refine ⟨⟨c, verdict, m.data.toList, n⟩, _, rfl, ?_, hrun c.wrapped, ?_⟩
    · rw [hrun, stated_of_ne hother]
    · exact carriesOver_of_ne hpassed
  cases ending with
  | arrived =>
      refine .inr ⟨_, _, rfl, rfl, ?_, carriesOver_arrived c m.data.toList n⟩
      exact stated_of_isWritable c.isWritable_wrapped
  | outOfSteps => exact .inr (hresult (by simp) (by simp) fun _ => rfl)
  | halted f =>
      cases f with
      | missingCell => exact .inl ⟨rfl, rfl⟩
      | underflow d | divisionByZero d | exit status =>
          exact .inr (hresult (by simp) (by simp) fun _ => rfl)

/-- The inputs of a case have no part in what a run comes to for it. -/
theorem ofRun_inputs (c : Case) (vs : List Int) (run : Run) :
    ofRun { c with inputs := vs } run =
      (ofRun c run).map fun r => { r with case := { c with inputs := vs } } := by
  obtain ⟨m, n, ending⟩ := run
  cases ending with
  | arrived =>
      -- whether a result can be stated does not depend on the inputs
      by_cases h : IsStatable ⟨c, if m.data.toList.map Int32.toInt = c.outputs then .passed
        else .unexpected, m.data.toList, n⟩
      · have hc : ofRun c ⟨m, n, .arrived⟩ = .ok _ := if_pos h
        have hvs : ofRun { c with inputs := vs } ⟨m, n, .arrived⟩ = .ok _ := if_pos h
        rw [hc, hvs]
        rfl
      · have hc : ofRun c ⟨m, n, .arrived⟩ = .error _ := if_neg h
        have hvs : ofRun { c with inputs := vs } ⟨m, n, .arrived⟩ = .error _ := if_neg h
        rw [hc, hvs]
        rfl
  | outOfSteps => rfl
  | halted f => cases f <;> rfl

end CaseResult

/-! ### Suites -/

namespace Suite

open Machine

variable {s : Suite} {c c' : Case} {io : Streams}

/-- **Of the inputs only their cells count** for the run of a case, and of its outputs nothing. -/
theorem trial_congr (hstart : c'.start = c.start)
    (hinputs : c'.inputs.map Cell.wrap = c.inputs.map Cell.wrap) :
    s.trial c' io = s.trial c io := by
  have hmachine : s.machine c' io = s.machine c io := by
    rw [machine_eq, machine_eq, hstart, hinputs]
  rw [trial, trial, hmachine]

/-- **A case that returns at once**: there is nothing on the line that it calls. -/
def ReturnsAtOnce (s : Suite) (c : Case) : Prop :=
  (Memory.empty.load s.program).fetch (.start (c.start.getD firstLine)) = .lineEnd

instance (s : Suite) (c : Case) : Decidable (s.ReturnsAtOnce c) :=
  inferInstanceAs (Decidable (_ = _))

/-- The loop of a case that returns at once finds the sentinel with the inputs on the data stack. -/
theorem exists_meets_of_returnsAtOnce (io : Streams) (h : s.ReturnsAtOnce c) :
    ∃ n m, n ≤ 1 ∧ s.Meets c io n m ∧ m.ip = sentinel ∧
      m.data.toList = c.inputs.map Cell.wrap := by
  by_cases hstart : (s.machine c io).ip = sentinel
  · refine ⟨0, s.machine c io, by omega, .start, hstart, ?_⟩
    simp [machine_eq]
  · have hf : (s.machine c io).memory.fetch (s.machine c io).ip = .lineEnd := by
      rw [machine_eq]
      exact h
    have hret : (s.machine c io).ret = ((Stack.empty : Stack Cell).push 0).push 0 := by
      rw [machine_eq]
      rfl
    have hstop : (s.machine c io).isAt sentinel = false := by simpa [isAt] using hstart
    refine ⟨1, _, Nat.le_refl 1, .step .start hstop (step_of_push_push hf hret), rfl, ?_⟩
    simp [machine_eq]

/-- **The result of a case that returns at once**: its inputs as cells, which it was to leave if
they are in range. -/
theorem exists_run_of_returnsAtOnce (io : Streams) (hlimit : 0 < s.maxSteps)
    (h : s.ReturnsAtOnce c) (houtputs : c.outputs = c.inputs) :
    ∃ r : CaseResult, s.run c io = r.stated ∧ r.case = c ∧ r.stack = c.inputs.map Cell.wrap ∧
      (r.passed = true ↔ ∀ v ∈ c.inputs, Cell.InRange v) := by
  obtain ⟨n, m, hn, hmeets, hip, hdata⟩ := exists_meets_of_returnsAtOnce io h
  have hsteps : n ≤ s.maxSteps.toNat := by omega
  have hrun : s.run c io = CaseResult.ofRun c ⟨m, n, .arrived⟩ :=
    run_eq_of_runsTo (.arrived hmeets hsteps (isAt_iff.2 hip))
  refine ⟨_, hrun, rfl, hdata, ?_⟩
  rw [CaseResult.passed_returned_iff, houtputs, Cell.map_toInt_eq_iff, and_iff_right hdata]

/-- **A reduced case runs alike, and passes if the case would but for outputs out of range.**

Stating the cells of its numbers leaves the run of a case alone, and so its steps, the stack that is
left and the streams; and a fault that is no verdict stays.  Reducing the inputs alone changes
nothing but what the result says that they are.  The verdict can change only from unexpected to
passed, and the case itself has passed just if the reduced case has and no output is out of range.
The same holds of a result that cannot be stated because of an output that cannot be written: the
reduced case always comes to a result in its place.  So a case that returns at once, and is to leave
its inputs, passes just for inputs in range; the reduced one always does. -/
theorem run_wrapped (s : Suite) (c : Case) (io : Streams) :
    s.trial c.wrapped io = s.trial c io ∧
    (∀ e, s.run c.wrapped io = .error e ↔ e = .missingCell ∧ s.run c io = .error e) ∧
    (∀ r, s.run c io = .ok r → ∃ r', s.run c.wrapped io = .ok r' ∧ r.CarriesOver r') ∧
    (s.run c io = .error .unwritable →
      ∃ r r' : CaseResult, r.case = c ∧ r.verdict = .unexpected ∧ ¬ c.IsWritable ∧
        s.run c.wrapped io = .ok r' ∧ r.CarriesOver r') ∧
    s.run { c with inputs := Cell.wrapAll c.inputs } io =
      (s.run c io).map (fun r => { r with case := { c with inputs := Cell.wrapAll c.inputs } }) ∧
    (0 < s.maxSteps → s.ReturnsAtOnce c → c.outputs = c.inputs →
      ∃ r r' : CaseResult, s.run c io = r.stated ∧ s.run c.wrapped io = .ok r' ∧
        (c.IsWritable → s.run c io = .ok r) ∧
        r.stack = c.inputs.map Cell.wrap ∧ r'.passed = true ∧
        (r.passed = true ↔ ∀ v ∈ c.inputs, Cell.InRange v)) := by
  have htrial : s.trial c.wrapped io = s.trial c io :=
    trial_congr rfl (Cell.map_wrap_wrapAll c.inputs)
  have hinputs : s.trial { c with inputs := Cell.wrapAll c.inputs } io = s.trial c io :=
    trial_congr rfl (Cell.map_wrap_wrapAll c.inputs)
  have hwrapped : s.run c.wrapped io = CaseResult.ofRun c.wrapped (s.trial c io) := by
    rw [run, htrial]
  have hcarries := CaseResult.ofRun_wrapped c (s.trial c io)
  rw [← hwrapped, ← run] at hcarries
  refine ⟨htrial, ?_, ?_, ?_, ?_, ?_⟩
  · intro e
    rcases hcarries with ⟨hrun, hrun'⟩ | ⟨r, r', -, hrun, hrun', -⟩
    · simp [hrun, hrun', eq_comm]
    · rw [hrun, hrun', CaseResult.stated_eq_error_iff]
      refine iff_of_false (by simp) ?_
      rintro ⟨rfl, h, -⟩
      cases h
  · intro r hr
    rcases hcarries with ⟨hrun, -⟩ | ⟨r₁, r', -, hrun, hrun', hover⟩
    · rw [hrun] at hr
      cases hr
    · obtain ⟨-, rfl⟩ := CaseResult.stated_eq_ok_iff.1 (hrun.symm.trans hr)
      exact ⟨r', hrun', hover⟩
  · intro hunwritable
    rcases hcarries with ⟨hrun, -⟩ | ⟨r, r', rfl, hrun, hrun', hover⟩
    · rw [hrun] at hunwritable
      cases hunwritable
    · rw [hrun, CaseResult.stated_eq_error_iff] at hunwritable
      exact ⟨r, r', rfl, hunwritable.2.1, hunwritable.2.2, hrun', hover⟩
  · rw [run, run, hinputs]
    exact CaseResult.ofRun_inputs c _ _
  · intro hlimit hempty houtputs
    obtain ⟨r, hr, hcase, hstack, hpassed⟩ :=
      exists_run_of_returnsAtOnce io hlimit hempty houtputs
    have hempty' : s.ReturnsAtOnce c.wrapped := hempty
    have hsame : c.wrapped.outputs = c.wrapped.inputs := congrArg Cell.wrapAll houtputs
    obtain ⟨r', hr', hcase', -, hpassed'⟩ :=
      exists_run_of_returnsAtOnce io hlimit hempty' hsame
    have hwritable' : r'.case.IsWritable := hcase' ▸ c.isWritable_wrapped
    refine ⟨r, r', hr, hr'.trans (CaseResult.stated_of_isWritable hwritable'), fun hc => ?_,
      hstack, ?_, hpassed⟩
    · exact hr.trans (CaseResult.stated_of_isWritable (hcase ▸ hc))
    · exact hpassed'.2 fun v hv => Cell.inRange_of_mem_wrapAll hv

/-- A program with nothing on its first line. -/
def echoing : Suite := ⟨[⟨22, [1]⟩], "echo.fty", 1⟩

/-- A case of that line that is to leave a number as it finds it. -/
def echo (v : Int) : Case := ⟨"echo", none, [v], [v]⟩

/-- The first number beyond the cells comes back as another number, and the case passes only if it
states that one. -/
theorem run_wrapped_echo :
    ∃ r r', echoing.run (echo 2147483648) ⟨[], .emptyText⟩ = .ok r ∧
      echoing.run (echo (-2147483648)) ⟨[], .emptyText⟩ = .ok r' ∧
      r.CarriesOver r' ∧ r.passed = false ∧ r'.passed = true ∧ r'.values = [-2147483648] := by
  have hwrapped : (echo 2147483648).wrapped = echo (-2147483648) := by decide
  obtain ⟨-, -, hcarries, -, -, hecho⟩ := run_wrapped echoing (echo 2147483648) ⟨[], .emptyText⟩
  obtain ⟨r, r₁, -, hr₁, hwritten, hstack, hpassed₁, hpassed⟩ := hecho (by decide) (by decide) rfl
  have hr : echoing.run (echo 2147483648) ⟨[], .emptyText⟩ = .ok r :=
    hwritten (by decide +kernel)
  obtain ⟨r', hr', hover⟩ := hcarries r hr
  obtain rfl : r₁ = r' := by simpa [hr₁] using hr'
  rw [hwrapped] at hr₁
  refine ⟨r, r₁, hr, hr₁, hover, ?_, hpassed₁, ?_⟩
  · have hbeyond : ¬ ∀ v ∈ (echo 2147483648).inputs, Cell.InRange v := by decide
    exact Bool.eq_false_iff.2 fun h => hbeyond (hpassed.1 h)
  · rw [CaseResult.values, hover.stack, hstack]
    decide

/-- A case can fail for a number that its cell would pass for. -/
theorem echo_fails_out_of_range :
    ¬ ∀ (s : Suite) (c : Case) (io : Streams) (r r' : CaseResult),
      s.run c io = .ok r → s.run c.wrapped io = .ok r' → r'.passed = r.passed := by
  intro hsame
  have hcase : echoing.run (echo 4294967297) ⟨[], .emptyText⟩ =
      CaseResult.stated ⟨echo 4294967297, .unexpected, [1], 1⟩ := rfl
  have hwrapped : echoing.run (echo 4294967297).wrapped ⟨[], .emptyText⟩ =
      CaseResult.stated ⟨(echo 4294967297).wrapped, .passed, [1], 1⟩ := rfl
  rw [CaseResult.stated_of_isWritable (by decide +kernel)] at hcase hwrapped
  exact absurd (hsame _ _ _ _ _ hcase hwrapped) (by decide)

end Suite

end LineMachine
