/-
**Trials: the run of a case and its result.**

The loop that runs a case looks for the sentinel before each step.  What it comes to is told from
the last state at which it looks, and so is the result of the case: the case has passed if the
loop found the sentinel within the limit, with the expected numbers on the data stack.

Main definitions:

* `LineMachine.Stack.numbers` — a stack as a case states it;
* `LineMachine.Suite.Meets` — the states at which the loop looks for the sentinel.

Main results:

* `LineMachine.Suite.machine_eq` — the machine as a case finds it;
* `LineMachine.Suite.run_eq_of_runsTo` — the result is told from the state that is met last;
* `LineMachine.Suite.verdict_failed_iff` — when a case has failed;
* `LineMachine.Suite.run_passed_iff` — **when a case has passed**, and with what result.
-/

import LineMachine.Case.Verdict
import LineMachine.Proofs.Runs

set_option relaxedAutoImplicit false
set_option autoImplicit false

namespace LineMachine

/-! ### Stacks as numbers -/

/-- The numbers on a stack of cells, bottom first. -/
def Stack.numbers (s : Stack Cell) : List Int := s.toList.map Int32.toInt

namespace Stack

@[simp] theorem numbers_empty : (empty : Stack Cell).numbers = [] := rfl

@[simp] theorem numbers_push (s : Stack Cell) (c : Cell) :
    (s.push c).numbers = s.numbers ++ [c.toInt] := by
  simp [numbers]

@[simp] theorem length_numbers (s : Stack Cell) : s.numbers.length = s.depth := by
  simp [numbers]

theorem eq_empty_of_numbers {s : Stack Cell} (h : s.numbers = []) : s = empty := by
  have htop : s.topFirst = [] := by simpa [numbers, toList] using h
  cases s
  simpa [empty] using htop

theorem inRange_of_mem_numbers {s : Stack Cell} {v : Int} (h : v ∈ s.numbers) :
    Cell.InRange v := by
  obtain ⟨c, -, rfl⟩ := List.mem_map.1 h
  exact Cell.inRange_toInt c

end Stack

/-! ### The machine of a case -/

namespace Machine

theorem isAt_iff {m : Machine} {p : Place} : m.isAt p = true ↔ m.ip = p := by
  simp [isAt]

/-- Pushing numbers one after the other puts their cells on top of the data stack. -/
theorem pushAll_eq (m : Machine) (vs : List Int) :
    m.pushAll vs = { m with data := .ofList (m.data.toList ++ vs.map Cell.wrap) } := by
  unfold pushAll
  induction vs generalizing m with
  | nil => simp
  | cons v vs ih =>
      rw [List.foldl_cons, ih]
      simp [push]

end Machine

namespace Suite

open Machine

variable {s : Suite} {c : Case} {io : Streams}

/-- **The machine as a case finds it.** -/
theorem machine_eq (s : Suite) (c : Case) (io : Streams) :
    s.machine c io =
      { data := .ofList (c.inputs.map Cell.wrap)
        ret := .ofList [0, 0]
        memory := Memory.empty.load s.program
        ip := .start (c.start.getD firstLine)
        file := s.file
        input := io.input
        output := io.output } := by
  have hret : ((Stack.empty : Stack Cell).push (Cell.wrap sentinel.line)).push
      (Cell.wrap sentinel.col) = .ofList [0, 0] := by decide
  simp [machine, fresh, Machine.load, pushAll_eq, pushReturn, jump, hret]

/-! ### Results -/

/-- A case has failed when an underflow or a division by zero interrupted its program. -/
theorem verdict_failed_iff {trial : Run} {r : CaseResult} (h : CaseResult.ofRun c trial = .ok r)
    {d : Diagnosis} :
    r.verdict = .failed d ↔
      trial.ending = .halted (.underflow d) ∨ trial.ending = .halted (.divisionByZero d) := by
  obtain ⟨m, n, ending⟩ := trial
  unfold CaseResult.ofRun at h
  cases ending with
  | arrived =>
      obtain ⟨-, rfl⟩ := CaseResult.stated_eq_ok_iff.1 h
      by_cases hout : m.data.toList.map Int32.toInt = c.outputs <;> simp [hout]
  | outOfSteps =>
      simp only [Except.ok.injEq] at h
      subst h
      simp
  | halted f =>
      cases f with
      | missingCell => cases h
      | underflow d' | divisionByZero d' | exit status =>
          simp only [Except.ok.injEq] at h
          subst h
          simp

/-- **The states at which the loop of a case looks for the sentinel**, each with the number of
steps before it. -/
def Meets (s : Suite) (c : Case) (io : Streams) : Nat → Machine → Prop :=
  Visits (·.isAt sentinel) (s.machine c io)

theorem runsTo_trial (s : Suite) (c : Case) (io : Streams) :
    RunsTo (·.isAt sentinel) s.maxSteps.toNat (s.machine c io) (s.trial c io) :=
  runsTo_runUntil _ _ _

/-- **The result of a case** is told from the state that is met last. -/
theorem run_eq_of_runsTo {trial : Run}
    (h : RunsTo (·.isAt sentinel) s.maxSteps.toNat (s.machine c io) trial) :
    s.run c io = CaseResult.ofRun c trial := by
  rw [run, Suite.trial, runUntil_eq_iff.2 h]

/-- **The loop finds the sentinel** at a state that it meets within the limit. -/
theorem trial_eq_arrived_iff {n : Nat} {m : Machine} :
    s.trial c io = ⟨m, n, .arrived⟩ ↔
      s.Meets c io n m ∧ n ≤ s.maxSteps.toNat ∧ m.ip = sentinel := by
  constructor
  · intro htrial
    cases htrial ▸ s.runsTo_trial c io with
    | arrived hmeets hlimit hstop => exact ⟨hmeets, hlimit, isAt_iff.1 hstop⟩
  · rintro ⟨hmeets, hlimit, hip⟩
    exact runUntil_eq_iff.2 (.arrived hmeets hlimit (isAt_iff.2 hip))

/-- **When a case has passed**: its loop finds the sentinel within the limit, and the data stack
then holds the expected numbers. -/
theorem run_passed_iff {r : CaseResult} :
    s.run c io = .ok r ∧ r.passed ↔
      ∃ n m, s.Meets c io n m ∧ n ≤ s.maxSteps.toNat ∧ m.ip = sentinel ∧
        m.data.numbers = c.outputs ∧ r = ⟨c, .passed, m.data.toList, n⟩ := by
  constructor
  · rintro ⟨hrun, hpassed⟩
    obtain ⟨hending, houtputs⟩ := (CaseResult.passed_iff_of_ofRun hrun).1 hpassed
    obtain ⟨m, n, htrial⟩ : ∃ m n, s.trial c io = ⟨m, n, .arrived⟩ :=
      ⟨_, _, by rw [← hending]⟩
    have hverdict : m.data.toList.map Int32.toInt = c.outputs := by simpa [htrial] using houtputs
    obtain ⟨hmeets, hlimit, hip⟩ := trial_eq_arrived_iff.1 htrial
    simp only [run, htrial, CaseResult.ofRun, if_pos hverdict] at hrun
    obtain ⟨-, rfl⟩ := CaseResult.stated_eq_ok_iff.1 hrun
    exact ⟨n, m, hmeets, hlimit, hip, hverdict, rfl⟩
  · rintro ⟨n, m, hmeets, hlimit, hip, houtputs, rfl⟩
    have hverdict : m.data.toList.map Int32.toInt = c.outputs := houtputs
    have htrial := trial_eq_arrived_iff.2 ⟨hmeets, hlimit, hip⟩
    refine ⟨?_, rfl⟩
    simp only [run, htrial, CaseResult.ofRun, if_pos hverdict]
    exact CaseResult.stated_of_ne (by simp)

end Suite

end LineMachine
