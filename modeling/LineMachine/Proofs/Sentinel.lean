/-
**The sentinel: a case ends with the return of its call, and in no other way.**

The sentinel lies at the bottom of the return stack, below the addresses behind call cells that
the run puts there.  No call leads to line zero and no call cell stands there, so the instruction
pointer comes to the sentinel only by the return that finds nothing else on the return stack.  At
the sentinel there is nothing to execute and nothing to return to; so the loop that looks for it
finds it after that one return or not at all, and before it the return stack cannot run out.

Main definitions:

* `LineMachine.Suite.Returns` — **the call of a case returns** after so many steps.

Main results:

* `LineMachine.Suite.Meets.rooted_or_left` — the invariant of the loop;
* `LineMachine.Suite.meets_of_steps` — the loop misses no state that steps lead to;
* `LineMachine.Suite.operandFault_of_halted` — what interrupts a case;
* `LineMachine.Suite.exists_run_eq_stated` — every case comes to a result that can be stated or not;
* `LineMachine.Suite.run_decides` — **the runner is sound and complete**;
* `LineMachine.Suite.not_always_answered` — a case that has no result.
-/

import LineMachine.Proofs.ReturnAddresses

set_option relaxedAutoImplicit false
set_option autoImplicit false

namespace LineMachine

/-! ### The return of a case -/

namespace Suite

open Machine

/-- **The call of a case returns** after so many steps: all of them complete, and the last one is
the return to the sentinel. -/
def Returns (s : Suite) (c : Case) (io : Streams) (n : Nat) (m : Machine) : Prop :=
  ∃ k m', n = k + 1 ∧ steps k (s.machine c io) = .next m' ∧ m'.LeavesTo sentinel ∧
    m'.step = .next m

/-- **A case that can be run**: its program fits, and its call is one of a program line. -/
structure Admits (s : Suite) (c : Case) : Prop where
  program : s.program.Fits
  start : ∀ line, c.start = some line → firstLine ≤ line

variable {s : Suite} {c : Case} {io : Streams}

/-- In the beginning the return stack holds the sentinel alone. -/
theorem rooted_machine (s : Suite) (c : Case) (io : Streams) :
    (s.machine c io).Rooted (Memory.empty.load s.program) (some sentinel) := by
  rw [machine_eq]
  refine ⟨rfl, Int.le_refl 0, fun _ _ => Int.natCast_nonneg _, [], ?_, by simp⟩
  simp only [List.append_nil]
  decide

/-- The call is one of a program line. -/
theorem Admits.firstLine_le (h : s.Admits c) (io : Streams) :
    firstLine ≤ (s.machine c io).ip.line := by
  rw [machine_eq]
  change firstLine ≤ c.start.getD firstLine
  cases hline : c.start with
  | none => exact Int.le_refl firstLine
  | some line => exact h.start line hline

/-! ### The loop -/

/-- **The invariant of the loop.**  Until the return of the case the sentinel is at the root of
the return stack and the instruction pointer is among the program lines. -/
theorem Meets.rooted_or_left (hs : s.Admits c) {n : Nat} {m : Machine} (h : s.Meets c io n m) :
    (m.Rooted (Memory.empty.load s.program) (some sentinel) ∧ firstLine ≤ m.ip.line) ∨
      ∃ k m', n = k + 1 ∧ s.Meets c io k m' ∧ m'.LeavesTo sentinel ∧ m'.step = .next m := by
  have hbuilt : (Memory.empty.load s.program).Built := .load .empty s.program
  induction h with
  | start => exact .inl ⟨s.rooted_machine c io, hs.firstLine_le io⟩
  | @step n m₁ m₂ h hstop hstep ih =>
      rcases ih with ⟨hrooted, hline⟩ | ⟨k, m', -, -, hleave, hlast⟩
      · have hfits := Memory.fits_load hs.program
        rcases hrooted.step hbuilt hfits with ⟨hnext, hkeep⟩ | ⟨p, hp, hleave⟩
        · rw [hstep] at hnext hkeep
          exact .inl ⟨hnext, hkeep hline⟩
        · cases hp
          exact .inr ⟨n, m₁, rfl, h, hleave, hstep⟩
      · -- the loop would have ended at the sentinel
        rw [hleave.eq_of_step hlast] at hstop
        simp [isAt] at hstop

/-- A state that is met away from the sentinel. -/
theorem Meets.rooted (hs : s.Admits c) {n : Nat} {m : Machine} (h : s.Meets c io n m)
    (hip : m.ip ≠ sentinel) :
    m.Rooted (Memory.empty.load s.program) (some sentinel) ∧ firstLine ≤ m.ip.line := by
  rcases h.rooted_or_left hs with hrooted | ⟨k, m', -, -, hleave, hlast⟩
  · exact hrooted
  · rw [hleave.eq_of_step hlast] at hip
    exact absurd rfl hip

/-- At the sentinel the loop comes from the return of the case. -/
theorem Meets.left (hs : s.Admits c) {n : Nat} {m : Machine} (h : s.Meets c io n m)
    (hip : m.ip = sentinel) :
    ∃ k m', n = k + 1 ∧ s.Meets c io k m' ∧ m'.LeavesTo sentinel ∧ m'.step = .next m ∧
      m.ret = .empty := by
  rcases h.rooted_or_left hs with ⟨-, hline⟩ | ⟨k, m', hn, hmeets, hleave, hlast⟩
  · rw [hip] at hline
    exact absurd hline (by decide)
  · refine ⟨k, m', hn, hmeets, hleave, hlast, ?_⟩
    rw [hleave.step] at hlast
    cases hlast
    rfl

/-- Every state that is met has the program of the case. -/
theorem Meets.memory {n : Nat} {m : Machine} (h : s.Meets c io n m) :
    m.memory = Memory.empty.load s.program := by
  induction h with
  | start => rw [machine_eq]
  | @step n m₁ m₂ _ _ hstep ih =>
      have hmemory := m₁.memory_step
      rw [hstep] at hmemory
      exact hmemory.trans ih

/-- Nothing follows the return of a case: line zero is empty, and so is the return stack. -/
theorem not_step_of_leavesTo {m m₁ : Machine} (hbuilt : m.memory.Built)
    (hleave : m.LeavesTo sentinel) (hlast : m.step = .next m₁) (m₂ : Machine) :
    m₁.step ≠ .next m₂ := by
  obtain rfl := hleave.eq_of_step hlast
  obtain ⟨hline, hlt⟩ := Memory.bounds_of_fetch_eq_lineEnd hleave.lineEnd
  have hsize : (0 : Int) < m.memory.size := by omega
  have hend : m.memory.fetch sentinel = .lineEnd :=
    Memory.fetch_start_of_line_eq_nil (Int.le_refl 0) hsize (hbuilt.line_eq_nil (by decide))
  intro hstep
  have hcontrol := control_step { m with ret := .empty, ip := sentinel }
  rw [hstep] at hcontrol
  cases hcontrol with
  | wrap hf | stay hf _ | call hf _ _ => simp [hend] at hf
  | comeBack _ hret => cases hret

/-- **The loop misses nothing**: it meets every state that steps lead to. -/
theorem meets_of_steps (hs : s.Admits c) {n : Nat} {m : Machine}
    (h : steps n (s.machine c io) = .next m) : s.Meets c io n m := by
  induction n generalizing m with
  | zero =>
      obtain rfl : s.machine c io = m := by simpa using h
      exact .start
  | succ n ih =>
      obtain ⟨m₁, hsteps, hstep⟩ := steps_succ_eq_next_iff.1 h
      have hmeets := ih hsteps
      cases hstop : m₁.isAt sentinel with
      | false => exact hmeets.step hstop hstep
      | true =>
          -- the loop has ended, but there is no further step either
          obtain ⟨k, m', -, hbefore, hleave, hlast, -⟩ := hmeets.left hs (isAt_iff.1 hstop)
          have hbuilt : m'.memory.Built := hbefore.memory ▸ .load .empty s.program
          exact absurd hstep (not_step_of_leavesTo hbuilt hleave hlast m)

/-- The loop finds the sentinel exactly when the case returns. -/
theorem meets_sentinel_iff (hs : s.Admits c) {n : Nat} {m : Machine} :
    s.Meets c io n m ∧ m.ip = sentinel ↔ s.Returns c io n m := by
  constructor
  · rintro ⟨hmeets, hip⟩
    obtain ⟨k, m', hn, hbefore, hleave, hlast, -⟩ := hmeets.left hs hip
    exact ⟨k, m', hn, hbefore.steps, hleave, hlast⟩
  · rintro ⟨k, m', rfl, hsteps, hleave, hlast⟩
    refine ⟨meets_of_steps hs (steps_succ_eq_next_iff.2 ⟨m', hsteps, hlast⟩), ?_⟩
    rw [hleave.eq_of_step hlast]

/-! ### Results -/

/-- Away from the sentinel, the sentinel is at the root of the return stack, wherever the case
started. -/
theorem Meets.rooted_of_ne (hs : s.program.Fits) {n : Nat} {m : Machine} (h : s.Meets c io n m)
    (hip : m.ip ≠ sentinel) : m.Rooted (Memory.empty.load s.program) (some sentinel) := by
  have hbuilt : (Memory.empty.load s.program).Built := .load .empty s.program
  induction h with
  | start => exact s.rooted_machine c io
  | @step n m₁ m₂ h hstop hstep ih =>
      have hip₁ : m₁.ip ≠ sentinel := fun heq => by simp [isAt, heq] at hstop
      rcases (ih hip₁).step hbuilt (Memory.fits_load hs) with ⟨hnext, -⟩ | ⟨p, hp, hleave⟩
      · rwa [hstep] at hnext
      · cases hp
        exact absurd (hleave.eq_of_step hstep ▸ rfl) hip

/-- What interrupts a case is a fault of executing a cell. -/
theorem operandFault_of_halted (hs : s.program.Fits) {f : Fault}
    (h : (s.trial c io).ending = .halted f) : ∃ m : Machine, m.OperandFault f := by
  have htrial := s.runsTo_trial c io
  generalize s.trial c io = trial at h htrial
  cases htrial with
  | arrived => cases h
  | outOfSteps => cases h
  | @halted n m₁ m₂ f' hmeets hlimit hstop hstep =>
      cases h
      have hip : m₁.ip ≠ sentinel := by
        intro hip
        rw [isAt_iff.2 hip] at hstop
        cases hstop
      rcases (Meets.rooted_of_ne hs hmeets hip).fault hstep with hfault | ⟨-, hroot, -⟩
      · exact ⟨m₁, hfault⟩
      · cases hroot

/-- **The runner decides every case**, and states what it has decided if that can be written.  It
expected something else just if the loop found the sentinel and other numbers than those. -/
theorem exists_run_eq_stated (hs : s.program.Fits) (c : Case) (io : Streams) :
    ∃ r : CaseResult, s.run c io = r.stated ∧ r.case = c ∧
      (r.verdict = .unexpected ↔
        ∃ n m, s.trial c io = ⟨m, n, .arrived⟩ ∧ m.data.numbers ≠ c.outputs) := by
  have hfault : ∀ f, (s.trial c io).ending = .halted f → ∃ m : Machine, m.OperandFault f :=
    fun f => operandFault_of_halted hs
  unfold run
  generalize s.trial c io = trial at hfault
  obtain ⟨m, n, ending⟩ := trial
  cases ending with
  | arrived =>
      refine ⟨_, rfl, rfl, ?_⟩
      by_cases hout : m.data.toList.map Int32.toInt = c.outputs
      · simp [hout, Stack.numbers]
      · exact iff_of_true (by simp [hout]) ⟨n, m, rfl, hout⟩
  | outOfSteps => exact ⟨⟨c, .noReturn, m.data.toList, n⟩, rfl, rfl, by simp⟩
  | halted f =>
      obtain ⟨m', hfault⟩ := hfault f rfl
      cases f with
      | underflow d | divisionByZero d =>
          exact ⟨⟨c, .failed d, m.data.toList, n⟩, rfl, rfl, by simp⟩
      | exit status => exact ⟨⟨c, .exited status, m.data.toList, n⟩, rfl, rfl, by simp⟩
      | missingCell => cases hfault

/-- **A case of a program that fits** comes to a result if it can write what it expects. -/
theorem exists_run_of_isWritable (hs : s.program.Fits) (hc : c.IsWritable) (io : Streams) :
    ∃ r, s.run c io = .ok r := by
  obtain ⟨r, hrun, rfl, -⟩ := exists_run_eq_stated hs c io
  exact ⟨r, hrun.trans (CaseResult.stated_of_isWritable hc)⟩

/-- A case that has failed ran into a fault of executing a cell. -/
theorem operandFault_of_failed (hs : s.program.Fits) {r : CaseResult} (h : s.run c io = r.stated)
    {d : Diagnosis} (hd : r.verdict = .failed d) :
    ∃ m : Machine, m.OperandFault (.underflow d) ∨ m.OperandFault (.divisionByZero d) := by
  rw [CaseResult.stated_of_ne (by simp [hd])] at h
  rcases (verdict_failed_iff h).1 hd with hending | hending
  · obtain ⟨m, hfault⟩ := operandFault_of_halted hs hending
    exact ⟨m, .inl hfault⟩
  · obtain ⟨m, hfault⟩ := operandFault_of_halted hs hending
    exact ⟨m, .inr hfault⟩

end Suite

/-! ### Reasons -/

/-- What is said of a fault of executing a cell. -/
def Machine.operandTexts : List String :=
  ["data stack underflow", "swap needs 2 on the data stack", "dup needs 1 on the data stack",
   "loop needs 1 on the data stack", "division by zero"]

theorem Machine.OperandFault.what_mem {m : Machine} {d : Diagnosis}
    (h : m.OperandFault (.underflow d) ∨ m.OperandFault (.divisionByZero d)) :
    d.what ∈ operandTexts := by
  rcases h with h | h
  · cases h with
    | dataUnderflow =>
        change "data stack underflow" ∈ operandTexts
        decide
    | swap =>
        change "swap needs 2 on the data stack" ∈ operandTexts
        decide
    | dup =>
        change "dup needs 1 on the data stack" ∈ operandTexts
        decide
    | loop =>
        change "loop needs 1 on the data stack" ∈ operandTexts
        decide
  · cases h
    change "division by zero" ∈ operandTexts
    decide

namespace CaseResult

/-- A text does not end in another one that has a different tail. -/
theorem not_suffix_append {tail text : String} (front last : String)
    (htail : tail.toList <:+ text.toList)
    (hlast : tail.toList.length ≤ last.toList.length ∧ ¬ tail.toList <:+ last.toList) :
    ¬ text.toList <:+ (front ++ last).toList := by
  rw [String.toList_append]
  intro hsuffix
  refine hlast.2 (List.suffix_of_suffix_length_le (htail.trans hsuffix) ?_ hlast.1)
  exact List.suffix_append front.toList last.toList

/-- A message at a line ends in what it says. -/
theorem message_eq (d : Diagnosis) :
    d.message = d.file ++ "(" ++ Diagnosis.lineText d.line ++ ("): " ++ d.what) := by
  simp [Diagnosis.message, toString, String.append_assoc]

/-- **A result does not tell of want of a return address**, unless the case has failed with another
text than those of executing a cell. -/
theorem not_suffix_reason {r : CaseResult}
    (h : ∀ d, r.verdict = .failed d → d.what ∈ Machine.operandTexts) :
    ¬ "return stack underflow".toList <:+ r.reason.toList := by
  have hletter : "w".toList <:+ "return stack underflow".toList := by decide
  have htail : "n stack underflow".toList <:+ "return stack underflow".toList := by decide
  unfold reason
  cases hverdict : r.verdict with
  | passed =>
      dsimp only
      decide
  | unexpected =>
      exact not_suffix_append
        ("expected " ++ ("[" ++ ", ".intercalate (r.case.outputs.map toString))) "]" hletter
        (by decide)
  | noReturn =>
      exact not_suffix_append ("no return after " ++ toString r.steps) " steps" hletter (by decide)
  | failed d =>
      -- the last letter does not tell the underflow of the data stack from that of the return stack
      have hwhat : ∀ what ∈ Machine.operandTexts,
          "n stack underflow".toList.length ≤ ("): " ++ what).toList.length ∧
            ¬ "n stack underflow".toList <:+ ("): " ++ what).toList := by
        decide
      dsimp only
      rw [message_eq]
      exact not_suffix_append _ _ htail (hwhat d.what (h d hverdict))
  | exited status =>
      exact not_suffix_append ("program called exit(" ++ toString status.toInt) ")" hletter
        (by decide)

end CaseResult

/-! ### The runner -/

namespace Suite

open Machine

variable {s : Suite} {c : Case}

/-- **The loop finds the sentinel** with a return of the case within the limit. -/
theorem trial_eq_arrived_iff_returns (hs : s.Admits c) {io : Streams} {n : Nat} {m : Machine} :
    s.trial c io = ⟨m, n, .arrived⟩ ↔ s.Returns c io n m ∧ (n : Int) ≤ s.maxSteps := by
  rw [trial_eq_arrived_iff, ← meets_sentinel_iff hs]
  constructor
  · rintro ⟨hmeets, hlimit, hip⟩
    -- a return takes a step, so the limit is not negative
    obtain ⟨k, -, hn, -⟩ := (meets_sentinel_iff hs).1 ⟨hmeets, hip⟩
    exact ⟨⟨hmeets, hip⟩, by omega⟩
  · rintro ⟨⟨hmeets, hip⟩, hlimit⟩
    exact ⟨hmeets, by omega, hip⟩

/-- A case that returns within the limit and leaves what is expected has passed. -/
theorem run_of_returns (hs : s.Admits c) {io : Streams} {n : Nat} {m : Machine}
    (hreturns : s.Returns c io n m) (hlimit : (n : Int) ≤ s.maxSteps)
    (houtputs : m.data.numbers = c.outputs) :
    s.run c io = .ok ⟨c, .passed, m.data.toList, n⟩ := by
  have htrial := (trial_eq_arrived_iff_returns hs).2 ⟨hreturns, hlimit⟩
  obtain ⟨hmeets, hsteps, hip⟩ := trial_eq_arrived_iff.1 htrial
  exact (run_passed_iff.2 ⟨n, m, hmeets, hsteps, hip, houtputs, rfl⟩).1

/-- **The runner is sound and complete.**  Until a case returns, the sentinel lies at the bottom of
the return stack and the instruction pointer is among the program lines; the sentinel is found
after the return of the case and at no other time.  The runner decides every case.  It has no
result for one just if the case returns within the limit, leaves something else than expected, and
what was expected cannot be written.  No decision tells of want of a return address, and the case
has passed exactly if it returns within the limit and leaves what is expected. -/
theorem run_decides (hs : s.Admits c) (io : Streams) :
    (∀ n m, s.Meets c io n m → m.ip ≠ sentinel →
      sentinel.pair <+: m.ret.numbers ∧ firstLine ≤ m.ip.line) ∧
    (∀ n m, s.Meets c io n m → m.ip = sentinel → s.Returns c io n m ∧ m.ret = .empty) ∧
    ∃ r : CaseResult, s.run c io = r.stated ∧
      (∀ e, s.run c io = .error e ↔ e = .unwritable ∧ ¬ c.IsWritable ∧
        ∃ n m, s.Returns c io n m ∧ (n : Int) ≤ s.maxSteps ∧ m.data.numbers ≠ c.outputs) ∧
      ¬ "return stack underflow".toList <:+ r.reason.toList ∧
      (r.passed ↔
        ∃ n m, s.Returns c io n m ∧ (n : Int) ≤ s.maxSteps ∧ m.data.numbers = c.outputs) ∧
      (∀ n m, s.Returns c io n m → (n : Int) ≤ s.maxSteps → m.data.numbers = c.outputs →
        s.run c io = .ok r ∧ r.steps = n ∧ r.values = c.outputs) := by
  refine ⟨fun n m hmeets hip => ?_, fun n m hmeets hip => ?_, ?_⟩
  · obtain ⟨⟨-, -, -, frames, hret, -⟩, hline⟩ := Meets.rooted hs hmeets hip
    rw [hret, List.flatMap_append]
    exact ⟨by simp, hline⟩
  · obtain ⟨-, -, -, -, -, -, hret⟩ := Meets.left hs hmeets hip
    exact ⟨(meets_sentinel_iff hs).1 ⟨hmeets, hip⟩, hret⟩
  · obtain ⟨r, hrun, hcase, hunexpected⟩ := exists_run_eq_stated hs.program c io
    -- every return within the limit with the expected numbers is the result
    have hreturns : ∀ n m, s.Returns c io n m → (n : Int) ≤ s.maxSteps →
        m.data.numbers = c.outputs → s.run c io = .ok r ∧ r = ⟨c, .passed, m.data.toList, n⟩ := by
      intro n m hreturns hlimit houtputs
      have hpassed := run_of_returns hs hreturns hlimit houtputs
      obtain ⟨-, rfl⟩ := CaseResult.stated_eq_ok_iff.1 (hrun ▸ hpassed)
      exact ⟨hpassed, rfl⟩
    refine ⟨r, hrun, fun e => ?_, CaseResult.not_suffix_reason fun d hd => ?_,
      ⟨fun hpassed => ?_, ?_⟩, ?_⟩
    · rw [hrun, CaseResult.stated_eq_error_iff, hunexpected, hcase, and_comm (b := ¬ _)]
      simp only [trial_eq_arrived_iff_returns hs, and_assoc]
    · obtain ⟨m, hfault⟩ := operandFault_of_failed hs.program hrun hd
      exact OperandFault.what_mem hfault
    · have hverdict : r.verdict = .passed := by simpa [CaseResult.passed] using hpassed
      rw [CaseResult.stated_of_ne (by simp [hverdict])] at hrun
      obtain ⟨n, m, hmeets, hlimit, hip, houtputs, -⟩ := run_passed_iff.1 ⟨hrun, hpassed⟩
      have htrial := trial_eq_arrived_iff.2 ⟨hmeets, hlimit, hip⟩
      obtain ⟨hreturn, hle⟩ := (trial_eq_arrived_iff_returns hs).1 htrial
      exact ⟨n, m, hreturn, hle, houtputs⟩
    · rintro ⟨n, m, hreturn, hlimit, houtputs⟩
      rw [(hreturns n m hreturn hlimit houtputs).2]
      rfl
    · intro n m hreturn hlimit houtputs
      obtain ⟨hok, hr⟩ := hreturns n m hreturn hlimit houtputs
      exact ⟨hok, by rw [hr], by rw [hr]; exact houtputs⟩

/-- A case whose line drops its input by a call of another line returns after six steps. -/
theorem run_decides_case_with_call :
    ∃ (s : Suite) (c : Case) (r : CaseResult), s.Admits c ∧ s.maxSteps = 6 ∧
      s.program = [⟨21, [22, 42]⟩, ⟨22, [10, 42]⟩] ∧ c.inputs = [7] ∧ c.outputs = [] ∧
      s.run c ⟨[], .emptyText⟩ = .ok r ∧ r.passed ∧ r.steps = 6 := by
  let s : Suite := ⟨[⟨21, [22, 42]⟩, ⟨22, [10, 42]⟩], "", 6⟩
  let c : Case := ⟨"drop", none, [7], []⟩
  let m := s.machine c ⟨[], .emptyText⟩
  have hs : s.Admits c := {
    program := ⟨by decide, by decide, by decide⟩
    start := fun _ hline => by cases hline }
  have hreturn : s.Returns c ⟨[], .emptyText⟩ 6 (m.after 6) :=
    ⟨5, m.after 5, rfl, by decide +kernel, ⟨by decide +kernel, by decide +kernel⟩,
      by decide +kernel⟩
  have hlimit : (6 : Int) ≤ s.maxSteps := by decide
  have houtputs : (m.after 6).data.numbers = c.outputs := by decide +kernel
  obtain ⟨-, -, r, -, -, -, hpassed, hresult⟩ := run_decides hs ⟨[], .emptyText⟩
  obtain ⟨hrun, hsteps, -⟩ := hresult 6 _ hreturn hlimit houtputs
  exact ⟨s, c, r, hs, rfl, rfl, rfl, rfl, hrun, hpassed.2 ⟨6, _, hreturn, hlimit, houtputs⟩, hsteps⟩

/-- A case has no result that leaves a one where a number of 4301 digits was expected. -/
theorem not_always_answered :
    ¬ ∀ (s : Suite) (c : Case) (io : Streams), s.Admits c → ∃ r, s.run c io = .ok r := by
  intro hanswers
  let s : Suite := ⟨[⟨22, [1]⟩], "", defaultMaxSteps⟩
  let c : Case := ⟨"x", some 22, [], [((10 ^ 4300 : Nat) : Int)]⟩
  have hs : s.Admits c := {
    program := ⟨by decide, by decide, by decide⟩
    start := by
      rintro line ⟨⟩
      decide }
  obtain ⟨r, hr⟩ := hanswers s c ⟨[], .emptyText⟩ hs
  have hfails : (s.run c ⟨[], .emptyText⟩).toBool = false := by decide +kernel
  rw [hr] at hfails
  cases hfails

end Suite

end LineMachine
