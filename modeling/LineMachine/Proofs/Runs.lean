/-
**Runs: steps in a row, and what the loop of a run comes to.**

`LineMachine.Machine.after` takes steps whatever comes of them: a step that a fault interrupts
leaves the machine in some state, and the next step is taken from there.
`LineMachine.Machine.steps` stops at the first fault instead, and
`LineMachine.Machine.runUntil` stops at a condition and at a limit besides.  The states at which
the loop of such a run looks at its condition are those that it visits, and what the run comes to
is read off the last of them.

Main definitions:

* `LineMachine.Machine.after` — the machine after so many attempted steps;
* `LineMachine.Machine.Visits` — the states at which a run looks at its condition;
* `LineMachine.Machine.RunsTo` — how a run ends, told from the last state that it visits.

Main results:

* `LineMachine.Machine.after_induction` — **what every step keeps, a run keeps**;
* `LineMachine.Machine.steps_succ_eq_next_iff` — the last of several steps;
* `LineMachine.Machine.visits_iff` — visited states are those before which the condition fails;
* `LineMachine.Machine.runUntil_eq_iff` — **a run comes to exactly what it visits last**.
-/

import LineMachine.Machine.Step

set_option relaxedAutoImplicit false
set_option autoImplicit false

namespace LineMachine

namespace Machine

variable {m m' : Machine} {stop : Machine → Bool}

/-! ### Steps whatever comes of them -/

/-- **The machine after so many attempted steps.**  A fault does not end the run: the next step
is taken from the state that it left. -/
def after (m : Machine) : Nat → Machine
  | 0 => m
  | n + 1 => (m.after n).step.machine

@[simp] theorem after_zero (m : Machine) : m.after 0 = m := rfl

theorem after_succ (m : Machine) (n : Nat) : m.after (n + 1) = (m.after n).step.machine := rfl

/-- **What every step keeps, a run keeps.** -/
theorem after_induction {P : Machine → Prop} (h : P m) (hstep : ∀ m, P m → P m.step.machine)
    (n : Nat) : P (m.after n) := by
  induction n with
  | zero => exact h
  | succ n ih => exact hstep _ ih

/-! ### Steps up to a fault -/

/-- The last of several steps. -/
theorem steps_succ_eq_next_iff {n : Nat} {m m₂ : Machine} :
    steps (n + 1) m = .next m₂ ↔ ∃ m₁, steps n m = .next m₁ ∧ m₁.step = .next m₂ := by
  induction n generalizing m with
  | zero =>
      cases hstep : m.step with
      | next m₁ => simp [steps_succ hstep, hstep]
      | halt f m₁ => simp [steps_succ_halt hstep, hstep]
  | succ n ih =>
      cases hstep : m.step with
      | next m₁ => rw [steps_succ hstep, steps_succ hstep, ih]
      | halt f m₁ => simp [steps_succ_halt hstep]

/-- A fault that interrupts a step ends any longer run of steps. -/
theorem steps_eq_halt {n k : Nat} {m₁ : Machine} {f : Fault} (hsteps : steps n m = .next m₁)
    (hstep : m₁.step = .halt f m') (hlt : n < k) : steps k m = .halt f m' := by
  obtain ⟨rest, rfl⟩ := Nat.exists_eq_add_of_lt hlt
  rw [Nat.add_assoc, steps_add hsteps, steps_succ_halt hstep]

/-- Several steps that complete come to what they come to whatever comes of them. -/
theorem after_of_steps {n : Nat} (h : steps n m = .next m') : m.after n = m' := by
  induction n generalizing m' with
  | zero => simpa using h
  | succ n ih =>
      obtain ⟨m₁, hsteps, hstep⟩ := steps_succ_eq_next_iff.1 h
      rw [after_succ, ih hsteps, hstep]
      rfl

/-- Before several steps that complete have been taken, the next one completes. -/
theorem step_after_of_steps {n i : Nat} (h : steps n m = .next m') (hi : i < n) :
    (m.after i).step = .next (m.after (i + 1)) := by
  induction n generalizing m' with
  | zero => omega
  | succ n ih =>
      obtain ⟨m₁, hsteps, hstep⟩ := steps_succ_eq_next_iff.1 h
      rcases Nat.lt_or_eq_of_le (Nat.le_of_lt_succ hi) with hlt | rfl
      · exact ih hsteps hlt
      · rw [after_succ, after_of_steps hsteps, hstep]
        rfl

/-! ### The states that a run visits -/

/-- **A run visits a state** after so many steps: those steps complete, and at none of the states
before it did the condition hold. -/
inductive Visits (stop : Machine → Bool) (m : Machine) : Nat → Machine → Prop where
  | start : Visits stop m 0 m
  | step {n : Nat} {m₁ m₂ : Machine} (h : Visits stop m n m₁) (hstop : stop m₁ = false)
      (hstep : m₁.step = .next m₂) : Visits stop m (n + 1) m₂

theorem Visits.steps {n : Nat} (h : Visits stop m n m') : steps n m = .next m' := by
  induction h with
  | start => rfl
  | step _ _ hstep ih => exact steps_succ_eq_next_iff.2 ⟨_, ih, hstep⟩

/-- At every state that was visited before, the condition failed. -/
theorem Visits.earlier {n i : Nat} (h : Visits stop m n m') (hi : i < n) :
    stop (m.after i) = false := by
  induction h with
  | start => omega
  | step h hstop _ ih =>
      rcases Nat.lt_or_eq_of_le (Nat.le_of_lt_succ hi) with hlt | rfl
      · exact ih hlt
      · rwa [after_of_steps h.steps]

/-- **The visited states** are those that steps lead to and before which the condition fails. -/
theorem visits_iff {n : Nat} :
    Visits stop m n m' ↔ Machine.steps n m = .next m' ∧ ∀ i < n, stop (m.after i) = false := by
  refine ⟨fun h => ⟨h.steps, fun i hi => h.earlier hi⟩, ?_⟩
  rintro ⟨hsteps, hstop⟩
  induction n generalizing m' with
  | zero =>
      obtain rfl : m = m' := by simpa using hsteps
      exact .start
  | succ n ih =>
      obtain ⟨m₁, h₁, hstep⟩ := steps_succ_eq_next_iff.1 hsteps
      have hbefore := ih h₁ fun i hi => hstop i (by omega)
      refine hbefore.step ?_ hstep
      rw [← after_of_steps h₁]
      exact hstop n (by omega)

/-! ### What a run comes to -/

/-- **How a run ends**, told from the last state that it visits. -/
inductive RunsTo (stop : Machine → Bool) (limit : Nat) (m : Machine) : Run → Prop where
  /-- The condition holds there. -/
  | arrived {n : Nat} {m' : Machine} (h : Visits stop m n m') (hlimit : n ≤ limit)
      (hstop : stop m' = true) : RunsTo stop limit m ⟨m', n, .arrived⟩
  /-- There the limit is reached. -/
  | outOfSteps {m' : Machine} (h : Visits stop m limit m') (hstop : stop m' = false) :
      RunsTo stop limit m ⟨m', limit, .outOfSteps⟩
  /-- A fault interrupts the next step. -/
  | halted {n : Nat} {m₁ m₂ : Machine} {f : Fault} (h : Visits stop m n m₁) (hlimit : n < limit)
      (hstop : stop m₁ = false) (hstep : m₁.step = .halt f m₂) :
      RunsTo stop limit m ⟨m₂, n, .halted f⟩

theorem runFrom_of_stop {limit done : Nat} (h : stop m = true) :
    runFrom stop limit done m = ⟨m, done, .arrived⟩ := by
  unfold runFrom
  rw [if_pos h]

theorem runFrom_zero {done : Nat} (h : stop m = false) :
    runFrom stop 0 done m = ⟨m, done, .outOfSteps⟩ := by
  simp [runFrom, h]

theorem runFrom_succ {limit done : Nat} (h : stop m = false) (hstep : m.step = .next m') :
    runFrom stop (limit + 1) done m = runFrom stop limit (done + 1) m' := by
  rw [runFrom]
  simp [h, hstep]

theorem runFrom_succ_halt {limit done : Nat} {f : Fault} (h : stop m = false)
    (hstep : m.step = .halt f m') :
    runFrom stop (limit + 1) done m = ⟨m', done, .halted f⟩ := by
  rw [runFrom]
  simp [h, hstep]

/-- A run continues from every state that it visits. -/
theorem Visits.runFrom_eq {n : Nat} (h : Visits stop m n m') (limit : Nat) :
    runFrom stop (n + limit) 0 m = runFrom stop limit n m' := by
  induction h generalizing limit with
  | start => rw [Nat.zero_add]
  | step _ hstop hstep ih =>
      rw [Nat.add_assoc, Nat.add_comm 1, ih, runFrom_succ hstop hstep]

theorem runsTo_runFrom {n : Nat} (h : Visits stop m n m') (limit : Nat) :
    RunsTo stop (n + limit) m (runFrom stop limit n m') := by
  -- on the steps that are left, from whatever state has been visited
  induction limit generalizing n m' with
  | zero =>
      cases hstop : stop m' with
      | true =>
          rw [runFrom_of_stop hstop]
          exact .arrived h (Nat.le_add_right n 0) hstop
      | false =>
          rw [runFrom_zero hstop]
          exact .outOfSteps h hstop
  | succ limit ih =>
      cases hstop : stop m' with
      | true =>
          rw [runFrom_of_stop hstop]
          exact .arrived h (by omega) hstop
      | false =>
          cases hstep : m'.step with
          | next m₁ =>
              rw [runFrom_succ hstop hstep, Nat.add_comm limit, ← Nat.add_assoc]
              exact ih (h.step hstop hstep)
          | halt f m₁ =>
              rw [runFrom_succ_halt hstop hstep]
              exact .halted h (by omega) hstop hstep

theorem runsTo_runUntil (stop : Machine → Bool) (limit : Nat) (m : Machine) :
    RunsTo stop limit m (m.runUntil stop limit) := by
  have h := runsTo_runFrom (.start : Visits stop m 0 m) limit
  rwa [Nat.zero_add] at h

/-- **A run comes to exactly what it visits last.** -/
theorem runUntil_eq_iff {limit : Nat} {r : Run} :
    m.runUntil stop limit = r ↔ RunsTo stop limit m r := by
  constructor
  · rintro rfl
    exact runsTo_runUntil stop limit m
  · intro h
    unfold runUntil
    cases h with
    | @arrived n m' h hlimit hstop =>
        obtain ⟨rest, rfl⟩ := Nat.exists_eq_add_of_le hlimit
        rw [h.runFrom_eq, runFrom_of_stop hstop]
    | outOfSteps h hstop =>
        have heq := h.runFrom_eq 0
        rwa [Nat.add_zero, runFrom_zero hstop] at heq
    | @halted n m₁ m₂ f h hlimit hstop hstep =>
        obtain ⟨rest, rfl⟩ := Nat.exists_eq_add_of_lt hlimit
        rw [Nat.add_assoc, h.runFrom_eq, runFrom_succ_halt hstop hstep]

end Machine

end LineMachine
