/-
**The output frame: a machine does the same whatever it has written.**

Nothing that the machine does depends on its output.  With another output in its place, a step does
what it does otherwise and adds the same codes behind it, and so does a run, as long as the output
has no part in when it stops.

Main definitions:

* `LineMachine.Machine.writingTo` — a machine with another output in its place;
* `LineMachine.Machine.emissions` — **what a run emits**.

Main results:

* `LineMachine.Machine.step_writingTo` — a step with another output;
* `LineMachine.Machine.runUntil_writingTo` — **a run with another output**.
-/

import LineMachine.Proofs.EmittedOutput

set_option relaxedAutoImplicit false
set_option autoImplicit false

namespace LineMachine

/-! ### Another output -/

/-- A machine with another output in its place. -/
def Machine.writingTo (m : Machine) (out : Sink) : Machine := { m with output := out }

/-- What an operation comes to, with another output in its place. -/
def Outcome.writingTo (o : Outcome) (out : Sink) : Outcome :=
  match o with
  | next m => next (m.writingTo out)
  | halt f m => halt f (m.writingTo out)

/-- A run with another output in its place. -/
def Run.writingTo (r : Run) (out : Sink) : Run := { r with machine := r.machine.writingTo out }

namespace Machine

variable {stop : Machine → Bool}

/-! ### One step -/

theorem perform_writingTo (m : Machine) (a : Action) (out : Sink) :
    (m.writingTo out).perform a =
      (m.perform a).writingTo (out.putAll (actionCodes a m.data.topFirst)) := by
  obtain ⟨⟨cells⟩, ret, memory, ip, file, input, output⟩ := m
  cases a with
  | operator o =>
      rcases cells with _ | ⟨right, _ | ⟨left, rest⟩⟩
      · rfl
      · rfl
      · simp only [perform, writingTo]
        cases o.apply left right with
        | some c => rfl
        | none => rfl
  | swap => rcases cells with _ | ⟨right, _ | ⟨left, rest⟩⟩ <;> rfl
  | not | dup | drop | exit => cases cells <;> rfl
  | loop =>
      cases cells with
      | nil => rfl
      | cons c rest =>
          by_cases hc : c = 0
          · simp only [perform, writingTo, if_pos hc]
            rfl
          · simp only [perform, writingTo, if_neg hc]
            rfl
  | emit =>
      cases cells with
      | nil => rfl
      | cons c rest =>
          simp only [perform, writingTo, emitted_eq]
          rfl
  | read => cases input <;> rfl

theorem dispatch_writingTo (m : Machine) (opcode : Int) (out : Sink) :
    (m.writingTo out).dispatch opcode =
      (m.dispatch opcode).writingTo (out.putAll (dispatchCodes opcode m.data.topFirst)) := by
  have hdata : (m.writingTo out).data = m.data := rfl
  unfold dispatch dispatchCodes
  rw [hdata]
  match resolve opcode m.data.topFirst with
  | none | some (.nothing, _) | some (.call _, _) => rfl
  | some (.act a, rest) => exact perform_writingTo { m with data := ⟨rest⟩ } a out

theorem comeBack_writingTo (m : Machine) (out : Sink) :
    (m.writingTo out).comeBack = m.comeBack.writingTo out := by
  obtain ⟨data, ⟨cells⟩, memory, ip, file, input, output⟩ := m
  match cells with
  | [] | [_] | _ :: _ :: _ => rfl

/-- **A step with another output** adds to it what it emits, and does the same otherwise. -/
theorem step_writingTo (m : Machine) (out : Sink) :
    (m.writingTo out).step = m.step.writingTo (out.putAll m.emission) := by
  obtain ⟨⟨cells⟩, ret, memory, ip, file, input, output⟩ := m
  unfold step emission
  simp only [writingTo]
  cases memory.fetch ip with
  | outside | missing => rfl
  | lineEnd => exact comeBack_writingTo ⟨⟨cells⟩, ret, memory, ip, file, input, output⟩ out
  | cell c =>
      simp only [execute, pop?, advance]
      cases cells with
      | nil =>
          by_cases hc : c.toInt = callCell
          · simp only [if_pos hc]
            rfl
          · simp only [if_neg hc]
            rfl
      | cons opcode rest =>
          by_cases hc : c.toInt = callCell
          · simp only [if_pos hc]
            exact dispatch_writingTo ⟨⟨rest⟩, ret, memory, _, file, input, output⟩ opcode.toInt out
          · simp only [if_neg hc]
            rfl

/-! ### Runs -/

/-- **What a run emits**, in order. -/
def emissions (stop : Machine → Bool) : Nat → Machine → List UInt8
  | 0, _ => []
  | limit + 1, m =>
      if stop m then []
      else
        m.emission ++
          match m.step with
          | .next m' => emissions stop limit m'
          | .halt _ _ => []

theorem runFrom_writingTo (hstop : ∀ m out, stop (m.writingTo out) = stop m) (limit done : Nat)
    (m : Machine) (out : Sink) :
    runFrom stop limit done (m.writingTo out) =
      (runFrom stop limit done m).writingTo (out.putAll (emissions stop limit m)) := by
  induction limit generalizing done m out with
  | zero =>
      unfold runFrom
      rw [hstop]
      split
      · rfl
      · rfl
  | succ limit ih =>
      unfold runFrom emissions
      rw [hstop]
      split
      · rfl
      · rw [step_writingTo]
        cases m.step with
        | next m' =>
            rw [Sink.putAll_append]
            exact ih (done + 1) m' (out.putAll m.emission)
        | halt f m' =>
            rw [List.append_nil]
            rfl

/-- **A run with another output** adds to it what it emits, and does the same otherwise. -/
theorem runUntil_writingTo (hstop : ∀ m out, stop (m.writingTo out) = stop m) (limit : Nat)
    (m : Machine) (out : Sink) :
    (m.writingTo out).runUntil stop limit =
      (m.runUntil stop limit).writingTo (out.putAll (emissions stop limit m)) :=
  runFrom_writingTo hstop limit 0 m out

end Machine

end LineMachine
