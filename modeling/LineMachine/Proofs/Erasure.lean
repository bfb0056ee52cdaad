/-
**Erasure: what a run comes to without its journal.**

The machine logs next to the changes of its state.  A computation that only logs comes to one value,
whatever has been written before, and writes records of the same events behind it.  That holds of a
step, layer by layer, then of a run, by induction on its steps, and of several cases, by induction
on them.  So each of them comes to the plain step, the plain run and the plain results.

Main definitions:

* `LineMachine.Logging.Observes` — **a computation that only logs**, and its value;
* `LineMachine.Journal.silent` — a journal without its log;
* `LineMachine.Logging.Indifferent` — a computation that does not depend on its log.

Main results:

* `LineMachine.Logging.Observes.bind`, `LineMachine.Logging.Indifferent.bind` — both compose;
* `LineMachine.Logging.Observes.indifferent` — what only logs does not depend on its log;
* `LineMachine.Machine.observes_stepTraced` — **a step with its log comes to the plain step**;
* `LineMachine.Machine.observes_runFromTraced` — **a run with its log comes to the plain run**;
* `LineMachine.Suite.observes_runAllTraced` — cases with their log come to the plain results.
-/

import LineMachine.Case.Verdict
import LineMachine.Files

set_option relaxedAutoImplicit false
set_option autoImplicit false

namespace LineMachine

/-! ### Journals -/

namespace Journal

/-- Logs several events in order. -/
def logAll (j : Journal) (es : List Event) : Journal := es.foldl log j

theorem logAll_append (j : Journal) (es es' : List Event) :
    j.logAll (es ++ es') = (j.logAll es).logAll es' := List.foldl_append

/-- **A journal without its log**, which takes no records. -/
def silent (j : Journal) : Journal := ⟨.warning, j.notices.filter fun n => !n.isRecord⟩

theorem silent_log (j : Journal) (e : Event) : (j.log e).silent = j.silent := by
  unfold log
  split
  · rfl
  · simp [silent, Notice.isRecord]

theorem silent_logAll (j : Journal) (es : List Event) : (j.logAll es).silent = j.silent := by
  induction es generalizing j with
  | nil => rfl
  | cons e es ih => exact (ih (j.log e)).trans (j.silent_log e)

theorem logAll_silent (j : Journal) (es : List Event) : j.silent.logAll es = j.silent := by
  induction es with
  | nil => rfl
  | cons e es ih =>
      have hlog : j.silent.log e = j.silent := log_of_warning rfl e
      rw [logAll, List.foldl_cons, hlog]
      exact ih

theorem silent_say (j : Journal) (text : String) :
    (j.say text).silent = j.silent.say text := by
  simp [silent, say, Notice.isRecord]

/-- The journal of a session that is not traced is that of one that is, without its log. -/
theorem fresh_false : fresh false = (fresh true).silent := rfl

end Journal

/-! ### Computations that only log -/

namespace Logging

variable {α β : Type} {x : Logging α} {f : α → Logging β} {a : α} {b : β}

/-- **A computation that only logs**: whatever has been written before, it comes to one value, and
logs the same events. -/
def Observes (x : Logging α) (a : α) : Prop := ∃ es, ∀ j, x.run j = (a, j.logAll es)

theorem Observes.pure (a : α) : Observes (pure a) a := ⟨[], fun _ => rfl⟩

theorem Observes.log (e : Event) : Observes (log e) () := ⟨[e], fun _ => rfl⟩

/-- Two computations in a row log what the one logs and then what the other logs. -/
theorem Observes.bind (hx : x.Observes a) (hf : (f a).Observes b) : (x >>= f).Observes b := by
  obtain ⟨es, hx⟩ := hx
  obtain ⟨es', hf⟩ := hf
  refine ⟨es ++ es', fun j => ?_⟩
  calc (x >>= f).run j = (f (x.run j).1).run (x.run j).2 := rfl
    _ = (f a).run (j.logAll es) := by rw [hx]
    _ = (b, j.logAll (es ++ es')) := by rw [hf, Journal.logAll_append]

/-- What follows a computation that only logs matters for its value alone. -/
theorem Observes.bind_congr {g : α → Logging β} (hx : x.Observes a) (h : f a = g a) :
    x >>= f = x >>= g := by
  obtain ⟨es, hx⟩ := hx
  funext j
  calc (x >>= f).run j = (f (x.run j).1).run (x.run j).2 := rfl
    _ = (g (x.run j).1).run (x.run j).2 := by rw [hx, h]
    _ = (x >>= g).run j := rfl

/-- An event is logged, and then something is computed. -/
theorem Observes.log_bind {y : Logging α} (e : Event) (hy : y.Observes a) :
    (do Logging.log e; y).Observes a := (Observes.log e).bind hy

theorem Observes.fst_run (hx : x.Observes a) (j : Journal) : (x.run j).1 = a := by
  obtain ⟨es, hx⟩ := hx
  rw [hx]

/-- A computation that only logs goes on with its value. -/
theorem Observes.exists_run_bind (hx : x.Observes a) (f : α → Logging β) (j : Journal) :
    ∃ j', (x >>= f).run j = (f a).run j' := by
  obtain ⟨es, hx⟩ := hx
  refine ⟨j.logAll es, ?_⟩
  calc (x >>= f).run j = (f (x.run j).1).run (x.run j).2 := rfl
    _ = (f a).run (j.logAll es) := by rw [hx]

/-! ### Computations that do not depend on their log -/

/-- **A computation that does not depend on its log**: on a journal that takes no records it comes
to the same, and writes the same but for the records. -/
def Indifferent (x : Logging α) : Prop :=
  ∀ j : Journal, x.run j.silent = ((x.run j).1, (x.run j).2.silent)

/-- **What only logs does not depend on its log.** -/
theorem Observes.indifferent (hx : x.Observes a) : x.Indifferent := by
  obtain ⟨es, hx⟩ := hx
  intro j
  rw [hx, hx, Journal.logAll_silent, Journal.silent_logAll]

theorem Indifferent.pure (a : α) : Indifferent (pure a) := (Observes.pure a).indifferent

theorem Indifferent.say (text : String) : Indifferent (say text) := fun j =>
  congrArg (Prod.mk ()) (j.silent_say text).symm

theorem Indifferent.bind (hx : x.Indifferent) (hf : ∀ a, (f a).Indifferent) :
    (x >>= f).Indifferent := by
  intro j
  calc (x >>= f).run j.silent = (f (x.run j.silent).1).run (x.run j.silent).2 := rfl
    _ = (f (x.run j).1).run (x.run j).2.silent := by rw [hx j]
    _ = (((x >>= f).run j).1, ((x >>= f).run j).2.silent) := hf _ _

end Logging

/-! ### Steps and runs -/

namespace Machine

open Logging

theorem observes_performTraced (m : Machine) (a : Action) :
    (m.performTraced a).Observes (m.perform a) := by
  unfold performTraced
  split
  case h_1 status rest hdata =>
    have hperform : m.perform .exit = .halt (.exit status) { m with data := ⟨rest⟩ } := by
      simp only [perform, hdata]
    rw [hperform]
    exact .log_bind _ (.pure _)
  case h_2 => exact .pure _

theorem observes_callTraced (m : Machine) (line : Int) :
    (m.callTraced line).Observes (m.call line) := .log_bind _ (.pure _)

theorem observes_dispatchTraced (m : Machine) (opcode : Int) :
    (m.dispatchTraced opcode).Observes (m.dispatch opcode) := by
  unfold dispatchTraced dispatch
  cases resolve opcode m.data.topFirst with
  | none => exact .pure _
  | some found =>
      obtain ⟨leaf, rest⟩ := found
      cases leaf with
      | nothing => exact .pure _
      | act a => exact observes_performTraced _ a
      | call line => exact (observes_callTraced _ line).bind (.pure _)

theorem observes_executeTraced (m : Machine) (v : Int) :
    (m.executeTraced v).Observes (m.execute v) := by
  unfold executeTraced execute
  split
  · cases m.pop? with
    | none => exact .pure _
    | some popped => exact observes_dispatchTraced popped.2 _
  · exact .pure _

theorem observes_comeBackTraced (m : Machine) : m.comeBackTraced.Observes m.comeBack := by
  unfold comeBackTraced
  cases m.comeBack with
  | halt f m' => exact .pure _
  | next m' => exact .log_bind _ (.pure _)

/-- **A step with its log comes to the plain step.** -/
theorem observes_stepTraced (m : Machine) : m.stepTraced.Observes m.step := by
  unfold stepTraced step
  cases m.memory.fetch m.ip with
  | outside => exact .log_bind _ (.pure _)
  | cell c => exact observes_executeTraced m.advance c.toInt
  | lineEnd => exact observes_comeBackTraced m
  | missing => exact .pure _

/-- **A run with its log comes to the plain run**, by induction on the steps that are left. -/
theorem observes_runFromTraced (stop : Machine → Bool) (limit done : Nat) (m : Machine) :
    (runFromTraced stop limit done m).Observes (runFrom stop limit done m) := by
  induction limit generalizing done m with
  | zero =>
      unfold runFromTraced runFrom
      split
      · exact .pure _
      · exact .pure _
  | succ limit ih =>
      unfold runFromTraced runFrom
      split
      · exact .pure _
      · refine (observes_stepTraced m).bind ?_
        cases m.step with
        | next m' => exact ih (done + 1) m'
        | halt f m' => exact .pure _

theorem observes_runUntilTraced (stop : Machine → Bool) (limit : Nat) (m : Machine) :
    (m.runUntilTraced stop limit).Observes (m.runUntil stop limit) :=
  observes_runFromTraced stop limit 0 m

/-- Loading a file logs it if it is loaded. -/
theorem observes_loadFileTraced (m : Machine) (files : Files) (path : String) :
    (m.loadFileTraced files path).Observes (m.loadFile files path) := by
  unfold loadFileTraced
  cases m.loadFile files path with
  | error f => exact .pure _
  | ok loaded => exact .log_bind _ (.pure _)

end Machine

/-! ### Cases -/

namespace Suite

open Logging

theorem observes_trialTraced (s : Suite) (c : Case) (io : Streams) :
    (s.trialTraced c io).Observes (s.trial c io) :=
  Machine.observes_runUntilTraced _ _ _

/-- **Cases with their log come to the plain results**, by induction on the cases that are left. -/
theorem observes_runAllTraced (s : Suite) (cs : List Case) (io : Streams) :
    (s.runAllTraced cs io).Observes (s.runAll cs io) := by
  induction cs generalizing io with
  | nil => exact .pure _
  | cons c cs ih =>
      unfold runAllTraced runAll
      refine (s.observes_trialTraced c io).bind ?_
      dsimp only
      cases CaseResult.ofRun c (s.trial c io) with
      | error e => exact .pure _
      | ok r =>
          refine .log_bind _ ((ih _).bind ?_)
          cases s.runAll cs ⟨(s.trial c io).machine.input, (s.trial c io).machine.output⟩ with
          | error e => exact .pure _
          | ok found => exact .pure _

end Suite

end LineMachine
