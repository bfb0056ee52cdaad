/-
**Reports: the lines that are printed of a test run.**

A report prints one line of a result that has passed and two of one that has failed, in order, and
a last line with both counts.  Each of them is one line of the text that is printed, unless a name
or a reason has a line feed in it.

Main definitions:

* `LineMachine.OneLine` — a text without a line feed.

Main results:

* `LineMachine.Report.countP_add_countP` — the two counts add up;
* `LineMachine.Report.pieces_text` — **the lines of a report**.
-/

import LineMachine.Case.Report
import LineMachine.Source.Line
import Mathlib.Data.String.Lemmas

set_option relaxedAutoImplicit false
set_option autoImplicit false

namespace LineMachine

/-! ### Texts without a line feed -/

/-- A text without a line feed. -/
def OneLine (s : String) : Prop := '\n' ∉ s.toList

instance (s : String) : Decidable (OneLine s) := inferInstanceAs (Decidable (_ ∉ _))

namespace OneLine

theorem append_iff {s t : String} : OneLine (s ++ t) ↔ OneLine s ∧ OneLine t := by
  unfold OneLine
  rw [String.toList_append, List.mem_append, not_or]

theorem toString_nat (n : Nat) : OneLine (toString n) := by
  intro h
  have hdigits : '\n' ∈ Nat.toDigits 10 n := by simpa [toString, Nat.repr] using h
  have hdigit := Nat.isDigit_of_mem_toDigits (by decide) (by decide) hdigits
  exact absurd hdigit (by decide)

theorem toString_int (v : Int) : OneLine (toString v) := by
  cases v with
  | ofNat n => exact toString_nat n
  | negSucc n => exact append_iff.2 ⟨(by decide : OneLine "-"), toString_nat (n + 1)⟩

theorem intercalate {sep : String} {texts : List String} (hsep : OneLine sep)
    (h : ∀ t ∈ texts, OneLine t) : OneLine (sep.intercalate texts) := by
  unfold OneLine
  rw [String.toList_intercalate]
  induction texts with
  | nil => simp
  | cons t texts ih =>
      rw [List.forall_mem_cons] at h
      cases texts with
      | nil =>
          rw [List.map_cons, List.map_nil, List.intercalate_singleton]
          exact h.1
      | cons t' texts =>
          rw [List.map_cons, List.map_cons, List.intercalate_cons_cons, List.mem_append,
            List.mem_append]
          rintro ((hfeed | hfeed) | hfeed)
          · exact h.1 hfeed
          · exact hsep hfeed
          · exact ih h.2 hfeed

theorem bracketed (vs : List Int) : OneLine (Text.bracketed vs) := by
  have hnumbers : ∀ t ∈ vs.map toString, OneLine t := by
    intro t ht
    obtain ⟨v, -, rfl⟩ := List.mem_map.1 ht
    exact toString_int v
  unfold Text.bracketed
  rw [append_iff, append_iff]
  exact ⟨⟨by decide, intercalate (by decide) hnumbers⟩, by decide⟩

end OneLine

/-- **The pieces of a text of lines**, each ended by a line feed, are those lines. -/
theorem Source.pieces_join {lines : List String} (h : ∀ line ∈ lines, OneLine line) :
    pieces (String.join (lines.map (· ++ "\n"))).toList = lines.map String.toList := by
  rw [String.toList_join, List.flatMap_map]
  induction lines with
  | nil => rfl
  | cons line lines ih =>
      rw [List.forall_mem_cons] at h
      rw [List.flatMap_cons, String.toList_append, List.append_assoc]
      exact (pieces_line_append h.1 _).trans (congrArg _ (ih h.2))

/-! ### The lines of a report -/

namespace Report

variable {es : List Entry}

/-- A summary takes one line. -/
theorem oneLine_summary (passed failed : Nat) : OneLine (summary passed failed) := by
  unfold summary
  simp only [OneLine.append_iff]
  exact ⟨⟨⟨.toString_nat passed, by decide⟩, .toString_nat failed⟩, by decide⟩

theorem oneLine_of_mem_lines {e : Entry} (hname : OneLine e.name) (hreason : OneLine e.reason)
    {line : String} (h : line ∈ e.lines) : OneLine line := by
  unfold Entry.lines at h
  split at h
  · rw [List.mem_singleton.1 h]
    simp only [OneLine.append_iff]
    exact ⟨⟨⟨⟨by decide, hname⟩, by decide⟩, .toString_int e.steps⟩, by decide⟩
  · rcases List.mem_cons.1 h with rfl | h
    · simp only [OneLine.append_iff]
      exact ⟨⟨⟨by decide, hname⟩, by decide⟩, hreason⟩
    · rw [List.mem_singleton.1 h]
      simp only [OneLine.append_iff]
      exact ⟨by decide, .bracketed e.values⟩

/-- Every entry has passed or failed. -/
theorem countP_add_countP (es : List Entry) :
    es.countP (·.passed) + es.countP (!·.passed) = es.length := by
  rw [List.length_eq_countP_add_countP (·.passed)]
  simp

theorem allPassed_iff_forall {rs : List CaseResult} :
    allPassed rs = true ↔ ∀ r ∈ rs, r.passed = true := List.all_eq_true

/-- Of an entry that has passed one line is printed, and two of any other. -/
theorem length_lines (e : Entry) : e.lines.length = if e.passed then 1 else 2 := by
  unfold Entry.lines
  split
  · rfl
  · rfl

/-- **The lines of a report** are those of its entries, in order, and the summary. -/
theorem pieces_text (h : ∀ e ∈ es, OneLine e.name ∧ OneLine e.reason) :
    Source.pieces (text es).toList = (linesOf es).map String.toList := by
  refine Source.pieces_join fun line hline => ?_
  rcases List.mem_append.1 hline with hline | hline
  · obtain ⟨e, he, hline⟩ := List.mem_flatMap.1 hline
    exact oneLine_of_mem_lines (h e he).1 (h e he).2 hline
  · rw [List.mem_singleton.1 hline]
    exact oneLine_summary _ _

end Report

end LineMachine
