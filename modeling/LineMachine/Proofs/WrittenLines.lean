/-
**Written lines: lines with their ends, and lines without content.**

A text line ends in a line feed or in a carriage return and a line feed, and the last one need not
end at all.  The lines that are read off a text are those that were written, except that a carriage
return that a line itself ends in may be taken for a part of its end.  That changes neither what is
written on the line nor whether it has content.

Main definitions:

* `LineMachine.Source.WritesLines` — **a text that is put together from lines**;
* `LineMachine.Source.ReadsAs` — a line as it is written, and as it is read;
* `LineMachine.Source.Remark` — a line without content as it is written.

Main results:

* `LineMachine.Source.WritesLines.readsAs` — **the lines of a text that is put together**;
* `LineMachine.Source.isComment_iff` — lines without content are remarks;
* `LineMachine.Source.holds_append_gap`, `LineMachine.Source.isComment_append_blanks` — what stands
  at the end of a line;
* `LineMachine.Source.ReadsAs.holds_iff`, `LineMachine.Source.ReadsAs.isComment_eq` — what a lost
  carriage return changes.
-/

import LineMachine.Proofs.SpacedWords
import LineMachine.Source.Line

set_option relaxedAutoImplicit false
set_option autoImplicit false

namespace LineMachine

namespace Source

open Text (isBlank isSeparator)

/-! ### Lines and their ends -/

/-- **A text that is put together from lines.**  Each line ends in a line feed, with or without a
carriage return before it; the last one may end with the text. -/
inductive WritesLines : List Char → List (List Char) → Prop where
  | nil : WritesLines [] []
  | unended {line : List Char} (h : '\n' ∉ line) (hne : line ≠ []) : WritesLines line [line]
  | feed {line text : List Char} {ls : List (List Char)} (h : '\n' ∉ line)
      (ht : WritesLines text ls) : WritesLines (line ++ '\n' :: text) (line :: ls)
  | returnFeed {line text : List Char} {ls : List (List Char)} (h : '\n' ∉ line)
      (ht : WritesLines text ls) : WritesLines (line ++ '\r' :: '\n' :: text) (line :: ls)

theorem WritesLines.blankLines (n : Nat) {text : List Char} {ls : List (List Char)}
    (h : WritesLines text ls) :
    WritesLines (List.replicate n '\n' ++ text) (List.replicate n [] ++ ls) := by
  induction n with
  | zero => exact h
  | succ n ih => exact .feed List.not_mem_nil ih

/-- No line feed is in a line. -/
theorem WritesLines.not_mem {text : List Char} {ls : List (List Char)} (h : WritesLines text ls) :
    ∀ line ∈ ls, '\n' ∉ line := by
  induction h with
  | nil => simp
  | unended h _ => simpa using h
  | feed h _ ih | returnFeed h _ ih => exact List.forall_mem_cons.2 ⟨h, ih⟩

/-- A line as it is written, and as it is read: a carriage return at its end may be lost. -/
def ReadsAs (line read : List Char) : Prop := line = read ∨ line = read ++ ['\r']

theorem readsAs_dropReturn (line : List Char) : ReadsAs line (dropReturn line) := by
  unfold dropReturn
  split
  · rename_i hlast
    exact .inr (List.dropLast_append_getLast? '\r' hlast).symm
  · exact .inl rfl

theorem dropReturn_append_return (line : List Char) : dropReturn (line ++ ['\r']) = line := by
  simp [dropReturn]

theorem pieces_of_not_mem {line : List Char} (h : '\n' ∉ line) (hne : line ≠ []) :
    pieces line = [line] := by
  induction line with
  | nil => exact absurd rfl hne
  | cons c cs ih =>
      have hc : c ≠ '\n' := fun e => h (e ▸ List.mem_cons_self ..)
      have hcs : '\n' ∉ cs := fun e => h (List.mem_cons_of_mem _ e)
      cases cs with
      | nil => simp [addToPieces, hc]
      | cons d ds =>
          rw [pieces_cons, ih hcs (by simp)]
          simp [addToPieces, hc]

theorem lines_blankLines (n : Nat) (text : List Char) :
    lines (List.replicate n '\n' ++ text) = List.replicate n [] ++ lines text := by
  induction n with
  | zero => rfl
  | succ n ih =>
      have hcons (t : List Char) : lines ('\n' :: t) = [] :: lines t := rfl
      rw [List.replicate_succ, List.replicate_succ, List.cons_append, hcons, ih]
      rfl

/-- **The lines of a text that is put together** are the lines that were written. -/
theorem WritesLines.readsAs {text : List Char} {ls : List (List Char)} (h : WritesLines text ls) :
    List.Forall₂ ReadsAs ls (lines text) := by
  induction h with
  | nil => exact .nil
  | @unended line h hne =>
      rw [lines, pieces_of_not_mem h hne]
      exact .cons (readsAs_dropReturn line) .nil
  | @feed line text ls h _ ih =>
      rw [lines, pieces_line_append h, List.map_cons]
      exact .cons (readsAs_dropReturn line) ih
  | @returnFeed line text ls h _ ih =>
      have hreturn : '\n' ∉ line ++ ['\r'] := by simpa using h
      have hsplit : line ++ '\r' :: '\n' :: text = (line ++ ['\r']) ++ '\n' :: text := by simp
      rw [hsplit, lines, pieces_line_append hreturn, List.map_cons, dropReturn_append_return]
      exact .cons (.inl rfl) ih

/-- Lines are numbered as they are written. -/
theorem numbered_readsAs {ls rs : List (List Char)} (h : List.Forall₂ ReadsAs ls rs) :
    List.Forall₂ (fun entry entry' => ReadsAs entry.1 entry'.1 ∧ entry.2 = entry'.2)
      (numbered ls) (numbered rs) := by
  unfold numbered
  generalize 1 = n
  induction h generalizing n with
  | nil => exact .nil
  | cons hline _ ih => exact .cons ⟨hline, rfl⟩ (ih (n + 1))

/-- No two lines have one number. -/
theorem eq_of_mem_numbered {ls : List (List Char)} {entry entry' : List Char × Nat}
    (h : entry ∈ numbered ls) (h' : entry' ∈ numbered ls) (hnumber : entry.2 = entry'.2) :
    entry = entry' := by
  obtain ⟨line, n⟩ := entry
  obtain ⟨line', n'⟩ := entry'
  obtain rfl : n = n' := hnumber
  have hline := (List.mk_mem_zipIdx_iff_le_and_getElem?_sub.1 h).2
  have hline' := (List.mk_mem_zipIdx_iff_le_and_getElem?_sub.1 h').2
  rw [hline] at hline'
  cases hline'
  rfl

/-! ### Lines without content -/

/-- **A line without content as it is written**: blanks, and behind them nothing, or a number sign
and anything. -/
inductive Remark : List Char → Prop where
  | blank {g : List Char} (hg : ∀ c ∈ g, isBlank c) : Remark g
  | sign {g : List Char} (hg : ∀ c ∈ g, isBlank c) (rest : List Char) : Remark (g ++ '#' :: rest)

/-- What is behind the blanks at the beginning of a line decides whether it has content. -/
theorem isComment_append {g : List Char} (hg : ∀ c ∈ g, isBlank c) {c : Char}
    (hc : isBlank c = false) (rest : List Char) : isComment (g ++ c :: rest) = (c == '#') := by
  unfold isComment
  rw [List.dropWhile_append_of_pos hg, List.dropWhile_cons_of_neg (by simp [hc])]

/-- **The lines without content are the remarks.** -/
theorem isComment_iff {line : List Char} : isComment line ↔ Remark line := by
  constructor
  · intro h
    have hblank : ∀ c ∈ line.takeWhile isBlank, isBlank c :=
      List.all_eq_true.1 List.all_takeWhile
    have hsplit : line.takeWhile isBlank ++ line.dropWhile isBlank = line :=
      List.takeWhile_append_dropWhile
    unfold isComment at h
    cases hdrop : line.dropWhile isBlank with
    | nil =>
        rw [hdrop, List.append_nil] at hsplit
        rw [hsplit] at hblank
        exact .blank hblank
    | cons c rest =>
        rw [hdrop] at h hsplit
        obtain rfl : c = '#' := by simpa using h
        rw [← hsplit]
        exact .sign hblank rest
  · intro h
    cases h with
    | blank hg =>
        have hdrop : (line ++ []).dropWhile isBlank = [].dropWhile isBlank :=
          List.dropWhile_append_of_pos hg
        rw [List.append_nil] at hdrop
        unfold isComment
        rw [hdrop]
        rfl
    | sign hg rest =>
        rw [isComment_append hg (by decide)]
        rfl

/-- Where numbers are written, a line has content. -/
theorem Holds.isComment_eq_false {line : List Char} {vs : List Int} (h : Holds line vs)
    (hne : vs ≠ []) : isComment line = false := by
  obtain ⟨ws, hspaced, hwrites⟩ := h
  cases hspaced with
  | gap hg =>
      cases hwrites
      exact absurd rfl hne
  | @word g w rest ws hg hw hrest h =>
      cases hwrites with
      | cons hwrite _ =>
          obtain ⟨c, cs, rfl, hblank, hsign⟩ := Numeral.head_of_isNumeral hwrite.isNumeral
          rw [List.cons_append,
            isComment_append (fun c hc => Text.isBlank_of_isSeparator (hg c hc)) hblank]
          simpa using hsign

/-! ### What stands at the end of a line -/

/-- Blanks at the end of a line have no part in whether it has content. -/
theorem isComment_append_blanks (line : List Char) {g : List Char} (hg : ∀ c ∈ g, isBlank c) :
    isComment (line ++ g) = isComment line := by
  have hdrop : g.dropWhile isBlank = [] := by
    rw [← List.append_nil g, List.dropWhile_append_of_pos hg]
    rfl
  unfold isComment
  rw [List.dropWhile_append, hdrop]
  cases line.dropWhile isBlank with
  | nil => rfl
  | cons c cs => rfl

/-- Separators at the end of a line have no part in what is written on it. -/
theorem holds_append_gap (line : List Char) {g : List Char} (hg : IsGap g) {vs : List Int} :
    Holds (line ++ g) vs ↔ Holds line vs := by
  induction g using List.reverseRecOn with
  | nil => rw [List.append_nil]
  | append_singleton g c ih =>
      have hc : isSeparator c := hg c (by simp)
      have hrest : IsGap g := fun d hd => hg d (List.mem_append_left _ hd)
      rw [← ih hrest, ← List.append_assoc, holds_iff, holds_iff, words_append_separator _ hc]

/-! ### What a lost carriage return changes -/

namespace ReadsAs

variable {line read : List Char}

/-- The same numbers are written on it. -/
theorem holds_iff (h : ReadsAs line read) {vs : List Int} : Holds read vs ↔ Holds line vs := by
  rcases h with rfl | rfl
  · exact Iff.rfl
  · exact (holds_append_gap read (List.forall_mem_singleton.2 (by decide))).symm

/-- It has content just then. -/
theorem isComment_eq (h : ReadsAs line read) : isComment read = isComment line := by
  rcases h with rfl | rfl
  · rfl
  · exact (isComment_append_blanks read (List.forall_mem_singleton.2 (by decide))).symm

end ReadsAs

end Source

end LineMachine
