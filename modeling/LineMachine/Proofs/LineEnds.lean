/-
**Line ends: line feeds with and without a carriage return.**

A text can be written with line feeds or with carriage returns and line feeds.  Where the one has a
line, the other has the same line, or the same line with a carriage return behind it: that is so if
the line ends in carriage returns already, since one of them is taken for a part of the line end.
A carriage return at the end of a line is a blank and a separator, so it has no part in what is
written on the line; a message that quotes the rest of the line may quote it.  In a case file line
ends are dropped from the lines, and so are these.

Main definitions:

* `LineMachine.Source.withReturns` — **a text with a carriage return before each line feed**;
* `LineMachine.Listing.Alike` — results that differ in a carriage return that is quoted, if at all.

Main results:

* `LineMachine.Source.lines_withReturns`, `LineMachine.Source.lines_withReturns_of_not_mem` — the
  lines of such a text;
* `LineMachine.Listing.alike_readLine`, `LineMachine.Listing.alike_mapM` — what is read off a line,
  and off several;
* `LineMachine.Case.ofLines_withReturns` — the cases of such a text;
* `LineMachine.ofText_withReturns` — **line ends do not matter**.
-/

import LineMachine.Proofs.CaseLayout
import LineMachine.Proofs.FirstFault

set_option relaxedAutoImplicit false
set_option autoImplicit false

namespace LineMachine

/-! ### Lines -/

namespace Source

variable {text line read : List Char}

/-- **The text with a carriage return before each line feed.** -/
def withReturns (text : List Char) : List Char :=
  text.flatMap fun c => if c = '\n' then ['\r', '\n'] else [c]

theorem withReturns_cons_feed (text : List Char) :
    withReturns ('\n' :: text) = '\r' :: '\n' :: withReturns text := rfl

theorem withReturns_cons {c : Char} (hc : c ≠ '\n') (text : List Char) :
    withReturns (c :: text) = c :: withReturns text := by
  simp [withReturns, hc]

/-- A character in front of a piece does not change how the piece ends. -/
theorem forall₂_addToPieces {c : Char} (hc : c ≠ '\n') {ps rs : List (List Char)}
    (h : List.Forall₂ ReadsAs ps rs) :
    List.Forall₂ ReadsAs (addToPieces c ps) (addToPieces c rs) := by
  simp only [addToPieces, if_neg hc]
  cases h with
  | nil => exact .cons (.inl rfl) .nil
  | cons hpiece hrest =>
      refine .cons ?_ hrest
      rcases hpiece with rfl | rfl
      · exact .inl rfl
      · exact .inr rfl

/-- **The pieces of such a text** are those of the text, or end in a carriage return more. -/
theorem pieces_withReturns (text : List Char) :
    List.Forall₂ ReadsAs (pieces (withReturns text)) (pieces text) := by
  induction text with
  | nil => exact .nil
  | cons c text ih =>
      by_cases hc : c = '\n'
      · subst hc
        rw [withReturns_cons_feed]
        exact .cons (.inr rfl) ih
      · rw [withReturns_cons hc]
        exact forall₂_addToPieces hc ih

theorem ReadsAs.dropReturn (h : ReadsAs line read) :
    ReadsAs (dropReturn line) (dropReturn read) := by
  rcases h with rfl | rfl
  · exact .inl rfl
  · rw [dropReturn_append_return]
    exact readsAs_dropReturn read

/-- **The lines of such a text** are those of the text, or end in a carriage return more. -/
theorem lines_withReturns (text : List Char) :
    List.Forall₂ ReadsAs (lines (withReturns text)) (lines text) := by
  unfold lines
  rw [List.forall₂_map_left_iff, List.forall₂_map_right_iff]
  exact (pieces_withReturns text).imp fun _ _ => ReadsAs.dropReturn

/-- A carriage return more is taken for a part of the line end, unless there was one. -/
theorem map_dropReturn_eq {ps rs : List (List Char)} (h : List.Forall₂ ReadsAs ps rs)
    (hrs : ∀ piece ∈ rs, '\r' ∉ piece) : ps.map Source.dropReturn = rs.map Source.dropReturn := by
  induction h with
  | nil => rfl
  | @cons p r ps rs hpiece _ ih =>
      obtain ⟨hr, hrs⟩ := List.forall_mem_cons.1 hrs
      rw [List.map_cons, List.map_cons, ih hrs]
      rcases hpiece with rfl | rfl
      · rfl
      · have hlast : r.getLast? ≠ some '\r' := fun h => hr (List.mem_of_getLast? h)
        rw [dropReturn_append_return, Source.dropReturn, if_neg hlast]

/-- **Where no carriage return is in the text**, the lines are the same. -/
theorem lines_withReturns_of_not_mem (h : '\r' ∉ text) :
    lines (withReturns text) = lines text := by
  refine map_dropReturn_eq (pieces_withReturns text) fun piece hpiece hmem => h ?_
  obtain ⟨i, hi⟩ := List.getElem?_of_mem hpiece
  obtain ⟨front, rest, rfl, -⟩ := pieceAt_of_getElem? hi
  simp [hmem]

end Source

/-! ### What is read off the lines -/

namespace Listing

open Source (ReadsAs)

variable {α β γ : Type} {file : String} {number : Int} {line read : List Char}

/-- **Results that are alike**: they are the same, or both refuse the same line, and the one message
quotes a carriage return more than the other. -/
def Alike (r' r : Except Fault α) : Prop :=
  r' = r ∨ ∃ file number quote, r = .error (.notANumber file number quote) ∧
    r' = .error (.notANumber file number (quote ++ "\r"))

theorem Alike.map {r' r : Except Fault α} (h : Alike r' r) (f : α → β) :
    Alike (r'.map f) (r.map f) := by
  rcases h with rfl | ⟨file, number, quote, rfl, rfl⟩
  · exact .inl rfl
  · exact .inr ⟨file, number, quote, rfl, rfl⟩

/-- **Lists that are read alike entry by entry** are read alike. -/
theorem alike_mapM {f : α → Except Fault γ} {g : β → Except Fault γ} {l : List α} {r : List β}
    (h : List.Forall₂ (fun a b => Alike (f a) (g b)) l r) : Alike (l.mapM f) (r.mapM g) := by
  induction h with
  | nil => exact .inl rfl
  | @cons a b l r hab _ ih =>
      rcases hab with heq | ⟨file, number, quote, hb, ha⟩
      · cases hb : g b with
        | error e =>
            rw [mapM_cons_of_error hb, mapM_cons_of_error (heq.trans hb)]
            exact .inl rfl
        | ok c =>
            rw [mapM_cons_of_ok hb, mapM_cons_of_ok (heq.trans hb)]
            exact ih.map _
      · rw [mapM_cons_of_error hb, mapM_cons_of_error ha]
        exact .inr ⟨file, number, quote, rfl, rfl⟩

/-- Of a line that ends in a carriage return more, the message may quote it. -/
theorem excerpt_append_return (line : List Char) (position : Nat) :
    excerpt (line ++ ['\r']) position = excerpt line position ∨
      excerpt (line ++ ['\r']) position = excerpt line position ++ "\r" := by
  unfold excerpt
  by_cases hposition : position ≤ line.length
  · rw [List.drop_append_of_le_length hposition]
    by_cases hlong : 10 ≤ (line.drop position).length
    · rw [List.take_append_of_le_length hlong]
      exact .inl rfl
    · -- the rest of the line is quoted as a whole
      have hshort : (line.drop position ++ ['\r']).length ≤ 10 := by
        rw [List.length_append, List.length_singleton]
        omega
      rw [List.take_of_length_le hshort, List.take_of_length_le (by omega), String.ofList_append]
      exact .inr rfl
  · have hbehind : (line ++ ['\r']).length ≤ position := by
      rw [List.length_append, List.length_singleton]
      omega
    rw [List.drop_eq_nil_of_le hbehind, List.drop_eq_nil_of_le (by omega)]
    exact .inl rfl

theorem alike_notANumber (file : String) (number : Int) (line : List Char) (position : Nat) :
    Alike (.error (.notANumber file number (excerpt (line ++ ['\r']) position)) : Except Fault α)
      (.error (.notANumber file number (excerpt line position))) := by
  rcases excerpt_append_return line position with h | h
  · rw [h]
    exact .inl rfl
  · rw [h]
    exact .inr ⟨file, number, excerpt line position, rfl, rfl⟩

/-- **What is read off a line** that ends in a carriage return more is alike. -/
theorem alike_readLine (h : ReadsAs line read) :
    Alike (readLine file number line) (readLine file number read) := by
  rcases h with rfl | rfl
  · exact .inl rfl
  · have hscan : Source.scan (read ++ ['\r']) = Source.scan read := by
      unfold Source.scan
      rw [Source.words_append_separator read (by decide)]
    cases hread : Source.scan read with
    | error position =>
        rw [readLine_of_scan_eq_error hread, readLine_of_scan_eq_error (hscan.trans hread)]
        exact alike_notANumber file number read position
    | ok ws =>
        rw [readLine_of_scan_eq_ok hread, readLine_of_scan_eq_ok (hscan.trans hread)]
        refine alike_mapM (List.forall₂_same.2 fun w _ => ?_)
        unfold readWord
        cases Numeral.value w.text with
        | error digits => exact .inl rfl
        | ok v =>
            dsimp only
            split
            · exact .inl rfl
            · exact alike_notANumber file number read w.start

/-- **What is read off a source text** with carriage returns is alike. -/
theorem alike_ofText (file : String) (text : List Char) :
    Alike (ofText file (Source.withReturns text)) (ofText file text) := by
  have hnumbered := Source.numbered_readsAs (Source.lines_withReturns text)
  have hlines := List.rel_filter (p := isProgramLine) (q := isProgramLine)
    (fun entry' entry h => by
      simp only [isProgramLine, h.1.isComment_eq, h.2]) hnumbered
  rw [ofText_eq, ofText_eq]
  refine alike_mapM (hlines.imp fun entry' entry h => ?_)
  obtain ⟨hread, hnumber⟩ := h
  rw [readRow, readRow, hnumber]
  exact (alike_readLine hread).map _

end Listing

/-! ### Cases -/

namespace Case

open Source (ReadsAs)

/-- A carriage return more at the end of lines makes no difference to the cases after them. -/
theorem read_of_readsAs {file : String} {entries' entries : List (List Char × Nat)}
    (h : List.Forall₂ (fun entry' entry => ReadsAs entry'.1 entry.1 ∧ entry'.2 = entry.2)
      entries' entries) (cases : List Case) :
    read file cases entries' = read file cases entries := by
  unfold read
  induction h generalizing cases with
  | nil => rfl
  | cons hentry _ ih =>
      obtain ⟨hline, hnumber⟩ := hentry
      rw [List.foldlM_cons, List.foldlM_cons, hnumber, readLine_of_readsAs hline]
      exact bind_congr ih

/-- **The cases of a text** with carriage returns are the same, and so is what is wrong with it. -/
theorem ofLines_withReturns (file : String) (text : List Char) :
    ofLines file (Source.lines (Source.withReturns text)) = ofLines file (Source.lines text) := by
  have hnumbered := Source.numbered_readsAs (Source.lines_withReturns text)
  rw [ofLines, ofLines, read_of_readsAs hnumbered]

end Case

/-! ### Line ends -/

/-- **Line ends do not matter.**  With a carriage return before each line feed, a source text
without too long a row of digits is read as the same listing, or refused for the same line; the
message may quote a carriage return more, if there was one in the text before.  A case file gives
the same cases or the same fault. -/
theorem ofText_withReturns (file : String) (text : List Char) :
    ((∀ i line, Listing.ProgramLine text i line → Source.ShortRuns line) →
      (∀ listing, Listing.ofText file (Source.withReturns text) = .ok listing ↔
        Listing.ofText file text = .ok listing) ∧
      ∀ f, Listing.ofText file text = .error f → ∃ number quote quote',
        f = .notANumber file number quote ∧
        Listing.ofText file (Source.withReturns text) = .error (.notANumber file number quote') ∧
        (quote' = quote ∨ quote' = quote ++ "\r") ∧ ('\r' ∉ text → quote' = quote)) ∧
    Case.ofLines file (Source.lines (Source.withReturns text)) =
      Case.ofLines file (Source.lines text) := by
  refine ⟨fun hruns => ?_, Case.ofLines_withReturns file text⟩
  have hsame : '\r' ∉ text →
      Listing.ofText file (Source.withReturns text) = Listing.ofText file text := by
    intro h
    unfold Listing.ofText
    rw [Source.lines_withReturns_of_not_mem h]
  rcases Listing.alike_ofText file text with heq | ⟨file', number', quote', htext, hreturns⟩
  · rw [heq]
    refine ⟨fun listing => Iff.rfl, fun f hf => ?_⟩
    obtain ⟨i, line, position, -, rfl⟩ := (Listing.ofText_eq_error_iff hruns).1 hf
    exact ⟨i, _, _, rfl, hf, .inl rfl, fun _ => rfl⟩
  · rw [htext, hreturns]
    refine ⟨fun listing => by simp, fun f hf => ?_⟩
    cases hf
    obtain ⟨i, line, position, -, hf⟩ := (Listing.ofText_eq_error_iff hruns).1 htext
    cases hf
    refine ⟨i, _, _, rfl, rfl, .inr rfl, fun h => ?_⟩
    have hquotes := (hreturns.symm.trans (hsame h)).trans htext
    simp at hquotes

/-- Of a text that holds a carriage return already, one more is quoted. -/
theorem ofText_withReturns_quotes_return :
    let text := List.replicate 20 '\n' ++ "1 2\r\r\n3 x\r\n4".toList
    Listing.ofText "p" text = .error (.notANumber "p" 22 "x") ∧
    (∃ quote, Listing.ofText "p" (Source.withReturns text) = .error (.notANumber "p" 22 quote) ∧
      (quote = "x" ∨ quote = "x\r")) ∧
    Case.ofLines "c" (Source.lines (Source.withReturns "= sum\n^ 1 2\r\n\nv 3".toList)) =
      .ok [⟨"sum", none, [1, 2], [3]⟩] := by
  intro text
  have hread : Listing.ofText "p" text = .error (.notANumber "p" 22 "x") := by decide +kernel
  have hlines : Listing.programLines text =
      [("1 2\r".toList, 21), ("3 x".toList, 22), ("4".toList, 23)] := by decide +kernel
  have hruns : ∀ i line, Listing.ProgramLine text i line → Source.ShortRuns line := by
    intro i line hline
    have hshort : ∀ entry ∈ Listing.programLines text, entry.1.length ≤ Numeral.maxDigits := by
      rw [hlines]
      decide
    exact Source.ShortRuns.of_length_le (hshort _ (Listing.mem_programLines_iff.2 hline))
  obtain ⟨-, hrefuses⟩ := (ofText_withReturns "p" text).1 hruns
  obtain ⟨number, quote, quote', hf, hreturns, hquotes, -⟩ := hrefuses _ hread
  cases hf
  refine ⟨hread, ⟨quote', hreturns, hquotes⟩, ?_⟩
  rw [(ofText_withReturns "c" "= sum\n^ 1 2\r\n\nv 3".toList).2]
  decide +kernel

end LineMachine
