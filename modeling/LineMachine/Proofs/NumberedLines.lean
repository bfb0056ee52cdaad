/-
**Numbered lines: where the lines of a text stand.**

The line with a number is what stands between two line feeds, without the carriage return at its
end if there is one: the first of the line feeds is the last of so many, and the line may instead
begin or end with the text.  An empty piece behind the last line feed is no line.  Said like this,
a line has its number by its place in the text, and those are the numbers that
`LineMachine.Source.numbered` gives.

Main definitions:

* `LineMachine.Source.PieceAt`, `LineMachine.Source.LineAt` — **a line of a text with its number**,
  with and without the carriage return at its end.

Main results:

* `LineMachine.Source.pieces_append`, `LineMachine.Source.length_pieces` — the pieces of a text
  behind a line feed, and how many there are;
* `LineMachine.Source.mem_numbered_lines_iff` — **the lines of a text and their numbers**.
-/

import LineMachine.Proofs.WrittenLines

set_option relaxedAutoImplicit false
set_option autoImplicit false

namespace LineMachine

namespace Source

/-! ### Places in a text -/

/-- A text that is empty or ends with a line feed. -/
def EndsLine (front : List Char) : Prop := ∀ c ∈ front.getLast?, c = '\n'

/-- **A piece of a text with its number**: it stands behind one line feed less than its number, and
in front of the next one or at the end of the text.  At the end it is not empty. -/
def PieceAt (text : List Char) (number : Nat) (piece : List Char) : Prop :=
  ∃ front rest, text = front ++ (piece ++ rest) ∧ '\n' ∉ piece ∧ EndsLine front ∧
    number = front.count '\n' + 1 ∧ (rest.head? = some '\n' ∨ rest = [] ∧ piece ≠ [])

/-- **A line of a text with its number**: a piece, without the carriage return at its end if it has
one. -/
def LineAt (text : List Char) (number : Nat) (line : List Char) : Prop :=
  ∃ piece, PieceAt text number piece ∧
    (piece = line ++ ['\r'] ∨ piece = line ∧ line.getLast? ≠ some '\r')

/-! ### Pieces -/

theorem addToPieces_append (c : Char) {ps : List (List Char)} (hps : ps ≠ [])
    (qs : List (List Char)) : addToPieces c (ps ++ qs) = addToPieces c ps ++ qs := by
  cases ps with
  | nil => exact absurd rfl hps
  | cons p ps =>
      unfold addToPieces
      split
      · rfl
      · rfl

theorem pieces_ne_nil {text : List Char} (hne : text ≠ []) : pieces text ≠ [] := by
  cases text with
  | nil => exact absurd rfl hne
  | cons c cs =>
      rw [pieces_cons]
      unfold addToPieces
      split
      · simp
      · cases pieces cs with
        | nil => simp
        | cons p ps => simp

/-- **The pieces of a text behind a line feed** come behind those before it. -/
theorem pieces_append {front : List Char} (hfront : EndsLine front) (rest : List Char) :
    pieces (front ++ rest) = pieces front ++ pieces rest := by
  induction front with
  | nil => rfl
  | cons c cs ih =>
      cases cs with
      | nil =>
          obtain rfl : c = '\n' := hfront c rfl
          rfl
      | cons d ds =>
          have hends : EndsLine (d :: ds) := by
            intro e he
            exact hfront e (by rwa [List.getLast?_cons_cons])
          have hne : pieces (d :: ds) ≠ [] := pieces_ne_nil (by simp)
          rw [List.cons_append, pieces_cons, ih hends, addToPieces_append c hne]
          rfl

/-- There are as many pieces in front of a line as there are line feeds. -/
theorem length_pieces {front : List Char} (hfront : EndsLine front) :
    (pieces front).length = front.count '\n' := by
  induction front with
  | nil => rfl
  | cons c cs ih =>
      cases cs with
      | nil =>
          obtain rfl : c = '\n' := hfront c rfl
          rfl
      | cons d ds =>
          have hends : EndsLine (d :: ds) := by
            intro e he
            exact hfront e (by rwa [List.getLast?_cons_cons])
          have hne : pieces (d :: ds) ≠ [] := pieces_ne_nil (by simp)
          rw [List.count_cons, ← ih hends, pieces_cons]
          unfold addToPieces
          by_cases hc : c = '\n'
          · simp [hc]
          · cases hpieces : pieces (d :: ds) with
            | nil => exact absurd hpieces hne
            | cons p ps => simp [hc]

theorem pieces_getElem?_of_pieceAt {text piece : List Char} {number : Nat}
    (h : PieceAt text number piece) : (pieces text)[number - 1]? = some piece := by
  obtain ⟨front, rest, rfl, hpiece, hfront, rfl, hrest⟩ := h
  rw [Nat.add_sub_cancel, pieces_append hfront, ← length_pieces hfront,
    List.getElem?_append_right (Nat.le_refl _), Nat.sub_self]
  rcases hrest with hfeed | ⟨rfl, hne⟩
  · cases rest with
    | nil => cases hfeed
    | cons c rest =>
        cases hfeed
        rw [pieces_line_append hpiece]
        rfl
  · rw [List.append_nil, pieces_of_not_mem hpiece hne]
    rfl

theorem pieceAt_of_getElem? {text piece : List Char} {i : Nat}
    (h : (pieces text)[i]? = some piece) : PieceAt text (i + 1) piece := by
  -- on the length of the text, which is less behind its first line feed
  induction hlength : text.length using Nat.strongRecOn generalizing text i with
  | ind n ih =>
      subst hlength
      by_cases hfeed : '\n' ∈ text
      · obtain ⟨line, rest, rfl, hline⟩ := List.eq_append_cons_of_mem hfeed
        rw [pieces_line_append hline] at h
        cases i with
        | zero =>
            cases h
            exact ⟨[], '\n' :: rest, rfl, hline, by simp [EndsLine], rfl, .inl rfl⟩
        | succ i =>
            -- a piece behind the first line feed is one of the rest
            have hshorter : rest.length < (line ++ '\n' :: rest).length := by
              simp only [List.length_append, List.length_cons]
              omega
            have hrest : PieceAt rest (i + 1) piece := ih rest.length hshorter h rfl
            obtain ⟨front, behind, rfl, hpiece, hfront, hnumber, hbehind⟩ := hrest
            refine ⟨line ++ '\n' :: front, behind, by simp, hpiece, ?_, ?_, hbehind⟩
            · intro c hc
              cases front with
              | nil =>
                  rw [List.getLast?_append_of_ne_nil _ (by simp)] at hc
                  cases hc
                  rfl
              | cons d ds =>
                  rw [List.getLast?_append_of_ne_nil _ (by simp), List.getLast?_cons_cons] at hc
                  exact hfront c hc
            · rw [List.count_append, List.count_eq_zero_of_not_mem hline, List.count_cons_self]
              omega
      · by_cases hne : text = []
        · subst hne
          cases h
        · rw [pieces_of_not_mem hfeed hne] at h
          cases i with
          | zero =>
              cases h
              exact ⟨[], [], by simp, hfeed, by simp [EndsLine], rfl, .inr ⟨rfl, hne⟩⟩
          | succ i => cases h

/-! ### Lines -/

theorem dropReturn_eq_iff {piece line : List Char} :
    dropReturn piece = line ↔
      piece = line ++ ['\r'] ∨ piece = line ∧ line.getLast? ≠ some '\r' := by
  unfold dropReturn
  split
  · rename_i hlast
    have hpiece := List.dropLast_append_getLast? '\r' hlast
    constructor
    · rintro rfl
      exact .inl hpiece.symm
    · rintro (rfl | ⟨rfl, hline⟩)
      · simp
      · exact absurd hlast hline
  · rename_i hlast
    constructor
    · rintro rfl
      exact .inr ⟨rfl, hlast⟩
    · rintro (rfl | ⟨rfl, -⟩)
      · exact absurd (by simp) hlast
      · rfl

/-- **The lines of a text and their numbers.** -/
theorem mem_numbered_lines_iff {text line : List Char} {number : Nat} :
    (line, number) ∈ numbered (lines text) ↔ LineAt text number line := by
  unfold numbered lines LineAt
  rw [List.mk_mem_zipIdx_iff_le_and_getElem?_sub, List.getElem?_map, Option.map_eq_some_iff]
  simp only [dropReturn_eq_iff]
  constructor
  · rintro ⟨hle, piece, hpiece, hline⟩
    have hat := pieceAt_of_getElem? hpiece
    rw [Nat.sub_add_cancel hle] at hat
    exact ⟨piece, hat, hline⟩
  · rintro ⟨piece, hpiece, hline⟩
    refine ⟨?_, piece, pieces_getElem?_of_pieceAt hpiece, hline⟩
    obtain ⟨-, -, -, -, -, rfl, -⟩ := hpiece
    exact Nat.le_add_left ..

end Source

end LineMachine
