/-
**Spaced words: what stands on a line.**

The words of a line are found one after the other: behind a gap comes a word, and behind a word
comes a gap or the end of the line.  So every line is put together from words and gaps in one way,
and a separator at its end makes no difference.

Main definitions:

* `LineMachine.Source.IsGap`, `LineMachine.Source.IsWord` — runs of separators, and runs without;
* `LineMachine.Source.Spaced` — **a line that is put together from words and gaps**;
* `LineMachine.Source.Holds` — a line on which numbers are written.

Main results:

* `LineMachine.Source.spaced_iff` — **the words of a line are those that it is put together from**;
* `LineMachine.Source.words_append_separator` — a separator at the end makes no difference;
* `LineMachine.Source.holds_iff`, `LineMachine.Source.Holds.unique` — the numbers on a line are
  written by its words, and there are no others.
-/

import LineMachine.Proofs.Readings
import LineMachine.Proofs.WrittenNumbers
import LineMachine.Source.Word
import Mathlib.Data.List.Forall2

set_option relaxedAutoImplicit false
set_option autoImplicit false

namespace LineMachine

namespace Source

open Text (isBlank isSeparator)

/-! ### Words behind a position -/

/-- A run of separators, which may be empty. -/
def IsGap (g : List Char) : Prop := ∀ c ∈ g, isSeparator c

/-- A run of other characters, which is not empty. -/
def IsWord (w : List Char) : Prop := w ≠ [] ∧ ∀ c ∈ w, isSeparator c = false

/-- Behind a word the line ends, or it goes on with a separator. -/
def EndsWord (rest : List Char) : Prop := ∀ c ∈ rest.head?, isSeparator c

/-- The words of a line that begins at a position, and whether it begins with one. -/
def wordsAt (n : Nat) (line : List Char) : Bool × List Word :=
  (line.zipIdx n).foldr addToWords (false, [])

theorem words_eq (line : List Char) : words line = (wordsAt 0 line).2 := rfl

theorem wordsAt_cons (n : Nat) (c : Char) (cs : List Char) :
    wordsAt n (c :: cs) = addToWords (c, n) (wordsAt (n + 1) cs) := rfl

theorem wordsAt_gap {g : List Char} (hg : IsGap g) (n : Nat) (rest : List Char) :
    (wordsAt n (g ++ rest)).2 = (wordsAt (n + g.length) rest).2 := by
  induction g generalizing n with
  | nil => rfl
  | cons c g ih =>
      have hc : isSeparator c := hg c (List.mem_cons_self ..)
      have hcs : IsGap g := fun d hd => hg d (List.mem_cons_of_mem _ hd)
      have hlength : n + (c :: g).length = n + 1 + g.length := by
        simp only [List.length_cons]
        omega
      rw [List.cons_append, wordsAt_cons, hlength, ← ih hcs]
      simp [addToWords, hc]

/-- No word begins at the end of another one. -/
theorem wordsAt_fst {rest : List Char} (h : EndsWord rest) (n : Nat) :
    (wordsAt n rest).1 = false := by
  cases rest with
  | nil => rfl
  | cons c cs =>
      have hc : isSeparator c := h c rfl
      simp [wordsAt_cons, addToWords, hc]

theorem wordsAt_word {w rest : List Char} (hw : IsWord w) (hrest : EndsWord rest) (n : Nat) :
    wordsAt n (w ++ rest) = (true, ⟨n, w⟩ :: (wordsAt (n + w.length) rest).2) := by
  induction w generalizing n with
  | nil => exact absurd rfl hw.1
  | cons c w ih =>
      have hc : isSeparator c = false := hw.2 c (List.mem_cons_self ..)
      rw [List.cons_append, wordsAt_cons]
      cases w with
      | nil =>
          -- the last character of the word
          have hflag := wordsAt_fst hrest (n + 1)
          have hpair : wordsAt (n + 1) rest = (false, (wordsAt (n + 1) rest).2) := by
            rw [← hflag]
          rw [List.nil_append, hpair]
          simp [addToWords, hc]
      | cons d w =>
          have hrun : IsWord (d :: w) := by
            refine ⟨by simp, fun e he => ?_⟩
            exact hw.2 e (List.mem_cons_of_mem _ he)
          have hlength : n + (c :: d :: w).length = n + 1 + (d :: w).length := by
            simp only [List.length_cons]
            omega
          rw [ih hrun, hlength]
          simp [addToWords, hc]

/-! ### Spaced words -/

/-- **A line that is put together** from words and gaps. -/
inductive Spaced : List Char → List (List Char) → Prop where
  /-- Without a word, a line is a gap. -/
  | gap {g : List Char} (hg : IsGap g) : Spaced g []
  /-- In front of a line that ends a word there may be one, behind a gap. -/
  | word {g w rest : List Char} {ws : List (List Char)} (hg : IsGap g) (hw : IsWord w)
      (hrest : EndsWord rest) (h : Spaced rest ws) : Spaced (g ++ (w ++ rest)) (w :: ws)

/-- **The words of a line that is put together.** -/
theorem map_text_words {line : List Char} {ws : List (List Char)} (h : Spaced line ws) :
    (words line).map Word.text = ws := by
  have hat : ∀ n, (wordsAt n line).2.map Word.text = ws := by
    induction h with
    | @gap g hg =>
        intro n
        have hgap := wordsAt_gap hg n []
        rw [List.append_nil] at hgap
        rw [hgap]
        rfl
    | @word g w rest ws hg hw hrest _ ih =>
        intro n
        rw [wordsAt_gap hg, wordsAt_word hw hrest, List.map_cons, ih]
  rw [words_eq]
  exact hat 0

/-- Every line is put together from words and gaps. -/
theorem exists_spaced (line : List Char) : ∃ ws, Spaced line ws := by
  induction line with
  | nil => exact ⟨[], .gap (by simp [IsGap])⟩
  | cons c cs ih =>
      obtain ⟨ws, h⟩ := ih
      cases hc : isSeparator c with
      | true =>
          have hgap {g : List Char} (hg : IsGap g) : IsGap (c :: g) := by simpa [IsGap, hc] using hg
          cases h with
          | gap hg => exact ⟨[], .gap (hgap hg)⟩
          | word hg hw hrest h => exact ⟨_, .word (hgap hg) hw hrest h⟩
      | false =>
          -- the character is a word by itself, unless one begins right behind it
          have halone : IsWord [c] := by simp [IsWord, hc]
          have hnil : IsGap [] := by simp [IsGap]
          cases h with
          | gap hg =>
              refine ⟨[[c]], .word hnil halone (fun d hd => ?_) (.gap hg)⟩
              exact hg d (List.mem_of_head? hd)
          | @word g w rest ws hg hw hrest h =>
              cases g with
              | nil =>
                  have hword : IsWord (c :: w) := by simpa [IsWord, hc] using hw.2
                  exact ⟨(c :: w) :: ws, .word hnil hword hrest h⟩
              | cons d g =>
                  have hends : EndsWord (d :: g ++ (w ++ rest)) := by
                    intro d' hd'
                    cases hd'
                    exact hg d (List.mem_cons_self ..)
                  exact ⟨[c] :: w :: ws, .word hnil halone hends (.word hg hw hrest h)⟩

/-- **What a line is put together from** are its words. -/
theorem spaced_iff {line : List Char} {ws : List (List Char)} :
    Spaced line ws ↔ (words line).map Word.text = ws := by
  constructor
  · exact map_text_words
  · rintro rfl
    obtain ⟨ws, h⟩ := exists_spaced line
    rwa [map_text_words h]

/-- **A separator at the end** of a line makes no difference. -/
theorem words_append_separator (line : List Char) {c : Char} (hc : isSeparator c) :
    words (line ++ [c]) = words line := by
  simp [words, List.zipIdx_append, addToWords, hc]

/-! ### Numbers on a line -/

/-- **A line on which numbers are written**, set apart by gaps. -/
def Holds (line : List Char) (vs : List Int) : Prop :=
  ∃ ws, Spaced line ws ∧ List.Forall₂ Numeral.Writes ws vs

/-- The numbers on a line are written by its words, in order. -/
theorem holds_iff {line : List Char} {vs : List Int} :
    Holds line vs ↔ List.Forall₂ (fun w v => Numeral.Writes w.text v) (words line) vs := by
  simp only [Holds, spaced_iff, exists_eq_left']
  exact List.forall₂_map_left_iff

namespace Holds

variable {line : List Char} {us vs : List Int}

/-- On a line that holds numbers every word is a numeral. -/
theorem isNumeral (h : Holds line vs) {w : Word} (hw : w ∈ words line) :
    Numeral.isNumeral w.text := by
  obtain ⟨v, -, hwrites⟩ := exists_mem_right (holds_iff.1 h) hw
  exact hwrites.isNumeral

/-- **What has been read can be written.** -/
theorem isWritable (h : Holds line vs) {v : Int} (hv : v ∈ vs) : Numeral.IsWritable v := by
  obtain ⟨w, -, hwrites⟩ := exists_mem_left (holds_iff.1 h) hv
  exact Numeral.isWritable_iff.2 ⟨w.text, hwrites⟩

/-- No other numbers are written on the line. -/
theorem unique (hus : Holds line us) (hvs : Holds line vs) : us = vs := by
  rw [holds_iff] at hus hvs
  refine List.right_unique_forall₂' ?_ hus hvs
  intro w u v hu hv
  have hvalue := hu.value_eq
  rw [hv.value_eq] at hvalue
  cases hvalue
  rfl

end Holds

end Source

end LineMachine
