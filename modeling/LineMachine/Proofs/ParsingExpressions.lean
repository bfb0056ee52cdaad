/-
**Parsing expressions: the grammar of a line as a parser follows it.**

A parser does not look for a way in which a line belongs to the grammar.  It goes along the line,
takes at each place as much as it can, and never gives back what it took.  This module says what
that comes to for any expression built from classes of characters, one expression behind the other,
repetition and option, and it gives the expression of a line.  Although the parser gives nothing
back, it misses nothing: it takes the whole line exactly if that belongs to the grammar, and
otherwise the longest beginning that does.

Main definitions:

* `LineMachine.Source.ParsingExpr`, `LineMachine.Source.Matches` — expressions, and **what an
  expression takes of a text**, greedily;
* `LineMachine.Source.lineExpr` — **the expression of a line**;
* `LineMachine.Source.RunAt`, `LineMachine.Source.RunsOf` — the longest runs without separators,
  each by its place, and all of them in order.

Main results:

* `LineMachine.Source.Matches.unique` — an expression takes one thing only;
* `LineMachine.Source.exists_matches_line` — a line is scanned as far as its expression takes it;
* `LineMachine.Source.runsOf_words` — words are the longest runs without separators;
* `LineMachine.Source.scan_parses` — **what is scanned, and where the parser stops**.
-/

import LineMachine.Proofs.Grammar

set_option relaxedAutoImplicit false
set_option autoImplicit false

namespace LineMachine

namespace Source

open Text (isSeparator)

/-! ### Parsing expressions -/

/-- **Parsing expressions.** -/
inductive ParsingExpr where
  /-- One character with a property. -/
  | oneOf (p : Char → Bool)
  /-- An expression, and another one behind it. -/
  | seq (e₁ e₂ : ParsingExpr)
  /-- An expression as often as it can be taken. -/
  | many (e : ParsingExpr)
  /-- An expression if it can be taken. -/
  | optional (e : ParsingExpr)
  /-- An expression whose text is noted as a word. -/
  | word (e : ParsingExpr)

/-- **What an expression takes of a text** that begins at a position: so many characters, in which
it notes some words, or nothing at all if it fails.  Whatever can be taken is, and is not given back
if what comes behind it fails. -/
inductive Matches : ParsingExpr → Nat → List Char → Option (Nat × List Word) → Prop where
  | char {p : Char → Bool} {n : Nat} {c : Char} {cs : List Char} (hc : p c) :
      Matches (.oneOf p) n (c :: cs) (some (1, []))
  | noChar {p : Char → Bool} {n : Nat} {text : List Char} (h : ∀ c ∈ text.head?, p c = false) :
      Matches (.oneOf p) n text none
  | seq {e₁ e₂ : ParsingExpr} {n k₁ k₂ : Nat} {text : List Char} {ws₁ ws₂ : List Word}
      (h₁ : Matches e₁ n text (some (k₁, ws₁)))
      (h₂ : Matches e₂ (n + k₁) (text.drop k₁) (some (k₂, ws₂))) :
      Matches (.seq e₁ e₂) n text (some (k₁ + k₂, ws₁ ++ ws₂))
  | seqFirst {e₁ e₂ : ParsingExpr} {n : Nat} {text : List Char} (h₁ : Matches e₁ n text none) :
      Matches (.seq e₁ e₂) n text none
  | seqSecond {e₁ e₂ : ParsingExpr} {n k₁ : Nat} {text : List Char} {ws₁ : List Word}
      (h₁ : Matches e₁ n text (some (k₁, ws₁))) (h₂ : Matches e₂ (n + k₁) (text.drop k₁) none) :
      Matches (.seq e₁ e₂) n text none
  | more {e : ParsingExpr} {n k₁ k₂ : Nat} {text : List Char} {ws₁ ws₂ : List Word}
      (h₁ : Matches e n text (some (k₁, ws₁)))
      (h₂ : Matches (.many e) (n + k₁) (text.drop k₁) (some (k₂, ws₂))) :
      Matches (.many e) n text (some (k₁ + k₂, ws₁ ++ ws₂))
  | noMore {e : ParsingExpr} {n : Nat} {text : List Char} (h : Matches e n text none) :
      Matches (.many e) n text (some (0, []))
  | present {e : ParsingExpr} {n k : Nat} {text : List Char} {ws : List Word}
      (h : Matches e n text (some (k, ws))) : Matches (.optional e) n text (some (k, ws))
  | absent {e : ParsingExpr} {n : Nat} {text : List Char} (h : Matches e n text none) :
      Matches (.optional e) n text (some (0, []))
  | word {e : ParsingExpr} {n k : Nat} {text : List Char} {ws : List Word}
      (h : Matches e n text (some (k, ws))) :
      Matches (.word e) n text (some (k, [⟨n, text.take k⟩]))
  | noWord {e : ParsingExpr} {n : Nat} {text : List Char} (h : Matches e n text none) :
      Matches (.word e) n text none

/-- **An expression takes one thing only** of a text. -/
theorem Matches.unique {e : ParsingExpr} {n : Nat} {text : List Char}
    {r r' : Option (Nat × List Word)} (h : Matches e n text r) (h' : Matches e n text r') :
    r' = r := by
  induction h generalizing r' with
  | char hc =>
      cases h' with
      | char _ => rfl
      | noChar h' => simp [hc] at h'
  | noChar h =>
      cases h' with
      | char hc => simp [hc] at h
      | noChar _ => rfl
  | seq _ _ ih₁ ih₂ =>
      cases h' with
      | seq h₁ h₂ =>
          cases ih₁ h₁
          cases ih₂ h₂
          rfl
      | seqFirst h₁ => cases ih₁ h₁
      | seqSecond h₁ h₂ =>
          cases ih₁ h₁
          cases ih₂ h₂
  | seqFirst _ ih₁ =>
      cases h' with
      | seq h₁ _ => cases ih₁ h₁
      | seqFirst _ | seqSecond _ _ => rfl
  | seqSecond _ _ ih₁ ih₂ =>
      cases h' with
      | seq h₁ h₂ =>
          cases ih₁ h₁
          cases ih₂ h₂
      | seqFirst _ | seqSecond _ _ => rfl
  | more _ _ ih₁ ih₂ =>
      cases h' with
      | more h₁ h₂ =>
          cases ih₁ h₁
          cases ih₂ h₂
          rfl
      | noMore h => cases ih₁ h
  | noMore _ ih =>
      cases h' with
      | more h₁ _ => cases ih h₁
      | noMore _ => rfl
  | present _ ih =>
      cases h' with
      | present h => exact ih h
      | absent h => cases ih h
  | absent _ ih =>
      cases h' with
      | present h => cases ih h
      | absent _ => rfl
  | word _ ih =>
      cases h' with
      | word h =>
          cases ih h
          rfl
      | noWord h => cases ih h
  | noWord _ ih =>
      cases h' with
      | word h => cases ih h
      | noWord _ => rfl

/-- One character with a property, or more of them. -/
def someOf (p : Char → Bool) : ParsingExpr := .seq (.oneOf p) (.many (.oneOf p))

/-- The expression of a gap. -/
def gapExpr : ParsingExpr := .many (.oneOf isSeparator)

/-- The expression of a numeral. -/
def numeralExpr : ParsingExpr :=
  .seq (.optional (.oneOf Numeral.isSign)) (someOf Char.isDigit)

/-- The expression of further numerals, each behind at least one separator. -/
def furtherExpr : ParsingExpr := .many (.seq (someOf isSeparator) (.word numeralExpr))

/-- **The expression of a line**: a gap, numerals if there are any, and another gap. -/
def lineExpr : ParsingExpr :=
  .seq gapExpr (.seq (.optional (.seq (.word numeralExpr) furtherExpr)) gapExpr)

/-! ### Runs of characters -/

section Runs

variable {p : Char → Bool} {text : List Char}

theorem matches_many (p : Char → Bool) (n : Nat) (text : List Char) :
    Matches (.many (.oneOf p)) n text (some ((text.takeWhile p).length, [])) := by
  induction text generalizing n with
  | nil => exact .noMore (.noChar (by simp))
  | cons c cs ih =>
      cases hc : p c with
      | true =>
          have hfirst : Matches (.oneOf p) n (c :: cs) (some (1, [])) := .char hc
          rw [List.takeWhile_cons_of_pos hc, List.length_cons, Nat.add_comm]
          exact .more hfirst (ih (n + 1))
      | false =>
          rw [List.takeWhile_cons_of_neg (by simp [hc])]
          exact .noMore (.noChar (by simp [hc]))

theorem matches_someOf (hne : text.takeWhile p ≠ []) (n : Nat) :
    Matches (someOf p) n text (some ((text.takeWhile p).length, [])) := by
  cases text with
  | nil => exact absurd rfl hne
  | cons c cs =>
      cases hc : p c with
      | true =>
          have hfirst : Matches (.oneOf p) n (c :: cs) (some (1, [])) := .char hc
          rw [List.takeWhile_cons_of_pos hc, List.length_cons, Nat.add_comm]
          exact .seq hfirst (matches_many p (n + 1) cs)
      | false => exact absurd (List.takeWhile_cons_of_neg (by simp [hc])) hne

theorem matches_someOf_none (hnil : text.takeWhile p = []) (n : Nat) :
    Matches (someOf p) n text none := by
  refine .seqFirst (.noChar ?_)
  cases text with
  | nil => simp
  | cons c cs =>
      cases hc : p c with
      | true =>
          rw [List.takeWhile_cons_of_pos hc] at hnil
          cases hnil
      | false => simp [hc]

end Runs

/-! ### Numerals -/

/-- **A numeral is taken as long as it is found** at the beginning of a text. -/
theorem matches_numeral (n : Nat) (text : List Char) :
    Matches numeralExpr n text
      (if Numeral.prefixLength text = 0 then none
        else some (Numeral.prefixLength text, [])) := by
  -- the sign is taken before the digits are looked at
  have hsign : ∃ k, Matches (.optional (.oneOf Numeral.isSign)) n text (some (k, [])) ∧
      text.drop k = Numeral.unsigned text ∧ text.length - (Numeral.unsigned text).length = k := by
    cases text with
    | nil => exact ⟨0, .absent (.noChar (by simp)), rfl, rfl⟩
    | cons c cs =>
        cases hc : Numeral.isSign c with
        | true => exact ⟨1, .present (.char hc), by simp [Numeral.unsigned, hc],
            by simp [Numeral.unsigned, hc]⟩
        | false => exact ⟨0, .absent (.noChar (by simp [hc])), by simp [Numeral.unsigned, hc],
            by simp [Numeral.unsigned, hc]⟩
  obtain ⟨k, hoptional, hdrop, hlength⟩ := hsign
  unfold Numeral.prefixLength
  rw [hlength]
  split
  · rename_i hnone
    rw [List.length_eq_zero_iff, ← hdrop] at hnone
    rw [if_pos rfl]
    exact .seqSecond hoptional (matches_someOf_none hnone (n + k))
  · rename_i hsome
    have hcount : ((Numeral.unsigned text).takeWhile Char.isDigit).length ≠ 0 := hsome
    have hne : (text.drop k).takeWhile Char.isDigit ≠ [] := by
      rw [hdrop]
      exact List.length_pos_iff.1 (Nat.pos_of_ne_zero hcount)
    have hseq := Matches.seq hoptional (matches_someOf hne (n + k))
    rw [hdrop] at hseq
    rw [if_neg (by omega)]
    exact hseq

theorem matches_word_none {text : List Char} (h : Numeral.prefixLength text = 0) (n : Nat) :
    Matches (.word numeralExpr) n text none := by
  have hnumeral := matches_numeral n text
  rw [if_pos h] at hnumeral
  exact .noWord hnumeral

theorem matches_word {text : List Char} (h : Numeral.prefixLength text ≠ 0) (n : Nat) :
    Matches (.word numeralExpr) n text (some (Numeral.prefixLength text,
      [⟨n, text.take (Numeral.prefixLength text)⟩])) := by
  have hnumeral := matches_numeral n text
  rw [if_neg h] at hnumeral
  exact .word hnumeral

theorem prefixLength_of_isNumeral {w : List Char} (h : Numeral.isNumeral w) :
    Numeral.prefixLength w = w.length := by
  simp only [Numeral.isNumeral, Bool.and_eq_true, beq_iff_eq] at h
  exact h.1

/-- The numeral that another word begins with ends within it. -/
theorem prefixLength_lt {w : List Char} (hw : IsWord w) (hbad : ¬ Numeral.isNumeral w) :
    Numeral.prefixLength w < w.length := by
  refine Nat.lt_of_le_of_ne (Numeral.prefixLength_le w) ?_
  intro heq
  simp [Numeral.isNumeral, heq, hw.1] at hbad

/-- What stands behind a word has no part in the numeral that it begins with. -/
theorem prefixLength_append {w rest : List Char} (hw : IsWord w) (hrest : EndsWord rest) :
    Numeral.prefixLength (w ++ rest) = Numeral.prefixLength w := by
  have hbehind : rest.takeWhile Char.isDigit = [] := by
    cases rest with
    | nil => rfl
    | cons c cs =>
        refine List.takeWhile_cons_of_neg fun hdigit => ?_
        have hblank := Text.isBlank_of_isSeparator (hrest c rfl)
        rw [(Numeral.plain_of_isDigit hdigit).1] at hblank
        cases hblank
  have hrun : (Numeral.unsigned w ++ rest).takeWhile Char.isDigit =
      (Numeral.unsigned w).takeWhile Char.isDigit := by
    rw [List.takeWhile_append, hbehind, List.append_nil]
    split
    · rename_i hall
      exact (List.Sublist.eq_of_length (List.takeWhile_sublist _) hall).symm
    · rfl
  unfold Numeral.prefixLength
  rw [Numeral.unsigned_append hw.1, hrun, List.length_append, List.length_append,
    Nat.add_sub_add_right]

/-! ### Scanning from a position -/

/-- What is scanned of a line that begins at a position. -/
def scanAt (n : Nat) (line : List Char) : Except Nat (List Word) :=
  match (wordsAt n line).2.find? (fun w => !Numeral.isNumeral w.text) with
  | none => .ok (wordsAt n line).2
  | some w => .error (w.start + Numeral.prefixLength w.text)

/-- **A text is scanned as far as it is taken**: to its end, with the words that are noted on the
way, or up to a position where the grammar ends. -/
def ScannedAs (n : Nat) (text : List Char) (k : Nat) (ws : List Word) : Prop :=
  scanAt n text = if k = text.length then .ok ws else .error (n + k)

theorem scannedAs_nil (n : Nat) : ScannedAs n [] 0 [] := rfl

theorem ScannedAs.gap {g rest : List Char} {n k : Nat} {ws : List Word} (hg : IsGap g)
    (h : ScannedAs (n + g.length) rest k ws) : ScannedAs n (g ++ rest) (g.length + k) ws := by
  unfold ScannedAs scanAt at h ⊢
  simp only [wordsAt_gap hg, h, List.length_append, Nat.add_right_inj, Nat.add_assoc]

theorem ScannedAs.numeral {w rest : List Char} {n k : Nat} {ws : List Word} (hw : IsWord w)
    (hrest : EndsWord rest) (hnumeral : Numeral.isNumeral w)
    (h : ScannedAs (n + w.length) rest k ws) :
    ScannedAs n (w ++ rest) (w.length + k) (⟨n, w⟩ :: ws) := by
  unfold ScannedAs scanAt at h ⊢
  rw [wordsAt_word hw hrest, List.find?_cons_of_neg (by simp [hnumeral])]
  simp only [List.length_append, Nat.add_right_inj, ← Nat.add_assoc]
  generalize (wordsAt (n + w.length) rest).2.find? (fun w => !Numeral.isNumeral w.text) = bad at h ⊢
  cases bad with
  | none =>
      by_cases hk : k = rest.length
      · rw [if_pos hk] at h ⊢
        cases h
        rfl
      · rw [if_neg hk] at h
        cases h
  | some u =>
      by_cases hk : k = rest.length
      · rw [if_pos hk] at h
        cases h
      · rw [if_neg hk] at h ⊢
        exact h

/-- A word that is no numeral ends the grammar. -/
theorem scannedAs_of_not_isNumeral {w rest : List Char} (hw : IsWord w) (hrest : EndsWord rest)
    (hbad : ¬ Numeral.isNumeral w) (n : Nat) (ws : List Word) :
    ScannedAs n (w ++ rest) (Numeral.prefixLength w) ws := by
  have hlt := prefixLength_lt hw hbad
  have hend : Numeral.prefixLength w ≠ (w ++ rest).length := by
    rw [List.length_append]
    omega
  unfold ScannedAs scanAt
  rw [wordsAt_word hw hrest, List.find?_cons_of_pos (by simp [hbad]), if_neg hend]

/-! ### Gaps -/

/-- No separator stands where a word begins. -/
theorem IsWord.takeWhile_isSeparator {w : List Char} (hw : IsWord w) (rest : List Char) :
    (w ++ rest).takeWhile isSeparator = [] := by
  cases w with
  | nil => exact absurd rfl hw.1
  | cons c w =>
      refine List.takeWhile_cons_of_neg ?_
      simp [hw.2 c (List.mem_cons_self ..)]

/-- Nor does one stand within a word. -/
theorem IsWord.takeWhile_isSeparator_drop {w : List Char} (hw : IsWord w) {k : Nat}
    (hk : k < w.length) (rest : List Char) :
    ((w ++ rest).drop k).takeWhile isSeparator = [] := by
  have hdrop : IsWord (w.drop k) := by
    constructor
    · simpa using hk
    · intro c hc
      exact hw.2 c (List.mem_of_mem_drop hc)
  rw [List.drop_append_of_le_length (Nat.le_of_lt hk)]
  exact hdrop.takeWhile_isSeparator rest

section Gaps

variable {g rest : List Char}

/-- A gap is taken as far as it goes. -/
theorem matches_gap (hg : IsGap g) (hrest : rest.takeWhile isSeparator = []) (n : Nat) :
    Matches gapExpr n (g ++ rest) (some (g.length, [])) := by
  have hmany := matches_many isSeparator n (g ++ rest)
  rw [List.takeWhile_append_of_pos hg, hrest, List.append_nil] at hmany
  exact hmany

theorem matches_someOf_gap (hg : IsGap g) (hne : g ≠ [])
    (hrest : rest.takeWhile isSeparator = []) (n : Nat) :
    Matches (someOf isSeparator) n (g ++ rest) (some (g.length, [])) := by
  have htake : (g ++ rest).takeWhile isSeparator = g := by
    rw [List.takeWhile_append_of_pos hg, hrest, List.append_nil]
  have hsome : (g ++ rest).takeWhile isSeparator ≠ [] := by rwa [htake]
  have hmatches := matches_someOf hsome n
  rwa [htake] at hmatches

/-- Behind a gap with no numeral behind it, nothing but the gap is taken. -/
theorem matches_last_gap (hg : IsGap g) (hrest : rest.takeWhile isSeparator = [])
    (hword : g ≠ [] → Numeral.prefixLength rest = 0) (n : Nat) :
    Matches (.seq furtherExpr gapExpr) n (g ++ rest) (some (g.length, [])) := by
  have hfurther : Matches furtherExpr n (g ++ rest) (some (0, [])) := by
    refine .noMore ?_
    rcases eq_or_ne g [] with rfl | hne
    · exact .seqFirst (matches_someOf_none hrest n)
    · refine .seqSecond (matches_someOf_gap hg hne hrest n) ?_
      rw [List.drop_left]
      exact matches_word_none (hword hne) _
  have hseq := Matches.seq hfurther (matches_gap hg hrest n)
  rwa [Nat.zero_add] at hseq

end Gaps

/-! ### The expression of a line -/

theorem Matches.seq_assoc {e₁ e₂ e₃ : ParsingExpr} {n : Nat} {text : List Char}
    {r : Nat × List Word} (h : Matches (.seq e₁ (.seq e₂ e₃)) n text (some r)) :
    Matches (.seq (.seq e₁ e₂) e₃) n text (some r) := by
  cases h with
  | seq h₁ h₂₃ =>
      cases h₂₃ with
      | seq h₂ h₃ =>
          rw [Nat.add_assoc, List.drop_drop] at h₃
          rw [← Nat.add_assoc, ← List.append_assoc]
          exact .seq (.seq h₁ h₂) h₃

theorem Matches.many_seq {e e' : ParsingExpr} {n : Nat} {text : List Char} {r : Nat × List Word}
    (h : Matches (.seq e (.seq (.many e) e')) n text (some r)) :
    Matches (.seq (.many e) e') n text (some r) := by
  cases h.seq_assoc with
  | seq hmany h' =>
      cases hmany with
      | seq hfirst hmore => exact .seq (.more hfirst hmore) h'

/-- **A word, and what stands behind it**, are taken as far as they are scanned, if that is so of
what stands behind it. -/
theorem exists_matches_word {w rest : List Char} (hw : IsWord w) (hrest : EndsWord rest)
    (hbehind : ∀ n, ∃ k ws, Matches (.seq furtherExpr gapExpr) n rest (some (k, ws)) ∧
      ScannedAs n rest k ws)
    (hsome : Numeral.prefixLength w ≠ 0) (n : Nat) :
    ∃ k ws, Matches (.seq (.word numeralExpr) (.seq furtherExpr gapExpr)) n (w ++ rest)
      (some (k, ws)) ∧ ScannedAs n (w ++ rest) k ws := by
  have hsame := prefixLength_append hw hrest
  have hbegins : Numeral.prefixLength (w ++ rest) ≠ 0 := by rwa [hsame]
  have hword := matches_word hbegins n
  rw [hsame] at hword
  cases hnumeral : Numeral.isNumeral w with
  | true =>
      have hlength := prefixLength_of_isNumeral hnumeral
      obtain ⟨k, ws, hmatches, hscan⟩ := hbehind (n + w.length)
      rw [hlength, List.take_left] at hword
      refine ⟨w.length + k, ⟨n, w⟩ :: ws, .seq hword ?_, hscan.numeral hw hrest hnumeral⟩
      rwa [List.drop_left]
  | false =>
      have hbad : ¬ Numeral.isNumeral w := by simp [hnumeral]
      have hlt := prefixLength_lt hw hbad
      have hnone : Matches (.seq furtherExpr gapExpr) (n + Numeral.prefixLength w)
          ((w ++ rest).drop (Numeral.prefixLength w)) (some (0, [])) :=
        matches_last_gap (g := []) (by simp [IsGap]) (hw.takeWhile_isSeparator_drop hlt rest)
          (by simp) _
      exact ⟨Numeral.prefixLength w, _, .seq hword hnone,
        scannedAs_of_not_isNumeral hw hrest hbad n _⟩

/-- A word without a numeral at its beginning ends the grammar. -/
theorem scannedAs_of_prefixLength {w rest : List Char} (hw : IsWord w) (hrest : EndsWord rest)
    (hnone : Numeral.prefixLength w = 0) (n : Nat) : ScannedAs n (w ++ rest) 0 [] := by
  have hbad : ¬ Numeral.isNumeral w := by
    intro hnumeral
    rw [prefixLength_of_isNumeral hnumeral, List.length_eq_zero_iff] at hnone
    exact hw.1 hnone
  have hscan := scannedAs_of_not_isNumeral hw hrest hbad n []
  rwa [hnone] at hscan

/-- **What stands behind a word** is taken as far as it is scanned. -/
theorem exists_matches_tail {text : List Char} {words : List (List Char)} (h : Spaced text words)
    (hends : EndsWord text) (n : Nat) :
    ∃ k ws, Matches (.seq furtherExpr gapExpr) n text (some (k, ws)) ∧ ScannedAs n text k ws := by
  induction h generalizing n with
  | @gap g hg =>
      have hmatches : Matches (.seq furtherExpr gapExpr) n (g ++ []) (some (g.length, [])) :=
        matches_last_gap hg rfl (fun _ => rfl) n
      have hscan := (scannedAs_nil (n + g.length)).gap hg
      rw [List.append_nil] at hmatches hscan
      exact ⟨g.length, [], hmatches, hscan⟩
  | @word g w rest words hg hw hrest _ ih =>
      have hne : g ≠ [] := by
        rintro rfl
        exact not_endsWord_of_isWord hw rest hends
      by_cases hnone : Numeral.prefixLength w = 0
      · -- the gap is all that is taken
        have hmatches := matches_last_gap hg (hw.takeWhile_isSeparator rest)
          (fun _ => by rw [prefixLength_append hw hrest, hnone]) n
        have hscan := scannedAs_of_prefixLength hw hrest hnone (n + g.length)
        exact ⟨g.length, [], hmatches, hscan.gap hg⟩
      · obtain ⟨k, ws, hmatches, hscan⟩ :=
          exists_matches_word hw hrest (ih hrest) hnone (n + g.length)
        have hgap := matches_someOf_gap hg hne (hw.takeWhile_isSeparator rest) n
        refine ⟨g.length + k, [] ++ ws, ?_, hscan.gap hg⟩
        -- a further numeral comes in front of the others
        refine (Matches.seq hgap ?_).seq_assoc.many_seq
        rwa [List.drop_left]

/-- Of a line without a numeral behind its first gap, only the gap is taken. -/
theorem matches_line_gap {g rest : List Char} (hg : IsGap g)
    (hrest : rest.takeWhile isSeparator = []) (hnone : Numeral.prefixLength rest = 0) :
    Matches lineExpr 0 (g ++ rest) (some (g.length, [])) := by
  have hnumerals : Matches (.optional (.seq (.word numeralExpr) furtherExpr)) (0 + g.length) rest
      (some (0, [])) := .absent (.seqFirst (matches_word_none hnone _))
  have hlast : Matches gapExpr (0 + g.length + 0) (rest.drop 0) (some (0, [])) :=
    matches_gap (g := []) (by simp [IsGap]) hrest _
  have hrestdrop : (g ++ rest).drop g.length = rest := List.drop_left
  exact .seq (matches_gap hg hrest 0) (by rw [hrestdrop]; exact .seq hnumerals hlast)

/-- **A line is scanned as far as its expression takes it.** -/
theorem exists_matches_line (line : List Char) :
    ∃ k ws, Matches lineExpr 0 line (some (k, ws)) ∧
      scan line = if k = line.length then .ok ws else .error k := by
  suffices h : ∃ k ws, Matches lineExpr 0 line (some (k, ws)) ∧ ScannedAs 0 line k ws by
    obtain ⟨k, ws, hmatches, hscan⟩ := h
    unfold ScannedAs at hscan
    rw [Nat.zero_add] at hscan
    exact ⟨k, ws, hmatches, hscan⟩
  obtain ⟨words, hspaced⟩ := exists_spaced line
  cases hspaced with
  | gap hg =>
      have hmatches : Matches lineExpr 0 (line ++ []) (some (line.length, [])) :=
        matches_line_gap hg rfl rfl
      have hscan := (scannedAs_nil (0 + line.length)).gap hg
      rw [List.append_nil] at hmatches hscan
      exact ⟨line.length, [], hmatches, hscan⟩
  | @word g w rest words hg hw hrest h =>
      by_cases hnone : Numeral.prefixLength w = 0
      · have hmatches := matches_line_gap hg (hw.takeWhile_isSeparator rest)
          (by rw [prefixLength_append hw hrest, hnone])
        have hscan := scannedAs_of_prefixLength hw hrest hnone (0 + g.length)
        exact ⟨g.length, [], hmatches, hscan.gap hg⟩
      · obtain ⟨k, ws, hmatches, hscan⟩ :=
          exists_matches_word hw hrest (exists_matches_tail h hrest) hnone (0 + g.length)
        have hgap := matches_gap hg (hw.takeWhile_isSeparator rest) 0
        refine ⟨g.length + k, [] ++ ws, .seq hgap ?_, hscan.gap hg⟩
        rw [List.drop_left]
        cases hmatches.seq_assoc with
        | seq hnumerals hlast => exact .seq (.present hnumerals) hlast

/-! ### The longest runs without separators -/

/-- **A longest run without separators**, at its place on a line. -/
def RunAt (line : List Char) (w : Word) : Prop :=
  ∃ front rest, line = front ++ (w.text ++ rest) ∧ w.start = front.length ∧
    EndsGap front ∧ IsWord w.text ∧ EndsWord rest

/-- **The longest runs without separators** on a line, from left to right. -/
structure RunsOf (text : List Char) (ws : List Word) : Prop where
  /-- They are runs of the line, and none is left out. -/
  mem_iff (w : Word) : w ∈ ws ↔ RunAt text w
  /-- Each ends before the next one begins. -/
  ascending : ws.Pairwise fun w w' => w.start + w.text.length < w'.start
  /-- Everything else is a separator. -/
  separator {i : Nat} {c : Char} (hi : text[i]? = some c)
    (hws : ∀ w ∈ ws, i < w.start ∨ w.start + w.text.length ≤ i) : isSeparator c

theorem mem_words_iff {line : List Char} {w : Word} : w ∈ words line ↔ RunAt line w := by
  constructor
  · intro hw
    obtain ⟨before, after, hwords⟩ := List.append_of_mem hw
    obtain ⟨front, rest, hline, hstart, hfront, hword, hrest, -⟩ := exists_around_word hwords
    exact ⟨front, rest, hline, hstart, hfront, hword, hrest⟩
  · rintro ⟨front, rest, rfl, hstart, hfront, hword, hrest⟩
    rw [words_around hfront hword hrest, ← hstart]
    exact List.mem_append_right _ (List.mem_cons_self ..)

theorem pairwise_words (line : List Char) :
    (words line).Pairwise fun w w' => w.start + w.text.length < w'.start := by
  rw [List.pairwise_iff_getElem]
  intro i j hi hj hij
  have hsplit : words line = (words line).take j ++ (words line)[j] :: (words line).drop (j + 1) := by
    simp
  obtain ⟨front, rest, -, hstart, hfront, -, -, hbefore⟩ := exists_around_word hsplit
  -- the earlier word is one of the text before the later one
  have hmem : (words line)[i] ∈ words front := by
    rw [hbefore]
    exact List.mem_take_iff_getElem.2 ⟨i, by omega, rfl⟩
  obtain ⟨front', rest', rfl, hstart', -, hword, -⟩ := mem_words_iff.1 hmem
  have hne : rest' ≠ [] := by
    rintro rfl
    rw [List.append_nil] at hfront
    exact not_endsGap_of_isWord hword _ hfront
  have hpos := List.length_pos_iff.2 hne
  simp only [List.length_append] at hstart
  omega

theorem separator_of_outside {text : List Char} {words : List (List Char)} (h : Spaced text words)
    {n i : Nat} {c : Char} (hi : text[i]? = some c)
    (hws : ∀ w ∈ (wordsAt n text).2, n + i < w.start ∨ w.start + w.text.length ≤ n + i) :
    isSeparator c := by
  induction h generalizing n i with
  | gap hg => exact hg c (List.mem_of_getElem? hi)
  | @word g w rest words hg hw hrest _ ih =>
      rw [wordsAt_gap hg, wordsAt_word hw hrest, List.forall_mem_cons] at hws
      obtain ⟨hw', hws⟩ := hws
      rcases Nat.lt_or_ge i g.length with hlt | hge
      · rw [List.getElem?_append_left hlt] at hi
        exact hg c (List.mem_of_getElem? hi)
      · dsimp only at hw'
        have hbehind : w.length ≤ i - g.length := by omega
        rw [List.getElem?_append_right hge, List.getElem?_append_right hbehind] at hi
        refine ih (n := n + g.length + w.length) hi fun u hu => ?_
        have hu' := hws u hu
        omega

/-- **The words of a line are the longest runs** without separators. -/
theorem runsOf_words (line : List Char) : RunsOf line (words line) where
  mem_iff _ := mem_words_iff
  ascending := pairwise_words line
  separator hi hws := by
    obtain ⟨_, hspaced⟩ := exists_spaced line
    rw [words_eq] at hws
    refine separator_of_outside (n := 0) hspaced hi ?_
    rwa [Nat.zero_add]

theorem RunsOf.nodup {line : List Char} {ws : List Word} (h : RunsOf line ws) : ws.Nodup :=
  h.ascending.imp fun hlt heq => by
    rw [heq] at hlt
    omega

/-- They are in one order only. -/
theorem RunsOf.unique {line : List Char} {ws ws' : List Word} (h : RunsOf line ws)
    (h' : RunsOf line ws') : ws = ws' := by
  have hperm : ws.Perm ws' := by
    rw [List.perm_ext_iff_of_nodup h.nodup h'.nodup]
    intro w
    rw [h.mem_iff, h'.mem_iff]
  refine hperm.eq_of_pairwise ?_ h.ascending h'.ascending
  intro w w' _ _ hlt hgt
  omega

/-! ### What is scanned -/

/-- **What is scanned of a line.**  The expression of a line takes some beginning of it and nothing
else, and the line is grammatical if that is all of it.  It is so exactly for the lines of the
grammar, whose words are the longest runs without separators; of any other line, what is taken is
as long as its longest beginning in the grammar. -/
theorem scan_parses (line : List Char) :
    (∃ k ws, Matches lineExpr 0 line (some (k, ws)) ∧
      (∀ r, Matches lineExpr 0 line r → r = some (k, ws)) ∧
      scan line = if k = line.length then .ok ws else .error k) ∧
    (∀ ws, scan line = .ok ws ↔ line ∈ grammar ∧ RunsOf line ws) ∧
    (∀ position, scan line = .error position ↔
      line ∉ grammar ∧ ∃ p, LongestPrefix grammar line p ∧ p.length = position) := by
  refine ⟨?_, fun ws => ?_, fun position => scan_eq_error_iff⟩
  · obtain ⟨k, ws, hmatches, hscan⟩ := exists_matches_line line
    exact ⟨k, ws, hmatches, fun r hr => hmatches.unique hr, hscan⟩
  · rw [scan_eq_ok_iff_mem_grammar]
    constructor
    · rintro ⟨hmem, rfl⟩
      exact ⟨hmem, runsOf_words line⟩
    · rintro ⟨hmem, hruns⟩
      exact ⟨hmem, hruns.unique (runsOf_words line)⟩

/-- A sign alone, and a letter behind a numeral, end the grammar where they stand. -/
example : scan "1 +".toList = .error 2 ∧ scan "12a".toList = .error 2 ∧
    scan "1 x".toList = .error 2 := by decide

end Source

end LineMachine
