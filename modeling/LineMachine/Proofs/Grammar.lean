/-
**The grammar of a line, and how far a line follows it.**

A grammatical line is made of numerals with gaps between and around them.  The grammar is given here
as a language, and what `LineMachine.Source.scan` does is compared with it.  A line belongs to the
language exactly if its words are numerals.  For any other line, the position that is found is the
length of the longest of its beginnings that belong to the language: all words before the first one
that is no numeral are in it, together with the numeral that this word begins with.

Main definitions:

* `LineMachine.Source.gaps`, `LineMachine.Source.numerals`, `LineMachine.Source.grammar` — **the
  grammar of a line** and its parts;
* `LineMachine.Source.LongestPrefix` — the longest beginning of a text that belongs to a language.

Main results:

* `LineMachine.Source.mem_grammar_iff` — the words of a grammatical line are numerals;
* `LineMachine.Source.exists_around_word`, `LineMachine.Source.wordsAt_append` — what stands around
  a word, and the words of a line behind a gap;
* `LineMachine.Source.scan_eq_ok_iff_mem_grammar`, `LineMachine.Source.scan_eq_error_iff` — **what
  is scanned, and where the grammar ends**.
-/

import LineMachine.Proofs.SpacedWords
import Mathlib.Computability.Language

set_option relaxedAutoImplicit false
set_option autoImplicit false

namespace LineMachine

/-! ### Numerals at the beginning of a text -/

namespace Numeral

variable {text : List Char}

/-- What stands in front of the digits of a text is not changed by what stands behind them. -/
theorem unsigned_append (hne : text ≠ []) (rest : List Char) :
    unsigned (text ++ rest) = unsigned text ++ rest := by
  cases text with
  | nil => exact absurd rfl hne
  | cons c cs =>
      cases hsign : isSign c with
      | true => simp [unsigned, hsign]
      | false => simp [unsigned, hsign]

/-- Every text is what is behind its sign, if it has one, and that sign. -/
theorem exists_sign (text : List Char) :
    ∃ sign, (sign = [] ∨ ∃ c, isSign c ∧ sign = [c]) ∧ text = sign ++ unsigned text := by
  cases text with
  | nil => exact ⟨[], .inl rfl, rfl⟩
  | cons c cs =>
      cases hsign : isSign c with
      | true => exact ⟨[c], .inr ⟨c, hsign, rfl⟩, by simp [unsigned, hsign]⟩
      | false => exact ⟨[], .inl rfl, by simp [unsigned, hsign]⟩

theorem unsigned_sign_append {sign ds : List Char} (hsign : sign = [] ∨ ∃ c, isSign c ∧ sign = [c])
    (hds : ∀ c ∈ ds, c.isDigit) : unsigned (sign ++ ds) = ds := by
  rcases hsign with rfl | ⟨c, hc, rfl⟩
  · cases ds with
    | nil => rfl
    | cons d ds =>
        have hplain := (plain_of_isDigit (hds d (List.mem_cons_self ..))).2.1
        simp [unsigned, hplain]
  · simp [unsigned, hc]

/-- A text begins with a numeral as long as that is found. -/
theorem isNumeral_take_prefixLength (hpos : 0 < prefixLength text) :
    isNumeral (text.take (prefixLength text)) := by
  obtain ⟨sign, hsign, htext⟩ := exists_sign text
  have hdigits : ∀ c ∈ (unsigned text).takeWhile Char.isDigit, c.isDigit :=
    List.all_eq_true.1 List.all_takeWhile
  have hrun : (unsigned text).takeWhile Char.isDigit =
      (unsigned text).take ((unsigned text).takeWhile Char.isDigit).length :=
    List.prefix_iff_eq_take.1 (List.takeWhile_prefix _)
  have htake : ∀ k, text.take (sign.length + k) = sign ++ (unsigned text).take k := by
    intro k
    conv_lhs => rw [htext]
    exact List.take_length_add_append k
  have hlength : text.length = sign.length + (unsigned text).length := by
    rw [← List.length_append, ← htext]
  unfold prefixLength at hpos ⊢
  split at hpos
  · omega
  · rename_i hsome
    have hsignlength : text.length - (unsigned text).length = sign.length := by omega
    rw [hsignlength, htake, ← hrun, isNumeral_iff, unsigned_sign_append hsign hdigits]
    exact ⟨fun hnil => hsome (by rw [hnil]; rfl), hdigits⟩

/-- No longer numeral begins a text than that is found. -/
theorem length_le_prefixLength {q : List Char} (hq : isNumeral q) (hbegins : q <+: text) :
    q.length ≤ prefixLength text := by
  obtain ⟨hne, hdigits⟩ := isNumeral_iff.1 hq
  obtain ⟨rest, rfl⟩ := hbegins
  have hq : q ≠ [] := by
    rintro rfl
    exact hne rfl
  have hle := length_unsigned_le q
  have hpos : 0 < (unsigned q).length := List.length_pos_iff.2 hne
  -- the run of digits is at least as long as that of the numeral
  have hrun : (unsigned q).length ≤ ((unsigned (q ++ rest)).takeWhile Char.isDigit).length := by
    rw [unsigned_append hq, List.takeWhile_append_of_pos hdigits, List.length_append]
    exact Nat.le_add_right _ _
  unfold prefixLength
  split
  · omega
  · simp only [unsigned_append hq, List.length_append] at hrun ⊢
    omega

end Numeral

namespace Source

open Computability
open Text (isSeparator)

/-! ### The grammar -/

/-- The texts of one character with a property. -/
def oneOf (p : Char → Bool) : Language Char := {t | ∃ c, p c ∧ t = [c]}

/-- **Gaps**: any number of separators. -/
def gaps : Language Char := (oneOf isSeparator)∗

/-- **Numerals**: a sign that may be missing, and at least one digit. -/
def numerals : Language Char :=
  (1 + oneOf Numeral.isSign) * (oneOf Char.isDigit * (oneOf Char.isDigit)∗)

/-- A numeral behind at least one separator. -/
def furtherNumerals : Language Char := oneOf isSeparator * gaps * numerals

/-- **The grammar of a line**: numerals that are set apart by separators, between two gaps. -/
def grammar : Language Char := gaps * ((1 + numerals * furtherNumerals∗) * gaps)

theorem mem_oneOf_kstar {p : Char → Bool} {t : List Char} : t ∈ (oneOf p)∗ ↔ ∀ c ∈ t, p c := by
  rw [Language.mem_kstar]
  constructor
  · rintro ⟨parts, rfl, hparts⟩ c hc
    obtain ⟨part, hpart, hc⟩ := List.mem_flatten.1 hc
    obtain ⟨d, hd, rfl⟩ := hparts part hpart
    obtain rfl := List.mem_singleton.1 hc
    exact hd
  · intro h
    refine ⟨t.map fun c => [c], ?_, ?_⟩
    · induction t with
      | nil => rfl
      | cons c t ih =>
          rw [List.map_cons, List.flatten_cons, ← ih fun d hd => h d (List.mem_cons_of_mem _ hd)]
          rfl
    · intro part hpart
      obtain ⟨c, hc, rfl⟩ := List.mem_map.1 hpart
      exact ⟨c, h c hc, rfl⟩

theorem mem_oneOf_mul_kstar {p : Char → Bool} {t : List Char} :
    t ∈ oneOf p * (oneOf p)∗ ↔ t ≠ [] ∧ ∀ c ∈ t, p c := by
  rw [Language.mem_mul]
  constructor
  · rintro ⟨_, ⟨c, hc, rfl⟩, rest, hrest, rfl⟩
    refine ⟨by simp, ?_⟩
    intro d hd
    rcases List.mem_cons.1 hd with rfl | hd
    · exact hc
    · exact mem_oneOf_kstar.1 hrest d hd
  · rintro ⟨hne, h⟩
    cases t with
    | nil => exact absurd rfl hne
    | cons c rest =>
        refine ⟨[c], ⟨c, h c (List.mem_cons_self ..), rfl⟩, rest, ?_, rfl⟩
        rw [mem_oneOf_kstar]
        intro d hd
        exact h d (List.mem_cons_of_mem _ hd)

theorem mem_gaps_iff {g : List Char} : g ∈ gaps ↔ IsGap g := mem_oneOf_kstar

/-- **The numerals of the grammar** are those that are read. -/
theorem mem_numerals_iff {t : List Char} : t ∈ numerals ↔ Numeral.isNumeral t := by
  rw [numerals, Language.mem_mul, Numeral.isNumeral_iff]
  simp only [Language.mem_add, Language.mem_one, mem_oneOf_mul_kstar]
  constructor
  · rintro ⟨sign, hsign, ds, ⟨hne, hds⟩, rfl⟩
    rw [Numeral.unsigned_sign_append hsign hds]
    exact ⟨hne, hds⟩
  · intro h
    obtain ⟨sign, hsign, ht⟩ := Numeral.exists_sign t
    exact ⟨sign, hsign, Numeral.unsigned t, h, ht.symm⟩

theorem isWord_of_isNumeral {w : List Char} (h : Numeral.isNumeral w) : IsWord w := by
  constructor
  · rintro rfl
    exact absurd h (by decide)
  · intro c hc
    exact Numeral.isSeparator_eq_false_of_mem h hc

/-- A word does not begin with a separator. -/
theorem not_endsWord_of_isWord {w : List Char} (hw : IsWord w) (rest : List Char) :
    ¬ EndsWord (w ++ rest) := by
  intro h
  cases w with
  | nil => exact hw.1 rfl
  | cons c w =>
      have hsep := h c rfl
      rw [hw.2 c (List.mem_cons_self ..)] at hsep
      cases hsep

/-! ### Grammatical lines -/

/-- Numerals behind a gap each, and a gap behind them, are words that follow the end of another. -/
theorem exists_spaced_of_mem_tail {line : List Char} (h : line ∈ furtherNumerals∗ * gaps) :
    EndsWord line ∧ ∃ ws, Spaced line ws ∧ ∀ w ∈ ws, Numeral.isNumeral w := by
  obtain ⟨_, hfurther, last, hlast, rfl⟩ := Language.mem_mul.1 h
  obtain ⟨parts, rfl, hparts⟩ := Language.mem_kstar.1 hfurther
  rw [mem_gaps_iff] at hlast
  clear h hfurther
  induction parts with
  | nil =>
      refine ⟨?_, [], .gap hlast, by simp⟩
      intro c hc
      exact hlast c (List.mem_of_head? hc)
  | cons part parts ih =>
      obtain ⟨hends, ws, hspaced, hws⟩ := ih fun p hp => hparts p (List.mem_cons_of_mem _ hp)
      obtain ⟨_, hgap, w, hw, hpart⟩ := Language.mem_mul.1 (hparts part (List.mem_cons_self ..))
      obtain ⟨_, ⟨c, hc, rfl⟩, g, hg, rfl⟩ := Language.mem_mul.1 hgap
      rw [mem_numerals_iff] at hw
      have hline : (part :: parts).flatten ++ last =
          ([c] ++ g) ++ (w ++ (parts.flatten ++ last)) := by
        rw [← hpart]
        simp
      have hgap : IsGap ([c] ++ g) := by
        intro d hd
        rcases List.mem_cons.1 hd with rfl | hd
        · exact hc
        · exact mem_gaps_iff.1 hg d hd
      rw [hline]
      refine ⟨?_, w :: ws, .word hgap (isWord_of_isNumeral hw) hends hspaced, ?_⟩
      · intro d hd
        cases hd
        exact hc
      · exact List.forall_mem_cons.2 ⟨hw, hws⟩

theorem mem_tail_of_spaced {line : List Char} {ws : List (List Char)} (h : Spaced line ws)
    (hws : ∀ w ∈ ws, Numeral.isNumeral w) (hends : EndsWord line) :
    line ∈ furtherNumerals∗ * gaps := by
  induction h with
  | @gap g hg =>
      exact Language.append_mem_mul (Language.nil_mem_kstar _) (mem_gaps_iff.2 hg)
  | @word g w rest ws hg hw hrest _ ih =>
      rw [List.forall_mem_cons] at hws
      obtain ⟨further, hfurther, last, hlast, rfl⟩ := Language.mem_mul.1 (ih hws.2 hrest)
      cases g with
      | nil => exact absurd hends (not_endsWord_of_isWord hw _)
      | cons c g =>
          have hpart : [c] ++ g ++ w ∈ furtherNumerals := by
            refine Language.append_mem_mul (Language.append_mem_mul ?_ ?_) ?_
            · exact ⟨c, hg c (List.mem_cons_self ..), rfl⟩
            · rw [mem_gaps_iff]
              intro d hd
              exact hg d (List.mem_cons_of_mem _ hd)
            · exact mem_numerals_iff.2 hws.1
          have hparts : [c] ++ g ++ w ++ further ∈ furtherNumerals∗ := by
            rw [← Language.one_add_self_mul_kstar_eq_kstar]
            exact .inr (Language.append_mem_mul hpart hfurther)
          have hline : c :: g ++ (w ++ (further ++ last)) =
              [c] ++ g ++ w ++ further ++ last := by simp
          rw [hline]
          exact Language.append_mem_mul hparts hlast

/-- A grammatical line is put together from numerals and gaps. -/
theorem mem_grammar_iff_spaced {line : List Char} :
    line ∈ grammar ↔ ∃ ws, Spaced line ws ∧ ∀ w ∈ ws, Numeral.isNumeral w := by
  constructor
  · intro h
    obtain ⟨g, hg, _, hrest, rfl⟩ := Language.mem_mul.1 h
    obtain ⟨_, hmiddle, last, hlast, rfl⟩ := Language.mem_mul.1 hrest
    rw [mem_gaps_iff] at hg
    rcases hmiddle with rfl | hmiddle
    · refine ⟨[], .gap ?_, by simp⟩
      intro c hc
      rcases List.mem_append.1 hc with hc | hc
      · exact hg c hc
      · exact mem_gaps_iff.1 hlast c hc
    · obtain ⟨w, hw, further, hfurther, rfl⟩ := Language.mem_mul.1 hmiddle
      rw [mem_numerals_iff] at hw
      obtain ⟨hends, ws, hspaced, hws⟩ :=
        exists_spaced_of_mem_tail (Language.append_mem_mul hfurther hlast)
      rw [List.append_assoc]
      exact ⟨w :: ws, .word hg (isWord_of_isNumeral hw) hends hspaced,
        List.forall_mem_cons.2 ⟨hw, hws⟩⟩
  · rintro ⟨ws, hspaced, hws⟩
    cases hspaced with
    | gap hg =>
        have hline : line = line ++ ([] ++ []) := by simp
        rw [hline]
        refine Language.append_mem_mul (mem_gaps_iff.2 hg) (Language.append_mem_mul (.inl rfl) ?_)
        exact Language.nil_mem_kstar _
    | @word g w rest ws hg hw hrest h =>
        rw [List.forall_mem_cons] at hws
        obtain ⟨further, hfurther, last, hlast, rfl⟩ :=
          Language.mem_mul.1 (mem_tail_of_spaced h hws.2 hrest)
        rw [← List.append_assoc w]
        refine Language.append_mem_mul (mem_gaps_iff.2 hg) (Language.append_mem_mul (.inr ?_) hlast)
        exact Language.append_mem_mul (mem_numerals_iff.2 hws.1) hfurther

/-- **The words of a grammatical line** are numerals. -/
theorem mem_grammar_iff {line : List Char} :
    line ∈ grammar ↔ ∀ w ∈ words line, Numeral.isNumeral w.text := by
  rw [mem_grammar_iff_spaced]
  simp [spaced_iff]

/-- Where numbers are written, the line is grammatical. -/
theorem Holds.mem_grammar {line : List Char} {vs : List Int} (h : Holds line vs) :
    line ∈ grammar :=
  mem_grammar_iff.2 fun _ => h.isNumeral

/-- **What is scanned** is a grammatical line, and all its words are found. -/
theorem scan_eq_ok_iff_mem_grammar {line : List Char} {ws : List Word} :
    scan line = .ok ws ↔ line ∈ grammar ∧ ws = words line := by
  rw [scan_eq_ok_iff, mem_grammar_iff, and_comm]

/-! ### Around a word -/

/-- A text that is empty or ends with a separator. -/
def EndsGap (front : List Char) : Prop := ∀ c ∈ front.getLast?, isSeparator c

theorem IsGap.endsGap {g : List Char} (hg : IsGap g) : EndsGap g := by
  intro c hc
  exact hg c (List.mem_of_getLast? hc)

theorem not_endsGap_of_isWord {w : List Char} (hw : IsWord w) (front : List Char) :
    ¬ EndsGap (front ++ w) := by
  intro h
  have hlast : (front ++ w).getLast? = some (w.getLast hw.1) := by
    rw [List.getLast?_append_of_ne_nil _ hw.1, List.getLast?_eq_some_getLast hw.1]
  have hsep := h _ hlast
  rw [hw.2 _ (List.getLast_mem hw.1)] at hsep
  cases hsep

/-- **The words of a line behind a gap** come behind those before it. -/
theorem wordsAt_append {front : List Char} (hfront : EndsGap front) (n : Nat) (rest : List Char) :
    (wordsAt n (front ++ rest)).2 =
      (wordsAt n front).2 ++ (wordsAt (n + front.length) rest).2 := by
  obtain ⟨ws, hspaced⟩ := exists_spaced front
  induction hspaced generalizing n with
  | @gap g hg =>
      have hnone := wordsAt_gap hg n []
      rw [List.append_nil] at hnone
      rw [wordsAt_gap hg, hnone]
      rfl
  | @word g w tail ws hg hw htail _ ih =>
      have hne : tail ≠ [] := by
        rintro rfl
        rw [List.append_nil] at hfront
        exact not_endsGap_of_isWord hw g hfront
      have hgap : EndsGap tail := by
        intro c hc
        refine hfront c ?_
        rw [← List.append_assoc, List.getLast?_append_of_ne_nil _ hne]
        exact hc
      have hends : EndsWord (tail ++ rest) := by
        intro c hc
        rw [List.head?_append_of_ne_nil _ hne] at hc
        exact htail c hc
      have hlength : n + (g ++ (w ++ tail)).length = n + g.length + w.length + tail.length := by
        simp only [List.length_append]
        omega
      rw [List.append_assoc, List.append_assoc, wordsAt_gap hg, wordsAt_gap hg,
        wordsAt_word hw hends, wordsAt_word hw htail, ih hgap, hlength, List.cons_append]

theorem exists_around_wordAt {line : List Char} {n : Nat} {before after : List Word} {w : Word}
    (h : (wordsAt n line).2 = before ++ w :: after) :
    ∃ front rest, line = front ++ (w.text ++ rest) ∧ w.start = n + front.length ∧
      EndsGap front ∧ IsWord w.text ∧ EndsWord rest ∧ (wordsAt n front).2 = before := by
  obtain ⟨ws, hspaced⟩ := exists_spaced line
  induction hspaced generalizing n before with
  | @gap g hg =>
      have hnone := wordsAt_gap hg n []
      rw [List.append_nil] at hnone
      rw [hnone] at h
      cases before with
      | nil => cases h
      | cons b before => cases h
  | @word g w₁ tail ws hg hw htail _ ih =>
      rw [wordsAt_gap hg, wordsAt_word hw htail] at h
      dsimp only at h
      cases before with
      | nil =>
          cases h
          have hnone := wordsAt_gap hg n []
          rw [List.append_nil] at hnone
          exact ⟨g, tail, rfl, rfl, hg.endsGap, hw, htail, hnone⟩
      | cons b before =>
          obtain ⟨rfl, hafter⟩ := List.cons.inj h
          obtain ⟨front, rest, rfl, hstart, hfront, hword, hrest, hbefore⟩ := ih hafter
          have hne : front ≠ [] := by
            rintro rfl
            exact not_endsWord_of_isWord hword rest htail
          have hends : EndsWord front := by
            intro c hc
            refine htail c ?_
            rw [List.head?_append_of_ne_nil _ hne]
            exact hc
          refine ⟨g ++ (w₁ ++ front), rest, by simp, ?_, ?_, hword, hrest, ?_⟩
          · simp only [hstart, List.length_append]
            omega
          · intro c hc
            rw [← List.append_assoc, List.getLast?_append_of_ne_nil _ hne] at hc
            exact hfront c hc
          · rw [wordsAt_gap hg, wordsAt_word hw hends, hbefore]

/-- **Around a word** of a line stand its beginning, which ends in a gap if it is not empty and has
the words before it, and the rest. -/
theorem exists_around_word {line : List Char} {before after : List Word} {w : Word}
    (h : words line = before ++ w :: after) :
    ∃ front rest, line = front ++ (w.text ++ rest) ∧ w.start = front.length ∧
      EndsGap front ∧ IsWord w.text ∧ EndsWord rest ∧ words front = before := by
  rw [words_eq] at h
  obtain ⟨front, rest, hline, hstart, hrest⟩ := exists_around_wordAt h
  exact ⟨front, rest, hline, by omega, hrest⟩

/-- The words of a line with a word behind a gap. -/
theorem words_around {front w rest : List Char} (hfront : EndsGap front) (hw : IsWord w)
    (hrest : EndsWord rest) :
    words (front ++ (w ++ rest)) =
      words front ++ ⟨front.length, w⟩ :: (wordsAt (front.length + w.length) rest).2 := by
  rw [words_eq, wordsAt_append hfront, Nat.zero_add, wordsAt_word hw hrest, words_eq]

/-! ### The longest beginning -/

/-- **The longest beginning of a text** that belongs to a language. -/
structure LongestPrefix (L : Language Char) (text p : List Char) : Prop where
  mem : p ∈ L
  begins : p <+: text
  longest : ∀ q ∈ L, q <+: text → q.length ≤ p.length

/-- How long it is depends on the text alone. -/
theorem LongestPrefix.length_eq {L : Language Char} {text p q : List Char}
    (hp : LongestPrefix L text p) (hq : LongestPrefix L text q) : p.length = q.length :=
  Nat.le_antisymm (hq.longest p hp.mem hp.begins) (hp.longest q hq.mem hq.begins)

/-- Every word of a line in the grammar is a numeral. -/
theorem isNumeral_of_mem_grammar {front u rest : List Char} (hfront : EndsGap front)
    (hu : IsWord u) (hrest : EndsWord rest) (h : front ++ (u ++ rest) ∈ grammar) :
    Numeral.isNumeral u := by
  rw [mem_grammar_iff, words_around hfront hu hrest] at h
  exact h ⟨front.length, u⟩ (by simp)

/-- Behind numerals the numeral that a word begins with still belongs to the grammar. -/
theorem mem_grammar_append_take {front : List Char} (hfront : EndsGap front)
    (hbefore : ∀ u ∈ words front, Numeral.isNumeral u.text) (w : List Char) :
    front ++ w.take (Numeral.prefixLength w) ∈ grammar := by
  rw [mem_grammar_iff]
  rcases Nat.eq_zero_or_pos (Numeral.prefixLength w) with hzero | hpos
  · rw [hzero, List.take_zero, List.append_nil]
    exact hbefore
  · have hnumeral := Numeral.isNumeral_take_prefixLength hpos
    have hwords := words_around hfront (isWord_of_isNumeral hnumeral)
      (show EndsWord [] by simp [EndsWord])
    rw [List.append_nil] at hwords
    rw [hwords]
    intro u hu
    rcases List.mem_append.1 hu with hu | hu
    · exact hbefore u hu
    · obtain rfl : u = ⟨front.length, w.take (Numeral.prefixLength w)⟩ := by
        simpa [wordsAt] using hu
      exact hnumeral

/-- The first word that is no numeral ends the grammar, behind the numeral that it begins with. -/
theorem longestPrefix_of_word {front w rest : List Char} (hfront : EndsGap front) (hw : IsWord w)
    (hrest : EndsWord rest) (hbefore : ∀ u ∈ words front, Numeral.isNumeral u.text)
    (hbad : ¬ Numeral.isNumeral w) :
    LongestPrefix grammar (front ++ (w ++ rest)) (front ++ w.take (Numeral.prefixLength w)) where
  mem := mem_grammar_append_take hfront hbefore w
  begins := by
    rw [List.prefix_append_right_inj]
    exact (List.take_prefix _ w).trans (List.prefix_append w rest)
  longest := by
    intro q hq hbegins
    refine Nat.le_of_not_lt fun hlt => ?_
    -- a longer beginning has a word that is no numeral
    obtain ⟨tail, rfl⟩ : front <+: q := by
      refine List.prefix_of_prefix_length_le (List.prefix_append ..) hbegins ?_
      simp only [List.length_append] at hlt
      omega
    rw [List.prefix_append_right_inj] at hbegins
    simp only [List.length_append, List.length_take] at hlt
    rcases Nat.le_total tail.length w.length with hle | hle
    · -- it ends within the word
      have hinside : tail <+: w :=
        List.prefix_of_prefix_length_le hbegins (List.prefix_append ..) hle
      have htail : IsWord tail :=
        ⟨List.ne_nil_of_length_pos (by omega), fun c hc => hw.2 c (hinside.subset hc)⟩
      rw [← List.append_nil tail] at hq
      have hnumeral := isNumeral_of_mem_grammar hfront htail (by simp [EndsWord]) hq
      have hshort := Numeral.length_le_prefixLength hnumeral hinside
      omega
    · -- it goes on behind the word
      obtain ⟨rest', rfl⟩ : w <+: tail :=
        List.prefix_of_prefix_length_le (List.prefix_append ..) hbegins hle
      rw [List.prefix_append_right_inj] at hbegins
      refine hbad (isNumeral_of_mem_grammar hfront hw ?_ hq)
      intro c hc
      obtain ⟨rest'', rfl⟩ := hbegins
      cases rest' with
      | nil => cases hc
      | cons d ds => exact hrest c hc

/-- **Where the grammar ends** is behind the longest beginning of the line that belongs to it. -/
theorem scan_eq_error_iff {line : List Char} {position : Nat} :
    scan line = .error position ↔
      line ∉ grammar ∧ ∃ p, LongestPrefix grammar line p ∧ p.length = position := by
  cases hscan : scan line with
  | ok ws =>
      obtain ⟨hmem, -⟩ := scan_eq_ok_iff_mem_grammar.1 hscan
      simp [hmem]
  | error found =>
      have hbad : line ∉ grammar := by
        intro hmem
        rw [scan_eq_ok_iff_mem_grammar.2 ⟨hmem, rfl⟩] at hscan
        cases hscan
      obtain ⟨p, hp, hlength⟩ : ∃ p, LongestPrefix grammar line p ∧ p.length = found := by
        unfold scan at hscan
        split at hscan
        · cases hscan
        · rename_i w hfind
          obtain ⟨hw, before, after, hwords, hbefore⟩ := List.find?_eq_some_iff_append.1 hfind
          obtain ⟨front, rest, rfl, hstart, hfront, hword, hrest, rfl⟩ := exists_around_word hwords
          simp only [Bool.not_eq_true', Bool.not_not] at hw hbefore
          refine ⟨_, longestPrefix_of_word hfront hword hrest hbefore (by simp [hw]), ?_⟩
          cases hscan
          rw [List.length_append, List.length_take, Nat.min_eq_left (Numeral.prefixLength_le _),
            hstart]
      simp only [Except.error.injEq, hbad, not_false_eq_true, true_and]
      constructor
      · rintro rfl
        exact ⟨p, hp, hlength⟩
      · rintro ⟨q, hq, rfl⟩
        rw [← hlength, hp.length_eq hq]

end Source

end LineMachine
