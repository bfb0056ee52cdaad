/-
**Written numbers: what numerals say.**

A number is written as its decimal digits, behind any number of zeros and a sign that may be left
out unless the number is negative.  Whatever is written so is a numeral, and its value is that
number, as long as there are not too many digits.  Conversely a numeral is a sign and digits, so
it begins with a character that is neither blank nor a number sign, and no separator is in it.

Main definitions:

* `LineMachine.Numeral.digits` — the digits of a number behind some zeros;
* `LineMachine.Numeral.Writes` — **a text writes a number**.

Main results:

* `LineMachine.Numeral.isNumeral_iff` — numerals are a sign that may be missing, and digits;
* `LineMachine.Numeral.exists_digits` — every run of digits is that of some number;
* `LineMachine.Numeral.Writes.isNumeral`, `LineMachine.Numeral.Writes.value_eq`,
  `LineMachine.Numeral.writes_iff` — **what is written is what is read**;
* `LineMachine.Numeral.isWritable_iff` — which numbers can be written.
-/

import LineMachine.Numeral
import Mathlib.Data.List.Induction

set_option relaxedAutoImplicit false
set_option autoImplicit false

namespace LineMachine.Numeral

open Text (isBlank isSeparator)

/-! ### Numerals -/

/-- **Numerals** are a sign that may be missing, and at least one digit. -/
theorem isNumeral_iff {text : List Char} :
    isNumeral text ↔ unsigned text ≠ [] ∧ ∀ c ∈ unsigned text, c.isDigit := by
  have hle := length_unsigned_le text
  have hrun := (List.takeWhile_prefix (l := unsigned text) Char.isDigit)
  simp only [isNumeral, Bool.and_eq_true, beq_iff_eq, bne_iff_ne]
  constructor
  · rintro ⟨hlength, hne⟩
    have hpos : 0 < text.length := List.length_pos_iff.2 hne
    -- the run of digits is as long as what is behind the sign
    have hall : ((unsigned text).takeWhile Char.isDigit).length = (unsigned text).length := by
      unfold prefixLength at hlength
      split at hlength
      · omega
      · rename_i n hn
        have := hrun.length_le
        omega
    have heq := hrun.eq_of_length hall
    refine ⟨?_, fun c hc => ?_⟩
    · intro hnil
      unfold prefixLength at hlength
      simp only [hnil, List.takeWhile_nil, List.length_nil] at hlength
      omega
    · rw [← heq] at hc
      exact List.all_eq_true.1 List.all_takeWhile c hc
  · rintro ⟨hne, hdigits⟩
    have hall : (unsigned text).takeWhile Char.isDigit = unsigned text := by
      have happend : (unsigned text ++ []).takeWhile Char.isDigit = unsigned text ++ [] :=
        List.takeWhile_append_of_pos hdigits
      simpa using happend
    have hpos : 0 < (unsigned text).length := List.length_pos_iff.2 hne
    refine ⟨?_, List.length_pos_iff.1 (by omega)⟩
    unfold prefixLength
    rw [hall]
    split
    · omega
    · omega

/-- A digit is neither blank nor a sign, and it starts no comment. -/
theorem plain_of_isDigit {c : Char} (h : c.isDigit) :
    isBlank c = false ∧ isSign c = false ∧ c ≠ '#' := by
  have hcode : 48 ≤ c.toNat ∧ c.toNat ≤ 57 := by
    simp only [Char.isDigit, Bool.and_eq_true, decide_eq_true_eq, ge_iff_le,
      UInt32.le_iff_toNat_le] at h
    exact h
  refine ⟨?_, ?_, ?_⟩
  · refine Bool.eq_false_iff.2 fun hblank => ?_
    simp [isBlank, Text.blanks] at hblank
    omega
  · refine Bool.eq_false_iff.2 fun hsign => ?_
    simp only [isSign, Bool.or_eq_true, beq_iff_eq] at hsign
    rcases hsign with rfl | rfl
    · exact absurd h (by decide)
    · exact absurd h (by decide)
  · rintro rfl
    exact absurd h (by decide)

/-- A numeral begins with a character that is neither blank nor a number sign. -/
theorem head_of_isNumeral {text : List Char} (h : isNumeral text) :
    ∃ c cs, text = c :: cs ∧ isBlank c = false ∧ c ≠ '#' := by
  obtain ⟨hne, hdigits⟩ := isNumeral_iff.1 h
  rcases text with _ | ⟨c, cs⟩
  · exact absurd rfl hne
  · refine ⟨c, cs, rfl, ?_⟩
    cases hsign : isSign c with
    | true =>
        simp only [isSign, Bool.or_eq_true, beq_iff_eq] at hsign
        rcases hsign with rfl | rfl
        · decide
        · decide
    | false =>
        have hc : c.isDigit := hdigits c (by simp [unsigned, hsign])
        obtain ⟨hblank, -, hhash⟩ := plain_of_isDigit hc
        exact ⟨hblank, hhash⟩

/-- No separator is in a numeral. -/
theorem isSeparator_eq_false_of_mem {text : List Char} (h : isNumeral text) {c : Char}
    (hc : c ∈ text) : isSeparator c = false := by
  obtain ⟨-, hdigits⟩ := isNumeral_iff.1 h
  have hdigit : ∀ d, d.isDigit → isSeparator d = false := by
    intro d hd
    refine Bool.eq_false_iff.2 fun hsep => ?_
    have hblank := Text.isBlank_of_isSeparator hsep
    rw [(plain_of_isDigit hd).1] at hblank
    cases hblank
  rcases text with _ | ⟨first, cs⟩
  · cases hc
  · cases hsign : isSign first with
    | false => exact hdigit c (hdigits c (by simpa [unsigned, hsign] using hc))
    | true =>
        rcases List.mem_cons.1 hc with rfl | hc
        · simp only [isSign, Bool.or_eq_true, beq_iff_eq] at hsign
          rcases hsign with rfl | rfl
          · decide
          · decide
        · exact hdigit c (hdigits c (by simpa [unsigned, hsign] using hc))

/-! ### Writing a number -/

/-- The digits of a number, behind some zeros. -/
def digits (zeros n : Nat) : List Char := List.replicate zeros '0' ++ Nat.toDigits 10 n

theorem isDigit_of_mem_digits {zeros n : Nat} {c : Char} (h : c ∈ digits zeros n) : c.isDigit := by
  rcases List.mem_append.1 h with hzero | hdigit
  · rw [(List.mem_replicate.1 hzero).2]
    decide
  · exact Nat.isDigit_of_mem_toDigits (by decide) (by decide) hdigit

theorem digits_ne_nil (zeros n : Nat) : digits zeros n ≠ [] := by
  simp [digits, Nat.toDigits_ne_nil]

/-- The digits of a number say that number; the zeros add nothing. -/
theorem ofDigits_digits (zeros n : Nat) :
    ofDigits ((digits zeros n).map fun c => c.toNat - '0'.toNat) = n := by
  have hzeros : ∀ k ds, ofDigits (List.replicate k 0 ++ ds) = ofDigits ds := by
    intro k ds
    induction k with
    | zero => rfl
    | succ k ih =>
        rw [List.replicate_succ, List.cons_append]
        exact ih
  have hcode : '0'.toNat - '0'.toNat = 0 := rfl
  rw [digits, List.map_append, List.map_replicate, hcode, hzeros, ofDigits, List.foldl_map]
  exact Nat.ofDigitChars_toDigits (by decide) (by decide)

/-- A digit is what its value is written as. -/
theorem toDigits_of_isDigit {c : Char} (h : c.isDigit) :
    c.toNat - '0'.toNat < 10 ∧ Nat.toDigits 10 (c.toNat - '0'.toNat) = [c] := by
  have hcode : '0'.toNat ≤ c.toNat ∧ c.toNat ≤ '9'.toNat := by
    simp only [Char.isDigit, Bool.and_eq_true, decide_eq_true_eq, ge_iff_le,
      UInt32.le_iff_toNat_le] at h
    exact h
  have hlow : '0'.toNat = 48 := rfl
  have hhigh : '9'.toNat = 57 := rfl
  rw [hlow, hhigh] at hcode
  have hlt : c.toNat - 48 < 10 := by omega
  refine ⟨hlt, ?_⟩
  rw [hlow, Nat.toDigits_of_lt_base hlt]
  have hc : c = Char.ofNat (48 + (c.toNat - 48)) := by
    rw [Nat.add_sub_cancel' hcode.1, Char.ofNat_toNat]
  rw [hc]
  generalize hd : c.toNat - 48 = d at hlt
  have hall : ∀ d < 10,
      [Nat.digitChar ((Char.ofNat (48 + d)).toNat - 48)] = [Char.ofNat (48 + d)] := by decide
  exact hall d hlt

/-- **Every run of digits is written** by some zeros and a number. -/
theorem exists_digits {ds : List Char} (hne : ds ≠ []) (h : ∀ c ∈ ds, c.isDigit) :
    ∃ zeros n, ds = digits zeros n := by
  induction ds using List.reverseRecOn with
  | nil => exact absurd rfl hne
  | append_singleton ds c ih =>
      obtain ⟨hlt, hc⟩ := toDigits_of_isDigit (h c (by simp))
      generalize c.toNat - '0'.toNat = d at hlt hc
      by_cases hnil : ds = []
      · exact ⟨0, d, by simp [digits, hnil, hc]⟩
      · obtain ⟨zeros, n, rfl⟩ := ih hnil fun e he => h e (List.mem_append_left _ he)
        rcases Nat.eq_zero_or_pos n with rfl | hn
        · -- so far there are only zeros
          refine ⟨zeros + 1, d, ?_⟩
          simp [digits, hc, List.replicate_succ']
        · refine ⟨zeros, 10 * n + d, ?_⟩
          rw [digits, digits, ← Nat.toDigits_append_toDigits (by decide) hn hlt, hc,
            List.append_assoc]

/-- **A text writes a number**: its digits, behind any number of zeros, and a sign that has to be
written only if the number is negative. -/
inductive Writes : List Char → Int → Prop where
  | plain (zeros n : Nat) (h : (digits zeros n).length ≤ maxDigits) : Writes (digits zeros n) n
  | plus (zeros n : Nat) (h : (digits zeros n).length ≤ maxDigits) :
      Writes ('+' :: digits zeros n) n
  | minus (zeros n : Nat) (h : (digits zeros n).length ≤ maxDigits) :
      Writes ('-' :: digits zeros n) (-n)

/-- Only a numeral with too many digits has no value. -/
theorem value_eq_error_iff {text : List Char} {d : Nat} :
    value text = .error d ↔ (unsigned text).length = d ∧ maxDigits < d := by
  by_cases h : maxDigits < (unsigned text).length
  · rw [value, if_pos h, Except.error.injEq]
    constructor
    · rintro rfl
      exact ⟨rfl, h⟩
    · exact fun hd => hd.1
  · rw [value, if_neg h]
    constructor
    · intro hd
      cases hd
    · rintro ⟨rfl, hlt⟩
      exact absurd hlt h

theorem unsigned_digits (zeros n : Nat) : unsigned (digits zeros n) = digits zeros n := by
  have hdigits : ∀ c ∈ digits zeros n, c.isDigit := fun c hc => isDigit_of_mem_digits hc
  generalize digits zeros n = ds at hdigits
  rcases ds with _ | ⟨c, cs⟩
  · rfl
  · simp [unsigned, (plain_of_isDigit (hdigits c (List.mem_cons_self ..))).2.1]

theorem head?_digits_ne (zeros n : Nat) : (digits zeros n).head? ≠ some '-' := by
  intro h
  have hmem : '-' ∈ digits zeros n := List.mem_of_head? h
  exact absurd (isDigit_of_mem_digits hmem) (by decide)

namespace Writes

variable {text : List Char} {v : Int}

/-- **What is written is a numeral.** -/
theorem isNumeral (h : Writes text v) : isNumeral text := by
  refine isNumeral_iff.2 ?_
  have hplain (zeros n : Nat) :
      digits zeros n ≠ [] ∧ ∀ c ∈ digits zeros n, c.isDigit :=
    ⟨digits_ne_nil zeros n, fun c hc => isDigit_of_mem_digits hc⟩
  cases h with
  | plain zeros n =>
      rw [unsigned_digits]
      exact hplain zeros n
  | plus zeros n | minus zeros n => exact hplain zeros n

/-- **What is written is read.** -/
theorem value_eq (h : Writes text v) : value text = .ok v := by
  cases h with
  | plain zeros n h =>
      unfold value
      rw [unsigned_digits, if_neg (Nat.not_lt.2 h), ofDigits_digits]
      simp [signed, head?_digits_ne]
  | plus zeros n h =>
      have hunsigned : unsigned ('+' :: digits zeros n) = digits zeros n := rfl
      unfold value
      rw [hunsigned, if_neg (Nat.not_lt.2 h), ofDigits_digits]
      rfl
  | minus zeros n h =>
      have hunsigned : unsigned ('-' :: digits zeros n) = digits zeros n := rfl
      unfold value
      rw [hunsigned, if_neg (Nat.not_lt.2 h), ofDigits_digits]
      rfl

end Writes

/-- **What a text writes** is what it is read as: the numerals are the texts that write a number. -/
theorem writes_iff {text : List Char} {v : Int} :
    Writes text v ↔ isNumeral text ∧ value text = .ok v := by
  constructor
  · intro h
    exact ⟨h.isNumeral, h.value_eq⟩
  · rintro ⟨hnumeral, hvalue⟩
    obtain ⟨hne, hdigits⟩ := isNumeral_iff.1 hnumeral
    have hlength : (unsigned text).length ≤ maxDigits := by
      refine Nat.le_of_not_lt fun hlt => ?_
      rw [value, if_pos hlt] at hvalue
      cases hvalue
    obtain ⟨zeros, n, hrun⟩ := exists_digits hne hdigits
    rw [hrun] at hlength
    -- whatever the sign, the text writes some number, and that is its value
    have hwrites : ∃ u, Writes text u := by
      cases text with
      | nil => exact absurd rfl hne
      | cons c cs =>
          cases hsign : isSign c with
          | false =>
              have htext : c :: cs = digits zeros n := by simpa [unsigned, hsign] using hrun
              rw [htext]
              exact ⟨n, .plain zeros n hlength⟩
          | true =>
              obtain rfl : cs = digits zeros n := by simpa [unsigned, hsign] using hrun
              simp only [isSign, Bool.or_eq_true, beq_iff_eq] at hsign
              rcases hsign with rfl | rfl
              · exact ⟨n, .plus zeros n hlength⟩
              · exact ⟨-n, .minus zeros n hlength⟩
    obtain ⟨u, hu⟩ := hwrites
    have hvalue' := hu.value_eq
    rw [hvalue] at hvalue'
    cases hvalue'
    exact hu

/-- **The writable numbers** are those that some text writes. -/
theorem isWritable_iff {v : Int} : IsWritable v ↔ ∃ text, Writes text v := by
  constructor
  · intro h
    have hlength : (digits 0 v.natAbs).length ≤ maxDigits := h
    rcases v.natAbs_eq with hv | hv
    · rw [hv]
      exact ⟨_, .plain 0 v.natAbs hlength⟩
    · rw [hv]
      exact ⟨_, .minus 0 v.natAbs hlength⟩
  · have hshort {zeros n : Nat} (h : (digits zeros n).length ≤ maxDigits) :
        (Nat.toDigits 10 n).length ≤ maxDigits := by
      refine Nat.le_trans ?_ h
      simp [digits]
    rintro ⟨text, h⟩
    cases h with
    | plain zeros n h => exact hshort h
    | plus zeros n h => exact hshort h
    | minus zeros n h =>
        rw [IsWritable, Int.natAbs_neg]
        exact hshort h

end LineMachine.Numeral
