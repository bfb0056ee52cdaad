/-
**Program lines: what is read off a source text.**

The lines of a source text that belong to the program are read one after the other, and the words
of each of them likewise.  What is read off a line are the numbers that are written on it, if all of
them are in range.  Otherwise the line is at fault, and the fault names it, unless the first number
that is no cell has too many digits to be converted.

Main definitions:

* `LineMachine.Source.Overlong` — **a line on which a numeral is too long**;
* `LineMachine.Listing.readWord`, `LineMachine.Listing.readRow` — the number that a word is, and the
  row that a line is;
* `LineMachine.Listing.programLines` — the lines that belong to the program.

Main results:

* `LineMachine.Listing.readLine_eq_ok_iff`, `LineMachine.Listing.readRow_eq_ok_iff` — **what is
  read off a line is what is written on it**;
* `LineMachine.Listing.readLine_eq_tooLong_iff`, `LineMachine.Listing.fault_of_readLine` — what
  keeps a line from being read;
* `LineMachine.Source.readNumbers_eq_ok_iff`, `LineMachine.Source.readNumbers_eq_tooLong_iff` — the
  same of the parameter of a directive.
-/

import LineMachine.Proofs.Readings
import LineMachine.Proofs.SpacedWords
import LineMachine.Source.Listing
import Mathlib.Data.List.Nodup

set_option relaxedAutoImplicit false
set_option autoImplicit false

namespace LineMachine

/-! ### Numerals that are too long -/

namespace Source

variable {line : List Char} {digits : Nat}

/-- **A line on which a numeral is too long**: its words are numerals, and the first one that does
not write a number with the property has too many digits. -/
def Overlong (P : Int → Prop) (line : List Char) (digits : Nat) : Prop :=
  (∀ w ∈ words line, Numeral.isNumeral w.text) ∧
    ∃ before w after, words line = before ++ w :: after ∧
      (∀ u ∈ before, ∃ v, Numeral.Writes u.text v ∧ P v) ∧
      (Numeral.unsigned w.text).length = digits ∧ Numeral.maxDigits < digits

/-- Whoever converts the words of a line that are numerals, and accepts the numbers with a property,
finds a numeral too long just then. -/
theorem overlong_iff {ε : Type} {P : Int → Prop} {read : Word → Except ε Int} (fault : Nat → ε)
    (hok : ∀ w v, read w = .ok v ↔ Numeral.value w.text = .ok v ∧ P v)
    (herror : ∀ w d, read w = .error (fault d) ↔ Numeral.value w.text = .error d)
    (hall : ∀ w ∈ words line, Numeral.isNumeral w.text) :
    (words line).mapM read = .error (fault digits) ↔ Overlong P line digits := by
  have hread : ∀ before w after, words line = before ++ w :: after →
      ((∀ u ∈ before, ∃ v, read u = .ok v) ↔ ∀ u ∈ before, ∃ v, Numeral.Writes u.text v ∧ P v) := by
    intro before w after hwords
    refine forall₂_congr fun u hu => exists_congr fun v => ?_
    have hnumeral := hall u (by simp [hwords, hu])
    rw [hok, Numeral.writes_iff]
    simp [hnumeral]
  rw [mapM_eq_error_iff]
  constructor
  · rintro ⟨before, w, after, hwords, hbefore, hw⟩
    rw [herror, Numeral.value_eq_error_iff] at hw
    exact ⟨hall, before, w, after, hwords, (hread before w after hwords).1 hbefore, hw⟩
  · rintro ⟨-, before, w, after, hwords, hbefore, hw⟩
    rw [← Numeral.value_eq_error_iff, ← herror] at hw
    exact ⟨before, w, after, hwords, (hread before w after hwords).2 hbefore, hw⟩

/-- Whoever converts the words of a line that are numerals, and accepts the numbers with a property,
reads what is written on it. -/
theorem mapM_words_eq_ok_iff {ε : Type} {P : Int → Prop} {read : Word → Except ε Int}
    {vs : List Int} (hok : ∀ w v, read w = .ok v ↔ Numeral.value w.text = .ok v ∧ P v)
    (hall : ∀ w ∈ words line, Numeral.isNumeral w.text) :
    (words line).mapM read = .ok vs ↔ Holds line vs ∧ ∀ v ∈ vs, P v := by
  rw [holds_iff, mapM_eq_ok_iff]
  simp only [hok]
  generalize words line = words at hall
  induction words generalizing vs with
  | nil =>
      cases vs with
      | nil => simp
      | cons v vs => simp
  | cons w words ih =>
      rw [List.forall_mem_cons] at hall
      cases vs with
      | nil => simp
      | cons v vs =>
          rw [List.forall₂_cons, List.forall₂_cons, ih hall.2, Numeral.writes_iff,
            List.forall_mem_cons]
          constructor
          · rintro ⟨⟨hvalue, hv⟩, hwrites, hvs⟩
            exact ⟨⟨⟨hall.1, hvalue⟩, hwrites⟩, hv, hvs⟩
          · rintro ⟨⟨⟨-, hvalue⟩, hwrites⟩, hv, hvs⟩
            exact ⟨⟨hvalue, hv⟩, hwrites, hvs⟩

theorem wordValue_eq_ok_iff {w : Word} {v : Int} :
    w.value = .ok v ↔ Numeral.value w.text = .ok v := by
  unfold Word.value
  cases Numeral.value w.text <;> simp [Except.mapError]

/-- **The numbers of a parameter** are those that are written on it. -/
theorem readNumbers_eq_ok_iff {vs : List Int} : readNumbers line = .ok vs ↔ Holds line vs := by
  unfold readNumbers
  cases hscan : scan line with
  | error position =>
      constructor
      · intro h
        cases h
      · intro h
        rw [scan_eq_ok_iff.2 ⟨rfl, fun w hw => h.isNumeral hw⟩] at hscan
        cases hscan
  | ok ws =>
      obtain ⟨rfl, hall⟩ := scan_eq_ok_iff.1 hscan
      have hok (w : Word) (v : Int) : w.value = .ok v ↔ Numeral.value w.text = .ok v ∧ True := by
        rw [wordValue_eq_ok_iff, and_true]
      have hread : (words line).mapM Word.value = .ok vs ↔ _ := mapM_words_eq_ok_iff hok hall
      dsimp only
      rw [hread]
      simp

theorem readNumbers_eq_tooLong_iff :
    readNumbers line = .error (.tooLong digits) ↔ Overlong (fun _ => True) line digits := by
  unfold readNumbers
  cases hscan : scan line with
  | error position =>
      constructor
      · intro h
        cases h
      · rintro ⟨hall, -⟩
        rw [scan_eq_ok_iff.2 ⟨rfl, hall⟩] at hscan
        cases hscan
  | ok ws =>
      obtain ⟨rfl, hall⟩ := scan_eq_ok_iff.1 hscan
      refine overlong_iff Unreadable.tooLong (fun w v => ?_) (fun w d => ?_) hall
      · rw [wordValue_eq_ok_iff, and_true]
      · unfold Word.value
        cases Numeral.value w.text <;> simp [Except.mapError]

end Source

/-! ### Lines -/

namespace Listing

variable {file : String} {number : Int} {line : List Char} {vs : List Int} {digits : Nat}

/-- The number that a word of a line is, if it is in range. -/
def readWord (file : String) (number : Int) (line : List Char) (w : Source.Word) :
    Except Fault Int :=
  match Numeral.value w.text with
  | .error digits => .error (.tooLong digits)
  | .ok v =>
      if Cell.InRange v then .ok v else .error (.notANumber file number (excerpt line w.start))

theorem readLine_of_scan_eq_ok {ws : List Source.Word} (h : Source.scan line = .ok ws) :
    readLine file number line = ws.mapM (readWord file number line) := by
  unfold readLine
  rw [h]
  rfl

theorem readLine_of_scan_eq_error {position : Nat} (h : Source.scan line = .error position) :
    readLine file number line = .error (.notANumber file number (excerpt line position)) := by
  unfold readLine
  rw [h]

theorem readWord_eq_ok_iff {w : Source.Word} {v : Int} :
    readWord file number line w = .ok v ↔ Numeral.value w.text = .ok v ∧ Cell.InRange v := by
  unfold readWord
  cases Numeral.value w.text with
  | error digits => simp
  | ok u =>
      by_cases hu : Cell.InRange u
      · simp only [if_pos hu, Except.ok.injEq]
        constructor
        · rintro rfl
          exact ⟨rfl, hu⟩
        · exact fun h => h.1
      · simp only [if_neg hu, Except.ok.injEq]
        constructor
        · intro h
          cases h
        · rintro ⟨rfl, hv⟩
          exact absurd hv hu

theorem readWord_eq_tooLong_iff {w : Source.Word} :
    readWord file number line w = .error (.tooLong digits) ↔
      Numeral.value w.text = .error digits := by
  unfold readWord
  cases Numeral.value w.text with
  | error d => simp
  | ok v =>
      by_cases hv : Cell.InRange v
      · simp [if_pos hv]
      · simp [if_neg hv]

theorem fault_of_readWord {w : Source.Word} {f : Fault}
    (h : readWord file number line w = .error f) :
    (∃ digits, f = .tooLong digits) ∨ f = .notANumber file number (excerpt line w.start) := by
  unfold readWord at h
  cases hvalue : Numeral.value w.text with
  | error digits =>
      rw [hvalue] at h
      cases h
      exact .inl ⟨digits, rfl⟩
  | ok v =>
      simp only [hvalue] at h
      split at h
      · cases h
      · cases h
        exact .inr rfl

/-- **What is read off a line is what is written on it**, if that is in range. -/
theorem readLine_eq_ok_iff :
    readLine file number line = .ok vs ↔ Source.Holds line vs ∧ ∀ v ∈ vs, Cell.InRange v := by
  cases hscan : Source.scan line with
  | error position =>
      rw [readLine_of_scan_eq_error hscan]
      constructor
      · intro h
        cases h
      · rintro ⟨hwrites, -⟩
        rw [Source.scan_eq_ok_iff.2 ⟨rfl, fun w hw => hwrites.isNumeral hw⟩] at hscan
        cases hscan
  | ok ws =>
      obtain ⟨rfl, hall⟩ := Source.scan_eq_ok_iff.1 hscan
      rw [readLine_of_scan_eq_ok hscan]
      exact Source.mapM_words_eq_ok_iff (fun w v => readWord_eq_ok_iff) hall

theorem readLine_eq_tooLong_iff :
    readLine file number line = .error (.tooLong digits) ↔
      Source.Overlong Cell.InRange line digits := by
  cases hscan : Source.scan line with
  | error position =>
      rw [readLine_of_scan_eq_error hscan]
      constructor
      · intro h
        cases h
      · rintro ⟨hall, -⟩
        rw [Source.scan_eq_ok_iff.2 ⟨rfl, hall⟩] at hscan
        cases hscan
  | ok ws =>
      obtain ⟨rfl, hall⟩ := Source.scan_eq_ok_iff.1 hscan
      rw [readLine_of_scan_eq_ok hscan]
      exact Source.overlong_iff Fault.tooLong (fun _ _ => readWord_eq_ok_iff)
        (fun _ _ => readWord_eq_tooLong_iff) hall

/-- **The fault of a line** names it, unless a numeral on it is too long. -/
theorem fault_of_readLine {f : Fault} (h : readLine file number line = .error f) :
    (∃ digits, f = .tooLong digits) ∨
      ∃ position, f = .notANumber file number (excerpt line position) := by
  cases hscan : Source.scan line with
  | error position =>
      rw [readLine_of_scan_eq_error hscan] at h
      cases h
      exact .inr ⟨position, rfl⟩
  | ok ws =>
      rw [readLine_of_scan_eq_ok hscan, mapM_eq_error_iff] at h
      obtain ⟨-, w, -, -, -, hw⟩ := h
      exact (fault_of_readWord hw).imp_right fun hf => ⟨w.start, hf⟩

/-! ### Source text -/

/-- The lines of a source text that belong to the program, with their numbers. -/
def programLines (text : List Char) : List (List Char × Nat) :=
  (Source.numbered (Source.lines text)).filter isProgramLine

/-- The row that a line of source text is read as. -/
def readRow (file : String) (entry : List Char × Nat) : Except Fault Row :=
  (readLine file entry.2 entry.1).map (Row.mk entry.2)

theorem ofText_eq (file : String) (text : List Char) :
    ofText file text = (programLines text).mapM (readRow file) := rfl

variable {entry : List Char × Nat} {row : Row}

theorem readRow_eq_ok_iff :
    readRow file entry = .ok row ↔
      row.number = entry.2 ∧ Source.Holds entry.1 row.values ∧
        ∀ v ∈ row.values, Cell.InRange v := by
  have hline : readLine file entry.2 entry.1 = .ok row.values ↔ _ := readLine_eq_ok_iff
  rw [← hline, readRow]
  cases readLine file entry.2 entry.1 with
  | error f => simp [Except.map]
  | ok vs =>
      simp only [Except.map, Except.ok.injEq]
      constructor
      · rintro rfl
        exact ⟨rfl, rfl⟩
      · rintro ⟨hnumber, rfl⟩
        rw [← hnumber]

theorem readRow_eq_error_iff {f : Fault} :
    readRow file entry = .error f ↔ readLine file entry.2 entry.1 = .error f := by
  unfold readRow
  cases readLine file entry.2 entry.1 with
  | error f' => simp [Except.map]
  | ok vs => simp [Except.map]

/-- **A source text is read** if each of its program lines is. -/
theorem ofText_eq_ok_iff {text : List Char} {listing : Listing} :
    ofText file text = .ok listing ↔
      List.Forall₂ (fun entry row => row.number = (entry.2 : Int) ∧
        Source.Holds entry.1 row.values ∧ ∀ v ∈ row.values, Cell.InRange v)
        (programLines text) listing := by
  rw [ofText_eq, mapM_eq_ok_iff]
  simp only [readRow_eq_ok_iff]

/-- What is read does not depend on the name of the file. -/
theorem ofText_eq_ok_of_file {file' : String} {text : List Char} {listing : Listing}
    (h : ofText file text = .ok listing) : ofText file' text = .ok listing := by
  rw [ofText_eq_ok_iff] at h ⊢
  exact h

/-- No two program lines have one number. -/
theorem nodup_programLines (text : List Char) : ((programLines text).map Prod.snd).Nodup := by
  have hsub : ((programLines text).map Prod.snd).Sublist
      ((Source.numbered (Source.lines text)).map Prod.snd) := List.filter_sublist.map Prod.snd
  have hnumbers : (Source.numbered (Source.lines text)).map Prod.snd =
      List.range' 1 (Source.lines text).length := List.zipIdx_map_snd 1 _
  rw [hnumbers] at hsub
  exact hsub.nodup (List.nodup_range' 1)

/-- **What is read off a source text** lists each line once. -/
theorem nodup_of_ofText {text : List Char} {listing : Listing}
    (h : ofText file text = .ok listing) : (listing.map Row.number).Nodup := by
  rw [ofText_eq] at h
  have hnumbers : listing.map Row.number = ((programLines text).map Prod.snd).map Nat.cast := by
    rw [List.map_map]
    exact map_eq_of_mapM_eq_ok h fun entry row hrow => (readRow_eq_ok_iff.1 hrow).1
  rw [hnumbers]
  exact (nodup_programLines text).map fun _ _ h => Int.natCast_inj.1 h

end Listing

end LineMachine
