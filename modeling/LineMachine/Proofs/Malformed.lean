/-
**Malformed input: what is reported.**

Source text or a case file that cannot be read is reported with the name of the file and the number
of its first faulty line, and the session ends with the status of a failure.  There is one
exception.  Where a line comes to be converted on which all words are numerals, and the first one
that is not accepted has too many digits, conversion itself fails.  Neither the file nor the line is
named then, and the session crashes.

Main definitions:

* `LineMachine.Listing.Answered`, `LineMachine.Case.Answered` — input that is read or reported;
* `LineMachine.Listing.Overlong`, `LineMachine.Case.Overlong` — **input on which a numeral is too
  long**;
* `LineMachine.Session.Opens` — input that can be opened.

Main results:

* `LineMachine.Listing.answered_iff`, `LineMachine.Case.answered_iff` — all other input is read or
  reported;
* `LineMachine.Session.Opens.crashes_iff` — when a session crashes for a numeral;
* `LineMachine.Session.malformed_reported` — **malformed input is reported unless a numeral is too
  long**.
-/

import LineMachine.Proofs.Directives
import LineMachine.Proofs.Refusals
import LineMachine.Proofs.WrittenLines

set_option relaxedAutoImplicit false
set_option autoImplicit false

namespace LineMachine

/-! ### Source text -/

namespace Listing

variable {file : String} {text : List Char} {digits : Nat} {f : Fault}

/-- **A source text on which a numeral is too long**: on the first program line that cannot be
read, the first number that is no cell has too many digits. -/
def Overlong (text : List Char) (digits : Nat) : Prop :=
  ∃ before entry after, programLines text = before ++ entry :: after ∧
    (∀ e ∈ before, ∃ vs, Source.Holds e.1 vs ∧ ∀ v ∈ vs, Cell.InRange v) ∧
    Source.Overlong Cell.InRange entry.1 digits

/-- **A source text is answered**: it is read, or its fault is reported with the name of the file
and the number of a line. -/
def Answered (file : String) (text : List Char) : Prop :=
  (∃ listing, ofText file text = .ok listing) ∨
    ∃ line excerpt, ofText file text = .error (.notANumber file line excerpt)

theorem exists_readRow_iff {entry : List Char × Nat} :
    (∃ row, readRow file entry = .ok row) ↔
      ∃ vs, Source.Holds entry.1 vs ∧ ∀ v ∈ vs, Cell.InRange v := by
  constructor
  · rintro ⟨row, hrow⟩
    exact ⟨row.values, (readRow_eq_ok_iff.1 hrow).2⟩
  · rintro ⟨vs, hvs⟩
    exact ⟨⟨entry.2, vs⟩, readRow_eq_ok_iff.2 ⟨rfl, hvs⟩⟩

theorem ofText_eq_tooLong_iff :
    ofText file text = .error (.tooLong digits) ↔ Overlong text digits := by
  rw [ofText_eq, mapM_eq_error_iff]
  simp only [exists_readRow_iff, readRow_eq_error_iff, readLine_eq_tooLong_iff]
  exact Iff.rfl

/-- **The fault of a source text** names the file and a program line, unless a numeral is too
long. -/
theorem fault_of_ofText (h : ofText file text = .error f) :
    (∃ digits, f = .tooLong digits) ∨
      ∃ entry ∈ programLines text, ∃ position,
        f = .notANumber file entry.2 (excerpt entry.1 position) := by
  rw [ofText_eq, mapM_eq_error_iff] at h
  obtain ⟨before, entry, after, hlines, -, hentry⟩ := h
  rw [readRow_eq_error_iff] at hentry
  rcases fault_of_readLine hentry with hlong | ⟨position, hf⟩
  · exact .inl hlong
  · exact .inr ⟨entry, by simp [hlines], position, hf⟩

/-- **A source text is answered** unless a numeral is too long. -/
theorem answered_iff : Answered file text ↔ ∀ digits, ¬ Overlong text digits := by
  constructor
  · intro h digits hlong
    have hlong : ofText file text = .error (.tooLong digits) := ofText_eq_tooLong_iff.2 hlong
    rcases h with ⟨listing, hread⟩ | ⟨line, excerpt, hreport⟩
    · rw [hread] at hlong
      cases hlong
    · rw [hreport] at hlong
      cases hlong
  · intro h
    cases hread : ofText file text with
    | ok listing => exact .inl ⟨listing, hread⟩
    | error f =>
        rcases fault_of_ofText hread with ⟨digits, rfl⟩ | ⟨entry, -, position, rfl⟩
        · exact absurd (ofText_eq_tooLong_iff.1 hread) (h digits)
        · exact .inr ⟨entry.2, excerpt entry.1 position, hread⟩

end Listing

/-! ### Case files -/

namespace Case

variable {file : String} {lines : List (List Char)} {digits : Nat} {f : Fault}

/-- **A case file on which a numeral is too long**: the first line that cannot be read is a
directive with numbers, and the first of them that cannot be converted has too many digits. -/
def Overlong (lines : List (List Char)) (digits : Nat) : Prop :=
  ∃ before line after cases, lines = before ++ line :: after ∧
    before.foldlM readLine [] = .ok cases ∧
    ∃ leader param, dropLineEnds line = leader :: ' ' :: param ∧ givesNumbers leader ∧
      cases ≠ [] ∧ Source.Overlong (fun _ => True) param digits

/-- **A case file is answered**: it is read, or its fault is reported with the name of the file and
the number of a line. -/
def Answered (file : String) (lines : List (List Char)) : Prop :=
  (∃ cases, ofLines file lines = .ok cases) ∨
    ∃ line defect, ofLines file lines = .error ⟨file, line, defect⟩ ∧
      ∀ digits, defect ≠ .tooLong digits

theorem exists_tooLong_iff :
    (∃ f, ofLines file lines = .error f ∧ f.defect = .tooLong digits) ↔ Overlong lines digits := by
  constructor
  · rintro ⟨f, hf, hdefect⟩
    obtain ⟨-, before, line, after, cases, hlines, hbefore, hline, -⟩ := ofLines_eq_error_iff.1 hf
    rw [hdefect, readLine_eq_tooLong_iff] at hline
    exact ⟨before, line, after, cases, hlines, hbefore, hline⟩
  · rintro ⟨before, line, after, cases, hlines, hbefore, hline⟩
    refine ⟨⟨file, before.length + 1, .tooLong digits⟩, ?_, rfl⟩
    rw [ofLines_eq_error_iff]
    exact ⟨rfl, before, line, after, cases, hlines, hbefore, readLine_eq_tooLong_iff.2 hline, rfl⟩

/-- **A case file is answered** unless a numeral is too long. -/
theorem answered_iff : Answered file lines ↔ ∀ digits, ¬ Overlong lines digits := by
  constructor
  · intro h digits hlong
    obtain ⟨f, hfault, hlong⟩ : ∃ f, ofLines file lines = .error f ∧ f.defect = .tooLong digits :=
      exists_tooLong_iff.2 hlong
    rcases h with ⟨cases, hread⟩ | ⟨line', defect, hreport, hdefect⟩
    · rw [hread] at hfault
      cases hfault
    · rw [hreport] at hfault
      cases hfault
      exact hdefect digits hlong
  · intro h
    cases hread : ofLines file lines with
    | ok cases => exact .inl ⟨cases, hread⟩
    | error f =>
        obtain ⟨file', line, defect⟩ := f
        obtain rfl : file' = file := (ofLines_eq_error_iff.1 hread).1
        refine .inr ⟨line, defect, hread, ?_⟩
        intro digits hdefect
        exact h digits (exists_tooLong_iff.1 ⟨_, hread, hdefect⟩)

end Case

/-! ### Sessions -/

namespace Session

variable {files : Files} {arguments : List String} {o : Options} {fuel : Nat} {input : List Char}

/-- **Input that can be opened**: the arguments are valid and give a number to each push, and the
files that they name have a text and lines. -/
structure Opens (files : Files) (arguments : List String) (o : Options) (text : List Char)
    (lines : List (List Char)) : Prop where
  options : Options.ofArguments arguments = .ok (some o)
  pushes : casesFile? o = none → ∃ pushes, o.pushes.mapM Amount.number? = some pushes
  program : files o.file = .ok text
  cases : ∀ path, casesFile? o = some path → ∃ t, files path = .ok t ∧ Source.lines t = lines

namespace Opens

variable {text : List Char} {lines : List (List Char)}

theorem ofFile_program (h : Opens files arguments o text lines) :
    Listing.ofFile files o.file = Listing.ofText o.file text := by
  unfold Listing.ofFile
  rw [h.program]

theorem ofFile_cases (h : Opens files arguments o text lines) {path : String}
    (hpath : casesFile? o = some path) :
    Case.ofFile files path = (Case.ofLines path lines).mapError .faulty := by
  obtain ⟨t, ht, rfl⟩ := h.cases path hpath
  unfold Case.ofFile Case.ofText
  rw [ht]

/-- **When a session crashes for a numeral**: where the program is read, or the cases behind it. -/
theorem crashes_iff (h : Opens files arguments o text lines) {digits : Nat} :
    (run files arguments fuel input).status = .crashed (.tooLong digits) ↔
      Listing.Overlong text digits ∨
        (∃ program, Listing.ofText o.file text = .ok program) ∧ casesFile? o ≠ none ∧
          Case.Overlong lines digits := by
  have hprogram : Listing.ofText o.file text = .error (.tooLong digits) ↔ _ :=
    Listing.ofText_eq_tooLong_iff
  rw [← hprogram]
  cases hpath : casesFile? o with
  | none =>
      rw [run_of_program h.options hpath, runProgram_status_iff (h.pushes hpath), h.ofFile_program]
      simp
  | some path =>
      rw [run_of_cases h.options hpath]
      have hcases : (∃ f, Case.ofLines path lines = .error f ∧ f.defect = .tooLong digits) ↔ _ :=
        Case.exists_tooLong_iff
      have hfaulty : (∃ f, Case.ofFile files path = .error (.faulty f) ∧
          f.defect = .tooLong digits) ↔ Case.Overlong lines digits := by
        rw [← hcases, h.ofFile_cases hpath]
        cases Case.ofLines path lines with
        | error f => simp [Except.mapError]
        | ok cases => simp [Except.mapError]
      simp only [runCases_status_iff, hfaulty, h.ofFile_program]
      simp

end Opens

theorem opens_program (text : List Char) :
    Opens (fun _ => .ok text) ["p"] { Settings.default with file := "p" } text
      (Source.lines text) where
  options := by decide +kernel
  pushes := fun _ => ⟨[], rfl⟩
  program := rfl
  cases := by
    intro path hpath
    cases hpath

/-- **Malformed input is reported unless a numeral is too long.**  Source text and case files are
answered, and a session that cannot load them says why and gives the status of a failure. -/
theorem malformed_reported (file : String) (text : List Char) (lines : List (List Char)) :
    (Listing.Answered file text ↔ ∀ digits, ¬ Listing.Overlong text digits) ∧
    (Case.Answered file lines ↔ ∀ digits, ¬ Case.Overlong lines digits) ∧
    ∀ (files : Files) (arguments : List String) (o : Options) (fuel : Nat) (input : List Char),
      Opens files arguments o text lines →
      (∀ digits, (run files arguments fuel input).status = .crashed (.tooLong digits) ↔
        Listing.Overlong text digits ∨
          (∃ program, Listing.ofText o.file text = .ok program) ∧ casesFile? o ≠ none ∧
            Case.Overlong lines digits) ∧
      (∀ f, Listing.ofText o.file text = .error f → (∀ digits, f ≠ .tooLong digits) →
        run files arguments fuel input = refuse f.message) ∧
      ∀ program path f, Listing.ofText o.file text = .ok program → casesFile? o = some path →
        Case.ofLines path lines = .error f → (∀ digits, f.defect ≠ .tooLong digits) →
        run files arguments fuel input = refuse f.message := by
  refine ⟨Listing.answered_iff, Case.answered_iff, ?_⟩
  intro files arguments o fuel input h
  refine ⟨fun digits => h.crashes_iff, ?_, ?_⟩
  · intro f hf hlong
    rw [← h.ofFile_program] at hf
    rw [run_of_listing_fault h.options h.pushes hf, refuseListing_of_ne_tooLong hlong]
    exact transcribe_complain o.trace f.message
  · intro program path f hprogram hpath hf hlong
    have hfault := h.ofFile_cases hpath
    rw [hf] at hfault
    rw [← h.ofFile_program] at hprogram
    rw [run_of_cases_fault h.options hpath hprogram hfault, refuseCases_of_ne_tooLong hlong]
    exact transcribe_complain o.trace f.message

/-- A number out of range behind a cell on the first line of the program. -/
theorem malformed_reported_out_of_range :
    run (fun _ => .ok (List.replicate 20 '\n' ++ "1 2147483648".toList)) ["p"] 0 [] =
      refuse "p(21): not a number at '2147483648'" := by
  have hfault : Listing.ofText "p" (List.replicate 20 '\n' ++ "1 2147483648".toList) =
      .error (.notANumber "p" 21 "2147483648") := by decide +kernel
  have hmessage : (Listing.Fault.notANumber "p" 21 "2147483648").message =
      "p(21): not a number at '2147483648'" := by decide +kernel
  obtain ⟨-, -, hsession⟩ := malformed_reported "p" _ _
  obtain ⟨-, hrefused, -⟩ := hsession _ _ _ 0 [] (opens_program _)
  rw [hrefused _ hfault (by simp), hmessage]

/-! ### A numeral that is too long -/

/-- A row of ones on the first line of the program. -/
theorem overlong_ones {n : Nat} (hn : Numeral.maxDigits < n) :
    Listing.Overlong (List.replicate 20 '\n' ++ List.replicate n '1') n := by
  have hones : ∀ c ∈ List.replicate n '1', c = '1' := fun c hc => List.eq_of_mem_replicate hc
  have hlength : (List.replicate n '1').length = n := List.length_replicate
  generalize List.replicate n '1' = ones at hones hlength
  obtain ⟨rest, rfl⟩ : ∃ rest, ones = '1' :: rest := by
    cases ones with
    | nil =>
        simp only [List.length_nil] at hlength
        omega
    | cons c rest =>
        obtain rfl := hones c (List.mem_cons_self ..)
        exact ⟨rest, rfl⟩
  have hlines : Source.lines ('1' :: rest) = [('1' :: rest)] := by
    have hfeed : '\n' ∉ '1' :: rest := fun h => absurd (hones _ h) (by decide)
    have hreturn : ('1' :: rest).getLast? ≠ some '\r' :=
      fun h => absurd (hones _ (List.mem_of_getLast? h)) (by decide)
    rw [Source.lines, Source.pieces_of_not_mem hfeed (by simp)]
    simp only [List.map_cons, List.map_nil, Source.dropReturn, if_neg hreturn]
  have hprogram :
      Listing.programLines (List.replicate 20 '\n' ++ '1' :: rest) = [('1' :: rest, 21)] := by
    have hblank : ((List.replicate 20 []).zipIdx 1).filter Listing.isProgramLine = [] := by decide
    have hone : Listing.isProgramLine ('1' :: rest, 21) := by
      have hcontent : Source.isComment ([] ++ '1' :: rest) = false :=
        Source.isComment_append (by simp) (by decide) rest
      simpa [Listing.isProgramLine] using ⟨by decide, hcontent⟩
    unfold Listing.programLines Source.numbered
    rw [Source.lines_blankLines, hlines, List.zipIdx_append, List.filter_append, hblank]
    simp [hone]
  have hnumeral : Numeral.isNumeral ('1' :: rest) := by
    refine Numeral.isNumeral_iff.2 ⟨by simp [Numeral.unsigned, Numeral.isSign], ?_⟩
    intro c hc
    rw [hones c hc]
    decide
  have hwords : ∃ w, Source.words ('1' :: rest) = [w] ∧ w.text = '1' :: rest := by
    have hspaced : Source.Spaced ([] ++ ('1' :: rest ++ [])) ['1' :: rest] := by
      refine .word (by simp [Source.IsGap]) ⟨by simp, ?_⟩ (by simp [Source.EndsWord])
        (.gap (by simp [Source.IsGap]))
      exact fun c hc => Numeral.isSeparator_eq_false_of_mem hnumeral hc
    rw [List.append_nil] at hspaced
    exact List.map_eq_singleton_iff.1 (Source.map_text_words hspaced)
  obtain ⟨w, hw, htext⟩ := hwords
  refine ⟨[], _, [], hprogram, by simp, ?_, [], w, [], hw, by simp, ?_, hn⟩
  · intro w' hw'
    rw [hw, List.mem_singleton] at hw'
    subst hw'
    rw [htext]
    exact hnumeral
  · rw [htext]
    exact hlength

/-- So long a row of ones is neither read nor reported, and the session crashes. -/
theorem ones_not_answered :
    ¬ Listing.Answered "p" (List.replicate 20 '\n' ++ List.replicate 4301 '1') ∧
      (run (fun _ => .ok (List.replicate 20 '\n' ++ List.replicate 4301 '1')) ["p"] 0 []).status =
        .crashed (.tooLong 4301) := by
  have hdigits : Numeral.maxDigits < 4301 := by decide
  have hlong := overlong_ones hdigits
  constructor
  · rw [Listing.answered_iff]
    exact fun h => h 4301 hlong
  · exact (opens_program _).crashes_iff.2 (.inl hlong)

end Session

end LineMachine
