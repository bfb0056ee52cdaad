/-
**Bad lines: what can be wrong with a line of a case file.**

A line of a case file is bad for one of seven reasons.  They depend on the line, on whether some line
before it declares a case, and on nothing else.  Reading is here compared with them: where no numeral
is too long to be converted, a line is refused just if it is bad, and for that reason.

Main definitions:

* `LineMachine.Case.parameter?` — the parameter of a line with a leader;
* `LineMachine.Case.Reason`, `LineMachine.Case.Bad`, `LineMachine.Case.Sound` — **what is wrong with
  a line**, bad lines, and files without one;
* `LineMachine.Case.Extends` — what a line that is not bad does to the cases.

Main results:

* `LineMachine.Case.direct_eq_error_iff`, `LineMachine.Case.readLine_eq_error_iff` — **when a line is
  refused, and why**;
* `LineMachine.Case.extends_of_readLine` — what any other line does.
-/

import LineMachine.Proofs.CaseLayout
import LineMachine.Proofs.Grammar

set_option relaxedAutoImplicit false
set_option autoImplicit false

namespace LineMachine

namespace Case

open Source (Holds grammar words)

variable {file : String} {line param : List Char} {ls lines : List (List Char)}
variable {c c' : Case} {cs cases cases' : List Case} {d : Defect} {v : Int} {vs : List Int}

/-! ### Bad lines -/

/-- The parameter of a line with a leader. -/
def parameter? (leader : Char) (line : List Char) : Option (List Char) :=
  match dropLineEnds line with
  | l :: space :: param => if l = leader ∧ space = ' ' then some param else none
  | _ => none

theorem parameter?_eq_some_iff {leader : Char} :
    parameter? leader line = some param ↔ dropLineEnds line = leader :: ' ' :: param := by
  unfold parameter?
  generalize dropLineEnds line = text
  split
  · simp only [Option.ite_none_right_eq_some, Option.some.injEq, List.cons.injEq]
    exact and_assoc
  · rename_i hshape
    constructor
    · intro h
      cases h
    · intro h
      exact (hshape _ _ _ h).elim

/-- Whether one of several lines declares a case. -/
def Declared (ls : List (List Char)) : Prop := ∃ line ∈ ls, parameter? '=' line ≠ none

/-- **What is wrong with a line** without its line ends, which depends on whether a case has been
declared before it. -/
inductive Reason (declared : Prop) : List Char → Defect → Prop where
  | missingLeader {text : List Char} (h : text.length < 2) : Reason declared text .missingLeader
  | missingSpace {leader space : Char} {param : List Char} (h : space ≠ ' ') :
      Reason declared (leader :: space :: param) .missingSpace
  | noCase {leader : Char} {param : List Char} (hleader : givesNumbers leader) (h : ¬ declared) :
      Reason declared (leader :: ' ' :: param) .noCase
  | unreadableStart {param : List Char} (h : declared)
      (hparam : ¬ (param ∈ grammar ∧ (words param).length = 1)) :
      Reason declared ('@' :: ' ' :: param) .unreadableStart
  | lowStart {param : List Char} {v : Int} (h : declared) (hparam : Holds param [v])
      (hv : v < firstLine) : Reason declared ('@' :: ' ' :: param) .lowStart
  | unreadableNumber {leader : Char} {param : List Char} (h : declared)
      (hleader : leader = '^' ∨ leader = 'v') (hparam : param ∉ grammar) :
      Reason declared (leader :: ' ' :: param) .unreadableNumber
  | badLeader {leader : Char} {param : List Char} (hname : leader ≠ '=')
      (hnumbers : ¬ givesNumbers leader) : Reason declared (leader :: ' ' :: param) .badLeader

/-- **A bad line** behind others: it has content, and something is wrong with it. -/
structure Bad (before : List (List Char)) (line : List Char) (d : Defect) : Prop where
  content : Source.isComment (dropLineEnds line) = false
  reason : Reason (Declared before) (dropLineEnds line) d

/-- **Lines of which none is bad.** -/
def Sound (lines : List (List Char)) : Prop :=
  ∀ before line after d, lines = before ++ line :: after → ¬ Bad before line d

/-- No numeral of a parameter is too long to be converted. -/
def Short (param : List Char) : Prop :=
  ∀ w ∈ words param, Numeral.isNumeral w.text →
    (Numeral.unsigned w.text).length ≤ Numeral.maxDigits

instance : DecidablePred Short := fun param => List.decidableBAll _ (words param)

/-- A line that gives no numeral that is too long to be converted. -/
def Convertible (line : List Char) : Prop :=
  ∀ leader ∈ ['@', '^', 'v'], ∀ param ∈ parameter? leader line, Short param

instance : DecidablePred Convertible := fun line =>
  have (leader : Char) : Decidable (∀ param ∈ parameter? leader line, Short param) :=
    Option.decidableForallMem (parameter? leader line)
  List.decidableBAll _ ['@', '^', 'v']

theorem sound_nil : Sound [] := by
  intro before line after d h
  simp at h

theorem sound_append_singleton :
    Sound (ls ++ [line]) ↔ Sound ls ∧ ∀ d, ¬ Bad ls line d := by
  constructor
  · intro h
    refine ⟨?_, fun d => h ls line [] d rfl⟩
    rintro before bad after d rfl
    exact h before bad (after ++ [line]) d (by simp)
  · rintro ⟨hls, hline⟩ before bad after d heq
    rcases List.eq_nil_or_concat after with rfl | ⟨after, last, rfl⟩
    · obtain ⟨rfl, hbad⟩ := List.append_inj' heq rfl
      cases hbad
      exact hline d
    · have hassoc : before ++ bad :: (after ++ [last]) = (before ++ bad :: after) ++ [last] := by
        simp
      rw [List.concat_eq_append, hassoc] at heq
      obtain ⟨rfl, -⟩ := List.append_inj' heq rfl
      exact hls before bad after d rfl

/-! ### The numbers of a directive -/

theorem Short.exists_holds (hshort : Short param) (hmem : param ∈ grammar) :
    ∃ vs, Holds param vs := by
  simp only [Source.holds_iff]
  refine exists_forall₂ fun w hw => ?_
  have hnumeral := Source.mem_grammar_iff.1 hmem w hw
  have hlength := hshort w hw hnumeral
  simp only [Numeral.writes_iff]
  exact ⟨_, hnumeral, if_neg (Nat.not_lt.2 hlength)⟩

theorem length_words_of_holds (h : Holds param vs) : (words param).length = vs.length :=
  (Source.holds_iff.1 h).length_eq

theorem numbers_eq_ok_iff : numbers param d = .ok vs ↔ Holds param vs := by
  rw [← Source.readNumbers_eq_ok_iff]
  unfold numbers
  cases Source.readNumbers param with
  | ok vs' => simp
  | error e => cases e <;> simp

/-- A parameter without long numerals gives no numbers just if it is ungrammatical. -/
theorem numbers_eq_error_iff {d' : Defect} (hshort : Short param) :
    numbers param d = .error d' ↔ param ∉ grammar ∧ d' = d := by
  by_cases hmem : param ∈ grammar
  · obtain ⟨vs, hvs⟩ := hshort.exists_holds hmem
    rw [numbers_eq_ok_iff.2 hvs]
    simp [hmem]
  · have hread : ∃ position, Source.readNumbers param = .error (.ungrammatical position) := by
      unfold Source.readNumbers
      cases hscan : Source.scan param with
      | ok ws => exact absurd (Source.scan_eq_ok_iff_mem_grammar.1 hscan).1 hmem
      | error position => exact ⟨position, rfl⟩
    obtain ⟨position, hread⟩ := hread
    unfold numbers
    rw [hread]
    simp [hmem, eq_comm]

theorem setStart_eq_ok_iff :
    c.setStart param = .ok c' ↔
      ∃ v, Holds param [v] ∧ firstLine ≤ v ∧ c' = { c with start := some v } := by
  simp only [← numbers_eq_ok_iff (d := .unreadableStart)]
  unfold setStart
  cases numbers param .unreadableStart with
  | error d => simp
  | ok vs =>
      rcases vs with _ | ⟨v, _ | ⟨w, vs⟩⟩
      · simp
      · by_cases hv : v < firstLine
        · simp [hv]
        · simp [hv, Int.not_lt.1 hv, eq_comm]
      · simp

theorem setStart_eq_error_iff (hshort : Short param) :
    c.setStart param = .error d ↔
      (¬ (param ∈ grammar ∧ (words param).length = 1) ∧ d = .unreadableStart) ∨
      (∃ v, Holds param [v] ∧ v < firstLine) ∧ d = .lowStart := by
  unfold setStart
  cases hnumbers : numbers param .unreadableStart with
  | error d' =>
      obtain ⟨hmem, rfl⟩ := (numbers_eq_error_iff hshort).1 hnumbers
      have hnone : ¬ ∃ v, Holds param [v] ∧ v < firstLine := by
        rintro ⟨v, hv, -⟩
        exact hmem hv.mem_grammar
      simp [hmem, hnone, eq_comm]
  | ok vs =>
      have hvs := numbers_eq_ok_iff.1 hnumbers
      have hmem := hvs.mem_grammar
      have hlength := length_words_of_holds hvs
      rcases vs with _ | ⟨v, _ | ⟨w, vs⟩⟩
      · have hnone : ¬ ∃ v, Holds param [v] ∧ v < firstLine := by
          rintro ⟨v, hv, -⟩
          cases hvs.unique hv
        simp [hlength, hnone, eq_comm]
      · have hlow : (∃ u, Holds param [u] ∧ u < firstLine) ↔ v < firstLine := by
          constructor
          · rintro ⟨u, hu, hlt⟩
            cases hvs.unique hu
            exact hlt
          · intro hlt
            exact ⟨v, hvs, hlt⟩
        rw [hlow]
        by_cases hv : v < firstLine
        · simp [hmem, hlength, hv, eq_comm]
        · simp [hmem, hlength, hv]
      · have hnone : ¬ ∃ v, Holds param [v] ∧ v < firstLine := by
          rintro ⟨v, hv, -⟩
          cases hvs.unique hv
        simp [hlength, hnone, eq_comm]

theorem addNumbers_eq_ok_iff {add : List Int → Case} :
    (numbers param .unreadableNumber).map add = .ok c' ↔ ∃ vs, Holds param vs ∧ c' = add vs := by
  simp only [← numbers_eq_ok_iff (d := .unreadableNumber)]
  cases numbers param .unreadableNumber with
  | error d => simp [Except.map]
  | ok vs => simp [Except.map, eq_comm]

theorem addNumbers_eq_error_iff {add : List Int → Case} (hshort : Short param) :
    (numbers param .unreadableNumber).map add = .error d ↔
      param ∉ grammar ∧ d = .unreadableNumber := by
  rw [← numbers_eq_error_iff hshort]
  cases numbers param .unreadableNumber with
  | error d => simp [Except.map]
  | ok vs => simp [Except.map]

/-! ### What is wrong with a line -/

section Reasons

variable {declared : Prop} {leader : Char}

theorem reason_short_iff {text : List Char} (h : text.length < 2) :
    Reason declared text d ↔ d = .missingLeader := by
  constructor
  · intro hreason
    cases hreason with
    | missingLeader _ => rfl
    | missingSpace _ | noCase _ _ | unreadableStart _ _ | lowStart _ _ _ | unreadableNumber _ _ _
    | badLeader _ _ =>
        simp only [List.length_cons] at h
        omega
  · rintro rfl
    exact .missingLeader h

theorem reason_unspaced_iff {space : Char} (h : space ≠ ' ') :
    Reason declared (leader :: space :: param) d ↔ d = .missingSpace := by
  constructor
  · intro hreason
    cases hreason with
    | missingLeader hlength =>
        simp only [List.length_cons] at hlength
        omega
    | missingSpace _ => rfl
    | noCase _ _ | unreadableStart _ _ | lowStart _ _ _ | unreadableNumber _ _ _ | badLeader _ _ =>
        exact absurd rfl h
  · rintro rfl
    exact .missingSpace h

/-- What can be wrong with a line that has a leader and a space. -/
theorem reason_spaced_iff :
    Reason declared (leader :: ' ' :: param) d ↔
      (givesNumbers leader ∧ ¬ declared ∧ d = .noCase) ∨
      (leader = '@' ∧ declared ∧
        ((¬ (param ∈ grammar ∧ (words param).length = 1) ∧ d = .unreadableStart) ∨
          (∃ v, Holds param [v] ∧ v < firstLine) ∧ d = .lowStart)) ∨
      ((leader = '^' ∨ leader = 'v') ∧ declared ∧ param ∉ grammar ∧ d = .unreadableNumber) ∨
      (leader ≠ '=' ∧ ¬ givesNumbers leader ∧ d = .badLeader) := by
  constructor
  · intro hreason
    cases hreason with
    | missingLeader hlength =>
        simp only [List.length_cons] at hlength
        omega
    | missingSpace h => exact absurd rfl h
    | noCase hleader h => exact .inl ⟨hleader, h, rfl⟩
    | unreadableStart h hparam => exact .inr (.inl ⟨rfl, h, .inl ⟨hparam, rfl⟩⟩)
    | lowStart h hparam hv => exact .inr (.inl ⟨rfl, h, .inr ⟨⟨_, hparam, hv⟩, rfl⟩⟩)
    | unreadableNumber h hleader hparam => exact .inr (.inr (.inl ⟨hleader, h, hparam, rfl⟩))
    | badLeader hname hnumbers => exact .inr (.inr (.inr ⟨hname, hnumbers, rfl⟩))
  · rintro (⟨hleader, h, rfl⟩ | ⟨rfl, h, ⟨hparam, rfl⟩ | ⟨⟨v, hparam, hv⟩, rfl⟩⟩ |
      ⟨hleader, h, hparam, rfl⟩ | ⟨hname, hnumbers, rfl⟩)
    · exact .noCase hleader h
    · exact .unreadableStart h hparam
    · exact .lowStart h hparam hv
    · exact .unreadableNumber h hleader hparam
    · exact .badLeader hname hnumbers

theorem changeLast_eq_error_iff {change : Case → Except Defect Case} {P : Prop}
    (hchange : ∀ c, change c = .error d ↔ P) :
    changeLast change cases = .error d ↔ (¬ cases ≠ [] ∧ d = .noCase) ∨ (cases ≠ [] ∧ P) := by
  cases cases with
  | nil => simp [changeLast, eq_comm]
  | cons c cs =>
      rw [← hchange c, changeLast]
      cases change c with
      | error d => simp [Except.map]
      | ok c' => simp [Except.map]

/-- **A directive is refused** for what is wrong with it. -/
theorem direct_eq_error_iff (hshort : givesNumbers leader → Short param) :
    direct cases leader param = .error d ↔ Reason (cases ≠ []) (leader :: ' ' :: param) d := by
  rw [reason_spaced_iff]
  unfold direct
  split
  · simp [givesNumbers]
  · have hparam := hshort (.inl rfl)
    rw [changeLast_eq_error_iff fun c => setStart_eq_error_iff hparam]
    simp [givesNumbers]
  · have hadd (c : Case) : c.addInputs param = .error d ↔ _ :=
      addNumbers_eq_error_iff (hshort (.inr (.inl rfl)))
    rw [changeLast_eq_error_iff hadd]
    simp [givesNumbers]
  · have hadd (c : Case) : c.addOutputs param = .error d ↔ _ :=
      addNumbers_eq_error_iff (hshort (.inr (.inr rfl)))
    rw [changeLast_eq_error_iff hadd]
    simp [givesNumbers]
  · rename_i hname hstart hinputs houtputs
    have hleaders : leader ≠ '=' ∧ leader ≠ '@' ∧ leader ≠ '^' ∧ leader ≠ 'v' :=
      ⟨hname, hstart, hinputs, houtputs⟩
    simp [givesNumbers, hleaders, eq_comm]

/-- **A line is refused** if it has content, for what is wrong with it. -/
theorem readLine_eq_error_iff (hconvertible : Convertible line) :
    readLine cases line = .error d ↔
      Source.isComment (dropLineEnds line) = false ∧
        Reason (cases ≠ []) (dropLineEnds line) d := by
  cases hcomment : Source.isComment (dropLineEnds line) with
  | true =>
      rw [readLine_of_isComment hcomment]
      simp
  | false =>
      simp only [true_and]
      by_cases hlength : (dropLineEnds line).length < 2
      · rw [readLine_of_length_lt hcomment hlength, reason_short_iff hlength, Except.error.injEq,
          eq_comm]
      · obtain ⟨leader, space, param, hline⟩ :
            ∃ leader space param, dropLineEnds line = leader :: space :: param := by
          rcases hline : dropLineEnds line with _ | ⟨leader, _ | ⟨space, param⟩⟩
          · simp [hline] at hlength
          · simp [hline] at hlength
          · exact ⟨leader, space, param, rfl⟩
        by_cases hspace : space = ' '
        · subst hspace
          have hparam (hleader : givesNumbers leader) : Short param := by
            refine hconvertible leader ?_ param (parameter?_eq_some_iff.2 hline)
            simpa [givesNumbers] using hleader
          rw [readLine_of_directive hcomment hline, hline, direct_eq_error_iff hparam]
        · rw [readLine_of_ne_space hcomment hline hspace, hline, reason_unspaced_iff hspace,
            Except.error.injEq, eq_comm]

end Reasons

/-! ### What a line does to the cases -/

/-- **What a line that is not bad does to the cases**, of which the one that was declared last comes
first. -/
inductive Extends (line : List Char) : List Case → List Case → Prop where
  | remark {cases : List Case} (h : Source.isComment (dropLineEnds line)) : Extends line cases cases
  | name {cases : List Case} {name : List Char} (h : parameter? '=' line = some name) :
      Extends line cases (named (String.ofList name) :: cases)
  | start {c : Case} {cs : List Case} {param : List Char} {v : Int}
      (h : parameter? '@' line = some param) (hparam : Holds param [v]) (hv : firstLine ≤ v) :
      Extends line (c :: cs) ({ c with start := some v } :: cs)
  | inputs {c : Case} {cs : List Case} {param : List Char} {vs : List Int}
      (h : parameter? '^' line = some param) (hparam : Holds param vs) :
      Extends line (c :: cs) ({ c with inputs := c.inputs ++ vs } :: cs)
  | outputs {c : Case} {cs : List Case} {param : List Char} {vs : List Int}
      (h : parameter? 'v' line = some param) (hparam : Holds param vs) :
      Extends line (c :: cs) ({ c with outputs := c.outputs ++ vs } :: cs)

theorem changeLast_eq_ok {change : Case → Except Defect Case}
    (h : changeLast change cases = .ok cases') :
    ∃ c cs c', cases = c :: cs ∧ change c = .ok c' ∧ cases' = c' :: cs := by
  cases cases with
  | nil => cases h
  | cons c cs =>
      cases hchange : change c with
      | error d =>
          rw [changeLast, hchange] at h
          cases h
      | ok c' =>
          rw [changeLast, hchange] at h
          cases h
          exact ⟨c, cs, c', rfl, hchange, rfl⟩

theorem extends_of_direct {leader : Char} (hline : parameter? leader line = some param)
    (h : direct cases leader param = .ok cases') : Extends line cases cases' := by
  unfold direct at h
  split at h
  · cases h
    exact .name hline
  · obtain ⟨c, cs, _, rfl, hc, rfl⟩ := changeLast_eq_ok h
    obtain ⟨v, hparam, hv, rfl⟩ := setStart_eq_ok_iff.1 hc
    exact .start hline hparam hv
  · obtain ⟨c, cs, _, rfl, hc, rfl⟩ := changeLast_eq_ok h
    obtain ⟨vs, hparam, rfl⟩ := addNumbers_eq_ok_iff.1 hc
    exact .inputs hline hparam
  · obtain ⟨c, cs, _, rfl, hc, rfl⟩ := changeLast_eq_ok h
    obtain ⟨vs, hparam, rfl⟩ := addNumbers_eq_ok_iff.1 hc
    exact .outputs hline hparam
  · cases h

theorem extends_of_readLine (h : readLine cases line = .ok cases') : Extends line cases cases' := by
  cases hcomment : Source.isComment (dropLineEnds line) with
  | true =>
      rw [readLine_of_isComment hcomment] at h
      cases h
      exact .remark hcomment
  | false =>
      rcases hline : dropLineEnds line with _ | ⟨leader, _ | ⟨space, param⟩⟩
      · rw [readLine_of_length_lt hcomment (by simp [hline])] at h
        cases h
      · rw [readLine_of_length_lt hcomment (by simp [hline])] at h
        cases h
      · by_cases hspace : space = ' '
        · subst hspace
          rw [readLine_of_directive hcomment hline] at h
          exact extends_of_direct (parameter?_eq_some_iff.2 hline) h
        · rw [readLine_of_ne_space hcomment hline hspace] at h
          cases h

end Case

end LineMachine
