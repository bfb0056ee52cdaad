/-
**Laid out listings.**

A listing is laid out as text line by line: the numbers of a row stand on the text line that has its
number, and any other line that could belong to the program is left without content.  Whatever the
layout, the text is read as the listing again, and program memory then holds the listing and nothing
else.

Main definitions:

* `LineMachine.Listing.Writable`, `LineMachine.Listing.LaidOut` — listings that can be written, and
  **lines that lay a listing out**;
* `LineMachine.Memory.Stores` — memory that holds a listing and nothing else.

Main results:

* `LineMachine.Memory.stores_load` — what a listing becomes that is loaded into empty memory;
* `LineMachine.Listing.LaidOut.ofText_eq_ok` — a listing that is laid out is read;
* `LineMachine.Listing.ofText_of_laidOut` — **a listing that is laid out is read and loaded**.
-/

import LineMachine.Proofs.ProgramLines
import LineMachine.Proofs.ProgramMemory
import LineMachine.Proofs.WrittenLines

set_option relaxedAutoImplicit false
set_option autoImplicit false

namespace LineMachine

/-! ### Memory that holds a listing -/

namespace Listing

/-- **A listing that can be written**: it lists each line once, only lines that are compiled, and on
each of them at least one number, all in the range of cells. -/
structure Writable (listing : Listing) : Prop where
  nodup : (listing.map Row.number).Nodup
  isCompiled : ∀ row ∈ listing, IsCompiled row.number
  values_ne_nil : ∀ row ∈ listing, row.values ≠ []
  inRange : ∀ row ∈ listing, ∀ v ∈ row.values, Cell.InRange v

theorem Writable.perm {l₁ l₂ : Listing} (h : l₁.Writable) (hperm : l₂.Perm l₁) : l₂.Writable where
  nodup := (hperm.map Row.number).nodup_iff.2 h.nodup
  isCompiled := fun row hrow => h.isCompiled row (hperm.mem_iff.1 hrow)
  values_ne_nil := fun row hrow => h.values_ne_nil row (hperm.mem_iff.1 hrow)
  inRange := fun row hrow => h.inRange row (hperm.mem_iff.1 hrow)

/-- A listing that is not empty has a last line. -/
theorem exists_last {listing : Listing} (hne : listing ≠ []) :
    ∃ last ∈ listing, ∀ row ∈ listing, row.number ≤ last.number := by
  induction listing with
  | nil => exact absurd rfl hne
  | cons row listing ih =>
      by_cases hnil : listing = []
      · subst hnil
        exact ⟨row, by simp, by simp⟩
      · obtain ⟨last, hmem, hlast⟩ := ih hnil
        by_cases hle : row.number ≤ last.number
        · refine ⟨last, List.mem_cons_of_mem _ hmem, ?_⟩
          intro r hr
          rcases List.mem_cons.1 hr with rfl | hr
          · exact hle
          · exact hlast r hr
        · refine ⟨row, List.mem_cons_self .., ?_⟩
          intro r hr
          rcases List.mem_cons.1 hr with rfl | hr
          · exact Int.le_refl _
          · have := hlast r hr
            omega

end Listing

namespace Memory

/-- **Memory that holds a listing and nothing else**, and that reaches as far as its last line. -/
structure Stores (m : Memory) (listing : Listing) : Prop where
  line_of_mem : ∀ row ∈ listing, (m.line row.number).map Int32.toInt = row.values
  line_eq_nil : ∀ k, (∀ row ∈ listing, row.number ≠ k) → m.line k = []
  size_eq_zero : listing = [] → m.size = 0
  size_eq : listing ≠ [] →
    ∃ last ∈ listing, (m.size : Int) = last.number + 1 ∧ ∀ row ∈ listing, row.number ≤ last.number

theorem Stores.perm {m : Memory} {l₁ l₂ : Listing} (h : m.Stores l₁) (hperm : l₁.Perm l₂) :
    m.Stores l₂ where
  line_of_mem := by
    intro row hrow
    exact h.line_of_mem row (hperm.mem_iff.2 hrow)
  line_eq_nil := by
    intro k hk
    refine h.line_eq_nil k ?_
    intro row hrow
    exact hk row (hperm.mem_iff.1 hrow)
  size_eq_zero := by
    rintro rfl
    exact h.size_eq_zero hperm.eq_nil
  size_eq := by
    intro hne
    have hne₁ : l₁ ≠ [] := by
      rintro rfl
      exact hne hperm.symm.eq_nil
    obtain ⟨last, hlast, hsize, hmax⟩ := h.size_eq hne₁
    refine ⟨last, hperm.mem_iff.1 hlast, hsize, ?_⟩
    intro row hrow
    exact hmax row (hperm.mem_iff.2 hrow)

/-- **What a listing becomes** that is loaded into empty memory. -/
theorem stores_load {listing : Listing} (h : listing.Writable) :
    (Memory.empty.load listing).Stores listing := by
  have hlisted : ∀ row ∈ listing,
      ((Memory.empty.load listing).line row.number).map Int32.toInt = row.values := by
    intro row hrow
    rw [line_load_of_mem _ h.nodup hrow (h.isCompiled row hrow), line_empty, List.nil_append]
    exact Cell.map_toInt_map_wrap (h.inRange row hrow)
  refine ⟨hlisted, ?_, ?_, ?_⟩
  · intro k hk
    rw [line_load_of_not_mem _ hk, line_empty]
  · rintro rfl
    rfl
  · intro hne
    obtain ⟨last, hlast, hmax⟩ := Listing.exists_last hne
    refine ⟨last, hlast, ?_, hmax⟩
    have hle : ((Memory.empty.load listing).size : Int) ≤ last.number + 1 := by
      have hfirst := (h.isCompiled last hlast).1
      unfold firstLine at hfirst
      refine size_load_le (by rw [size_empty]; omega) fun row hrow => ?_
      have := hmax row hrow
      omega
    have hlt : last.number < (Memory.empty.load listing).size := by
      refine lt_size_of_line_ne_nil fun hnil => h.values_ne_nil last hlast ?_
      rw [← hlisted last hlast, hnil]
      rfl
    omega

end Memory

/-! ### Layouts -/

namespace Listing

open Source (numbered)

variable {D : Listing} {ls : List (List Char)}

/-- **Lines that lay a listing out**: the numbers of each row are written on the line that has its
number, and the other lines that could belong to the program have no content. -/
structure LaidOut (D : Listing) (ls : List (List Char)) : Prop where
  listed : ∀ row ∈ D, ∃ entry ∈ numbered ls, (entry.2 : Int) = row.number ∧
    Source.Holds entry.1 row.values
  other : ∀ entry ∈ numbered ls, IsCompiled entry.2 → (∀ row ∈ D, row.number ≠ entry.2) →
    Source.Remark entry.1

namespace LaidOut

/-- The line on which a row is written belongs to the program, and the row is read off it. -/
theorem readRow_of_holds (file : String) (hD : D.Writable) {row : Row} (hrow : row ∈ D)
    {entry entry' : List Char × Nat} (hread : Source.ReadsAs entry.1 entry'.1)
    (hnumber : (entry'.2 : Int) = row.number) (hholds : Source.Holds entry.1 row.values) :
    isProgramLine entry' ∧ readRow file entry' = .ok row := by
  have hcontent := hholds.isComment_eq_false (hD.values_ne_nil row hrow)
  have hcompiled := hD.isCompiled row hrow
  constructor
  · simp [isProgramLine, hnumber, hcompiled, hread.isComment_eq, hcontent]
  · rw [readRow_eq_ok_iff, hread.holds_iff]
    exact ⟨hnumber.symm, hholds, hD.inRange row hrow⟩

/-- Each line that belongs to the program is the line of a row, on which the row is written. -/
theorem exists_row (h : D.LaidOut ls) {entry entry' : List Char × Nat} (hmem : entry ∈ numbered ls)
    (hread : Source.ReadsAs entry.1 entry'.1) (hnumber : entry.2 = entry'.2)
    (hline : isProgramLine entry') :
    ∃ row ∈ D, (entry'.2 : Int) = row.number ∧ Source.Holds entry.1 row.values := by
  have hprogram : IsCompiled entry.2 ∧ Source.isComment entry.1 = false := by
    simpa [isProgramLine, hread.isComment_eq, hnumber] using hline
  by_cases hlisted : ∃ row ∈ D, row.number = entry.2
  · obtain ⟨row, hrow, hrownumber⟩ := hlisted
    obtain ⟨entry₁, hmem₁, hnumber₁, hholds⟩ := h.listed row hrow
    obtain rfl : entry₁ = entry := Source.eq_of_mem_numbered hmem₁ hmem (by omega)
    exact ⟨row, hrow, by omega, hholds⟩
  · -- otherwise it would have no content
    have hremark := h.other entry hmem hprogram.1 fun row hrow heq => hlisted ⟨row, hrow, heq⟩
    rw [Source.isComment_iff.2 hremark] at hprogram
    cases hprogram.2

end LaidOut

/-- **A listing that is laid out is read**, up to the order of its rows. -/
theorem LaidOut.ofText_eq_ok (file : String) (hD : D.Writable) (h : D.LaidOut ls) {text : List Char}
    (htext : Source.WritesLines text ls) :
    ∃ listing, ofText file text = .ok listing ∧ listing.Perm D := by
  have hread := Source.numbered_readsAs htext.readsAs
  rw [ofText_eq]
  -- what the program lines are read as
  have hrows : ∀ entry' ∈ programLines text, ∃ row ∈ D, readRow file entry' = .ok row := by
    intro entry' hentry'
    obtain ⟨hmem', hline⟩ := List.mem_filter.1 hentry'
    obtain ⟨entry, hmem, hreads, hnumber⟩ := exists_mem_left hread hmem'
    obtain ⟨row, hrow, hrownumber, hholds⟩ := h.exists_row hmem hreads hnumber hline
    exact ⟨row, hrow, (LaidOut.readRow_of_holds file hD hrow hreads hrownumber hholds).2⟩
  obtain ⟨listing, hlisting⟩ := exists_mapM_eq_ok fun entry' hentry' =>
    (hrows entry' hentry').imp fun row hrow => hrow.2
  refine ⟨listing, hlisting, ?_⟩
  have hnodup : (listing.map Row.number).Nodup := nodup_of_ofText hlisting
  have hmem : ∀ row, row ∈ listing ↔ row ∈ D := by
    intro row
    rw [mem_iff_of_mapM_eq_ok hlisting]
    constructor
    · rintro ⟨entry', hentry', hrow⟩
      obtain ⟨row', hrow', hreads⟩ := hrows entry' hentry'
      rw [hrow] at hreads
      cases hreads
      exact hrow'
    · intro hrow
      obtain ⟨entry, hmem, hnumber, hholds⟩ := h.listed row hrow
      obtain ⟨entry', hmem', hreads, hnumber'⟩ := exists_mem_right hread hmem
      obtain ⟨hline, hreadrow⟩ :=
        LaidOut.readRow_of_holds file hD hrow hreads (by omega) hholds
      exact ⟨entry', List.mem_filter.2 ⟨hmem', hline⟩, hreadrow⟩
  exact (List.perm_ext_iff_of_nodup (hnodup.of_map _) (hD.nodup.of_map _)).2 hmem

/-- **A listing that is laid out is read and loaded.**  A machine that a text is loaded into on
which a listing is laid out holds that listing in its memory, and nothing else. -/
theorem ofText_of_laidOut (hD : D.Writable) (h : D.LaidOut ls) {text : List Char}
    (htext : Source.WritesLines text ls) (file : String) :
    ∃ listing, ofText file text = .ok listing ∧ listing.Perm D ∧
      ∀ (input : List Char) (output : Sink),
        ((Machine.fresh input output).load listing).memory.Stores D := by
  obtain ⟨listing, hlisting, hperm⟩ := h.ofText_eq_ok file hD htext
  refine ⟨listing, hlisting, hperm, fun input output => ?_⟩
  exact (Memory.stores_load (hD.perm hperm)).perm hperm

/-- Two rows with signs and zeros in front, among headers, an empty line and a remark behind an
unusual blank; the lines end in either way, and the last one not at all. -/
theorem ofText_of_laidOut_signs_and_remarks :
    ∃ listing, ofText "p" (List.replicate 19 '\n' ++ ("a header".toList ++ '\n' ::
        (" +1\t-02 000 ".toList ++ '\r' :: '\n' ::
          ("\u00a0# 1 two".toList ++ '\n' :: ([] ++ '\r' :: '\n' :: "42\r-7".toList))))) =
        .ok listing ∧
      listing.Perm [⟨24, [42, -7]⟩, ⟨21, [1, -2, 0]⟩] ∧
      ∀ (input : List Char) (output : Sink),
        ((Machine.fresh input output).load listing).memory.Stores
          [⟨24, [42, -7]⟩, ⟨21, [1, -2, 0]⟩] := by
  let D : Listing := [⟨24, [42, -7]⟩, ⟨21, [1, -2, 0]⟩]
  let ls : List (List Char) := List.replicate 19 [] ++
    ["a header".toList, " +1\t-02 000 ".toList, "\u00a0# 1 two".toList, [], "42\r-7".toList]
  have hD : D.Writable := ⟨by decide, by decide, by decide, by decide⟩
  have htext : Source.WritesLines _ ls :=
    .blankLines 19 (.feed (by decide) (.returnFeed (by decide) (.feed (by decide)
      (.returnFeed (by decide) (.unended (by decide) (by decide))))))
  have hfirst : Source.Holds " +1\t-02 000 ".toList [1, -2, 0] := by
    have hwords : (Source.words " +1\t-02 000 ".toList).map Source.Word.text =
        ["+1".toList, "-02".toList, "000".toList] := by decide +kernel
    refine ⟨_, Source.spaced_iff.2 hwords, .cons (.plus 0 1 ?_) (.cons (.minus 1 2 ?_)
      (.cons (.plain 2 0 ?_) .nil))⟩
    all_goals decide +kernel
  have hsecond : Source.Holds "42\r-7".toList [42, -7] := by
    have hwords : (Source.words "42\r-7".toList).map Source.Word.text =
        ["42".toList, "-7".toList] := by decide +kernel
    refine ⟨_, Source.spaced_iff.2 hwords, .cons (.plain 0 42 ?_) (.cons (.minus 0 7 ?_) .nil)⟩
    all_goals decide +kernel
  have hlaid : D.LaidOut ls := by
    refine ⟨fun row hrow => ?_, ?_⟩
    · rcases List.mem_cons.1 hrow with rfl | hrow
      · exact ⟨("42\r-7".toList, 24), by decide, rfl, hsecond⟩
      · obtain rfl := List.mem_singleton.1 hrow
        exact ⟨(" +1\t-02 000 ".toList, 21), by decide, rfl, hfirst⟩
    · have hcomment : ∀ entry ∈ numbered ls, IsCompiled entry.2 →
          (∀ row ∈ D, row.number ≠ entry.2) → Source.isComment entry.1 := by decide
      intro entry hmem hcompiled hother
      exact Source.isComment_iff.1 (hcomment entry hmem hcompiled hother)
  exact ofText_of_laidOut hD hlaid htext "p"

end Listing

end LineMachine
