/-
**Readings: a list that is read entry by entry.**

Several parts of a text are lists that are read one entry after the other, until one of them cannot
be read: the words of a line, the lines of a source text, the directives of a case file.  The first
two are read apart from each other; a directive changes what the ones before it came to.  Either
way a list is read if all its entries are, and else the first one that is not is to blame.

Main results:

* `LineMachine.mapM_eq_ok_iff`, `LineMachine.mem_iff_of_mapM_eq_ok` — lists that are read;
* `LineMachine.exists_forall₂_perm` — the same entries in another order;
* `LineMachine.mapM_eq_error_iff`, `LineMachine.foldlM_eq_error_iff` — **the entry that is to
  blame**.
-/

import Mathlib.Data.List.Forall2

set_option relaxedAutoImplicit false
set_option autoImplicit false

namespace LineMachine

variable {α β γ σ ε : Type} {f : α → Except ε β} {g : σ → α → Except ε σ}
variable {l : List α} {r : List β} {a : α} {e : ε}

theorem mapM_cons_of_error (ha : f a = .error e) : (a :: l).mapM f = .error e := by
  rw [List.mapM_cons, ha]
  rfl

theorem mapM_cons_of_ok {b : β} (ha : f a = .ok b) :
    (a :: l).mapM f = (l.mapM f).map (b :: ·) := by
  rw [List.mapM_cons, ha]
  cases l.mapM f with
  | error e => rfl
  | ok bs => rfl

theorem foldlM_cons_of_error {s : σ} (ha : g s a = .error e) :
    (a :: l).foldlM g s = .error e := by
  rw [List.foldlM_cons, ha]
  rfl

theorem foldlM_cons_of_ok {s s' : σ} (ha : g s a = .ok s') :
    (a :: l).foldlM g s = l.foldlM g s' := by
  rw [List.foldlM_cons, ha]
  rfl

/-! ### Entries that are read -/

theorem exists_mem_right {R : α → β → Prop} (h : List.Forall₂ R l r) (ha : a ∈ l) :
    ∃ b ∈ r, R a b := by
  induction h with
  | nil => cases ha
  | @cons a' b l r hab _ ih =>
      rcases List.mem_cons.1 ha with rfl | ha
      · exact ⟨b, List.mem_cons_self .., hab⟩
      · obtain ⟨b', hb', hab'⟩ := ih ha
        exact ⟨b', List.mem_cons_of_mem _ hb', hab'⟩

theorem exists_mem_left {R : α → β → Prop} (h : List.Forall₂ R l r) {b : β} (hb : b ∈ r) :
    ∃ a ∈ l, R a b := exists_mem_right (R := fun b a => R a b) h.flip hb

theorem exists_forall₂ {R : α → β → Prop} (h : ∀ a ∈ l, ∃ b, R a b) :
    ∃ r, List.Forall₂ R l r := by
  induction l with
  | nil => exact ⟨[], .nil⟩
  | cons a l ih =>
      obtain ⟨b, hb⟩ := h a (List.mem_cons_self ..)
      obtain ⟨r, hr⟩ := ih fun a' ha' => h a' (List.mem_cons_of_mem _ ha')
      exact ⟨b :: r, .cons hb hr⟩

/-- Related lists are as long, and related at each position. -/
theorem forall₂_iff_getElem? {R : α → β → Prop} :
    List.Forall₂ R l r ↔
      l.length = r.length ∧ ∀ (i : Nat) a b, l[i]? = some a → r[i]? = some b → R a b := by
  rw [List.forall₂_iff_get]
  refine and_congr_right fun _ => ?_
  constructor
  · intro h i a b ha hb
    obtain ⟨hi, rfl⟩ := List.getElem?_eq_some_iff.1 ha
    obtain ⟨hi', rfl⟩ := List.getElem?_eq_some_iff.1 hb
    exact h i hi hi'
  · intro h i hi hi'
    exact h i _ _ (List.getElem?_eq_getElem hi) (List.getElem?_eq_getElem hi')

/-- Entries in another order are related to the same things, in that order. -/
theorem exists_forall₂_perm {R : α → β → Prop} {l' : List α} (hperm : l'.Perm l)
    (h : List.Forall₂ R l r) : ∃ r', List.Forall₂ R l' r' ∧ (l'.zip r').Perm (l.zip r) := by
  induction hperm generalizing r with
  | nil => exact ⟨r, h, .refl _⟩
  | cons a _ ih =>
      cases h with
      | @cons _ b _ r hab h =>
          obtain ⟨r', h', hzip⟩ := ih h
          exact ⟨b :: r', .cons hab h', hzip.cons (a, b)⟩
  | swap a₁ a₂ l =>
      rcases h with _ | @⟨_, b₁, _, _, h₁, _ | @⟨_, b₂, _, r, h₂, h⟩⟩
      exact ⟨b₂ :: b₁ :: r, .cons h₂ (.cons h₁ h), .swap (a₁, b₁) (a₂, b₂) (l.zip r)⟩
  | trans _ _ ih₁ ih₂ =>
      obtain ⟨r₂, h₂, hzip₂⟩ := ih₂ h
      obtain ⟨r₁, h₁, hzip₁⟩ := ih₁ h₂
      exact ⟨r₁, h₁, hzip₁.trans hzip₂⟩

/-- A list is read if each of its entries is, in order. -/
theorem mapM_eq_ok_iff : l.mapM f = .ok r ↔ List.Forall₂ (fun a b => f a = .ok b) l r := by
  induction l generalizing r with
  | nil =>
      rw [List.mapM_nil, List.forall₂_nil_left_iff]
      constructor
      · intro h
        cases h
        rfl
      · rintro rfl
        rfl
  | cons a l ih =>
      constructor
      · intro h
        cases ha : f a with
        | error e =>
            rw [mapM_cons_of_error ha] at h
            cases h
        | ok b =>
            rw [mapM_cons_of_ok ha] at h
            cases hl : l.mapM f with
            | error e =>
                rw [hl] at h
                cases h
            | ok bs =>
                rw [hl] at h
                cases h
                exact .cons ha (ih.1 hl)
      · intro h
        cases h with
        | cons ha hl =>
            rw [mapM_cons_of_ok ha, ih.2 hl]
            rfl

theorem exists_mapM_eq_ok (h : ∀ a ∈ l, ∃ b, f a = .ok b) : ∃ r, l.mapM f = .ok r := by
  obtain ⟨r, hr⟩ := exists_forall₂ h
  exact ⟨r, mapM_eq_ok_iff.2 hr⟩

/-- What was read is what the entries are. -/
theorem mem_iff_of_mapM_eq_ok (h : l.mapM f = .ok r) {b : β} : b ∈ r ↔ ∃ a ∈ l, f a = .ok b := by
  have hread := mapM_eq_ok_iff.1 h
  constructor
  · exact exists_mem_left hread
  · rintro ⟨a, ha, hb⟩
    obtain ⟨b', hb', hab'⟩ := exists_mem_right hread ha
    rw [hb] at hab'
    cases hab'
    exact hb'

/-- A feature that each entry shares with what it is read as. -/
theorem map_eq_of_mapM_eq_ok {p : β → γ} {q : α → γ} (h : l.mapM f = .ok r)
    (hpq : ∀ a b, f a = .ok b → p b = q a) : r.map p = l.map q := by
  have hread := mapM_eq_ok_iff.1 h
  clear h
  induction hread with
  | nil => rfl
  | cons ha _ ih => rw [List.map_cons, List.map_cons, hpq _ _ ha, ih]

/-! ### The entry that is to blame -/

theorem mapM_append_of_error {before after : List α} (hbefore : ∀ b ∈ before, ∃ c, f b = .ok c)
    (ha : f a = .error e) : (before ++ a :: after).mapM f = .error e := by
  induction before with
  | nil => exact mapM_cons_of_error ha
  | cons b before ih =>
      obtain ⟨c, hc⟩ := hbefore b (List.mem_cons_self ..)
      have hrest := ih fun b' hb' => hbefore b' (List.mem_cons_of_mem _ hb')
      rw [List.cons_append, mapM_cons_of_ok hc, hrest]
      rfl

/-- **What keeps a list from being read**: the first of its entries that is not. -/
theorem mapM_eq_error_iff :
    l.mapM f = .error e ↔
      ∃ before a after, l = before ++ a :: after ∧ (∀ b ∈ before, ∃ c, f b = .ok c) ∧
        f a = .error e := by
  constructor
  · intro h
    induction l with
    | nil => cases h
    | cons a l ih =>
        cases ha : f a with
        | error e' =>
            rw [mapM_cons_of_error ha] at h
            cases h
            exact ⟨[], a, l, rfl, by simp, ha⟩
        | ok b =>
            rw [mapM_cons_of_ok ha] at h
            cases hl : l.mapM f with
            | ok bs =>
                rw [hl] at h
                cases h
            | error e' =>
                rw [hl] at h
                cases h
                obtain ⟨before, a', after, rfl, hbefore, ha'⟩ := ih hl
                refine ⟨a :: before, a', after, rfl, fun b' hb' => ?_, ha'⟩
                rcases List.mem_cons.1 hb' with rfl | hb'
                · exact ⟨b, ha⟩
                · exact hbefore b' hb'
  · rintro ⟨before, a, after, rfl, hbefore, ha⟩
    exact mapM_append_of_error hbefore ha

/-- **What stops a list of changes**: the first one that fails on what those before it came to. -/
theorem foldlM_eq_error_iff {s : σ} :
    l.foldlM g s = .error e ↔
      ∃ before a after s', l = before ++ a :: after ∧ before.foldlM g s = .ok s' ∧
        g s' a = .error e := by
  constructor
  · intro h
    induction l generalizing s with
    | nil => cases h
    | cons a l ih =>
        cases ha : g s a with
        | error e' =>
            rw [foldlM_cons_of_error ha] at h
            cases h
            exact ⟨[], a, l, s, rfl, rfl, ha⟩
        | ok s₁ =>
            rw [foldlM_cons_of_ok ha] at h
            obtain ⟨before, a', after, s', rfl, hbefore, ha'⟩ := ih h
            refine ⟨a :: before, a', after, s', rfl, ?_, ha'⟩
            rw [foldlM_cons_of_ok ha, hbefore]
  · rintro ⟨before, a, after, s', rfl, hbefore, ha⟩
    rw [List.foldlM_append, hbefore]
    exact foldlM_cons_of_error ha

end LineMachine
