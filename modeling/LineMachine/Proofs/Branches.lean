/-
**Branches: what running an opcode comes to, one branch at a time.**

A branch takes its operands off the data stack and goes on with an opcode that it found there, on
the cells below.  `LineMachine.resolve` follows the branches to their end at once.  This module
says what a single opcode does, so that a property of running opcodes is proved by one look at
each of six cases, and by induction on the cells where a branch goes on.

Main definitions:

* `LineMachine.Opcode.arity` — the number of cells that an opcode needs;
* `LineMachine.Chooses` — **a branch goes on with an opcode**;
* `LineMachine.Machine.Dispatched` — **the six things that running an opcode can come to**.

Main results:

* `LineMachine.Machine.dispatch_of_chooses` — a branch comes to what its choice comes to;
* `LineMachine.Machine.dispatched_dispatch` — running an opcode comes to one of the six;
* `LineMachine.Machine.step_of_callCell` — a step at the call cell runs an opcode.
-/

import LineMachine.Machine.Step

set_option relaxedAutoImplicit false
set_option autoImplicit false

namespace LineMachine

/-! ### Operands -/

/-- The number of cells that an action takes or looks at. -/
def Action.arity : Action → Nat
  | .operator _ | .swap => 2
  | .not | .dup | .drop | .loop | .emit | .exit => 1
  | .read => 0

/-- The number of cells that an opcode needs on the data stack. -/
def Opcode.arity : Opcode → Nat
  | .act a => a.arity
  | .ifTrue => 2
  | .ifElse => 3

/-- **A branch goes on with an opcode** that it found among its operands, on the cells below
them. -/
inductive Chooses : Opcode → List Cell → Cell → List Cell → Prop where
  | ifTrue {chosen cond : Cell} {rest : List Cell} (hcond : cond ≠ 0) :
      Chooses .ifTrue (chosen :: cond :: rest) chosen rest
  | yes {no yes cond : Cell} {rest : List Cell} (hcond : cond ≠ 0) :
      Chooses .ifElse (no :: yes :: cond :: rest) yes rest
  | no {no yes : Cell} {rest : List Cell} : Chooses .ifElse (no :: yes :: 0 :: rest) no rest

/-- What a branch leaves are the cells below its operands, and what it chooses is one of those. -/
theorem Chooses.exists_append {o : Opcode} {cells rest : List Cell} {chosen : Cell}
    (h : Chooses o cells chosen rest) :
    ∃ operands, cells = operands ++ rest ∧ operands.length = o.arity ∧ chosen ∈ operands := by
  cases h with
  | @ifTrue _ cond _ _ => exact ⟨[chosen, cond], rfl, rfl, by simp⟩
  | @yes no _ cond _ _ => exact ⟨[no, chosen, cond], rfl, rfl, by simp⟩
  | @no _ yes _ => exact ⟨[chosen, yes, 0], rfl, rfl, by simp⟩

theorem Chooses.length_lt {o : Opcode} {cells rest : List Cell} {chosen : Cell}
    (h : Chooses o cells chosen rest) : rest.length < cells.length := by
  cases h with
  | ifTrue _ | yes _ | no =>
      simp only [List.length_cons]
      omega

/-- A branch that has all its operands makes a choice, or its condition fails. -/
theorem chooses_or_skips {o : Opcode} {cells : List Cell} (hact : ∀ a, o ≠ .act a)
    (hcells : o.arity ≤ cells.length) :
    (∃ chosen rest, Chooses o cells chosen rest) ∨
      o = .ifTrue ∧ ∃ chosen rest, cells = chosen :: 0 :: rest := by
  cases o with
  | act a => exact absurd rfl (hact a)
  | ifTrue =>
      match cells, hcells with
      | chosen :: cond :: rest, _ =>
          by_cases hcond : cond = 0
          · subst hcond
            exact .inr ⟨rfl, chosen, rest, rfl⟩
          · exact .inl ⟨chosen, rest, .ifTrue hcond⟩
  | ifElse =>
      match cells, hcells with
      | no :: yes :: cond :: rest, _ =>
          by_cases hcond : cond = 0
          · subst hcond
            exact .inl ⟨no, rest, .no⟩
          · exact .inl ⟨yes, rest, .yes hcond⟩

/-! ### One opcode -/

section Slots

variable {opcode : Int} {cells : List Cell}

theorem resolve_of_neg (h : opcode < 0) : resolve opcode cells = some (.nothing, cells) := by
  unfold resolve
  rw [if_pos h]

theorem resolve_of_firstLine_le (h : firstLine ≤ opcode) :
    resolve opcode cells = some (.call opcode, cells) := by
  have hnonneg : ¬ opcode < 0 := by
    unfold firstLine at h
    omega
  unfold resolve
  rw [if_neg hnonneg, if_pos h]

theorem resolve_of_act {a : Action} (hop : Opcode.IsIntrinsic opcode)
    (ha : Opcode.ofSlot opcode.toNat = .act a) : resolve opcode cells = some (.act a, cells) := by
  unfold resolve
  rw [if_neg (Int.not_lt.2 hop.1), if_neg (Int.not_le.2 hop.2), ha]

theorem resolve_of_chooses {chosen : Cell} {rest : List Cell} (hop : Opcode.IsIntrinsic opcode)
    (h : Chooses (Opcode.ofSlot opcode.toNat) cells chosen rest) :
    resolve opcode cells = resolve chosen.toInt rest := by
  conv =>
    lhs
    unfold resolve
  rw [if_neg (Int.not_lt.2 hop.1), if_neg (Int.not_le.2 hop.2)]
  generalize Opcode.ofSlot opcode.toNat = o at h
  cases h with
  | ifTrue hcond => exact if_neg hcond
  | yes hcond =>
      dsimp only
      rw [if_neg hcond]
  | no => rfl

theorem resolve_of_skip {chosen : Cell} {rest : List Cell} (hop : Opcode.IsIntrinsic opcode)
    (hslot : Opcode.ofSlot opcode.toNat = .ifTrue) :
    resolve opcode (chosen :: 0 :: rest) = some (.nothing, rest) := by
  unfold resolve
  rw [if_neg (Int.not_lt.2 hop.1), if_neg (Int.not_le.2 hop.2), hslot]
  rfl

theorem resolve_of_short (hop : Opcode.IsIntrinsic opcode)
    (hact : ∀ a, Opcode.ofSlot opcode.toNat ≠ .act a)
    (hshort : cells.length < (Opcode.ofSlot opcode.toNat).arity) :
    resolve opcode cells = none := by
  unfold resolve
  rw [if_neg (Int.not_lt.2 hop.1), if_neg (Int.not_le.2 hop.2)]
  cases hslot : Opcode.ofSlot opcode.toNat with
  | act a => exact absurd hslot (hact a)
  | ifTrue =>
      rw [hslot] at hshort
      rcases cells with _ | ⟨first, _ | ⟨second, rest⟩⟩
      · rfl
      · rfl
      · exact absurd hshort (by simp [Opcode.arity])
  | ifElse =>
      rw [hslot] at hshort
      rcases cells with _ | ⟨first, _ | ⟨second, _ | ⟨third, rest⟩⟩⟩
      · rfl
      · rfl
      · rfl
      · exact absurd hshort (by simp [Opcode.arity])

end Slots

namespace Machine

/-- **A branch comes to what its choice comes to** on the cells that it leaves. -/
theorem dispatch_of_chooses {m : Machine} {opcode : Int} {chosen : Cell} {rest : List Cell}
    (hop : Opcode.IsIntrinsic opcode)
    (h : Chooses (Opcode.ofSlot opcode.toNat) m.data.topFirst chosen rest) :
    m.dispatch opcode = { m with data := ⟨rest⟩ }.dispatch chosen.toInt := by
  unfold dispatch
  rw [resolve_of_chooses hop h]
  rfl

/-- An opcode from the first program line on calls that line. -/
theorem dispatch_of_firstLine_le {opcode : Int} (h : firstLine ≤ opcode) (m : Machine) :
    m.dispatch opcode = .next (m.call opcode) := by
  unfold dispatch
  rw [resolve_of_firstLine_le h]

/-- **The six things that running an opcode can come to.** -/
inductive Dispatched (m : Machine) (opcode : Int) : Outcome → Prop where
  /-- A negative opcode does nothing. -/
  | idle (hop : opcode < 0) : Dispatched m opcode (.next m)
  /-- From the first program line on, an opcode calls that line. -/
  | call (hop : firstLine ≤ opcode) : Dispatched m opcode (.next (m.call opcode))
  /-- An action is performed. -/
  | act {a : Action} (hop : Opcode.IsIntrinsic opcode)
      (ha : Opcode.ofSlot opcode.toNat = .act a) : Dispatched m opcode (m.perform a)
  /-- A branch goes on with its choice. -/
  | choose {chosen : Cell} {rest : List Cell} (hop : Opcode.IsIntrinsic opcode)
      (h : Chooses (Opcode.ofSlot opcode.toNat) m.data.topFirst chosen rest) :
      Dispatched m opcode ({ m with data := ⟨rest⟩ }.dispatch chosen.toInt)
  /-- A branch whose condition fails leaves it at that. -/
  | skip {chosen : Cell} {rest : List Cell} (hop : Opcode.IsIntrinsic opcode)
      (hslot : Opcode.ofSlot opcode.toNat = .ifTrue)
      (hdata : m.data.topFirst = chosen :: 0 :: rest) :
      Dispatched m opcode (.next { m with data := ⟨rest⟩ })
  /-- A branch without all its operands takes what there is, and fails. -/
  | short (hop : Opcode.IsIntrinsic opcode) (hact : ∀ a, Opcode.ofSlot opcode.toNat ≠ .act a)
      (hdata : m.data.topFirst.length < (Opcode.ofSlot opcode.toNat).arity) :
      Dispatched m opcode (.halt m.dataUnderflow { m with data := .empty })

/-- A branch that has all its operands goes on with its choice or leaves it at that. -/
theorem dispatched_of_arity_le {m : Machine} {opcode : Int} (hop : Opcode.IsIntrinsic opcode)
    (hact : ∀ a, Opcode.ofSlot opcode.toNat ≠ .act a)
    (hdata : (Opcode.ofSlot opcode.toNat).arity ≤ m.data.topFirst.length) :
    m.Dispatched opcode (m.dispatch opcode) := by
  rcases chooses_or_skips hact hdata with ⟨chosen, rest, h⟩ | ⟨hslot, chosen, rest, hcells⟩
  · rw [dispatch_of_chooses hop h]
    exact .choose hop h
  · unfold dispatch
    rw [hcells, resolve_of_skip hop hslot]
    exact .skip hop hslot hcells

/-- **Running an opcode comes to one of the six.** -/
theorem dispatched_dispatch (m : Machine) (opcode : Int) :
    m.Dispatched opcode (m.dispatch opcode) := by
  by_cases hneg : opcode < 0
  · unfold dispatch
    rw [resolve_of_neg hneg]
    exact .idle hneg
  by_cases hcall : firstLine ≤ opcode
  · rw [dispatch_of_firstLine_le hcall]
    exact .call hcall
  have hop : Opcode.IsIntrinsic opcode := ⟨Int.not_lt.1 hneg, Int.not_le.1 hcall⟩
  by_cases hact : ∃ a, Opcode.ofSlot opcode.toNat = .act a
  · obtain ⟨a, ha⟩ := hact
    unfold dispatch
    rw [resolve_of_act hop ha]
    exact .act hop ha
  · have hact : ∀ a, Opcode.ofSlot opcode.toNat ≠ .act a := fun a ha => hact ⟨a, ha⟩
    rcases Nat.lt_or_ge m.data.topFirst.length (Opcode.ofSlot opcode.toNat).arity with hdata | hdata
    · unfold dispatch
      rw [resolve_of_short hop hact hdata]
      exact .short hop hact hdata
    · exact dispatched_of_arity_le hop hact hdata

/-! ### The cell of a step -/

section Cells

variable {m : Machine} {c : Cell}

/-- A cell that is not the call cell is pushed as data. -/
theorem step_of_ne_callCell (hf : m.memory.fetch m.ip = .cell c) (hc : c.toInt ≠ callCell) :
    m.step = .next (m.advance.push c.toInt) := by
  simp only [step, hf, execute, if_neg hc]

/-- The call cell with nothing below it underflows. -/
theorem step_of_callCell_nil (hf : m.memory.fetch m.ip = .cell c) (hc : c.toInt = callCell)
    (hdata : m.data.topFirst = []) : m.step = .halt m.advance.dataUnderflow m.advance := by
  have hpop : m.advance.pop? = none := by simp [pop?, advance, Stack.pop?, hdata]
  simp only [step, hf, execute, if_pos hc, hpop]

/-- **The call cell** takes the cell below it and runs it as an opcode. -/
theorem step_of_callCell {opcode : Cell} {cells : List Cell} (hf : m.memory.fetch m.ip = .cell c)
    (hc : c.toInt = callCell) (hdata : m.data.topFirst = opcode :: cells) :
    m.step = { m.advance with data := ⟨cells⟩ }.dispatch opcode.toInt := by
  have hpop : m.advance.pop? = some (opcode, { m.advance with data := ⟨cells⟩ }) := by
    simp [pop?, advance, Stack.pop?, hdata]
  simp only [step, hf, execute, if_pos hc, hpop]

end Cells

end Machine

end LineMachine
