import SearchWords.Expr.Canonical

/-!
# Clear expressions

An expression is clear if it has no disjunction of two exclusions. Where it has some, each of them
may be replaced by a group in which the same two exclusions stand side by side; `conflated` does so.
The meaning is not the same, but the result is clear, canonical if the expression was, and has the
same words.

A disjunction that is an operand of a conjunction is passed over by both. The argument `conjunct`
says that an expression is such an operand.
-/

namespace SearchWords

/-- A word of letters. -/
structure Word.IsPlain (w : Word) : Prop where
  ne_empty : w.text ≠ ""
  isAlpha : ∀ c ∈ w.text.toList, c.isAlpha = true

theorem Word.isPlain_iff (w : Word) :
    w.IsPlain ↔ w.text ≠ "" ∧ w.text.toList.all Char.isAlpha = true :=
  ⟨fun h ↦ ⟨h.ne_empty, List.all_eq_true.2 h.isAlpha⟩, fun h ↦ ⟨h.1, List.all_eq_true.1 h.2⟩⟩

instance (w : Word) : Decidable w.IsPlain :=
  decidable_of_iff _ w.isPlain_iff.symm

namespace Expr

/-! ## Clear expressions -/

/-- Whether an expression has no disjunction of two exclusions, except as an operand of a
conjunction, which the expression itself may be. -/
def isClear (conjunct : Bool) : Expr → Bool
  | .word _ => true
  | .and l r => l.isClear true && r.isClear true
  | .or l r =>
    l.isClear false && r.isClear false && (conjunct || l.op ≠ .exclude || r.op ≠ .exclude)
  | .paren e | .exclude e => e.isClear false

/-- An expression with each disjunction of two exclusions made a group that excludes both, except
where it is an operand of a conjunction. -/
def conflated (conjunct : Bool) : Expr → Expr
  | .word w => .word w
  | .and l r => .and (l.conflated true) (r.conflated true)
  | .or l r =>
    if conjunct || l.op ≠ .exclude || r.op ≠ .exclude then
      .or (l.conflated false) (r.conflated false)
    else .paren (.and (l.conflated true) (r.conflated true))
  | .paren e => .paren (e.conflated false)
  | .exclude e => .exclude (e.conflated false)

theorem conflated_of_isClear {conjunct : Bool} {e : Expr} (h : e.isClear conjunct = true) :
    e.conflated conjunct = e := by
  induction e generalizing conjunct with
  | word w => rfl
  | and l r ihl ihr =>
    obtain ⟨hl, hr⟩ := Bool.and_eq_true_iff.1 h
    rw [conflated, ihl hl, ihr hr]
  | or l r ihl ihr =>
    obtain ⟨hlr, hops⟩ := Bool.and_eq_true_iff.1 h
    obtain ⟨hl, hr⟩ := Bool.and_eq_true_iff.1 hlr
    rw [conflated, if_pos hops, ihl hl, ihr hr]
  | paren e ih => rw [conflated, ih h]
  | exclude e ih => rw [conflated, ih h]

/-- Conflating changes the outermost operation only of a disjunction, and not of an operand of a
conjunction. -/
theorem op_conflated (conjunct : Bool) (e : Expr) :
    (e.conflated conjunct).op = e.op ∨
      conjunct = false ∧ e.op = .or ∧ (e.conflated conjunct).op = .paren := by
  cases e with
  | or l r =>
    unfold conflated
    split
    · exact .inl rfl
    · next h =>
      refine .inr ⟨?_, rfl, rfl⟩
      cases conjunct <;> simp_all
  | _ => exact .inl rfl

theorem op_conflated_true (e : Expr) : (e.conflated true).op = e.op := by
  rcases op_conflated true e with h | ⟨h, -⟩
  · exact h
  · cases h

theorem leaves_conflated (conjunct : Bool) (e : Expr) :
    (e.conflated conjunct).leaves = e.leaves := by
  induction e generalizing conjunct with
  | word w => rfl
  | and l r ihl ihr => simp [conflated, leaves, ihl, ihr]
  | or l r ihl ihr =>
    unfold conflated
    split <;> simp [leaves, ihl, ihr]
  | paren e ih => simp [conflated, leaves, ih]
  | exclude e ih => simp [conflated, leaves, ih]

theorem op_conflated_eq_exclude_iff (conjunct : Bool) (e : Expr) :
    (e.conflated conjunct).op = .exclude ↔ e.op = .exclude := by
  rcases op_conflated conjunct e with h | ⟨-, h, h'⟩
  · rw [h]
  · simp [h, h']

theorem isClear_conflated (conjunct : Bool) (e : Expr) :
    (e.conflated conjunct).isClear conjunct = true := by
  induction e generalizing conjunct with
  | word w => rfl
  | and l r ihl ihr => simp [conflated, isClear, ihl, ihr]
  | or l r ihl ihr =>
    unfold conflated
    split
    · next h => simpa [isClear, ihl, ihr, op_conflated_eq_exclude_iff] using h
    · simp [isClear, ihl, ihr]
  | paren e ih => simp [conflated, isClear, ih]
  | exclude e ih => simp [conflated, isClear, ih]

theorem isUnary_conflated {conjunct : Bool} {e : Expr} (h : e.isUnary = true) :
    (e.conflated conjunct).isUnary = true := by
  cases e <;> first | rfl | cases h

theorem op_conflated_ne_and {conjunct : Bool} {e : Expr} (h : e.op ≠ .and) :
    (e.conflated conjunct).op ≠ .and := by
  rcases op_conflated conjunct e with hop | ⟨-, -, hop⟩
  · rwa [hop]
  · rw [hop]
    decide

theorem isCanonical_conflated {e : Expr} (conjunct : Bool) (h : e.isCanonical = true) :
    (e.conflated conjunct).isCanonical = true := by
  induction e generalizing conjunct with
  | word w => rfl
  | and l r ihl ihr =>
    simp only [isCanonical, Bool.and_eq_true, decide_eq_true_eq] at h
    simp [conflated, isCanonical, ihl, ihr, h, op_conflated_ne_and]
  | or l r ihl ihr =>
    simp only [isCanonical, Bool.and_eq_true, decide_eq_true_eq] at h
    unfold conflated
    split
    · simp [isCanonical, ihl, ihr, h, op_conflated_ne_and, isUnary_conflated]
    · next hops =>
      obtain ⟨-, -, hr⟩ : conjunct = false ∧ l.op = .exclude ∧ r.op = .exclude := by
        simpa [and_assoc] using hops
      simp [isCanonical, ihl, ihr, h, op_conflated_true, hr]
  | paren e ih => exact ih false h
  | exclude e ih =>
    simp only [isCanonical, Bool.and_eq_true] at h
    simp [conflated, isCanonical, ih, h, isUnary_conflated]

/-- What the proofs below ask of an expression. -/
structure Legible (conjunct : Bool) (e : Expr) : Prop where
  canonical : e.isCanonical = true
  plain : ∀ w ∈ e.leaves, w.IsPlain
  clear : e.isClear conjunct = true

namespace Legible

variable {conjunct : Bool} {l r e : Expr}

theorem of_and (h : Legible conjunct (.and l r)) :
    Legible true l ∧ Legible true r ∧ r.op ≠ .and := by
  obtain ⟨hc, hw, hclear⟩ := h
  obtain ⟨hwl, hwr⟩ := List.forall_mem_append.1 hw
  simp only [isCanonical, Bool.and_eq_true, decide_eq_true_eq] at hc
  obtain ⟨hl, hr⟩ := Bool.and_eq_true_iff.1 hclear
  exact ⟨⟨hc.1.1, hwl, hl⟩, ⟨hc.1.2, hwr, hr⟩, hc.2⟩

theorem of_or (h : Legible conjunct (.or l r)) :
    Legible false l ∧ Legible false r ∧ l.op ≠ .and ∧ r.op ≠ .and ∧
      (conjunct = false → l.op = .exclude → r.op ≠ .exclude) := by
  obtain ⟨hc, hw, hclear⟩ := h
  obtain ⟨hwl, hwr⟩ := List.forall_mem_append.1 hw
  simp only [isCanonical, Bool.and_eq_true, decide_eq_true_eq] at hc
  simp only [isClear, Bool.and_eq_true] at hclear
  have hr : r.op ≠ .and := by
    intro hop
    cases r <;> simp_all [op, isUnary]
  refine ⟨⟨hc.1.1.1, hwl, hclear.1.1⟩, ⟨hc.1.1.2, hwr, hclear.1.2⟩, hc.1.2, hr, ?_⟩
  rintro rfl hl
  simpa [hl] using hclear.2

theorem of_paren (h : Legible conjunct (.paren e)) : Legible false e :=
  ⟨h.canonical, h.plain, h.clear⟩

theorem of_exclude (h : Legible conjunct (.exclude e)) : Legible false e :=
  ⟨(Bool.and_eq_true_iff.1 h.canonical).1, h.plain, h.clear⟩

end Legible

section Op

variable {e : Expr}

theorem exists_eq_word (h : e.op = .word) : ∃ w, e = .word w := by
  cases e with
  | word w => exact ⟨w, rfl⟩
  | _ => cases h

theorem exists_eq_and (h : e.op = .and) : ∃ l r, e = .and l r := by
  cases e with
  | and l r => exact ⟨l, r, rfl⟩
  | _ => cases h

end Op

end Expr

end SearchWords
