import SearchWords.Expr.Canonical

/-!
# Precedence of expressions

The automaton never looks into an expression that it has built. What it knows of one are the tokens
at the two ends of its handle, and of these only the ranks: a neighbour on the left meets the right
rank of the `opener`, a neighbour on the right meets the left rank of the `closer`.

A canonical expression is one in which every operand stands up to its operator in these terms
(`Joins.isCanonical_iff`, `isCanonical_exclude`). With that the shape of an expression and the
decisions of the automaton speak about the same numbers.
-/

namespace SearchWords.Expr

namespace Op

/-- The first token of the handle of an expression. -/
def opener : Op → Token.Kind
  | .word => .word
  | .and => .and
  | .or => .or
  | .paren => .lparen
  | .exclude => .exclude

/-- The last token of the handle of an expression. -/
def closer : Op → Token.Kind
  | .word => .word
  | .and => .and
  | .or => .or
  | .paren => .rparen
  | .exclude => .exclude

theorem opener_le_closer (op : Op) : op.opener.rightRank ≤ op.closer.leftRank := by
  cases op <;> decide

theorem closer_le_opener_add_one (op : Op) : op.closer.leftRank ≤ op.opener.rightRank + 1 := by
  cases op <;> decide

theorem closer_pos (op : Op) : 0 < op.closer.leftRank := by
  cases op <;> decide

/-- A token that yields to an expression on its right either yields to it for good, or binds
what follows the expression as tightly as the expression does. The latter holds of an exclusion in
front of another one. -/
theorem lt_opener_or_closer_le {kind : Token.Kind} {op : Op}
    (h : kind.leftRank ≤ op.opener.rightRank) :
    kind.leftRank < op.opener.rightRank ∨ op.closer.leftRank ≤ kind.leftRank := by
  revert h
  cases op <;> cases kind <;> decide

end Op

theorem isUnary_iff (e : Expr) :
    e.isUnary = true ↔ Token.Kind.exclude.leftRank ≤ e.op.opener.rightRank := by
  cases e <;> simp [isUnary, op, Op.opener, Token.Kind.leftRank, Token.Kind.rightRank]

theorem isCanonical_exclude {e : Expr} :
    (Expr.exclude e).isCanonical = true ↔
      e.isCanonical = true ∧ Token.Kind.exclude.leftRank ≤ e.op.opener.rightRank := by
  rw [← isUnary_iff, isCanonical, Bool.and_eq_true]

/-! ## Operators

Conjunction and disjunction differ in their ranks and in nothing else that the automaton does. -/

/-- `Joins op l r e`: the operator `op` between `l` and `r` makes the expression `e`. -/
inductive Joins : (op : Token) → (l r e : Expr) → Prop where
  | and (l r : Expr) : Joins .and l r (.and l r)
  | or (l r : Expr) : Joins .or l r (.or l r)

namespace Joins

variable {op : Token} {l r e : Expr}

theorem opener_eq (h : Joins op l r e) : e.op.opener = op.kind := by
  cases h <;> rfl

theorem closer_eq (h : Joins op l r e) : e.op.closer = op.kind := by
  cases h <;> rfl

theorem tokens_eq (h : Joins op l r e) : e.tokens = l.tokens ++ op :: r.tokens := by
  cases h <;> rfl

theorem leaves_eq (h : Joins op l r e) : e.leaves = l.leaves ++ r.leaves := by
  cases h <;> rfl

theorem height_eq (h : Joins op l r e) : e.height = max l.height r.height + 1 := by
  cases h <;> rfl

theorem rounds_eq (h : Joins op l r e) (excluded : Bool) :
    e.rounds excluded = l.rounds false + r.rounds false + 2 := by
  cases h <;> rfl

theorem ne_stop (h : Joins op l r e) : op ≠ .stop := by
  cases h <;> decide

/-- Operators group to the left. -/
theorem rightRank_lt_leftRank (h : Joins op l r e) : op.kind.rightRank < op.kind.leftRank := by
  cases h <;> decide

/-- An exclusion binds tighter than any operator. -/
theorem leftRank_lt_exclude (h : Joins op l r e) :
    op.kind.leftRank < Token.Kind.exclude.leftRank := by
  cases h <;> decide

/-- The operands of a canonical expression are canonical and stand up to the operator. -/
theorem isCanonical_iff (h : Joins op l r e) :
    e.isCanonical = true ↔ l.isCanonical = true ∧ r.isCanonical = true ∧
      op.kind.rightRank < l.op.closer.leftRank ∧ op.kind.leftRank ≤ r.op.opener.rightRank := by
  cases h with
  | and =>
    have hl : Token.Kind.and.rightRank < l.op.closer.leftRank := by cases l.op <;> decide
    have hr : r.op ≠ .and ↔ Token.Kind.and.leftRank ≤ r.op.opener.rightRank := by
      cases r.op <;> decide
    simp [isCanonical, Token.kind, hl, ← hr, and_assoc]
  | or =>
    have hl : l.op ≠ .and ↔ Token.Kind.or.rightRank < l.op.closer.leftRank := by
      cases l.op <;> decide
    have hr : r.isUnary = true ↔ Token.Kind.or.leftRank ≤ r.op.opener.rightRank := by
      cases r <;> simp [isUnary, op, Op.opener, Token.Kind.leftRank, Token.Kind.rightRank]
    simp [isCanonical, Token.kind, ← hl, ← hr, and_assoc]

end Joins

/-! ## Expressions that can be built -/

/-- What the automaton can build: canonical expressions of searchable words, up to the greatest
height. -/
structure Buildable (e : Expr) : Prop where
  canonical : e.isCanonical = true
  searchable : ∀ w ∈ e.leaves, w.isSearchable = true
  height_le : e.height ≤ Automaton.maxHeight

theorem buildable_word {w : Word} : Buildable (.word w) ↔ w.isSearchable = true := by
  have hone : 1 ≤ Automaton.maxHeight := by decide
  constructor
  · intro h
    exact h.searchable w (List.mem_singleton_self w)
  · intro h
    refine ⟨rfl, ?_, hone⟩
    intro w' hw'
    obtain rfl := List.mem_singleton.1 hw'
    exact h

theorem buildable_paren {e : Expr} :
    Buildable (.paren e) ↔ Buildable e ∧ (Expr.paren e).height ≤ Automaton.maxHeight := by
  constructor
  · rintro ⟨hc, hw, hh⟩
    exact ⟨⟨hc, hw, Nat.le_of_succ_le hh⟩, hh⟩
  · rintro ⟨⟨hc, hw, _⟩, hh⟩
    exact ⟨hc, hw, hh⟩

theorem buildable_exclude {e : Expr} :
    Buildable (.exclude e) ↔ Buildable e ∧
      Token.Kind.exclude.leftRank ≤ e.op.opener.rightRank ∧
      (Expr.exclude e).height ≤ Automaton.maxHeight := by
  constructor
  · rintro ⟨hc, hw, hh⟩
    obtain ⟨hce, hfit⟩ := isCanonical_exclude.1 hc
    exact ⟨⟨hce, hw, Nat.le_of_succ_le hh⟩, hfit, hh⟩
  · rintro ⟨⟨hce, hw, _⟩, hfit, hh⟩
    exact ⟨isCanonical_exclude.2 ⟨hce, hfit⟩, hw, hh⟩

theorem Joins.buildable_iff {op : Token} {l r e : Expr} (h : Joins op l r e) :
    Buildable e ↔ Buildable l ∧ Buildable r ∧ op.kind.rightRank < l.op.closer.leftRank ∧
      op.kind.leftRank ≤ r.op.opener.rightRank ∧ e.height ≤ Automaton.maxHeight := by
  constructor
  · rintro ⟨hc, hw, hh⟩
    obtain ⟨hcl, hcr, hl, hr⟩ := h.isCanonical_iff.1 hc
    have hmax := h.height_eq
    rw [h.leaves_eq] at hw
    refine ⟨⟨hcl, ?_, by omega⟩, ⟨hcr, ?_, by omega⟩, hl, hr, hh⟩
    · intro w hmem
      exact hw w (List.mem_append_left _ hmem)
    · intro w hmem
      exact hw w (List.mem_append_right _ hmem)
  · rintro ⟨⟨hcl, hwl, _⟩, ⟨hcr, hwr, _⟩, hl, hr, hh⟩
    refine ⟨h.isCanonical_iff.2 ⟨hcl, hcr, hl, hr⟩, ?_, hh⟩
    intro w hw
    rw [h.leaves_eq] at hw
    exact (List.mem_append.1 hw).elim (hwl w) (hwr w)

end SearchWords.Expr
