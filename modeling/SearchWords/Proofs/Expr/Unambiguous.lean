import Mathlib.Data.List.Infix
import SearchWords.Proofs.Automaton.Precedence
import SearchWords.Proofs.Brackets

/-!
# Tokens determine a canonical expression

The tokens of an expression are balanced in their parentheses (`balanced_tokens`), so the operators
that stand outside of all of them can be told from the tokens alone: they are those with balanced
tokens in front. In a canonical expression none of these binds less tightly than the expression
itself (`opener_le_of_outer`). That fixes the outermost operator, and where it splits the tokens, so
that no two canonical expressions have the same tokens (`eq_of_tokens_eq`). Heights and words play
no part in this.
-/

namespace SearchWords

namespace Token

/-- Every parenthesis that is opened is closed, and none is closed before it is opened. -/
structure Balanced (ts : List Token) : Prop where
  closed : ts.count .rparen = ts.count .lparen
  nested : ∀ us, us <+: ts → us.count .rparen ≤ us.count .lparen

theorem balanced_iff {ts : List Token} : Balanced ts ↔ Bracketed .lparen .rparen ts :=
  ⟨fun h ↦ ⟨h.closed, h.nested⟩, fun h ↦ ⟨h.closed, h.nested⟩⟩

namespace Balanced

variable {ts us : List Token}

/-- Tokens without parentheses are balanced. -/
theorem of_notMem (hl : .lparen ∉ ts) (hr : .rparen ∉ ts) : Balanced ts :=
  balanced_iff.2 (.of_notMem hl hr)

theorem append (ht : Balanced ts) (hu : Balanced us) : Balanced (ts ++ us) :=
  balanced_iff.2 ((balanced_iff.1 ht).append (balanced_iff.1 hu))

theorem paren (ht : Balanced ts) : Balanced (.lparen :: ts ++ [.rparen]) :=
  balanced_iff.2 ((balanced_iff.1 ht).wrap (by simp))

end Balanced

end Token

namespace Expr

open Token

theorem Joins.balanced_tokens {op : Token} {l r e : Expr} (h : Joins op l r e)
    (hl : Balanced l.tokens) (hr : Balanced r.tokens) : Balanced e.tokens := by
  have hop : Balanced [op] := by
    cases h <;> exact .of_notMem (by simp) (by simp)
  rw [h.tokens_eq, ← List.singleton_append]
  exact hl.append (hop.append hr)

theorem balanced_tokens (e : Expr) : Balanced e.tokens := by
  induction e with
  | word w => exact .of_notMem (by simp [tokens]) (by simp [tokens])
  | and l r ihl ihr => exact (Joins.and l r).balanced_tokens ihl ihr
  | or l r ihl ihr => exact (Joins.or l r).balanced_tokens ihl ihr
  | paren e ih => exact ih.paren
  | exclude e ih =>
    have hop : Balanced [.exclude] := .of_notMem (by simp) (by simp)
    exact hop.append ih

/-! ## Operators outside of all parentheses -/

section Outer

variable {op : Token} {l r f : Expr} {before after : List Token}

/-- Tokens with an operator in them, in front of it and behind it. -/
theorem Joins.tokens_eq_append {op' : Token} {l' r' e : Expr} (h : Joins op' l' r' e)
    (heq : e.tokens = before ++ op :: after) :
    (∃ rest, l'.tokens = before ++ op :: rest) ∨ op = op' ∧ before = l'.tokens ∨
      ∃ rest, before = l'.tokens ++ op' :: rest ∧ r'.tokens = rest ++ op :: after := by
  rw [h.tokens_eq] at heq
  rcases List.append_eq_append_iff.1 heq with ⟨rest, hbefore, hrest⟩ | ⟨rest, hl, hrest⟩
  · cases rest with
    | nil =>
      rw [List.append_nil] at hbefore
      exact .inr (.inl ⟨(List.cons.inj hrest).1.symm, hbefore⟩)
    | cons t rest =>
      obtain ⟨rfl, hr⟩ := List.cons.inj hrest
      exact .inr (.inr ⟨rest, hbefore, hr⟩)
  · cases rest with
    | nil =>
      rw [List.append_nil] at hl
      exact .inr (.inl ⟨(List.cons.inj hrest).1, hl.symm⟩)
    | cons t rest =>
      obtain ⟨rfl, -⟩ := List.cons.inj hrest
      exact .inl ⟨rest, hl⟩

/-- What stands outside of all parentheses behind an operator does so behind its left operand. -/
theorem Joins.count_eq_of_append {e : Expr} (h : Joins op l r e) {rest : List Token}
    (houter : (l.tokens ++ op :: rest).count .rparen = (l.tokens ++ op :: rest).count .lparen) :
    rest.count .rparen = rest.count .lparen := by
  have hclosed := l.balanced_tokens.closed
  have hne : op ≠ .lparen ∧ op ≠ .rparen := by cases h <;> simp
  simp only [List.count_append, List.count_cons_of_ne hne.1, List.count_cons_of_ne hne.2] at houter
  omega

/-- The operands of a canonical expression bind at least as tightly as its operator, so what holds
of the operators in them holds of those in the expression. -/
theorem Joins.opener_le {op' : Token} {l' r' e : Expr} (h : Joins op' l' r' e)
    (he : e.isCanonical = true) (heq : e.tokens = before ++ op :: after)
    (houter : before.count .rparen = before.count .lparen)
    (ihl : ∀ {before after}, l'.isCanonical = true → l'.tokens = before ++ op :: after →
      before.count .rparen = before.count .lparen → l'.op.opener.rightRank ≤ op.kind.rightRank)
    (ihr : ∀ {before after}, r'.isCanonical = true → r'.tokens = before ++ op :: after →
      before.count .rparen = before.count .lparen → r'.op.opener.rightRank ≤ op.kind.rightRank) :
    e.op.opener.rightRank ≤ op.kind.rightRank := by
  obtain ⟨hcl, hcr, hfitl, hfitr⟩ := h.isCanonical_iff.1 he
  have hassoc := h.rightRank_lt_leftRank
  rw [h.opener_eq]
  rcases h.tokens_eq_append heq with ⟨rest, hl⟩ | ⟨rfl, -⟩ | ⟨rest, rfl, hr⟩
  · have := ihl hcl hl houter
    have := l'.op.closer_le_opener_add_one
    omega
  · exact Nat.le_refl _
  · have := ihr hcr hr (h.count_eq_of_append houter)
    omega

/-- In a canonical expression, an operator outside of all parentheses binds at least as tightly as
the expression does. -/
theorem opener_le_of_outer {e : Expr} (he : e.isCanonical = true) (hop : Joins op l r f)
    (heq : e.tokens = before ++ op :: after)
    (houter : before.count .rparen = before.count .lparen) :
    e.op.opener.rightRank ≤ op.kind.rightRank := by
  induction e generalizing before after with
  | word w =>
    obtain ⟨-, hcons⟩ | ⟨-, hnil⟩ := List.singleton_eq_append_iff.1 heq
    · obtain ⟨rfl, -⟩ := List.cons.inj hcons
      cases hop
    · cases hnil
  | and l' r' ihl ihr => exact (Joins.and l' r').opener_le he heq houter ihl ihr
  | or l' r' ihl ihr => exact (Joins.or l' r').opener_le he heq houter ihl ihr
  | paren e _ =>
    exfalso
    cases before with
    | nil =>
      obtain ⟨rfl, -⟩ := List.cons.inj heq
      cases hop
    | cons t before =>
      obtain ⟨rfl, hinner⟩ := List.cons.inj heq
      have hinner : e.tokens ++ [.rparen] = before ++ op :: after := hinner
      -- The operator is in the group, and the parenthesis in front of the group is not closed yet.
      have hprefix : before <+: e.tokens := by
        have hconcat : before <+: e.tokens ++ [.rparen] := ⟨op :: after, hinner.symm⟩
        rcases List.prefix_concat_iff.1 hconcat with h | h
        · simp [h] at hinner
        · exact h
      have := e.balanced_tokens.nested before hprefix
      simp at houter
      omega
  | exclude e ih =>
    obtain ⟨hce, hfit⟩ := isCanonical_exclude.1 he
    exfalso
    cases before with
    | nil =>
      obtain ⟨rfl, -⟩ := List.cons.inj heq
      cases hop
    | cons t before =>
      obtain ⟨rfl, hinner⟩ := List.cons.inj heq
      have := ih hce hinner (by simpa using houter)
      have := hop.leftRank_lt_exclude
      have := hop.rightRank_lt_leftRank
      omega

end Outer

/-! ## Unambiguity -/

/-- The right operand of an operator holds no such operator outside of all parentheses. -/
theorem Joins.not_outer_right {op : Token} {l r e : Expr} (h : Joins op l r e)
    (he : e.isCanonical = true) {before after : List Token}
    (heq : r.tokens = before ++ op :: after) :
    before.count .rparen ≠ before.count .lparen := by
  intro houter
  obtain ⟨-, hcr, -, hfit⟩ := h.isCanonical_iff.1 he
  have := opener_le_of_outer hcr h heq houter
  have := h.rightRank_lt_leftRank
  omega

/-- An operator splits the tokens of canonical expressions in one place only. -/
theorem Joins.tokens_inj {op : Token} {l r e l' r' f : Expr} (he : Joins op l r e)
    (hf : Joins op l' r' f) (hce : e.isCanonical = true) (hcf : f.isCanonical = true)
    (heq : e.tokens = f.tokens) : l.tokens = l'.tokens ∧ r.tokens = r'.tokens := by
  have heq' : l.tokens ++ op :: r.tokens = l'.tokens ++ op :: r'.tokens := by
    rw [← he.tokens_eq, ← hf.tokens_eq, heq]
  rcases he.tokens_eq_append (heq.trans hf.tokens_eq) with ⟨rest, hl⟩ | ⟨-, hl⟩ | ⟨rest, hl, hr⟩
  · rw [hl, List.append_assoc] at heq'
    have hr := (List.cons.inj (List.append_cancel_left heq')).2.symm
    have houter := hf.count_eq_of_append (hl ▸ l.balanced_tokens.closed)
    exact absurd houter (hf.not_outer_right hcf hr)
  · rw [hl] at heq'
    exact ⟨hl.symm, (List.cons.inj (List.append_cancel_left heq')).2⟩
  · have houter := he.count_eq_of_append (hl ▸ l'.balanced_tokens.closed)
    exact absurd houter (he.not_outer_right hce hr)

/-- Canonical expressions with the same tokens have the same operator, if one of them has any. -/
theorem Joins.exists_joins {op : Token} {l r e f : Expr} (he : Joins op l r e)
    (hce : e.isCanonical = true) (hcf : f.isCanonical = true) (heq : e.tokens = f.tokens) :
    ∃ l' r', Joins op l' r' f := by
  have hle : f.op.opener.rightRank ≤ op.kind.rightRank :=
    opener_le_of_outer hcf he (heq.symm.trans he.tokens_eq) l.balanced_tokens.closed
  have hge : ∀ {op' l' r'}, Joins op' l' r' f → op.kind.rightRank ≤ op'.kind.rightRank := by
    intro op' l' r' hf
    rw [← he.opener_eq]
    exact opener_le_of_outer hce hf (heq.trans hf.tokens_eq) l'.balanced_tokens.closed
  cases f with
  | and l' r' =>
    have hand := hge (.and l' r')
    cases he with
    | and => exact ⟨l', r', .and l' r'⟩
    | or => exact absurd hand (by decide)
  | or l' r' =>
    have hor := hge (.or l' r')
    cases he with
    | and => exact absurd hle (by simp [Expr.op, Op.opener, kind, Kind.rightRank])
    | or => exact ⟨l', r', .or l' r'⟩
  | _ => cases he <;> exact absurd hle (by simp [Expr.op, Op.opener, kind, Kind.rightRank])

theorem Joins.eq_of_tokens_eq {op : Token} {l r e f : Expr} (he : Joins op l r e)
    (hce : e.isCanonical = true) (hcf : f.isCanonical = true) (heq : e.tokens = f.tokens)
    (ihl : ∀ {l'}, l.isCanonical = true → l'.isCanonical = true → l.tokens = l'.tokens → l = l')
    (ihr : ∀ {r'}, r.isCanonical = true → r'.isCanonical = true → r.tokens = r'.tokens → r = r') :
    e = f := by
  obtain ⟨l', r', hf⟩ := he.exists_joins hce hcf heq
  obtain ⟨hl, hr⟩ := he.tokens_inj hf hce hcf heq
  obtain ⟨hcl, hcr, -⟩ := he.isCanonical_iff.1 hce
  obtain ⟨hcl', hcr', -⟩ := hf.isCanonical_iff.1 hcf
  obtain rfl := ihl hcl hcl' hl
  obtain rfl := ihr hcr hcr' hr
  cases he <;> cases hf <;> rfl

theorem isUnary_of_tokens_eq {e f : Expr} (hce : e.isCanonical = true)
    (hcf : f.isCanonical = true) (heq : e.tokens = f.tokens) (he : e.isUnary = true) :
    f.isUnary = true := by
  cases f with
  | and l r =>
    obtain ⟨_, _, hj⟩ := (Joins.and l r).exists_joins hcf hce heq.symm
    cases hj
    cases he
  | or l r =>
    obtain ⟨_, _, hj⟩ := (Joins.or l r).exists_joins hcf hce heq.symm
    cases hj
    cases he
  | _ => rfl

/-- No two canonical expressions have the same tokens. -/
theorem eq_of_tokens_eq {e f : Expr} (he : e.isCanonical = true) (hf : f.isCanonical = true)
    (heq : e.tokens = f.tokens) : e = f := by
  induction e generalizing f with
  | and l r ihl ihr => exact (Joins.and l r).eq_of_tokens_eq he hf heq ihl ihr
  | or l r ihl ihr => exact (Joins.or l r).eq_of_tokens_eq he hf heq ihl ihr
  -- What is no operator is told by its first token.
  | word w =>
    have hunary := isUnary_of_tokens_eq he hf heq rfl
    cases f with
    | word v =>
      obtain ⟨hw, -⟩ := List.cons.inj heq
      rw [Token.word.inj hw]
    | and _ _ | or _ _ => cases hunary
    | paren _ | exclude _ => cases heq
  | paren e ih =>
    have hunary := isUnary_of_tokens_eq he hf heq rfl
    cases f with
    | paren f =>
      have hinner : e.tokens ++ [.rparen] = f.tokens ++ [.rparen] := (List.cons.inj heq).2
      have hcf : f.isCanonical = true := hf
      rw [ih he hcf (List.append_cancel_right hinner)]
    | and _ _ | or _ _ => cases hunary
    | word _ | exclude _ => cases heq
  | exclude e ih =>
    have hunary := isUnary_of_tokens_eq he hf heq rfl
    cases f with
    | exclude f =>
      have hce := (isCanonical_exclude.1 he).1
      have hcf := (isCanonical_exclude.1 hf).1
      rw [ih hce hcf (List.cons.inj heq).2]
    | and _ _ | or _ _ => cases hunary
    | word _ | paren _ => cases heq

end Expr

end SearchWords
