import SearchWords.Automaton

/-! # Expressions that need no more parentheses

An expression is canonical when its tokens, grouped by precedence alone, give the expression back.
Each canonical expression takes a fixed number of rounds to parse. -/

namespace SearchWords

/-- A word with a character that is no wildcard. -/
def Word.isSearchable (w : Word) : Bool :=
  !Word.onlyWildcards w.text

namespace Expr

/-- The tokens of an expression from left to right. -/
def tokens : Expr → List Token
  | .word w => [.word w]
  | .and l r => l.tokens ++ .and :: r.tokens
  | .or l r => l.tokens ++ .or :: r.tokens
  | .paren e => .lparen :: e.tokens ++ [.rparen]
  | .exclude e => .exclude :: e.tokens

/-- An expression that is not split by a conjunction or a disjunction. -/
def isUnary : Expr → Bool
  | .and _ _ | .or _ _ => false
  | .word _ | .paren _ | .exclude _ => true

/-- Conjunctions and disjunctions group to the left, the former around the latter, and an exclusion
applies to the nearest term. -/
def isCanonical : Expr → Bool
  | .word _ => true
  | .and l r => l.isCanonical && r.isCanonical && r.op ≠ .and
  | .or l r => l.isCanonical && r.isCanonical && l.op ≠ .and && r.isUnary
  | .paren e => e.isCanonical
  | .exclude e => e.isCanonical && e.isUnary

/-- The rounds that move and reduce an expression. A run of exclusions is reduced in one round,
which is counted for the first of them. -/
def rounds (excluded : Bool) : Expr → Nat
  | .word _ => 2
  | .and l r | .or l r => l.rounds false + r.rounds false + 2
  | .paren e => e.rounds false + 3
  | .exclude e => e.rounds true + 1 + if excluded then 0 else 1

/-- The number of rounds in which an expression is parsed, the last one included. -/
def cost (e : Expr) : Nat :=
  e.rounds false + 1

@[simp] theorem tokens_ne_nil (e : Expr) : e.tokens ≠ [] := by
  cases e <;> simp [tokens]

/-- The words among the tokens of an expression are its leaves. -/
theorem filterMap_tokens (e : Expr) :
    (e.tokens.filterMap fun t => match t with | .word w => some w | _ => none) = e.leaves := by
  induction e with
  | word w => rfl
  | and l r hl hr => simp [tokens, leaves, hl, hr]
  | or l r hl hr => simp [tokens, leaves, hl, hr]
  | paren e ih => simp [tokens, leaves, ih]
  | exclude e ih => simp [tokens, leaves, ih]

end Expr

end SearchWords
