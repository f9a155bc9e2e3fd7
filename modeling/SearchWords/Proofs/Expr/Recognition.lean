import Mathlib.Data.List.Basic
import SearchWords.Expr.Parse
import SearchWords.Proofs.Automaton.Coherence
import SearchWords.Proofs.Automaton.Completeness

/-!
# The expressions of a line of tokens

A line of tokens has at most one expression, and the automaton finds it. Soundness (the stack is
coherent in every round) and completeness (the tokens of an expression are read in a known number of
rounds) meet in `ofTokens_eq_ok_iff_buildable`. The same is then said without any notion of the
automaton: in terms of the tokens of an expression, of its shape, of its words and of a count of its
operations (`rounds_eq_count`).
-/

namespace SearchWords

theorem Word.isSearchable_iff (w : Word) :
    w.isSearchable = true ↔ w.text ≠ "" ∧ ∃ c ∈ w.text.toList, c ≠ Word.wildcard := by
  have hsome : w.isSearchable = true ↔ ∃ c ∈ w.text.toList, c ≠ Word.wildcard := by
    simp [Word.isSearchable, Word.onlyWildcards]
  rw [hsome]
  constructor
  · rintro ⟨c, hc, hne⟩
    refine ⟨?_, c, hc, hne⟩
    intro h
    simp [h] at hc
  · rintro ⟨-, h⟩
    exact h

namespace Expr

/-! ## Counting operations -/

/-- The operations of an expression, the outermost first. -/
def ops : Expr → List Op
  | .word _ => [.word]
  | .and l r => .and :: l.ops ++ r.ops
  | .or l r => .or :: l.ops ++ r.ops
  | .paren e => .paren :: e.ops
  | .exclude e => .exclude :: e.ops

/-- The number of exclusions that are not the operand of an exclusion themselves. For the outermost
operation this is said by `excluded`. -/
def exclusionRuns (excluded : Bool) : Expr → Nat
  | .word _ => 0
  | .and l r | .or l r => l.exclusionRuns false + r.exclusionRuns false
  | .paren e => e.exclusionRuns false
  | .exclude e => e.exclusionRuns true + if excluded then 0 else 1

/-- Every operation takes a fixed number of rounds, one round being shared by exclusions in a
row. -/
theorem rounds_eq_count (e : Expr) (excluded : Bool) :
    e.rounds excluded = 2 * e.ops.count .word + 2 * e.ops.count .and + 2 * e.ops.count .or +
      3 * e.ops.count .paren + e.ops.count .exclude + e.exclusionRuns excluded := by
  induction e generalizing excluded with
  | word w => rfl
  | and l r ihl ihr =>
    simp [rounds, ops, exclusionRuns, ihl, ihr]
    omega
  | or l r ihl ihr =>
    simp [rounds, ops, exclusionRuns, ihl, ihr]
    omega
  | paren e ih =>
    simp [rounds, ops, exclusionRuns, ih]
    omega
  | exclude e ih =>
    simp [rounds, ops, exclusionRuns, ih]
    omega

/-! ## Recognition -/

theorem stop_notMem_tokens (e : Expr) : .stop ∉ e.tokens := by
  induction e with
  | word w => simp [tokens]
  | and l r ihl ihr => simp [tokens, ihl, ihr]
  | or l r ihl ihr => simp [tokens, ihl, ihr]
  | paren e ih => simp [tokens, ih]
  | exclude e ih => simp [tokens, ih]

/-- The automaton gives an expression just for its tokens, if it can be built at all and the limit
covers its cost. -/
theorem ofTokens_eq_ok_iff_buildable {tokens : List Token} (hstop : .stop ∉ tokens) {limit : Nat}
    {e : Expr} :
    ofTokens (tokens ++ [.stop]) limit = .ok e ↔
      e.Buildable ∧ e.tokens = tokens ∧ e.cost ≤ limit := by
  constructor
  · intro h
    obtain ⟨he, rest, htokens⟩ := Automaton.sound_of_run h
    obtain ⟨rfl, -, -⟩ :=
      (List.append_cons_inj_of_notMem hstop (List.not_mem_nil)).1 htokens
    refine ⟨he, rfl, ?_⟩
    by_contra hcost
    rw [ofTokens, Automaton.result_run_tokens he, if_neg hcost] at h
    cases h
  · rintro ⟨he, rfl, hcost⟩
    rw [ofTokens, Automaton.result_run_tokens he, if_pos hcost]

/-- A line of tokens without a marker is parsed to `e` if and only if it consists of the tokens of
`e`, operators in `e` group as their precedence says, each word of `e` has a character that is no
wildcard, `e` has at most 256 levels, and the limit is not below the number of rounds that the
operations of `e` take. -/
theorem ofTokens_eq_ok_iff (tokens : List Token) (hstop : .stop ∉ tokens) (limit : Nat)
    (e : Expr) :
    ofTokens (tokens ++ [.stop]) limit = .ok e ↔
      e.tokens = tokens ∧ e.isCanonical = true ∧
      (∀ w ∈ e.leaves, w.text ≠ "" ∧ ∃ c ∈ w.text.toList, c ≠ '*') ∧ e.height ≤ 256 ∧
      2 * e.ops.count .word + 2 * e.ops.count .and + 2 * e.ops.count .or +
        3 * e.ops.count .paren + e.ops.count .exclude + e.exclusionRuns false + 1 ≤ limit := by
  rw [ofTokens_eq_ok_iff_buildable hstop, ← rounds_eq_count]
  constructor
  · rintro ⟨⟨hc, hw, hh⟩, htokens, hcost⟩
    exact ⟨htokens, hc, fun w h ↦ w.isSearchable_iff.1 (hw w h), hh, hcost⟩
  · rintro ⟨htokens, hc, hw, hh, hcost⟩
    exact ⟨⟨hc, fun w h ↦ w.isSearchable_iff.2 (hw w h), hh⟩, htokens, hcost⟩

/-- Two exclusions in a row share a round: the line takes 17 rounds and no fewer. -/
theorem ofTokens_double_exclusion :
    let e : Expr := .and (.or (.exclude (.exclude (.word (.bare "a")))) (.word (.quoted "b*")))
      (.paren (.word (.bare "c")))
    .stop ∉ e.tokens ∧ ofTokens (e.tokens ++ [.stop]) 17 = .ok e ∧
      ofTokens (e.tokens ++ [.stop]) 16 ≠ .ok e := by
  intro e
  have hstop : .stop ∉ e.tokens := by decide
  have hw : ∀ w ∈ e.leaves, w.text ≠ "" ∧ ∃ c ∈ w.text.toList, c ≠ '*' := by
    simp [e, leaves, Word.bare, Word.quoted]
  refine ⟨hstop, ?_, ?_⟩
  · exact (ofTokens_eq_ok_iff e.tokens hstop 17 e).2 ⟨rfl, by decide, hw, by decide, by decide⟩
  · intro h
    have hcost := ((ofTokens_eq_ok_iff e.tokens hstop 16 e).1 h).2.2.2.2
    exact absurd hcost (by decide)

end Expr

end SearchWords
