import SearchWords.Grammar
import SearchWords.Proofs.Expr.RoundTrip
import SearchWords.Proofs.Expr.Unambiguous

/-!
# Lines are parsed as the grammar says

The grammar speaks of the tokens that are written, in which terms stand side by side and
conjunctions do not show; the automaton works on tokens with conjunctions between them. Both ends
meet in the canonical expressions: an expression is derived from the tokens that are written for it
if and only if it is canonical (`derives_iff`), and for these the conjunctions that scanning puts in
are the ones that the expression has (`conjoin_written`). So a line has at most one derivation, and
the parse of the line finds it (`parse_eq_ok_iff_derives`).
-/

namespace SearchWords

open Grammar

/-! ## Derivations and canonical expressions -/

/-- The expressions that may stand at a level without parentheses around them. -/
def Grammar.Level.Admits : Level → Expr → Prop
  | .line, _ => True
  | .alternative, e => e.op ≠ .and
  | .term, e => e.isUnary = true

theorem Expr.op_ne_and_of_isUnary {e : Expr} (h : e.isUnary = true) : e.op ≠ .and := by
  cases e with
  | and l r => cases h
  | _ => simp [op]

namespace Derives

variable {level : Level} {ts : List Token} {e f : Expr}

theorem of_term (h : Derives .term ts e) : Derives level ts e := by
  cases level with
  | line => exact .alternative (.term h)
  | alternative => exact .term h
  | term => exact h

/-- What is derived is canonical, and its tokens are those it is derived from. -/
theorem sound (h : Derives level ts e) :
    e.isCanonical = true ∧ e.written = ts ∧ level.Admits e := by
  induction h with
  | word w => exact ⟨rfl, rfl, rfl⟩
  | exclude _ ih =>
    obtain ⟨hc, rfl, hadmits⟩ := ih
    have hadmits : Expr.isUnary _ = true := hadmits
    exact ⟨by simp [Expr.isCanonical, hc, hadmits], rfl, rfl⟩
  | paren _ ih =>
    obtain ⟨hc, rfl, -⟩ := ih
    exact ⟨hc, rfl, rfl⟩
  | term _ ih =>
    obtain ⟨hc, rfl, hadmits⟩ := ih
    exact ⟨hc, rfl, Expr.op_ne_and_of_isUnary hadmits⟩
  | or _ _ ihl ihr =>
    obtain ⟨hcl, rfl, hadmitsl⟩ := ihl
    obtain ⟨hcr, rfl, hadmitsr⟩ := ihr
    have hadmitsl : Expr.op _ ≠ .and := hadmitsl
    have hadmitsr : Expr.isUnary _ = true := hadmitsr
    refine ⟨by simp [Expr.isCanonical, hcl, hcr, hadmitsl, hadmitsr], rfl, ?_⟩
    exact fun hop ↦ by cases hop
  | alternative _ ih =>
    obtain ⟨hc, rfl, -⟩ := ih
    exact ⟨hc, rfl, trivial⟩
  | and _ _ ihl ihr =>
    obtain ⟨hcl, rfl, -⟩ := ihl
    obtain ⟨hcr, rfl, hadmits⟩ := ihr
    have hadmits : Expr.op _ ≠ .and := hadmits
    exact ⟨by simp [Expr.isCanonical, hcl, hcr, hadmits], rfl, trivial⟩

/-- Every canonical expression is derived, at each level that admits it. -/
theorem of_isCanonical (hc : e.isCanonical = true) (hadmits : level.Admits e) :
    Derives level e.written e := by
  induction e generalizing level with
  | word w => exact (Derives.word w).of_term
  | and l r ihl ihr =>
    simp only [Expr.isCanonical, Bool.and_eq_true, decide_eq_true_eq] at hc
    obtain ⟨⟨hcl, hcr⟩, hne⟩ := hc
    cases level with
    | line => exact .and (ihl hcl trivial) (ihr hcr hne)
    | alternative => exact absurd rfl hadmits
    | term => cases hadmits
  | or l r ihl ihr =>
    simp only [Expr.isCanonical, Bool.and_eq_true, decide_eq_true_eq] at hc
    obtain ⟨⟨⟨hcl, hcr⟩, hne⟩, hunary⟩ := hc
    have hor : Derives .alternative (Expr.or l r).written (.or l r) :=
      .or (ihl hcl hne) (ihr hcr hunary)
    cases level with
    | line => exact .alternative hor
    | alternative => exact hor
    | term => cases hadmits
  | paren e ih => exact (Derives.paren (ih hc trivial)).of_term
  | exclude e ih =>
    simp only [Expr.isCanonical, Bool.and_eq_true] at hc
    exact (Derives.exclude (ih hc.1 hc.2)).of_term

end Derives

/-- The derivations are those of canonical expressions from the tokens that are written for them. -/
theorem derives_iff {level : Level} {ts : List Token} {e : Expr} :
    Derives level ts e ↔ e.isCanonical = true ∧ e.written = ts ∧ level.Admits e := by
  refine ⟨Derives.sound, ?_⟩
  rintro ⟨hc, rfl, hadmits⟩
  exact .of_isCanonical hc hadmits

namespace Derives

variable {level : Level} {ts : List Token} {e f : Expr}

/-- The conjunctions that are put between the tokens are those of the expression. -/
theorem conjoin_eq (h : Derives level ts e) : Token.conjoin ts = e.tokens := by
  obtain ⟨-, rfl, -⟩ := h.sound
  exact e.conjoin_written

/-- The grammar is unambiguous. -/
theorem unique (he : Derives level ts e) (hf : Derives level ts f) : e = f := by
  refine Expr.eq_of_tokens_eq he.sound.1 hf.sound.1 ?_
  rw [← he.conjoin_eq, hf.conjoin_eq]

end Derives

/-! ## Parsing -/

namespace Expr

theorem word_mem_written_iff {w : Word} {e : Expr} : .word w ∈ e.written ↔ w ∈ e.leaves := by
  induction e with
  | word v => simp [written, leaves]
  | and l r ihl ihr => simp [written, leaves, ihl, ihr]
  | or l r ihl ihr => simp [written, leaves, ihl, ihr]
  | paren e ih => simp [written, leaves, ih]
  | exclude e ih => simp [written, leaves, ih]

theorem and_notMem_written (e : Expr) : .and ∉ e.written := by
  induction e with
  | word w => simp [written]
  | and l r ihl ihr => simp [written, ihl, ihr]
  | or l r ihl ihr => simp [written, ihl, ihr]
  | paren e ih => simp [written, ih]
  | exclude e ih => simp [written, ih]

/-- An expression is written without its conjunctions. -/
theorem filter_tokens (e : Expr) : e.tokens.filter (· ≠ .and) = e.written := by
  rw [← conjoin_written, Token.filter_conjoin e.and_notMem_written]

/-- Two rounds for each token are enough. -/
theorem rounds_le (e : Expr) (excluded : Bool) : e.rounds excluded ≤ 2 * e.tokens.length := by
  induction e generalizing excluded with
  | word w => exact Nat.le_refl _
  | and l r ihl ihr =>
    have := ihl false
    have := ihr false
    simp only [rounds, tokens, List.length_append, List.length_cons]
    omega
  | or l r ihl ihr =>
    have := ihl false
    have := ihr false
    simp only [rounds, tokens, List.length_append, List.length_cons]
    omega
  | paren e ih =>
    have := ih false
    simp only [rounds, tokens, List.length_append, List.length_cons, List.length_nil]
    omega
  | exclude e ih =>
    have := ih true
    simp only [rounds, tokens, List.length_cons]
    split <;> omega

/-- Two rounds for each token of a line, its marker included, cover the cost of its expression. -/
theorem cost_le_of_scan {line : String} {e : Expr} (h : Token.scan line = e.tokens ++ [.stop]) :
    e.cost ≤ 2 * (Token.scan line).length := by
  have := e.rounds_le false
  rw [h, List.length_append, List.length_singleton, cost]
  omega

theorem scan_eq_of_derives {line : String} {level : Level} {e : Expr}
    (h : Derives level (Lexeme.tokens line.toList) e) : Token.scan line = e.tokens ++ [.stop] := by
  rw [Token.scan_eq, h.conjoin_eq]

theorem buildable_iff {e : Expr} :
    e.Buildable ↔ e.isCanonical = true ∧
      (∀ w ∈ e.leaves, w.text ≠ "" ∧ ∃ c ∈ w.text.toList, c ≠ '*') ∧ e.height ≤ 256 := by
  constructor
  · rintro ⟨hc, hw, hh⟩
    exact ⟨hc, fun w h ↦ w.isSearchable_iff.1 (hw w h), hh⟩
  · rintro ⟨hc, hw, hh⟩
    exact ⟨hc, fun w h ↦ w.isSearchable_iff.2 (hw w h), hh⟩

/-- A line is parsed to what the grammar derives from the tokens written in it, provided that each
of its words can be searched for and the expression has at most 256 levels. The limit must allow for
two rounds for each token. A line has no more than one derivation, and the conjunctions put between
its tokens are those of the derived expression. -/
theorem parse_eq_ok_iff_derives (line : String) (limit : Nat)
    (hlimit : 2 * (Token.scan line).length ≤ limit) :
    let raw := (Token.scan line).dropLast.filter (· ≠ .and)
    (∀ e, parse line limit = .ok e ↔
        Derives .line raw e ∧
        (∀ w, .word w ∈ raw → w.text ≠ "" ∧ ∃ c ∈ w.text.toList, c ≠ '*') ∧ e.height ≤ 256) ∧
      (∀ e f, Derives .line raw e → Derives .line raw f → e = f) ∧
      ∀ e, Derives .line raw e → Token.scan line = e.tokens ++ [.stop] := by
  intro raw
  have hraw : raw = Lexeme.tokens line.toList := Token.filter_dropLast_scan line
  refine ⟨fun e ↦ ?_, fun e f he hf ↦ he.unique hf, fun e h ↦ scan_eq_of_derives (hraw ▸ h)⟩
  rw [parse_eq_ok_iff, buildable_iff]
  constructor
  · rintro ⟨⟨hc, hw, hh⟩, hscan, -⟩
    have hwritten : e.written = raw := by
      simp only [raw, hscan, List.dropLast_concat, filter_tokens]
    refine ⟨derives_iff.2 ⟨hc, hwritten, trivial⟩, ?_, hh⟩
    intro w hmem
    exact hw w (word_mem_written_iff.1 (hwritten ▸ hmem))
  · rintro ⟨hd, hw, hh⟩
    obtain ⟨hc, hwritten, -⟩ := hd.sound
    have hscan := scan_eq_of_derives (hraw ▸ hd)
    refine ⟨⟨hc, ?_, hh⟩, hscan, (cost_le_of_scan hscan).trans hlimit⟩
    intro w hmem
    exact hw w (hwritten ▸ word_mem_written_iff.2 hmem)

/-- Words side by side around a disjunction, read with two rounds for each token. -/
theorem parse_derived_alternatives :
    let line := "a OR -\"b c\" d"
    let e : Expr := .and (.or (.word (.bare "a")) (.exclude (.word (.quoted "b c"))))
      (.word (.bare "d"))
    2 * (Token.scan line).length ≤ 14 ∧
      Derives .line ((Token.scan line).dropLast.filter (· ≠ .and)) e ∧ parse line 14 = .ok e := by
  intro line e
  have hlimit : 2 * (Token.scan line).length ≤ 14 := by decide +kernel
  have hraw : (Token.scan line).dropLast.filter (· ≠ .and) =
      [.word (.bare "a"), .or, .exclude, .word (.quoted "b c"), .word (.bare "d")] := by
    decide +kernel
  have hderives : Derives .line ((Token.scan line).dropLast.filter (· ≠ .and)) e := by
    rw [hraw]
    exact .and (.alternative (.or (.term (.word _)) (.exclude (.word _)))) (.term (.word _))
  refine ⟨hlimit, hderives, ((parse_eq_ok_iff_derives line 14 hlimit).1 e).2 ⟨hderives, ?_, ?_⟩⟩
  · rw [hraw]
    simp [Word.bare, Word.quoted]
  · decide

end Expr

end SearchWords
