import SearchWords.Proofs.Expr.Recognition
import SearchWords.Proofs.Token.Join

/-!
# Writing an expression and reading it back

The line of an expression has no conjunctions: its tokens as they are written (`written`) are its
tokens without them, and scanning puts them in again (`scan_toLine`). So an expression is read back
from its line if the automaton builds it from its tokens and if each of its words is read back.
`Printable` spells out what that takes, operators and words apart (`printable_iff`). It is enough
(`parse_toLine_of_printable`), and it holds of every expression that comes from a line, however that
line was written (`printable_of_parse`).
-/

namespace SearchWords.Expr

open Text

/-! ## The tokens of a written expression -/

/-- The tokens that are written for an expression: all but its conjunctions. -/
def written : Expr → List Token
  | .word w => [.word w]
  | .and l r => l.written ++ r.written
  | .or l r => l.written ++ .or :: r.written
  | .paren e => .lparen :: e.written ++ [.rparen]
  | .exclude e => .exclude :: e.written

theorem exists_head?_written (e : Expr) :
    ∃ t, e.written.head? = some t ∧ t.startsTerm = true := by
  induction e with
  | word w => exact ⟨_, rfl, rfl⟩
  | and l r ihl _ =>
    obtain ⟨t, ht, hstarts⟩ := ihl
    exact ⟨t, by simp [written, ht], hstarts⟩
  | or l r ihl _ =>
    obtain ⟨t, ht, hstarts⟩ := ihl
    exact ⟨t, by simp [written, ht], hstarts⟩
  | paren e _ => exact ⟨_, rfl, rfl⟩
  | exclude e _ => exact ⟨_, rfl, rfl⟩

theorem exists_getLast?_written (e : Expr) :
    ∃ t, e.written.getLast? = some t ∧ t.endsTerm = true := by
  induction e with
  | word w => exact ⟨_, rfl, rfl⟩
  | and l r _ ihr =>
    obtain ⟨t, ht, hends⟩ := ihr
    exact ⟨t, by simp [written, List.getLast?_append, ht], hends⟩
  | or l r _ ihr =>
    obtain ⟨t, ht, hends⟩ := ihr
    exact ⟨t, by simp [written, List.getLast?_append, List.getLast?_cons, ht], hends⟩
  | paren e _ => exact ⟨.rparen, by simp [written, List.getLast?_cons], rfl⟩
  | exclude e ih =>
    obtain ⟨t, ht, hends⟩ := ih
    exact ⟨t, by simp [written, List.getLast?_cons, ht], hends⟩

/-- Conjunctions are needed nowhere but between the sides of a conjunction. -/
theorem conjoin_written (e : Expr) : Token.conjoin e.written = e.tokens := by
  induction e with
  | word w => rfl
  | and l r ihl ihr =>
    obtain ⟨t, ht, hends⟩ := exists_getLast?_written l
    obtain ⟨u, hu, hstarts⟩ := exists_head?_written r
    have hseam : Token.seam l.written r.written = [.and] := by
      simp [Token.seam, ht, hu, hends, Token.followsTerm_eq_false_of_startsTerm hstarts]
    simp [written, tokens, Token.conjoin_append, hseam, ihl, ihr]
  | or l r ihl ihr =>
    have hl : Token.seam l.written (.or :: r.written) = [] := by
      simp [Token.seam, Token.followsTerm]
    have hr : Token.seam [.or] r.written = [] := rfl
    have hor := Token.conjoin_append [.or] r.written
    rw [hr, ihr] at hor
    rw [written, Token.conjoin_append, hl, ihl, ← List.singleton_append, hor]
    simp [tokens]
  | paren e ih =>
    have hl : Token.seam [.lparen] (e.written ++ [.rparen]) = [] := rfl
    have hr : Token.seam e.written [.rparen] = [] := by simp [Token.seam, Token.followsTerm]
    have hinner := Token.conjoin_append e.written [.rparen]
    rw [hr, ih] at hinner
    rw [written, List.cons_append, ← List.singleton_append, Token.conjoin_append, hl, hinner]
    simp [tokens]
  | exclude e ih =>
    have hseam : Token.seam [.exclude] e.written = [] := rfl
    rw [written, ← List.singleton_append, Token.conjoin_append, hseam, ih]
    simp [tokens]

/-- The line of an expression is read as the expression is written, if each word is. The rest of the
line must not go on with the last word. -/
theorem tokens_toLine_append {e : Expr} (hw : ∀ w ∈ e.leaves, w.Writable ∧ w.text ≠ "")
    {rest : List Char} (hrest : rest.takeWhile (!Lexeme.isBoundary ·) = []) :
    Lexeme.tokens (e.toLine.toList ++ rest) = e.written ++ Lexeme.tokens rest := by
  have hspace : isWhiteSpace ' ' = true := by decide
  induction e generalizing rest with
  | word w =>
    obtain ⟨hw, hne⟩ := hw w (by simp [leaves])
    exact Lexeme.tokens_toLine_append hw hne hrest
  | and l r ihl ihr =>
    simp only [leaves, List.mem_append, or_imp, forall_and] at hw ihl ihr
    have hline : (Expr.and l r).toLine.toList ++ rest =
        l.toLine.toList ++ ' ' :: (r.toLine.toList ++ rest) := by
      simp [toLine]
    rw [hline, ihl ⟨hw.1.1, hw.2.1⟩ (Lexeme.takeWhile_of_isBoundary (by decide) _),
      Lexeme.tokens_of_isWhiteSpace hspace, ihr ⟨hw.1.2, hw.2.2⟩ hrest]
    simp [written]
  | or l r ihl ihr =>
    simp only [leaves, List.mem_append, or_imp, forall_and] at hw ihl ihr
    have hline : (Expr.or l r).toLine.toList ++ rest =
        l.toLine.toList ++ ' ' :: 'O' :: 'R' :: ' ' :: (r.toLine.toList ++ rest) := by
      simp [toLine]
    rw [hline, ihl ⟨hw.1.1, hw.2.1⟩ (Lexeme.takeWhile_of_isBoundary (by decide) _),
      Lexeme.tokens_of_isWhiteSpace hspace, Lexeme.tokens_of_read (by decide),
      Lexeme.read_of_keyword rfl, Lexeme.tokens_of_isWhiteSpace hspace,
      ihr ⟨hw.1.2, hw.2.2⟩ hrest]
    simp [written]
  | paren e ih =>
    have hline : (Expr.paren e).toLine.toList ++ rest =
        '(' :: (e.toLine.toList ++ ')' :: rest) := by
      simp [toLine]
    rw [hline, Lexeme.tokens_of_read (by decide), Lexeme.read_lparen,
      ih hw (Lexeme.takeWhile_of_isBoundary (by decide) _), Lexeme.tokens_of_read (by decide),
      Lexeme.read_rparen]
    simp [written]
  | exclude e ih =>
    have hline : (Expr.exclude e).toLine.toList ++ rest = '-' :: (e.toLine.toList ++ rest) := by
      simp [toLine]
    rw [hline, Lexeme.tokens_of_read (by decide), Lexeme.read_exclude, ih hw hrest]
    simp [written]

/-- The tokens of the line of an expression are the tokens of the expression. -/
theorem scan_toLine {e : Expr} (hw : ∀ w ∈ e.leaves, w.Writable ∧ w.text ≠ "") :
    Token.scan e.toLine = e.tokens ++ [.stop] := by
  have htokens : Lexeme.tokens (e.toLine.toList ++ []) = e.written ++ Lexeme.tokens [] :=
    tokens_toLine_append hw rfl
  rw [List.append_nil, Lexeme.tokens_nil, List.append_nil] at htokens
  rw [Token.scan_eq, htokens, conjoin_written]

/-! ## Reading an expression back -/

theorem word_mem_tokens_iff {w : Word} {e : Expr} : .word w ∈ e.tokens ↔ w ∈ e.leaves := by
  rw [← filterMap_tokens, List.mem_filterMap]
  constructor
  · intro h
    exact ⟨_, h, rfl⟩
  · rintro ⟨t, ht, hw⟩
    cases t <;> simp_all

theorem parse_eq_ok_iff {line : String} {limit : Nat} {e : Expr} :
    parse line limit = .ok e ↔
      e.Buildable ∧ Token.scan line = e.tokens ++ [.stop] ∧ e.cost ≤ limit := by
  have hparse : parse line limit = .ok e ↔ ofTokens (Token.scan line) limit = .ok e := by
    unfold parse
    cases ofTokens (Token.scan line) limit <;> simp [Except.mapError]
  rw [hparse, Token.scan_eq, ofTokens_eq_ok_iff_buildable (Token.stop_notMem_conjoin _),
    List.append_left_inj, eq_comm (a := e.tokens)]

/-- An expression that can be written: precedence alone groups its operators, each of its words can
be searched for, and each bare word can be told from a phrase and from the other tokens. -/
structure Printable (e : Expr) : Prop where
  canonical : e.isCanonical = true
  phrase : ∀ w ∈ e.leaves, w.phrase = true → w.text ≠ "" ∧ ∃ c ∈ w.text.toList, c ≠ '*'
  bare : ∀ w ∈ e.leaves, w.phrase = false →
    (w.text ≠ "" ∧ ∃ c ∈ w.text.toList, c ≠ '*') ∧
      (∀ c ∈ w.text.toList, isWhiteSpace c = false ∧ c ≠ '(' ∧ c ≠ ')') ∧
      ¬['-'] <+: w.text.toList ∧ w.text ≠ "OR" ∧ ¬['O', 'R', '-'] <+: w.text.toList
  height_le : e.height ≤ 256

/-- What is asked of an expression by the automaton and what is asked of its words by the scanner
have nothing to do with each other. -/
theorem printable_iff {e : Expr} : e.Printable ↔ e.Buildable ∧ ∀ w ∈ e.leaves, w.Writable := by
  constructor
  · rintro ⟨hc, hphrase, hbare, hh⟩
    refine ⟨⟨hc, ?_, hh⟩, fun w hw hp ↦ (hbare w hw hp).2⟩
    intro w hw
    rw [Word.isSearchable_iff]
    cases hp : w.phrase with
    | true => exact hphrase w hw hp
    | false => exact (hbare w hw hp).1
  · rintro ⟨⟨hc, hsearch, hh⟩, hwrite⟩
    refine ⟨hc, ?_, ?_, hh⟩
    · intro w hw _
      exact w.isSearchable_iff.1 (hsearch w hw)
    · intro w hw hp
      exact ⟨w.isSearchable_iff.1 (hsearch w hw), hwrite w hw hp⟩

/-- Every expression that comes from a line can be written, within the limit of that line. -/
theorem printable_of_parse {line : String} {limit : Nat} {e : Expr}
    (h : parse line limit = .ok e) : e.Printable ∧ e.cost ≤ limit := by
  obtain ⟨he, hscan, hcost⟩ := parse_eq_ok_iff.1 h
  refine ⟨printable_iff.2 ⟨he, ?_⟩, hcost⟩
  intro w hw
  rw [Token.scan_eq, List.append_left_inj] at hscan
  have hmem : .word w ∈ Token.conjoin (Lexeme.tokens line.toList) := by
    rw [hscan]
    exact word_mem_tokens_iff.2 hw
  exact Token.writable_of_mem_conjoin hmem

/-- An expression that can be written is read back, within any limit that covers its cost. -/
theorem parse_toLine_of_printable {e : Expr} (he : e.Printable) {limit : Nat}
    (hcost : e.cost ≤ limit) : parse e.toLine limit = .ok e := by
  obtain ⟨hbuild, hwrite⟩ := printable_iff.1 he
  refine parse_eq_ok_iff.2 ⟨hbuild, scan_toLine ?_, hcost⟩
  intro w hw
  exact ⟨hwrite w hw, (w.isSearchable_iff.1 (hbuild.searchable w hw)).1⟩

/-- The expression of a line is read back from its own line, within the same limit. -/
theorem parse_toLine_of_parse (line : String) (limit : Nat) (e : Expr)
    (h : parse line limit = .ok e) : parse e.toLine limit = .ok e := by
  obtain ⟨he, hcost⟩ := printable_of_parse h
  exact parse_toLine_of_printable he hcost

/-- The quote in front of the last word is never closed. Written again, it is escaped. -/
theorem parse_toLine_unclosed_quote :
    let line := "(a)OR-\"b \\\" c\"\"d*"
    let e : Expr := .and (.or (.paren (.word (.bare "a"))) (.exclude (.word (.quoted "b \" c"))))
      (.word (.bare "\"d*"))
    parse line 16 = .ok e ∧ e.toLine = "(a) OR -\"b \\\" c\" \\\"d*" ∧
      parse e.toLine 16 = .ok e := by
  intro line e
  have h : parse line 16 = .ok e := by decide +kernel
  exact ⟨h, by decide, parse_toLine_of_parse line 16 e h⟩

/-- An expression is read back from its line, within some limit, if and only if it is printable, and
lines have no other expressions. -/
theorem exists_parse_toLine_iff :
    (∀ e : Expr, (∃ limit, parse e.toLine limit = .ok e) ↔ e.Printable) ∧
      ∀ (line : String) (limit : Nat) (e : Expr), parse line limit = .ok e → e.Printable := by
  refine ⟨fun e ↦ ⟨?_, ?_⟩, ?_⟩
  · rintro ⟨limit, h⟩
    exact (printable_of_parse h).1
  · intro he
    exact ⟨e.cost, parse_toLine_of_printable he le_rfl⟩
  · intro line limit e h
    exact (printable_of_parse h).1

/-- The keyword is read back as a phrase and not as a bare word. -/
theorem exists_parse_toLine_keyword :
    (∃ limit, parse (word (.quoted "OR")).toLine limit = .ok (.word (.quoted "OR"))) ∧
      ¬∃ limit, parse (word (.bare "OR")).toLine limit = .ok (.word (.bare "OR")) := by
  constructor
  · refine (exists_parse_toLine_iff.1 _).2 ⟨rfl, ?_, ?_, by decide⟩
    · simp [leaves, Word.quoted]
    · simp [leaves, Word.quoted]
  · intro h
    obtain ⟨-, -, -, hor, -⟩ := ((exists_parse_toLine_iff.1 _).1 h).bare (.bare "OR")
      (by simp [leaves]) rfl
    exact hor rfl

end SearchWords.Expr
