import SearchWords.Proofs.Expr.RoundTrip
import SearchWords.Proofs.Token.Concat

/-!
# Groups of lines

A line that has an expression may be put into parentheses, and such groups may be excluded and
joined. The result has the expression that one expects, at the cost of the rounds that the added
tokens take (`parse_group`). For this the line must not be read in another way because of what
stands around it, and it is not, as the parenthesis behind it ends whatever the line ends with
(`tokens_group`).

There is one exception. If a line has an opening quote without a closing one, a quote in what
follows closes it: `("a) (b")` is not two groups but one, with a phrase in it. So a group may be
followed by another only if its line has no such quote.
-/

namespace SearchWords

open Text

/-! ## The tokens of groups -/

namespace Lexeme

/-- The tokens of a line in parentheses, in front of the tokens of what follows. -/
theorem tokens_group {line rest : List Char}
    (hquote : ∀ l ∈ scan line, l.isUnclosed = true → Quiet (')' :: rest)) :
    tokens ('(' :: (line ++ ')' :: rest)) =
      (.lparen :: tokens line ++ [.rparen]) ++ tokens rest := by
  have hboundary : (')' :: rest).takeWhile (!isBoundary ·) = [] :=
    takeWhile_of_isBoundary (by decide) rest
  rw [tokens_of_read (by decide), read_lparen, tokens_append hboundary hquote,
    tokens_of_read (by decide), read_rparen]
  simp

/-- Where nothing follows, a quote that is not closed is no matter. -/
theorem tokens_group_nil (line : List Char) :
    tokens ('(' :: (line ++ [')'])) = .lparen :: tokens line ++ [.rparen] := by
  rw [tokens_group fun _ _ _ ↦ quiet_rparen, tokens_nil, List.append_nil]

end Lexeme

namespace Token

theorem conjoin_group (ts : List Token) :
    conjoin (.lparen :: ts ++ [.rparen]) = .lparen :: conjoin ts ++ [.rparen] := by
  have hright : ∀ us : List Token, seam us [.rparen] = [] := by simp [seam, followsTerm]
  rw [conjoin_append, hright, ← List.singleton_append, conjoin_append]
  simp [seam, endsTerm]

/-- Groups side by side are joined by a conjunction. -/
theorem conjoin_group_append_group (ts us : List Token) :
    conjoin ((.lparen :: ts ++ [.rparen]) ++ (.lparen :: us ++ [.rparen])) =
      conjoin (.lparen :: ts ++ [.rparen]) ++ .and :: conjoin (.lparen :: us ++ [.rparen]) := by
  have hseam : seam (.lparen :: ts ++ [.rparen]) (.lparen :: us ++ [.rparen]) = [.and] := by
    simp [seam, endsTerm, followsTerm, List.getLast?_cons]
  rw [conjoin_append, hseam, List.append_assoc, List.singleton_append]

theorem conjoin_append_or (ts us : List Token) :
    conjoin (ts ++ .or :: us) = conjoin ts ++ .or :: conjoin us := by
  have hleft : seam ts (.or :: us) = [] := by simp [seam, followsTerm]
  have hright : seam [.or] us = [] := rfl
  rw [conjoin_append, hleft, ← List.singleton_append, conjoin_append, hright]
  simp

end Token

namespace Expr

/-! ## The expressions of groups -/

/-- The line `line` has the tokens of `e`, once conjunctions are put between them. -/
def HasTokens (line : String) (e : Expr) : Prop :=
  Token.conjoin (Lexeme.tokens line.toList) = e.tokens

theorem parse_eq_ok_iff_hasTokens {line : String} {limit : Nat} {e : Expr} :
    parse line limit = .ok e ↔ e.Buildable ∧ HasTokens line e ∧ e.cost ≤ limit := by
  rw [parse_eq_ok_iff, Token.scan_eq, List.append_left_inj, HasTokens]

namespace HasTokens

variable {line line' : String} {e e' : Expr}

theorem paren (h : HasTokens line e) : HasTokens ("(" ++ line ++ ")") (.paren e) := by
  have hline : ("(" ++ line ++ ")").toList = '(' :: (line.toList ++ [')']) := by simp
  rw [HasTokens, hline, Lexeme.tokens_group_nil, Token.conjoin_group, h, tokens]

theorem exclude_paren (h : HasTokens line e) :
    HasTokens ("-(" ++ line ++ ")") (.exclude (.paren e)) := by
  have hline : ("-(" ++ line ++ ")").toList = '-' :: '(' :: (line.toList ++ [')']) := by simp
  have hseam : ∀ ts, Token.seam [.exclude] ts = [] := fun _ ↦ rfl
  rw [HasTokens, hline, Lexeme.tokens_of_read (by decide), Lexeme.read_exclude,
    Lexeme.tokens_group_nil, ← List.singleton_append, Token.conjoin_append, hseam,
    Token.conjoin_group, h]
  rfl

section Closed

variable (h : HasTokens line e) (h' : HasTokens line' e')
  (hquote : ∀ l ∈ Lexeme.scan line.toList, l.isUnclosed = false)

include h h' hquote

theorem and_groups :
    HasTokens ("(" ++ line ++ ") (" ++ line' ++ ")") (.and (.paren e) (.paren e')) := by
  have hline : ("(" ++ line ++ ") (" ++ line' ++ ")").toList =
      '(' :: (line.toList ++ ')' :: ' ' :: '(' :: (line'.toList ++ [')'])) := by
    simp
  have htokens : Lexeme.tokens ("(" ++ line ++ ") (" ++ line' ++ ")").toList =
      (.lparen :: Lexeme.tokens line.toList ++ [.rparen]) ++
        (.lparen :: Lexeme.tokens line'.toList ++ [.rparen]) := by
    rw [hline, Lexeme.tokens_group (by simp_all), Lexeme.tokens_of_isWhiteSpace (by decide),
      Lexeme.tokens_group_nil]
  rw [HasTokens, htokens, Token.conjoin_group_append_group, Token.conjoin_group,
    Token.conjoin_group, h, h']
  rfl

theorem or_groups :
    HasTokens ("(" ++ line ++ ") OR (" ++ line' ++ ")") (.or (.paren e) (.paren e')) := by
  have hline : ("(" ++ line ++ ") OR (" ++ line' ++ ")").toList =
      '(' :: (line.toList ++ ')' :: ' ' :: 'O' :: 'R' :: ' ' :: '(' :: (line'.toList ++ [')'])) := by
    simp
  have htokens : Lexeme.tokens ("(" ++ line ++ ") OR (" ++ line' ++ ")").toList =
      (.lparen :: Lexeme.tokens line.toList ++ [.rparen]) ++
        .or :: (.lparen :: Lexeme.tokens line'.toList ++ [.rparen]) := by
    rw [hline, Lexeme.tokens_group (by simp_all), Lexeme.tokens_of_isWhiteSpace (by decide),
      Lexeme.tokens_of_read (by decide), Lexeme.read_of_keyword rfl,
      Lexeme.tokens_of_isWhiteSpace (by decide), Lexeme.tokens_group_nil]
  rw [HasTokens, htokens, Token.conjoin_append_or, Token.conjoin_group, Token.conjoin_group, h, h']
  rfl

end Closed

end HasTokens

section Buildable

variable {op : Token} {l r e : Expr}

theorem Buildable.paren (he : e.Buildable) (hh : e.height ≤ 254) : (Expr.paren e).Buildable := by
  have hmax : Automaton.maxHeight = 256 := rfl
  refine buildable_paren.2 ⟨he, ?_⟩
  rw [height]
  omega

theorem Buildable.exclude_paren (he : e.Buildable) (hh : e.height ≤ 254) :
    (Expr.exclude (.paren e)).Buildable := by
  have hmax : Automaton.maxHeight = 256 := rfl
  have hfit : Token.Kind.exclude.leftRank ≤ Op.paren.opener.rightRank := by decide
  refine buildable_exclude.2 ⟨he.paren hh, hfit, ?_⟩
  rw [height, height]
  omega

/-- Groups may be operands of any operator. -/
theorem Joins.buildable_groups (h : Joins op (.paren l) (.paren r) e) (hl : l.Buildable)
    (hhl : l.height ≤ 254) (hr : r.Buildable) (hhr : r.height ≤ 254) : e.Buildable := by
  have hmax : Automaton.maxHeight = 256 := rfl
  have hleft : op.kind.rightRank < Op.paren.closer.leftRank := by cases h <;> decide
  have hright : op.kind.leftRank ≤ Op.paren.opener.rightRank := by cases h <;> decide
  refine h.buildable_iff.2 ⟨hl.paren hhl, hr.paren hhr, hleft, hright, ?_⟩
  rw [h.height_eq, height, height]
  omega

end Buildable

theorem cost_paren (e : Expr) : (paren e).cost = e.cost + 3 := rfl

theorem cost_exclude_paren (e : Expr) : (exclude (.paren e)).cost = e.cost + 5 := rfl

theorem Joins.cost_groups {op : Token} {l r e : Expr} (h : Joins op (.paren l) (.paren r) e) :
    e.cost = l.cost + r.cost + 7 := by
  simp only [cost, h.rounds_eq, rounds]
  omega

/-- A line that has an expression may be put into parentheses, and the group may be excluded. Two
such groups may be joined, provided that the first line has no quote that the second might close. -/
theorem parse_group (line : String) (limit : Nat) (e : Expr) (h : parse line limit = .ok e)
    (hh : e.height ≤ 254) :
    parse ("(" ++ line ++ ")") (limit + 3) = .ok (.paren e) ∧
      parse ("-(" ++ line ++ ")") (limit + 5) = .ok (.exclude (.paren e)) ∧
      ∀ (line' : String) (limit' : Nat) (e' : Expr), parse line' limit' = .ok e' →
        e'.height ≤ 254 → (∀ l ∈ Lexeme.scan line.toList, l.isUnclosed = false) →
        parse ("(" ++ line ++ ") (" ++ line' ++ ")") (limit + limit' + 7) =
            .ok (.and (.paren e) (.paren e')) ∧
          parse ("(" ++ line ++ ") OR (" ++ line' ++ ")") (limit + limit' + 7) =
            .ok (.or (.paren e) (.paren e')) := by
  obtain ⟨he, htokens, hcost⟩ := parse_eq_ok_iff_hasTokens.1 h
  refine ⟨?_, ?_, ?_⟩
  · refine parse_eq_ok_iff_hasTokens.2 ⟨he.paren hh, htokens.paren, ?_⟩
    rw [cost_paren]
    exact Nat.add_le_add_right hcost 3
  · refine parse_eq_ok_iff_hasTokens.2 ⟨he.exclude_paren hh, htokens.exclude_paren, ?_⟩
    rw [cost_exclude_paren]
    exact Nat.add_le_add_right hcost 5
  · intro line' limit' e' h' hh' hquote
    obtain ⟨he', htokens', hcost'⟩ := parse_eq_ok_iff_hasTokens.1 h'
    have hcosts : e.cost + e'.cost + 7 ≤ limit + limit' + 7 := by omega
    have hand := Joins.and (.paren e) (.paren e')
    have hor := Joins.or (.paren e) (.paren e')
    exact ⟨parse_eq_ok_iff_hasTokens.2 ⟨hand.buildable_groups he hh he' hh',
        htokens.and_groups htokens' hquote, hand.cost_groups.le.trans hcosts⟩,
      parse_eq_ok_iff_hasTokens.2 ⟨hor.buildable_groups he hh he' hh',
        htokens.or_groups htokens' hquote, hor.cost_groups.le.trans hcosts⟩⟩

/-- Where the first line leaves a quote open, the second may close it. -/
example : parse "(\"a) (b\")" 6 = .ok (.paren (.word (.quoted "a) (b"))) := by
  decide +kernel

/-- The first line has parentheses in a phrase, a quote within a word, and a backslash at its end.
The second has a quote that is not closed, which does not matter at the end of a line. -/
theorem parse_group_unruly_lines :
    let line := "\"a) (b\" c\"d\\"
    let line' := "\"x"
    let e : Expr := .and (.word (.quoted "a) (b")) (.word (.bare "c\"d\\"))
    let e' : Expr := .word (.bare "\"x")
    parse line 7 = .ok e ∧ parse line' 3 = .ok e' ∧
      (∀ l ∈ Lexeme.scan line.toList, l.isUnclosed = false) ∧
      parse ("-(" ++ line' ++ ")") 8 = .ok (.exclude (.paren e')) ∧
      parse ("(" ++ line ++ ") OR (" ++ line' ++ ")") 17 = .ok (.or (.paren e) (.paren e')) := by
  intro line line' e e'
  have h : parse line 7 = .ok e := by decide +kernel
  have h' : parse line' 3 = .ok e' := by decide +kernel
  have hquote : ∀ l ∈ Lexeme.scan line.toList, l.isUnclosed = false := by decide +kernel
  obtain ⟨-, hexclude, -⟩ := parse_group line' 3 e' h' (by decide)
  obtain ⟨-, -, hjoin⟩ := parse_group line 7 e h (by decide)
  exact ⟨h, h', hquote, hexclude, (hjoin line' 3 e' h' (by decide) hquote).2⟩

end Expr

end SearchWords
