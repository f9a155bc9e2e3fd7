import SearchWords.Expr
import SearchWords.Token

/-! # The grammar of search lines

A line is a sequence of alternatives side by side, an alternative is a sequence of terms with `OR`
between them, and a term is a word, a group, or the exclusion of a term. -/

namespace SearchWords

namespace Grammar

/-- The three levels of a line. -/
inductive Level where
  | line
  | alternative
  | term
deriving DecidableEq, Repr

end Grammar

open Grammar in
/-- The tokens of a line, in which conjunctions are not written, with the expression they mean. -/
inductive Derives : Level → List Token → Expr → Prop where
  | word (w : Word) : Derives .term [.word w] (.word w)
  | exclude {ts : List Token} {e : Expr} :
      Derives .term ts e → Derives .term (.exclude :: ts) (.exclude e)
  | paren {ts : List Token} {e : Expr} :
      Derives .line ts e → Derives .term (.lparen :: ts ++ [.rparen]) (.paren e)
  | term {ts : List Token} {e : Expr} : Derives .term ts e → Derives .alternative ts e
  | or {ts us : List Token} {l r : Expr} :
      Derives .alternative ts l → Derives .term us r →
        Derives .alternative (ts ++ .or :: us) (.or l r)
  | alternative {ts : List Token} {e : Expr} : Derives .alternative ts e → Derives .line ts e
  | and {ts us : List Token} {l r : Expr} :
      Derives .line ts l → Derives .alternative us r → Derives .line (ts ++ us) (.and l r)

end SearchWords
