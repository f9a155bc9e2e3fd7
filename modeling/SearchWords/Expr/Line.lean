import SearchWords.Expr
import SearchWords.Text.Escape

/-! # Writing an expression as a search line -/

namespace SearchWords

/-- A word as it is written in a line: escaped, and between quotes if it is a phrase. -/
def Word.toLine (w : Word) : String :=
  let text := String.ofList (Text.escape w.text.toList)
  if w.phrase then "\"" ++ text ++ "\"" else text

namespace Expr

/-- An expression as a search line. No parentheses are added. -/
def toLine : Expr → String
  | .word w => w.toLine
  | .and l r => l.toLine ++ " " ++ r.toLine
  | .or l r => l.toLine ++ " OR " ++ r.toLine
  | .paren e => "(" ++ e.toLine ++ ")"
  | .exclude e => "-" ++ e.toLine

end Expr

end SearchWords
