import SearchWords.Expr
import SearchWords.Text.Literal

/-! # Outlines

An expression as an indented list of its operations, one to a line. -/

namespace SearchWords

/-- The name of a word's form with its text as a literal. -/
def Word.outline (w : Word) : String :=
  (if w.phrase then "Phrase" else "Word") ++ "(" ++ Text.literal w.text ++ ")"

namespace Expr

/-- A line of an outline, indented by two spaces a level. -/
def outlineLine (level : Nat) (text : String) : String :=
  String.ofList (List.replicate (2 * level) ' ') ++ text ++ "\n"

/-- The outline of an expression whose root stands at `level`. -/
def outlineAt (level : Nat) : Expr → String
  | .word w => outlineLine level w.outline
  | .and l r => outlineLine level Op.and.name ++ l.outlineAt (level + 1) ++ r.outlineAt (level + 1)
  | .or l r => outlineLine level Op.or.name ++ l.outlineAt (level + 1) ++ r.outlineAt (level + 1)
  | .paren e => outlineLine level Op.paren.name ++ e.outlineAt (level + 1)
  | .exclude e => outlineLine level Op.exclude.name ++ e.outlineAt (level + 1)

def outline (e : Expr) : String :=
  e.outlineAt 0

end Expr

end SearchWords
