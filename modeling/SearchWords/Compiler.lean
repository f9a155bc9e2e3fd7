import SearchWords.Expr.Parse
import SearchWords.Parameters
import SearchWords.Text.Literal
import SearchWords.Word.BooleanMode

/-! # From search words to SQL

Each word of a search becomes one copy of an SQL condition with a value bound to it. Beside the SQL
stands the same search for boolean-mode full-text search, here called `ibl`, and the pieces of
words to highlight in what is found. -/

namespace SearchWords

universe u v

/-- What is made of an expression. -/
structure Fragment (α : Type u) where
  /-- A condition with one copy of the template for each word. -/
  sql : String
  /-- The values bound to the copies, in order. -/
  values : List α
  /-- The boolean-mode expression. -/
  ibl : String
  /-- The pieces of the words that are not excluded. -/
  hits : List String

/-- What is made of a search line. -/
structure Compiled (α : Type u) extends Fragment α where
  /-- The expression that was compiled. -/
  tree : Expr

/-- The search can only exclude. -/
def Compiled.isComplement {α : Type u} (r : Compiled α) : Bool :=
  r.tree.isComplement

/-- How a search is compiled. -/
structure Compiler (α : Type u) where
  /-- The SQL condition for a word. -/
  condition : String
  /-- The value bound to a word. -/
  value : String → α
  /-- The form of a word in boolean mode. -/
  ibl : String → String
  /-- The limit on the rounds of a parse. -/
  limit : Nat

namespace Compiler

variable {α : Type u} {β : Type v}

/-- Bind words unchanged and strip them for boolean mode. -/
def ofTemplate (template : String) : Compiler String where
  condition := "(" ++ template ++ ")"
  value := id
  ibl := Word.strip
  limit := Expr.defaultRounds

def withValue (c : Compiler α) (value : String → β) : Compiler β where
  condition := c.condition
  value := value
  ibl := c.ibl
  limit := c.limit

def withIbl (c : Compiler α) (ibl : String → String) : Compiler α :=
  { c with ibl := ibl }

def withLimit (c : Compiler α) (limit : Nat) : Compiler α :=
  { c with limit := limit }

/-- The boolean-mode form of an operand of a conjunction, marked as required. An exclusion has a
sign already, and the operands of a conjunction have theirs. -/
def signed (op : Expr.Op) (ibl : String) : String :=
  match op with
  | .exclude | .and => ibl
  | .word | .or => "+" ++ ibl
  | .paren => "+(" ++ ibl ++ ")"

/-- The boolean-mode form of an exclusion, in which all but a word is grouped. -/
def negated (op : Expr.Op) (ibl : String) : String :=
  match op with
  | .word => "-" ++ ibl
  | _ => "-(" ++ ibl ++ ")"

/-- The fragment of an expression. -/
def fragment (c : Compiler α) : Expr → Fragment α
  | .word w =>
    { sql := c.condition
      values := [c.value w.text]
      ibl := if w.phrase then "\"" ++ c.ibl w.text ++ "\"" else c.ibl w.text
      hits := Word.pieces w.text }
  | .and l r =>
    let left := c.fragment l
    let right := c.fragment r
    { sql := "( " ++ left.sql ++ " AND " ++ right.sql ++ " )"
      values := left.values ++ right.values
      ibl := signed l.op left.ibl ++ " " ++ signed r.op right.ibl
      hits := left.hits ++ right.hits }
  | .or l r =>
    let left := c.fragment l
    let right := c.fragment r
    { sql := "( " ++ left.sql ++ " OR " ++ right.sql ++ " )"
      values := left.values ++ right.values
      ibl := "(" ++ left.ibl ++ " " ++ right.ibl ++ ")"
      hits := left.hits ++ right.hits }
  | .paren e =>
    let inner := c.fragment e
    { sql := "( " ++ inner.sql ++ " )"
      values := inner.values
      ibl := "(" ++ inner.ibl ++ ")"
      hits := inner.hits }
  | .exclude e =>
    let inner := c.fragment e
    { sql := "( not " ++ inner.sql ++ " )"
      values := inner.values
      ibl := negated e.op inner.ibl
      hits := [] }

/-- Compile a search line. -/
def compile (c : Compiler α) (line : String) : Except QueryError (Compiled α) :=
  (Expr.parse line c.limit).map fun tree => { c.fragment tree with tree := tree }

/-- A text that shows a compiler, its functions left out. -/
def describe (c : Compiler α) : String :=
  "SqlBuilder \x7b word_sql: " ++ Text.literal c.condition ++
    ", max_rounds: " ++ toString c.limit ++ ", .. \x7d"

/-- Every word binds exactly one value. -/
theorem values_fragment (c : Compiler α) (e : Expr) :
    (c.fragment e).values = e.words.map c.value := by
  rw [Expr.words_eq]
  induction e with
  | word w => rfl
  | and l r hl hr => simp [fragment, Expr.leaves, hl, hr]
  | or l r hl hr => simp [fragment, Expr.leaves, hl, hr]
  | paren e ih => exact ih
  | exclude e ih => exact ih

end Compiler

end SearchWords
