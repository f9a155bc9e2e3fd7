import SearchWords.Word

/-! # Search expressions -/

namespace SearchWords

/-- A search expression. Groups are kept as they were written. -/
inductive Expr where
  | word (w : Word)
  | and (left right : Expr)
  | or (left right : Expr)
  | paren (inner : Expr)
  | exclude (inner : Expr)
deriving DecidableEq, Repr

namespace Expr

/-- The outermost operation of an expression. -/
inductive Op where
  | word
  | and
  | or
  | paren
  | exclude
deriving DecidableEq, Repr

def Op.name : Op → String
  | .word => "Word"
  | .and => "And"
  | .or => "Or"
  | .paren => "Paren"
  | .exclude => "Exclude"

def op : Expr → Op
  | .word _ => .word
  | .and _ _ => .and
  | .or _ _ => .or
  | .paren _ => .paren
  | .exclude _ => .exclude

/-- An expression that can only exclude: it has no term that a match must contain. -/
def isComplement : Expr → Bool
  | .word _ => false
  | .and l r => l.isComplement && r.isComplement
  | .or l r => l.isComplement || r.isComplement
  | .paren e => e.isComplement
  | .exclude _ => true

/-- The words of an expression from left to right. -/
def leaves : Expr → List Word
  | .word w => [w]
  | .and l r | .or l r => l.leaves ++ r.leaves
  | .paren e | .exclude e => e.leaves

/-- The texts of the words of an expression, behind those that were found before. -/
def collectWords : Expr → List String → List String
  | .word w, found => found ++ [w.text]
  | .and l r, found | .or l r, found => r.collectWords (l.collectWords found)
  | .paren e, found | .exclude e, found => e.collectWords found

/-- The texts of the words from left to right. -/
def words (e : Expr) : List String :=
  e.collectWords []

def wordCount : Expr → Nat
  | .word _ => 1
  | .and l r | .or l r => l.wordCount + r.wordCount
  | .paren e | .exclude e => e.wordCount

/-- The number of levels, one for a word. -/
def height : Expr → Nat
  | .word _ => 1
  | .and l r | .or l r => max l.height r.height + 1
  | .paren e | .exclude e => e.height + 1

theorem length_leaves (e : Expr) : e.leaves.length = e.wordCount := by
  induction e with
  | word w => rfl
  | and l r hl hr => simp [leaves, wordCount, hl, hr]
  | or l r hl hr => simp [leaves, wordCount, hl, hr]
  | paren e ih => simpa [leaves, wordCount] using ih
  | exclude e ih => simpa [leaves, wordCount] using ih

theorem collectWords_eq (e : Expr) (found : List String) :
    e.collectWords found = found ++ e.leaves.map Word.text := by
  induction e generalizing found with
  | word w => rfl
  | and l r hl hr => simp [collectWords, leaves, hl, hr]
  | or l r hl hr => simp [collectWords, leaves, hl, hr]
  | paren e ih => exact ih found
  | exclude e ih => exact ih found

/-- What is collected are the texts of the leaves. -/
theorem words_eq (e : Expr) : e.words = e.leaves.map Word.text := by
  rw [words, collectWords_eq, List.nil_append]

@[simp] theorem length_words (e : Expr) : e.words.length = e.wordCount := by
  rw [words_eq, List.length_map, length_leaves]

/-! ## Truth -/

/-- The truth of an expression, given which words hold. -/
def eval (holds : String → Bool) : Expr → Bool
  | .word w => holds w.text
  | .and l r => l.eval holds && r.eval holds
  | .or l r => l.eval holds || r.eval holds
  | .paren e => e.eval holds
  | .exclude e => !e.eval holds

/-- Two expressions that hold of the same texts. -/
def Equivalent (e f : Expr) : Prop :=
  ∀ holds, e.eval holds = f.eval holds

theorem Equivalent.refl (e : Expr) : e.Equivalent e := fun _ => rfl

end Expr

end SearchWords
