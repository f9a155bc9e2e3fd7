import SearchWords.Word

/-! # Tokens and their ranks -/

namespace SearchWords

/-- A token of a search line. `and` is never written: it joins two terms that stand side by side.
`stop` marks the end of the line. -/
inductive Token where
  | word (w : Word)
  | and
  | or
  | exclude
  | lparen
  | rparen
  | stop
deriving DecidableEq, Repr

namespace Token

/-- What a token is, apart from the text of a word. -/
inductive Kind where
  | stop
  | lparen
  | rparen
  | word
  | or
  | and
  | exclude
deriving DecidableEq, Repr

def kind : Token → Kind
  | .word _ => .word
  | .and => .and
  | .or => .or
  | .exclude => .exclude
  | .lparen => .lparen
  | .rparen => .rparen
  | .stop => .stop

/-- A term may end with this token. -/
def endsTerm : Token → Bool
  | .word _ | .rparen => true
  | _ => false

/-- This token goes on with the term in front of it, so that nothing has to join the two. -/
def followsTerm : Token → Bool
  | .or | .rparen => true
  | _ => false

namespace Kind

/-- How tightly the rightmost token of the stack binds what stands to its right. -/
def leftRank : Kind → Nat
  | .stop | .lparen => 0
  | .rparen | .word => 6
  | .or => 4
  | .and => 2
  | .exclude => 5

/-- How tightly the next token of the line binds what stands to its left. Disjunction binds tighter
than conjunction, both group to the left, and exclusion groups to the right. -/
def rightRank : Kind → Nat
  | .stop | .rparen => 0
  | .lparen | .word => 6
  | .or => 3
  | .and => 1
  | .exclude => 5

def name : Kind → String
  | .stop => "End"
  | .lparen => "LParen"
  | .rparen => "RParen"
  | .word => "Word"
  | .or => "Or"
  | .and => "And"
  | .exclude => "Exclude"

end Kind

end Token

end SearchWords
