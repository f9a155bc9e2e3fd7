/-! # Why a line has no expression -/

namespace SearchWords

/-- A fault in the form of a search line. -/
inductive Fault where
  | noWords
  | unexpectedEnd
  | severalExpressions
  | unclosedParen
  | unmatchedParen
  | emptyGroup
  | lonelyOr
  | lonelyExclude
  | emptyPhrase
  | onlyWildcards
  | unclassified
  | custom (message : String)
deriving DecidableEq, Repr

def Fault.message : Fault → String
  | .noWords => "no search words"
  | .unexpectedEnd => "unexpected end of tokens"
  | .severalExpressions => "search words do not form a single expression"
  | .unclosedParen => "missing closing parenthesis"
  | .unmatchedParen => "unmatched closing parenthesis"
  | .emptyGroup => "empty parenthesis group"
  | .lonelyOr => "OR is missing a search word on one side"
  | .lonelyExclude => "'-' is missing a search word to exclude"
  | .emptyPhrase => "empty phrase"
  | .onlyWildcards => "search word consists only of wildcards"
  | .unclassified => "syntax error"
  | .custom message => message

/-- Why parsing failed. The place of a fault is a token index while tokens are parsed and a byte
offset once it is told against a line. `internal` stands for a state that no input leads to. -/
inductive Failure where
  | malformed (fault : Fault) (place : Option Nat)
  | complexity (rounds : Nat)
  | tooDeep (levels : Nat)
  | internal (message : String)
deriving DecidableEq, Repr

namespace Failure

/-- The message alone. -/
def message : Failure → String
  | .malformed fault _ => fault.message
  | .complexity rounds => "too complex to parse: no result after " ++ toString rounds ++ " rounds"
  | .tooDeep levels => "too deeply nested: more than " ++ toString levels ++ " levels"
  | .internal message => message

/-- The message, naming an internal failure as such. -/
def description : Failure → String
  | .internal message => "internal parser error: " ++ message
  | failure => failure.message

def place? : Failure → Option Nat
  | .malformed _ place => place
  | _ => none

/-- The limit that was exceeded. -/
def limit? : Failure → Option Nat
  | .complexity n | .tooDeep n => some n
  | _ => none

def isMalformed : Failure → Bool
  | .malformed .. => true
  | _ => false

/-- A limit on rounds or on levels was exceeded. -/
def isOverLimit : Failure → Bool
  | .complexity _ | .tooDeep _ => true
  | _ => false

def isInternal : Failure → Bool
  | .internal _ => true
  | _ => false

/-- Tell the place of a fault in other terms. -/
def relocate (place : Nat → Option Nat) : Failure → Failure
  | .malformed fault index => .malformed fault (index.bind place)
  | failure => failure

end Failure

end SearchWords
