import SearchWords.Automaton
import SearchWords.QueryError
import SearchWords.Token.Scanner

/-! # Parsing search lines -/

namespace SearchWords.Expr

/-- The number of rounds allowed where no limit is given. -/
def defaultRounds : Nat := 100

/-- Parse a line of tokens, used as it is given. -/
def ofTokens (tokens : List Token) (limit : Nat := defaultRounds) : Except Failure Expr :=
  (Automaton.run tokens limit).result

/-- Tell a failure on the tokens of a line against the line itself. -/
def locate (line : String) (failure : Failure) : QueryError where
  failure := failure.relocate fun i => (Token.placed line)[i]?.map Token.Placed.offset
  query := some line

/-- Parse a search line. -/
def parse (line : String) (limit : Nat := defaultRounds) : Except QueryError Expr :=
  (ofTokens (Token.scan line) limit).mapError (locate line)

end SearchWords.Expr
