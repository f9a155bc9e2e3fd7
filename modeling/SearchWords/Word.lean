/-! # Search words -/

namespace SearchWords

/-- A search word: its text, and whether it was written as a quoted phrase. -/
structure Word where
  text : String
  phrase : Bool
deriving DecidableEq, Repr

namespace Word

/-- A bare word. -/
def bare (text : String) : Word where
  text := text
  phrase := false

/-- A quoted phrase. -/
def quoted (text : String) : Word where
  text := text
  phrase := true

/-- The mark that stands for any run of characters. -/
def wildcard : Char := '*'

/-- A text of nothing but wildcards, the empty one included. -/
def onlyWildcards (text : String) : Bool :=
  text.toList.all (· = wildcard)

end Word

end SearchWords
