import SearchWords.Word

/-! # Words in boolean-mode full-text expressions -/

namespace SearchWords.Word

/-- The characters that are operators of boolean mode, quotes and backslashes included. -/
def isOperator (c : Char) : Bool :=
  c = '>' || c = '<' || c = '~' || c = '"' || c = '+' || c = '\\'

/-- Delete operators and distance markers, which are an `@` and the digits after it. The flag says
that the characters before belong to a marker. -/
def stripFrom (marker : Bool) : List Char → List Char
  | [] => []
  | c :: cs =>
    if marker && c.isDigit then stripFrom true cs
    else if isOperator c then stripFrom false cs
    else if c = '@' && cs.head?.any Char.isDigit then stripFrom true cs
    else c :: stripFrom false cs

/-- A word without the characters that carry a meaning in boolean mode. -/
def strip (text : String) : String :=
  String.ofList (stripFrom false text.toList)

end SearchWords.Word
