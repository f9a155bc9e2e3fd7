/-! # Writing strings

The form of a string is the first one in which its text needs no escapes, and a basic string if
there is none. -/

namespace SearchWords.Toml

/-- The four forms of a string. -/
inductive Form where
  | basic
  | literal
  | multiBasic
  | multiLiteral
deriving DecidableEq, Repr

/-- A control that no form can hold unescaped. -/
def isControl (c : Char) : Bool :=
  (c.toNat < 0x20 && c ≠ '\t' && c ≠ '\n') || c.toNat = 0x7F

/-- The longest run of a character, where `run` of them stand in front of the text. -/
def longestRun (q : Char) (run : Nat) : List Char → Nat
  | [] => run
  | c :: cs => if c = q then longestRun q (run + 1) cs else max run (longestRun q 0 cs)

/-- The form in which a text is written. -/
def form (cs : List Char) : Form :=
  let lines := cs.contains '\n'
  let backslash := cs.contains '\\'
  let single := longestRun '\'' 0 cs
  let double := longestRun '"' 0 cs
  if cs.any isControl then
    if lines then .multiBasic else .basic
  else if !backslash && double = 0 && !lines then .basic
  else if single = 0 && !lines then .literal
  else if !backslash && double ≤ 2 then .multiBasic
  else if single ≤ 2 then .multiLiteral
  else if lines then .multiBasic
  else .basic

/-- A number below 65536 as four upper-case hexadecimal digits. -/
def hexDigits4 (n : Nat) : List Char :=
  [n / 4096 % 16, n / 256 % 16, n / 16 % 16, n % 16].map fun d => (Nat.digitChar d).toUpper

/-- How a basic string shows a character, line ends and quotes apart. -/
def basicShown (c : Char) : List Char :=
  if c = '\x08' then ['\\', 'b']
  else if c = '\t' then ['\\', 't']
  else if c = '\x0C' then ['\\', 'f']
  else if c = '\r' then ['\\', 'r']
  else if c = '\\' then ['\\', '\\']
  else if c.toNat < 0x20 || c.toNat = 0x7F then '\\' :: 'u' :: hexDigits4 c.toNat
  else [c]

/-- How a basic string on one line shows a character. -/
def lineShown (c : Char) : List Char :=
  if c = '\n' then ['\\', 'n']
  else if c = '"' then ['\\', '"']
  else basicShown c

/-- The body of a basic string that spans lines. Every third quote in a row is escaped; `quotes` of
them stand unescaped in front. -/
def multiShown (quotes : Nat) : List Char → List Char
  | [] => []
  | c :: cs =>
    if c = '\n' then c :: multiShown 0 cs
    else if c = '"' then
      if quotes = 2 then '\\' :: '"' :: multiShown 0 cs else '"' :: multiShown (quotes + 1) cs
    else basicShown c ++ multiShown 0 cs

/-- A line end after the opening quotes, which is not part of the string. -/
def opening (cs : List Char) : List Char :=
  if cs.contains '\n' then ['\n'] else []

def writeAs (f : Form) (cs : List Char) : List Char :=
  match f with
  | .basic => ['"'] ++ cs.flatMap lineShown ++ ['"']
  | .literal => ['\''] ++ cs ++ ['\'']
  | .multiBasic => ['"', '"', '"'] ++ opening cs ++ multiShown 0 cs ++ ['"', '"', '"']
  | .multiLiteral => ['\'', '\'', '\''] ++ opening cs ++ cs ++ ['\'', '\'', '\'']

/-- A text as a string. -/
def writeString (text : String) : String :=
  String.ofList (writeAs (form text.toList) text.toList)

end SearchWords.Toml
