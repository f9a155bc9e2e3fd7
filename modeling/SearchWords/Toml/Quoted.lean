import SearchWords.Toml.Reader

/-! # Reading strings

A string is basic (between double quotes, with escapes) or literal (between single quotes, without
them), and each of the two may stand on one line or span several. -/

namespace SearchWords.Toml

def hexDigit? (c : Char) : Option Nat :=
  if '0' ≤ c && c ≤ '9' then some (c.toNat - '0'.toNat)
  else if 'a' ≤ c && c ≤ 'f' then some (c.toNat - 'a'.toNat + 10)
  else if 'A' ≤ c && c ≤ 'F' then some (c.toNat - 'A'.toNat + 10)
  else none

/-- The number that hexadecimal digits write. -/
def hexNumber? (digits : List Char) : Option Nat :=
  (digits.mapM hexDigit?).map (·.foldl (16 * · + ·) 0)

/-- Read a character by a code point of exactly `width` hexadecimal digits. -/
def codePoint (width : Nat) : Reader Char := fun cs => do
  guard (width ≤ cs.length)
  let n ← hexNumber? (cs.take width)
  guard n.isValidChar
  return (Char.ofNat n, cs.drop width)

/-- Read what follows the backslash of an escape. -/
def escaped : Reader Char
  | 'b' :: cs => some ('\x08', cs)
  | 't' :: cs => some ('\t', cs)
  | 'n' :: cs => some ('\n', cs)
  | 'f' :: cs => some ('\x0C', cs)
  | 'r' :: cs => some ('\r', cs)
  | '"' :: cs => some ('"', cs)
  | '\\' :: cs => some ('\\', cs)
  | 'u' :: cs => codePoint 4 cs
  | 'U' :: cs => codePoint 8 cs
  | _ => none

/-- A character of a basic string. -/
def basicChar : Reader Char
  | '\\' :: cs => escaped cs
  | c :: cs => if isPlain c && c ≠ '"' then some (c, cs) else none
  | [] => none

/-- A character of a literal string. -/
def literalChar : Reader Char
  | c :: cs => if isPlain c && c ≠ '\'' then some (c, cs) else none
  | [] => none

/-- The rest of a string on one line, up to its closing quote. -/
def oneLine (quote : Char) (char : Reader Char) : Reader String := fun cs =>
  match many char cs with
  | (body, c :: rest) => if c = quote then some (String.ofList body, rest) else none
  | _ => none

/-! ## Strings that span lines -/

/-- A quote that does not start a run of three. -/
def fewQuotes (quote : Char) : Reader (List Char)
  | c :: cs => if c = quote && !([quote, quote].isPrefixOf cs) then some ([c], cs) else none
  | [] => none

/-- A backslash at the end of a line takes away the line end and all blanks after it. -/
def lineJoin : Reader (List Char)
  | '\\' :: cs => (newline (skipBlanks cs)).map fun p => ([], skipBlankLines p.2)
  | _ => none

def single (char : Reader Char) : Reader (List Char) := fun cs =>
  (char cs).map fun p => ([p.1], p.2)

def basicItem : Reader (List Char) := fun cs =>
  newline cs <|> lineJoin cs <|> fewQuotes '"' cs <|> single basicChar cs

def literalItem : Reader (List Char) := fun cs =>
  newline cs <|> fewQuotes '\'' cs <|> single literalChar cs

/-- Three closing quotes. Up to two more in front of them belong to the string. -/
def closing (quote : Char) : Reader (List Char) := fun cs =>
  let run := (cs.takeWhile (· = quote)).length
  let extra := min (run - 3) 2
  if 3 ≤ run then some (List.replicate extra quote, cs.drop (extra + 3)) else none

/-- The rest of a string that spans lines. A line end right after the opening quotes is dropped. -/
def multiLine (quote : Char) (item : Reader (List Char)) : Reader String := fun cs =>
  let (body, rest) := many item (((newline cs).map Prod.snd).getD cs)
  (closing quote rest).map fun p => (String.ofList (body.flatten ++ p.1), p.2)

/-- A string of any of the four forms. -/
def string : Reader String
  | '"' :: '"' :: '"' :: cs => multiLine '"' basicItem cs
  | '\'' :: '\'' :: '\'' :: cs => multiLine '\'' literalItem cs
  | '"' :: cs => oneLine '"' basicChar cs
  | '\'' :: cs => oneLine '\'' literalChar cs
  | _ => none

end SearchWords.Toml
