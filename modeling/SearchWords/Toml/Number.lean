import SearchWords.Toml.Binary64

/-! # Reading numbers -/

namespace SearchWords.Toml

/-- Digits without the underscores between them. An underscore stands between two digits only. -/
def digits? (isDigit : Char → Bool) : List Char → Option (List Char)
  | [] => none
  | [c] => if isDigit c then some [c] else none
  | c :: '_' :: cs => if isDigit c then (digits? isDigit cs).map (c :: ·) else none
  | c :: cs => if isDigit c then (digits? isDigit cs).map (c :: ·) else none

/-- The value of a digit of base sixteen or less. -/
def digitValue (c : Char) : Nat :=
  if c.isDigit then c.toNat - '0'.toNat else c.toLower.toNat - 'a'.toNat + 10

def number (base : Nat) (digits : List Char) : Nat :=
  digits.foldl (fun n c => base * n + digitValue c) 0

def isHexDigit (c : Char) : Bool :=
  c.isDigit || ('a' ≤ c.toLower && c.toLower ≤ 'f')

/-- The digits of a decimal number, which starts with a zero only if that is all of it. -/
def decimal? (cs : List Char) : Option (List Char) :=
  if cs.head? = some '0' && cs.length ≠ 1 then none else digits? Char.isDigit cs

/-- A sign, true for minus, and what follows it. -/
def sign : List Char → Bool × List Char
  | '-' :: cs => (true, cs)
  | '+' :: cs => (false, cs)
  | cs => (false, cs)

def integer? : List Char → Option Int
  | '0' :: 'x' :: cs => (digits? isHexDigit cs).map fun ds => number 16 ds
  | '0' :: 'o' :: cs => (digits? (fun c => '0' ≤ c && c ≤ '7') cs).map fun ds => number 8 ds
  | '0' :: 'b' :: cs => (digits? (fun c => c = '0' || c = '1') cs).map fun ds => number 2 ds
  | cs =>
    let (negative, body) := sign cs
    (decimal? body).map fun ds => if negative then -(number 10 ds : Int) else number 10 ds

/-- A radix mark with nothing after it. -/
def isRadixMark (cs : List Char) : Bool :=
  cs = ['0', 'x'] || cs = ['0', 'o'] || cs = ['0', 'b']

/-- Whether each underscore stands between two digits of base sixteen, in a text that follows the
character `before`. -/
def joinsDigits (before : Char) : List Char → Bool
  | [] => true
  | ['_'] => false
  | '_' :: c :: cs => isHexDigit before && isHexDigit c && joinsDigits c cs
  | c :: cs => joinsDigits c cs

/-- Whether a text has the form of a decimal integer with underscores. Up to the first underscore
there are decimal digits, and what follows may hold anything but a space and the marks of a floating
point number. -/
def isGrouped (cs : List Char) : Bool :=
  let body := (sign cs).2
  let rest := body.dropWhile Char.isDigit
  body.head? ≠ some '0' && rest.head? = some '_' && joinsDigits ' ' body &&
    rest.all fun c => c ≠ ' ' && c ≠ '.' && c ≠ 'e' && c ≠ 'E'

/-- The exponent at the end of a floating point number, zero if there is none. -/
def exponent? : List Char → Option Int
  | [] => some 0
  | c :: cs =>
    if c = 'e' || c = 'E' then
      let (negative, body) := sign cs
      (digits? Char.isDigit body).map fun ds =>
        if negative then -(number 10 ds : Int) else number 10 ds
    else none

/-- The digits after the point, none if there is no point, and the rest of the number. -/
def fraction? : List Char → Option (List Char × List Char)
  | '.' :: cs =>
    let isDigit (c : Char) := c.isDigit || c = '_'
    (digits? Char.isDigit (cs.takeWhile isDigit)).map fun ds => (ds, cs.dropWhile isDigit)
  | cs => some ([], cs)

/-- A floating point number: digits with a fraction or an exponent or both, or a name. -/
def real? (cs : List Char) : Option Real := do
  let (negative, body) := sign cs
  if body = ['i', 'n', 'f'] then return .infinity negative
  if body = ['n', 'a', 'n'] then return .nan
  let isDigit (c : Char) := c.isDigit || c = '_'
  let whole ← decimal? (body.takeWhile isDigit)
  let (fraction, rest) ← fraction? (body.dropWhile isDigit)
  let exponent ← exponent? rest
  return .finite negative (number 10 (whole ++ fraction)) (exponent - fraction.length)

end SearchWords.Toml
