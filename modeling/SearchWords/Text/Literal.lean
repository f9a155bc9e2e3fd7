import SearchWords.Text.Combining
import SearchWords.Text.Invisible

/-! # Quoted literals

A text shown between quotes on one line, every character of it recognisable. -/

namespace SearchWords.Text

/-- A character that a literal shows as it is, the escaped ASCII characters apart. -/
def isVisible (c : Char) : Bool :=
  !(invisible.contains c || combining.contains c)

/-- A character by its code point, in lower-case hexadecimal digits. -/
def codePoint (c : Char) : List Char :=
  '\\' :: 'u' :: '{' :: Nat.toDigits 16 c.toNat ++ ['}']

/-- How a literal shows a character. -/
def shown (c : Char) : List Char :=
  if c = '\x00' then ['\\', '0']
  else if c = '\t' then ['\\', 't']
  else if c = '\r' then ['\\', 'r']
  else if c = '\n' then ['\\', 'n']
  else if c = '"' then ['\\', '"']
  else if c = '\\' then ['\\', '\\']
  else if isVisible c then [c]
  else codePoint c

/-- A text between quotes. -/
def literal (s : String) : String :=
  String.ofList ('"' :: s.toList.flatMap shown ++ ['"'])

@[simp] theorem toList_literal (s : String) :
    (literal s).toList = '"' :: s.toList.flatMap shown ++ ['"'] := by
  simp [literal]

end SearchWords.Text
