/-! # Readers

A reader takes something from the front of a text and gives the rest. -/

namespace SearchWords.Toml

universe u

abbrev Reader (α : Type u) := List Char → Option (α × List Char)

variable {α : Type u}

/-- Read items until none is found. An item that takes nothing is not counted as one. -/
def many (item : Reader α) (cs : List Char) : List α × List Char :=
  match item cs with
  | none => ([], cs)
  | some (a, rest) =>
    if rest.length < cs.length then
      let (as, rest) := many item rest
      (a :: as, rest)
    else ([], cs)
termination_by cs.length

theorem many_of_none {item : Reader α} {cs : List Char} (h : item cs = none) :
    many item cs = ([], cs) := by
  rw [many, h]

theorem many_of_some {item : Reader α} {cs rest : List Char} {a : α}
    (h : item cs = some (a, rest)) (hlt : rest.length < cs.length) :
    many item cs = (a :: (many item rest).1, (many item rest).2) := by
  rw [many, h]
  simp [hlt]

/-! ## Blanks -/

/-- The blanks inside a line. -/
def isBlank (c : Char) : Bool :=
  c = ' ' || c = '\t'

def skipBlanks (cs : List Char) : List Char :=
  cs.dropWhile isBlank

/-- A character that stands for itself in strings and comments: every control but the tab is
refused. -/
def isPlain (c : Char) : Bool :=
  c = '\t' || (0x20 ≤ c.toNat && c.toNat ≠ 0x7F)

/-- A line end, with or without a carriage return. -/
def newline : Reader (List Char)
  | '\n' :: cs => some (['\n'], cs)
  | '\r' :: '\n' :: cs => some (['\r', '\n'], cs)
  | _ => none

def blank : Reader (List Char)
  | c :: cs => if isBlank c then some ([c], cs) else none
  | [] => none

def comment : Reader (List Char)
  | '#' :: cs => some ('#' :: cs.takeWhile isPlain, cs.dropWhile isPlain)
  | _ => none

/-- Skip blanks and line ends. -/
def skipBlankLines (cs : List Char) : List Char :=
  (many (fun cs => blank cs <|> newline cs) cs).2

/-- Skip blanks, line ends and comments. -/
def skipLines (cs : List Char) : List Char :=
  (many (fun cs => blank cs <|> newline cs <|> comment cs) cs).2

/-- The rest after the end of a line, in front of which only a blank and a comment may stand. -/
def endLine (cs : List Char) : Option (List Char) :=
  let cs := skipBlanks cs
  match ((comment cs).map Prod.snd).getD cs with
  | [] => some []
  | cs => (newline cs).map Prod.snd

end SearchWords.Toml
