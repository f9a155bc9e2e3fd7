import SearchWords.Word

/-! # Bound parameters

A wildcard in a word stands for any run of characters. A word is bound as a pattern of the SQL
operator `LIKE`, and it is cut at its wildcards into the pieces that a match shows. Drivers that ask
for the types of the parameters get one for each placeholder. -/

namespace SearchWords.Word

/-! ## Words as patterns -/

/-- The SQL operator `LIKE`: a percent sign stands for any run of characters, an underscore for any
one, a backslash for the character after it, and any other character for itself. -/
inductive Like : (text pattern : List Char) → Prop where
  | nil : Like [] []
  | run (x : List Char) {s p : List Char} : Like s p → Like (x ++ s) ('%' :: p)
  | one (c : Char) {s p : List Char} : Like s p → Like (c :: s) ('_' :: p)
  | escaped (c : Char) {s p : List Char} : Like s p → Like (c :: s) ('\\' :: c :: p)
  | backslash : Like ['\\'] ['\\']
  | char {c : Char} {s p : List Char} (percent : c ≠ '%') (underscore : c ≠ '_')
      (backslash : c ≠ '\\') : Like s p → Like (c :: s) (c :: p)

/-- A character in a `LIKE` pattern. The wildcard becomes that of `LIKE`, and characters with a
meaning there are protected by a backslash. -/
def likeChar (c : Char) : List Char :=
  if c = '\\' || c = '%' || c = '_' then ['\\', c]
  else if c = wildcard then ['%']
  else [c]

/-- The `LIKE` pattern that finds a word anywhere in a text. -/
def likePattern (text : String) : String :=
  String.ofList ('%' :: text.toList.flatMap likeChar ++ ['%'])

/-! ## The pieces of a word -/

/-- Cut a text at its runs of wildcards, keeping the empty pieces at its ends. -/
def cut : List Char → List (List Char)
  | [] => [[]]
  | c :: cs =>
    if c = wildcard then
      if cs.head? = some wildcard then cut cs else [] :: cut cs
    else (cut cs).modifyHead (c :: ·)

/-- The literal pieces of a word. -/
def pieces (text : String) : List String :=
  (cut text.toList).map String.ofList

theorem cut_ne_nil (cs : List Char) : cut cs ≠ [] := by
  induction cs with
  | nil => simp [cut]
  | cons c cs ih =>
    unfold cut
    split
    · split <;> simp [ih]
    · simpa using ih

end SearchWords.Word

/-! ## Types of parameters -/

namespace SearchWords.Parameters

universe u

/-- The bytes that one type tag takes in a list. -/
def tagBytes : Nat := 24

/-- The greatest size of a list in bytes. -/
def maxBytes : Nat := 0x7FFFFFFFFFFFFFFF

/-- One type tag for each bound parameter: `count` values with `multiplier` placeholders each.
There is no list if it would exceed the greatest size. -/
def typeTags {α : Type u} (count : Nat) (tag : α) (multiplier : Nat) : Option (List α) :=
  if count * multiplier * tagBytes ≤ maxBytes then some (List.replicate (count * multiplier) tag)
  else none

end SearchWords.Parameters
