import SearchWords.Text.ByteSize
import SearchWords.Text.CharSet
import SearchWords.Text.Escape
import SearchWords.Token

/-! # Reading the tokens of a search line

Scanning never fails: each character outside white space belongs to exactly one lexeme. The
conjunctions between neighbouring terms are put in afterwards. -/

namespace SearchWords

open Text

/-- A token as it stands in a line: the white space in front of it and its own characters. -/
structure Lexeme where
  blank : List Char
  source : List Char
  token : Token
deriving DecidableEq, Repr

namespace Lexeme

/-- The characters that end a bare word. -/
def isBoundary (c : Char) : Bool :=
  isWhiteSpace c || c = '(' || c = ')'

/-- What may follow the keyword: nothing, a boundary, an exclusion or a phrase. -/
def endsKeyword : List Char → Bool
  | [] => true
  | c :: _ => isBoundary c || c = '-' || c = '"'

/-- The rest of the line after the keyword `OR`, when it starts with that keyword. -/
def keyword? : List Char → Option (List Char)
  | 'O' :: 'R' :: cs => if endsKeyword cs then some cs else none
  | _ => none

/-- The body of the phrase that opens the line and the rest after its closing quote. -/
def phrase? : List Char → Option (List Char × List Char)
  | '"' :: cs => splitQuote cs
  | _ => none

/-- A token, its characters and the rest of the line. -/
structure Reading where
  token : Token
  source : List Char
  rest : List Char

/-- Read one token from a line that starts with `c`, which is not white space. A quote that is
never closed starts a bare word. -/
def read (c : Char) (cs : List Char) : Reading :=
  if c = '(' then ⟨.lparen, [c], cs⟩
  else if c = ')' then ⟨.rparen, [c], cs⟩
  else if c = '-' then ⟨.exclude, [c], cs⟩
  else
    match phrase? (c :: cs) with
    | some (body, rest) =>
      ⟨.word (.quoted (String.ofList (unescape body))), '"' :: body ++ ['"'], rest⟩
    | none =>
      match keyword? (c :: cs) with
      | some rest => ⟨.or, ['O', 'R'], rest⟩
      | none =>
        let source := c :: cs.takeWhile (!isBoundary ·)
        ⟨.word (.bare (String.ofList (unescape source))), source, cs.dropWhile (!isBoundary ·)⟩

theorem phrase?_eq {cs body rest : List Char} (h : phrase? cs = some (body, rest)) :
    cs = '"' :: body ++ '"' :: rest := by
  unfold phrase? at h
  split at h
  · simp [splitQuote_eq h]
  · simp at h

theorem keyword?_eq {cs rest : List Char} (h : keyword? cs = some rest) :
    cs = 'O' :: 'R' :: rest := by
  unfold keyword? at h
  split at h
  · split at h <;> simp_all
  · simp at h

/-- Nothing of the line is lost by reading a token. -/
theorem read_source_append_rest (c : Char) (cs : List Char) :
    (read c cs).source ++ (read c cs).rest = c :: cs := by
  unfold read
  split
  · rfl
  split
  · rfl
  split
  · rfl
  split
  · next h => simp [phrase?_eq h]
  · split
    · next h => simp [keyword?_eq h]
    · simp

theorem source_ne_nil (c : Char) (cs : List Char) : (read c cs).source ≠ [] := by
  unfold read
  repeat' split
  all_goals simp

theorem length_rest_lt (c : Char) (cs : List Char) :
    (read c cs).rest.length < (c :: cs).length := by
  have h := congrArg List.length (read_source_append_rest c cs)
  have := List.length_pos_iff.2 (source_ne_nil c cs)
  simp only [List.length_append] at h
  omega

theorem length_rest_lt_of_dropWhile {line : List Char} {c : Char} {cs : List Char}
    (h : line.dropWhile isWhiteSpace = c :: cs) : (read c cs).rest.length < line.length := by
  have := length_rest_lt c cs
  have := (List.dropWhile_suffix isWhiteSpace (l := line)).length_le
  rw [h] at this
  omega

/-- The lexemes of a line, in order. White space at its end belongs to none. -/
def scan (line : List Char) : List Lexeme :=
  match _ : line.dropWhile isWhiteSpace with
  | [] => []
  | c :: cs => ⟨line.takeWhile isWhiteSpace, (read c cs).source, (read c cs).token⟩ ::
      scan (read c cs).rest
termination_by line.length
decreasing_by exact length_rest_lt_of_dropWhile ‹_›

end Lexeme

namespace Token

/-- A token with the byte offset at which it stands in its line. -/
structure Placed where
  token : Token
  offset : Nat
deriving DecidableEq, Repr

/-- Place lexemes that follow each other from the given offset on. -/
def place (offset : Nat) : List Lexeme → List Placed
  | [] => []
  | l :: ls => ⟨l.token, offset + byteSize l.blank⟩ ::
      place (offset + byteSize l.blank + byteSize l.source) ls

/-- Put a conjunction between the end of a term and a token that does not go on with it, at the place
of that token. -/
def join : List Placed → List Placed
  | a :: b :: ts =>
    if a.token.endsTerm && !b.token.followsTerm then a :: ⟨.and, b.offset⟩ :: join (b :: ts)
    else a :: join (b :: ts)
  | ts => ts

/-- The tokens of a line with their places, closed by `stop`. -/
def placed (line : String) : List Placed :=
  join (place 0 (Lexeme.scan line.toList)) ++ [⟨.stop, byteSize line.toList⟩]

/-- The tokens of a line, closed by `stop`. -/
def scan (line : String) : List Token :=
  (placed line).map Placed.token

end Token

end SearchWords
