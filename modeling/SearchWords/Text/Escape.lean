import SearchWords.Text.ByteSize

/-! # Backslash escapes in search words

A quote or a backslash may be written with a backslash in front of it. Any other backslash stands
for itself, so every text can be read. -/

namespace SearchWords.Text

/-- The characters that a backslash in front of them protects. -/
def isEscapable (c : Char) : Bool :=
  c = '"' || c = '\\'

/-- Put a backslash in front of every quote and every backslash. -/
def escape : List Char → List Char
  | [] => []
  | c :: cs => if isEscapable c then '\\' :: c :: escape cs else c :: escape cs

/-- Drop the backslash of every pair of a backslash and an escapable character. -/
def unescape : List Char → List Char
  | '\\' :: c :: cs => if isEscapable c then c :: unescape cs else '\\' :: unescape (c :: cs)
  | c :: cs => c :: unescape cs
  | [] => []

/-- Split a text at its first quote that no backslash protects, into what stands before and after
that quote. There is no split when every quote is protected. -/
def splitQuote : List Char → Option (List Char × List Char)
  | '"' :: cs => some ([], cs)
  | '\\' :: c :: cs =>
    if isEscapable c then (splitQuote cs).map fun p => ('\\' :: c :: p.1, p.2)
    else (splitQuote (c :: cs)).map fun p => ('\\' :: p.1, p.2)
  | c :: cs => (splitQuote cs).map fun p => (c :: p.1, p.2)
  | [] => none

/-- The byte offset of the first quote that no backslash protects. -/
def closingQuote (cs : List Char) : Option Nat :=
  (splitQuote cs).map fun p => byteSize p.1

/-- A split gives the text back. -/
theorem splitQuote_eq {cs body rest : List Char} (h : splitQuote cs = some (body, rest)) :
    cs = body ++ '"' :: rest := by
  fun_induction splitQuote cs generalizing body rest with
  | case1 cs => simp_all
  | case2 c cs hc ih =>
    obtain ⟨⟨b, r⟩, hs, he⟩ := Option.map_eq_some_iff.1 h
    simp only [Prod.mk.injEq] at he
    obtain ⟨rfl, rfl⟩ := he
    simp [ih hs]
  | case3 c cs hc ih =>
    obtain ⟨⟨b, r⟩, hs, he⟩ := Option.map_eq_some_iff.1 h
    simp only [Prod.mk.injEq] at he
    obtain ⟨rfl, rfl⟩ := he
    simp [ih hs]
  | case4 c cs _ _ ih =>
    obtain ⟨⟨b, r⟩, hs, he⟩ := Option.map_eq_some_iff.1 h
    simp only [Prod.mk.injEq] at he
    obtain ⟨rfl, rfl⟩ := he
    simp [ih hs]
  | case5 => simp at h

end SearchWords.Text
