import Mathlib.Data.List.TakeWhile
import SearchWords.Proofs.Text.Pairs
import SearchWords.Proofs.Token.Join

/-!
# Lines one after the other

Scanning looks ahead: a keyword is told by the character behind it, a bare word goes on up to a
boundary, and a closing quote is looked for in all of the rest. The first two stop at a boundary. So
where a line is followed by one, the tokens of both are those of the line and those of what follows
(`Lexeme.tokens_append`), unless the line leaves a quote open. Such a quote starts a bare word in the
line alone, but may find its closing quote in what follows and start a phrase.
-/

namespace SearchWords

open Text

/-! ## Closing quotes -/

namespace Text

variable {cs body rest : List Char}

/-- A closing quote is found whatever follows it. -/
theorem splitQuote_append (h : splitQuote cs = some (body, rest)) (more : List Char) :
    splitQuote (cs ++ more) = some (body, rest ++ more) := by
  rw [splitQuote_eq h, List.append_assoc, List.cons_append]
  exact splitQuote_body h (rest ++ more)

/-- A character that is no quote, and that no backslash protects, closes no quote in front of it. -/
theorem splitQuote_concat {c : Char} (hc : isEscapable c = false) (h : splitQuote cs = none) :
    splitQuote (cs ++ [c]) = none := by
  have hquote : '"' ≠ c := by
    rintro rfl
    cases hc
  rw [splitQuote_eq_none_iff] at h ⊢
  simpa [units_concat hc, hquote] using h

end Text

namespace Lexeme

/-- A bare word that starts with a quote. This is a quote that is not closed in the rest of the
line, as it would start a phrase otherwise. -/
def isUnclosed (l : Lexeme) : Bool :=
  match l.token with
  | .word w => !w.phrase && l.source.head? = some '"'
  | _ => false

/-- `Quiet rest`: no quote that is open in front of `rest` is closed by it. -/
def Quiet (rest : List Char) : Prop :=
  ∀ cs, splitQuote cs = none → splitQuote (cs ++ rest) = none

theorem quiet_rparen : Quiet [')'] :=
  fun _ h ↦ splitQuote_concat (by decide) h

/-! ## Reading a token in front of a boundary -/

theorem phrase?_append {c : Char} {cs rest : List Char}
    (hquote : c = '"' → splitQuote cs = none → splitQuote (cs ++ rest) = none) :
    phrase? (c :: (cs ++ rest)) = (phrase? (c :: cs)).map fun p ↦ (p.1, p.2 ++ rest) := by
  by_cases hc : c = '"'
  · subst hc
    simp only [phrase?]
    cases h : splitQuote cs with
    | none => rw [hquote rfl h]; rfl
    | some p => rw [splitQuote_append h]; rfl
  · simp [phrase?, hc]

section Append

variable {c : Char} {cs rest : List Char} (hrest : rest.takeWhile (!isBoundary ·) = [])

include hrest

theorem takeWhile_append (cs : List Char) :
    (cs ++ rest).takeWhile (!isBoundary ·) = cs.takeWhile (!isBoundary ·) := by
  induction cs with
  | nil => exact hrest
  | cons c cs ih => rw [List.cons_append, List.takeWhile_cons, List.takeWhile_cons, ih]

theorem dropWhile_append (cs : List Char) :
    (cs ++ rest).dropWhile (!isBoundary ·) = cs.dropWhile (!isBoundary ·) ++ rest := by
  have h : (cs ++ rest).takeWhile (!isBoundary ·) ++ (cs ++ rest).dropWhile (!isBoundary ·) =
      cs.takeWhile (!isBoundary ·) ++ (cs.dropWhile (!isBoundary ·) ++ rest) := by
    rw [← List.append_assoc, List.takeWhile_append_dropWhile, List.takeWhile_append_dropWhile]
  rw [takeWhile_append hrest] at h
  exact List.append_cancel_left h

theorem endsKeyword_append (cs : List Char) : endsKeyword (cs ++ rest) = endsKeyword cs := by
  cases cs with
  | nil => exact endsKeyword_of_takeWhile hrest
  | cons c cs => rfl

theorem keyword?_append (c : Char) (cs : List Char) :
    keyword? (c :: (cs ++ rest)) = (keyword? (c :: cs)).map (· ++ rest) := by
  have hsingle : ∀ c : Char, keyword? [c] = none := by simp [keyword?]
  cases cs with
  | nil =>
    cases rest with
    | nil => simp [hsingle]
    | cons d rest =>
      have hR : isBoundary 'R' = false := by decide
      rw [List.nil_append, hsingle, keyword?_of_ne]
      · rfl
      · rintro ⟨-, rfl⟩
        simp [hR] at hrest
  | cons d cs =>
    by_cases hOR : c = 'O' ∧ d = 'R'
    · obtain ⟨rfl, rfl⟩ := hOR
      rw [List.cons_append, keyword?, keyword?, endsKeyword_append hrest]
      split <;> rfl
    · rw [List.cons_append, keyword?_of_ne hOR, keyword?_of_ne hOR]
      rfl

/-- A boundary behind a line changes nothing about its tokens, but for a quote that it closes. -/
theorem read_append
    (hquote : c = '"' → splitQuote cs = none → splitQuote (cs ++ rest) = none) :
    read c (cs ++ rest) = ⟨(read c cs).token, (read c cs).source, (read c cs).rest ++ rest⟩ := by
  unfold read
  rw [phrase?_append hquote, keyword?_append hrest, takeWhile_append hrest,
    dropWhile_append hrest]
  split
  · rfl
  split
  · rfl
  split
  · rfl
  cases phrase? (c :: cs) with
  | some p => rfl
  | none => cases keyword? (c :: cs) <;> rfl

end Append

/-! ## Lines in front of a boundary -/

/-- A quote that is never closed starts a bare word. -/
theorem isUnclosed_of_splitQuote {cs : List Char} (h : splitQuote cs = none) (blank : List Char) :
    isUnclosed ⟨blank, (read '"' cs).source, (read '"' cs).token⟩ = true := by
  have hread := read_of_none (by decide) (by decide) (by decide)
    (show phrase? ('"' :: cs) = none from h) (by simp [keyword?])
  rw [hread]
  rfl

theorem tokens_append {line rest : List Char} (hrest : rest.takeWhile (!isBoundary ·) = [])
    (hquote : ∀ l ∈ scan line, l.isUnclosed = true → Quiet rest) :
    tokens (line ++ rest) = tokens line ++ tokens rest := by
  fun_induction scan line with
  | case1 line hline =>
    have hblank : (line ++ rest).dropWhile isWhiteSpace = rest.dropWhile isWhiteSpace := by
      rw [List.dropWhile_append, hline]
      rfl
    rw [tokens_eq (line ++ rest), hblank, ← tokens_eq, tokens_eq line, hline]
    rfl
  | case2 line c cs hline ih =>
    obtain ⟨hfirst, hlater⟩ := List.forall_mem_cons.1 hquote
    have hsplit : (line ++ rest).dropWhile isWhiteSpace = c :: (cs ++ rest) := by
      rw [List.dropWhile_append, hline]
      rfl
    have hread : c = '"' → splitQuote cs = none → splitQuote (cs ++ rest) = none := by
      rintro rfl hnone
      exact hfirst (isUnclosed_of_splitQuote hnone _) cs hnone
    rw [tokens_eq (line ++ rest), hsplit, tokens_eq line, hline]
    simp only [read_append hrest hread, ih hlater, List.cons_append]

end Lexeme

end SearchWords
