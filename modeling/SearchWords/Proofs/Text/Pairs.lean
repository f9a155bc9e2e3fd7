import Mathlib.Data.List.Basic
import SearchWords.Proofs.Text.Escape

/-!
# What is read at once

A text is read from left to right: a backslash together with the quote or the backslash that it
protects, and every other character by itself. `units` cuts a text accordingly. A quote that is not
protected is then a unit of its own, and the closing quote of a phrase is the first of these. That is
`splitQuote_eq_some_iff`, and `splitQuote_eq_none_iff` says when there is none.

Unescaping reads the same units: of each it keeps the last character (`unescape_eq`). So it sees a
closing quote as the scan for one does, and can be done in front of the quote and behind it apart.
-/

namespace SearchWords.Text

/-- A text cut into pairs, of a backslash and the character that it protects, and characters that
stand by themselves. -/
def units : List Char → List (List Char)
  | '\\' :: c :: cs => if isEscapable c then ['\\', c] :: units cs else ['\\'] :: units (c :: cs)
  | c :: cs => [c] :: units cs
  | [] => []

theorem flatten_units (s : List Char) : (units s).flatten = s := by
  fun_induction units s with
  | case1 c cs hc ih => rw [List.flatten_cons, ih]; rfl
  | case2 c cs hc ih => rw [List.flatten_cons, ih]; rfl
  | case3 c cs _ ih => rw [List.flatten_cons, ih]; rfl
  | case4 => rfl

theorem units_injective : Function.Injective units :=
  Function.LeftInverse.injective flatten_units

theorem units_pair {c : Char} (hc : isEscapable c = true) (cs : List Char) :
    units ('\\' :: c :: cs) = ['\\', c] :: units cs := by
  rw [units, if_pos hc]

theorem units_backslash {c : Char} (hc : isEscapable c = false) (cs : List Char) :
    units ('\\' :: c :: cs) = ['\\'] :: units (c :: cs) := by
  rw [units, if_neg (by simp [hc])]

theorem units_cons {c : Char} (hc : c ≠ '\\') (cs : List Char) :
    units (c :: cs) = [c] :: units cs := by
  rw [units]
  intro d ds h
  exact absurd h hc

/-- A character that no backslash protects is read by itself, also behind a backslash. -/
theorem units_concat {c : Char} (hc : isEscapable c = false) (cs : List Char) :
    units (cs ++ [c]) = units cs ++ [[c]] := by
  have hsingle : units [c] = [[c]] := units_cons (ne_backslash_of_not_isEscapable hc) []
  fun_induction units cs with
  | case1 d cs hd ih =>
    rw [List.cons_append, List.cons_append, units_pair hd, ih]
    rfl
  | case2 d cs hd ih =>
    rw [List.cons_append] at ih
    rw [List.cons_append, List.cons_append, units_backslash (by simpa using hd), ih]
    rfl
  | case3 d cs hpair ih =>
    by_cases hslash : d = '\\'
    · subst hslash
      cases cs with
      | nil => rw [List.singleton_append, units_backslash hc, hsingle]; rfl
      | cons e es => exact absurd rfl (hpair e es rfl)
    · rw [List.cons_append, units_cons hslash, ih]
      rfl
  | case4 => exact hsingle

variable {cs body rest : List Char}

theorem exists_eq_cons_of_splitQuote {c : Char} (hc : c ≠ '"')
    (h : splitQuote (c :: cs) = some (body, rest)) : ∃ front, body = c :: front := by
  cases body with
  | nil => exact absurd (List.cons.inj (splitQuote_eq h)).1 hc
  | cons d front =>
    obtain ⟨rfl, -⟩ := List.cons.inj (splitQuote_eq h)
    exact ⟨front, rfl⟩

/-- What stands in front of a closing quote has no quote as a unit of its own, and keeps its units
when that quote and any other text are put behind it. -/
theorem units_append_quote (h : splitQuote cs = some (body, rest)) (more : List Char) :
    units (body ++ '"' :: more) = units body ++ ['"'] :: units more ∧ ['"'] ∉ units body := by
  fun_induction splitQuote cs generalizing body rest with
  | case1 cs =>
    obtain ⟨rfl, rfl⟩ := Prod.mk.inj (Option.some.inj h)
    exact ⟨units_cons (by decide) more, List.not_mem_nil⟩
  | case2 c cs hc ih =>
    obtain ⟨⟨b, r⟩, hs, he⟩ := Option.map_eq_some_iff.1 h
    obtain ⟨rfl, rfl⟩ := Prod.mk.inj he
    obtain ⟨hunits, hnone⟩ := ih hs
    rw [List.cons_append, List.cons_append, units_pair hc, units_pair hc, hunits]
    exact ⟨rfl, by simpa using hnone⟩
  | case3 c cs hc ih =>
    obtain ⟨⟨b, r⟩, hs, he⟩ := Option.map_eq_some_iff.1 h
    obtain ⟨rfl, rfl⟩ := Prod.mk.inj he
    obtain ⟨hunits, hnone⟩ := ih hs
    -- The body goes on behind the backslash, which would protect the quote otherwise.
    obtain ⟨front, rfl⟩ := exists_eq_cons_of_splitQuote (by rintro rfl; exact hc rfl) hs
    have hc : isEscapable c = false := by simpa using hc
    rw [List.cons_append] at hunits
    rw [List.cons_append, List.cons_append, units_backslash hc, units_backslash hc, hunits]
    exact ⟨rfl, by simpa using hnone⟩
  | case4 c cs hquote hpair ih =>
    obtain ⟨⟨b, r⟩, hs, he⟩ := Option.map_eq_some_iff.1 h
    obtain ⟨rfl, rfl⟩ := Prod.mk.inj he
    obtain ⟨hunits, hnone⟩ := ih hs
    have hslash : c ≠ '\\' := by
      rintro rfl
      cases cs with
      | nil => cases hs
      | cons d ds => exact hpair d ds rfl rfl
    rw [List.cons_append, units_cons hslash, units_cons hslash, hunits]
    refine ⟨rfl, ?_⟩
    simpa [Ne.symm (show c ≠ '"' from hquote)] using hnone
  | case5 => cases h

/-- A split stands in front of a quote that is a unit of its own, and there is none before it. -/
theorem units_of_splitQuote (h : splitQuote cs = some (body, rest)) :
    units cs = units body ++ ['"'] :: units rest ∧ ['"'] ∉ units body := by
  rw [splitQuote_eq h]
  exact units_append_quote h rest

/-- Where there is no split, no quote is a unit of its own. -/
theorem notMem_units_of_splitQuote (h : splitQuote cs = none) : ['"'] ∉ units cs := by
  fun_induction splitQuote cs with
  | case1 cs => cases h
  | case2 c cs hc ih =>
    rw [units_pair hc]
    simpa using ih (Option.map_eq_none_iff.1 h)
  | case3 c cs hc ih =>
    rw [units_backslash (by simpa using hc)]
    simpa using ih (Option.map_eq_none_iff.1 h)
  | case4 c cs hquote hpair ih =>
    rw [units]
    · simpa [Ne.symm (show c ≠ '"' from hquote)] using ih (Option.map_eq_none_iff.1 h)
    · exact hpair
  | case5 => exact List.not_mem_nil

/-- A text is split at the first quote that is a unit of its own. -/
theorem splitQuote_eq_some_iff :
    splitQuote cs = some (body, rest) ↔
      units cs = units body ++ ['"'] :: units rest ∧ ['"'] ∉ units body := by
  constructor
  · exact units_of_splitQuote
  · rintro ⟨hunits, hnone⟩
    cases hs : splitQuote cs with
    | none =>
      have hmem := notMem_units_of_splitQuote hs
      rw [hunits] at hmem
      exact absurd (List.mem_append_right _ List.mem_cons_self) hmem
    | some p =>
      obtain ⟨b, r⟩ := p
      obtain ⟨hunits', hnone'⟩ := units_of_splitQuote hs
      rw [hunits] at hunits'
      have hlength : (units body).length = (units b).length := by
        have := congrArg (List.idxOf ['"']) hunits'
        simpa [List.idxOf_append_of_notMem hnone, List.idxOf_append_of_notMem hnone'] using this
      obtain ⟨hbody, hrest⟩ := List.append_inj hunits' hlength
      rw [units_injective hbody, units_injective (List.cons.inj hrest).2]

theorem splitQuote_eq_none_iff : splitQuote cs = none ↔ ['"'] ∉ units cs := by
  constructor
  · exact notMem_units_of_splitQuote
  · intro hnone
    cases hs : splitQuote cs with
    | none => rfl
    | some p =>
      obtain ⟨hunits, -⟩ := units_of_splitQuote hs
      rw [hunits] at hnone
      exact absurd (List.mem_append_right _ List.mem_cons_self) hnone

/-! ## Closing quotes and unescaping -/

/-- What stands in front of a closing quote is closed by it whatever follows. -/
theorem splitQuote_body (h : splitQuote cs = some (body, rest)) (more : List Char) :
    splitQuote (body ++ '"' :: more) = some (body, more) :=
  splitQuote_eq_some_iff.2 (units_append_quote h more)

/-- Of each unit, unescaping keeps the last character. -/
theorem unescape_eq (s : List Char) : unescape s = (units s).filterMap List.getLast? := by
  fun_induction unescape s with
  | case1 c cs hc ih =>
    rw [units_pair hc, ih]
    rfl
  | case2 c cs hc ih =>
    rw [units_backslash (by simpa using hc), ih]
    rfl
  | case3 c cs hpair ih =>
    rw [units, ih]
    · rfl
    · exact hpair
  | case4 => rfl

/-- Unescaping passes over a closing quote, which is read by itself. -/
theorem unescape_of_splitQuote (h : splitQuote cs = some (body, rest)) :
    unescape cs = unescape body ++ '"' :: unescape rest := by
  simp only [unescape_eq, (units_of_splitQuote h).1, List.filterMap_append]
  rfl

theorem closingQuote_eq_some_iff {i : Nat} :
    closingQuote cs = some i ↔
      ∃ body rest, splitQuote cs = some (body, rest) ∧ byteSize body = i := by
  simp [closingQuote]

theorem closingQuote_eq_none_iff : closingQuote cs = none ↔ splitQuote cs = none := by
  simp [closingQuote]

/-- An escaped text reads back, and is closed by a quote behind it and by none of its own. A closing
quote stands at the byte offset that is found for it. The text in front of it has no closing quote
of its own, is closed by that quote whatever follows, and is unescaped apart from what follows. -/
theorem closingQuote_and_unescape :
    (∀ text rest : List Char, unescape (escape text) = text ∧
        closingQuote (escape text ++ '"' :: rest) = some (byteSize (escape text))) ∧
      ∀ (s : List Char) (i : Nat), closingQuote s = some i →
        ∃ body after, s = body ++ '"' :: after ∧ byteSize body = i ∧ closingQuote body = none ∧
          ∀ rest, closingQuote (body ++ '"' :: rest) = some i ∧
            unescape (body ++ '"' :: rest) = unescape body ++ '"' :: unescape rest := by
  constructor
  · intro text rest
    exact ⟨unescape_escape text,
      closingQuote_eq_some_iff.2 ⟨_, _, splitQuote_escape text rest, rfl⟩⟩
  · intro s i h
    obtain ⟨body, after, hs, rfl⟩ := closingQuote_eq_some_iff.1 h
    have hnone : closingQuote body = none :=
      closingQuote_eq_none_iff.2 (splitQuote_eq_none_iff.2 (units_of_splitQuote hs).2)
    refine ⟨body, after, splitQuote_eq hs, rfl, hnone, ?_⟩
    intro rest
    have hbody := splitQuote_body hs rest
    exact ⟨closingQuote_eq_some_iff.2 ⟨_, _, hbody, rfl⟩, unescape_of_splitQuote hbody⟩

/-- A protected quote, a pair of backslashes in front of the closing quote, and a backslash at the
end that protects nothing. -/
theorem closingQuote_and_unescape_pairs :
    let s := ['é', '\\', '"', '\\', 'n', '\\', '\\', '"', ' ', '\\']
    closingQuote s = some 8 ∧
      ∃ body after, s = body ++ '"' :: after ∧ byteSize body = 8 ∧ closingQuote body = none ∧
        ∀ rest, closingQuote (body ++ '"' :: rest) = some 8 ∧
          unescape (body ++ '"' :: rest) = unescape body ++ '"' :: unescape rest := by
  intro s
  have h : closingQuote s = some 8 := by decide
  exact ⟨h, closingQuote_and_unescape.2 s 8 h⟩

end SearchWords.Text
