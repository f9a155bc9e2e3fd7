import SearchWords.Text.Escape

/-!
# Escaped texts read back

Escaping puts a backslash in front of every character that one protects, so the backslashes of an
escaped text come in pairs with these. Unescaping drops them again (`unescape_escape`), and the scan
for a closing quote passes over them (`splitQuote_escape`).

The other way round, what unescaping yields is known only up to these pairs. A character that is
never protected stands in front of an unescaped text only if it stands in front of the text itself:
this is `eq_cons_of_unescape`, which tells what the source of a word may look like.
-/

namespace SearchWords.Text

theorem ne_backslash_of_not_isEscapable {c : Char} (hc : isEscapable c = false) : c ≠ '\\' := by
  rintro rfl
  cases hc

theorem escape_cons_of_isEscapable {c : Char} (hc : isEscapable c = true) (cs : List Char) :
    escape (c :: cs) = '\\' :: c :: escape cs := by
  rw [escape, if_pos hc]

theorem escape_cons_of_not_isEscapable {c : Char} (hc : isEscapable c = false) (cs : List Char) :
    escape (c :: cs) = c :: escape cs := by
  rw [escape, if_neg (by simp [hc])]

theorem unescape_pair {c : Char} (hc : isEscapable c = true) (cs : List Char) :
    unescape ('\\' :: c :: cs) = c :: unescape cs := by
  rw [unescape, if_pos hc]

theorem unescape_cons_of_not_isEscapable {c : Char} (hc : isEscapable c = false)
    (cs : List Char) : unescape (c :: cs) = c :: unescape cs := by
  have hne := ne_backslash_of_not_isEscapable hc
  rw [unescape]
  simp [hne]

/-- Unescaping undoes escaping. -/
theorem unescape_escape (s : List Char) : unescape (escape s) = s := by
  induction s with
  | nil => rfl
  | cons c cs ih =>
    cases hc : isEscapable c with
    | true => rw [escape_cons_of_isEscapable hc, unescape_pair hc, ih]
    | false =>
      rw [escape_cons_of_not_isEscapable hc, unescape_cons_of_not_isEscapable hc, ih]

/-- An escaped text holds no closing quote. -/
theorem splitQuote_escape (s rest : List Char) :
    splitQuote (escape s ++ '"' :: rest) = some (escape s, rest) := by
  induction s with
  | nil => rfl
  | cons c cs ih =>
    cases hc : isEscapable c with
    | true =>
      rw [escape_cons_of_isEscapable hc, List.cons_append, List.cons_append, splitQuote,
        if_pos hc, ih]
      rfl
    | false =>
      have hslash := ne_backslash_of_not_isEscapable hc
      have hquote : c ≠ '"' := by
        rintro rfl
        cases hc
      rw [escape_cons_of_not_isEscapable hc, List.cons_append, splitQuote, ih]
      · rfl
      · exact hquote
      · simp [hslash]

theorem mem_of_mem_unescape {c : Char} {s : List Char} (h : c ∈ unescape s) : c ∈ s := by
  fun_induction unescape s with
  | case1 d cs hd ih =>
    rcases List.mem_cons.1 h with rfl | h
    · simp
    · simp [ih h]
  | case2 d cs hd ih =>
    rcases List.mem_cons.1 h with rfl | h
    · simp
    · exact List.mem_cons_of_mem _ (ih h)
  | case3 d cs _ ih =>
    rcases List.mem_cons.1 h with rfl | h
    · simp
    · exact List.mem_cons_of_mem _ (ih h)
  | case4 => exact h

theorem mem_of_mem_escape {c : Char} {s : List Char} (h : c ∈ escape s) : c = '\\' ∨ c ∈ s := by
  induction s with
  | nil => simp [escape] at h
  | cons d cs ih =>
    unfold escape at h
    split at h <;> grind

theorem escape_eq_nil_iff {s : List Char} : escape s = [] ↔ s = [] := by
  cases s with
  | nil => simp [escape]
  | cons c cs =>
    unfold escape
    split <;> simp

/-- A quote in an escaped text never stands first. -/
theorem escape_ne_quote_cons (s t : List Char) : escape s ≠ '"' :: t := by
  cases s with
  | nil => simp [escape]
  | cons c cs =>
    cases hc : isEscapable c with
    | true => simp [escape_cons_of_isEscapable hc]
    | false =>
      rw [escape_cons_of_not_isEscapable hc]
      rintro h
      rw [(List.cons.inj h).1] at hc
      cases hc

/-- What an escaped text starts with, if nothing ever protects it. -/
theorem eq_cons_of_escape_append {c : Char} (hc : isEscapable c = false) {s rest t : List Char}
    (h : escape s ++ rest = c :: t) :
    s = [] ∧ rest = c :: t ∨ ∃ s', s = c :: s' ∧ escape s' ++ rest = t := by
  cases s with
  | nil => exact .inl ⟨rfl, h⟩
  | cons d s =>
    cases hd : isEscapable d with
    | true =>
      rw [escape_cons_of_isEscapable hd] at h
      exact absurd (List.cons.inj h).1.symm (ne_backslash_of_not_isEscapable hc)
    | false =>
      rw [escape_cons_of_not_isEscapable hd] at h
      obtain ⟨rfl, rfl⟩ := List.cons.inj h
      exact .inr ⟨s, rfl, rfl⟩

theorem eq_nil_of_unescape {s : List Char} (h : unescape s = []) : s = [] := by
  fun_induction unescape s <;> simp_all

/-- The first character of an unescaped text, if nothing ever protects it, is the first character of
the text. -/
theorem eq_cons_of_unescape {c : Char} (hc : isEscapable c = false) {s t : List Char}
    (h : unescape s = c :: t) : ∃ s', s = c :: s' ∧ unescape s' = t := by
  have hne := ne_backslash_of_not_isEscapable hc
  fun_induction unescape s with
  | case1 d cs hd ih =>
    obtain ⟨rfl, -⟩ := List.cons.inj h
    rw [hc] at hd
    cases hd
  | case2 d cs hd ih =>
    obtain ⟨rfl, -⟩ := List.cons.inj h
    exact absurd rfl hne
  | case3 d cs _ ih =>
    obtain ⟨rfl, rfl⟩ := List.cons.inj h
    exact ⟨cs, rfl, rfl⟩
  | case4 => cases h

end SearchWords.Text
