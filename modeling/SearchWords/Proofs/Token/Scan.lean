import SearchWords.Expr.Line
import SearchWords.Proofs.Text.Escape
import SearchWords.Token.Scanner

/-!
# The tokens of a line

Places and white space aside, a line is scanned by reading one token after the other
(`Lexeme.tokens_of_read`) and joining neighbouring terms (`Token.scan_eq`). The words that come out
are those that would be read back as they are (`Word.Writable`): a phrase may have any text, but a
bare word is bound by the rules that make it a bare word. That is `Lexeme.writable_of_mem_tokens`,
and `Lexeme.tokens_toLine_append` is the converse for a word that is written.
-/

namespace SearchWords

open Text

/-! ## Words that can be written -/

/-- A word that reads back as it is written. A phrase always does. The text of a bare word must not
be cut by white space or parentheses, and must not start with an exclusion or the keyword. -/
def Word.Writable (w : Word) : Prop :=
  w.phrase = false →
    (∀ c ∈ w.text.toList, isWhiteSpace c = false ∧ c ≠ '(' ∧ c ≠ ')') ∧
      ¬['-'] <+: w.text.toList ∧ w.text ≠ "OR" ∧ ¬['O', 'R', '-'] <+: w.text.toList

namespace Lexeme

theorem isBoundary_eq_false_iff {c : Char} :
    isBoundary c = false ↔ isWhiteSpace c = false ∧ c ≠ '(' ∧ c ≠ ')' := by
  simp [isBoundary, and_assoc]

/-- A bare word does not go on over a boundary. -/
theorem takeWhile_of_isBoundary {c : Char} (hc : isBoundary c = true) (cs : List Char) :
    (c :: cs).takeWhile (!isBoundary ·) = [] := by
  simp [hc]

/-! ## Reading tokens one by one -/

/-- The tokens that are written in a line. -/
def tokens (line : List Char) : List Token :=
  (scan line).map Lexeme.token

theorem tokens_eq (line : List Char) :
    tokens line =
      match line.dropWhile isWhiteSpace with
      | [] => []
      | c :: cs => (read c cs).token :: tokens (read c cs).rest := by
  rw [tokens, scan]
  split
  · next h => exact h ▸ rfl
  · next h => exact h ▸ rfl

@[simp] theorem tokens_nil : tokens [] = [] := by
  rw [tokens_eq]
  rfl

theorem tokens_of_isWhiteSpace {c : Char} (hc : isWhiteSpace c = true) (cs : List Char) :
    tokens (c :: cs) = tokens cs := by
  rw [tokens_eq, List.dropWhile_cons_of_pos hc, ← tokens_eq]

theorem tokens_of_read {c : Char} (hc : isWhiteSpace c = false) (cs : List Char) :
    tokens (c :: cs) = (read c cs).token :: tokens (read c cs).rest := by
  rw [tokens_eq, List.dropWhile_cons_of_neg (by simp [hc])]

/-- A token starts where white space ends. -/
theorem isWhiteSpace_of_dropWhile {line : List Char} {c : Char} {cs : List Char}
    (h : line.dropWhile isWhiteSpace = c :: cs) : isWhiteSpace c = false := by
  have := List.head?_dropWhile_not isWhiteSpace line
  rwa [h] at this

/-- What holds of every token that can be read holds of the tokens of a line. -/
theorem forall_mem_tokens {P : Token → Prop}
    (h : ∀ c cs, isWhiteSpace c = false → P (read c cs).token) (line : List Char) :
    ∀ token ∈ tokens line, P token := by
  unfold tokens
  fun_induction scan line with
  | case1 line _ => simp
  | case2 line c cs hline ih =>
    intro token htoken
    rcases List.mem_cons.1 htoken with rfl | htoken
    · exact h c cs (isWhiteSpace_of_dropWhile hline)
    · exact ih token htoken

/-- Conjunctions and the marker are never written. -/
theorem ne_of_mem_tokens {token : Token} {line : List Char} (h : token ∈ tokens line) :
    token ≠ .and ∧ token ≠ .stop := by
  refine forall_mem_tokens (P := fun token ↦ token ≠ .and ∧ token ≠ .stop) ?_ line token h
  intro c cs _
  unfold read
  repeat' split
  all_goals simp

theorem stop_notMem_tokens (line : List Char) : .stop ∉ tokens line :=
  fun h ↦ (ne_of_mem_tokens h).2 rfl

theorem and_notMem_tokens (line : List Char) : .and ∉ tokens line :=
  fun h ↦ (ne_of_mem_tokens h).1 rfl

/-! ## Words that are read -/

section

variable {rest s : List Char}

/-- The keyword ends where a bare word would end. -/
theorem endsKeyword_of_takeWhile (h : rest.takeWhile (!isBoundary ·) = []) :
    endsKeyword rest = true := by
  cases rest with
  | nil => rfl
  | cons c cs =>
    cases hc : isBoundary c with
    | true => simp [endsKeyword, hc]
    | false => simp [hc] at h

theorem keyword?_of_ne {c d : Char} (h : ¬(c = 'O' ∧ d = 'R')) (cs : List Char) :
    keyword? (c :: d :: cs) = none := by
  unfold keyword?
  split
  · next heq =>
    simp only [List.cons.injEq] at heq
    exact absurd ⟨heq.1, heq.2.1⟩ h
  · rfl

/-- A text without boundaries, in front of one, is taken for the keyword only if it is the keyword,
or the keyword and an exclusion or a quote. -/
theorem keyword?_eq_none_iff (hs : ∀ c ∈ s, isBoundary c = false)
    (hrest : rest.takeWhile (!isBoundary ·) = []) :
    keyword? (s ++ rest) = none ↔
      s ≠ ['O', 'R'] ∧ ¬['O', 'R', '-'] <+: s ∧ ¬['O', 'R', '"'] <+: s := by
  have hO : isBoundary 'O' = false := by decide
  have hR : isBoundary 'R' = false := by decide
  match s with
  | [] =>
    cases rest with
    | nil => simp [keyword?]
    | cons c cs =>
      have hc : c ≠ 'O' := by
        rintro rfl
        simp [hO] at hrest
      simp [keyword?, hc]
  | [a] =>
    cases rest with
    | nil => simp [keyword?]
    | cons c cs =>
      have hc : c ≠ 'R' := by
        rintro rfl
        simp [hR] at hrest
      simp [keyword?, hc]
  | a :: b :: t =>
    by_cases hab : a = 'O' ∧ b = 'R'
    · obtain ⟨rfl, rfl⟩ := hab
      cases t with
      | nil => simp [keyword?, endsKeyword_of_takeWhile hrest]
      | cons d t =>
        have hd : isBoundary d = false := hs d (by simp)
        have hends : endsKeyword (d :: (t ++ rest)) = (d = '-' || d = '"') := by
          simp [endsKeyword, hd]
        simp [keyword?, hends, List.cons_prefix_cons, @eq_comm _ _ d]
    · have hne : ∀ u, a :: b :: t ≠ 'O' :: 'R' :: u := by
        rintro u h
        simp only [List.cons.injEq] at h
        exact hab ⟨h.1, h.2.1⟩
      refine ⟨fun _ ↦ ⟨hne [], ?_, ?_⟩, fun _ ↦ keyword?_of_ne hab _⟩
      · rintro ⟨u, hu⟩
        exact hne _ hu.symm
      · rintro ⟨u, hu⟩
        exact hne _ hu.symm

end

section

variable {c : Char} {cs : List Char}

theorem isBoundary_of_mem_takeWhile {x : Char} (h : x ∈ cs.takeWhile (!isBoundary ·)) :
    isBoundary x = false := by
  have hall := List.all_takeWhile (p := (!isBoundary ·)) (l := cs)
  simpa using List.all_eq_true.1 hall x h

/-- The source of a bare word ends at a boundary. -/
theorem takeWhile_dropWhile (cs : List Char) :
    (cs.dropWhile (!isBoundary ·)).takeWhile (!isBoundary ·) = [] := by
  induction cs with
  | nil => rfl
  | cons c cs ih => cases h : isBoundary c <;> simp [h, ih]

/-- The source of a bare word is neither the keyword nor does it start with the keyword and what
ends it. -/
theorem source_of_keyword? (hc : isBoundary c = false) (hk : keyword? (c :: cs) = none) :
    let source := c :: cs.takeWhile (!isBoundary ·)
    source ≠ ['O', 'R'] ∧ ¬['O', 'R', '-'] <+: source ∧ ¬['O', 'R', '"'] <+: source := by
  intro source
  have hs : ∀ x ∈ source, isBoundary x = false :=
    List.forall_mem_cons.2 ⟨hc, fun x hx ↦ isBoundary_of_mem_takeWhile hx⟩
  have hline : source ++ cs.dropWhile (!isBoundary ·) = c :: cs := by
    rw [List.cons_append, List.takeWhile_append_dropWhile]
  exact (keyword?_eq_none_iff hs (takeWhile_dropWhile cs)).1 (by rwa [hline])

/-- The word that is made of the source of a bare word can be written. -/
theorem writable_of_source (hc : isBoundary c = false) (hd : c ≠ '-')
    (hk : keyword? (c :: cs) = none) :
    (Word.bare (String.ofList (unescape (c :: cs.takeWhile (!isBoundary ·))))).Writable := by
  intro _
  simp only [Word.bare, String.toList_ofList]
  have hO : isEscapable 'O' = false := by decide
  have hR : isEscapable 'R' = false := by decide
  have hD : isEscapable '-' = false := by decide
  obtain ⟨hor, hdash, -⟩ := source_of_keyword? hc hk
  refine ⟨?_, ?_, ?_, ?_⟩
  · intro x hx
    rcases List.mem_cons.1 (mem_of_mem_unescape hx) with rfl | hx
    · exact isBoundary_eq_false_iff.1 hc
    · exact isBoundary_eq_false_iff.1 (isBoundary_of_mem_takeWhile hx)
  · rintro ⟨t, ht⟩
    obtain ⟨s, hs, -⟩ := eq_cons_of_unescape hD ht.symm
    exact hd (List.cons.inj hs).1
  · intro htext
    have htext : unescape (c :: cs.takeWhile (!isBoundary ·)) = ['O', 'R'] := by
      simpa using congrArg String.toList htext
    obtain ⟨s, hs, ht⟩ := eq_cons_of_unescape hO htext
    obtain ⟨s', rfl, ht'⟩ := eq_cons_of_unescape hR ht
    obtain rfl := eq_nil_of_unescape ht'
    exact hor hs
  · rintro ⟨t, ht⟩
    obtain ⟨s, hs, ht⟩ := eq_cons_of_unescape hO ht.symm
    obtain ⟨s', rfl, ht'⟩ := eq_cons_of_unescape hR ht
    obtain ⟨s'', rfl, -⟩ := eq_cons_of_unescape hD ht'
    exact hdash ⟨s'', hs.symm⟩

end

/-- Every word that is read can be written. -/
theorem writable_of_mem_tokens {w : Word} {line : List Char} (h : .word w ∈ tokens line) :
    w.Writable := by
  refine forall_mem_tokens (P := fun token ↦ ∀ w, token = .word w → w.Writable) ?_ line _ h w rfl
  intro c cs hc w hw
  unfold read at hw
  split at hw
  · cases hw
  split at hw
  · cases hw
  split at hw
  · cases hw
  split at hw
  · obtain rfl := Token.word.inj hw
    intro hphrase
    cases hphrase
  split at hw
  · cases hw
  · next hl hr hd _ _ _ hk =>
    obtain rfl := Token.word.inj hw
    exact writable_of_source (isBoundary_eq_false_iff.2 ⟨hc, hl, hr⟩) hd hk

/-! ## Words that are written -/

theorem read_lparen (cs : List Char) : read '(' cs = ⟨.lparen, ['('], cs⟩ := rfl

theorem read_rparen (cs : List Char) : read ')' cs = ⟨.rparen, [')'], cs⟩ := rfl

theorem read_exclude (cs : List Char) : read '-' cs = ⟨.exclude, ['-'], cs⟩ := rfl

theorem read_of_quote {cs body rest : List Char} (h : splitQuote cs = some (body, rest)) :
    read '"' cs =
      ⟨.word (.quoted (String.ofList (unescape body))), '"' :: body ++ ['"'], rest⟩ := by
  simp [read, phrase?, h]

theorem read_of_keyword {cs : List Char} (h : endsKeyword cs = true) :
    read 'O' ('R' :: cs) = ⟨.or, ['O', 'R'], cs⟩ := by
  simp [read, phrase?, keyword?, h]

/-- What is neither a phrase nor the keyword is a bare word. -/
theorem read_of_none {c : Char} {cs : List Char} (hl : c ≠ '(') (hr : c ≠ ')') (hd : c ≠ '-')
    (hp : phrase? (c :: cs) = none) (hk : keyword? (c :: cs) = none) :
    read c cs =
      ⟨.word (.bare (String.ofList (unescape (c :: cs.takeWhile (!isBoundary ·))))),
        c :: cs.takeWhile (!isBoundary ·), cs.dropWhile (!isBoundary ·)⟩ := by
  simp [read, hl, hr, hd, hp, hk]

theorem phrase?_of_ne {c : Char} (hq : c ≠ '"') (cs : List Char) : phrase? (c :: cs) = none := by
  unfold phrase?
  split
  · next heq => exact absurd (List.cons.inj heq).1 hq
  · rfl

theorem endsKeyword_of_keyword? {cs rest : List Char} (h : keyword? cs = some rest) :
    endsKeyword rest = true := by
  unfold keyword? at h
  split at h
  · split at h
    · obtain rfl := Option.some.inj h
      assumption
    · cases h
  · cases h

section

variable {text rest : List Char}

/-- What is neither a phrase nor the keyword is a bare word, up to the next boundary. -/
theorem read_of_inside {c : Char} {s : List Char} (hs : ∀ x ∈ c :: s, isBoundary x = false)
    (hrest : rest.takeWhile (!isBoundary ·) = []) (hd : c ≠ '-')
    (hp : phrase? (c :: (s ++ rest)) = none) (hk : keyword? (c :: (s ++ rest)) = none) :
    read c (s ++ rest) = ⟨.word (.bare (String.ofList (unescape (c :: s)))), c :: s, rest⟩ := by
  obtain ⟨hc, hs⟩ := List.forall_mem_cons.1 hs
  obtain ⟨-, hl, hr⟩ := isBoundary_eq_false_iff.1 hc
  have htake : (s ++ rest).takeWhile (!isBoundary ·) = s := by
    rw [List.takeWhile_append_of_pos (by simpa using hs), hrest, List.append_nil]
  have hdrop : (s ++ rest).dropWhile (!isBoundary ·) = rest := by
    rw [List.dropWhile_append_of_pos (by simpa using hs)]
    have := List.takeWhile_append_dropWhile (p := (!isBoundary ·)) (l := rest)
    rwa [hrest] at this
  rw [read_of_none hl hr hd hp hk, htake, hdrop]

/-- A bare word that can be written is not taken for the keyword. -/
theorem keyword?_escape_append (hb : ∀ c ∈ text, isBoundary c = false) (hne : text ≠ [])
    (hor : text ≠ ['O', 'R']) (hdash : ¬['O', 'R', '-'] <+: text)
    (hrest : rest.takeWhile (!isBoundary ·) = []) : keyword? (escape text ++ rest) = none := by
  cases hk : keyword? (escape text ++ rest) with
  | none => rfl
  | some cs =>
    exfalso
    have hends := endsKeyword_of_keyword? hk
    rcases eq_cons_of_escape_append (by decide) (keyword?_eq hk) with ⟨rfl, -⟩ | ⟨s, rfl, hs⟩
    · exact hne rfl
    rcases eq_cons_of_escape_append (by decide) hs with ⟨rfl, rfl⟩ | ⟨s', rfl, rfl⟩
    · have hR : isBoundary 'R' = false := by decide
      simp [hR] at hrest
    -- The text goes on after the keyword, with a character that does not end it.
    cases s' with
    | nil => exact hor rfl
    | cons c s' =>
      have hc : isBoundary c = false := hb c (by simp)
      cases he : isEscapable c with
      | true =>
        have hslash : isBoundary '\\' = false := by decide
        simp [escape_cons_of_isEscapable he, endsKeyword, hslash] at hends
      | false =>
        have hquote : c ≠ '"' := by
          rintro rfl
          cases he
        have hminus : c ≠ '-' := by
          rintro rfl
          exact hdash ⟨s', rfl⟩
        simp [escape_cons_of_not_isEscapable he, endsKeyword, hc, hquote, hminus] at hends

/-- An escaped text without boundaries is the source of a bare word, up to the next boundary. -/
theorem tokens_escape_append (hb : ∀ c ∈ text, isBoundary c = false) (hne : text ≠ [])
    (hminus : ¬['-'] <+: text) (hor : text ≠ ['O', 'R']) (hdash : ¬['O', 'R', '-'] <+: text)
    (hrest : rest.takeWhile (!isBoundary ·) = []) :
    tokens (escape text ++ rest) = .word (.bare (String.ofList text)) :: tokens rest := by
  have hk := keyword?_escape_append hb hne hor hdash hrest
  have hall : ∀ c ∈ escape text, isBoundary c = false := by
    intro c hc
    rcases mem_of_mem_escape hc with rfl | hc
    · decide
    · exact hb c hc
  cases hs : escape text with
  | nil => exact absurd (escape_eq_nil_iff.1 hs) hne
  | cons c s =>
    rw [hs] at hall hk
    have hwhite := (isBoundary_eq_false_iff.1 (hall c List.mem_cons_self)).1
    have hq : c ≠ '"' := by
      rintro rfl
      exact escape_ne_quote_cons text s hs
    have hd : c ≠ '-' := by
      rintro rfl
      have hs' : escape text ++ rest = '-' :: (s ++ rest) := by rw [hs, List.cons_append]
      rcases eq_cons_of_escape_append (by decide) hs' with ⟨rfl, -⟩ | ⟨t, rfl, -⟩
      · exact hne rfl
      · exact hminus ⟨t, rfl⟩
    have hread := read_of_inside hall hrest hd (phrase?_of_ne hq _) hk
    rw [List.cons_append, tokens_of_read hwhite, hread, ← hs, unescape_escape]

end

/-- A word that can be written is read back from its line. A bare word extends up to a boundary, so
that the rest of the line must not go on with it. -/
theorem tokens_toLine_append {w : Word} (hw : w.Writable) (hne : w.text ≠ "") {rest : List Char}
    (hrest : rest.takeWhile (!isBoundary ·) = []) :
    tokens (w.toLine.toList ++ rest) = .word w :: tokens rest := by
  obtain ⟨text, phrase⟩ := w
  cases phrase with
  | true =>
    have hread := read_of_quote (splitQuote_escape text.toList rest)
    have hline : (Word.mk text true).toLine.toList ++ rest =
        '"' :: (escape text.toList ++ '"' :: rest) := by
      simp [Word.toLine]
    rw [hline, tokens_of_read (by decide), hread, unescape_escape, String.ofList_toList]
    rfl
  | false =>
    obtain ⟨hb, hminus, hor, hdash⟩ := hw rfl
    have hline : (Word.mk text false).toLine.toList ++ rest = escape text.toList ++ rest := by
      simp [Word.toLine]
    have hne' : text.toList ≠ [] := mt String.toList_eq_nil_iff.1 hne
    have hor' : text.toList ≠ ['O', 'R'] := fun h ↦ hor (String.toList_inj.1 h)
    have hb' : ∀ c ∈ text.toList, isBoundary c = false := fun c hc ↦
      isBoundary_eq_false_iff.2 (hb c hc)
    rw [hline, tokens_escape_append hb' hne' hminus hor' hdash hrest, String.ofList_toList]
    rfl

end Lexeme

end SearchWords
