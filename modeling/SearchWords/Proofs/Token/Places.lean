import Mathlib.Data.List.TakeWhile
import SearchWords.Proofs.Token.Neighbours

/-!
# Places of tokens

The offset of a token is summed up from the lexemes in front of it. `readAt_of_mem_placed` says that
the sum is right: a token that is written in a line is the one that is read at its offset. Only the
conjunctions and the marker are not written, and they are placed at the next token and at the end of
the line.
-/

namespace SearchWords.Token

open Text

/-- `ReadAt line offset token`: this is the token that is read at the byte offset. -/
def ReadAt (line : List Char) (offset : Nat) (token : Token) : Prop :=
  ∃ before c cs, line = before ++ c :: cs ∧ byteSize before = offset ∧
    isWhiteSpace c = false ∧ (Lexeme.read c cs).token = token

/-- `StandsAt line before token offset after`: the tokens of the line are `before`, `token` and
`after`, and `token` is read at the byte offset. -/
structure StandsAt (line : String) (before : List Token) (token : Token) (offset : Nat)
    (after : List Token) : Prop where
  placed : ∃ ps qs, placed line = ps ++ ⟨token, offset⟩ :: qs ∧ ps.map Placed.token = before ∧
    qs.map Placed.token = after
  readAt : ReadAt line.toList offset token

/-- What is read further on in a line is read in the whole line as well. -/
theorem ReadAt.append {line : List Char} {offset : Nat} {token : Token}
    (h : ReadAt line offset token) (more : List Char) :
    ReadAt (more ++ line) (byteSize more + offset) token := by
  obtain ⟨before, c, cs, rfl, rfl, hc, htoken⟩ := h
  exact ⟨more ++ before, c, cs, by simp, by simp, hc, htoken⟩

theorem readAt_of_mem_place {line : List Char} {start : Nat} {p : Placed}
    (h : p ∈ place start (Lexeme.scan line)) :
    ∃ offset, p.offset = start + offset ∧ ReadAt line offset p.token := by
  fun_induction Lexeme.scan line generalizing start with
  | case1 line _ => cases h
  | case2 line c cs hline ih =>
    have hsplit : line = line.takeWhile isWhiteSpace ++ c :: cs := by
      rw [← hline, List.takeWhile_append_dropWhile]
    rcases List.mem_cons.1 h with rfl | h
    · exact ⟨_, rfl, _, c, cs, hsplit, rfl, Lexeme.isWhiteSpace_of_dropWhile hline, rfl⟩
    · obtain ⟨offset, hoffset, hread⟩ := ih h
      have hmore := hread.append (line.takeWhile isWhiteSpace ++ (Lexeme.read c cs).source)
      rw [List.append_assoc, Lexeme.read_source_append_rest, ← hsplit] at hmore
      refine ⟨_, ?_, hmore⟩
      simp only [hoffset, byteSize_append, Nat.add_assoc]

theorem eq_and_or_mem_of_mem_join {p : Placed} {ps : List Placed} (h : p ∈ join ps) :
    p.token = .and ∨ p ∈ ps := by
  fun_induction join ps with
  | case1 a b ps hab ih => grind
  | case2 a b ps hab ih => grind
  | case3 ps _ => exact .inr h

/-- A token that is written is read at its offset. -/
theorem readAt_of_mem_placed {line : String} {p : Placed} (h : p ∈ placed line)
    (hand : p.token ≠ .and) (hstop : p.token ≠ .stop) :
    ReadAt line.toList p.offset p.token := by
  rcases List.mem_append.1 h with h | h
  · rcases eq_and_or_mem_of_mem_join h with h | h
    · exact absurd h hand
    · obtain ⟨offset, hoffset, hread⟩ := readAt_of_mem_place h
      rwa [hoffset, Nat.zero_add]
  · obtain rfl := List.mem_singleton.1 h
    exact absurd rfl hstop

/-- The token with an index is read at the offset that it is placed at. -/
theorem exists_standsAt {line : String} {before after : List Token} {token : Token}
    (h : scan line = before ++ token :: after) (hand : token ≠ .and) (hstop : token ≠ .stop) :
    ∃ offset, (placed line)[before.length]? = some ⟨token, offset⟩ ∧
      StandsAt line before token offset after := by
  obtain ⟨ps, rs, hplaced, rfl, hrs⟩ := List.map_eq_append_iff.1 h
  obtain ⟨⟨token, offset⟩, qs, rfl, rfl, rfl⟩ := List.map_eq_cons_iff.1 hrs
  have hmem : ⟨token, offset⟩ ∈ placed line := by
    rw [hplaced]
    exact List.mem_append_right _ List.mem_cons_self
  refine ⟨offset, ?_, ⟨ps, qs, hplaced, rfl, rfl⟩, readAt_of_mem_placed hmem hand hstop⟩
  rw [hplaced, List.length_map, List.getElem?_append_right (Nat.le_refl _), Nat.sub_self]
  rfl

/-- The only word without a text is a phrase between two quotes side by side. -/
theorem ReadAt.eq_of_text {line : List Char} {offset : Nat} {w : Word}
    (h : ReadAt line offset (.word w)) (hw : w.text = "") :
    w = .quoted "" ∧
      ∃ before after, line = before ++ '"' :: '"' :: after ∧ byteSize before = offset := by
  obtain ⟨before, c, cs, rfl, rfl, -, htoken⟩ := h
  unfold Lexeme.read at htoken
  split at htoken
  · cases htoken
  split at htoken
  · cases htoken
  split at htoken
  · cases htoken
  split at htoken
  · next body rest hphrase =>
    obtain rfl := Token.word.inj htoken
    obtain rfl : body = [] := eq_nil_of_unescape (String.ofList_eq_empty_iff.1 hw)
    exact ⟨rfl, before, rest, by rw [Lexeme.phrase?_eq hphrase]; rfl, rfl⟩
  split at htoken
  · cases htoken
  · obtain rfl := Token.word.inj htoken
    cases eq_nil_of_unescape (String.ofList_eq_empty_iff.1 hw)

/-! ## Blank lines -/

/-- A line has no tokens if and only if it is blank. -/
theorem scan_eq_singleton_iff (line : String) : scan line = [.stop] ↔ isBlank line = true := by
  have hnil : scan line = [.stop] ↔ Lexeme.tokens line.toList = [] := by
    rw [scan_eq, ← List.head?_eq_none_iff, ← head?_conjoin, List.head?_eq_none_iff]
    simp
  rw [hnil, isBlank, List.all_eq_true, ← List.dropWhile_eq_nil_iff, Lexeme.tokens_eq]
  cases line.toList.dropWhile isWhiteSpace <;> simp

end SearchWords.Token
