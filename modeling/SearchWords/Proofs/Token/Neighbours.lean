import Mathlib.Data.List.Chain
import SearchWords.Proofs.Token.Join

/-!
# Neighbours in a scanned line

Conjunctions are put in by looking at two tokens at a time, and what that does to a line is a
statement about two tokens at a time as well: `Adjacent` says which tokens may stand side by side
once it is done, and `isChain_scan` that no others do. A marker is put in front of the line, as it
stands below everything on the stack of the automaton. `scan_shape` says the same of whole lines, in
terms of what their tokens are.

A conjunction is put in front of whatever does not go on with a term, which would include markers
and conjunctions. So the shape of a line depends on these not being among the tokens that are read
(`isChain_conjoin`).
-/

namespace SearchWords.Token

/-- Tokens that may stand side by side in a scanned line: two terms have a conjunction between them,
and a conjunction has a term on either side. -/
structure Adjacent (a b : Token) : Prop where
  startsTerm_of_endsTerm : a.endsTerm = true → b.startsTerm = false
  endsTerm_of_and : b = .and → a.endsTerm = true
  startsTerm_of_and : a = .and → b.startsTerm = true

/-- Neighbours that are no conjunctions are adjacent, unless they are two terms. -/
theorem Adjacent.of_ne_and {a b : Token} (ha : a ≠ .and) (hb : b ≠ .and)
    (hab : a.endsTerm = true → b.startsTerm = false) : Adjacent a b where
  startsTerm_of_endsTerm := hab
  endsTerm_of_and h := absurd h hb
  startsTerm_of_and h := absurd h ha

theorem endsTerm_ne_and {a : Token} (h : a.endsTerm = true) : a ≠ .and := by
  rintro rfl
  cases h

theorem startsTerm_ne_and {a : Token} (h : a.startsTerm = true) : a ≠ .and := by
  rintro rfl
  cases h

@[simp] theorem head?_conjoin (ts : List Token) : (conjoin ts).head? = ts.head? := by
  fun_cases conjoin ts <;> rfl

@[simp] theorem getLast?_conjoin (ts : List Token) : (conjoin ts).getLast? = ts.getLast? := by
  fun_induction conjoin ts with
  | case1 a b ts hab ih => simp [List.getLast?_cons, ih]
  | case2 a b ts hab ih => simp [List.getLast?_cons, ih]
  | case3 ts _ => rfl

/-- Where neither conjunctions nor markers are read, what does not go on with a term starts one, and
the negative test puts conjunctions between terms and nowhere else. -/
theorem isChain_conjoin {ts : List Token} (h : .and ∉ ts) (hstop : .stop ∉ ts) :
    (conjoin ts).IsChain Adjacent := by
  fun_induction conjoin ts with
  | case1 a b ts hab ih =>
    have hts := List.not_mem_of_not_mem_cons h
    have hstops := List.not_mem_of_not_mem_cons hstop
    obtain ⟨hends, hfollows⟩ := Bool.and_eq_true_iff.1 hab
    have hstarts : b.startsTerm = true := by
      rwa [startsTerm_eq_not_followsTerm (Ne.symm (List.ne_of_not_mem_cons hts))
        (Ne.symm (List.ne_of_not_mem_cons hstops))]
    have hleft : Adjacent a .and :=
      ⟨fun _ ↦ rfl, fun _ ↦ hends, fun ha ↦ absurd ha (endsTerm_ne_and hends)⟩
    have hright : Adjacent .and b :=
      ⟨fun hand ↦ (by cases hand), fun hb ↦ absurd hb (startsTerm_ne_and hstarts), fun _ ↦ hstarts⟩
    refine List.isChain_cons.2 ⟨?_, List.isChain_cons.2 ⟨?_, ih hts hstops⟩⟩
    · intro t ht
      obtain rfl := Option.some.inj ht
      exact hleft
    · intro t ht
      rw [head?_conjoin] at ht
      obtain rfl := Option.some.inj ht
      exact hright
  | case2 a b ts hab ih =>
    have hts := List.not_mem_of_not_mem_cons h
    have hstops := List.not_mem_of_not_mem_cons hstop
    have ha : a ≠ .and := Ne.symm (List.ne_of_not_mem_cons h)
    have hb : b ≠ .and := Ne.symm (List.ne_of_not_mem_cons hts)
    refine List.isChain_cons.2 ⟨?_, ih hts hstops⟩
    intro t ht
    rw [head?_conjoin] at ht
    obtain rfl := Option.some.inj ht
    refine .of_ne_and ha hb fun hends ↦ ?_
    rw [startsTerm_eq_not_followsTerm hb (Ne.symm (List.ne_of_not_mem_cons hstops))]
    simpa [hends] using hab
  | case3 ts hts =>
    rcases ts with _ | ⟨a, _ | ⟨b, ts⟩⟩
    · exact .nil
    · exact .singleton a
    · exact absurd rfl (hts a b ts)

/-- Any two neighbours in a line that is scanned are adjacent, its markers included. -/
theorem isChain_scan (line : String) : (.stop :: scan line).IsChain Adjacent := by
  have hand := Lexeme.and_notMem_tokens line.toList
  have hstop := Lexeme.stop_notMem_tokens line.toList
  have hfirst : ∀ t ∈ (conjoin (Lexeme.tokens line.toList)).head?, Adjacent .stop t := by
    intro t ht
    rw [head?_conjoin] at ht
    have hne := ne_of_mem_of_not_mem (List.mem_of_mem_head? ht) hand
    exact .of_ne_and (by simp) hne (by simp [endsTerm])
  have hlast : ∀ t ∈ (.stop :: conjoin (Lexeme.tokens line.toList)).getLast?, t ≠ .and := by
    intro t ht
    rw [List.getLast?_cons, getLast?_conjoin] at ht
    obtain rfl := Option.some.inj ht
    cases hlast : (Lexeme.tokens line.toList).getLast? with
    | none => simp
    | some u => exact ne_of_mem_of_not_mem (List.mem_of_mem_getLast? hlast) hand
  have hchain := List.isChain_cons.2 ⟨hfirst, isChain_conjoin hand hstop⟩
  rw [scan_eq, ← List.cons_append]
  refine List.isChain_append.2 ⟨hchain, .singleton _, ?_⟩
  intro t ht u hu
  obtain rfl := Option.some.inj hu
  exact .of_ne_and (hlast t ht) (by simp) (by simp [startsTerm])

/-! ## The shape of a scanned line -/

theorem endsTerm_iff {a : Token} : a.endsTerm = true ↔ a.kind ∈ [Kind.word, .rparen] := by
  cases a <;> simp [endsTerm, kind]

theorem startsTerm_iff {b : Token} :
    b.startsTerm = true ↔ b.kind ∈ [Kind.word, .lparen, .exclude] := by
  cases b <;> simp [startsTerm, kind]

section

variable {line : String} {before after : List Token} {a b : Token}

theorem adjacent_of_scan_eq (h : scan line = before ++ a :: b :: after) : Adjacent a b := by
  have hchain := isChain_scan line
  rw [h, ← List.cons_append] at hchain
  exact (List.isChain_cons_cons.1 hchain.right_of_append).1

/-- A conjunction does not open a line, and what stands in front of it is the end of a term. -/
theorem exists_getLast?_of_and (h : scan line = before ++ .and :: after) :
    ∃ a ∈ before.getLast?, a.endsTerm = true := by
  rcases List.eq_nil_or_concat' before with rfl | ⟨before, a, rfl⟩
  · have hchain := isChain_scan line
    rw [h, List.nil_append] at hchain
    cases (List.isChain_cons_cons.1 hchain).1.endsTerm_of_and rfl
  · rw [List.append_assoc, List.singleton_append] at h
    exact ⟨a, List.getLast?_concat, (adjacent_of_scan_eq h).endsTerm_of_and rfl⟩

/-- A conjunction is not the last token, as that is the marker, and what stands behind it is the
start of a term. -/
theorem exists_head?_of_and (h : scan line = before ++ .and :: after) :
    ∃ b ∈ after.head?, b.startsTerm = true := by
  cases after with
  | nil =>
    rw [scan_eq] at h
    cases (List.append_singleton_inj.1 h).2
  | cons b after => exact ⟨b, rfl, (adjacent_of_scan_eq h).startsTerm_of_and rfl⟩

end

/-- The shape of the tokens of a line. The marker is at the end and nowhere else, each conjunction
has the end of a term on its left and the start of one on its right, no two terms stand side by side
without one, and apart from the conjunctions the tokens are those that are read. -/
theorem scan_shape (line : String) :
    (∃ ts : List Token, scan line = ts ++ [.stop] ∧ .stop ∉ ts) ∧
      (∀ before after : List Token, scan line = before ++ .and :: after →
        (∃ a ∈ before.getLast?, a.kind ∈ [Kind.word, .rparen]) ∧
          ∃ b ∈ after.head?, b.kind ∈ [Kind.word, .lparen, .exclude]) ∧
      (∀ (before : List Token) (a b : Token) (after : List Token),
        scan line = before ++ a :: b :: after → a.kind ∈ [Kind.word, .rparen] →
          b.kind ∉ [Kind.word, .lparen, .exclude]) ∧
      (scan line).filter (· ≠ .and) = Lexeme.tokens line.toList ++ [.stop] := by
  simp only [← endsTerm_iff, ← startsTerm_iff]
  refine ⟨⟨_, scan_eq line, stop_notMem_conjoin line.toList⟩, ?_, ?_, ?_⟩
  · intro before after h
    exact ⟨exists_getLast?_of_and h, exists_head?_of_and h⟩
  · intro before a b after h hends hstarts
    have hnot := (adjacent_of_scan_eq h).startsTerm_of_endsTerm hends
    rw [hstarts] at hnot
    cases hnot
  · rw [scan_eq, List.filter_append, filter_conjoin (Lexeme.and_notMem_tokens line.toList)]
    rfl

/-- A group is a term on either side of it, an exclusion starts one, and the disjunction in the group
needs no conjunction. -/
theorem scan_shape_group :
    let line := "a -(b OR c)\"d\""
    let before : List Token := [.word (.bare "a"), .and, .exclude, .lparen, .word (.bare "b"), .or,
      .word (.bare "c"), .rparen]
    scan line = before ++ [.and, .word (.quoted "d"), .stop] ∧
      (∃ a ∈ before.getLast?, a.kind ∈ [Kind.word, .rparen]) ∧
      Token.or.kind ∉ [Kind.word, .lparen, .exclude] ∧
      Lexeme.tokens line.toList = before.erase .and ++ [.word (.quoted "d")] := by
  intro line before
  have hscan : scan line = before ++ [.and, .word (.quoted "d"), .stop] := by decide +kernel
  obtain ⟨-, hand, hterms, hread⟩ := scan_shape line
  refine ⟨hscan, (hand _ _ hscan).1, ?_, ?_⟩
  · exact hterms (before.take 4) (.word (.bare "b")) .or _ hscan (by decide)
  · rw [hscan] at hread
    exact (List.append_cancel_right hread).symm

end SearchWords.Token
