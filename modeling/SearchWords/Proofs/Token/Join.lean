import SearchWords.Proofs.Token.Scan

/-!
# Conjunctions between neighbouring terms

A line is scanned in two passes: first its tokens are read, then conjunctions are put between
neighbouring terms. `conjoin` is the second pass without the places of tokens, and `scan_eq` puts
the two passes together. Since only neighbours matter, `conjoin` can be computed piece by piece:
`conjoin_append` has one possible conjunction at the seam.

The test for a conjunction is a negative one: the right neighbour must not go on with the term on
its left. That it starts a term is another matter, which holds only because conjunctions and markers
are never read (`startsTerm_eq_not_followsTerm`).
-/

namespace SearchWords.Token

/-- A term may start with this token. -/
def startsTerm : Token → Bool
  | .word _ | .lparen | .exclude => true
  | _ => false

theorem startsTerm_eq_not_followsTerm {t : Token} (hand : t ≠ .and) (hstop : t ≠ .stop) :
    t.startsTerm = !t.followsTerm := by
  cases t <;> simp_all [startsTerm, followsTerm]

theorem followsTerm_eq_false_of_startsTerm {t : Token} (h : t.startsTerm = true) :
    t.followsTerm = false := by
  cases t <;> simp_all [startsTerm, followsTerm]

/-- Put a conjunction between the end of a term and a token that does not go on with it. -/
def conjoin : List Token → List Token
  | a :: b :: ts =>
    if a.endsTerm && !b.followsTerm then a :: .and :: conjoin (b :: ts) else a :: conjoin (b :: ts)
  | ts => ts

/-- The conjunction between two pieces of a line, if there is one. -/
def seam (ts us : List Token) : List Token :=
  if ts.getLast?.any endsTerm && us.head?.any (!·.followsTerm) then [.and] else []

@[simp] theorem conjoin_nil : conjoin [] = [] := rfl

@[simp] theorem conjoin_singleton (t : Token) : conjoin [t] = [t] := rfl

theorem conjoin_append (ts us : List Token) :
    conjoin (ts ++ us) = conjoin ts ++ seam ts us ++ conjoin us := by
  fun_induction conjoin ts with
  | case1 a b ts hab ih =>
    have hseam : seam (a :: b :: ts) us = seam (b :: ts) us := by simp [seam]
    rw [hseam, List.cons_append, List.cons_append, conjoin, if_pos hab, ← List.cons_append, ih]
    rfl
  | case2 a b ts hab ih =>
    have hseam : seam (a :: b :: ts) us = seam (b :: ts) us := by simp [seam]
    rw [hseam, List.cons_append, List.cons_append, conjoin, if_neg hab, ← List.cons_append, ih]
    rfl
  | case3 ts hts =>
    match ts, us with
    | [], _ => simp [seam]
    | [a], [] => simp [seam]
    | [a], b :: us =>
      have hseam : seam [a] (b :: us) = if a.endsTerm && !b.followsTerm then [.and] else [] := rfl
      rw [hseam, List.singleton_append, conjoin]
      cases a.endsTerm && !b.followsTerm <;> rfl
    | a :: b :: ts, _ => exact absurd rfl (hts a b ts)

theorem eq_and_or_mem_of_mem_conjoin {t : Token} {ts : List Token} (h : t ∈ conjoin ts) :
    t = .and ∨ t ∈ ts := by
  fun_induction conjoin ts with
  | case1 a b ts hab ih => grind
  | case2 a b ts hab ih => grind
  | case3 ts _ => exact .inr h

/-- Tokens that hold no conjunctions are got back by taking out those that were put in. -/
theorem filter_conjoin {ts : List Token} (h : .and ∉ ts) :
    (conjoin ts).filter (· ≠ .and) = ts := by
  fun_induction conjoin ts with
  | case1 a b ts hab ih =>
    have ha : a ≠ .and := Ne.symm (List.ne_of_not_mem_cons h)
    rw [List.filter_cons_of_pos (by simp [ha]), List.filter_cons_of_neg (by simp),
      ih (List.not_mem_of_not_mem_cons h)]
  | case2 a b ts hab ih =>
    have ha : a ≠ .and := Ne.symm (List.ne_of_not_mem_cons h)
    rw [List.filter_cons_of_pos (by simp [ha]), ih (List.not_mem_of_not_mem_cons h)]
  | case3 ts _ =>
    refine List.filter_eq_self.2 ?_
    intro a ha
    simpa using ne_of_mem_of_not_mem ha h

/-! ## Scanning -/

theorem map_token_join (ps : List Placed) :
    (join ps).map Placed.token = conjoin (ps.map Placed.token) := by
  fun_induction join ps with
  | case1 a b ps hab ih => simp_all [conjoin]
  | case2 a b ps hab ih => simp_all [conjoin]
  | case3 ps hps =>
    match ps with
    | [] => rfl
    | [a] => rfl
    | a :: b :: ps => exact absurd rfl (hps a b ps)

theorem map_token_place (offset : Nat) (ls : List Lexeme) :
    (place offset ls).map Placed.token = ls.map Lexeme.token := by
  induction ls generalizing offset with
  | nil => rfl
  | cons l ls ih => simp [place, ih]

/-- The tokens of a line are those written in it, with conjunctions put between them. -/
theorem scan_eq (line : String) : scan line = conjoin (Lexeme.tokens line.toList) ++ [.stop] := by
  simp [scan, placed, map_token_join, map_token_place, Lexeme.tokens]

/-- The tokens that are written in a line are those that are scanned, without the conjunctions and
the marker. -/
theorem filter_dropLast_scan (line : String) :
    (scan line).dropLast.filter (· ≠ .and) = Lexeme.tokens line.toList := by
  rw [scan_eq, List.dropLast_concat, filter_conjoin (Lexeme.and_notMem_tokens line.toList)]

theorem stop_notMem_conjoin (line : List Char) : .stop ∉ conjoin (Lexeme.tokens line) := by
  intro h
  rcases eq_and_or_mem_of_mem_conjoin h with h | h
  · cases h
  · exact Lexeme.stop_notMem_tokens line h

/-- Every word of a line can be written. -/
theorem writable_of_mem_conjoin {w : Word} {line : List Char}
    (h : .word w ∈ conjoin (Lexeme.tokens line)) : w.Writable := by
  rcases eq_and_or_mem_of_mem_conjoin h with h | h
  · cases h
  · exact Lexeme.writable_of_mem_tokens h

end SearchWords.Token
