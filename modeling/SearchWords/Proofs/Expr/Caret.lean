import SearchWords.Proofs.Expr.Diagnosis

/-!
# The mark under a fault

A fault is found at the index of a token, told at a byte offset, and shown under a column of
characters. The three agree: the token with that index is read at that byte
(`Explained.exists_placed`), a character of the line starts there (`ReadAt.exists_startsAt`), and the
mark stands under that character (`StartsAt.caretLine_eq`). `parse_error_caret` goes all the way from
the index to the text of the error.
-/

namespace SearchWords

open Text Token

/-! ## Characters and bytes -/

/-- `StartsAt line k offset c`: the character `c` of the line has `k` characters in front of it, and
it starts at the byte `offset`. -/
structure StartsAt (line : String) (k offset : Nat) (c : Char) : Prop where
  getElem?_eq : line.toList[k]? = some c
  byteSize_take : byteSize (line.toList.take k) = offset

theorem QueryError.column_byteSize (before after : List Char) :
    column (byteSize before) (before ++ after) = before.length := by
  induction before with
  | nil => cases after <;> rfl
  | cons c before ih =>
    have hpos : byteSize (c :: before) ≠ 0 :=
      Nat.ne_of_gt (Nat.add_pos_left c.utf8Size_pos (byteSize before))
    rw [List.cons_append, column, if_neg hpos, byteSize_cons, Nat.add_sub_cancel_left, ih,
      List.length_cons]

namespace StartsAt

variable {line : String} {k offset : Nat} {c : Char}

theorem of_append {before after : List Char} (h : line.toList = before ++ c :: after) :
    StartsAt line before.length (byteSize before) c where
  getElem?_eq := by rw [h, List.getElem?_append_right (Nat.le_refl _), Nat.sub_self]; rfl
  byteSize_take := by rw [h, List.take_left]

theorem exists_append (h : StartsAt line k offset c) :
    ∃ before after, line.toList = before ++ c :: after ∧ before.length = k ∧
      byteSize before = offset := by
  obtain ⟨hlt, hc⟩ := List.getElem?_eq_some_iff.1 h.getElem?_eq
  refine ⟨line.toList.take k, line.toList.drop (k + 1), ?_, ?_, h.byteSize_take⟩
  · rw [← hc, List.cons_getElem_drop_succ, List.take_append_drop]
  · exact List.length_take_of_le hlt.le

/-- A character starts in front of the end of the line. -/
theorem offset_lt (h : StartsAt line k offset c) : offset < line.utf8ByteSize := by
  obtain ⟨before, after, hline, -, rfl⟩ := h.exists_append
  rw [← byteSize_toList, hline, byteSize_append, byteSize_cons]
  exact Nat.lt_add_of_pos_right (Nat.add_pos_left c.utf8Size_pos _)

theorem column_eq (h : StartsAt line k offset c) : QueryError.column offset line.toList = k := by
  obtain ⟨before, after, hline, rfl, rfl⟩ := h.exists_append
  rw [hline, QueryError.column_byteSize]

/-- The mark is in the column of the character, two columns further on like the line itself. -/
theorem caretLine_eq (h : StartsAt line k offset c) :
    QueryError.caretLine line (some offset) =
      String.ofList (List.replicate (2 + k) ' ') ++ "^\n" := by
  rw [QueryError.caretLine, h.column_eq, List.replicate_add, String.ofList_append]
  rfl

end StartsAt

/-! ## Tokens and characters -/

/-- What is read at an offset starts with a character that is not white space. -/
theorem Token.ReadAt.exists_startsAt {line : String} {offset : Nat} {token : Token}
    (h : ReadAt line.toList offset token) :
    ∃ k c, StartsAt line k offset c ∧ isWhiteSpace c = false := by
  obtain ⟨before, c, after, hline, rfl, hc, -⟩ := h
  exact ⟨before.length, c, .of_append hline, hc⟩

/-- The token that is blamed is written in the line. -/
theorem Automaton.Explained.exists_placed {line : String} {f : Fault} {i : Nat}
    (h : Explained (scan line) f (some i)) :
    ∃ p : Placed, (placed line)[i]? = some p ∧ ReadAt line.toList p.offset p.token := by
  cases h with
  | emptyPhrase hscan hindex _ =>
    obtain ⟨offset, hplaced, hstands⟩ := exists_standsAt hscan (by simp) (by simp)
    exact ⟨_, (Option.some.inj hindex) ▸ hplaced, hstands.readAt⟩
  | faulty hscan hindex hf =>
    obtain ⟨hand, hstop⟩ := hf.ne_and_stop
    obtain ⟨offset, hplaced, hstands⟩ := exists_standsAt hscan hand hstop
    exact ⟨_, (Option.some.inj hindex) ▸ hplaced, hstands.readAt⟩

/-! ## Errors of a parse -/

theorem QueryError.render_malformed (line : String) (f : Fault) (place : Option Nat) :
    ∃ advice, render ⟨.malformed f place, some line⟩ =
      "search syntax error: " ++ f.message ++ "\n" ++ ("  " ++ line ++ "\n" ++
        caretLine line place) ++ advice :=
  ⟨_, rfl⟩

namespace Expr

/-- Where a fault is found at a token of a line, the error tells the byte at which that token starts.
A character of the line that is not white space starts at that byte, and it has the mark under it. -/
theorem parse_error_caret {line : String} {limit : Nat} {f : Fault} {i : Nat}
    (h : ofTokens (scan line) limit = .error (.malformed f (some i))) :
    ∃ p k c advice, (placed line)[i]? = some p ∧
      parse line limit = .error ⟨.malformed f (some p.offset), some line⟩ ∧
      StartsAt line k p.offset c ∧ p.offset < line.utf8ByteSize ∧ isWhiteSpace c = false ∧
      QueryError.render ⟨.malformed f (some p.offset), some line⟩ =
        "search syntax error: " ++ f.message ++ "\n" ++
          ("  " ++ line ++ "\n" ++ (String.ofList (List.replicate (2 + k) ' ') ++ "^\n")) ++
          advice := by
  obtain ⟨p, hp, hread⟩ := (explained_of_ofTokens h).exists_placed
  obtain ⟨k, c, hstarts, hc⟩ := hread.exists_startsAt
  obtain ⟨advice, hrender⟩ := QueryError.render_malformed line f (some p.offset)
  rw [hstarts.caretLine_eq] at hrender
  refine ⟨p, k, c, advice, hp, ?_, hstarts, hstarts.offset_lt, hc, hrender⟩
  refine parse_eq_error_iff.2 ⟨_, h, ?_⟩
  rw [locate, Failure.relocate, Option.bind_some, hp]
  rfl

/-- The conjunction between the first two words counts as a token, and the ten bytes in front of the
disjunction are five characters. -/
theorem parse_error_caret_disjunction :
    let line := "検索 ä OR )"
    let error : QueryError := ⟨.malformed .lonelyOr (some 10), some line⟩
    ofTokens (scan line) 20 = .error (.malformed .lonelyOr (some 3)) ∧
      parse line 20 = .error error ∧
      ∃ advice, error.render =
        "search syntax error: OR is missing a search word on one side\n" ++
          ("  検索 ä OR )\n" ++ "       ^\n") ++ advice := by
  intro line error
  have h : ofTokens (scan line) 20 = .error (.malformed .lonelyOr (some 3)) := by decide +kernel
  have hplaced : (placed line)[3]? = some ⟨.or, 10⟩ := by decide +kernel
  have hcolumn : QueryError.column 10 line.toList = 5 := by decide +kernel
  obtain ⟨p, k, c, advice, hp, hparse, hstarts, -, -, hrender⟩ := parse_error_caret h
  obtain rfl := Option.some.inj (hplaced.symm.trans hp)
  obtain rfl := hcolumn.symm.trans hstarts.column_eq
  exact ⟨h, hparse, advice, hrender⟩

end Expr

end SearchWords
