import SearchWords.Word.BooleanMode

/-!
# What stripping leaves

Stripping only takes characters away, and it takes all operators, whatever stands around them.
-/

namespace SearchWords.Word

/-- The operators one by one. -/
theorem isOperator_iff {c : Char} :
    isOperator c = true ↔ c ∈ ['>', '<', '~', '"', '+', '\\'] := by
  simp [isOperator, or_assoc]

theorem of_mem_stripFrom {c : Char} {marker : Bool} {cs : List Char}
    (h : c ∈ stripFrom marker cs) : c ∈ cs ∧ isOperator c = false := by
  fun_induction stripFrom marker cs with
  | case1 => cases h
  | case2 marker d cs _ ih => exact ⟨List.mem_cons_of_mem d (ih h).1, (ih h).2⟩
  | case3 marker d cs _ _ ih => exact ⟨List.mem_cons_of_mem d (ih h).1, (ih h).2⟩
  | case4 marker d cs _ _ _ ih => exact ⟨List.mem_cons_of_mem d (ih h).1, (ih h).2⟩
  | case5 marker d cs _ hop _ ih =>
    rcases List.mem_cons.1 h with rfl | h
    · exact ⟨List.mem_cons_self, by simpa using hop⟩
    · exact ⟨List.mem_cons_of_mem d (ih h).1, (ih h).2⟩

/-- A stripped word has no characters that the word did not have, and no operators. -/
theorem of_mem_strip {c : Char} {text : String} (h : c ∈ (strip text).toList) :
    c ∈ text.toList ∧ isOperator c = false := by
  rw [strip, String.toList_ofList] at h
  exact of_mem_stripFrom h

/-- A word of letters is left as it is. -/
theorem strip_of_isAlpha {text : String} (h : ∀ c ∈ text.toList, c.isAlpha = true) :
    strip text = text := by
  have hplain : ∀ c : Char, c.isAlpha = true → isOperator c = false ∧ c ≠ '@' := by
    have halpha : ∀ o ∈ ['>', '<', '~', '"', '+', '\\'], o.isAlpha = false := by simp
    intro c hc
    constructor
    · cases hop : isOperator c with
      | false => rfl
      | true =>
        rw [halpha c (isOperator_iff.1 hop)] at hc
        cases hc
    · rintro rfl
      cases hc
  have hstrip : ∀ cs : List Char, (∀ c ∈ cs, c.isAlpha = true) → stripFrom false cs = cs := by
    intro cs hcs
    induction cs with
    | nil => rfl
    | cons c cs ih =>
      obtain ⟨hc, hcs⟩ := List.forall_mem_cons.1 hcs
      obtain ⟨hop, hat⟩ := hplain c hc
      simp [stripFrom, hop, hat, ih hcs]
  rw [strip, hstrip _ h, String.ofList_toList]

end SearchWords.Word
