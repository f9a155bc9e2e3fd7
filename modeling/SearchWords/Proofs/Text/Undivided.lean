import SearchWords.Proofs.Brackets

/-!
# Undivided texts

A text is divided by the spaces outside of all its parentheses. One without such a space is
undivided, as is everything in a group. Where an undivided text stands at the end of another one,
behind a space, it is found there again (`Undivided.append_inj`).
-/

namespace SearchWords.Text

/-- A text with no space outside of all parentheses. -/
structure Undivided (s : List Char) : Prop where
  closed : s.count ')' = s.count '('
  inside : ∀ before after, s = before ++ ' ' :: after → before.count ')' < before.count '('

namespace Undivided

variable {s t : List Char}

theorem of_notMem (hspace : ' ' ∉ s) (hb : Bracketed '(' ')' s) : Undivided s := by
  refine ⟨hb.closed, ?_⟩
  rintro before after rfl
  simp at hspace

/-- Whatever stands in a group is inside of its parentheses. -/
theorem group (hb : Bracketed '(' ')' s) : Undivided ('(' :: s ++ [')']) := by
  refine ⟨(hb.wrap (by decide)).closed, ?_⟩
  intro before after h
  cases before with
  | nil => cases h
  | cons c before =>
    obtain ⟨rfl, hs⟩ := List.cons.inj h
    rcases List.prefix_concat_iff.1 ⟨' ' :: after, hs.symm⟩ with rfl | hpre
    · simp at hs
    · have := hb.nested before hpre
      simp
      omega

theorem cons {c : Char} (hspace : c ≠ ' ') (hopen : c ≠ '(') (hclose : c ≠ ')')
    (hs : Undivided s) : Undivided (c :: s) := by
  refine ⟨by simpa [hopen, hclose] using hs.closed, ?_⟩
  intro before after h
  cases before with
  | nil => exact absurd (List.cons.inj h).1 hspace
  | cons d before =>
    obtain ⟨rfl, hcs⟩ := List.cons.inj h
    simpa [hopen, hclose] using hs.inside before after hcs

/-- There is no balanced text in front of a space. -/
theorem ne_append (hs : Undivided s) (ht : Bracketed '(' ')' t) (after : List Char) :
    s ≠ t ++ ' ' :: after := by
  intro h
  exact absurd ht.closed (hs.inside t after h).ne

/-- Texts that end in an undivided part have it after their last space outside of parentheses. -/
theorem append_inj {s' t' : List Char} (ht : Undivided t) (ht' : Undivided t')
    (h : s ++ ' ' :: t = s' ++ ' ' :: t') : s = s' ∧ t = t' := by
  have key : ∀ {a t t' : List Char}, Undivided t → Undivided t' → ' ' :: t = a ++ ' ' :: t' →
      a = [] ∧ t = t' := by
    intro a t t' ht ht' h
    cases a with
    | nil => exact ⟨rfl, (List.cons.inj h).2⟩
    | cons d a =>
      have h := (List.cons.inj h).2
      have hclosed := ht.closed
      have hclosed' := ht'.closed
      have hlt := ht.inside a t' h
      simp [h] at hclosed
      omega
  rcases List.append_eq_append_iff.1 h with ⟨a, rfl, ha⟩ | ⟨a, rfl, ha⟩
  · obtain ⟨rfl, rfl⟩ := key ht ht' ha
    simp
  · obtain ⟨rfl, rfl⟩ := key ht' ht ha
    simp

end Undivided

end SearchWords.Text
