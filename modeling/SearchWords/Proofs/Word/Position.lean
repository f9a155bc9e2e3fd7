import SearchWords.Proofs.Word.Marker

/-!
# The positions that stripping takes

Stripping goes over a word once, from left to right, and it takes a distance marker as a whole. Still
each position can be judged by itself, from the characters around it (`Taken`): an operator goes, an
`@` goes if a digit follows, and a digit goes if the run of digits that it belongs to stands behind an
`@`. Everything else stays where it is (`strip_positions`).

To know whether a digit goes it is enough to look back from it, over digits only, for an `@`
(`inMarker_iff`). A text that stands behind another one therefore keeps its positions, unless the one
in front leaves a marker open and digits go on with it (`taken_append_iff`). With that the positions
are followed along `Strips`.
-/

namespace SearchWords.Word

/-- `IsDigitRun before run after`: the digits `run` of the text `before ++ run ++ after` have no
further digit next to them, on either side. -/
structure IsDigitRun (before run after : List Char) : Prop where
  digits : ∀ d ∈ run, d.isDigit = true
  starts : ∀ c ∈ before.getLast?, c.isDigit = false
  ends : ∀ c ∈ after.head?, c.isDigit = false

/-- The characters that have a meaning in boolean mode, by their positions in a text: the operators,
and the `@` and the digits of a distance marker. -/
inductive Taken (cs : List Char) (i : Nat) : Prop where
  | operator {o : Char} : cs[i]? = some o → isOperator o = true → Taken cs i
  | sign {d : Char} : cs[i]? = some '@' → cs[i + 1]? = some d → d.isDigit = true → Taken cs i
  | digit {before run after : List Char} : cs = before ++ run ++ after →
      IsDigitRun before run after → before.getLast? = some '@' → before.length ≤ i →
        i < before.length + run.length → Taken cs i

/-! ## Looking back for the sign of a marker -/

/-- Looking back from a position, one finds an `@` behind nothing but digits. -/
def InMarker (cs : List Char) (i : Nat) : Prop :=
  ∃ k < i, cs[k]? = some '@' ∧ ∀ j ≤ i, k < j → cs[j]?.any Char.isDigit = true

instance (cs : List Char) (i : Nat) : Decidable (InMarker cs i) :=
  inferInstanceAs (Decidable (∃ k < i, _ ∧ ∀ j ≤ i, k < j → _))

section

variable {cs front : List Char} {i : Nat}

/-- The digits that a text starts with. -/
theorem exists_digits (cs : List Char) :
    ∃ run after, cs = run ++ after ∧ (∀ d ∈ run, d.isDigit = true) ∧ EndsMarker after := by
  have hends : EndsMarker (cs.dropWhile Char.isDigit) := by
    intro c hc
    have hnot := List.head?_dropWhile_not Char.isDigit cs
    rwa [Option.mem_def.1 hc] at hnot
  exact ⟨cs.takeWhile Char.isDigit, cs.dropWhile Char.isDigit,
    List.takeWhile_append_dropWhile.symm, List.all_eq_true.1 List.all_takeWhile, hends⟩

theorem InMarker.exists_run (h : InMarker cs i) :
    ∃ before run after, cs = before ++ run ++ after ∧ IsDigitRun before run after ∧
      before.getLast? = some '@' ∧ before.length ≤ i ∧ i < before.length + run.length := by
  obtain ⟨k, hk, hat, hdigits⟩ := h
  obtain ⟨hlt, -⟩ := List.getElem?_eq_some_iff.1 hat
  obtain ⟨run, after, hrest, hrun, hends⟩ := exists_digits (cs.drop (k + 1))
  have hlast : (cs.take (k + 1)).getLast? = some '@' := by simp [List.take_add_one, hat]
  have hlength : (cs.take (k + 1)).length = k + 1 := List.length_take_of_le hlt
  have hstarts : ∀ c ∈ (cs.take (k + 1)).getLast?, c.isDigit = false := by
    intro c hc
    obtain rfl : '@' = c := Option.some.inj (hlast.symm.trans hc)
    rfl
  have hcs : cs = cs.take (k + 1) ++ run ++ after := by
    rw [List.append_assoc, ← hrest, List.take_append_drop]
  refine ⟨cs.take (k + 1), run, after, hcs, ⟨hrun, hstarts, hends⟩, hlast, by omega, ?_⟩
  -- Otherwise the first character behind the run is among the digits as well.
  by_contra hle
  have hdigit := hdigits (k + 1 + run.length) (by omega) (by omega)
  have hhead : cs[k + 1 + run.length]? = after.head? := by
    rw [← List.getElem?_drop, hrest, List.getElem?_append_right (Nat.le_refl _), Nat.sub_self,
      List.head?_eq_getElem?]
  rw [hhead, EndsMarker.iff_any.1 hends] at hdigit
  cases hdigit

theorem IsDigitRun.inMarker {before run after : List Char} (h : IsDigitRun before run after)
    (hat : before.getLast? = some '@') (hle : before.length ≤ i)
    (hlt : i < before.length + run.length) : InMarker (before ++ run ++ after) i := by
  obtain ⟨before, rfl⟩ := List.getLast?_eq_some_iff.1 hat
  simp only [List.length_append, List.length_singleton] at hle hlt
  refine ⟨before.length, by omega, by simp, ?_⟩
  intro j hj hkj
  have hj : (before ++ ['@'] ++ run ++ after)[j]? = run[j - (before.length + 1)]? := by
    rw [List.append_assoc, List.getElem?_append_right (by simp; omega),
      List.getElem?_append_left (by simp; omega)]
    simp
  have hin : j - (before.length + 1) < run.length := by omega
  rw [hj, List.getElem?_eq_getElem hin]
  exact h.digits _ (List.getElem_mem hin)

/-- The digits of a marker are those of a run behind an `@`. -/
theorem inMarker_iff :
    InMarker cs i ↔ ∃ before run after, cs = before ++ run ++ after ∧
      IsDigitRun before run after ∧ before.getLast? = some '@' ∧ before.length ≤ i ∧
        i < before.length + run.length := by
  constructor
  · exact InMarker.exists_run
  · rintro ⟨before, run, after, rfl, hrun, hat, hle, hlt⟩
    exact hrun.inMarker hat hle hlt

theorem taken_iff :
    Taken cs i ↔ cs[i]?.any isOperator = true ∨
      (cs[i]? = some '@' ∧ cs[i + 1]?.any Char.isDigit = true) ∨ InMarker cs i := by
  constructor
  · intro h
    cases h with
    | operator hi ho => exact .inl (by rw [hi]; exact ho)
    | sign hi hd hdigit => exact .inr (.inl ⟨hi, by rw [hd]; exact hdigit⟩)
    | digit hcs hrun hat hle hlt =>
      exact .inr (.inr (inMarker_iff.2 ⟨_, _, _, hcs, hrun, hat, hle, hlt⟩))
  · rintro (h | ⟨hi, h⟩ | h)
    · obtain ⟨o, hi, ho⟩ := (Option.any_eq_true _ _).1 h
      exact .operator hi ho
    · obtain ⟨d, hd, hdigit⟩ := (Option.any_eq_true _ _).1 h
      exact .sign hi hd hdigit
    · obtain ⟨before, run, after, hcs, hrun, hat, hle, hlt⟩ := inMarker_iff.1 h
      exact .digit hcs hrun hat hle hlt

instance (cs : List Char) : DecidablePred (Taken cs) :=
  fun _ ↦ decidable_of_iff _ taken_iff.symm

/-! ## Texts behind other texts -/

theorem getElem?_length_add (front cs : List Char) (i : Nat) :
    (front ++ cs)[front.length + i]? = cs[i]? := by
  rw [List.getElem?_append_right (Nat.le_add_right _ _), Nat.add_sub_cancel_left]

theorem inMarker_append_iff (h : '@' ∈ front → EndsMarker cs) :
    InMarker (front ++ cs) (front.length + i) ↔ InMarker cs i := by
  constructor
  · rintro ⟨k, hk, hat, hdigits⟩
    by_cases hkf : k < front.length
    · -- A marker that starts in front goes on with the first character.
      rw [List.getElem?_append_left hkf] at hat
      have hdigit := hdigits (front.length + 0) (by omega) (by omega)
      rw [getElem?_length_add, ← List.head?_eq_getElem?,
        EndsMarker.iff_any.1 (h (List.mem_of_getElem? hat))] at hdigit
      cases hdigit
    · obtain ⟨m, rfl⟩ := Nat.exists_eq_add_of_le (Nat.le_of_not_lt hkf)
      rw [getElem?_length_add] at hat
      refine ⟨m, by omega, hat, ?_⟩
      intro j hj hmj
      rw [← getElem?_length_add front]
      exact hdigits (front.length + j) (by omega) (by omega)
  · rintro ⟨k, hk, hat, hdigits⟩
    refine ⟨front.length + k, by omega, by rw [getElem?_length_add, hat], ?_⟩
    intro j hj hkj
    obtain ⟨m, rfl⟩ := Nat.exists_eq_add_of_le (show front.length ≤ j by omega)
    rw [getElem?_length_add]
    exact hdigits m (by omega) (by omega)

/-- The positions of a text are judged as if there were nothing in front of it, where no marker goes
on. -/
theorem taken_append_iff (h : '@' ∈ front → EndsMarker cs) :
    Taken (front ++ cs) (front.length + i) ↔ Taken cs i := by
  rw [taken_iff, taken_iff, inMarker_append_iff h, Nat.add_assoc, getElem?_length_add,
    getElem?_length_add]

/-! ## What stays -/

/-- The characters that are not taken, in order. -/
def untaken (cs : List Char) : List Char :=
  (cs.zipIdx.filter fun p ↦ ¬Taken cs p.2).map Prod.fst

theorem untaken_append (h : '@' ∈ front → EndsMarker cs) :
    untaken (front ++ cs) =
      (front.zipIdx.filter fun p ↦ ¬Taken (front ++ cs) p.2).map Prod.fst ++ untaken cs := by
  rw [untaken, List.zipIdx_append, List.filter_append, List.map_append, Nat.zero_add,
    List.zipIdx_eq_map_add (i := front.length), List.filter_map, List.map_map, untaken]
  simp only [Function.comp_def, taken_append_iff h]

theorem untaken_append_of_taken (h : '@' ∈ front → EndsMarker cs)
    (ht : ∀ i < front.length, Taken (front ++ cs) i) : untaken (front ++ cs) = untaken cs := by
  have hnil : front.zipIdx.filter (fun p ↦ ¬Taken (front ++ cs) p.2) = [] := by
    refine List.filter_eq_nil_iff.2 ?_
    intro p hp
    have htaken := ht p.2 (List.snd_lt_of_mem_zipIdx hp)
    simpa using htaken
  rw [untaken_append h, hnil]
  rfl

theorem untaken_cons {c : Char} (h : c = '@' → EndsMarker cs) (hc : ¬Taken (c :: cs) 0) :
    untaken (c :: cs) = c :: untaken cs := by
  have hfront : '@' ∈ [c] → EndsMarker cs := fun hmem ↦ h (List.mem_singleton.1 hmem).symm
  have happend := untaken_append hfront
  simpa [hc] using happend

end

/-- Stripping leaves what stands at the other positions. -/
theorem Strips.untaken_eq {cs s : List Char} (h : Strips cs s) : untaken cs = s := by
  induction h with
  | nil => rfl
  | @operator o cs s ho _ ih =>
    have hfront : '@' ∈ [o] → EndsMarker cs := by
      intro hmem
      obtain rfl := List.mem_singleton.1 hmem
      cases ho
    have htaken : ∀ i < [o].length, Taken ([o] ++ cs) i := by
      intro i hi
      obtain rfl := Nat.lt_one_iff.1 hi
      exact .operator rfl ho
    exact (untaken_append_of_taken hfront htaken).trans ih
  | @marker ds cs s hne hds hcs _ ih =>
    have htaken : ∀ i < ('@' :: ds).length, Taken ('@' :: ds ++ cs) i := by
      intro i hi
      cases i with
      | zero =>
        obtain ⟨d, ds, rfl⟩ := List.exists_cons_of_ne_nil hne
        exact .sign rfl rfl (hds d List.mem_cons_self)
      | succ i =>
        have hrun : IsDigitRun ['@'] ds cs := ⟨hds, by simp, hcs⟩
        rw [List.length_cons] at hi
        exact .digit rfl hrun rfl (by simp) (by simp; omega)
    exact (untaken_append_of_taken (fun _ ↦ hcs) htaken).trans ih
  | @kept c cs s hop hat _ ih =>
    rw [untaken_cons hat, ih]
    rw [taken_iff]
    rintro (h | ⟨hc, h⟩ | ⟨k, hk, -⟩)
    · rw [List.getElem?_cons_zero, Option.any_some, hop] at h
      cases h
    · obtain rfl := Option.some.inj hc
      rw [Nat.zero_add, List.getElem?_cons_succ, ← List.head?_eq_getElem?,
        EndsMarker.iff_any.1 (hat rfl)] at h
      cases h
    · exact Nat.not_lt_zero k hk

/-- Stripping takes the operators of a word, each `@` with a digit behind it, and the digits that
belong to a run behind an `@`. It leaves what stands at all other positions, in order. -/
theorem strip_positions (text : String) :
    (strip text).toList =
      (text.toList.zipIdx.filter fun p ↦ ¬Taken text.toList p.2).map Prod.fst := by
  rw [strip, String.toList_ofList]
  exact (strips_stripFrom text.toList).untaken_eq.symm

end SearchWords.Word
