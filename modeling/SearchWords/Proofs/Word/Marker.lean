import Mathlib.Data.List.Infix
import SearchWords.Proofs.Word.BooleanMode

/-!
# Markers that stripping makes

A word is stripped in one pass from left to right. `Strips` restates the pass without the flag that
it carries: an operator, or a marker with all of its digits, or a character that stays is taken off
the front of the text. The result has no operator. But it may have a distance marker, since what is
taken away may have kept an `@` and a digit apart. `hasMarker_stripFrom_iff` says in terms of the
word alone when that happens: an `@` is followed by marks and a digit, and the last of these marks is
an operator.

As stripping leaves no operator, it cannot happen twice. Words that are stripped for a second time
have no markers.
-/

namespace SearchWords.Word

/-! ## The pass without its flag -/

/-- A text whose front does not go on with the digits of a marker. -/
def EndsMarker (cs : List Char) : Prop :=
  ∀ c ∈ cs.head?, c.isDigit = false

/-- `Strips cs s`: what stripping leaves of the text `cs` is `s`. -/
inductive Strips : (cs s : List Char) → Prop where
  | nil : Strips [] []
  | operator {o : Char} {cs s : List Char} :
      isOperator o = true → Strips cs s → Strips (o :: cs) s
  | marker {ds cs s : List Char} :
      ds ≠ [] → (∀ d ∈ ds, d.isDigit = true) → EndsMarker cs → Strips cs s →
        Strips ('@' :: ds ++ cs) s
  | kept {c : Char} {cs s : List Char} :
      isOperator c = false → (c = '@' → EndsMarker cs) → Strips cs s → Strips (c :: cs) (c :: s)

theorem isDigit_of_isOperator {c : Char} (h : isOperator c = true) : c.isDigit = false := by
  have hdigit : ∀ o ∈ ['>', '<', '~', '"', '+', '\\'], o.isDigit = false := by simp
  exact hdigit c (isOperator_iff.1 h)

theorem isOperator_of_isDigit {c : Char} (h : c.isDigit = true) : isOperator c = false := by
  cases hop : isOperator c with
  | false => rfl
  | true =>
    rw [isDigit_of_isOperator hop] at h
    cases h

namespace EndsMarker

variable {cs ds : List Char}

theorem nil : EndsMarker [] := by
  simp [EndsMarker]

theorem cons {c : Char} (h : c.isDigit = false) (cs : List Char) : EndsMarker (c :: cs) := by
  simpa [EndsMarker] using h

theorem append (hc : EndsMarker cs) (hd : EndsMarker ds) : EndsMarker (cs ++ ds) := by
  cases cs with
  | nil => exact hd
  | cons c cs => exact cons (hc c rfl) _

theorem iff_any : EndsMarker cs ↔ cs.head?.any Char.isDigit = false := by
  cases cs <;> simp [EndsMarker]

end EndsMarker

section Equations

variable {cs ds s : List Char}

theorem stripFrom_operator {o : Char} (ho : isOperator o = true) (marker : Bool) :
    stripFrom marker (o :: cs) = stripFrom false cs := by
  simp [stripFrom, ho, isDigit_of_isOperator ho]

theorem stripFrom_true (hcs : EndsMarker cs) : stripFrom true cs = stripFrom false cs := by
  cases cs with
  | nil => rfl
  | cons c cs => simp [stripFrom, hcs c rfl]

theorem stripFrom_digits (hds : ∀ d ∈ ds, d.isDigit = true) :
    stripFrom true (ds ++ cs) = stripFrom true cs := by
  induction ds with
  | nil => rfl
  | cons d ds ih =>
    obtain ⟨hd, hds⟩ := List.forall_mem_cons.1 hds
    simp [stripFrom, hd, ih hds]

theorem stripFrom_marker (hne : ds ≠ []) (hds : ∀ d ∈ ds, d.isDigit = true)
    (hcs : EndsMarker cs) : stripFrom false ('@' :: ds ++ cs) = stripFrom false cs := by
  obtain ⟨d, ds, rfl⟩ := List.exists_cons_of_ne_nil hne
  have hat : isOperator '@' = false := by decide
  have hd : d.isDigit = true := hds d List.mem_cons_self
  calc stripFrom false ('@' :: (d :: ds) ++ cs)
    _ = stripFrom true (d :: ds ++ cs) := by simp [stripFrom, hat, hd]
    _ = stripFrom true cs := stripFrom_digits hds
    _ = stripFrom false cs := stripFrom_true hcs

theorem stripFrom_kept {c : Char} (hop : isOperator c = false) (hat : c = '@' → EndsMarker cs) :
    stripFrom false (c :: cs) = c :: stripFrom false cs := by
  have hnone : c = '@' → cs.head?.any Char.isDigit = false := fun h ↦ EndsMarker.iff_any.1 (hat h)
  rw [stripFrom, if_neg (by simp), if_neg (by simp [hop]), if_neg]
  rw [Bool.and_eq_true, decide_eq_true_eq]
  rintro ⟨hc, hany⟩
  rw [hnone hc] at hany
  cases hany

/-- From inside a marker the pass first drops the digits that are left of it, and goes on with the
rest as from the start. -/
theorem exists_strips_stripFrom (marker : Bool) (cs : List Char) :
    ∃ ds rest, cs = ds ++ rest ∧ (∀ d ∈ ds, d.isDigit = true) ∧ (marker = false → ds = []) ∧
      (marker = true → EndsMarker rest) ∧ Strips rest (stripFrom marker cs) := by
  fun_induction stripFrom marker cs with
  | case1 marker => exact ⟨[], [], rfl, by simp, fun _ ↦ rfl, fun _ ↦ .nil, .nil⟩
  | case2 marker c cs hdigit ih =>
    obtain ⟨rfl, hdigit⟩ := Bool.and_eq_true_iff.1 hdigit
    obtain ⟨ds, rest, rfl, hds, -, hrest, hstrips⟩ := ih
    exact ⟨c :: ds, rest, rfl, List.forall_mem_cons.2 ⟨hdigit, hds⟩, by simp, hrest, hstrips⟩
  | case3 marker c cs _ hop ih =>
    obtain ⟨ds, rest, rfl, -, hnil, -, hstrips⟩ := ih
    obtain rfl := hnil rfl
    exact ⟨[], c :: rest, rfl, by simp, fun _ ↦ rfl,
      fun _ ↦ .cons (isDigit_of_isOperator hop) rest, .operator hop hstrips⟩
  | case4 marker c cs _ _ hmark ih =>
    obtain ⟨hat, hany⟩ := Bool.and_eq_true_iff.1 hmark
    obtain rfl : c = '@' := of_decide_eq_true hat
    obtain ⟨ds, rest, rfl, hds, -, hrest, hstrips⟩ := ih
    -- The digit behind the `@` is the first of the marker.
    have hne : ds ≠ [] := by
      rintro rfl
      rw [List.nil_append, EndsMarker.iff_any.1 (hrest rfl)] at hany
      cases hany
    exact ⟨[], '@' :: ds ++ rest, rfl, by simp, fun _ ↦ rfl, fun _ ↦ .cons rfl _,
      .marker hne hds (hrest rfl) hstrips⟩
  | case5 marker c cs hdigit hop hmark ih =>
    obtain ⟨ds, rest, rfl, -, hnil, -, hstrips⟩ := ih
    obtain rfl := hnil rfl
    refine ⟨[], c :: rest, rfl, by simp, fun _ ↦ rfl, ?_, .kept (by simpa using hop) ?_ hstrips⟩
    · rintro rfl
      exact .cons (by simpa using hdigit) rest
    · rintro rfl
      exact EndsMarker.iff_any.2 (by simpa using hmark)

/-- The pass and the relation agree. -/
theorem stripFrom_eq_iff : stripFrom false cs = s ↔ Strips cs s := by
  constructor
  · rintro rfl
    obtain ⟨ds, rest, rfl, -, hnil, -, hstrips⟩ := exists_strips_stripFrom false cs
    obtain rfl := hnil rfl
    exact hstrips
  · intro h
    induction h with
    | nil => rfl
    | operator ho _ ih => rw [stripFrom_operator ho, ih]
    | marker hne hds hcs _ ih => rw [stripFrom_marker hne hds hcs, ih]
    | kept hop hat _ ih => rw [stripFrom_kept hop hat, ih]

end Equations

theorem strips_stripFrom (cs : List Char) : Strips cs (stripFrom false cs) :=
  stripFrom_eq_iff.1 rfl

/-- What does not go on with digits is stripped by itself. -/
theorem Strips.append {cs ds s t : List Char} (h : Strips cs s) (hds : EndsMarker ds)
    (h' : Strips ds t) : Strips (cs ++ ds) (s ++ t) := by
  induction h with
  | nil => exact h'
  | operator ho _ ih => exact .operator ho ih
  | marker hne hdigits hcs _ ih =>
    rw [List.append_assoc]
    exact .marker hne hdigits (hcs.append hds) ih
  | kept hop hat _ ih => exact .kept hop (fun h ↦ (hat h).append hds) ih

/-! ## Texts that are taken away -/

/-- A text of operators and distance markers. -/
inductive Erasable : List Char → Prop where
  | nil : Erasable []
  | operator {o : Char} {cs : List Char} :
      isOperator o = true → Erasable cs → Erasable (o :: cs)
  | marker {ds cs : List Char} :
      ds ≠ [] → (∀ d ∈ ds, d.isDigit = true) → Erasable cs → Erasable ('@' :: ds ++ cs)

theorem Erasable.endsMarker {cs : List Char} (h : Erasable cs) : EndsMarker cs := by
  cases h with
  | nil => exact .nil
  | operator ho _ => exact .cons (isDigit_of_isOperator ho) _
  | marker _ _ _ => exact .cons rfl _

theorem strips_nil_iff {cs : List Char} : Strips cs [] ↔ Erasable cs := by
  constructor
  · intro h
    generalize hs : ([] : List Char) = s at h
    induction h with
    | nil => exact .nil
    | operator ho _ ih => exact .operator ho (ih hs)
    | marker hne hds _ _ ih => exact .marker hne hds (ih hs)
    | kept _ _ _ _ => cases hs
  · intro h
    induction h with
    | nil => exact .nil
    | operator ho _ ih => exact .operator ho ih
    | marker hne hds hcs ih => exact .marker hne hds hcs.endsMarker ih

/-- In front of the first character that stays there is nothing but what is taken away. If that
character is a digit, it is not behind a marker. -/
theorem Strips.exists_front {cs s : List Char} (h : Strips cs s) {c : Char} (hc : c ∈ s.head?) :
    ∃ front rest, cs = front ++ c :: rest ∧ Erasable front ∧
      (c.isDigit = true → front = [] ∨
        ∃ before o, front = before ++ [o] ∧ Erasable before ∧ isOperator o = true) := by
  induction h with
  | nil => cases hc
  | @operator o _ _ ho _ ih =>
    obtain ⟨front, rest, rfl, hfront, hlast⟩ := ih hc
    refine ⟨o :: front, rest, rfl, .operator ho hfront, fun hdigit ↦ .inr ?_⟩
    rcases hlast hdigit with rfl | ⟨before, o', rfl, hbefore, ho'⟩
    · exact ⟨[], o, rfl, .nil, ho⟩
    · exact ⟨o :: before, o', rfl, .operator ho hbefore, ho'⟩
  | @marker ds _ _ hne hds hcs _ ih =>
    obtain ⟨front, rest, rfl, hfront, hlast⟩ := ih hc
    refine ⟨'@' :: ds ++ front, rest, by simp, .marker hne hds hfront, fun hdigit ↦ .inr ?_⟩
    rcases hlast hdigit with rfl | ⟨before, o, rfl, hbefore, ho⟩
    · have hnone : c.isDigit = false := hcs c rfl
      rw [hnone] at hdigit
      cases hdigit
    · exact ⟨'@' :: ds ++ before, o, by simp, .marker hne hds hbefore, ho⟩
  | @kept c' cs _ _ _ _ _ =>
    obtain rfl := Option.some.inj hc
    exact ⟨[], cs, rfl, .nil, fun _ ↦ .inl rfl⟩

theorem stripFrom_eq_nil_iff {cs : List Char} : stripFrom false cs = [] ↔ Erasable cs :=
  stripFrom_eq_iff.trans strips_nil_iff

/-- A character that is no part of any mark comes first just where only marks stand in front of
it. -/
theorem mem_head?_stripFrom_iff {c : Char} (hop : isOperator c = false) (hdigit : c.isDigit = false)
    (hat : c ≠ '@') {cs : List Char} :
    c ∈ (stripFrom false cs).head? ↔ ∃ front rest, cs = front ++ c :: rest ∧ Erasable front := by
  constructor
  · intro hc
    obtain ⟨front, rest, hcs, hfront, -⟩ := (strips_stripFrom cs).exists_front hc
    exact ⟨front, rest, hcs, hfront⟩
  · rintro ⟨front, rest, rfl, hfront⟩
    have hkept : Strips (c :: rest) (c :: stripFrom false rest) :=
      .kept hop (fun h ↦ absurd h hat) (strips_stripFrom rest)
    have hall := (strips_nil_iff.2 hfront).append (.cons hdigit rest) hkept
    rw [stripFrom_eq_iff.2 hall]
    rfl

/-! ## Markers -/

/-- There is a distance marker in the text. -/
def HasMarker (cs : List Char) : Prop :=
  ∃ d : Char, d.isDigit = true ∧ ['@', d] <:+: cs

/-- There is a distance marker in the text once operators and markers are taken out between its `@`
and its digit. The last of them is an operator, behind which a digit stays. -/
def HasSplitMarker (cs : List Char) : Prop :=
  ∃ (between : List Char) (o d : Char), Erasable between ∧ isOperator o = true ∧
    d.isDigit = true ∧ '@' :: between ++ [o, d] <:+: cs

theorem HasSplitMarker.mono {cs ds : List Char} (h : HasSplitMarker cs) (hcs : cs <:+: ds) :
    HasSplitMarker ds := by
  obtain ⟨between, o, d, hbetween, ho, hd, hpart⟩ := h
  exact ⟨between, o, d, hbetween, ho, hd, hpart.trans hcs⟩

theorem Strips.hasSplitMarker {cs s : List Char} (h : Strips cs s) (hs : HasMarker s) :
    HasSplitMarker cs := by
  induction h with
  | nil =>
    obtain ⟨d, -, hpart⟩ := hs
    cases List.infix_nil.1 hpart
  | operator _ _ ih => exact (ih hs).mono (List.suffix_cons _ _).isInfix
  | marker _ _ _ _ ih => exact (ih hs).mono (List.suffix_append _ _).isInfix
  | @kept c cs s _ hat h ih =>
    obtain ⟨d, hd, hpart⟩ := hs
    rcases List.infix_cons_iff.1 hpart with hstart | hpart
    · obtain ⟨rfl, s, rfl⟩ := List.cons_prefix_cons.1 hstart
      obtain ⟨front, rest, rfl, -, hlast⟩ := h.exists_front (c := d) rfl
      rcases hlast hd with rfl | ⟨before, o, rfl, hbefore, ho⟩
      · have hnone : d.isDigit = false := hat rfl d rfl
        rw [hnone] at hd
        cases hd
      · exact ⟨before, o, d, hbefore, ho, hd, [], rest, by simp⟩
    · exact (ih ⟨d, hd, hpart⟩).mono (List.suffix_cons _ _).isInfix

theorem Strips.hasMarker {cs s : List Char} (h : Strips cs s) (hcs : HasSplitMarker cs) :
    HasMarker s := by
  obtain ⟨between, o, d, hbetween, ho, hd, front, rest, rfl⟩ := hcs
  have hdat : d ≠ '@' := by
    rintro rfl
    cases hd
  have hdigit : Strips (o :: d :: rest) (d :: stripFrom false rest) :=
    .operator ho (.kept (isOperator_of_isDigit hd) (fun h ↦ absurd h hdat) (strips_stripFrom rest))
  have hends : EndsMarker (o :: d :: rest) := .cons (isDigit_of_isOperator ho) _
  have hat : Strips ('@' :: (between ++ o :: d :: rest)) ('@' :: d :: stripFrom false rest) :=
    .kept (by decide) (fun _ ↦ hbetween.endsMarker.append hends)
      ((strips_nil_iff.2 hbetween).append hends hdigit)
  have hall := (strips_stripFrom front).append (.cons rfl _) hat
  have hcs : front ++ '@' :: (between ++ o :: d :: rest) =
      front ++ ('@' :: between ++ [o, d]) ++ rest := by simp
  rw [hcs, ← stripFrom_eq_iff, stripFrom_eq_iff.2 h] at hall
  exact ⟨d, hd, stripFrom false front, stripFrom false rest, by simp [hall]⟩

/-- A stripped text has a marker just where the text has one that is split. -/
theorem hasMarker_stripFrom_iff (cs : List Char) :
    HasMarker (stripFrom false cs) ↔ HasSplitMarker cs :=
  ⟨(strips_stripFrom cs).hasSplitMarker, (strips_stripFrom cs).hasMarker⟩

/-! ## Stripping again -/

theorem not_hasSplitMarker {cs : List Char} (h : ∀ c ∈ cs, isOperator c = false) :
    ¬HasSplitMarker cs := by
  rintro ⟨between, o, d, -, ho, -, hpart⟩
  have hno := h o (hpart.subset (by simp))
  rw [ho] at hno
  cases hno

theorem Strips.self {cs : List Char} (hop : ∀ c ∈ cs, isOperator c = false)
    (hmarker : ¬HasMarker cs) : Strips cs cs := by
  induction cs with
  | nil => exact .nil
  | cons c cs ih =>
    obtain ⟨hc, hcs⟩ := List.forall_mem_cons.1 hop
    refine .kept hc ?_ (ih hcs ?_)
    · rintro rfl d hd
      obtain ⟨cs, rfl⟩ := List.head?_eq_some_iff.1 hd
      by_contra hdigit
      exact hmarker ⟨d, by simpa using hdigit, [], cs, rfl⟩
    · rintro ⟨d, hd, hpart⟩
      exact hmarker ⟨d, hd, hpart.trans (List.suffix_cons c cs).isInfix⟩

/-- A text without operators is left as it is if and only if it has no marker. -/
theorem stripFrom_eq_self_iff {cs : List Char} (hop : ∀ c ∈ cs, isOperator c = false) :
    stripFrom false cs = cs ↔ ¬HasMarker cs := by
  constructor
  · intro h
    rw [← h, hasMarker_stripFrom_iff]
    exact not_hasSplitMarker hop
  · intro h
    exact stripFrom_eq_iff.2 (.self hop h)

theorem strip_eq_self_iff {text : String} (hop : ∀ c ∈ text.toList, isOperator c = false) :
    strip text = text ↔ ¬HasMarker text.toList := by
  rw [← stripFrom_eq_self_iff hop, strip, ← String.toList_inj, String.toList_ofList]

theorem hasMarker_strip_iff (text : String) :
    HasMarker (strip text).toList ↔ HasSplitMarker text.toList := by
  rw [strip, String.toList_ofList, hasMarker_stripFrom_iff]

/-- What stripping leaves of a word has no operator. It has a distance marker just where the word has
one that operators and markers split, and only then does stripping again change it. The second time
leaves no marker and nothing to change. -/
theorem strip_markers (text : String) :
    (∀ c ∈ ['>', '<', '~', '"', '+', '\\'], c ∉ (strip text).toList) ∧
      (HasMarker (strip text).toList ↔ HasSplitMarker text.toList) ∧
      (strip (strip text) = strip text ↔ ¬HasSplitMarker text.toList) ∧
      ¬HasMarker (strip (strip text)).toList ∧
      strip (strip (strip text)) = strip (strip text) := by
  have hop : ∀ text, ∀ c ∈ (strip text).toList, isOperator c = false :=
    fun _ _ hc ↦ (of_mem_strip hc).2
  have htwice : ¬HasMarker (strip (strip text)).toList := by
    rw [hasMarker_strip_iff]
    exact not_hasSplitMarker (hop text)
  refine ⟨?_, hasMarker_strip_iff text, ?_, htwice, (strip_eq_self_iff (hop _)).2 htwice⟩
  · intro c hc hmem
    have hno := hop text c hmem
    rw [isOperator_iff.2 hc] at hno
    cases hno
  · rw [strip_eq_self_iff (hop text), hasMarker_strip_iff]

/-- An operator between an `@` and a digit: a marker is left, which is gone the second time. -/
theorem strip_split_marker :
    HasMarker (strip "@+1").toList ∧ strip "@+1" = "@1" ∧ strip (strip "@+1") ≠ strip "@+1" := by
  have hone : strip "@+1" = "@1" := by decide +kernel
  refine ⟨?_, hone, ?_⟩
  · rw [hone]
    exact ⟨'1', rfl, [], [], rfl⟩
  · rw [hone]
    decide +kernel

end SearchWords.Word
