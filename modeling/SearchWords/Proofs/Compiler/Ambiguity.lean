import SearchWords.Proofs.Compiler.Binding
import SearchWords.Proofs.Compiler.BooleanMode
import SearchWords.Proofs.Expr.Clear
import SearchWords.Proofs.Text.Undivided
import SearchWords.Proofs.Word.BooleanMode

/-!
# What a boolean-mode expression tells of the search

Boolean mode has no sign for a disjunction. Its operands stand side by side, and so do those of a
conjunction, which are told apart by their signs. An exclusion has the same sign in both. So the
disjunction `-a OR -b` and the group `(-a -b)` are written alike, although the first holds where one
of the words is missing and the second only where both are (`ibl_conflates_exclusions`).

This is the only thing that is lost. `conflated` reads every such disjunction as such a group, and
two searches for plain words have the same boolean-mode expression if and only if they are the same
when read in this way (`iblText_eq_iff`). A search without such a disjunction is clear, and the
expression of a clear search determines it. An operand of a conjunction is not affected: there a
group is put into a second pair of parentheses, and a disjunction is not.

The proof takes texts apart at the spaces outside of all parentheses. Of all expressions only a
conjunction has such spaces (`undivided_iblText`).
-/

namespace SearchWords

universe u

open Text

namespace Compiler

open SearchWords.Expr

variable {α : Type u} {c : Compiler α}

/-! ## Conflating leaves no trace -/

theorem iblText_conflated (c : Compiler α) (conjunct : Bool) (e : Expr) :
    c.iblText (e.conflated conjunct) = c.iblText e := by
  have hsigned : ∀ e : Expr, c.iblText (e.conflated true) = c.iblText e →
      c.signedText (e.conflated true) = c.signedText e := by
    intro e h
    rw [signedText_eq, signedText_eq, op_conflated_true, h]
  induction e generalizing conjunct with
  | word w => rfl
  | and l r ihl ihr =>
    rw [conflated, iblText_and, iblText_and, hsigned l (ihl true), hsigned r (ihr true)]
  | or l r ihl ihr =>
    unfold conflated
    split
    · rw [iblText_or, iblText_or, ihl, ihr]
    · next hops =>
      obtain ⟨-, hopl, hopr⟩ : conjunct = false ∧ l.op = .exclude ∧ r.op = .exclude := by
        simpa [and_assoc] using hops
      have hl : c.signedText l = c.iblText l := by rw [signedText_eq, hopl]
      have hr : c.signedText r = c.iblText r := by rw [signedText_eq, hopr]
      rw [iblText_paren, iblText_and, hsigned l (ihl true), hsigned r (ihr true), hl, hr,
        iblText_or]
  | paren e ih => rw [conflated, iblText_paren, iblText_paren, ih]
  | exclude e ih =>
    have hword : (e.conflated false).op = .word ↔ e.op = .word := by
      rcases op_conflated false e with h | ⟨-, h, h'⟩
      · rw [h]
      · simp [h, h']
    simp only [conflated, iblText_exclude, ih, hword]

/-! ## The form of plain expressions -/

/-- What stands in front of an operand of a conjunction. -/
theorem head?_signedText {e : Expr} (hop : e.op ≠ .and) :
    (c.signedText e).head? = some (if e.op = .exclude then '-' else '+') := by
  rw [signedText_eq]
  cases e with
  | and l r => exact absurd rfl hop
  | exclude e => simp [op, iblText_exclude]
  | _ => simp [op]

theorem iblText_eq_of_signedText_eq {e f : Expr} (hop : e.op = f.op)
    (h : c.signedText e = c.signedText f) : c.iblText e = c.iblText f := by
  rw [signedText_eq, signedText_eq, hop] at h
  split at h
  · exact h
  · exact h
  · exact (List.cons.inj h).2
  · exact (List.cons.inj h).2
  · simpa using h

theorem bracketed_mark : ∀ x ∈ ['+', '-', ' '], Bracketed '(' ')' [x] := by
  intro x hx
  have hcases : x = '+' ∨ x = '-' ∨ x = ' ' := by simpa using hx
  rcases hcases with rfl | rfl | rfl
  all_goals exact .of_notMem (by decide) (by decide)

section Plain

variable (hibl : c.ibl = Word.strip)

include hibl

theorem iblText_plain_word {w : Word} (hw : w.IsPlain) :
    c.iblText (.word w) = if w.phrase then '"' :: w.text.toList ++ ['"'] else w.text.toList := by
  rw [iblText_word, hibl, Word.strip_of_isAlpha hw.isAlpha]

theorem notMem_iblText_word {w : Word} (hw : w.IsPlain) {x : Char} (hx : x ∈ ['(', ')', ' ']) :
    x ∉ c.iblText (.word w) := by
  have hcases : x = '(' ∨ x = ')' ∨ x = ' ' := by simpa using hx
  obtain ⟨hquote, halpha⟩ : x ≠ '"' ∧ x.isAlpha = false := by
    rcases hcases with rfl | rfl | rfl <;> decide
  have htext : x ∉ w.text.toList := by
    intro hmem
    rw [hw.isAlpha x hmem] at halpha
    cases halpha
  rw [iblText_plain_word hibl hw]
  split <;> simp [htext, hquote]

theorem bracketed_iblText {e : Expr} (hw : ∀ w ∈ e.leaves, w.IsPlain) :
    Bracketed '(' ')' (c.iblText e) := by
  refine iblText_induction (P := Bracketed '(' ')') .append (.wrap (by decide)) bracketed_mark c
    ?_
  intro w hmem
  exact .of_notMem (notMem_iblText_word hibl (hw w hmem) (by simp))
      (notMem_iblText_word hibl (hw w hmem) (by simp))

theorem bracketed_signedText {e : Expr} (hw : ∀ w ∈ e.leaves, w.IsPlain) :
    Bracketed '(' ')' (c.signedText e) := by
  exact signedText_induction (P := Bracketed '(' ')') .append (.wrap (by decide)) bracketed_mark c
    (bracketed_iblText hibl hw)

theorem undivided_iblText_word {w : Word} (hw : w.IsPlain) : Undivided (c.iblText (.word w)) := by
  refine .of_notMem (notMem_iblText_word hibl hw (by simp)) (.of_notMem ?_ ?_)
  · exact notMem_iblText_word hibl hw (by simp)
  · exact notMem_iblText_word hibl hw (by simp)

/-- Of all expressions only a conjunction is divided. -/
theorem undivided_iblText {e : Expr} (hw : ∀ w ∈ e.leaves, w.IsPlain) (hop : e.op ≠ .and) :
    Undivided (c.iblText e) := by
  have hminus : ∀ {s}, Undivided s → Undivided ('-' :: s) :=
    .cons (by decide) (by decide) (by decide)
  cases e with
  | word w => exact undivided_iblText_word hibl (hw w (by simp [leaves]))
  | and l r => exact absurd rfl hop
  | or l r =>
    obtain ⟨hl, hr⟩ := List.forall_mem_append.1 hw
    have hspace : Bracketed '(' ')' [' '] := .of_notMem (by decide) (by decide)
    rw [iblText_or]
    exact .group ((bracketed_iblText hibl hl).append
      (hspace.append (bracketed_iblText hibl hr)))
  | paren e =>
    rw [iblText_paren]
    exact .group (bracketed_iblText hibl hw)
  | exclude e =>
    rw [iblText_exclude]
    split
    · next hword =>
      obtain ⟨w, rfl⟩ := exists_eq_word hword
      exact hminus (undivided_iblText_word hibl (hw w (by simp [leaves])))
    · exact hminus (.group (bracketed_iblText hibl hw))

theorem not_undivided_iblText_and {l r : Expr} (hw : ∀ w ∈ l.leaves, w.IsPlain) :
    ¬Undivided (c.iblText (.and l r)) := by
  intro h
  rw [iblText_and] at h
  exact h.ne_append (bracketed_signedText hibl hw) _ rfl

theorem undivided_iblText_iff {e : Expr} (hw : ∀ w ∈ e.leaves, w.IsPlain) :
    Undivided (c.iblText e) ↔ e.op ≠ .and := by
  refine ⟨?_, undivided_iblText hibl hw⟩
  intro h hop
  obtain ⟨l, r, rfl⟩ := exists_eq_and hop
  exact not_undivided_iblText_and hibl (List.forall_mem_append.1 hw).1 h

theorem undivided_signedText_iff {e : Expr} (hw : ∀ w ∈ e.leaves, w.IsPlain) :
    Undivided (c.signedText e) ↔ e.op ≠ .and := by
  have hplus : ∀ {s}, Undivided s → Undivided ('+' :: s) :=
    .cons (by decide) (by decide) (by decide)
  have hu := undivided_iblText hibl hw
  rw [signedText_eq]
  cases e with
  | word w => simpa [op] using hplus (hu (by simp [op]))
  | and l r =>
    obtain ⟨hl, -⟩ := List.forall_mem_append.1 hw
    simpa [op] using not_undivided_iblText_and hibl hl
  | or l r => simpa [op] using hplus (hu (by simp [op]))
  | paren e => simpa [op] using hplus (.group (bracketed_iblText hibl hw))
  | exclude e => simpa [op] using hu (by simp [op])

/-- A word shows neither a sign nor a group in front. -/
theorem head?_iblText_word {w : Word} (hw : w.IsPlain) :
    ∃ x, (c.iblText (.word w)).head? = some x ∧ x ∉ ['+', '-', '('] := by
  rw [iblText_plain_word hibl hw]
  split
  · exact ⟨'"', rfl, by decide⟩
  · obtain ⟨x, xs, hx⟩ : ∃ x xs, w.text.toList = x :: xs :=
      List.exists_cons_of_ne_nil (by simpa using hw.ne_empty)
    refine ⟨x, by rw [hx]; rfl, ?_⟩
    have halpha := hw.isAlpha x (by simp [hx])
    intro hmem
    simp only [List.mem_cons, List.not_mem_nil, or_false] at hmem
    rcases hmem with rfl | rfl | rfl <;> cases halpha

/-! ## The outermost operation -/

/-- What stands in front of an expression that is no conjunction. -/
theorem head?_iblText {e : Expr} (hw : ∀ w ∈ e.leaves, w.IsPlain) (hop : e.op ≠ .and) :
    ∃ x, (c.iblText e).head? = some x ∧ x ≠ '+' ∧ (x = '-' ↔ e.op = .exclude) ∧
      (x = '(' ↔ e.op = .or ∨ e.op = .paren) := by
  cases e with
  | word w =>
    obtain ⟨x, hx, hne⟩ := head?_iblText_word hibl (hw w (by simp [leaves]))
    simp only [List.mem_cons, List.not_mem_nil, or_false, not_or] at hne
    exact ⟨x, hx, hne.1, by simp [op, hne], by simp [op, hne]⟩
  | and l r => exact absurd rfl hop
  | or l r => exact ⟨'(', by simp [iblText_or], by simp [op]⟩
  | paren e => exact ⟨'(', by simp [iblText_paren], by simp [op]⟩
  | exclude e => exact ⟨'-', by simp [iblText_exclude], by simp [op]⟩

/-- A word cannot be taken for a disjunction or a group. -/
theorem iblText_word_ne {w : Word} (hw : w.IsPlain) (s : List Char) :
    c.iblText (.word w) ≠ '(' :: s := by
  intro h
  obtain ⟨x, hx, hne⟩ := head?_iblText_word hibl hw
  rw [h] at hx
  obtain rfl := Option.some.inj hx
  exact hne (by decide)

/-- As operands of a conjunction, a disjunction and a group differ in their parentheses. -/
theorem signedText_or_ne {l r e : Expr} (hl : ∀ w ∈ l.leaves, w.IsPlain)
    (he : ∀ w ∈ e.leaves, w.IsPlain) : c.signedText (.or l r) ≠ c.signedText (.paren e) := by
  intro h
  have hu : Undivided (c.iblText (.paren e)) := undivided_iblText hibl he (by simp [op])
  have hinner : c.iblText (.paren e) ++ [')'] = (c.iblText l ++ ' ' :: c.iblText r) ++ [')'] := by
    simpa [signedText_eq, op, iblText_or] using h.symm
  exact hu.ne_append (bracketed_iblText hibl hl) _ (List.append_cancel_right hinner)

theorem head?_tail_signedText {e : Expr} (hw : ∀ w ∈ e.leaves, w.IsPlain) (hand : e.op ≠ .and)
    (hex : e.op ≠ .exclude) : (c.signedText e).tail.head? = some '(' ↔ e.op ≠ .word := by
  rw [signedText_eq]
  cases e with
  | word w =>
    obtain ⟨x, hx, hne⟩ := head?_iblText_word hibl (hw w (by simp [leaves]))
    have hopen : x ≠ '(' := by
      rintro rfl
      exact hne (by decide)
    simp [op, hx, hopen]
  | and l r => exact absurd rfl hand
  | or l r => simp [op, iblText_or]
  | paren e => simp [op]
  | exclude e => exact absurd rfl hex

/-- The operation of an operand of a conjunction can be told from its text. -/
theorem op_eq_of_signedText_eq {e f : Expr} (he : ∀ w ∈ e.leaves, w.IsPlain)
    (hf : ∀ w ∈ f.leaves, w.IsPlain) (h : c.signedText e = c.signedText f) : e.op = f.op := by
  have hand : e.op ≠ .and ↔ f.op ≠ .and := by
    rw [← undivided_signedText_iff hibl he, ← undivided_signedText_iff hibl hf, h]
  by_cases heand : e.op = .and
  · rw [heand, not_not.1 (mt hand.2 (not_not.2 heand))]
  have hfand := hand.1 heand
  have hexclude : e.op = .exclude ↔ f.op = .exclude := by
    have hhead := congrArg List.head? h
    rw [head?_signedText heand, head?_signedText hfand] at hhead
    split at hhead <;> split at hhead <;> simp_all
  by_cases heex : e.op = .exclude
  · rw [heex, hexclude.1 heex]
  have hfex := mt hexclude.2 heex
  have hword : e.op ≠ .word ↔ f.op ≠ .word := by
    rw [← head?_tail_signedText hibl he heand heex, ← head?_tail_signedText hibl hf hfand hfex, h]
  cases e with
  | or l r =>
    cases f with
    | paren g =>
      exact absurd h (signedText_or_ne hibl (List.forall_mem_append.1 he).1 hf)
    | _ => simp_all [op]
  | paren g =>
    cases f with
    | or l r =>
      exact absurd h.symm (signedText_or_ne hibl (List.forall_mem_append.1 hf).1 he)
    | _ => simp_all [op]
  | _ => cases f <;> simp_all [op]

/-- An operand of a disjunction that could be one of a conjunction is an exclusion. -/
theorem op_eq_exclude_of_iblText_eq {e f : Expr} (he : ∀ w ∈ e.leaves, w.IsPlain)
    (hf : ∀ w ∈ f.leaves, w.IsPlain) (hop : e.op ≠ .and) (h : c.iblText e = c.signedText f) :
    e.op = .exclude := by
  have hfop : f.op ≠ .and := by
    rw [← undivided_signedText_iff hibl hf, ← h]
    exact undivided_iblText hibl he hop
  obtain ⟨x, hx, hplus, hminus, -⟩ := head?_iblText hibl he hop
  rw [h, head?_signedText hfop] at hx
  obtain rfl := Option.some.inj hx
  split at hplus
  · next hex => exact hminus.1 (if_pos hex)
  · exact absurd rfl hplus

/-- In a clear expression, a disjunction is not taken for a group. -/
theorem iblText_or_ne {l r e : Expr} (hor : Legible false (.or l r))
    (hparen : Legible false (.paren e)) : c.iblText (.or l r) ≠ c.iblText (.paren e) := by
  intro h
  obtain ⟨hl, hr, hland, hrand, hclear⟩ := hor.of_or
  have hinner : (c.iblText l ++ ' ' :: c.iblText r) ++ [')'] = c.iblText e ++ [')'] := by
    simpa [iblText_or, iblText_paren] using h
  replace hinner := List.append_cancel_right hinner
  have hand : e.op = .and := by
    by_contra hop
    exact (undivided_iblText hibl hparen.of_paren.plain hop).ne_append
      (bracketed_iblText hibl hl.plain) _ hinner.symm
  obtain ⟨l', r', rfl⟩ := exists_eq_and hand
  obtain ⟨hl', hr', hrand'⟩ := hparen.of_paren.of_and
  rw [iblText_and] at hinner
  obtain ⟨hleft, hright⟩ := (undivided_iblText hibl hr.plain hrand).append_inj
    ((undivided_signedText_iff hibl hr'.plain).2 hrand') hinner
  exact hclear rfl (op_eq_exclude_of_iblText_eq hibl hl.plain hl'.plain hland hleft)
    (op_eq_exclude_of_iblText_eq hibl hr.plain hr'.plain hrand hright)

/-- The operation of a clear expression can be told from its text. -/
theorem op_eq_of_iblText_eq {e f : Expr} (he : Legible false e) (hf : Legible false f)
    (h : c.iblText e = c.iblText f) : e.op = f.op := by
  have hand : e.op ≠ .and ↔ f.op ≠ .and := by
    rw [← undivided_iblText_iff hibl he.plain, ← undivided_iblText_iff hibl hf.plain, h]
  by_cases heand : e.op = .and
  · rw [heand, not_not.1 (mt hand.2 (not_not.2 heand))]
  obtain ⟨x, hx, -, hminus, hopen⟩ := head?_iblText hibl he.plain heand
  obtain ⟨y, hy, -, hminus', hopen'⟩ := head?_iblText hibl hf.plain (hand.1 heand)
  rw [h, hy] at hx
  obtain rfl := Option.some.inj hx
  cases e with
  | or l r =>
    cases f with
    | paren g => exact absurd h (iblText_or_ne hibl he hf)
    | _ => simp_all [op]
  | paren g =>
    cases f with
    | or l r => exact absurd h.symm (iblText_or_ne hibl hf he)
    | _ => simp_all [op]
  | _ => cases f <;> simp_all [op]

/-! ## Reading an expression from its text -/

theorem eq_of_iblText_word_eq {w w' : Word} (hw : w.IsPlain) (hw' : w'.IsPlain)
    (h : c.iblText (.word w) = c.iblText (.word w')) : w = w' := by
  have hquote : ∀ {w : Word} {s : List Char}, w.IsPlain → w.text.toList ≠ '"' :: s := by
    intro w s hw hs
    exact absurd (hw.isAlpha '"' (by simp [hs])) (by decide)
  obtain ⟨text, phrase⟩ := w
  obtain ⟨text', phrase'⟩ := w'
  rw [iblText_plain_word hibl hw, iblText_plain_word hibl hw'] at h
  cases phrase with
  | false =>
    cases phrase' with
    | false =>
      obtain rfl := String.toList_inj.1 h
      rfl
    | true => exact absurd h (hquote hw)
  | true =>
    cases phrase' with
    | false => exact absurd h.symm (hquote hw')
    | true =>
      have htext : text.toList = text'.toList := by simpa using h
      obtain rfl := String.toList_inj.1 htext
      rfl

/-- Only a word is excluded without parentheses. -/
theorem iblText_eq_of_exclude {e f : Expr} (he : ∀ w ∈ e.leaves, w.IsPlain)
    (hf : ∀ w ∈ f.leaves, w.IsPlain) (h : c.iblText (.exclude e) = c.iblText (.exclude f)) :
    c.iblText e = c.iblText f := by
  rw [iblText_exclude, iblText_exclude] at h
  replace h := (List.cons.inj h).2
  split at h
  · next hword =>
    obtain ⟨w, rfl⟩ := exists_eq_word hword
    split at h
    · exact h
    · exact absurd h (iblText_word_ne hibl (he w (by simp [leaves])) _)
  · split at h
    · next hword =>
      obtain ⟨w, rfl⟩ := exists_eq_word hword
      exact absurd h.symm (iblText_word_ne hibl (hf w (by simp [leaves])) _)
    · simpa using h

/-- Clear expressions with the same text and the same outermost operation are the same. -/
theorem eq_of_iblText_eq {conjunct : Bool} {e f : Expr} (he : Legible conjunct e)
    (hf : Legible conjunct f) (hop : e.op = f.op) (h : c.iblText e = c.iblText f) : e = f := by
  induction e generalizing conjunct f with
  | word w =>
    cases f with
    | word w' =>
      rw [eq_of_iblText_word_eq hibl (he.plain w (by simp [leaves]))
        (hf.plain w' (by simp [leaves])) h]
    | _ => cases hop
  | and l r ihl ihr =>
    cases f with
    | and l' r' =>
      obtain ⟨hl, hr, hrand⟩ := he.of_and
      obtain ⟨hl', hr', hrand'⟩ := hf.of_and
      rw [iblText_and, iblText_and] at h
      obtain ⟨hleft, hright⟩ := ((undivided_signedText_iff hibl hr.plain).2 hrand).append_inj
        ((undivided_signedText_iff hibl hr'.plain).2 hrand') h
      have hopl := op_eq_of_signedText_eq hibl hl.plain hl'.plain hleft
      have hopr := op_eq_of_signedText_eq hibl hr.plain hr'.plain hright
      rw [ihl hl hl' hopl (iblText_eq_of_signedText_eq hopl hleft),
        ihr hr hr' hopr (iblText_eq_of_signedText_eq hopr hright)]
    | _ => cases hop
  | or l r ihl ihr =>
    cases f with
    | or l' r' =>
      obtain ⟨hl, hr, -, hrand, -⟩ := he.of_or
      obtain ⟨hl', hr', -, hrand', -⟩ := hf.of_or
      have hinner : (c.iblText l ++ ' ' :: c.iblText r) ++ [')'] =
          (c.iblText l' ++ ' ' :: c.iblText r') ++ [')'] := by
        simpa [iblText_or] using h
      obtain ⟨hleft, hright⟩ := (undivided_iblText hibl hr.plain hrand).append_inj
        (undivided_iblText hibl hr'.plain hrand') (List.append_cancel_right hinner)
      rw [ihl hl hl' (op_eq_of_iblText_eq hibl hl hl' hleft) hleft,
        ihr hr hr' (op_eq_of_iblText_eq hibl hr hr' hright) hright]
    | _ => cases hop
  | paren e ih =>
    cases f with
    | paren f =>
      have hinner : c.iblText e = c.iblText f := by simpa [iblText_paren] using h
      rw [ih he.of_paren hf.of_paren
        (op_eq_of_iblText_eq hibl he.of_paren hf.of_paren hinner) hinner]
    | _ => cases hop
  | exclude e ih =>
    cases f with
    | exclude f =>
      have hinner := iblText_eq_of_exclude hibl he.of_exclude.plain hf.of_exclude.plain h
      rw [ih he.of_exclude hf.of_exclude
        (op_eq_of_iblText_eq hibl he.of_exclude hf.of_exclude hinner) hinner]
    | _ => cases hop

/-- Plain expressions have the same text just when they are the same up to conflated exclusions. -/
theorem iblText_eq_iff {e f : Expr} (he : e.isCanonical = true) (hf : f.isCanonical = true)
    (hwe : ∀ w ∈ e.leaves, w.IsPlain) (hwf : ∀ w ∈ f.leaves, w.IsPlain) :
    c.iblText e = c.iblText f ↔ e.conflated false = f.conflated false := by
  constructor
  · intro h
    rw [← c.iblText_conflated false e, ← c.iblText_conflated false f] at h
    have hle : Legible false (e.conflated false) :=
      ⟨isCanonical_conflated false he, by rwa [leaves_conflated], isClear_conflated false e⟩
    have hlf : Legible false (f.conflated false) :=
      ⟨isCanonical_conflated false hf, by rwa [leaves_conflated], isClear_conflated false f⟩
    exact eq_of_iblText_eq hibl hle hlf (op_eq_of_iblText_eq hibl hle hlf h) h
  · intro h
    rw [← c.iblText_conflated false e, h, c.iblText_conflated false f]

end Plain

/-- The boolean-mode expression of a search for plain words tells all of the search but for its
conflated exclusions. Searches without these that have the same expression and the same values mean
the same. -/
theorem compile_ibl_eq_iff (template line line' : String) (r r' : Compiled String)
    (h : (ofTemplate template).compile line = .ok r)
    (h' : (ofTemplate template).compile line' = .ok r')
    (hw : ∀ w ∈ r.tree.leaves, w.IsPlain) (hw' : ∀ w ∈ r'.tree.leaves, w.IsPlain) :
    (r.ibl = r'.ibl ↔ r.tree.conflated false = r'.tree.conflated false) ∧
      (r.tree.isClear false = true → r'.tree.isClear false = true → r.ibl = r'.ibl →
        r.values = r'.values → r.tree.Equivalent r'.tree) := by
  obtain ⟨hparse, hfragment⟩ := compile_eq_ok_iff.1 h
  obtain ⟨hparse', hfragment'⟩ := compile_eq_ok_iff.1 h'
  have hc := (Expr.printable_of_parse hparse).1.canonical
  have hc' := (Expr.printable_of_parse hparse').1.canonical
  have hiff : r.ibl = r'.ibl ↔ r.tree.conflated false = r'.tree.conflated false := by
    rw [← iblText_eq_iff (c := ofTemplate template) rfl hc hc' hw hw', hfragment, hfragment']
    exact String.toList_inj.symm
  refine ⟨hiff, ?_⟩
  intro hclear hclear' hibl _
  have htree := hiff.1 hibl
  rw [conflated_of_isClear hclear, conflated_of_isClear hclear'] at htree
  rw [htree]
  exact .refl _

/-- A disjunction of two exclusions is clear as an operand of a conjunction. Within a group it is
not: there it is written like the conjunction of both in a group of its own. -/
theorem compile_ibl_eq_exclusions_in_conjunction :
    let c := ofTemplate "c = ?"
    (∃ r r' : Compiled String,
      c.compile "y -a OR -b" = .ok r ∧ c.compile " y\t-a  OR-b" = .ok r' ∧
        r.ibl = "+y +(-a -b)" ∧ r.ibl = r'.ibl ∧ r.tree.Equivalent r'.tree) ∧
      ∃ r r' : Compiled String,
        c.compile "y (-a OR -b)" = .ok r ∧ c.compile "y ((-a -b))" = .ok r' ∧
          r.tree ≠ r'.tree ∧ r.ibl = "+y +(((-a -b)))" ∧ r.ibl = r'.ibl := by
  intro c
  let y : Expr := .word (.bare "y")
  let a : Expr := .exclude (.word (.bare "a"))
  let b : Expr := .exclude (.word (.bare "b"))
  have hcompile : ∀ line tree, Expr.parse line Expr.defaultRounds = .ok tree →
      c.compile line = .ok { c.fragment tree with tree := tree } :=
    fun _ _ hparse ↦ compile_eq_ok_iff.2 ⟨hparse, rfl⟩
  constructor
  · let tree : Expr := .and y (.or a b)
    have h := hcompile "y -a OR -b" tree (by decide +kernel)
    have h' := hcompile " y\t-a  OR-b" tree (by decide +kernel)
    have hw : ∀ w ∈ tree.leaves, w.IsPlain := by decide
    obtain ⟨hiff, hmeaning⟩ := compile_ibl_eq_iff "c = ?" _ _ _ _ h h' hw hw
    have hibl := hiff.2 rfl
    exact ⟨_, _, h, h', by decide +kernel, hibl, hmeaning rfl rfl hibl rfl⟩
  · let tree : Expr := .and y (.paren (.or a b))
    let tree' : Expr := .and y (.paren (.paren (.and a b)))
    have h := hcompile "y (-a OR -b)" tree (by decide +kernel)
    have h' := hcompile "y ((-a -b))" tree' (by decide +kernel)
    have hw : ∀ w ∈ tree.leaves, w.IsPlain := by decide
    obtain ⟨hiff, -⟩ := compile_ibl_eq_iff "c = ?" _ _ _ _ h h' hw hw
    -- The trees differ, and read as groups their disjunctions are the same.
    exact ⟨_, _, h, h', by decide, by decide +kernel, hiff.2 (by decide)⟩

/-- A disjunction of two exclusions and a group of both have the same boolean-mode expression and
the same values, but not the same meaning. -/
theorem ibl_conflates_exclusions :
    let c := ofTemplate "c = ?"
    ∃ r r' : Compiled String,
      c.compile "-a OR -b" = .ok r ∧ c.compile "(-a -b)" = .ok r' ∧
        (∀ w ∈ r.tree.leaves, w.IsPlain) ∧ (∀ w ∈ r'.tree.leaves, w.IsPlain) ∧
        r.ibl = r'.ibl ∧ r.values = r'.values ∧ ¬r.tree.Equivalent r'.tree := by
  intro c
  let a : Expr := .exclude (.word (.bare "a"))
  let b : Expr := .exclude (.word (.bare "b"))
  have hparse : Expr.parse "-a OR -b" Expr.defaultRounds = .ok (.or a b) := by decide +kernel
  have hparse' : Expr.parse "(-a -b)" Expr.defaultRounds = .ok (.paren (.and a b)) := by
    decide +kernel
  have hw : ∀ w ∈ (Expr.or a b).leaves, w.IsPlain := by decide
  refine ⟨{ c.fragment (.or a b) with tree := .or a b },
    { c.fragment (.paren (.and a b)) with tree := .paren (.and a b) },
    compile_eq_ok_iff.2 ⟨hparse, rfl⟩, compile_eq_ok_iff.2 ⟨hparse', rfl⟩, hw, hw,
    by decide +kernel, by decide +kernel, ?_⟩
  intro h
  -- Where only the first word holds, one of the two is missing but not both.
  exact absurd (h fun text ↦ text = "a") (by decide)

end Compiler

end SearchWords
