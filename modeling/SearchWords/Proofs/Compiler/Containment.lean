import Mathlib.Algebra.Group.Nat.Even
import SearchWords.Proofs.Brackets
import SearchWords.Proofs.Compiler.Binding
import SearchWords.Proofs.Compiler.BooleanMode
import SearchWords.Proofs.Word.BooleanMode

/-!
# Words stay words in boolean mode

In a boolean-mode expression quotes and parentheses are structure. A word must not bring any of its
own, or it would end a phrase or a group that it stands in. Three parties see to this: a bare word
has no parentheses because these end it where it is read, a stripped word has no quotes, and all
that is put around words is balanced. A phrase may have parentheses, but it has them between its
quotes, where they mean nothing; `unquoted` is what is left of an expression outside of quotes.

Texts of this kind are `Contained`. They may be put next to each other and into groups, and the
expression of a fragment is made of words by nothing else (`contained_iblText`).
-/

namespace SearchWords

universe u

namespace Text

/-- A text without its quoted stretches. Each of them goes from a quote to the next one, and
`quoted` says that the text starts inside of one. -/
def unquoted (quoted : Bool) : List Char → List Char
  | [] => []
  | c :: cs =>
    if c = '"' then unquoted (!quoted) cs
    else if quoted then unquoted true cs
    else c :: unquoted false cs

/-- A stretch is open after an odd number of quotes. -/
theorem unquoted_append (quoted : Bool) (s t : List Char) :
    unquoted quoted (s ++ t) =
      unquoted quoted s ++ unquoted (if Even (s.count '"') then quoted else !quoted) t := by
  induction s generalizing quoted with
  | nil => simp [unquoted]
  | cons c cs ih =>
    by_cases hc : c = '"'
    · subst hc
      have hparity : (if Even (cs.count '"') then !quoted else quoted) =
          if Even (cs.count '"' + 1) then quoted else !quoted := by
        simp only [Nat.even_add_one]
        split <;> simp_all
      simp [unquoted, ih, hparity]
    · cases quoted <;> simp [unquoted, hc, ih]

theorem unquoted_of_notMem {s : List Char} (h : '"' ∉ s) : unquoted false s = s := by
  induction s with
  | nil => rfl
  | cons c cs ih =>
    obtain ⟨hc, hcs⟩ := List.ne_and_not_mem_of_not_mem_cons h
    simp [unquoted, hc.symm, ih hcs]

theorem unquoted_true_of_notMem {s : List Char} (h : '"' ∉ s) : unquoted true s = [] := by
  induction s with
  | nil => rfl
  | cons c cs ih =>
    obtain ⟨hc, hcs⟩ := List.ne_and_not_mem_of_not_mem_cons h
    simp [unquoted, hc.symm, ih hcs]

/-- A text that leaves no stretch open, and that is balanced outside of its stretches. -/
structure Contained (s : List Char) : Prop where
  even : Even (s.count '"')
  bracketed : Bracketed '(' ')' (unquoted false s)

namespace Contained

variable {s t : List Char}

theorem of_notMem (hquote : '"' ∉ s) (hopen : '(' ∉ s) (hclose : ')' ∉ s) : Contained s := by
  refine ⟨by simp [List.count_eq_zero.2 hquote], ?_⟩
  rw [unquoted_of_notMem hquote]
  exact .of_notMem hopen hclose

theorem append (hs : Contained s) (ht : Contained t) : Contained (s ++ t) := by
  refine ⟨by simpa using hs.even.add ht.even, ?_⟩
  rw [unquoted_append, if_pos hs.even]
  exact hs.bracketed.append ht.bracketed

/-- What stands between quotes may have parentheses. -/
theorem phrase (hquote : '"' ∉ s) : Contained ('"' :: s ++ ['"']) := by
  have hzero := List.count_eq_zero.2 hquote
  have hnone : unquoted false ('"' :: s ++ ['"']) = [] := by
    rw [List.cons_append, unquoted, if_pos rfl, unquoted_append, Bool.not_false,
      unquoted_true_of_notMem hquote, hzero]
    simp [unquoted]
  refine ⟨by simp [hzero, show Even 2 from ⟨1, rfl⟩], ?_⟩
  rw [hnone]
  exact .of_notMem (by simp) (by simp)

theorem group (hs : Contained s) : Contained ('(' :: s ++ [')']) := by
  refine ⟨by simpa using hs.even, ?_⟩
  have hwrap : unquoted false ('(' :: s ++ [')']) = '(' :: unquoted false s ++ [')'] := by
    simp [unquoted, unquoted_append, hs.even]
  rw [hwrap]
  exact hs.bracketed.wrap (by decide)

end Contained

end Text

namespace Compiler

open Text

variable {α : Type u}

/-- A word is contained if it has no quotes, and no parentheses either unless it is a phrase. -/
theorem contained_iblText_word (c : Compiler α) {w : Word}
    (hquote : '"' ∉ (c.ibl w.text).toList)
    (hbare : w.phrase = false →
      '(' ∉ (c.ibl w.text).toList ∧ ')' ∉ (c.ibl w.text).toList) :
    Contained (c.iblText (.word w)) := by
  rw [iblText_word]
  split
  · exact .phrase hquote
  · next hw =>
    obtain ⟨hopen, hclose⟩ := hbare (by simpa using hw)
    exact .of_notMem hquote hopen hclose

theorem contained_iblText (c : Compiler α) {e : Expr}
    (hword : ∀ w ∈ e.leaves, Contained (c.iblText (.word w))) : Contained (c.iblText e) := by
  refine iblText_induction (P := Contained) .append .group ?_ c hword
  intro x hx
  have hcases : x = '+' ∨ x = '-' ∨ x = ' ' := by simpa using hx
  rcases hcases with rfl | rfl | rfl
  all_goals exact .of_notMem (by decide) (by decide) (by decide)

/-! ## Quotes and operators -/

@[simp] theorem count_quote_signed (op : Expr.Op) (ibl : String) :
    (signed op ibl).toList.count '"' = ibl.toList.count '"' := by
  cases op <;> simp [signed]

@[simp] theorem count_quote_negated (op : Expr.Op) (ibl : String) :
    (negated op ibl).toList.count '"' = ibl.toList.count '"' := by
  cases op <;> simp [negated]

/-- All quotes are those around phrases. -/
theorem count_quote_ibl_fragment (c : Compiler α) {e : Expr}
    (hquote : ∀ w ∈ e.leaves, '"' ∉ (c.ibl w.text).toList) :
    (c.fragment e).ibl.toList.count '"' = 2 * e.leaves.countP Word.phrase := by
  induction e with
  | word w =>
    have hzero := List.count_eq_zero.2 (hquote w (by simp [Expr.leaves]))
    cases hw : w.phrase <;> simp [fragment, hw, hzero, Expr.leaves]
  | and l r ihl ihr =>
    obtain ⟨hl, hr⟩ := List.forall_mem_append.1 hquote
    simp [fragment, Expr.leaves, ihl hl, ihr hr, Nat.mul_add]
  | or l r ihl ihr =>
    obtain ⟨hl, hr⟩ := List.forall_mem_append.1 hquote
    simp [fragment, Expr.leaves, ihl hl, ihr hr, Nat.mul_add]
  | paren e ih => simpa [fragment, Expr.leaves] using ih hquote
  | exclude e ih => simpa [fragment, Expr.leaves] using ih hquote

/-- A character that is no mark of boolean mode comes from a word. -/
theorem notMem_iblText (c : Compiler α) {x : Char} (hx : x ∉ "\"+-() ".toList) {e : Expr}
    (hword : ∀ w ∈ e.leaves, x ∉ (c.ibl w.text).toList) : x ∉ c.iblText e := by
  have hne : ∀ y ∈ "\"+-() ".toList, x ≠ y := fun y hy hxy ↦ hx (hxy ▸ hy)
  refine iblText_induction (P := fun s ↦ x ∉ s) ?_ ?_ ?_ c ?_
  · intro s t hs ht
    simp [hs, ht]
  · intro s hs
    simp [hs, hne '(' (by decide), hne ')' (by decide)]
  · intro y hy
    have hsub : ['+', '-', ' '] ⊆ "\"+-() ".toList := by decide
    simpa using hne y (hsub hy)
  · intro w hw
    have hquote := hne '"' (by decide)
    rw [iblText_word]
    split <;> simp [hquote, hword w hw]

/-- Under the default form of words, no word brings structure into a boolean-mode expression: it
has two quotes for each phrase and no other, no backslash and no mark of relevance, and outside of
its quotes its parentheses are balanced. -/
theorem compile_contains_words (c : Compiler α) (hibl : c.ibl = Word.strip) (line : String)
    (r : Compiled α) (h : c.compile line = .ok r) :
    r.ibl.toList.count '"' = 2 * r.tree.leaves.countP Word.phrase ∧
      (∀ x ∈ ['\\', '<', '>', '~'], x ∉ r.ibl.toList) ∧
      Bracketed '(' ')' (unquoted false r.ibl.toList) := by
  obtain ⟨hparse, hfragment⟩ := compile_eq_ok_iff.1 h
  obtain ⟨hprintable, -⟩ := Expr.printable_of_parse hparse
  have hstrip : ∀ w x, x ∈ (c.ibl w).toList → x ∈ w.toList ∧ Word.isOperator x = false := by
    intro w x hx
    rw [hibl] at hx
    exact Word.of_mem_strip hx
  have hquote : ∀ w ∈ r.tree.leaves, '"' ∉ (c.ibl w.text).toList := by
    intro w _ hmem
    exact absurd (hstrip _ _ hmem).2 (by decide)
  rw [hfragment]
  refine ⟨c.count_quote_ibl_fragment hquote, ?_, ?_⟩
  · intro x hx
    have hcases : x = '\\' ∨ x = '<' ∨ x = '>' ∨ x = '~' := by simpa using hx
    obtain ⟨hmarks, hop⟩ : x ∉ "\"+-() ".toList ∧ Word.isOperator x = true := by
      rcases hcases with rfl | rfl | rfl | rfl <;> decide
    refine c.notMem_iblText hmarks ?_
    intro w _ hmem
    exact absurd (hstrip _ _ hmem).2 (by simp [hop])
  · refine (c.contained_iblText ?_).bracketed
    intro w hw
    refine c.contained_iblText_word (hquote w hw) ?_
    intro hphrase
    obtain ⟨-, hchars, -⟩ := hprintable.bare w hw hphrase
    constructor
    · intro hmem
      exact (hchars _ (hstrip _ _ hmem).1).2.1 rfl
    · intro hmem
      exact (hchars _ (hstrip _ _ hmem).1).2.2 rfl

/-- A phrase with parentheses the wrong way round, a word with a quote and a backslash, and an
excluded word with operators. -/
theorem compile_contains_unruly_words :
    let c := ofTemplate "name = ?"
    let line := "(\"a) (\" OR x\\\"\\\\y) -<z>"
    ∃ r, c.compile line = .ok r ∧ r.ibl = "+(((\"a) (\" xy))) -z" ∧
      r.ibl.toList.count '"' = 2 ∧ Bracketed '(' ')' (unquoted false r.ibl.toList) := by
  intro c line
  let tree : Expr := .and (.paren (.or (.word (.quoted "a) (")) (.word (.bare "x\"\\y"))))
    (.exclude (.word (.bare "<z>")))
  have hparse : Expr.parse line Expr.defaultRounds = .ok tree := by decide +kernel
  have h : c.compile line = .ok { c.fragment tree with tree := tree } :=
    compile_eq_ok_iff.2 ⟨hparse, rfl⟩
  obtain ⟨hcount, -, hbalanced⟩ := compile_contains_words c rfl line _ h
  exact ⟨_, h, by decide +kernel, hcount, hbalanced⟩

end Compiler

end SearchWords
