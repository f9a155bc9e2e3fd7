import SearchWords.Proofs.Brackets
import SearchWords.Proofs.Compiler.Noninterference

/-!
# The SQL of a search groups as the search does

Every operation puts its SQL between parentheses, and so does the condition of a word. If the
template of that condition is balanced, the SQL of an expression is a group: its first parenthesis
is closed by its last (`isGroup_sqlText`). A group can be cut off the front of a text in one way
only (`IsGroup.append_inj`), although the template may hold parentheses, spaces and the names of
operations itself. So the SQL of an operation tells its operands apart, and what stands in front of
the first of them and behind it is different for each operation (`around`). Only a word has nothing
of this kind, but its SQL is shorter than any other.

It follows that the SQL determines an expression up to its words (`skeleton_eq_of_sqlText_eq`). The
values that are bound determine the texts of these, so that all that is lost is which of them were
phrases.
-/

namespace SearchWords

universe u

/-! ## Groups -/

/-- A balanced text between parentheses. -/
def Text.IsGroup (s : List Char) : Prop :=
  ∃ t, s = '(' :: t ++ [')'] ∧ Bracketed '(' ')' t

namespace Text.IsGroup

variable {s t : List Char}

theorem bracketed (hs : IsGroup s) : Bracketed '(' ')' s := by
  obtain ⟨t, rfl, ht⟩ := hs
  exact ht.wrap (by decide)

theorem exists_cons (hs : IsGroup s) : ∃ t, s = '(' :: t := by
  obtain ⟨t, rfl, -⟩ := hs
  exact ⟨t ++ [')'], rfl⟩

/-- A group in front of a text ends with the parenthesis that closes its first one. -/
theorem append_inj (hs : IsGroup s) (ht : IsGroup t) {u v : List Char} (h : s ++ u = t ++ v) :
    s = t ∧ u = v := by
  obtain ⟨s, rfl, hs⟩ := hs
  obtain ⟨t, rfl, ht⟩ := ht
  have hinner : s ++ ')' :: u = t ++ ')' :: v := by simpa using h
  obtain ⟨rfl, rfl⟩ := hs.append_closer_inj (by decide) ht hinner
  exact ⟨rfl, rfl⟩

end Text.IsGroup

/-! ## Words apart from the rest -/

namespace Expr

/-- An expression in which phrases are bare words. -/
def withoutQuotes (e : Expr) : Expr :=
  e.mapWords fun w ↦ .bare w.text

theorem length_leaves_of_skeleton_eq {e f : Expr} (h : e.skeleton = f.skeleton) :
    e.leaves.length = f.leaves.length := by
  have hleaves := congrArg leaves h
  simpa [skeleton, leaves_mapWords] using congrArg List.length hleaves

/-- An expression is made up of its skeleton and its words. -/
theorem mapWords_eq_of_skeleton_eq {g : Word → Word} {e f : Expr} (h : e.skeleton = f.skeleton)
    (hw : e.leaves.map g = f.leaves.map g) : e.mapWords g = f.mapWords g := by
  induction e generalizing f with
  | word w =>
    cases f with
    | word w' => exact congrArg Expr.word (List.cons.inj hw).1
    | _ => cases h
  | and l r ihl ihr =>
    cases f with
    | and l' r' =>
      obtain ⟨hl, hr⟩ := Expr.and.inj h
      simp only [leaves, List.map_append] at hw
      obtain ⟨hwl, hwr⟩ := List.append_inj hw (by simp [length_leaves_of_skeleton_eq hl])
      rw [mapWords, mapWords, ihl hl hwl, ihr hr hwr]
    | _ => cases h
  | or l r ihl ihr =>
    cases f with
    | or l' r' =>
      obtain ⟨hl, hr⟩ := Expr.or.inj h
      simp only [leaves, List.map_append] at hw
      obtain ⟨hwl, hwr⟩ := List.append_inj hw (by simp [length_leaves_of_skeleton_eq hl])
      rw [mapWords, mapWords, ihl hl hwl, ihr hr hwr]
    | _ => cases h
  | paren e ih =>
    cases f with
    | paren f => rw [mapWords, mapWords, ih (Expr.paren.inj h) hw]
    | _ => cases h
  | exclude e ih =>
    cases f with
    | exclude f => rw [mapWords, mapWords, ih (Expr.exclude.inj h) hw]
    | _ => cases h

theorem words_withoutQuotes (e : Expr) : e.withoutQuotes.words = e.words := by
  simp [words_eq, withoutQuotes, leaves_mapWords, Word.bare, Function.comp_def]

/-- Only the quotes of phrases are in neither the skeleton nor the texts of the words. -/
theorem withoutQuotes_eq_iff {e f : Expr} :
    e.withoutQuotes = f.withoutQuotes ↔ e.skeleton = f.skeleton ∧ e.words = f.words := by
  constructor
  · intro h
    refine ⟨?_, by rw [← words_withoutQuotes e, h, words_withoutQuotes f]⟩
    rw [← skeleton_mapWords (fun w ↦ .bare w.text) e, ← skeleton_mapWords (fun w ↦ .bare w.text) f]
    exact congrArg skeleton h
  · rintro ⟨hskeleton, hwords⟩
    apply mapWords_eq_of_skeleton_eq hskeleton
    have hbare := congrArg (List.map Word.bare) hwords
    rwa [words_eq, words_eq, List.map_map, List.map_map] at hbare

end Expr

namespace Compiler

open Text

variable {α : Type u}

/-! ## The form of SQL -/

/-- The SQL of an expression. -/
def sqlText (c : Compiler α) (e : Expr) : List Char :=
  (c.fragment e).sql.toList

/-- What stands in the SQL of an operation in front of its first operand, and what stands right
behind it. -/
def around : Expr.Op → List Char × List Char
  | .word => ([], [])
  | .and => (['(', ' '], [' ', 'A', 'N', 'D', ' '])
  | .or => (['(', ' '], [' ', 'O', 'R', ' '])
  | .paren => (['(', ' '], [' ', ')'])
  | .exclude => (['(', ' ', 'n', 'o', 't', ' '], [' ', ')'])

/-- The third character is the parenthesis of the first operand, except in an exclusion. -/
theorem getElem?_front {p : Expr.Op} (hp : p ≠ .word) (cs : List Char) :
    ((around p).1 ++ '(' :: cs)[2]? = if p = .exclude then some 'n' else some '(' := by
  cases p with
  | word => exact absurd rfl hp
  | _ => rfl

theorem getElem?_behind {p : Expr.Op} (hp : p ≠ .word) (cs : List Char) :
    ((around p).2 ++ cs)[1]? = (around p).2[1]? := by
  cases p with
  | word => exact absurd rfl hp
  | _ => rfl

/-- No two operations have the same texts around a first operand that is a group. -/
theorem around_inj {p q : Expr.Op} (hp : p ≠ .word) (hq : q ≠ .word) {s t u v : List Char}
    (hs : IsGroup s) (ht : IsGroup t)
    (h : (around p).1 ++ (s ++ ((around p).2 ++ u)) =
      (around q).1 ++ (t ++ ((around q).2 ++ v))) : p = q := by
  have hfront : (around p).1 = (around q).1 := by
    obtain ⟨s', rfl⟩ := hs.exists_cons
    obtain ⟨t', rfl⟩ := ht.exists_cons
    have heq := congrArg (fun cs ↦ cs[2]?) h
    rw [List.cons_append, List.cons_append, getElem?_front hp, getElem?_front hq] at heq
    revert hp hq heq
    cases p <;> cases q <;> decide
  rw [hfront] at h
  obtain ⟨-, hbehind⟩ := hs.append_inj ht (List.append_cancel_left h)
  have heq := congrArg (fun cs ↦ cs[1]?) hbehind
  rw [getElem?_behind hp, getElem?_behind hq] at heq
  revert hp hq hfront heq
  cases p <;> cases q <;> decide

section Equations

variable (c : Compiler α)

theorem sqlText_word (w : Word) : c.sqlText (.word w) = c.condition.toList := rfl

theorem sqlText_and (l r : Expr) :
    c.sqlText (.and l r) =
      (around .and).1 ++ (c.sqlText l ++ ((around .and).2 ++ (c.sqlText r ++ [' ', ')']))) := by
  simp [sqlText, fragment, around]

theorem sqlText_or (l r : Expr) :
    c.sqlText (.or l r) =
      (around .or).1 ++ (c.sqlText l ++ ((around .or).2 ++ (c.sqlText r ++ [' ', ')']))) := by
  simp [sqlText, fragment, around]

theorem sqlText_paren (e : Expr) :
    c.sqlText (.paren e) = (around .paren).1 ++ (c.sqlText e ++ (around .paren).2) := by
  simp [sqlText, fragment, around]

theorem sqlText_exclude (e : Expr) :
    c.sqlText (.exclude e) = (around .exclude).1 ++ (c.sqlText e ++ (around .exclude).2) := by
  simp [sqlText, fragment, around]

/-- All operations but that of a word have their first operand between two fixed texts. -/
theorem exists_sqlText_eq {e : Expr} (hop : e.op ≠ .word) :
    ∃ first rest,
      c.sqlText e = (around e.op).1 ++ (c.sqlText first ++ ((around e.op).2 ++ rest)) := by
  cases e with
  | word w => exact absurd rfl hop
  | and l r => exact ⟨l, c.sqlText r ++ [' ', ')'], c.sqlText_and l r⟩
  | or l r => exact ⟨l, c.sqlText r ++ [' ', ')'], c.sqlText_or l r⟩
  | paren e => exact ⟨e, [], c.sqlText_paren e⟩
  | exclude e => exact ⟨e, [], c.sqlText_exclude e⟩

end Equations

theorem length_condition_le (c : Compiler α) (e : Expr) :
    c.condition.toList.length ≤ (c.sqlText e).length := by
  induction e with
  | word w => exact Nat.le_refl _
  | and l r ihl _ =>
    rw [sqlText_and, List.length_append, List.length_append]
    omega
  | or l r ihl _ =>
    rw [sqlText_or, List.length_append, List.length_append]
    omega
  | paren e ih =>
    rw [sqlText_paren, List.length_append, List.length_append]
    omega
  | exclude e ih =>
    rw [sqlText_exclude, List.length_append, List.length_append]
    omega

/-- No SQL is as short as that of a word. -/
theorem sqlText_ne_condition (c : Compiler α) {e : Expr} (hop : e.op ≠ .word) :
    c.sqlText e ≠ c.condition.toList := by
  obtain ⟨first, rest, he⟩ := c.exists_sqlText_eq hop
  have hlead : 0 < (around e.op).1.length := by
    revert hop
    cases e.op <;> decide
  have hle := c.length_condition_le first
  intro h
  have hlength := congrArg List.length (he.symm.trans h)
  simp only [List.length_append] at hlength
  omega

section Balanced

variable {c : Compiler α} {template : String} (hc : c.condition = "(" ++ template ++ ")")
  (ht : Bracketed '(' ')' template.toList)

include hc ht

theorem isGroup_sqlText (e : Expr) : IsGroup (c.sqlText e) := by
  induction e with
  | word w => exact ⟨template.toList, by simp [sqlText_word, hc], ht⟩
  | and l r ihl ihr =>
    refine ⟨[' '] ++ (c.sqlText l ++ ((around .and).2 ++ (c.sqlText r ++ [' ']))), ?_, ?_⟩
    · simp [sqlText_and, around]
    · exact .append (by decide) (ihl.bracketed.append
        (.append (by decide) (ihr.bracketed.append (by decide))))
  | or l r ihl ihr =>
    refine ⟨[' '] ++ (c.sqlText l ++ ((around .or).2 ++ (c.sqlText r ++ [' ']))), ?_, ?_⟩
    · simp [sqlText_or, around]
    · exact .append (by decide) (ihl.bracketed.append
        (.append (by decide) (ihr.bracketed.append (by decide))))
  | paren e ih =>
    refine ⟨[' '] ++ (c.sqlText e ++ [' ']), ?_, ?_⟩
    · simp [sqlText_paren, around]
    · exact .append (by decide) (ih.bracketed.append (by decide))
  | exclude e ih =>
    refine ⟨[' ', 'n', 'o', 't', ' '] ++ (c.sqlText e ++ [' ']), ?_, ?_⟩
    · simp [sqlText_exclude, around]
    · exact .append (by decide) (ih.bracketed.append (by decide))

/-! ## Reading SQL -/

/-- Operands that stand in front of two texts are told apart from these. -/
theorem sqlText_append_inj {e f : Expr} {u v : List Char}
    (h : c.sqlText e ++ u = c.sqlText f ++ v) : c.sqlText e = c.sqlText f ∧ u = v :=
  (isGroup_sqlText hc ht e).append_inj (isGroup_sqlText hc ht f) h

/-- The operation of an expression can be told from its SQL. -/
theorem op_eq_of_sqlText_eq {e f : Expr} (h : c.sqlText e = c.sqlText f) : e.op = f.op := by
  have hword : ∀ {e f : Expr}, c.sqlText e = c.sqlText f → e.op = .word → f.op = .word := by
    intro e f h he
    by_contra hf
    cases e with
    | word w => exact c.sqlText_ne_condition hf h.symm
    | _ => cases he
  by_cases he : e.op = .word
  · rw [he, hword h he]
  · have hf : f.op ≠ .word := mt (hword h.symm) he
    obtain ⟨x, u, hx⟩ := c.exists_sqlText_eq he
    obtain ⟨y, v, hy⟩ := c.exists_sqlText_eq hf
    rw [hx, hy] at h
    exact around_inj he hf (isGroup_sqlText hc ht x) (isGroup_sqlText hc ht y) h

theorem skeleton_eq_of_sqlText_eq {e f : Expr} (h : c.sqlText e = c.sqlText f) :
    e.skeleton = f.skeleton := by
  have hop := op_eq_of_sqlText_eq hc ht h
  induction e generalizing f with
  | word w =>
    cases f with
    | word w' => rfl
    | _ => cases hop
  | and l r ihl ihr =>
    cases f with
    | and l' r' =>
      rw [sqlText_and, sqlText_and] at h
      obtain ⟨hl, hrest⟩ := sqlText_append_inj hc ht (List.append_cancel_left h)
      obtain ⟨hr, -⟩ := sqlText_append_inj hc ht (List.append_cancel_left hrest)
      exact congrArg₂ Expr.and (ihl hl (op_eq_of_sqlText_eq hc ht hl))
        (ihr hr (op_eq_of_sqlText_eq hc ht hr))
    | _ => cases hop
  | or l r ihl ihr =>
    cases f with
    | or l' r' =>
      rw [sqlText_or, sqlText_or] at h
      obtain ⟨hl, hrest⟩ := sqlText_append_inj hc ht (List.append_cancel_left h)
      obtain ⟨hr, -⟩ := sqlText_append_inj hc ht (List.append_cancel_left hrest)
      exact congrArg₂ Expr.or (ihl hl (op_eq_of_sqlText_eq hc ht hl))
        (ihr hr (op_eq_of_sqlText_eq hc ht hr))
    | _ => cases hop
  | paren e ih =>
    cases f with
    | paren f =>
      rw [sqlText_paren, sqlText_paren] at h
      obtain ⟨he, -⟩ := sqlText_append_inj hc ht (List.append_cancel_left h)
      exact congrArg Expr.paren (ih he (op_eq_of_sqlText_eq hc ht he))
    | _ => cases hop
  | exclude e ih =>
    cases f with
    | exclude f =>
      rw [sqlText_exclude, sqlText_exclude] at h
      obtain ⟨he, -⟩ := sqlText_append_inj hc ht (List.append_cancel_left h)
      exact congrArg Expr.exclude (ih he (op_eq_of_sqlText_eq hc ht he))
    | _ => cases hop

end Balanced

/-- With a balanced template, two expressions have the same SQL if and only if they are the same up
to their words. If moreover no two texts bind the same value, as when words are bound unchanged, the
SQL and the values together are the same if and only if the expressions are the same up to the
quotes of their phrases. -/
theorem sql_eq_iff_skeleton_eq (c : Compiler α) (template : String)
    (hc : c.condition = "(" ++ template ++ ")") (ht : Bracketed '(' ')' template.toList)
    (e f : Expr) :
    ((c.fragment e).sql = (c.fragment f).sql ↔ e.skeleton = f.skeleton) ∧
      (Function.Injective c.value →
        ((c.fragment e).sql = (c.fragment f).sql ∧
            (c.fragment e).values = (c.fragment f).values ↔
          e.withoutQuotes = f.withoutQuotes)) := by
  have hsql : (c.fragment e).sql = (c.fragment f).sql ↔ e.skeleton = f.skeleton := by
    constructor
    · intro h
      exact skeleton_eq_of_sqlText_eq hc ht (congrArg String.toList h)
    · intro h
      calc (c.fragment e).sql = (c.fragment e.skeleton).sql := (c.sql_fragment_mapWords _ e).symm
        _ = (c.fragment f.skeleton).sql := by rw [h]
        _ = (c.fragment f).sql := c.sql_fragment_mapWords _ f
  refine ⟨hsql, ?_⟩
  intro hvalue
  rw [hsql, values_fragment, values_fragment, hvalue.list_map.eq_iff, Expr.withoutQuotes_eq_iff]

/-- The template has the names of all operations in it, and parentheses with spaces like those of
the SQL around it. -/
theorem sql_eq_iff_skeleton_eq_misleading_template :
    let template := " ( a = ? AND ( not b ) ) OR ( c ) "
    let c := ofTemplate template
    let a : Expr := .word (.bare "a")
    let b : Expr := .word (.quoted "b")
    Bracketed '(' ')' template.toList ∧
      (c.fragment (.exclude (.or a b))).sql ≠ (c.fragment (.or (.exclude a) b)).sql ∧
      (c.fragment (.and a (.and a b))).sql ≠ (c.fragment (.and (.and a a) b)).sql ∧
      ((c.fragment (.and a b)).sql = (c.fragment (.and a (.word (.bare "b")))).sql ∧
        (c.fragment (.and a b)).values = (c.fragment (.and a (.word (.bare "b")))).values) := by
  intro template c a b
  have ht : Bracketed '(' ')' template.toList := by decide +kernel
  refine ⟨ht, ?_, ?_, ?_⟩
  · intro h
    cases (sql_eq_iff_skeleton_eq c template rfl ht _ _).1.1 h
  · intro h
    cases (sql_eq_iff_skeleton_eq c template rfl ht _ _).1.1 h
  · exact ((sql_eq_iff_skeleton_eq c template rfl ht _ _).2 Function.injective_id).2 rfl

end Compiler

end SearchWords
