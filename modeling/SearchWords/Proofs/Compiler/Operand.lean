import SearchWords.Proofs.Compiler.Binding
import SearchWords.Proofs.Word.Marker

/-!
# Bare words as operands in boolean mode

A bare word that is stripped stands in a boolean-mode expression as it is, so that its first
character decides what it means there. Parentheses and operators are ruled out: the former end a bare
word, the latter are taken away. A minus sign is neither. It cannot start a bare word, but it can
come to stand at the front when marks in front of it are taken away, and the word is excluded then.
If there is nothing but marks, no word is left.
-/

namespace SearchWords.Compiler

universe u

variable {α : Type u}

/-- The form of a bare word under the default. It is empty just where the word has nothing but marks,
and it starts with a minus sign just where nothing but marks, and one at least, stands in front of a
minus sign in the word. It starts with no other operator and no parenthesis. -/
theorem compile_bare_operand (c : Compiler α) (hibl : c.ibl = Word.strip) (line : String)
    (r : Compiled α) (h : c.compile line = .ok r) (w : Word) (hw : w ∈ r.tree.leaves)
    (hbare : w.phrase = false) :
    (c.fragment (.word w)).ibl = Word.strip w.text ∧
      (Word.strip w.text = "" ↔ Word.Erasable w.text.toList) ∧
      (['-'] <+: (Word.strip w.text).toList ↔
        ∃ front rest, w.text.toList = front ++ '-' :: rest ∧ front ≠ [] ∧ Word.Erasable front) ∧
      ∀ x ∈ ['+', '~', '<', '>', '"', '(', ')'], ¬[x] <+: (Word.strip w.text).toList := by
  obtain ⟨hparse, -⟩ := compile_eq_ok_iff.1 h
  obtain ⟨-, hchars, hminus, -⟩ := (Expr.printable_of_parse hparse).1.bare w hw hbare
  have htext : (Word.strip w.text).toList = Word.stripFrom false w.text.toList :=
    String.toList_ofList
  refine ⟨?_, ?_, ?_, ?_⟩
  · simp [fragment, hbare, hibl]
  · rw [← Word.stripFrom_eq_nil_iff, ← htext, String.toList_eq_nil_iff]
  · have hfirst : ∀ s : List Char, ['-'] <+: s ↔ '-' ∈ s.head? := by
      simp [List.cons_prefix_iff, List.head?_eq_some_iff]
    rw [htext, hfirst, Word.mem_head?_stripFrom_iff (by decide) rfl (by decide)]
    constructor
    · rintro ⟨front, rest, hfront, herasable⟩
      refine ⟨front, rest, hfront, ?_, herasable⟩
      rintro rfl
      exact hminus ⟨rest, hfront.symm⟩
    · rintro ⟨front, rest, hfront, -, herasable⟩
      exact ⟨front, rest, hfront, herasable⟩
  · have hmarks : ∀ x ∈ ['+', '~', '<', '>', '"', '(', ')'],
        Word.isOperator x = true ∨ x = '(' ∨ x = ')' := by
      simp [Word.isOperator]
    rintro x hx ⟨rest, hrest⟩
    obtain ⟨hmem, hop⟩ : x ∈ w.text.toList ∧ Word.isOperator x = false :=
      Word.of_mem_strip (by rw [← hrest]; exact List.mem_cons_self)
    rcases hmarks x hx with hyes | rfl | rfl
    · rw [hop] at hyes
      cases hyes
    · exact (hchars _ hmem).2.1 rfl
    · exact (hchars _ hmem).2.2 rfl

/-- A mark in front of a minus sign inside of a word, in a group that is excluded. -/
theorem compile_bare_operand_minus :
    let c := ofTemplate "name = ?"
    let w := Word.bare "~@12-y"
    ∃ r, c.compile "-(~@12-y OR b) \"-z\"" = .ok r ∧ w ∈ r.tree.leaves ∧
      ['-'] <+: (Word.strip w.text).toList ∧ Word.strip w.text ≠ "" := by
  intro c w
  let tree : Expr := .and (.exclude (.paren (.or (.word w) (.word (.bare "b")))))
    (.word (.quoted "-z"))
  have hparse : Expr.parse "-(~@12-y OR b) \"-z\"" Expr.defaultRounds = .ok tree := by
    decide +kernel
  have h := compile_of_parse (c := c) hparse
  have hw : w ∈ tree.leaves := by decide
  obtain ⟨-, hempty, hminus, -⟩ := compile_bare_operand c rfl _ _ h w hw rfl
  have hdistance : Word.Erasable ('@' :: ['1', '2'] ++ []) := .marker (by simp) (by simp) .nil
  have hstrip : ['-'] <+: (Word.strip w.text).toList :=
    hminus.2 ⟨['~', '@', '1', '2'], ['y'], by decide, by simp, .operator rfl hdistance⟩
  refine ⟨_, h, hw, hstrip, ?_⟩
  intro hnil
  rw [hnil] at hstrip
  cases List.prefix_nil.1 hstrip

/-- A word that its SQL requires is excluded in boolean mode, and another one is gone. -/
theorem ibl_excludes_required_word :
    let c := ofTemplate "name = ?"
    (∃ r, c.compile "+-a" = .ok r ∧ r.tree = .word (.bare "+-a") ∧ r.sql = "(name = ?)" ∧
        r.values = ["+-a"] ∧ r.ibl = "-a" ∧ ['-'] <+: (Word.strip "+-a").toList) ∧
      ∃ r, c.compile "+" = .ok r ∧ r.tree = .word (.bare "+") ∧ r.sql = "(name = ?)" ∧
        r.values = ["+"] ∧ r.ibl = "" ∧ Word.strip "+" = "" := by
  intro c
  have hminus : Expr.parse "+-a" Expr.defaultRounds = .ok (.word (.bare "+-a")) := by
    decide +kernel
  have hplus : Expr.parse "+" Expr.defaultRounds = .ok (.word (.bare "+")) := by
    decide +kernel
  constructor
  · exact ⟨_, compile_of_parse hminus, rfl, by decide +kernel, by decide +kernel,
      by decide +kernel, by decide +kernel⟩
  · exact ⟨_, compile_of_parse hplus, rfl, by decide +kernel, by decide +kernel,
      by decide +kernel, by decide +kernel⟩

end SearchWords.Compiler
