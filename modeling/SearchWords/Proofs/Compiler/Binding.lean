import SearchWords.Compiler
import SearchWords.Proofs.Expr.RoundTrip

/-!
# Words of a line and the values that are bound

Between a line and the parameters of its SQL, words go through the tokens, the expression, and the
fragments of its parts. None of these loses, repeats or moves a word: the leaves of the expression
are the words of the line (`leaves_of_parse`), and each leaf binds one value to one copy of the
condition. Apart from the copies, SQL has nothing but a few connectives (`count_sql_fragment`), so
that placeholders and values line up.
-/

namespace SearchWords

universe u

/-- The words among some tokens, in order. -/
def Token.words (ts : List Token) : List Word :=
  ts.filterMap fun t ↦ match t with | .word w => some w | _ => none

/-- The words of a line are the words of its expression, from left to right. -/
theorem Expr.leaves_of_parse {line : String} {limit : Nat} {e : Expr}
    (h : parse line limit = .ok e) : e.leaves = Token.words (Token.scan line) := by
  obtain ⟨-, hscan, -⟩ := parse_eq_ok_iff.1 h
  calc e.leaves = Token.words e.tokens := e.filterMap_tokens.symm
    _ = Token.words (e.tokens ++ [.stop]) := by simp [Token.words]
    _ = Token.words (Token.scan line) := by rw [hscan]

namespace Compiler

variable {α : Type u}

/-- The text that connects the conditions of words. -/
def connectives : String := "( ) AND OR not"

/-- A character that no connective has is in the SQL as often as it is in its conditions, of which
there is one for each word. -/
theorem count_sql_fragment (c : Compiler α) {x : Char} (hx : x ∉ connectives.toList) (e : Expr) :
    (c.fragment e).sql.toList.count x = c.condition.toList.count x * e.wordCount := by
  have hzero : ∀ {s : String}, s.toList ⊆ connectives.toList → s.toList.count x = 0 :=
    fun hs ↦ List.count_eq_zero.2 fun hmem ↦ hx (hs hmem)
  have hopen : "( ".toList.count x = 0 := hzero (by decide)
  have hclose : " )".toList.count x = 0 := hzero (by decide)
  induction e with
  | word w => simp [fragment, Expr.wordCount]
  | and l r ihl ihr =>
    have hand : " AND ".toList.count x = 0 := hzero (by decide)
    simp only [fragment, Expr.wordCount, String.toList_append, List.count_append, hopen, hclose,
      hand, ihl, ihr, Nat.mul_add]
    omega
  | or l r ihl ihr =>
    have hor : " OR ".toList.count x = 0 := hzero (by decide)
    simp only [fragment, Expr.wordCount, String.toList_append, List.count_append, hopen, hclose,
      hor, ihl, ihr, Nat.mul_add]
    omega
  | paren e ih =>
    simp only [fragment, Expr.wordCount, String.toList_append, List.count_append, hopen, hclose,
      ih]
    omega
  | exclude e ih =>
    have hnot : "( not ".toList.count x = 0 := hzero (by decide)
    simp only [fragment, Expr.wordCount, String.toList_append, List.count_append, hclose, hnot,
      ih]
    omega

theorem compile_eq_ok_iff {c : Compiler α} {line : String} {r : Compiled α} :
    c.compile line = .ok r ↔
      Expr.parse line c.limit = .ok r.tree ∧ r.toFragment = c.fragment r.tree := by
  unfold compile
  cases Expr.parse line c.limit with
  | error error => simp [Except.map]
  | ok e =>
    simp only [Except.map, Except.ok.injEq]
    constructor
    · rintro rfl
      exact ⟨rfl, rfl⟩
    · rintro ⟨rfl, h⟩
      rw [← h]

theorem compile_of_parse {c : Compiler α} {line : String} {e : Expr}
    (h : Expr.parse line c.limit = .ok e) :
    c.compile line = .ok { c.fragment e with tree := e } :=
  compile_eq_ok_iff.2 ⟨h, rfl⟩

/-- The words of a line are those of the expression that is compiled, read from left to right, and
each binds one value. A character that is in no connective is in the SQL as often as it is in a copy
of the template for each value. -/
theorem compile_binds_words (template : String) (value : String → α) (ibl : String → String)
    (limit : Nat) (line : String) (r : Compiled α)
    (h : ((((ofTemplate template).withValue value).withIbl ibl).withLimit limit).compile line =
      .ok r) :
    let words := Token.words (Token.scan line)
    r.tree.leaves = words ∧ r.tree.words = words.map Word.text ∧
      r.tree.wordCount = words.length ∧ r.values = (words.map Word.text).map value ∧
      ∀ x, x ∉ connectives.toList →
        r.sql.toList.count x = template.toList.count x * r.values.length := by
  intro words
  obtain ⟨hparse, hfragment⟩ := compile_eq_ok_iff.1 h
  have hleaves : r.tree.leaves = words := Expr.leaves_of_parse hparse
  have hwords : r.tree.words = words.map Word.text := by rw [Expr.words_eq, hleaves]
  have hvalues : r.values = r.tree.words.map value := by
    rw [hfragment]
    exact values_fragment _ r.tree
  refine ⟨hleaves, hwords, by rw [← hleaves, Expr.length_leaves], by rw [hvalues, hwords], ?_⟩
  intro x hx
  have hparens : ("(" ++ template ++ ")").toList.count x = template.toList.count x := by
    have hl : '(' ≠ x := by
      rintro rfl
      exact hx (by decide)
    have hr : ')' ≠ x := by
      rintro rfl
      exact hx (by decide)
    simp [hl, hr]
  rw [hvalues, List.length_map, Expr.length_words, hfragment, ← hparens]
  exact count_sql_fragment _ hx r.tree

/-- A word that is written twice is bound twice, and a template with two placeholders brings two for
each word. -/
theorem compile_binds_repeated_word :
    let c := (((ofTemplate "a LIKE ? OR b LIKE ?").withValue Word.likePattern).withIbl
      Word.strip).withLimit 20
    ∃ r, c.compile "(ß OR \"ß\") -x" = .ok r ∧
      r.tree.leaves = [.bare "ß", .quoted "ß", .bare "x"] ∧
      r.values = ["%ß%", "%ß%", "%x%"] ∧ r.sql.toList.count '?' = 6 := by
  intro c
  let tree : Expr := .and (.paren (.or (.word (.bare "ß")) (.word (.quoted "ß"))))
    (.exclude (.word (.bare "x")))
  have hparse : Expr.parse "(ß OR \"ß\") -x" 20 = .ok tree := by decide +kernel
  have hwords : Token.words (Token.scan "(ß OR \"ß\") -x") =
      [.bare "ß", .quoted "ß", .bare "x"] := by
    decide +kernel
  have h : c.compile "(ß OR \"ß\") -x" = .ok { c.fragment tree with tree := tree } :=
    compile_eq_ok_iff.2 ⟨hparse, rfl⟩
  obtain ⟨hleaves, -, -, hvalues, hcount⟩ := compile_binds_words _ _ _ 20 _ _ h
  rw [hwords] at hleaves hvalues
  have hvalues : (c.fragment tree).values = ["%ß%", "%ß%", "%x%"] := by
    rw [hvalues]
    decide +kernel
  have hcount := hcount '?' (by decide)
  rw [hvalues] at hcount
  exact ⟨_, h, hleaves, hvalues, hcount⟩

end Compiler

end SearchWords
