import SearchWords.Proofs.Compiler.Binding

/-!
# What is highlighted

The pieces to highlight are those of the words that are not excluded, however deep the exclusion
stands above a word, and also if a second one seems to take it back. To say so without the compiler,
`Expr.occurrences` lists the leaves of an expression with the operations above each of them.

A word that can be searched for has a piece with a text, since its pieces are the word without its
wildcards (`Word.flatten_cut`). So nothing is highlighted only where every word is excluded, and such
an expression is a complement (`Expr.isComplement_of_excluded`).
-/

namespace SearchWords

universe u

/-! ## Pieces of a word -/

namespace Word

/-- Cutting a text takes away its wildcards and nothing else. -/
theorem flatten_cut (cs : List Char) : (cut cs).flatten = cs.filter (· ≠ wildcard) := by
  fun_induction cut cs with
  | case1 => rfl
  | case2 cs _ ih => simpa using ih
  | case3 cs _ ih => simpa using ih
  | case4 c cs hc ih =>
    obtain ⟨p, ps, hcut⟩ := List.exists_cons_of_ne_nil (cut_ne_nil cs)
    rw [hcut] at ih ⊢
    simpa [hc] using ih

theorem mem_flatten_cut_iff {c : Char} {cs : List Char} :
    c ∈ (cut cs).flatten ↔ c ∈ cs ∧ c ≠ wildcard := by
  simp [flatten_cut]

theorem pieces_ne_nil (text : String) : pieces text ≠ [] := by
  simp [pieces, cut_ne_nil]

theorem wildcard_notMem_of_mem_pieces {text p : String} (h : p ∈ pieces text) :
    wildcard ∉ p.toList := by
  obtain ⟨cs, hcs, rfl⟩ := List.mem_map.1 h
  intro hmem
  rw [String.toList_ofList] at hmem
  exact (mem_flatten_cut_iff.1 (List.mem_flatten_of_mem hcs hmem)).2 rfl

/-- A word that can be searched for has a piece with a text. -/
theorem exists_mem_pieces_ne_empty {w : Word} (hw : w.isSearchable = true) :
    ∃ p ∈ pieces w.text, p ≠ "" := by
  obtain ⟨-, c, hc, hne⟩ := w.isSearchable_iff.1 hw
  obtain ⟨cs, hcs, hmem⟩ := List.mem_flatten.1 (mem_flatten_cut_iff.2 ⟨hc, hne⟩)
  refine ⟨String.ofList cs, List.mem_map_of_mem hcs, ?_⟩
  intro hempty
  have hnil : cs = [] := by simpa using congrArg String.toList hempty
  exact absurd hmem (hnil ▸ List.not_mem_nil)

end Word

/-! ## Words and what stands above them -/

namespace Expr

/-- A leaf with the operations that it stands under, the nearest first. -/
structure Occurrence where
  word : Word
  above : List Op
deriving DecidableEq, Repr

/-- The leaves from left to right of an expression that itself stands under `above`. -/
def occurrences (above : List Op) : Expr → List Occurrence
  | .word w => [⟨w, above⟩]
  | .and l r => l.occurrences (.and :: above) ++ r.occurrences (.and :: above)
  | .or l r => l.occurrences (.or :: above) ++ r.occurrences (.or :: above)
  | .paren e => e.occurrences (.paren :: above)
  | .exclude e => e.occurrences (.exclude :: above)

theorem map_word_occurrences (e : Expr) (above : List Op) :
    (e.occurrences above).map Occurrence.word = e.leaves := by
  induction e generalizing above with
  | word w => rfl
  | and l r ihl ihr => simp [occurrences, leaves, ihl, ihr]
  | or l r ihl ihr => simp [occurrences, leaves, ihl, ihr]
  | paren e ih => exact ih _
  | exclude e ih => exact ih _

theorem word_mem_leaves {e : Expr} {above : List Op} {o : Occurrence}
    (h : o ∈ e.occurrences above) : o.word ∈ e.leaves := by
  rw [← map_word_occurrences e above]
  exact List.mem_map_of_mem h

/-- What stands above an expression stands above its leaves. -/
theorem mem_above {op : Op} {e : Expr} {above : List Op} (hop : op ∈ above) :
    ∀ o ∈ e.occurrences above, op ∈ o.above := by
  induction e generalizing above with
  | word w => simpa [occurrences] using hop
  | and l r ihl ihr =>
    have hop := List.mem_cons_of_mem .and hop
    exact List.forall_mem_append.2 ⟨ihl hop, ihr hop⟩
  | or l r ihl ihr =>
    have hop := List.mem_cons_of_mem .or hop
    exact List.forall_mem_append.2 ⟨ihl hop, ihr hop⟩
  | paren e ih => exact ih (List.mem_cons_of_mem .paren hop)
  | exclude e ih => exact ih (List.mem_cons_of_mem .exclude hop)

/-- The leaves that no exclusion stands above. -/
def sought (above : List Op) (e : Expr) : List Occurrence :=
  (e.occurrences above).filter fun o ↦ .exclude ∉ o.above

theorem sought_and (above : List Op) (l r : Expr) :
    (Expr.and l r).sought above = l.sought (.and :: above) ++ r.sought (.and :: above) :=
  List.filter_append ..

theorem sought_or (above : List Op) (l r : Expr) :
    (Expr.or l r).sought above = l.sought (.or :: above) ++ r.sought (.or :: above) :=
  List.filter_append ..

theorem sought_exclude (above : List Op) (e : Expr) : (Expr.exclude e).sought above = [] := by
  refine List.filter_eq_nil_iff.2 ?_
  intro o ho
  have hmem : .exclude ∈ o.above := mem_above List.mem_cons_self o ho
  simpa using hmem

theorem sought_eq_nil_iff {e : Expr} {above : List Op} :
    e.sought above = [] ↔ ∀ o ∈ e.occurrences above, .exclude ∈ o.above := by
  simp [sought, List.filter_eq_nil_iff]

/-- An expression of which every word is excluded is a complement. -/
theorem isComplement_of_excluded {e : Expr} {above : List Op} (ha : .exclude ∉ above)
    (h : ∀ o ∈ e.occurrences above, .exclude ∈ o.above) : e.isComplement = true := by
  induction e generalizing above with
  | word w => exact absurd (h ⟨w, above⟩ (List.mem_singleton_self _)) ha
  | and l r ihl ihr =>
    obtain ⟨hl, hr⟩ := List.forall_mem_append.1 h
    have ha : .exclude ∉ Op.and :: above := by simpa using ha
    simp [isComplement, ihl ha hl, ihr ha hr]
  | or l r ihl _ =>
    obtain ⟨hl, -⟩ := List.forall_mem_append.1 h
    have ha : .exclude ∉ Op.or :: above := by simpa using ha
    simp [isComplement, ihl ha hl]
  | paren e ih => exact ih (by simpa using ha) h
  | exclude e _ => rfl

end Expr

namespace Compiler

variable {α : Type u}

/-- A word that is not excluded is highlighted with all of its pieces, and no other is. -/
theorem hits_fragment (c : Compiler α) (e : Expr) {above : List Expr.Op} (h : .exclude ∉ above) :
    (c.fragment e).hits = (e.sought above).flatMap fun o ↦ Word.pieces o.word.text := by
  induction e generalizing above with
  | word w => simp [fragment, Expr.sought, Expr.occurrences, h]
  | and l r ihl ihr =>
    have h : .exclude ∉ Expr.Op.and :: above := by simpa using h
    rw [Expr.sought_and, List.flatMap_append, ← ihl h, ← ihr h]
    rfl
  | or l r ihl ihr =>
    have h : .exclude ∉ Expr.Op.or :: above := by simpa using h
    rw [Expr.sought_or, List.flatMap_append, ← ihl h, ← ihr h]
    rfl
  | paren e ih =>
    have h : .exclude ∉ Expr.Op.paren :: above := by simpa using h
    exact ih h
  | exclude e _ =>
    rw [Expr.sought_exclude]
    rfl

/-- What is highlighted are the pieces of the words that no exclusion stands above, in order. Each of
these words has a piece with a text, and no piece has a wildcard. Nothing is highlighted just where
an exclusion stands above every word, and there the search is a complement. -/
theorem compile_hits (c : Compiler α) (line : String) (r : Compiled α)
    (h : c.compile line = .ok r) :
    (r.tree.occurrences []).map Expr.Occurrence.word = r.tree.leaves ∧
      r.hits = (r.tree.sought []).flatMap (fun o ↦ Word.pieces o.word.text) ∧
      (∀ o ∈ r.tree.sought [], ∃ p ∈ Word.pieces o.word.text, p ≠ "") ∧
      (∀ p ∈ r.hits, '*' ∉ p.toList) ∧
      (r.hits = [] ↔ ∀ o ∈ r.tree.occurrences [], .exclude ∈ o.above) ∧
      (r.hits = [] → r.isComplement = true) := by
  obtain ⟨hparse, hfragment⟩ := compile_eq_ok_iff.1 h
  obtain ⟨hbuild, -⟩ := Expr.parse_eq_ok_iff.1 hparse
  have hhits : r.hits = (r.tree.sought []).flatMap fun o ↦ Word.pieces o.word.text := by
    rw [hfragment]
    exact c.hits_fragment r.tree List.not_mem_nil
  have hnil : r.hits = [] ↔ ∀ o ∈ r.tree.occurrences [], .exclude ∈ o.above := by
    rw [hhits, List.flatMap_eq_nil_iff, ← Expr.sought_eq_nil_iff, List.eq_nil_iff_forall_not_mem]
    exact forall₂_congr fun o _ ↦ iff_of_false (Word.pieces_ne_nil o.word.text) id
  refine ⟨Expr.map_word_occurrences r.tree [], hhits, ?_, ?_, hnil, ?_⟩
  · intro o ho
    have hleaf := Expr.word_mem_leaves (List.mem_filter.1 ho).1
    exact Word.exists_mem_pieces_ne_empty (hbuild.searchable o.word hleaf)
  · intro p hp
    rw [hhits] at hp
    obtain ⟨o, -, hmem⟩ := List.mem_flatMap.1 hp
    exact Word.wildcard_notMem_of_mem_pieces hmem
  · intro hempty
    exact Expr.isComplement_of_excluded List.not_mem_nil (hnil.1 hempty)

/-- Two exclusions do not make up for each other, and an alternative does not help a word that is
excluded. -/
theorem compile_hits_exclusions :
    let c := ofTemplate "name = ?"
    (∃ r, c.compile "--(a OR b) -\"x y\"" = .ok r ∧ r.hits = [] ∧ r.isComplement = true) ∧
      ∃ r, c.compile "--a OR \"**b* c\" d*" = .ok r ∧ r.hits = ["", "b", " c", "d", ""] := by
  intro c
  let a : Expr := .word (.bare "a")
  let b : Expr := .word (.bare "b")
  let excluded : Expr :=
    .and (.exclude (.exclude (.paren (.or a b)))) (.exclude (.word (.quoted "x y")))
  let mixed : Expr :=
    .and (.or (.exclude (.exclude a)) (.word (.quoted "**b* c"))) (.word (.bare "d*"))
  have hparse : Expr.parse "--(a OR b) -\"x y\"" Expr.defaultRounds = .ok excluded := by
    decide +kernel
  have hparse' : Expr.parse "--a OR \"**b* c\" d*" Expr.defaultRounds = .ok mixed := by
    decide +kernel
  have h := compile_of_parse (c := c) hparse
  have h' := compile_of_parse (c := c) hparse'
  constructor
  · obtain ⟨-, -, -, -, hnil, hcomplement⟩ := compile_hits c _ _ h
    have hempty := hnil.2 (by decide)
    exact ⟨_, h, hempty, hcomplement hempty⟩
  · obtain ⟨-, hhits, -⟩ := compile_hits c _ _ h'
    refine ⟨_, h', ?_⟩
    rw [hhits]
    decide +kernel

end Compiler

end SearchWords
