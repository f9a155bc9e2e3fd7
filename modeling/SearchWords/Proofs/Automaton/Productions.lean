import Mathlib.Data.List.Zip
import SearchWords.Proofs.Automaton.Precedence

/-!
# Productions

A reduction looks for the first production whose form fits the right end of the stack, takes the
entries there off the stack, and makes an expression of them. Taking and making are written for any
list of entries, so each of them has an answer for a list that no form fits: a handle without a
token, and a handle that is not one of its production. This file shows that neither is ever given.

* `EndsIn` lists the stacks that the forms fit (`find?_eq_some_iff`), a constructor for each
  production. No stack is listed twice, so the order of the productions does not matter.
* The handle on such a stack has a token (`EndsIn.exists_terminal`), and nothing but a word that
  cannot be searched for keeps it from being built (`EndsIn.of_build_eq_error`).
* `Produces` adds to `EndsIn` what the handle is replaced by, and `reduce_eq_ok_iff` says that these
  are all reductions. `of_reduce_eq_error` gives the three reasons for which there is none.
-/

namespace SearchWords.Automaton

variable {stack : Stack} {p : Production}

/-! ## Forms -/

theorem accepts_reduced_iff {entry : Entry} :
    Slot.reduced.accepts entry = true ↔ ∃ e height, entry = .node e height := by
  cases entry <;> simp [Slot.accepts]

theorem accepts_terminal_iff {kind : Token.Kind} {entry : Entry} :
    (Slot.terminal kind).accepts entry = true ↔
      ∃ token index, entry = .terminal token index ∧ token.kind = kind := by
  cases entry <;> simp [Slot.accepts]

/-- A form fits a stack if its places accept the entries of the handle, one by one. -/
theorem fits_iff :
    p.fits stack = true ↔
      List.Forall₂ (fun slot entry ↦ Slot.accepts slot entry = true) p.form (p.handle stack) := by
  have hlength : p.form.length = (p.handle stack).length ↔ p.form.length ≤ stack.length := by
    rw [Production.handle, List.length_reverse, List.length_take]
    omega
  rw [List.forall₂_iff_zip, hlength, Production.fits, Bool.and_eq_true, decide_eq_true_eq,
    List.all_eq_true, Prod.forall]
  refine and_congr_right fun _ ↦ ⟨?_, ?_⟩
  · intro h slot entry hmem
    exact h entry slot (by rw [← List.zip_swap]; exact List.mem_map_of_mem hmem)
  · intro h entry slot hmem
    exact h (by rw [← List.zip_swap]; exact List.mem_map_of_mem hmem)

/-- The two operators have the same form but for their token. -/
theorem exists_of_operator {kind : Token.Kind} {handle : List Entry}
    (h : List.Forall₂ (fun slot entry ↦ Slot.accepts slot entry = true)
      [.reduced, .terminal kind, .reduced] handle) :
    ∃ l hl token index r hr,
      handle = [.node l hl, .terminal token index, .node r hr] ∧ token.kind = kind := by
  rcases h with _ | ⟨hleft, _ | ⟨hop, _ | ⟨hright, _ | _⟩⟩⟩
  obtain ⟨l, hl, rfl⟩ := accepts_reduced_iff.1 hleft
  obtain ⟨token, index, rfl, hkind⟩ := accepts_terminal_iff.1 hop
  obtain ⟨r, hr, rfl⟩ := accepts_reduced_iff.1 hright
  exact ⟨l, hl, token, index, r, hr, rfl, hkind⟩

/-- `EndsIn stack p`: a handle of the production `p` stands at the right end of `stack`. -/
inductive EndsIn : Stack → Production → Prop where
  | word {w : Word} {index : Option Nat} {below : Stack} :
      EndsIn (.terminal (.word w) index :: below) .word
  | and {l r : Expr} {hl hr : Nat} {index : Option Nat} {below : Stack} :
      EndsIn (.node r hr :: .terminal .and index :: .node l hl :: below) .and
  | or {l r : Expr} {hl hr : Nat} {index : Option Nat} {below : Stack} :
      EndsIn (.node r hr :: .terminal .or index :: .node l hl :: below) .or
  | paren {e : Expr} {h : Nat} {left right : Option Nat} {below : Stack} :
      EndsIn (.terminal .rparen right :: .node e h :: .terminal .lparen left :: below) .paren
  | exclude {e : Expr} {h : Nat} {index : Option Nat} {below : Stack} :
      EndsIn (.node e h :: .terminal .exclude index :: below) .exclude

namespace EndsIn

theorem mem_productions (h : EndsIn stack p) : p ∈ productions := by
  cases h <;> decide

theorem fits (h : EndsIn stack p) : p.fits stack = true := by
  cases h <;> rfl

theorem unique {q : Production} (h : EndsIn stack p) (h' : EndsIn stack q) : p = q := by
  cases h <;> cases h' <;> rfl

theorem of_fits (hp : p ∈ productions) (h : p.fits stack = true) : EndsIn stack p := by
  have hsplit : stack = (p.handle stack).reverse ++ stack.drop p.form.length := by
    simp [Production.handle]
  have hall := fits_iff.1 h
  clear h
  -- What is known of the handle now is said place by place, and the form has one to three of them.
  generalize p.handle stack = handle at hall hsplit
  generalize stack.drop p.form.length = below at hsplit
  subst hsplit
  simp only [productions, List.mem_cons, List.not_mem_nil, or_false] at hp
  rcases hp with rfl | rfl | rfl | rfl | rfl
  · rcases hall with _ | ⟨hword, _ | _⟩
    obtain ⟨token, index, rfl, hkind⟩ := accepts_terminal_iff.1 hword
    cases token <;> cases hkind
    exact .word
  · obtain ⟨l, hl, token, index, r, hr, rfl, hkind⟩ := exists_of_operator hall
    cases token <;> cases hkind
    exact .and
  · obtain ⟨l, hl, token, index, r, hr, rfl, hkind⟩ := exists_of_operator hall
    cases token <;> cases hkind
    exact .or
  · rcases hall with _ | ⟨hleft, _ | ⟨he, _ | ⟨hright, _ | _⟩⟩⟩
    obtain ⟨token, left, rfl, hkind⟩ := accepts_terminal_iff.1 hleft
    obtain ⟨e, h, rfl⟩ := accepts_reduced_iff.1 he
    obtain ⟨token', right, rfl, hkind'⟩ := accepts_terminal_iff.1 hright
    cases token <;> cases hkind
    cases token' <;> cases hkind'
    exact .paren
  · rcases hall with _ | ⟨hop, _ | ⟨he, _ | _⟩⟩
    obtain ⟨token, index, rfl, hkind⟩ := accepts_terminal_iff.1 hop
    obtain ⟨e, h, rfl⟩ := accepts_reduced_iff.1 he
    cases token <;> cases hkind
    exact .exclude

theorem of_find? (h : productions.find? (·.fits stack) = some p) : EndsIn stack p :=
  of_fits (List.mem_of_find?_eq_some h) (List.find?_some (p := fun q : Production ↦ q.fits stack) h)

end EndsIn

/-- The production that is taken is the one whose handle stands at the right end of the stack. -/
theorem find?_eq_some_iff : productions.find? (·.fits stack) = some p ↔ EndsIn stack p := by
  refine ⟨.of_find?, ?_⟩
  intro h
  cases hfind : productions.find? (·.fits stack) with
  | none => exact absurd h.fits (List.find?_eq_none.1 hfind p h.mem_productions)
  | some q => rw [h.unique (.of_find? hfind)]

theorem find?_eq_none_iff :
    productions.find? (·.fits stack) = none ↔ ∀ p, ¬EndsIn stack p := by
  simp only [← find?_eq_some_iff, Option.eq_none_iff_forall_ne_some, ne_eq]

theorem EndsIn.reduce_eq (h : EndsIn stack p) : reduce stack = p.read stack := by
  rw [reduce, find?_eq_some_iff.2 h]

/-! ## The expression of a handle -/

/-- A word becomes an expression just when it is searchable: the empty text has no character but
wildcards either. -/
theorem leaf_eq_ok_iff {w : Word} {index : Option Nat} {e : Expr} :
    leaf w index = .ok e ↔ w.isSearchable = true ∧ e = .word w := by
  unfold leaf Word.isSearchable
  split
  · next h => simp [h, Word.onlyWildcards]
  · split
    · next h => simp [h]
    · next h => simp [h, eq_comm]

/-- A word is refused for having no text, or no character but wildcards. -/
theorem of_leaf_eq_error {w : Word} {index : Option Nat} {failure : Failure}
    (h : leaf w index = .error failure) :
    (w.text = "" ∧ failure = .malformed .emptyPhrase index) ∨
      (w.text ≠ "" ∧ Word.onlyWildcards w.text = true ∧
        failure = .malformed .onlyWildcards index) := by
  unfold leaf at h
  split at h
  · next hempty => exact .inl ⟨hempty, (Except.error.inj h).symm⟩
  · split at h
    · next hne hall => exact .inr ⟨hne, hall, (Except.error.inj h).symm⟩
    · cases h

/-- There is a token in every form. -/
theorem EndsIn.exists_terminal (h : EndsIn stack p) :
    ∃ leftmost index, (p.handle stack).findSome? Entry.terminal? = some (leftmost, index) := by
  cases h <;> exact ⟨_, _, rfl⟩

/-- The entries that a form accepts are those that an expression is made of, so a handle is refused
only for what its word says. -/
theorem EndsIn.of_build_eq_error {failure : Failure} (h : EndsIn stack p)
    (hbuild : build p.op (p.handle stack) = .error failure) :
    ∃ w index below, stack = .terminal (.word w) index :: below ∧
      leaf w index = .error failure := by
  cases h with
  | word => exact ⟨_, _, _, rfl, hbuild⟩
  | and => cases hbuild
  | or => cases hbuild
  | paren => cases hbuild
  | exclude => cases hbuild

/-! ## Reductions -/

/-- `Produces stack r`: a handle stands at the right end of `stack`, and `r` is that handle read as
an expression. There is a constructor for each production, the two operators sharing one. The limit
on heights is no part of them. -/
inductive Produces : Stack → Reduction → Prop where
  | word {w : Word} {index : Option Nat} {below : Stack} (hw : w.isSearchable = true) :
      Produces (.terminal (.word w) index :: below) ⟨.word, .word w, 1, .word, below⟩
  | join {op : Token} {l r e : Expr} {hl hr : Nat} {index : Option Nat} {below : Stack}
      (h : Expr.Joins op l r e) :
      Produces (.node r hr :: .terminal op index :: .node l hl :: below)
        ⟨e.op, e, max hl hr + 1, op.kind, below⟩
  | paren {e : Expr} {h : Nat} {left right : Option Nat} {below : Stack} :
      Produces (.terminal .rparen right :: .node e h :: .terminal .lparen left :: below)
        ⟨.paren, .paren e, h + 1, .lparen, below⟩
  | exclude {e : Expr} {h : Nat} {index : Option Nat} {below : Stack} :
      Produces (.node e h :: .terminal .exclude index :: below)
        ⟨.exclude, .exclude e, h + 1, .exclude, below⟩

/-- The operation of the production, which is the one that is logged, is that of the expression. -/
theorem Produces.op_eq {r : Reduction} (h : Produces stack r) : r.op = r.expr.op := by
  cases h <;> rfl

/-- The productions are all that a reduction can do. -/
theorem reduce_eq_ok_iff {r : Reduction} :
    reduce stack = .ok r ↔ Produces stack r ∧ r.height ≤ maxHeight := by
  constructor
  · intro h
    cases hfind : productions.find? (·.fits stack) with
    | none => simp [reduce, hfind] at h
    | some p =>
      have hp := find?_eq_some_iff.1 hfind
      rw [hp.reduce_eq] at h
      obtain ⟨leftmost, index, expr, hfound, hheight, hbuild, rfl⟩ :=
        Production.read_eq_ok_iff.1 h
      refine ⟨?_, hheight⟩
      cases hp with
      | word =>
        obtain ⟨hw, rfl⟩ := leaf_eq_ok_iff.1 hbuild
        cases hfound
        exact .word hw
      | and =>
        cases hfound
        cases hbuild
        exact .join (.and _ _)
      | or =>
        cases hfound
        cases hbuild
        exact .join (.or _ _)
      | paren =>
        cases hfound
        cases hbuild
        exact .paren
      | exclude =>
        cases hfound
        cases hbuild
        exact .exclude
  · rintro ⟨hp, hheight⟩
    cases hp with
    | word hw =>
      exact EndsIn.word.reduce_eq.trans <|
        Production.read_eq_ok_iff.2 ⟨_, _, _, rfl, hheight, leaf_eq_ok_iff.2 ⟨hw, rfl⟩, rfl⟩
    | join h =>
      cases h with
      | and =>
        exact EndsIn.and.reduce_eq.trans <|
          Production.read_eq_ok_iff.2 ⟨_, _, _, rfl, hheight, rfl, rfl⟩
      | or =>
        exact EndsIn.or.reduce_eq.trans <|
          Production.read_eq_ok_iff.2 ⟨_, _, _, rfl, hheight, rfl, rfl⟩
    | paren =>
      exact EndsIn.paren.reduce_eq.trans <|
        Production.read_eq_ok_iff.2 ⟨_, _, _, rfl, hheight, rfl, rfl⟩
    | exclude =>
      exact EndsIn.exclude.reduce_eq.trans <|
        Production.read_eq_ok_iff.2 ⟨_, _, _, rfl, hheight, rfl, rfl⟩

/-- Why the handle at the right end of a stack is not replaced: it is a word that cannot be searched
for, or its expression would be too high, or there is none. -/
theorem of_reduce_eq_error {failure : Failure} (h : reduce stack = .error failure) :
    (∃ w index below, stack = .terminal (.word w) index :: below ∧
        leaf w index = .error failure) ∨
      failure = .tooDeep maxHeight ∨
      (∀ p, ¬EndsIn stack p) ∧ failure = blame stack := by
  unfold reduce at h
  split at h
  · next hfind => exact .inr (.inr ⟨find?_eq_none_iff.1 hfind, (Except.error.inj h).symm⟩)
  · next p hfind =>
    have hp := find?_eq_some_iff.1 hfind
    obtain ⟨leftmost, index, hfound⟩ := hp.exists_terminal
    simp only [Production.read, hfound] at h
    split at h
    · exact .inr (.inl (Except.error.inj h).symm)
    · split at h
      · next hbuild =>
        obtain rfl := Except.error.inj h
        exact .inl (hp.of_build_eq_error hbuild)
      · cases h

/-- The failure of a reduction lies in the form of the line or in its depth. -/
theorem malformed_or_tooDeep_of_reduce {failure : Failure} (h : reduce stack = .error failure) :
    (∃ fault index, failure = .malformed fault index) ∨ failure = .tooDeep maxHeight := by
  rcases of_reduce_eq_error h with ⟨w, index, below, -, hl⟩ | hdeep | ⟨-, hblame⟩
  · rcases of_leaf_eq_error hl with ⟨-, hf⟩ | ⟨-, -, hf⟩
    · exact .inl ⟨_, _, hf⟩
    · exact .inl ⟨_, _, hf⟩
  · exact .inr hdeep
  · unfold blame at hblame
    split at hblame
    · exact .inl ⟨_, _, hblame⟩
    · exact .inl ⟨_, _, hblame⟩

/-- Neither of the two answers for lists that no form fits is ever given. -/
theorem reduce_ne_internal (stack : Stack) (message : String) :
    reduce stack ≠ .error (.internal message) := by
  intro h
  rcases malformed_or_tooDeep_of_reduce h with ⟨_, _, hf⟩ | hf <;> cases hf

end SearchWords.Automaton
