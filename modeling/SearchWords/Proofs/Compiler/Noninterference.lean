import Mathlib.Data.List.Forall2
import SearchWords.Compiler
import SearchWords.Proofs.Automaton.Renaming

/-!
# The SQL of a search carries no text of its words

Two lines are similar when their tokens are of the same kinds and their words of the same classes.
Replacing each word by a fixed word of its class (`Word.mask`) turns both into the same line of
tokens, and the automaton commutes with that replacement. So similar lines have expressions that
differ in their words only, or fail alike (`ofTokens_of_similar`). The SQL of an expression has one
copy of a condition for each word, whatever the word (`sql_fragment_mapWords`). Together: the words
of a line reach the values that are bound and never the SQL they are bound to.
-/

namespace SearchWords

universe u

/-! ## Similar lines -/

/-- A fixed word for each class. -/
def Word.mask (w : Word) : Word :=
  match w.toClass with
  | .empty => .bare ""
  | .wildcards => .bare "*"
  | .searchable => .bare "a"

theorem Word.toClass_mask (w : Word) : w.mask.toClass = w.toClass := by
  unfold mask
  cases w.toClass <;> decide

/-- Tokens that differ in the text of a word at most, and not in the class of that word. -/
structure Token.Similar (t u : Token) : Prop where
  kind_eq : t.kind = u.kind
  toClass_eq : ∀ w v, t = .word w → u = .word v → w.toClass = v.toClass

theorem Token.similar_iff {t u : Token} :
    t.Similar u ↔ t.mapWord Word.mask = u.mapWord Word.mask := by
  constructor
  · rintro ⟨hkind, hclass⟩
    cases t with
    | word w =>
      obtain ⟨v, rfl⟩ : ∃ v, u = .word v := by
        cases u <;> simp_all [kind]
      simp only [mapWord, Word.mask, hclass w v rfl rfl]
    | _ => cases u <;> simp_all [kind, mapWord]
  · intro h
    refine ⟨by simpa using congrArg kind h, ?_⟩
    rintro w v rfl rfl
    rw [← w.toClass_mask, ← v.toClass_mask, Token.word.inj h]

instance (t u : Token) : Decidable (t.Similar u) :=
  decidable_of_iff _ Token.similar_iff.symm

theorem Token.map_mask_eq {ts us : List Token} (h : List.Forall₂ Token.Similar ts us) :
    ts.map (Token.mapWord Word.mask) = us.map (Token.mapWord Word.mask) := by
  induction h with
  | nil => rfl
  | cons htu _ ih => rw [List.map_cons, List.map_cons, Token.similar_iff.1 htu, ih]

namespace Expr

/-- An expression without its words. -/
def skeleton (e : Expr) : Expr :=
  e.mapWords fun _ ↦ .bare ""

@[simp] theorem skeleton_mapWords (f : Word → Word) (e : Expr) :
    (e.mapWords f).skeleton = e.skeleton :=
  e.mapWords_mapWords f _

theorem ofTokens_mapWord {f : Word → Word} (hf : ∀ w, (f w).toClass = w.toClass)
    (tokens : List Token) (limit : Nat) :
    ofTokens (tokens.map (Token.mapWord f)) limit =
      (ofTokens tokens limit).map (Expr.mapWords f) := by
  rw [ofTokens, Automaton.run_mapWords hf]
  rfl

/-- The parse of a line depends on the classes of its words only: similar lines fail alike, down to
the token that is blamed, or have expressions that differ in their words. -/
theorem ofTokens_of_similar {ts us : List Token} (h : List.Forall₂ Token.Similar ts us)
    (limit : Nat) :
    (∃ failure, ofTokens ts limit = .error failure ∧ ofTokens us limit = .error failure) ∨
      ∃ e e', ofTokens ts limit = .ok e ∧ ofTokens us limit = .ok e' ∧
        e.skeleton = e'.skeleton := by
  have hmask : (ofTokens ts limit).map (mapWords Word.mask) =
      (ofTokens us limit).map (mapWords Word.mask) := by
    rw [← ofTokens_mapWord Word.toClass_mask, Token.map_mask_eq h,
      ofTokens_mapWord Word.toClass_mask]
  cases ht : ofTokens ts limit with
  | error failure =>
    cases hu : ofTokens us limit with
    | error failure' =>
      rw [ht, hu] at hmask
      obtain rfl : failure = failure' := Except.error.inj hmask
      exact .inl ⟨failure, rfl, rfl⟩
    | ok e' =>
      rw [ht, hu] at hmask
      cases hmask
  | ok e =>
    cases hu : ofTokens us limit with
    | error failure' =>
      rw [ht, hu] at hmask
      cases hmask
    | ok e' =>
      rw [ht, hu] at hmask
      have hmask : e.mapWords Word.mask = e'.mapWords Word.mask := Except.ok.inj hmask
      refine .inr ⟨e, e', rfl, rfl, ?_⟩
      rw [← skeleton_mapWords Word.mask e, hmask, skeleton_mapWords]

theorem isComplement_mapWords (f : Word → Word) (e : Expr) :
    (e.mapWords f).isComplement = e.isComplement := by
  induction e with
  | word w => rfl
  | and l r ihl ihr => simp [mapWords, isComplement, ihl, ihr]
  | or l r ihl ihr => simp [mapWords, isComplement, ihl, ihr]
  | paren e ih => simp [mapWords, isComplement, ih]
  | exclude e ih => rfl

end Expr

/-! ## Similar results -/

/-- The kind of a failure, without what it says. -/
inductive Failure.Kind where
  | malformed
  | complexity
  | tooDeep
  | internal
deriving DecidableEq, Repr

def Failure.kind : Failure → Failure.Kind
  | .malformed _ _ => .malformed
  | .complexity _ => .complexity
  | .tooDeep _ => .tooDeep
  | .internal _ => .internal

/-- The byte offset of the token with the given index. -/
def Token.offset? (line : String) (index : Nat) : Option Nat :=
  (Token.placed line)[index]?.map Token.Placed.offset

/-- Errors of two lines that say the same of the token with the given index. -/
structure QueryError.Similar (line line' : String) (index : Option Nat) (e e' : QueryError) :
    Prop where
  kind_eq : e.failure.kind = e'.failure.kind
  message_eq : e.message = e'.message
  limit_eq : e.failure.limit? = e'.failure.limit?
  place_left : e.failure.place? = index.bind (Token.offset? line)
  place_right : e'.failure.place? = index.bind (Token.offset? line')

/-- A failure that is told against two lines says the same of both. -/
theorem QueryError.similar_locate (line line' : String) (failure : Failure) :
    QueryError.Similar line line' failure.place? (Expr.locate line failure)
      (Expr.locate line' failure) := by
  cases failure <;> exact ⟨rfl, rfl, rfl, rfl, rfl⟩

/-- Results that differ in what words are allowed to reach: the values that are bound, the
boolean-mode expression, the pieces to highlight, and the words of the expression. -/
structure Compiled.Similar {α : Type u} (r r' : Compiled α) : Prop where
  sql_eq : r.sql = r'.sql
  isComplement_eq : r.isComplement = r'.isComplement
  skeleton_eq : r.tree.skeleton = r'.tree.skeleton

namespace Compiler

variable {α : Type u}

theorem sql_fragment_mapWords (c : Compiler α) (f : Word → Word) (e : Expr) :
    (c.fragment (e.mapWords f)).sql = (c.fragment e).sql := by
  induction e with
  | word w => rfl
  | and l r ihl ihr => simp [Expr.mapWords, fragment, ihl, ihr]
  | or l r ihl ihr => simp [Expr.mapWords, fragment, ihl, ihr]
  | paren e ih => simp [Expr.mapWords, fragment, ih]
  | exclude e ih => simp [Expr.mapWords, fragment, ih]

theorem compile_eq (c : Compiler α) (line : String) :
    c.compile line =
      match Expr.ofTokens (Token.scan line) c.limit with
      | .error failure => .error (Expr.locate line failure)
      | .ok e => .ok { c.fragment e with tree := e } := by
  unfold compile Expr.parse
  cases Expr.ofTokens (Token.scan line) c.limit <;> rfl

/-- Lines with tokens of the same kinds and words of the same classes are both refused, for the
same reason at the same token, or both compiled, to the same SQL. -/
theorem compile_of_similar (c : Compiler α) (line line' : String)
    (h : List.Forall₂ Token.Similar (Token.scan line) (Token.scan line')) :
    (∃ (failure : Failure) (e e' : QueryError),
        Expr.ofTokens (Token.scan line) c.limit = .error failure ∧
        Expr.ofTokens (Token.scan line') c.limit = .error failure ∧
        c.compile line = .error e ∧ c.compile line' = .error e' ∧
        QueryError.Similar line line' failure.place? e e') ∨
      ∃ r r' : Compiled α,
        c.compile line = .ok r ∧ c.compile line' = .ok r' ∧ r.Similar r' := by
  rw [compile_eq, compile_eq]
  rcases Expr.ofTokens_of_similar h c.limit with ⟨failure, hl, hr⟩ | ⟨e, e', hl, hr, he⟩
  · rw [hl, hr]
    exact .inl ⟨failure, _, _, rfl, rfl, rfl, rfl, QueryError.similar_locate line line' failure⟩
  · rw [hl, hr]
    refine .inr ⟨_, _, rfl, rfl, ?_, ?_, he⟩
    · calc (c.fragment e).sql = (c.fragment e.skeleton).sql :=
          (c.sql_fragment_mapWords _ e).symm
        _ = (c.fragment e'.skeleton).sql := by rw [he]
        _ = (c.fragment e').sql := c.sql_fragment_mapWords _ e'
    · calc e.isComplement = e.skeleton.isComplement := (e.isComplement_mapWords _).symm
        _ = e'.skeleton.isComplement := by rw [he]
        _ = e'.isComplement := e'.isComplement_mapWords _

/-- What would end a condition and start a statement of its own is but the text of a word. -/
theorem compile_hostile_words :
    let c := Compiler.ofTemplate "name = ?"
    let line := "red OR -\"white wine\""
    let line' := "\"'); DROP TABLE wine;\" OR -1"
    List.Forall₂ Token.Similar (Token.scan line) (Token.scan line') ∧
      ∃ r r' : Compiled String,
        c.compile line = .ok r ∧ c.compile line' = .ok r' ∧ r.Similar r' := by
  intro c line line'
  have h : List.Forall₂ Token.Similar (Token.scan line) (Token.scan line') := by
    decide +kernel
  refine ⟨h, ?_⟩
  rcases compile_of_similar c line line' h with ⟨_, _, _, -, -, hline, -⟩ | hok
  · have hisOk : (c.compile line).isOk = true := by decide +kernel
    rw [hline] at hisOk
    cases hisOk
  · exact hok

end Compiler

end SearchWords
