import SearchWords.Proofs.Automaton.Faults
import SearchWords.Proofs.Automaton.Limit
import SearchWords.Proofs.Expr.Recognition

/-!
# Expressions beyond a limit

The tokens of an expression have none of the faults that a line can have. Behind the end of a term no
term starts, and behind everything else one does (`isChain_marked`), so no operator lacks an operand.
If the words can be searched for as well, no run on these tokens calls them malformed
(`ofTokens_ne_malformed`).

That leaves two ways to fail. No two canonical expressions have the same tokens, so where one is too
high its tokens have no expression that could be built instead. A run on them fails, and it does so
at the height or at the limit on rounds, whichever it meets first (`ofTokens_beyond`).
-/

namespace SearchWords

open Token

/-! ## Neighbours in an expression -/

/-- The tokens of a term go on: `b` starts a term if and only if none ends with `a`. -/
def Token.Continues (a b : Token) : Prop :=
  b.startsTerm = !a.endsTerm

namespace Token.Continues

variable {a b : Token}

theorem of_startsTerm (ha : a.endsTerm = false) (hb : b.startsTerm = true) : Continues a b := by
  rw [Continues, hb, ha, Bool.not_false]

theorem of_endsTerm (ha : a.endsTerm = true) (hb : b.startsTerm = false) : Continues a b := by
  rw [Continues, hb, ha, Bool.not_true]

theorem adjacent (h : Continues a b) : Adjacent a b where
  startsTerm_of_endsTerm ha := by rw [h, ha, Bool.not_true]
  endsTerm_of_and hb := by simpa [Continues, hb, startsTerm] using h
  startsTerm_of_and ha := by simpa [Continues, ha, endsTerm] using h

end Token.Continues

namespace Expr

/-- Between two tokens that are no part of a term, the tokens of an expression are a term. -/
theorem isChain_tokens (e : Expr) {a b : Token} {after : List Token} (ha : a.endsTerm = false)
    (hb : b.startsTerm = false) (h : (b :: after).IsChain Continues) :
    (a :: (e.tokens ++ b :: after)).IsChain Continues := by
  induction e generalizing a b after with
  | word w => exact .cons_cons (.of_startsTerm ha rfl) (.cons_cons (.of_endsTerm rfl hb) h)
  | and l r ihl ihr | or l r ihl ihr =>
    rw [tokens, List.append_assoc, List.cons_append]
    exact ihl ha rfl (ihr rfl hb h)
  | paren e ih =>
    rw [tokens, List.append_assoc]
    exact .cons_cons (.of_startsTerm ha rfl) (ih rfl rfl (.cons_cons (.of_endsTerm rfl hb) h))
  | exclude e ih => exact .cons_cons (.of_startsTerm ha rfl) (ih rfl hb h)

/-- The tokens of an expression between markers. -/
theorem isChain_marked (e : Expr) : (.stop :: (e.tokens ++ [.stop])).IsChain Continues :=
  e.isChain_tokens rfl rfl (.singleton _)

section

variable {e : Expr} {before after : List Token}

/-- The same of two tokens that stand side by side. -/
theorem startsTerm_of_tokens_eq (before : List Token) {a b : Token}
    (h : .stop :: (e.tokens ++ [.stop]) = before ++ a :: b :: after) (ha : a.endsTerm = false) :
    b.startsTerm = true := by
  have hchain := e.isChain_marked
  rw [h] at hchain
  have hab : Continues a b := (List.isChain_cons_cons.1 hchain.right_of_append).1
  rw [hab, ha, Bool.not_false]

theorem balanced_marked (e : Expr) : Balanced (e.tokens ++ [.stop]) :=
  e.balanced_tokens.append (.of_notMem (by simp) (by simp))

theorem mem_leaves_of_tokens_eq {w : Word} (h : e.tokens ++ [.stop] = before ++ .word w :: after) :
    w ∈ e.leaves := by
  have hmem : Token.word w ∈ e.tokens ++ [.stop] := by
    rw [h]
    exact List.mem_append_right _ List.mem_cons_self
  rcases List.mem_append.1 hmem with hmem | hmem
  · exact word_mem_tokens_iff.1 hmem
  · cases List.mem_singleton.1 hmem

/-! ## Faults that an expression does not have -/

variable (hw : ∀ w ∈ e.leaves, w.isSearchable = true)
include hw

theorem not_faulty {message : String} {token : Token}
    (h : e.tokens ++ [.stop] = before ++ token :: after) : ¬Faulty message before token after := by
  have hbalanced := e.balanced_marked
  have hmissing : ∀ {next : Token}, next ∈ [Token.or, .rparen, .stop] → next.startsTerm = false := by
    intro next hnext
    cases next <;> first | rfl | simp at hnext
  intro hf
  cases hf with
  | unclosedParen hafter =>
    -- What stands in front of the parenthesis would have closed one more than it has opened.
    have hnested := hbalanced.nested before ⟨_, h.symm⟩
    have hclosed := hbalanced.closed
    rw [h, List.count_append, List.count_append, List.count_cons_self,
      List.count_cons_of_ne (by simp), hafter.closed] at hclosed
    omega
  | unmatchedParen hover _ =>
    have hprefix : before ++ [.rparen] <+: e.tokens ++ [.stop] :=
      ⟨after, by rw [h, List.append_assoc, List.singleton_append]⟩
    exact absurd hover (Nat.not_lt.2 (hbalanced.nested _ hprefix))
  | @emptyGroup before =>
    rw [List.append_assoc] at h
    cases startsTerm_of_tokens_eq (.stop :: before) (congrArg (.stop :: ·) h) rfl
  | orFirst => cases startsTerm_of_tokens_eq [] (congrArg (.stop :: ·) h) rfl
  | @orOpened before =>
    rw [List.append_assoc] at h
    cases startsTerm_of_tokens_eq (.stop :: before) (congrArg (.stop :: ·) h) rfl
  | orLast hnext | excludeLast hnext =>
    have hstarts := startsTerm_of_tokens_eq (.stop :: before) (congrArg (.stop :: ·) h) rfl
    rw [hmissing hnext] at hstarts
    cases hstarts
  | onlyWildcards hne hall =>
    obtain ⟨-, c, hc, hnot⟩ := (Word.isSearchable_iff _).1 (hw _ (mem_leaves_of_tokens_eq h))
    exact hnot (hall c hc)

theorem not_explained (f : Fault) (index : Option Nat) :
    ¬Automaton.Explained (e.tokens ++ [.stop]) f index := by
  intro h
  cases h with
  | noWords heq => simp at heq
  | emptyPhrase heq _ hempty =>
    exact ((Word.isSearchable_iff _).1 (hw _ (mem_leaves_of_tokens_eq heq))).1 hempty
  | faulty heq _ hf => exact not_faulty hw heq hf

/-- No run finds a fault in the tokens of an expression. -/
theorem ofTokens_ne_malformed (limit : Nat) (f : Fault) (place : Option Nat) :
    ofTokens (e.tokens ++ [.stop]) limit ≠ .error (.malformed f place) := by
  intro h
  have hadj := e.isChain_marked.imp fun _ _ ↦ Continues.adjacent
  exact not_explained hw f place (Automaton.explained_of_run e.stop_notMem_tokens hadj h)

/-- So a run on them that is not cut off stops at the height, if it fails. -/
theorem eq_tooDeep_of_fails {limit : Nat} {failure : Failure} {s : Automaton.State}
    (h : ofTokens (e.tokens ++ [.stop]) limit = .error failure)
    (hs : Automaton.Reachable (e.tokens ++ [.stop]) s) (hfails : Automaton.Fails s failure) :
    failure = .tooDeep 256 := by
  rcases hfails.malformed_or_tooDeep hs.anchored with ⟨f, place, rfl⟩ | hdeep
  · exact absurd h (ofTokens_ne_malformed hw limit f place)
  · exact hdeep

end

/-! ## Limits -/

/-- A canonical expression that is too high is not built, and neither is another one from its
tokens. -/
theorem exists_error_of_height_lt {e : Expr} (hc : e.isCanonical = true) (hh : 256 < e.height)
    (limit : Nat) : ∃ failure, ofTokens (e.tokens ++ [.stop]) limit = .error failure := by
  cases h : ofTokens (e.tokens ++ [.stop]) limit with
  | error failure => exact ⟨failure, rfl⟩
  | ok e' =>
    obtain ⟨hbuild, htokens, -⟩ := (ofTokens_eq_ok_iff_buildable e.stop_notMem_tokens).1 h
    obtain rfl := eq_of_tokens_eq hbuild.canonical hc htokens
    exact absurd hbuild.height_le (Nat.not_le.2 hh)

theorem takeWhile_tokens (e : Expr) :
    (e.tokens ++ [Token.stop]).takeWhile (· ≠ .stop) = e.tokens := by
  rw [List.takeWhile_append_of_pos, List.takeWhile_cons_of_neg (by simp), List.append_nil]
  intro t ht
  exact decide_eq_true (ne_of_mem_of_not_mem ht e.stop_notMem_tokens)

/-- What becomes of the tokens of a canonical expression whose words can be searched for, beyond a
limit. If the expression is not too high, every limit below its cost cuts the run off. If it is, the
run stops at its height or is cut off, and it stops at the height if there are two rounds for each
token and one to end the run. -/
theorem ofTokens_beyond (e : Expr) (hc : e.isCanonical = true)
    (hw : ∀ w ∈ e.leaves, w.text ≠ "" ∧ ∃ c ∈ w.text.toList, c ≠ '*') (limit : Nat) :
    (e.height ≤ 256 →
        limit < 2 * e.ops.count .word + 2 * e.ops.count .and + 2 * e.ops.count .or +
          3 * e.ops.count .paren + e.ops.count .exclude + e.exclusionRuns false + 1 →
        ofTokens (e.tokens ++ [.stop]) limit = .error (.complexity limit)) ∧
      (256 < e.height →
        (ofTokens (e.tokens ++ [.stop]) limit = .error (.tooDeep 256) ∨
            ofTokens (e.tokens ++ [.stop]) limit = .error (.complexity limit)) ∧
          (2 * e.tokens.length + 1 ≤ limit →
            ofTokens (e.tokens ++ [.stop]) limit = .error (.tooDeep 256))) := by
  have hsearch : ∀ w ∈ e.leaves, w.isSearchable = true := fun w h ↦ w.isSearchable_iff.2 (hw w h)
  constructor
  · intro hh hlt
    have hcost : limit < e.cost := by rwa [cost, rounds_eq_count]
    rw [ofTokens, Automaton.result_run_tokens ⟨hc, hsearch, hh⟩, if_neg (Nat.not_le.2 hcost)]
  · intro hh
    obtain ⟨failure, h⟩ := exists_error_of_height_lt hc hh limit
    rw [h]
    constructor
    · rcases Automaton.exists_fails_of_run h with rfl | ⟨s, hs, hfails⟩
      · exact .inr rfl
      · exact .inl (congrArg _ (eq_tooDeep_of_fails hsearch h hs hfails))
    · intro hle
      rw [← takeWhile_tokens] at hle
      obtain ⟨s, hs, hfails⟩ := Automaton.exists_fails_of_le hle h
      exact congrArg _ (eq_tooDeep_of_fails hsearch h hs hfails)

/-- 256 exclusions of a word are 257 levels. They are shifted and then met by the height in a single
round, long before the limit that is sure to suffice. The other expression takes 17 rounds. -/
theorem ofTokens_beyond_exclusions :
    let e : Expr := Expr.exclude^[256] (.word (.bare "a"))
    let f : Expr := .and (.or (.exclude (.exclude (.word (.bare "a")))) (.word (.quoted "b*")))
      (.paren (.word (.bare "c")))
    ofTokens (e.tokens ++ [.stop]) 515 = .error (.tooDeep 256) ∧
      ofTokens (f.tokens ++ [.stop]) 16 = .error (.complexity 16) := by
  intro e f
  have hleaves : e.leaves = [.bare "a"] := by decide +kernel
  have hwe : ∀ w ∈ e.leaves, w.text ≠ "" ∧ ∃ c ∈ w.text.toList, c ≠ '*' := by
    simp [hleaves, Word.bare]
  have hwf : ∀ w ∈ f.leaves, w.text ≠ "" ∧ ∃ c ∈ w.text.toList, c ≠ '*' := by
    simp [f, leaves, Word.bare, Word.quoted]
  constructor
  · exact ((ofTokens_beyond e (by decide +kernel) hwe 515).2 (by decide +kernel)).2
      (by decide +kernel)
  · exact (ofTokens_beyond f (by decide) hwf 16).1 (by decide) (by decide)

end Expr

end SearchWords
