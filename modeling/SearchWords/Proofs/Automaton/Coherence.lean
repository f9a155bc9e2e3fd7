import Mathlib.Data.List.Chain
import SearchWords.Proofs.Automaton.Rounds

/-!
# Coherent stacks

What the automaton builds is sound because its stack never holds two neighbours of the wrong ranks.
`Coherent` says so of a stack in three parts: every expression on it is one that may be a result,
tokens next to each other (with at most expressions between them) were shifted by rank, and an
expression yields to the token on either side of it. The last part also has to hold of the next
token of the line, which comes to stand on the stack in a later round; this is the field `next` of
the invariant on states. Finally `content` recovers the part of the line that was read.

Each production preserves these (`Coherent.reduce`), hence each round (`Step.coherent`) and each
run. At the end of a run nothing but one expression is left, and the invariant says that it is
canonical and that its tokens are those of the line: `sound_of_run`.
-/

namespace SearchWords.Automaton

/-! ## What a stack holds -/

/-- The tokens on a stack, the rightmost first. -/
def kinds (stack : Stack) : List Token.Kind :=
  stack.filterMap fun entry ↦ entry.terminal?.map Prod.fst

@[simp] theorem kinds_terminal (token : Token) (index : Option Nat) (stack : Stack) :
    kinds (.terminal token index :: stack) = token.kind :: kinds stack := rfl

@[simp] theorem kinds_node (e : Expr) (height : Nat) (stack : Stack) :
    kinds (.node e height :: stack) = kinds stack := rfl

theorem head?_kinds (stack : Stack) : (kinds stack).head? = (topTerminal? stack).map Prod.fst := by
  induction stack with
  | nil => rfl
  | cons entry below ih => cases entry <;> simp [ih]

/-- The part of a line that an entry stands for. -/
def Entry.tokens : Entry → List Token
  | .terminal token _ => [token]
  | .node e _ => e.tokens

/-- The part of a line that a stack stands for. -/
def content : Stack → List Token
  | [] => []
  | entry :: below => content below ++ entry.tokens

/-! ## Coherence -/

/-- An expression on the stack is one that can be built, with its height. -/
def Entry.Sound : Entry → Prop
  | .terminal _ _ => True
  | .node e height => e.Buildable ∧ height = e.height

/-- Of two neighbours on the stack, an expression yields to a token. -/
def Entry.Fits : (above below : Entry) → Prop
  | .node e _, .terminal token _ => token.kind.leftRank ≤ e.op.opener.rightRank
  | .terminal token _, .node e _ => token.kind.rightRank < e.op.closer.leftRank
  | _, _ => True

/-- Where tokens next to each other were shifted by rank, the rightmost token of a stack yields to one
that stands above the stack. -/
theorem leftRank_le_of_isChain {kind top : Token.Kind} {stack : Stack} {index : Option Nat}
    (h : (kind :: kinds stack).IsChain fun above below ↦ below.leftRank ≤ above.rightRank)
    (htop : topTerminal? stack = some (top, index)) : top.leftRank ≤ kind.rightRank := by
  refine (List.isChain_cons.1 h).1 top ?_
  rw [head?_kinds, htop]
  rfl

/-- The invariant on stacks. -/
structure Coherent (stack : Stack) : Prop where
  sound : ∀ entry ∈ stack, entry.Sound
  ranked : (kinds stack).IsChain fun above below ↦ below.leftRank ≤ above.rightRank
  fitted : stack.IsChain Entry.Fits

namespace Produces

variable {stack : Stack} {r : Reduction}

theorem leftmost_eq (h : Produces stack r) : r.leftmost = r.expr.op.opener := by
  cases h with
  | join h => exact h.opener_eq.symm
  | _ => rfl

/-- The rightmost token of the stack is the last one of its handle. -/
theorem top_eq (h : Produces stack r) {top : Token.Kind} {index : Option Nat}
    (htop : topTerminal? stack = some (top, index)) : top = r.expr.op.closer := by
  have hkind := congrArg (Option.map Prod.fst) htop.symm
  cases h with
  | join h =>
    rw [h.closer_eq]
    exact Option.some.inj hkind
  | _ => exact Option.some.inj hkind

theorem content_eq (h : Produces stack r) : content r.stack = content stack := by
  cases h with
  | join h => simp [Reduction.stack, content, Entry.tokens, h.tokens_eq]
  | _ => simp [Reduction.stack, content, Entry.tokens, Expr.tokens]

theorem below_suffix (h : Produces stack r) : r.below <:+ stack := by
  cases h with
  | word _ => exact List.suffix_cons _ _
  | join _ => exact ⟨[_, _, _], rfl⟩
  | paren => exact ⟨[_, _, _], rfl⟩
  | exclude => exact ⟨[_, _], rfl⟩

/-- The first token of the handle stood right above the tokens that are left. -/
theorem kinds_suffix (h : Produces stack r) : r.leftmost :: kinds r.below <:+ kinds stack := by
  cases h with
  | paren => exact List.suffix_cons _ _
  | _ => exact List.suffix_rfl

/-- The token to the left of a handle yields to the first token of the handle. -/
theorem leftRank_le (h : Produces stack r) (hc : Coherent stack) {top : Token.Kind}
    {index : Option Nat} (htop : topTerminal? r.below = some (top, index)) :
    top.leftRank ≤ r.leftmost.rightRank :=
  leftRank_le_of_isChain (hc.ranked.suffix h.kinds_suffix) htop

/-- What a handle of sound and fitted entries stands for is sound. -/
theorem sound (h : Produces stack r) (hc : Coherent stack) (hh : r.height ≤ maxHeight) :
    (Entry.node r.expr r.height).Sound := by
  have hs := hc.sound
  have hf := hc.fitted
  cases h with
  | word hw => exact ⟨Expr.buildable_word.2 hw, rfl⟩
  | join h =>
    simp only [List.mem_cons, forall_eq_or_imp, Entry.Sound] at hs
    simp only [List.isChain_cons_cons, Entry.Fits] at hf
    obtain ⟨⟨hr, rfl⟩, -, ⟨hl, rfl⟩, -⟩ := hs
    rw [← h.height_eq] at hh ⊢
    exact ⟨h.buildable_iff.2 ⟨hl, hr, hf.2.1, hf.1, hh⟩, rfl⟩
  | paren =>
    simp only [List.mem_cons, forall_eq_or_imp, Entry.Sound] at hs
    obtain ⟨-, ⟨he, rfl⟩, -⟩ := hs
    exact ⟨Expr.buildable_paren.2 ⟨he, hh⟩, rfl⟩
  | exclude =>
    simp only [List.mem_cons, forall_eq_or_imp, Entry.Sound] at hs
    simp only [List.isChain_cons_cons, Entry.Fits] at hf
    obtain ⟨⟨he, rfl⟩, -⟩ := hs
    exact ⟨Expr.buildable_exclude.2 ⟨he, hf.1, hh⟩, rfl⟩

end Produces

/-! ## Reductions preserve coherence -/

theorem Coherent.reduce {stack : Stack} {r : Reduction} (hc : Coherent stack)
    (hp : Produces stack r) (hh : r.height ≤ maxHeight) : Coherent r.stack := by
  refine ⟨?_, (hc.ranked.suffix hp.kinds_suffix).tail, List.isChain_cons.2 ⟨?_, hc.fitted.suffix hp.below_suffix⟩⟩
  · intro entry hentry
    rcases List.mem_cons.1 hentry with rfl | hentry
    · exact hp.sound hc hh
    · exact hc.sound entry (hp.below_suffix.subset hentry)
  · intro entry hentry
    cases entry with
    | node _ _ => trivial
    | terminal token index =>
      -- The token below the new expression is the one below the first token of the handle.
      obtain ⟨below, hbelow⟩ := List.head?_eq_some_iff.1 hentry
      have htop : topTerminal? r.below = some (token.kind, index) := by rw [hbelow]; rfl
      rw [Entry.Fits, ← hp.leftmost_eq]
      exact hp.leftRank_le hc htop

theorem Collapses.coherent {stack stack' : Stack} (h : Collapses stack stack')
    (hc : Coherent stack) : Coherent stack' := by
  induction h with
  | last hp hh _ _ => exact hc.reduce hp hh
  | more hp hh _ _ _ ih => exact ih (hc.reduce hp hh)

theorem Collapses.content_eq {stack stack' : Stack} (h : Collapses stack stack') :
    content stack' = content stack := by
  induction h with
  | last hp _ _ _ => exact hp.content_eq
  | more hp _ _ _ _ ih => rw [ih, hp.content_eq]

/-- A token that makes the stack reduce goes on to do so for as long as the round lasts. -/
theorem Produces.rightRank_lt {stack : Stack} {r : Reduction} (hp : Produces stack r)
    (hc : Coherent stack) {kind top top' : Token.Kind} {index index' : Option Nat}
    (htop : topTerminal? stack = some (top, index)) (hlt : kind.rightRank < top.leftRank)
    (htop' : topTerminal? r.below = some (top', index'))
    (hge : r.leftmost.rightRank ≤ top'.leftRank) : kind.rightRank < top'.leftRank := by
  obtain rfl := hp.top_eq htop
  -- The ranks go down towards the right end, so another reduction means that they are equal.
  have hle := hp.leftRank_le hc htop'
  rw [hp.leftmost_eq] at hge hle
  rcases Expr.Op.lt_opener_or_closer_le hle with h | h <;> omega

/-- A token that makes the stack reduce yields to the expression that is left on top. -/
theorem Collapses.next_fits {stack stack' : Stack} (h : Collapses stack stack')
    (hc : Coherent stack) {token : Token} {top : Token.Kind} {index : Option Nat}
    (htop : topTerminal? stack = some (top, index)) (hlt : token.kind.rightRank < top.leftRank) :
    ∀ entry ∈ stack'.head?, (Entry.terminal token none).Fits entry := by
  induction h generalizing top index with
  | @last stack r _ _ hp _ _ _ =>
    intro entry hentry
    obtain rfl : Entry.node r.expr r.height = entry := Option.some.inj hentry
    obtain rfl := hp.top_eq htop
    exact hlt
  | more hp hh htop' hge _ ih =>
    exact ih (hc.reduce hp hh) htop' (hp.rightRank_lt hc htop hlt htop' hge)

/-! ## Runs preserve coherence -/

theorem Coherent.shift {stack : Stack} (hc : Coherent stack) {token : Token} {top : Token.Kind}
    {index : Option Nat} (htop : topTerminal? stack = some (top, index))
    (hle : top.leftRank ≤ token.kind.rightRank)
    (hnext : ∀ entry ∈ stack.head?, (Entry.terminal token none).Fits entry) (n : Nat) :
    Coherent (.terminal token (some n) :: stack) := by
  refine ⟨?_, ?_, List.isChain_cons.2 ⟨?_, hc.fitted⟩⟩
  · intro entry hentry
    rcases List.mem_cons.1 hentry with rfl | hentry
    · trivial
    · exact hc.sound entry hentry
  · rw [kinds_terminal]
    refine List.isChain_cons.2 ⟨?_, hc.ranked⟩
    intro kind hkind
    rw [head?_kinds, htop] at hkind
    obtain rfl := Option.some.inj hkind
    exact hle
  · intro entry hentry
    cases entry <;> exact hnext _ hentry

/-- The invariant on states in a run on `tokens`. -/
structure State.Coherent (tokens : List Token) (s : State) : Prop where
  stack : Automaton.Coherent s.stack
  next : ∀ token ∈ s.rest.head?, ∀ entry ∈ s.stack.head?, (Entry.terminal token none).Fits entry
  content : content s.stack ++ s.rest = .stop :: tokens

theorem State.coherent_initial (tokens : List Token) : (State.initial tokens).Coherent tokens where
  stack := ⟨by simp [initial, Entry.Sound], .singleton _, .singleton _⟩
  next := by simp [initial, Entry.Fits]
  content := rfl

theorem Step.coherent {tokens : List Token} {s t : State} (h : Step s t) (hs : s.Coherent tokens) :
    t.Coherent tokens := by
  obtain ⟨hstack, hnext, hcontent⟩ := hs
  cases h with
  | @shift stack token rest n top index htop _ hle =>
    refine ⟨hstack.shift htop hle (hnext token rfl) n, ?_, ?_⟩
    · intro token' _ entry hentry
      obtain rfl := Option.some.inj hentry
      trivial
    · simpa [Automaton.content, Entry.tokens] using hcontent
  | reduce htop hlt hc =>
    refine ⟨hc.coherent hstack, ?_, by rwa [hc.content_eq]⟩
    intro token htoken
    obtain rfl := Option.some.inj htoken
    exact hc.next_fits hstack htop hlt

/-- An expression that comes out of a run can be built, and its tokens are those of the line up to
the first marker. -/
theorem sound_of_run {tokens : List Token} {limit : Nat} {e : Expr}
    (h : (run tokens limit).result = .ok e) :
    e.Buildable ∧ ∃ rest, tokens = e.tokens ++ .stop :: rest := by
  have hrun := exists_steps_of_runFrom limit 0 limit (.initial tokens)
  rw [show (runFrom limit 0 limit (.initial tokens)).result = .ok e from h] at hrun
  rcases hrun with ⟨k, t, _, hsteps, hdone⟩ | ⟨_, hcut⟩
  · obtain ⟨height, index, rest, n, rfl⟩ := eq_of_outcome_eq_ok hdone
    obtain ⟨hstack, -, hcontent⟩ :=
      hsteps.preserves Step.coherent (State.coherent_initial tokens)
    obtain ⟨he, rfl⟩ := hstack.sound (.node e height) (by simp)
    refine ⟨he, rest, ?_⟩
    simpa [content, Entry.tokens] using hcontent.symm
  · simp at hcut

end SearchWords.Automaton
