import SearchWords.Proofs.Automaton.Reachable
import SearchWords.Proofs.Expr.RoundTrip
import SearchWords.Proofs.Expr.Unambiguous
import SearchWords.Proofs.Token.Neighbours

/-!
# What is wrong with a line

The automaton names a fault by looking at two entries of a stack that it cannot reduce. That this
names the fault of the line has two reasons. The stack is the line read so far, with each token at
the place that its index says (`Indexed`, `Reachable.exists_split`). And in a line that was scanned
neighbours fit together, so that a stack without a handle can have a few forms only: `Stuck` lists
them with the fault that is found in each, and `exists_stuck` says that there are no others.

`Faulty` states what the faults mean, in terms of the line alone: the token that is blamed, and the
tokens in front of it and behind it. `explained_of_run` puts the two together.
-/

namespace SearchWords

open Token

/-! ## Faults of a line -/

/-- More parentheses are closed than opened. -/
def Token.Overclosed (ts : List Token) : Prop :=
  ts.count .lparen < ts.count .rparen

/-- `Faulty message before token after`: what the message says is true of a line that has `token`
between the tokens `before` and `after`. -/
inductive Faulty : (message : String) → (before : List Token) → Token → (after : List Token) →
    Prop where
  | unclosedParen {before after : List Token} : Balanced after →
      Faulty "missing closing parenthesis" before .lparen after
  | unmatchedParen {before after : List Token} : Overclosed (before ++ [.rparen]) →
      (∀ ts, ts <+: before → ¬Overclosed ts) →
      Faulty "unmatched closing parenthesis" before .rparen after
  | emptyGroup {before after : List Token} :
      Faulty "empty parenthesis group" (before ++ [.lparen]) .rparen after
  | orFirst {after : List Token} :
      Faulty "OR is missing a search word on one side" [] .or after
  | orOpened {before after : List Token} :
      Faulty "OR is missing a search word on one side" (before ++ [.lparen]) .or after
  | orLast {before after : List Token} {next : Token} : next ∈ [Token.or, .rparen, .stop] →
      Faulty "OR is missing a search word on one side" before .or (next :: after)
  | excludeLast {before after : List Token} {next : Token} : next ∈ [Token.or, .rparen, .stop] →
      Faulty "'-' is missing a search word to exclude" before .exclude (next :: after)
  | onlyWildcards {before after : List Token} {w : Word} : w.text ≠ "" →
      (∀ c ∈ w.text.toList, c = '*') →
      Faulty "search word consists only of wildcards" before (.word w) after

/-- A parenthesis that is closed behind balanced tokens was never opened. -/
theorem Faulty.of_balanced {before after : List Token} (h : Balanced before) :
    Faulty "unmatched closing parenthesis" before .rparen after := by
  refine .unmatchedParen ?_ ?_
  · simp [Overclosed, h.closed]
  · intro ts hts
    exact Nat.not_lt.2 (h.nested ts hts)

namespace Expr

theorem exists_head?_tokens (e : Expr) : ∃ t, e.tokens.head? = some t ∧ t.startsTerm = true := by
  rw [← conjoin_written, head?_conjoin]
  exact e.exists_head?_written

theorem exists_getLast?_tokens (e : Expr) :
    ∃ t, e.tokens.getLast? = some t ∧ t.endsTerm = true := by
  rw [← conjoin_written, getLast?_conjoin]
  exact e.exists_getLast?_written

end Expr

namespace Automaton

/-! ## Places of tokens -/

theorem content_append (above below : Stack) :
    content (above ++ below) = content below ++ content above := by
  induction above with
  | nil => simp [content]
  | cons entry above ih => simp [content, ih]

/-- Each token stands at the place that its index says. The marker stands in front of the line. -/
def Indexed : Stack → Prop
  | [] => True
  | .terminal _ index :: below => index.elim 0 (· + 1) = (content below).length ∧ Indexed below
  | .node _ _ :: below => Indexed below

theorem Indexed.of_append {above below : Stack} (h : Indexed (above ++ below)) :
    Indexed below := by
  induction above with
  | nil => exact h
  | cons entry above ih =>
    cases entry with
    | terminal token index => exact ih h.2
    | node e height => exact ih h

theorem Anchored.of_append {above below : Stack} (h : Anchored (above ++ below))
    (hne : below ≠ []) : Anchored below := by
  induction above with
  | nil => exact h
  | cons entry above ih =>
    refine ih (h.of_cons ?_)
    rintro index rfl
    exact hne (List.append_eq_nil_iff.1 h.eq_nil_of_stop.1).2

/-- A stack stands for some tokens behind the marker, and has no other marker among them. -/
theorem Anchored.exists_content {stack : Stack} (h : Anchored stack) :
    ∃ before, content stack = .stop :: before ∧ .stop ∉ before := by
  induction h with
  | marker => exact ⟨[], rfl, List.not_mem_nil⟩
  | @cons entry below hne _ ih =>
    obtain ⟨before, hbefore, hstop⟩ := ih
    have hentry : .stop ∉ entry.tokens := by
      cases entry with
      | terminal token index =>
        intro hmem
        exact hne index (by rw [List.mem_singleton.1 hmem])
      | node e height => exact e.stop_notMem_tokens
    refine ⟨before ++ entry.tokens, by rw [content, hbefore, List.cons_append], ?_⟩
    exact List.not_mem_append hstop hentry

/-- A stack that ends with an open parenthesis stands for tokens that do. -/
theorem Anchored.exists_content_of_lparen {below : Stack} {index : Option Nat}
    (h : Anchored (.terminal .lparen index :: below)) :
    ∃ before, content (.terminal .lparen index :: below) = .stop :: (before ++ [.lparen]) := by
  obtain ⟨before, hbefore, -⟩ := (h.of_terminal (by simp)).exists_content
  refine ⟨before, ?_⟩
  rw [content, hbefore]
  rfl

namespace Reachable

variable {tokens : List Token} {s : State}

theorem indexed (h : Reachable tokens s) :
    Indexed s.stack ∧ (content s.stack).length = s.index + 1 := by
  refine h.induction (P := fun s ↦ Indexed s.stack ∧ (content s.stack).length = s.index + 1)
    ⟨⟨rfl, trivial⟩, rfl⟩ ?_ ?_
  · rintro stack token rest n - ⟨hi, hn⟩
    refine ⟨⟨hn.symm, hi⟩, ?_⟩
    rw [content, List.length_append, hn]
    rfl
  · rintro stack r rest n hp ⟨hi, hn⟩
    obtain ⟨handle, rfl⟩ := hp.below_suffix
    have hbelow : Indexed r.below := hi.of_append
    exact ⟨hbelow, by rwa [hp.content_eq]⟩

/-- A token on the stack, with what stands in front of it and behind it in the line. -/
theorem exists_split (h : Reachable tokens s) {above below : Stack} {token : Token}
    {index : Option Nat} (hstack : s.stack = above ++ .terminal token index :: below)
    (hne : token ≠ .stop) :
    ∃ before, content below = .stop :: before ∧ index = some before.length ∧
      tokens = before ++ token :: (content above ++ s.rest) := by
  have hanchored := h.anchored
  have hindexed := h.indexed.1
  have hcontent := h.content_append
  rw [hstack] at hanchored hindexed hcontent
  obtain ⟨before, hbefore, -⟩ :=
    ((hanchored.of_append (List.cons_ne_nil _ _)).of_terminal hne).exists_content
  refine ⟨before, hbefore, ?_, ?_⟩
  · have hlength := hindexed.of_append.1
    rw [hbefore, List.length_cons] at hlength
    cases index with
    | none => cases hlength
    | some n => exact congrArg some (Nat.succ.inj hlength)
  · rw [Automaton.content_append, content, hbefore] at hcontent
    simpa [Entry.tokens] using hcontent.symm

/-- The same for the token that was moved onto the stack last. -/
theorem exists_split_cons {token : Token} {index : Option Nat} {below : Stack}
    {rest : List Token} {n : Nat} (h : Reachable tokens ⟨.terminal token index :: below, rest, n⟩)
    (hne : token ≠ .stop) :
    ∃ before, content below = .stop :: before ∧ index = some before.length ∧
      tokens = before ++ token :: rest :=
  h.exists_split (List.nil_append _).symm hne

end Reachable

/-! ## Stacks without a handle -/

/-- `Stuck stack next fault index`: a stack that has no handle where the next token of the line
makes it reduce, with the fault that is found in it and the token that is blamed. -/
inductive Stuck : Stack → (next : Token) → Fault → Option Nat → Prop where
  | emptyGroup {below : Stack} {next : Token} {left right : Option Nat} :
      Stuck (.terminal .rparen right :: .terminal .lparen left :: below) next .emptyGroup right
  | unmatchedFirst {next : Token} {right : Option Nat} :
      Stuck [.terminal .rparen right, .terminal .stop none] next .unmatchedParen right
  | unmatched {next : Token} {e : Expr} {height : Nat} {right : Option Nat} :
      Stuck [.terminal .rparen right, .node e height, .terminal .stop none] next .unmatchedParen
        right
  | orFirst {next : Token} {e : Expr} {height : Nat} {index : Option Nat} :
      Stuck [.node e height, .terminal .or index, .terminal .stop none] next .lonelyOr index
  | orOpened {below : Stack} {next : Token} {e : Expr} {height : Nat} {left index : Option Nat} :
      Stuck (.node e height :: .terminal .or index :: .terminal .lparen left :: below) next
        .lonelyOr index
  | orLast {below : Stack} {next : Token} {index : Option Nat} :
      next ∈ [Token.or, .rparen, .stop] →
        Stuck (.terminal .or index :: below) next .lonelyOr index
  | excludeLast {below : Stack} {next : Token} {index : Option Nat} :
      next ∈ [Token.or, .rparen, .stop] →
        Stuck (.terminal .exclude index :: below) next .lonelyExclude index

theorem Stuck.blame_eq {stack : Stack} {next : Token} {f : Fault} {index : Option Nat}
    (h : Stuck stack next f index) : blame stack = .malformed f index := by
  cases h <;> rfl

/-- Of two entries side by side, the last token of the left one is adjacent to the first token of
the right one. -/
theorem adjacent_of_content {above below : Entry} {stack : Stack}
    (h : (content (above :: below :: stack)).IsChain Adjacent) :
    ∀ a ∈ below.tokens.getLast?, ∀ b ∈ above.tokens.head?, Adjacent a b := by
  intro a ha b hb
  rw [content] at h
  refine (List.isChain_append.1 h).2.2 a ?_ b hb
  rw [content, List.getLast?_append, Option.mem_def.1 ha]
  rfl

/-- To the left of an expression stands a token that is not the end of a term. -/
theorem exists_terminal_of_content {e : Expr} {height : Nat} {below : Entry} {stack : Stack}
    (h : (content (.node e height :: below :: stack)).IsChain Adjacent) :
    ∃ token index, below = .terminal token index ∧ token.endsTerm = false := by
  obtain ⟨b, hb, hstarts⟩ := e.exists_head?_tokens
  have hends : ∀ a ∈ below.tokens.getLast?, a.endsTerm = false := by
    intro a ha
    cases hends : a.endsTerm with
    | false => rfl
    | true =>
      have := (adjacent_of_content h a ha b hb).startsTerm_of_endsTerm hends
      rw [hstarts] at this
      cases this
  cases below with
  | terminal token index => exact ⟨token, index, rfl, hends token rfl⟩
  | node e' height' =>
    obtain ⟨a, ha, hends'⟩ := e'.exists_getLast?_tokens
    rw [hends a ha] at hends'
    cases hends'

/-- What may follow an operator whose right operand is missing. -/
theorem mem_of_rightRank_lt {a next : Token} (hadj : Adjacent a next) (hends : a.endsTerm = false)
    (hlt : next.kind.rightRank < Kind.exclude.rightRank) :
    next ∈ [Token.or, .rparen, .stop] := by
  cases next with
  | and =>
    have hand := hadj.endsTerm_of_and rfl
    rw [hends] at hand
    cases hand
  | or | rparen | stop => simp
  | word _ | lparen | exclude => simp [kind, Kind.rightRank] at hlt

/-- Only the marker and an open parenthesis bind nothing. -/
theorem eq_of_leftRank_le {token : Token} (h : token.kind.leftRank ≤ 0) :
    token = .stop ∨ token = .lparen := by
  cases token <;> simp_all [kind, Kind.leftRank]

theorem Coherent.of_cons {entry : Entry} {below : Stack} (h : Coherent (entry :: below)) :
    Coherent below := by
  refine ⟨fun x hx ↦ h.sound x (List.mem_cons_of_mem _ hx), ?_, h.fitted.tail⟩
  cases entry with
  | terminal token index => exact h.ranked.tail
  | node e height => exact h.ranked

theorem Coherent.leftRank_le {token : Token} {index index' : Option Nat} {below : Stack}
    {top : Kind} (h : Coherent (.terminal token index :: below))
    (htop : topTerminal? below = some (top, index')) : top.leftRank ≤ token.kind.rightRank :=
  leftRank_le_of_isChain h.ranked htop

theorem isChain_content_of_cons {entry : Entry} {below : Stack}
    (h : (content (entry :: below)).IsChain Adjacent) : (content below).IsChain Adjacent :=
  h.left_of_append

section Stuck

variable {below : Stack} {next : Token}

/-- A parenthesis is closed at the start of the line or right behind another one, unless it is
closed around an expression. -/
theorem exists_stuck_of_rparen {right : Option Nat}
    (ha : Anchored (.terminal .rparen right :: below))
    (hc : Coherent (.terminal .rparen right :: below))
    (hchain : (content (.terminal .rparen right :: below)).IsChain Adjacent)
    (hno : ∀ p, ¬EndsIn (.terminal .rparen right :: below) p) :
    ∃ f index, Stuck (.terminal .rparen right :: below) next f index := by
  have hbelow := ha.of_terminal (by simp)
  obtain ⟨entry, below, rfl⟩ := hbelow.exists_cons
  cases entry with
  | terminal token index =>
    rcases eq_of_leftRank_le (hc.leftRank_le rfl) with rfl | rfl
    · obtain ⟨rfl, rfl⟩ := hbelow.eq_nil_of_stop
      exact ⟨_, _, .unmatchedFirst⟩
    · exact ⟨_, _, .emptyGroup⟩
  | node e height =>
    obtain ⟨entry, below, rfl⟩ := hbelow.of_node.exists_cons
    obtain ⟨token, index, rfl, -⟩ := exists_terminal_of_content (isChain_content_of_cons hchain)
    rcases eq_of_leftRank_le (hc.leftRank_le rfl) with rfl | rfl
    · obtain ⟨rfl, rfl⟩ := hbelow.of_node.eq_nil_of_stop
      exact ⟨_, _, .unmatched⟩
    · exact absurd .paren (hno _)

/-- An expression is not reduced only if it stands behind a disjunction that has nothing in front
of it. -/
theorem exists_stuck_of_node {e : Expr} {height : Nat} {top : Kind} {index : Option Nat}
    (ha : Anchored (.node e height :: below)) (hc : Coherent (.node e height :: below))
    (hchain : (content (.node e height :: below)).IsChain Adjacent)
    (htop : topTerminal? below = some (top, index)) (hlt : next.kind.rightRank < top.leftRank)
    (hno : ∀ p, ¬EndsIn (.node e height :: below) p) :
    ∃ f index, Stuck (.node e height :: below) next f index := by
  obtain ⟨entry, below, rfl⟩ := ha.of_node.exists_cons
  obtain ⟨token, index, rfl, hends⟩ := exists_terminal_of_content hchain
  obtain ⟨rfl, rfl⟩ := Prod.mk.inj (Option.some.inj htop)
  have hchain' := isChain_content_of_cons hchain
  cases token with
  | word _ | rparen => cases hends
  | lparen | stop => exact absurd hlt (Nat.not_lt_zero _)
  | exclude => exact absurd .exclude (hno _)
  | and =>
    obtain ⟨entry, below, rfl⟩ := (ha.of_node.of_terminal (by simp)).exists_cons
    cases entry with
    | node l hl => exact absurd .and (hno _)
    | terminal token _ =>
      -- The end of a term would have been reduced before the conjunction was shifted.
      have hterm := (adjacent_of_content hchain' token rfl .and rfl).endsTerm_of_and rfl
      have hrank := hc.of_cons.leftRank_le rfl
      cases token <;> simp_all [endsTerm, kind, Kind.leftRank, Kind.rightRank]
  | or =>
    have hbelow := ha.of_node.of_terminal (by simp)
    obtain ⟨entry, below, rfl⟩ := hbelow.exists_cons
    cases entry with
    | node l hl => exact absurd .or (hno _)
    | terminal token _ =>
      have hadj := adjacent_of_content hchain' token rfl .or rfl
      have hrank := hc.of_cons.leftRank_le rfl
      cases token with
      | stop =>
        obtain ⟨rfl, rfl⟩ := hbelow.eq_nil_of_stop
        exact ⟨_, _, .orFirst⟩
      | lparen => exact ⟨_, _, .orOpened⟩
      | and => cases hadj.startsTerm_of_and rfl
      | word _ | or | exclude | rparen => simp [kind, Kind.leftRank, Kind.rightRank] at hrank

/-- A stack that has no handle, where the line was scanned and the next token makes it reduce, is
one of those that `Stuck` lists. -/
theorem exists_stuck {stack : Stack} {rest : List Token} {top : Kind} {index : Option Nat}
    (ha : Anchored stack) (hc : Coherent stack)
    (hchain : (content stack ++ next :: rest).IsChain Adjacent)
    (htop : topTerminal? stack = some (top, index)) (hlt : next.kind.rightRank < top.leftRank)
    (hno : ∀ p, ¬EndsIn stack p) : ∃ f index, Stuck stack next f index := by
  obtain ⟨hcontent, -, hnext⟩ := List.isChain_append.1 hchain
  obtain ⟨entry, below, rfl⟩ := ha.exists_cons
  cases entry with
  | node e height => exact exists_stuck_of_node ha hc hcontent htop hlt hno
  | terminal token index =>
    obtain ⟨rfl, rfl⟩ := Prod.mk.inj (Option.some.inj htop)
    have hadj : Adjacent token next := hnext token (by simp [content, Entry.tokens]) next rfl
    cases token with
    | word w => exact absurd .word (hno _)
    | lparen | stop => exact absurd hlt (Nat.not_lt_zero _)
    | rparen => exact exists_stuck_of_rparen ha hc hcontent hno
    | and =>
      have hstarts := hadj.startsTerm_of_and rfl
      cases next <;> simp_all [startsTerm, kind, Kind.leftRank, Kind.rightRank]
    | or => exact ⟨_, _, .orLast (mem_of_rightRank_lt hadj rfl (Nat.lt_succ_of_lt hlt))⟩
    | exclude => exact ⟨_, _, .excludeLast (mem_of_rightRank_lt hadj rfl hlt)⟩

end Stuck

/-! ## Runs on scanned lines -/

/-- The rightmost token of a stack has nothing but expressions behind it. -/
theorem exists_append_of_topTerminal? {stack : Stack} {top : Kind} {index : Option Nat}
    (h : topTerminal? stack = some (top, index)) :
    ∃ above token below, stack = above ++ .terminal token index :: below ∧ token.kind = top ∧
      Balanced (content above) := by
  induction stack with
  | nil => cases h
  | cons entry below ih =>
    cases entry with
    | terminal token index' =>
      obtain ⟨rfl, rfl⟩ := Prod.mk.inj (Option.some.inj h)
      exact ⟨[], token, below, rfl, rfl, .of_notMem List.not_mem_nil List.not_mem_nil⟩
    | node e height =>
      obtain ⟨above, token, below, rfl, hkind, hbalanced⟩ := ih h
      exact ⟨.node e height :: above, token, below, rfl, hkind,
        hbalanced.append e.balanced_tokens⟩

/-- At the end of a scanned line there is no more than one expression on the stack. -/
theorem Anchored.eq_of_meet {stack : Stack} {index : Option Nat} (ha : Anchored stack)
    (hchain : (content stack).IsChain Adjacent)
    (htop : topTerminal? stack = some (.stop, index)) :
    stack = [.terminal .stop none] ∨
      ∃ e height, stack = [.node e height, .terminal .stop none] := by
  have hstop : ∀ {token : Token}, token.kind = .stop → token = .stop := by
    intro token h
    cases token <;> first | rfl | cases h
  obtain ⟨entry, below, rfl⟩ := ha.exists_cons
  cases entry with
  | terminal token _ =>
    obtain rfl := hstop (Prod.mk.inj (Option.some.inj htop)).1
    obtain ⟨rfl, rfl⟩ := ha.eq_nil_of_stop
    exact .inl rfl
  | node e height =>
    obtain ⟨entry, below, rfl⟩ := ha.of_node.exists_cons
    obtain ⟨token, _, rfl, -⟩ := exists_terminal_of_content hchain
    obtain rfl := hstop (Prod.mk.inj (Option.some.inj htop)).1
    obtain ⟨rfl, rfl⟩ := ha.of_node.eq_nil_of_stop
    exact .inr ⟨e, height, rfl⟩

/-- `Explained tokens f index`: the line does have the fault, at the token with that index. -/
inductive Explained (tokens : List Token) : Fault → (index : Option Nat) → Prop where
  | noWords : tokens = [.stop] → Explained tokens .noWords none
  | emptyPhrase {before after : List Token} {w : Word} {index : Option Nat} :
      tokens = before ++ .word w :: after → index = some before.length → w.text = "" →
        Explained tokens .emptyPhrase index
  | faulty {f : Fault} {before after : List Token} {token : Token} {index : Option Nat} :
      tokens = before ++ token :: after → index = some before.length →
        Faulty f.message before token after → Explained tokens f index

/-- The fault that is found in a stack is a fault of the line. -/
theorem Stuck.explained {tokens : List Token} {stack : Stack} {next : Token} {rest : List Token}
    {n : Nat} {f : Fault} {index : Option Nat} (h : Stuck stack next f index)
    (hs : Reachable tokens ⟨stack, next :: rest, n⟩) : Explained tokens f index := by
  have hanchored := hs.anchored
  cases h with
  | emptyGroup =>
    obtain ⟨before, hbefore, hindex, htokens⟩ := hs.exists_split_cons (by simp)
    obtain ⟨before', hbefore'⟩ := (hanchored.of_terminal (by simp)).exists_content_of_lparen
    obtain rfl := (List.cons.inj (hbefore.symm.trans hbefore')).2
    exact .faulty htokens hindex .emptyGroup
  | unmatchedFirst =>
    obtain ⟨before, hbefore, hindex, htokens⟩ := hs.exists_split_cons (by simp)
    obtain rfl : before = [] := by simpa [content, Entry.tokens] using hbefore.symm
    exact .faulty htokens hindex (.of_balanced (.of_notMem (by simp) (by simp)))
  | @unmatched _ e height =>
    obtain ⟨before, hbefore, hindex, htokens⟩ := hs.exists_split_cons (by simp)
    obtain rfl : before = e.tokens := by simpa [content, Entry.tokens] using hbefore.symm
    exact .faulty htokens hindex (.of_balanced e.balanced_tokens)
  | @orFirst _ e height =>
    obtain ⟨before, hbefore, hindex, htokens⟩ :=
      hs.exists_split (show _ = [Entry.node e height] ++ _ from rfl) (by simp)
    obtain rfl : before = [] := by simpa [content, Entry.tokens] using hbefore.symm
    exact .faulty htokens hindex .orFirst
  | @orOpened _ _ e height =>
    obtain ⟨before, hbefore, hindex, htokens⟩ :=
      hs.exists_split (show _ = [Entry.node e height] ++ _ from rfl) (by simp)
    obtain ⟨before', hbefore'⟩ :=
      (hanchored.of_node.of_terminal (by simp)).exists_content_of_lparen
    obtain rfl := (List.cons.inj (hbefore.symm.trans hbefore')).2
    exact .faulty htokens hindex .orOpened
  | orLast hnext =>
    obtain ⟨before, -, hindex, htokens⟩ := hs.exists_split_cons (by simp)
    exact .faulty htokens hindex (.orLast hnext)
  | excludeLast hnext =>
    obtain ⟨before, -, hindex, htokens⟩ := hs.exists_split_cons (by simp)
    exact .faulty htokens hindex (.excludeLast hnext)

/-- A word that is refused is a fault of the line. -/
theorem explained_of_leaf {tokens rest : List Token} {w : Word} {below : Stack} {n : Nat}
    {f : Fault} {index place : Option Nat}
    (hs : Reachable tokens ⟨.terminal (.word w) index :: below, rest, n⟩)
    (h : leaf w index = .error (.malformed f place)) : Explained tokens f place := by
  obtain ⟨before, -, hindex, htokens⟩ := hs.exists_split_cons (by simp)
  rcases of_leaf_eq_error h with ⟨hempty, hf⟩ | ⟨hne, hall, hf⟩
  · obtain ⟨rfl, rfl⟩ := Failure.malformed.inj hf
    exact .emptyPhrase htokens hindex hempty
  · obtain ⟨rfl, rfl⟩ := Failure.malformed.inj hf
    refine .faulty htokens hindex (.onlyWildcards hne ?_)
    intro c hc
    exact of_decide_eq_true (List.all_eq_true.1 hall c hc)

section

variable {body : List Token}

/-- The marker of a line is left until the end. -/
theorem Reachable.exists_rest {s : State} (hs : Reachable (body ++ [.stop]) s) :
    ∃ before rest, content s.stack = .stop :: before ∧ s.rest = rest ++ [.stop] ∧
      body = before ++ rest := by
  obtain ⟨before, hbefore, hnot⟩ := hs.anchored.exists_content
  have hcontent := hs.content_append
  rw [hbefore, List.cons_append] at hcontent
  rcases List.append_eq_append_iff.1 (List.cons.inj hcontent).2 with
    ⟨rest, hbody, hrest⟩ | ⟨more, rfl, hmore⟩
  · exact ⟨before, rest, hbefore, hrest, hbody⟩
  · cases more with
    | nil => exact ⟨_, [], hbefore, hmore.symm, by simp⟩
    | cons t more =>
      obtain ⟨rfl, -⟩ := List.cons.inj hmore
      exact absurd (by simp) hnot

variable (hstop : .stop ∉ body)
include hstop

/-- Once a run has come to the marker, the whole line is on the stack. -/
theorem Reachable.content_of_stop {stack : Stack} {rest : List Token} {n : Nat}
    (hs : Reachable (body ++ [.stop]) ⟨stack, .stop :: rest, n⟩) :
    content stack = .stop :: body ∧ rest = [] := by
  obtain ⟨before, rest', hbefore, hrest, rfl⟩ := hs.exists_rest
  cases rest' with
  | nil => exact ⟨by rw [hbefore, List.append_nil], (List.cons.inj hrest).2⟩
  | cons t rest' =>
    obtain ⟨rfl, -⟩ := List.cons.inj hrest
    exact absurd (by simp) hstop

/-- A parenthesis that is open when a run comes to the marker has balanced tokens behind it. -/
theorem explained_of_unclosed {stack : Stack} {rest : List Token} {n : Nat} {top : Kind}
    {index : Option Nat} (hs : Reachable (body ++ [.stop]) ⟨stack, .stop :: rest, n⟩)
    (htop : topTerminal? stack = some (top, index)) (hne : top ≠ .stop) (hle : top.leftRank ≤ 0) :
    Explained (body ++ [.stop]) .unclosedParen index := by
  obtain ⟨above, token, below, rfl, rfl, hbalanced⟩ := exists_append_of_topTerminal? htop
  rcases eq_of_leftRank_le hle with rfl | rfl
  · exact absurd rfl hne
  obtain ⟨-, rfl⟩ := hs.content_of_stop hstop
  obtain ⟨before, -, hindex, htokens⟩ := hs.exists_split rfl (by simp)
  exact .faulty htokens hindex (.unclosedParen (hbalanced.append (.of_notMem (by simp) (by simp))))

/-- Two markers meet without an expression between them only in a line without tokens. -/
theorem explained_of_meet {stack : Stack} {rest : List Token} {n : Nat} {f : Fault}
    {index place : Option Nat} (hs : Reachable (body ++ [.stop]) ⟨stack, .stop :: rest, n⟩)
    (hchain : (content stack).IsChain Adjacent)
    (htop : topTerminal? stack = some (.stop, index))
    (h : finish stack = .error (.malformed f place)) : Explained (body ++ [.stop]) f place := by
  rcases hs.anchored.eq_of_meet hchain htop with rfl | ⟨e, height, rfl⟩
  · obtain ⟨rfl, rfl⟩ := Failure.malformed.inj (Except.error.inj h)
    have hbody : [Token.stop] = .stop :: body := (hs.content_of_stop hstop).1
    exact .noWords (by rw [← (List.cons.inj hbody).2, List.nil_append])
  · cases h

/-- A run on a line whose neighbours fit together does not blame the line for what it does not
have. -/
theorem explained_of_run (hadj : (.stop :: (body ++ [.stop])).IsChain Adjacent) {limit : Nat}
    {f : Fault} {place : Option Nat}
    (h : (run (body ++ [.stop]) limit).result = .error (.malformed f place)) :
    Explained (body ++ [.stop]) f place := by
  rcases exists_fails_of_run h with hcut | ⟨s, hs, hfails⟩
  · cases hcut
  have hchain : (content s.stack ++ s.rest).IsChain Adjacent := by rwa [hs.content_append]
  cases hfails with
  | exhausted =>
    obtain ⟨-, rest, -, hrest, -⟩ := hs.exists_rest
    exact absurd hrest.symm (by simp)
  | unclosed htop hne hle => exact explained_of_unclosed hstop hs htop hne hle
  | meet htop hf => exact explained_of_meet hstop hs hchain.left_of_append htop hf
  | reduce htop hlt hr =>
    rcases of_reduce_eq_error hr with ⟨w, index, below, rfl, hl⟩ | hdeep | ⟨hno, hblame⟩
    · exact explained_of_leaf hs hl
    · cases hdeep
    · obtain ⟨f', index, hstuck⟩ :=
        exists_stuck hs.anchored hs.coherent hchain htop hlt hno
      rw [hstuck.blame_eq] at hblame
      obtain ⟨rfl, rfl⟩ := Failure.malformed.inj hblame
      exact hstuck.explained hs

end

end Automaton

end SearchWords
