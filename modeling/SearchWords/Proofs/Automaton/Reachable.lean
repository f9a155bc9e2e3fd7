import SearchWords.Expr.Parse
import SearchWords.Proofs.Automaton.Coherence

/-!
# The states of a run

`Steps` sees a run between its rounds. A round that reduces also comes through stacks that no round
starts with: `Reduces` lists them, and `Reachable` has all states of a run, those in the middle of a
round included. They are the states that iterating `step` comes to, and those on the way from one
of them to the next (`reachable_iff`). What a shift and a single production preserve holds of each of
them (`Reachable.induction`), however the line is formed.

Two invariants are put to use here. A stack is coherent all the time (`Reachable.coherent`), and its
marker stays at the bottom and comes up nowhere else (`Anchored`). So the automaton never loses the
marker, and a run that fails does so for a reason that lies in the line: `exists_fails_of_run` names
the state in which it fails and the four ways in which it can (`Fails`), none of which is internal.
-/

namespace SearchWords.Automaton

/-! ## Between and within rounds -/

/-- `Reduces stack stack'`: a round that reduces `stack` comes to `stack'`. It may go on from there,
which is what `again` asks for. -/
inductive Reduces : Stack → Stack → Prop where
  | once {stack : Stack} {r : Reduction} : reduce stack = .ok r → Reduces stack r.stack
  | again {stack stack' : Stack} {r : Reduction} {top : Token.Kind} {index : Option Nat} :
      reduce stack = .ok r → topTerminal? r.stack = some (top, index) →
        r.leftmost.rightRank ≤ top.leftRank → Reduces r.stack stack' → Reduces stack stack'

/-- `Reachable tokens s`: a run on `tokens` comes to `s`, at the end of a round or, in a round that
reduces, after one of its reductions. -/
inductive Reachable (tokens : List Token) : State → Prop where
  | round {k : Nat} {s : State} : Steps k (.initial tokens) s → Reachable tokens s
  | within {k : Nat} {stack stack' : Stack} {token : Token} {rest : List Token} {n : Nat}
      {top : Token.Kind} {index : Option Nat} :
      Steps k (.initial tokens) ⟨stack, token :: rest, n⟩ →
        topTerminal? stack = some (top, index) → token.kind.rightRank < top.leftRank →
        Reduces stack stack' → Reachable tokens ⟨stack', token :: rest, n⟩

/-- The states at the ends of rounds are what iterating `step` comes to, and a state within a round
is one that the round of such a state comes through. -/
theorem reachable_iff {tokens : List Token} {s : State} :
    Reachable tokens s ↔
      ∃ k t, (State.initial tokens).after? k = some t ∧
        (s = t ∨
          ∃ token rest top index stack, t.rest = token :: rest ∧
            topTerminal? t.stack = some (top, index) ∧ token.kind.rightRank < top.leftRank ∧
            Reduces t.stack stack ∧ s = { t with stack }) := by
  simp only [after?_eq_some_iff]
  constructor
  · rintro (hsteps | ⟨hsteps, htop, hlt, hr⟩)
    · exact ⟨_, s, hsteps, .inl rfl⟩
    · exact ⟨_, _, hsteps, .inr ⟨_, _, _, _, _, rfl, htop, hlt, hr, rfl⟩⟩
  · rintro ⟨k, t, hsteps, rfl | ⟨token, rest, top, index, stack, hrest, htop, hlt, hr, rfl⟩⟩
    · exact .round hsteps
    · obtain ⟨_, _, n⟩ := t
      obtain rfl := hrest
      exact .within hsteps htop hlt hr

theorem Reduces.preserves {P : Stack → Prop}
    (hP : ∀ {stack r}, Produces stack r → r.height ≤ maxHeight → P stack → P r.stack)
    {stack stack' : Stack} (h : Reduces stack stack') (hs : P stack) : P stack' := by
  induction h with
  | once hr =>
    obtain ⟨hp, hh⟩ := reduce_eq_ok_iff.1 hr
    exact hP hp hh hs
  | again hr _ _ _ ih =>
    obtain ⟨hp, hh⟩ := reduce_eq_ok_iff.1 hr
    exact ih (hP hp hh hs)

theorem Collapses.reduces {stack stack' : Stack} (h : Collapses stack stack') :
    Reduces stack stack' := by
  induction h with
  | last hp hh _ _ => exact .once (reduce_eq_ok_iff.2 ⟨hp, hh⟩)
  | more hp hh htop hge _ ih => exact .again (reduce_eq_ok_iff.2 ⟨hp, hh⟩) htop hge ih

namespace Reachable

variable {tokens : List Token} {s : State}

/-- What holds at first, and is kept by each shift and each production, holds all the time. -/
theorem induction {P : State → Prop} (initial : P (.initial tokens))
    (shift : ∀ {stack token rest n}, token ≠ .stop → P ⟨stack, token :: rest, n⟩ →
      P ⟨.terminal token (some n) :: stack, rest, n + 1⟩)
    (reduce : ∀ {stack r rest n}, Produces stack r → P ⟨stack, rest, n⟩ → P ⟨r.stack, rest, n⟩)
    (h : Reachable tokens s) : P s := by
  have hround : ∀ {s t : State}, Step s t → P s → P t := by
    intro s t hst hs
    cases hst with
    | shift _ hstop _ => exact shift hstop hs
    | reduce _ _ hc =>
      exact hc.reduces.preserves (P := fun stack ↦ P ⟨stack, _, _⟩) (fun hp _ ↦ reduce hp) hs
  cases h with
  | round hsteps => exact hsteps.preserves hround initial
  | within hsteps _ _ hr =>
    exact hr.preserves (P := fun stack ↦ P ⟨stack, _, _⟩) (fun hp _ ↦ reduce hp)
      (hsteps.preserves hround initial)

/-- Coherence holds within rounds as well. -/
theorem coherent (h : Reachable tokens s) : Coherent s.stack := by
  cases h with
  | round hsteps => exact (hsteps.preserves Step.coherent (State.coherent_initial tokens)).stack
  | within hsteps _ _ hr =>
    have hc := (hsteps.preserves Step.coherent (State.coherent_initial tokens)).stack
    exact hr.preserves (fun hp hh hc ↦ hc.reduce hp hh) hc

/-- A stack and the rest of the line make up the line. -/
theorem content_append (h : Reachable tokens s) : content s.stack ++ s.rest = .stop :: tokens := by
  refine h.induction (P := fun s ↦ content s.stack ++ s.rest = .stop :: tokens) rfl ?_ ?_
  · intro stack token rest n _ hs
    simpa [content, Entry.tokens] using hs
  · intro stack r rest n hp hs
    rwa [hp.content_eq]

end Reachable

/-! ## The marker -/

/-- A stack with the marker at its bottom, and at no other place. -/
inductive Anchored : Stack → Prop where
  | marker : Anchored [.terminal .stop none]
  | cons {entry : Entry} {below : Stack} :
      (∀ index, entry ≠ .terminal .stop index) → Anchored below → Anchored (entry :: below)

namespace Anchored

variable {entry : Entry} {stack below : Stack}

theorem of_cons (h : Anchored (entry :: below)) (hne : ∀ index, entry ≠ .terminal .stop index) :
    Anchored below := by
  cases h with
  | marker => exact absurd rfl (hne none)
  | cons _ h => exact h

theorem of_node {e : Expr} {height : Nat} (h : Anchored (.node e height :: below)) :
    Anchored below :=
  h.of_cons (by simp)

theorem of_terminal {token : Token} {index : Option Nat}
    (h : Anchored (.terminal token index :: below)) (hne : token ≠ .stop) : Anchored below :=
  h.of_cons (by simp [hne])

/-- The marker can only be met at the bottom. -/
theorem eq_nil_of_stop {index : Option Nat} (h : Anchored (.terminal .stop index :: below)) :
    below = [] ∧ index = none := by
  cases h with
  | marker => exact ⟨rfl, rfl⟩
  | cons hne _ => exact absurd rfl (hne index)

theorem exists_cons (h : Anchored stack) : ∃ entry below, stack = entry :: below := by
  cases h with
  | marker => exact ⟨_, _, rfl⟩
  | cons _ _ => exact ⟨_, _, rfl⟩

theorem exists_append (h : Anchored stack) :
    ∃ above, stack = above ++ [.terminal .stop none] ∧
      ∀ entry ∈ above, ∀ index, entry ≠ .terminal .stop index := by
  induction h with
  | marker => exact ⟨[], rfl, by simp⟩
  | @cons entry _ hne _ ih =>
    obtain ⟨above, rfl, habove⟩ := ih
    exact ⟨entry :: above, rfl, List.forall_mem_cons.2 ⟨hne, habove⟩⟩

/-- There is always a rightmost token. -/
theorem exists_topTerminal? (h : Anchored stack) :
    ∃ top index, topTerminal? stack = some (top, index) := by
  induction h with
  | marker => exact ⟨_, _, rfl⟩
  | @cons entry _ _ _ ih =>
    cases entry with
    | terminal token index => exact ⟨_, _, rfl⟩
    | node e height => exact ih

/-- A handle does not reach down to the marker. -/
theorem reduce {r : Reduction} (h : Anchored stack) (hp : Produces stack r) :
    Anchored r.stack := by
  refine .cons (by simp) ?_
  cases hp with
  | word _ => exact h.of_terminal (by simp)
  | join hj => exact (h.of_node.of_terminal hj.ne_stop).of_node
  | paren => exact ((h.of_terminal (by simp)).of_node).of_terminal (by simp)
  | exclude => exact h.of_node.of_terminal (by simp)

end Anchored

theorem Reachable.anchored {tokens : List Token} {s : State} (h : Reachable tokens s) :
    Anchored s.stack := by
  refine h.induction (P := fun s ↦ Anchored s.stack) .marker ?_ ?_
  · intro stack token rest n hstop hs
    exact .cons (by simp [hstop]) hs
  · intro stack r rest n hp hs
    exact hs.reduce hp

/-! ## How a run fails -/

/-- `Fails s failure`: no round leads on from `s`, for the reason that `failure` gives. The line has
run out, or has come to its marker where a parenthesis is open, or has come to it where the stack
has more or less than one expression, or the stack has no handle where one is due. -/
inductive Fails : State → Failure → Prop where
  | exhausted {stack : Stack} {n : Nat} :
      Fails ⟨stack, [], n⟩ (.malformed .unexpectedEnd none)
  | unclosed {stack : Stack} {rest : List Token} {n : Nat} {top : Token.Kind}
      {index : Option Nat} :
      topTerminal? stack = some (top, index) → top ≠ .stop →
        top.leftRank ≤ Token.Kind.stop.rightRank →
        Fails ⟨stack, .stop :: rest, n⟩ (.malformed .unclosedParen index)
  | meet {stack : Stack} {rest : List Token} {n : Nat} {index : Option Nat} {failure : Failure} :
      topTerminal? stack = some (.stop, index) → finish stack = .error failure →
        Fails ⟨stack, .stop :: rest, n⟩ failure
  | reduce {stack : Stack} {token : Token} {rest : List Token} {n : Nat} {top : Token.Kind}
      {index : Option Nat} {failure : Failure} :
      topTerminal? stack = some (top, index) → token.kind.rightRank < top.leftRank →
        reduce stack = .error failure → Fails ⟨stack, token :: rest, n⟩ failure

/-- A round that fails to reduce has come to a stack without a handle. The marker is not lost on
the way. -/
theorem exists_of_reduceAll {stack : Stack} {failure : Failure} {kind top : Token.Kind}
    {index : Option Nat} (h : (reduceAll stack).2 = .error failure) (hc : Coherent stack)
    (ha : Anchored stack) (htop : topTerminal? stack = some (top, index))
    (hlt : kind.rightRank < top.leftRank) :
    ∃ stack' top' index', (stack' = stack ∨ Reduces stack stack') ∧
      topTerminal? stack' = some (top', index') ∧ kind.rightRank < top'.leftRank ∧
      reduce stack' = .error failure := by
  fun_induction reduceAll stack generalizing top index with
  | case1 stack failure' hr =>
    obtain rfl := Except.error.inj h
    exact ⟨stack, top, index, .inl rfl, htop, hlt, hr⟩
  | case2 stack r hr hlost =>
    obtain ⟨hp, -⟩ := reduce_eq_ok_iff.1 hr
    obtain ⟨_, _, htop'⟩ := (ha.reduce hp).exists_topTerminal?
    rw [hlost] at htop'
    cases htop'
  | case3 stack r hr top' index' htop' _ => cases h
  | case4 stack r hr top' index' htop' hge moves result hall ih =>
    obtain ⟨hp, hh⟩ := reduce_eq_ok_iff.1 hr
    have hle := Nat.le_of_not_lt hge
    rw [hall] at ih
    obtain ⟨stack'', top'', index'', hstack, hrest⟩ :=
      ih h (hc.reduce hp hh) (ha.reduce hp) htop' (hp.rightRank_lt hc htop hlt htop' hle)
    refine ⟨stack'', top'', index'', .inr ?_, hrest⟩
    rcases hstack with rfl | hstack
    · exact .once hr
    · exact .again hr htop' hle hstack

/-- A round that ends a run without an expression fails in one of four ways, in the state that it
starts from or in one that it comes to. -/
theorem exists_fails_of_outcome {tokens : List Token} {k : Nat} {s : State} {failure : Failure}
    (hsteps : Steps k (.initial tokens) s) (h : s.outcome = .done (.error failure)) :
    ∃ t, Reachable tokens t ∧ Fails t failure := by
  obtain ⟨stack, rest, n⟩ := s
  have hs := Reachable.round hsteps
  obtain ⟨top, index, htop⟩ := hs.anchored.exists_topTerminal?
  cases rest with
  | nil =>
    simp only [State.outcome, step, htop] at h
    obtain rfl := Except.error.inj (Outcome.done.inj h)
    exact ⟨_, hs, .exhausted⟩
  | cons token rest =>
    by_cases hle : top.leftRank ≤ token.kind.rightRank
    · by_cases hstop : token = .stop
      · subst hstop
        by_cases hmeet : top = .stop
        · subst hmeet
          rw [outcome_of_meet htop] at h
          exact ⟨_, hs, .meet htop (Outcome.done.inj h)⟩
        · simp only [State.outcome, step, htop, hmeet, hle, false_and, if_false, if_true] at h
          obtain rfl := Except.error.inj (Outcome.done.inj h)
          exact ⟨_, hs, .unclosed htop hmeet hle⟩
      · rw [outcome_of_shift htop hstop hle] at h
        cases h
    · have hlt := Nat.not_le.1 hle
      rw [outcome_of_reduce htop hlt] at h
      split at h
      · next failure' hall =>
        obtain rfl := Except.error.inj (Outcome.done.inj h)
        obtain ⟨stack', top', index', hstack, htop', hlt', hr⟩ :=
          exists_of_reduceAll hall hs.coherent hs.anchored htop hlt
        refine ⟨⟨stack', token :: rest, n⟩, ?_, .reduce htop' hlt' hr⟩
        rcases hstack with rfl | hstack
        · exact hs
        · exact .within hsteps htop hlt hstack
      · cases h

/-- A run that is not cut off by the limit fails in a state that it reaches. -/
theorem exists_fails_of_run {tokens : List Token} {limit : Nat} {failure : Failure}
    (h : (run tokens limit).result = .error failure) :
    failure = .complexity limit ∨ ∃ s, Reachable tokens s ∧ Fails s failure := by
  have hrun := exists_steps_of_runFrom limit 0 limit (.initial tokens)
  rw [show (runFrom limit 0 limit (.initial tokens)).result = .error failure from h] at hrun
  rcases hrun with ⟨k, s, -, hsteps, hdone⟩ | ⟨-, hcut⟩
  · exact .inr (exists_fails_of_outcome hsteps hdone)
  · exact .inl (Except.error.inj hcut)

/-! ## No state is an internal failure -/

/-- What the automaton takes for granted about its stack. -/
structure WellFormed (stack : Stack) : Prop where
  ne_nil : stack ≠ []
  bottom : stack.getLast? = some (.terminal .stop none)
  stop_only_bottom : ∀ entry ∈ stack.dropLast, ∀ index, entry ≠ .terminal .stop index
  height_eq : ∀ e height, .node e height ∈ stack → height = e.height ∧ height ≤ 256

theorem Anchored.wellFormed {stack : Stack} (ha : Anchored stack) (hc : Coherent stack) :
    WellFormed stack := by
  obtain ⟨above, rfl, habove⟩ := ha.exists_append
  refine ⟨by simp, by simp, by simpa using habove, ?_⟩
  intro e height hmem
  obtain ⟨he, rfl⟩ := hc.sound _ hmem
  exact ⟨rfl, he.height_le⟩

/-- Two markers that meet have nothing between them but expressions. -/
theorem Anchored.finish_ne_internal {stack : Stack} (ha : Anchored stack) {index : Option Nat}
    (htop : topTerminal? stack = some (.stop, index)) (message : String) :
    finish stack ≠ .error (.internal message) := by
  intro h
  unfold finish at h
  split at h
  · cases h
  · cases h
  · next entry below hnode =>
    cases entry with
    | node e height => exact hnode e height rfl
    | terminal token index' =>
      obtain rfl : token = .stop := by
        cases token <;> simp_all [Token.kind]
      cases ha.eq_nil_of_stop.1
  · cases h

theorem Fails.ne_internal {s : State} {failure : Failure} (h : Fails s failure)
    (ha : Anchored s.stack) (message : String) : failure ≠ .internal message := by
  cases h with
  | exhausted => simp
  | unclosed _ _ _ => simp
  | meet htop hf =>
    rintro rfl
    exact ha.finish_ne_internal htop message hf
  | reduce _ _ hr =>
    rintro rfl
    exact reduce_ne_internal _ message hr

/-- Whatever the tokens are, no run ends in an internal failure, and the stack is well-formed in
every state of a run. -/
theorem ofTokens_ne_internal_and_wellFormed :
    (∀ (tokens : List Token) (limit : Nat) (message : String),
        Expr.ofTokens tokens limit ≠ .error (.internal message)) ∧
      ∀ (tokens : List Token) (s : State), Reachable tokens s → WellFormed s.stack := by
  constructor
  · intro tokens limit message h
    rcases exists_fails_of_run h with hcut | ⟨s, hs, hfails⟩
    · cases hcut
    · exact hfails.ne_internal hs.anchored message rfl
  · intro tokens s hs
    exact hs.anchored.wellFormed hs.coherent

/-- Within the round that reduces two exclusions, on a line that goes on after its marker. -/
theorem wellFormed_within_exclusions :
    let tokens : List Token := [.exclude, .exclude, .word (.bare "a"), .stop, .rparen, .stop]
    let s : State :=
      ⟨[.node (.exclude (.word (.bare "a"))) 2, .terminal .exclude (some 0),
        .terminal .stop none], [.stop, .rparen, .stop], 3⟩
    Reachable tokens s ∧ WellFormed s.stack ∧
      ∀ message, Expr.ofTokens tokens 6 ≠ .error (.internal message) := by
  intro tokens s
  have hshifts : Steps 3 (.initial tokens)
      ⟨[.terminal (.word (.bare "a")) (some 2), .terminal .exclude (some 1),
        .terminal .exclude (some 0), .terminal .stop none], [.stop, .rparen, .stop], 3⟩ :=
    .head (.shift rfl (by simp) (by decide))
      (.head (.shift rfl (by simp) (by decide))
        (.single (.shift rfl (by simp) (by decide))))
  have hround : Steps 4 (.initial tokens)
      ⟨[.node (.word (.bare "a")) 1, .terminal .exclude (some 1),
        .terminal .exclude (some 0), .terminal .stop none], [.stop, .rparen, .stop], 3⟩ :=
    hshifts.tail (.reduce rfl (by decide) (.last (.word (by decide)) (by decide) rfl (by decide)))
  have honce : Reduces
      [.node (.word (.bare "a")) 1, .terminal .exclude (some 1), .terminal .exclude (some 0),
        .terminal .stop none] s.stack :=
    .once (r := ⟨.exclude, .exclude (.word (.bare "a")), 2, .exclude,
      [.terminal .exclude (some 0), .terminal .stop none]⟩) rfl
  have hs : Reachable tokens s := .within hround rfl (by decide) honce
  exact ⟨hs, ofTokens_ne_internal_and_wellFormed.2 tokens s hs,
    ofTokens_ne_internal_and_wellFormed.1 tokens 6⟩

end SearchWords.Automaton
