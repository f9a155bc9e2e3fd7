import SearchWords.Expr.Parse
import SearchWords.Proofs.Automaton.Coherence

/-!
# The moves of a run that succeeds

A run logs a move for each token that it shifts and for each handle that it replaces. Where a run
succeeds, the log says no more and no less than its result. The shifts are the tokens of the line up
to the marker, and the reductions are the parts of the expression in the order in which they can be
built, operands first (`Expr.postorder`).

In the middle of a run the parts that have been built are those of the expressions on the stack.
`built` lists them, and a production adds the expression it makes and nothing else
(`Produces.built_eq`). What is still to come is the subject of `Traces`: the log from a state on, put
behind what is built in that state, makes up the list of the result. It holds at the end of a run and
is carried back over each round (`Traces.shift`, `Traces.reduce`), hence over the run.
-/

namespace SearchWords

namespace Expr

/-- The parts of an expression, the expression itself among them, each behind its own parts. -/
def postorder : Expr → List Expr
  | .word w => [.word w]
  | .and l r => l.postorder ++ r.postorder ++ [.and l r]
  | .or l r => l.postorder ++ r.postorder ++ [.or l r]
  | .paren e => e.postorder ++ [.paren e]
  | .exclude e => e.postorder ++ [.exclude e]

theorem Joins.postorder_eq {op : Token} {l r e : Expr} (h : Joins op l r e) :
    e.postorder = l.postorder ++ r.postorder ++ [e] := by
  cases h <;> rfl

end Expr

namespace Automaton

/-! ## Moves -/

/-- The round and the kind of a token that is shifted. -/
def Move.shift? : Move → Option (Nat × Token.Kind)
  | .shift round kind => some (round, kind)
  | .reduce _ _ => none

/-- The operation and the height of an expression that is built. -/
def Move.reduce? : Move → Option (Expr.Op × Nat)
  | .shift _ _ => none
  | .reduce op height => some (op, height)

/-- The shifts among some moves, in order. -/
def shifts (moves : List Move) : List (Nat × Token.Kind) :=
  moves.filterMap Move.shift?

/-- The reductions among some moves, in order. -/
def reductions (moves : List Move) : List (Expr.Op × Nat) :=
  moves.filterMap Move.reduce?

/-- What is logged of some expressions that are built one after the other. -/
def record (es : List Expr) : List (Expr.Op × Nat) :=
  es.map fun e ↦ (e.op, e.height)

@[simp] theorem record_append (es fs : List Expr) : record (es ++ fs) = record es ++ record fs :=
  List.map_append

@[simp] theorem shifts_append (moves moves' : List Move) :
    shifts (moves ++ moves') = shifts moves ++ shifts moves' :=
  List.filterMap_append

@[simp] theorem reductions_append (moves moves' : List Move) :
    reductions (moves ++ moves') = reductions moves ++ reductions moves' :=
  List.filterMap_append

/-! ## Expressions that have been built -/

/-- The parts of the expressions on a stack, in the order in which they were built. -/
def built : Stack → List Expr
  | [] => []
  | .terminal _ _ :: below => built below
  | .node e _ :: below => built below ++ e.postorder

/-- A production builds one expression, and no part of it is lost. -/
theorem Produces.built_eq {stack : Stack} {r : Reduction} (h : Produces stack r) :
    built r.stack = built stack ++ [r.expr] := by
  cases h with
  | join h => simp [Reduction.stack, built, h.postorder_eq]
  | _ => simp [Reduction.stack, built, Expr.postorder]

/-- The height that is logged is that of the expression. -/
theorem Produces.record_eq {stack : Stack} {r : Reduction} (h : Produces stack r)
    (hc : Coherent stack) (hh : r.height ≤ maxHeight) :
    record [r.expr] = reductions [r.move] := by
  obtain ⟨-, hheight⟩ := h.sound hc hh
  simp [record, reductions, Reduction.move, Move.reduce?, hheight, h.op_eq]

/-! ## Rounds -/

/-- A round that reduces shifts nothing. -/
theorem shifts_reduceAll (stack : Stack) : shifts (reduceAll stack).1 = [] := by
  fun_induction reduceAll stack with
  | case1 => rfl
  | case2 => rfl
  | case3 => rfl
  | case4 stack r hr top index htop hge moves result hall ih =>
    rw [hall] at ih
    exact ih

/-- A round that reduces logs what it builds. -/
theorem record_built_of_reduceAll {stack stack' : Stack} (hc : Coherent stack)
    (h : (reduceAll stack).2 = .ok stack') :
    record (built stack') = record (built stack) ++ reductions (reduceAll stack).1 := by
  have hstep : ∀ {stack r}, Coherent stack → reduce stack = .ok r →
      Coherent r.stack ∧
        record (built r.stack) = record (built stack) ++ reductions [r.move] := by
    intro stack r hc hr
    obtain ⟨hp, hh⟩ := reduce_eq_ok_iff.1 hr
    exact ⟨hc.reduce hp hh, by rw [hp.built_eq, record_append, hp.record_eq hc hh]⟩
  fun_induction reduceAll stack with
  | case1 stack failure => cases h
  | case2 stack r hr => cases h
  | case3 stack r hr top index htop hlt =>
    obtain rfl := Except.ok.inj h
    exact (hstep hc hr).2
  | case4 stack r hr top index htop hge moves result hall ih =>
    obtain ⟨hc', hr'⟩ := hstep hc hr
    rw [hall] at ih
    rw [ih hc' h, hr', List.append_assoc, ← reductions_append]
    rfl

section Step

variable {stack : Stack} {token : Token} {rest : List Token} {n : Nat} {top : Token.Kind}
  {index : Option Nat}

theorem fst_step_of_shift (round : Nat) (htop : topTerminal? stack = some (top, index))
    (hs : token ≠ .stop) (hle : top.leftRank ≤ token.kind.rightRank) :
    (step round ⟨stack, token :: rest, n⟩).1 = [.shift round token.kind] := by
  simp [step, htop, hs, hle]

theorem fst_step_of_reduce (round : Nat) (htop : topTerminal? stack = some (top, index))
    (hlt : token.kind.rightRank < top.leftRank) :
    (step round ⟨stack, token :: rest, n⟩).1 = (reduceAll stack).1 := by
  have hne : ¬(top = .stop ∧ token = .stop) := by
    rintro ⟨rfl, rfl⟩
    exact absurd hlt (Nat.lt_irrefl 0)
  simp only [step, htop, hne, Nat.not_le.2 hlt, if_false]
  rcases reduceAll stack with ⟨moves, failure | stack'⟩ <;> rfl

theorem fst_step_of_meet (round : Nat) (htop : topTerminal? stack = some (.stop, index)) :
    (step round ⟨stack, .stop :: rest, n⟩).1 = [] := by
  simp [step, htop]

end Step

/-! ## Runs -/

/-- `Traces s round fuel moves e`: from `s` on, `moves` is what a run with the result `e` logs in
its rounds, of which there are at most `fuel` from number `round` on. -/
structure Traces (s : State) (round fuel : Nat) (moves : List Move) (e : Expr) : Prop where
  reduced : record (built s.stack) ++ reductions moves = record e.postorder
  shifted : (shifts moves).map Prod.snd = (s.rest.takeWhile (· ≠ .stop)).map Token.kind
  increasing : ((shifts moves).map Prod.fst).Pairwise (· < ·)
  within : ∀ i ∈ (shifts moves).map Prod.fst, round ≤ i ∧ i < round + fuel

namespace Traces

variable {stack stack' : Stack} {token : Token} {rest : List Token} {n round fuel : Nat}
  {moves : List Move} {e : Expr}

/-- At the end of a run there is nothing left to log. -/
theorem finish {height : Nat} {index : Option Nat} :
    Traces ⟨[.node e height, .terminal .stop index], .stop :: rest, n⟩ round fuel [] e := by
  refine ⟨?_, ?_, .nil, ?_⟩
  · simp [built, reductions]
  · simp [shifts]
  · intro i hi
    cases hi

/-- A round that shifts logs the next token, under a number that does not come again. -/
theorem shift (hs : token ≠ .stop)
    (h : Traces ⟨.terminal token (some n) :: stack, rest, n + 1⟩ (round + 1) fuel moves e) :
    Traces ⟨stack, token :: rest, n⟩ round (fuel + 1) (.shift round token.kind :: moves) e := by
  obtain ⟨hreduced, hshifted, hincreasing, hwithin⟩ := h
  have hshifts : shifts (.shift round token.kind :: moves) =
      (round, token.kind) :: shifts moves := rfl
  refine ⟨hreduced, ?_, ?_, ?_⟩
  · rw [hshifts, List.takeWhile_cons_of_pos (by simp [hs]), List.map_cons, List.map_cons, hshifted]
  · rw [hshifts, List.map_cons, List.pairwise_cons]
    exact ⟨fun i hi ↦ (hwithin i hi).1, hincreasing⟩
  · rw [hshifts, List.map_cons, List.forall_mem_cons]
    refine ⟨⟨Nat.le_refl round, by omega⟩, ?_⟩
    intro i hi
    have := hwithin i hi
    omega

theorem reduce (hc : Coherent stack) (hr : (reduceAll stack).2 = .ok stack')
    (h : Traces ⟨stack', token :: rest, n⟩ (round + 1) fuel moves e) :
    Traces ⟨stack, token :: rest, n⟩ round (fuel + 1) ((reduceAll stack).1 ++ moves) e := by
  obtain ⟨hreduced, hshifted, hincreasing, hwithin⟩ := h
  have hshifts : shifts ((reduceAll stack).1 ++ moves) = shifts moves := by
    rw [shifts_append, shifts_reduceAll, List.nil_append]
  refine ⟨?_, by rwa [hshifts], by rwa [hshifts], ?_⟩
  · rw [reductions_append, ← List.append_assoc, ← record_built_of_reduceAll hc hr]
    exact hreduced
  · intro i hi
    rw [hshifts] at hi
    have := hwithin i hi
    omega

end Traces

theorem moves_runFrom_succ (limit round fuel : Nat) (s : State) :
    (runFrom limit round (fuel + 1) s).moves =
      (step round s).1 ++
        match s.outcome with
        | .done _ => []
        | .next t => (runFrom limit (round + 1) fuel t).moves := by
  rw [runFrom, ← snd_step round s]
  rcases step round s with ⟨moves, t | result⟩
  · rfl
  · exact (List.append_nil moves).symm

/-- What a run logs that succeeds from a coherent state on. -/
theorem traces_of_runFrom {limit round fuel : Nat} {s : State} {tokens : List Token} {e : Expr}
    (hs : s.Coherent tokens) (h : (runFrom limit round fuel s).result = .ok e) :
    Traces s round fuel (runFrom limit round fuel s).moves e := by
  induction fuel generalizing round s with
  | zero => cases h
  | succ fuel ih =>
    rw [result_runFrom_succ] at h
    rw [moves_runFrom_succ]
    cases ho : s.outcome with
    | done result =>
      rw [ho] at h
      obtain rfl : result = .ok e := h
      obtain ⟨height, index, rest, n, rfl⟩ := eq_of_outcome_eq_ok ho
      rw [fst_step_of_meet round rfl]
      exact .finish
    | next t =>
      rw [ho] at h
      have hst := outcome_eq_next_iff.1 ho
      have ht := ih (hst.coherent hs) h
      cases hst with
      | shift htop hstop hle =>
        rw [fst_step_of_shift round htop hstop hle]
        exact ht.shift hstop
      | reduce htop hlt hc =>
        rw [fst_step_of_reduce round htop hlt]
        exact ht.reduce hs.stack (reduceAll_eq_ok_iff.2 hc)

/-- The log of a run with an expression for its result. The shifts are those of the tokens in front
of the first marker, in rounds that get later from one to the next and are all within the limit. The
reductions are those of the parts of the expression in postorder, each with its operation and its
height. -/
theorem moves_of_ofTokens (tokens : List Token) (limit : Nat) (e : Expr)
    (h : Expr.ofTokens tokens limit = .ok e) :
    let moves := (run tokens limit).moves
    (shifts moves).map Prod.snd = (tokens.takeWhile (· ≠ .stop)).map Token.kind ∧
      ((shifts moves).map Prod.fst).Pairwise (· < ·) ∧
      (∀ round ∈ (shifts moves).map Prod.fst, round < limit) ∧
      reductions moves = e.postorder.map fun f ↦ (f.op, f.height) := by
  intro moves
  obtain ⟨hreduced, hshifted, hincreasing, hwithin⟩ :
      Traces (.initial tokens) 0 limit moves e :=
    traces_of_runFrom (State.coherent_initial tokens) h
  refine ⟨hshifted, hincreasing, ?_, hreduced⟩
  intro round hround
  simpa using (hwithin round hround).2

/-- Two exclusions are reduced in one round, and what follows the marker is not shifted. -/
theorem moves_of_ofTokens_exclusions :
    let tokens : List Token :=
      [.lparen, .exclude, .exclude, .word (.bare "a"), .rparen, .or, .word (.quoted "b c"), .stop,
        .rparen]
    let a : Expr := .word (.bare "a")
    let e : Expr := .or (.paren (.exclude (.exclude a))) (.word (.quoted "b c"))
    Expr.ofTokens tokens 20 = .ok e ∧
      (shifts (run tokens 20).moves).map Prod.snd =
        [.lparen, .exclude, .exclude, .word, .rparen, .or, .word] ∧
      reductions (run tokens 20).moves =
        [(.word, 1), (.exclude, 2), (.exclude, 3), (.paren, 4), (.word, 1), (.or, 5)] := by
  intro tokens a e
  have h : Expr.ofTokens tokens 20 = .ok e := by decide +kernel
  obtain ⟨hshifts, -, -, hreductions⟩ := moves_of_ofTokens tokens 20 e h
  exact ⟨h, hshifts, hreductions⟩

end Automaton

end SearchWords
