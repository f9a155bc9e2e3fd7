import SearchWords.Proofs.Automaton.Reachable

/-!
# The first marker of a line

A run ends where its line has come to the first marker: the marker is met by that of the stack, or
by a parenthesis that is open, or it makes the stack reduce, and then it is still there in the next
round. It is never shifted, so no run sees what stands behind it. `Token.upToStop` is the part of a
line that is seen. A round on this part makes the same moves as a round on the line, and leads to the
same part of what is left (`step_upToStop`), so that the runs are the same (`run_upToStop`).

A line without a marker has no run that succeeds, since it is a marker that ends each of these.
-/

namespace SearchWords

/-- The tokens of a line up to its first marker, the marker included. -/
def Token.upToStop : List Token → List Token
  | [] => []
  | token :: rest => if token = .stop then [.stop] else token :: upToStop rest

/-- The first token is always seen. -/
theorem Token.upToStop_cons (token : Token) (rest : List Token) :
    upToStop (token :: rest) = token :: if token = .stop then [] else upToStop rest := by
  rw [upToStop]
  split
  · next h => rw [h]
  · rfl

theorem Token.upToStop_append {before : List Token} (h : .stop ∉ before) (after : List Token) :
    upToStop (before ++ .stop :: after) = before ++ [.stop] := by
  induction before with
  | nil => rfl
  | cons token before ih =>
    obtain ⟨hne, hbefore⟩ := List.ne_and_not_mem_of_not_mem_cons h
    rw [List.cons_append, upToStop_cons, if_neg hne.symm, ih hbefore, List.cons_append]

namespace Automaton

/-! ## Rounds that do not see the end of the line -/

def State.upToStop (s : State) : State :=
  { s with rest := Token.upToStop s.rest }

def Outcome.upToStop : Outcome → Outcome
  | .next s => .next s.upToStop
  | .done result => .done result

/-- A round on the part of a line that is seen does what a round on the line does. -/
theorem step_upToStop (round : Nat) (s : State) :
    step round s.upToStop = ((step round s).1, (step round s).2.upToStop) := by
  obtain ⟨stack, rest, n⟩ := s
  cases rest with
  | nil =>
    simp only [step, State.upToStop, Token.upToStop]
    cases topTerminal? stack <;> rfl
  | cons token rest =>
    simp only [step, State.upToStop, Token.upToStop_cons]
    cases topTerminal? stack with
    | none => rfl
    | some top =>
      simp only
      split
      · rfl
      split
      · split <;> rfl
      · -- A marker that makes the stack reduce is there again in the next round.
        rcases reduceAll stack with ⟨moves, failure | stack'⟩
        · rfl
        · simp [Outcome.upToStop, State.upToStop, Token.upToStop_cons]

theorem runFrom_upToStop (limit round fuel : Nat) (s : State) :
    runFrom limit round fuel s.upToStop = runFrom limit round fuel s := by
  induction fuel generalizing round s with
  | zero => rfl
  | succ fuel ih =>
    simp only [runFrom, step_upToStop]
    rcases step round s with ⟨moves, t | result⟩
    · simp only [Outcome.upToStop, ih]
    · rfl

/-- A run makes the same moves, and has the same result, on a line and on its tokens up to the first
marker. -/
theorem run_upToStop (tokens : List Token) (limit : Nat) :
    run (Token.upToStop tokens) limit = run tokens limit :=
  runFrom_upToStop limit 0 limit (.initial tokens)

/-- The first marker decides: what stands behind it changes neither an expression nor a failure, and
without a marker there is no expression. -/
theorem ofTokens_first_stop (before : List Token) (h : .stop ∉ before) (limit : Nat) :
    (∀ after, Expr.ofTokens (before ++ .stop :: after) limit =
        Expr.ofTokens (before ++ [.stop]) limit) ∧
      ∃ failure, Expr.ofTokens before limit = .error failure := by
  constructor
  · intro after
    rw [Expr.ofTokens, ← run_upToStop, Token.upToStop_append h]
    rfl
  · cases hrun : Expr.ofTokens before limit with
    | error failure => exact ⟨failure, rfl⟩
    | ok e =>
      obtain ⟨-, rest, rfl⟩ := sound_of_run hrun
      exact absurd (by simp) h

/-- A parenthesis that is closed behind the marker is open all the same, and the words that follow
are not looked at. -/
theorem ofTokens_first_stop_unclosed :
    let before : List Token := [.exclude, .lparen, .word (.bare "a")]
    let after : List Token := [.rparen, .and, .word (.quoted ""), .stop]
    Expr.ofTokens (before ++ .stop :: after) 9 = .error (.malformed .unclosedParen (some 1)) ∧
      ∃ failure, Expr.ofTokens before 9 = .error failure := by
  intro before after
  obtain ⟨hafter, herror⟩ := ofTokens_first_stop before (by decide) 9
  refine ⟨?_, herror⟩
  rw [hafter]
  decide +kernel

end Automaton

end SearchWords
