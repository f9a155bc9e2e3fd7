import Mathlib.Logic.Function.Iterate
import SearchWords.Proofs.Automaton.Productions

/-!
# The rounds of the automaton as relations

The automaton is a function that logs its moves, reports failures and counts its rounds. For the
theory of what it accepts none of that matters, so this file restates the parts of it that go well
as relations, one layer at a time, and proves each equal to the function it describes. `Produces`
is the first of them, and the others rest on it:

* `Collapses` is a round that reduces, and `reduceAll_eq_ok_iff` ties it to `reduceAll`;
* `Step` is a round that leads to another state, and `outcome_eq_next_iff` ties it to `step`;
* `Steps` counts such rounds, and `after?_eq_some_iff` ties it to the iteration of `step`.

A run is a sequence of counted steps followed by a round that ends it, unless the limit cuts it off
first. That is `result_runFrom_of_steps` and `result_runFrom_of_le` in one direction and
`exists_steps_of_runFrom` in the other; proofs about runs use these and never unfold the automaton.
-/

namespace SearchWords.Automaton

/-! ## The rightmost token of a stack -/

@[simp] theorem topTerminal?_nil : topTerminal? [] = none := rfl

@[simp] theorem topTerminal?_terminal (token : Token) (index : Option Nat) (stack : Stack) :
    topTerminal? (.terminal token index :: stack) = some (token.kind, index) := rfl

@[simp] theorem topTerminal?_node (expr : Expr) (height : Nat) (stack : Stack) :
    topTerminal? (.node expr height :: stack) = topTerminal? stack := rfl

/-! ## Rounds that reduce -/

/-- `Collapses stack stack'`: handles at the right end of `stack` are replaced, one at least, until
the rightmost token binds less tightly than what was reduced last. What is left is `stack'`. -/
inductive Collapses : Stack → Stack → Prop where
  | last {stack : Stack} {r : Reduction} {top : Token.Kind} {index : Option Nat} :
      Produces stack r → r.height ≤ maxHeight → topTerminal? r.below = some (top, index) →
        top.leftRank < r.leftmost.rightRank → Collapses stack r.stack
  | more {stack stack' : Stack} {r : Reduction} {top : Token.Kind} {index : Option Nat} :
      Produces stack r → r.height ≤ maxHeight → topTerminal? r.below = some (top, index) →
        r.leftmost.rightRank ≤ top.leftRank → Collapses r.stack stack' → Collapses stack stack'

/-- A round of reductions, without the proof that it ends. -/
theorem reduceAll_eq_match (stack : Stack) :
    reduceAll stack =
      match reduce stack with
      | .error failure => ([], .error failure)
      | .ok r =>
        match topTerminal? r.stack with
        | none => ([r.move], .error (.internal "parser stack lost its end marker"))
        | some (top, _) =>
          if top.leftRank < r.leftmost.rightRank then ([r.move], .ok r.stack)
          else (r.move :: (reduceAll r.stack).1, (reduceAll r.stack).2) := by
  rw [reduceAll]
  split
  · next hr => exact hr ▸ rfl
  · next hr => exact hr ▸ rfl

theorem Collapses.of_reduceAll {stack stack' : Stack} (h : (reduceAll stack).2 = .ok stack') :
    Collapses stack stack' := by
  fun_induction reduceAll stack with
  | case1 stack failure => simp at h
  | case2 stack r hr => simp at h
  | case3 stack r hr top index htop hlt =>
    obtain ⟨hp, hh⟩ := reduce_eq_ok_iff.1 hr
    obtain rfl : r.stack = stack' := by simpa using h
    exact .last hp hh htop hlt
  | case4 stack r hr top index htop hge moves result hall ih =>
    obtain ⟨hp, hh⟩ := reduce_eq_ok_iff.1 hr
    rw [hall] at ih
    exact .more hp hh htop (Nat.le_of_not_lt hge) (ih h)

theorem Collapses.reduceAll_eq {stack stack' : Stack} (h : Collapses stack stack') :
    (reduceAll stack).2 = .ok stack' := by
  induction h with
  | last hp hh htop hlt =>
    rw [reduceAll_eq_match, reduce_eq_ok_iff.2 ⟨hp, hh⟩]
    simp [Reduction.stack, htop, hlt]
  | more hp hh htop hge _ ih =>
    rw [reduceAll_eq_match, reduce_eq_ok_iff.2 ⟨hp, hh⟩]
    simpa [Reduction.stack, htop, Nat.not_lt.2 hge] using ih

/-- The function that reduces and the relation agree. -/
theorem reduceAll_eq_ok_iff {stack stack' : Stack} :
    (reduceAll stack).2 = .ok stack' ↔ Collapses stack stack' :=
  ⟨Collapses.of_reduceAll, Collapses.reduceAll_eq⟩

/-! ## Rounds that lead on -/

/-- What a round leads to. Its number matters only for the moves it logs. -/
def State.outcome (s : State) : Outcome :=
  (step 0 s).2

theorem snd_step (round : Nat) (s : State) : (step round s).2 = s.outcome := by
  unfold State.outcome step
  repeat' split
  all_goals rfl

section Outcome

variable {stack : Stack} {token : Token} {rest : List Token} {n : Nat} {top : Token.Kind}
  {index : Option Nat}

theorem outcome_of_shift (htop : topTerminal? stack = some (top, index)) (hs : token ≠ .stop)
    (hle : top.leftRank ≤ token.kind.rightRank) :
    (⟨stack, token :: rest, n⟩ : State).outcome =
      .next ⟨.terminal token (some n) :: stack, rest, n + 1⟩ := by
  simp [State.outcome, step, htop, hs, hle]

/-- A round that reduces leaves the line as it is. Two markers that meet have the same rank, so
they need not be excluded here. -/
theorem outcome_of_reduce (htop : topTerminal? stack = some (top, index))
    (hlt : token.kind.rightRank < top.leftRank) :
    (⟨stack, token :: rest, n⟩ : State).outcome =
      match (reduceAll stack).2 with
      | .error failure => .done (.error failure)
      | .ok stack' => .next ⟨stack', token :: rest, n⟩ := by
  have hne : ¬(top = .stop ∧ token = .stop) := by
    rintro ⟨rfl, rfl⟩
    exact absurd hlt (Nat.lt_irrefl 0)
  simp only [State.outcome, step, htop, hne, Nat.not_le.2 hlt, if_false]
  rcases reduceAll stack with ⟨moves, failure | stack'⟩ <;> rfl

theorem outcome_of_meet (htop : topTerminal? stack = some (.stop, index)) :
    (⟨stack, .stop :: rest, n⟩ : State).outcome = .done (finish stack) := by
  simp [State.outcome, step, htop]

end Outcome

/-- `Step s s'`: a round leads from `s` to `s'`. -/
inductive Step : State → State → Prop where
  | shift {stack : Stack} {token : Token} {rest : List Token} {n : Nat} {top : Token.Kind}
      {index : Option Nat} :
      topTerminal? stack = some (top, index) → token ≠ .stop →
        top.leftRank ≤ token.kind.rightRank →
        Step ⟨stack, token :: rest, n⟩ ⟨.terminal token (some n) :: stack, rest, n + 1⟩
  | reduce {stack stack' : Stack} {token : Token} {rest : List Token} {n : Nat} {top : Token.Kind}
      {index : Option Nat} :
      topTerminal? stack = some (top, index) → token.kind.rightRank < top.leftRank →
        Collapses stack stack' →
        Step ⟨stack, token :: rest, n⟩ ⟨stack', token :: rest, n⟩

/-- What a round does, by the rightmost token of the stack and the next token of the line. -/
theorem Step.of_outcome {s s' : State} (h : s.outcome = .next s') : Step s s' := by
  obtain ⟨stack, rest, n⟩ := s
  cases htop : topTerminal? stack with
  | none => simp [State.outcome, step, htop] at h
  | some top =>
    cases rest with
    | nil => simp [State.outcome, step, htop] at h
    | cons token rest =>
      by_cases hle : top.1.leftRank ≤ token.kind.rightRank
      · by_cases hs : token = .stop
        · simp only [State.outcome, step, htop, hs] at h
          grind
        · rw [outcome_of_shift htop hs hle] at h
          cases h
          exact .shift htop hs hle
      · have hlt := Nat.not_le.1 hle
        rw [outcome_of_reduce htop hlt] at h
        split at h
        · simp at h
        · next stack' hall =>
          cases h
          exact .reduce htop hlt (reduceAll_eq_ok_iff.1 hall)

theorem Step.outcome_eq {s s' : State} (h : Step s s') : s.outcome = .next s' := by
  cases h with
  | shift htop hs hle => exact outcome_of_shift htop hs hle
  | reduce htop hlt hc => rw [outcome_of_reduce htop hlt, reduceAll_eq_ok_iff.2 hc]

/-- The rounds that lead on shift or reduce, as the ranks say. -/
theorem outcome_eq_next_iff {s s' : State} : s.outcome = .next s' ↔ Step s s' :=
  ⟨Step.of_outcome, Step.outcome_eq⟩

/-- The state that a round leads to, if it leads to one. -/
def State.next? (s : State) : Option State :=
  match s.outcome with
  | .next t => some t
  | .done _ => none

theorem next?_eq_some_iff {s t : State} : s.next? = some t ↔ Step s t := by
  rw [← outcome_eq_next_iff, State.next?]
  cases s.outcome with
  | next u => simp
  | done result => simp

theorem eq_of_finish_eq_ok {stack : Stack} {e : Expr} (h : finish stack = .ok e) :
    ∃ height entry, stack = [.node e height, entry] := by
  unfold finish at h
  split at h
  · simp at h
  · next height entry =>
    obtain rfl := Except.ok.inj h
    exact ⟨height, entry, rfl⟩
  · simp at h
  · simp at h

/-- An expression is the result only where nothing but that expression stands above the marker of
the stack, and the line has come to its marker too. -/
theorem eq_of_outcome_eq_ok {s : State} {e : Expr} (h : s.outcome = .done (.ok e)) :
    ∃ height index rest n,
      s = ⟨[.node e height, .terminal .stop index], .stop :: rest, n⟩ := by
  obtain ⟨stack, rest, n⟩ := s
  cases htop : topTerminal? stack with
  | none => simp [State.outcome, step, htop] at h
  | some top =>
    cases rest with
    | nil => simp [State.outcome, step, htop] at h
    | cons token rest =>
      by_cases hmeet : top.1 = .stop ∧ token = .stop
      · obtain ⟨hstop, rfl⟩ := hmeet
        have hmarker : topTerminal? stack = some (.stop, top.2) := by rw [htop, ← hstop]
        rw [outcome_of_meet hmarker] at h
        obtain ⟨height, entry, rfl⟩ := eq_of_finish_eq_ok (Outcome.done.inj h)
        cases entry with
        | node _ _ => simp at htop
        | terminal token index =>
          obtain rfl : token = .stop := by
            simp only [topTerminal?_node, topTerminal?_terminal, Option.some.injEq] at htop
            subst htop
            cases token <;> simp_all [Token.kind]
          exact ⟨height, index, rest, n, rfl⟩
      · by_cases hle : top.1.leftRank ≤ token.kind.rightRank
        · simp only [State.outcome, step, htop, hmeet, hle] at h
          grind
        · rw [outcome_of_reduce htop (Nat.not_le.1 hle)] at h
          split at h <;> simp at h

/-! ## Counted rounds -/

/-- `Steps k s s'`: exactly `k` rounds lead from `s` to `s'`. -/
inductive Steps : Nat → State → State → Prop where
  | refl (s : State) : Steps 0 s s
  | head {k : Nat} {s t u : State} : Step s t → Steps k t u → Steps (k + 1) s u

namespace Steps

theorem single {s t : State} (h : Step s t) : Steps 1 s t :=
  .head h (.refl t)

theorem trans {j k : Nat} {s t u : State} (h : Steps j s t) (h' : Steps k t u) :
    Steps (j + k) s u := by
  induction h with
  | refl s => rwa [Nat.zero_add]
  | head hs _ ih =>
    rw [Nat.add_right_comm]
    exact .head hs (ih h')

theorem tail {k : Nat} {s t u : State} (h : Steps k s t) (h' : Step t u) : Steps (k + 1) s u :=
  h.trans (single h')

/-- What every round preserves, a run preserves. -/
theorem preserves {P : State → Prop} (hP : ∀ {s t}, Step s t → P s → P t) {k : Nat} {s t : State}
    (h : Steps k s t) (hs : P s) : P t := by
  induction h with
  | refl s => exact hs
  | head h _ ih => exact ih (hP h hs)

theorem zero_iff {s t : State} : Steps 0 s t ↔ s = t := by
  constructor
  · rintro ⟨⟩
    rfl
  · rintro rfl
    exact .refl s

theorem succ_iff {k : Nat} {s u : State} : Steps (k + 1) s u ↔ ∃ t, Step s t ∧ Steps k t u := by
  constructor
  · rintro (_ | ⟨hst, htu⟩)
    exact ⟨_, hst, htu⟩
  · rintro ⟨t, hst, htu⟩
    exact .head hst htu

end Steps

/-- The state after `k` rounds from `s` on, unless one of them ends the run. -/
def State.after? (s : State) (k : Nat) : Option State :=
  (fun state? : Option State ↦ state?.bind State.next?)^[k] (some s)

theorem State.after?_succ (s : State) (k : Nat) :
    s.after? (k + 1) = s.next?.bind fun t ↦ t.after? k := by
  have hnone : (fun state? : Option State ↦ state?.bind State.next?)^[k] none = none :=
    Function.iterate_fixed rfl k
  rw [after?, Function.iterate_succ_apply, Option.bind_some]
  cases s.next? with
  | none => exact hnone
  | some t => rfl

/-- Counted rounds are what iterating `step` comes to. -/
theorem after?_eq_some_iff {k : Nat} {s t : State} : s.after? k = some t ↔ Steps k s t := by
  induction k generalizing s with
  | zero => rw [Steps.zero_iff, State.after?, Function.iterate_zero_apply, Option.some.injEq]
  | succ k ih =>
    rw [State.after?_succ, Option.bind_eq_some_iff, Steps.succ_iff]
    simp only [next?_eq_some_iff, ih]

/-! ## Runs -/

theorem result_runFrom_succ (limit round fuel : Nat) (s : State) :
    (runFrom limit round (fuel + 1) s).result =
      match s.outcome with
      | .done result => result
      | .next t => (runFrom limit (round + 1) fuel t).result := by
  rw [runFrom, ← snd_step round s]
  rcases step round s with ⟨moves, t | result⟩ <;> rfl

/-- The first rounds of a run may be taken off. -/
theorem result_runFrom_of_steps {limit k : Nat} {s t : State} (h : Steps k s t)
    (round fuel : Nat) :
    (runFrom limit round (fuel + k) s).result = (runFrom limit (round + k) fuel t).result := by
  induction h generalizing round with
  | refl s => rfl
  | @head k s u t hs _ ih =>
    rw [← Nat.add_assoc, result_runFrom_succ, hs.outcome_eq]
    simp only [ih (round + 1), Nat.add_comm, Nat.add_left_comm]

/-- A run that may take no more rounds than it needs to get somewhere is cut off. -/
theorem result_runFrom_of_le {limit k : Nat} {s t : State} (h : Steps k s t) {fuel : Nat}
    (round : Nat) (hle : fuel ≤ k) :
    (runFrom limit round fuel s).result = .error (.complexity limit) := by
  induction h generalizing round fuel with
  | refl s =>
    obtain rfl := Nat.le_zero.1 hle
    rfl
  | head hs _ ih =>
    cases fuel with
    | zero => rfl
    | succ fuel =>
      rw [result_runFrom_succ, hs.outcome_eq]
      exact ih (round + 1) (Nat.le_of_succ_le_succ hle)

/-- A run takes steps until a round ends it, unless the limit cuts it off first. -/
theorem exists_steps_of_runFrom (limit round fuel : Nat) (s : State) :
    (∃ k t, k < fuel ∧ Steps k s t ∧ t.outcome = .done (runFrom limit round fuel s).result) ∨
      (∃ t, Steps fuel s t) ∧ (runFrom limit round fuel s).result = .error (.complexity limit) := by
  induction fuel generalizing round s with
  | zero => exact .inr ⟨⟨s, .refl s⟩, rfl⟩
  | succ fuel ih =>
    rw [result_runFrom_succ]
    cases ho : s.outcome with
    | done result => exact .inl ⟨0, s, Nat.succ_pos fuel, .refl s, ho⟩
    | next t =>
      have hs := outcome_eq_next_iff.1 ho
      rcases ih (round + 1) t with ⟨k, u, hk, hu, hd⟩ | ⟨⟨u, hu⟩, hc⟩
      · exact .inl ⟨k + 1, u, Nat.succ_lt_succ hk, .head hs hu, hd⟩
      · exact .inr ⟨⟨u, .head hs hu⟩, hc⟩

end SearchWords.Automaton
