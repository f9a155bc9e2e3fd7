import SearchWords.Proofs.Automaton.Reachable

/-!
# Rounds of more than one reduction

A round goes on to reduce until the rightmost token of the stack binds less tightly than the token
that its last handle started with. That token is gone by then, but while it stood on the stack its
neighbour yielded to it, as every token does to the next one (`Coherent.ranked`). So a round goes on
only if the two ranks are equal. Those of two exclusions are, and all other ties are with a word or
a closing parenthesis on the left, which form no handle with the expression to the right of them.

Hence a round that succeeds makes one reduction, or it reduces exclusions only
(`moves_of_reduceAll`). That a round comes to an end at all takes no invariant, as a reduction takes
a token off any stack (`wellFounded_reduce`, `length_reduceAll_le`).
-/

namespace SearchWords

namespace Expr.Op

/-- The last token of a handle may have the same rank as the first token of the expression to its
right. Words and groups apart, which are complete by then, both of them are exclusions. -/
theorem eq_exclude_of_leftRank_eq {op op' : Op} (hword : op' ≠ .word) (hparen : op' ≠ .paren)
    (h : op'.closer.leftRank = op.opener.rightRank) : op = .exclude ∧ op' = .exclude := by
  revert hword hparen h
  cases op <;> cases op' <;> decide

end Expr.Op

namespace Automaton

/-! ## Rounds end -/

/-- There is no endless sequence of reductions. -/
theorem wellFounded_reduce :
    WellFounded fun after before : Stack ↦ ∃ r, reduce before = .ok r ∧ r.stack = after := by
  refine Subrelation.wf ?_ (measure terminals).wf
  rintro after before ⟨r, hr, rfl⟩
  exact terminals_lt_of_reduce hr

/-- A round makes no more reductions than there are tokens on the stack. -/
theorem length_reduceAll_le (stack : Stack) : (reduceAll stack).1.length ≤ terminals stack := by
  fun_induction reduceAll stack with
  | case1 stack failure hr => exact Nat.zero_le _
  | case2 stack r hr => exact Nat.zero_lt_of_lt (terminals_lt_of_reduce hr)
  | case3 stack r hr => exact Nat.zero_lt_of_lt (terminals_lt_of_reduce hr)
  | case4 stack r hr top index htop hge moves result hall ih =>
    rw [hall] at ih
    exact ih.trans_lt (terminals_lt_of_reduce hr)

/-! ## What is reduced in a round -/

namespace Produces

variable {stack : Stack} {r r' : Reduction}

/-- With an expression at the right end of the stack, a handle is that of an operator or of an
exclusion. -/
theorem op_ne_of_node {e : Expr} {height : Nat} {below : Stack}
    (h : Produces (.node e height :: below) r) : r.op ≠ .word ∧ r.op ≠ .paren := by
  cases h with
  | join h => cases h <;> simp [Expr.op]
  | exclude => simp

/-- Where a round goes on after a reduction, and succeeds in the next one, both are reductions of
exclusions. -/
theorem op_eq_exclude (hp : Produces stack r) (hc : Coherent stack) {top : Token.Kind}
    {index : Option Nat} (htop : topTerminal? r.stack = some (top, index))
    (hge : r.leftmost.rightRank ≤ top.leftRank) (hp' : Produces r.stack r') :
    r.op = .exclude ∧ r'.op = .exclude := by
  obtain ⟨hword, hparen⟩ := hp'.op_ne_of_node
  -- The token that is left on top is the last one of the next handle.
  obtain rfl := hp'.top_eq htop
  have hle := hp.leftRank_le hc htop
  rw [hp.leftmost_eq, ← hp.op_eq] at hge hle
  rw [← hp'.op_eq] at hge hle
  exact Expr.Op.eq_exclude_of_leftRank_eq hword hparen (le_antisymm hle hge)

end Produces

/-- The moves of a round that succeeds: that of its first reduction, and further ones only if all of
them reduce exclusions. -/
theorem moves_of_reduceAll {stack stack' : Stack} (hc : Coherent stack)
    (h : (reduceAll stack).2 = .ok stack') :
    ∃ r moves, Produces stack r ∧ (reduceAll stack).1 = r.move :: moves ∧
      (moves = [] ∨
        r.op = .exclude ∧ ∀ move ∈ moves, ∃ height, move = .reduce .exclude height) := by
  fun_induction reduceAll stack with
  | case1 stack failure hr => cases h
  | case2 stack r hr => cases h
  | case3 stack r hr top index htop hlt =>
    exact ⟨r, [], (reduce_eq_ok_iff.1 hr).1, rfl, .inl rfl⟩
  | case4 stack r hr top index htop hge moves result hall ih =>
    obtain ⟨hp, hh⟩ := reduce_eq_ok_iff.1 hr
    rw [hall] at ih
    obtain ⟨r', moves', hp', hmoves, hrest⟩ := ih (hc.reduce hp hh) h
    obtain rfl : moves = r'.move :: moves' := hmoves
    obtain ⟨hop, hop'⟩ := hp.op_eq_exclude hc htop (Nat.le_of_not_lt hge) hp'
    refine ⟨r, _, hp, rfl, .inr ⟨hop, List.forall_mem_cons.2 ⟨⟨r'.height, ?_⟩, ?_⟩⟩⟩
    · rw [Reduction.move, hop']
    · rcases hrest with rfl | ⟨-, hrest⟩
      · simp
      · exact hrest

/-- Every reduction takes a token off the stack, so that rounds end. In all states of a run each
token yields to the next one on the stack, and a round that reduces the stack with success makes one
reduction, or two and more which all are reductions of exclusions. -/
theorem ranked_and_reduceAll :
    (∀ stack r, reduce stack = .ok r → terminals r.stack < terminals stack) ∧
      (WellFounded fun after before : Stack ↦ ∃ r, reduce before = .ok r ∧ r.stack = after) ∧
      (∀ stack, (reduceAll stack).1.length ≤ terminals stack) ∧
      ∀ (tokens : List Token) (s : State), Reachable tokens s →
        (kinds s.stack).IsChain (fun above below ↦ below.leftRank ≤ above.rightRank) ∧
          ∀ stack', (reduceAll s.stack).2 = .ok stack' →
            let moves := (reduceAll s.stack).1
            (∃ op height, moves = [.reduce op height]) ∨
              2 ≤ moves.length ∧ ∀ move ∈ moves, ∃ height, move = .reduce .exclude height := by
  refine ⟨fun _ _ ↦ terminals_lt_of_reduce, wellFounded_reduce, length_reduceAll_le, ?_⟩
  intro tokens s hs
  refine ⟨hs.coherent.ranked, ?_⟩
  intro stack' h moves
  obtain ⟨r, rest, -, hmoves, hrest⟩ := moves_of_reduceAll hs.coherent h
  obtain rfl | ⟨hop, hall⟩ := hrest
  · exact .inl ⟨_, _, hmoves⟩
  · cases rest with
    | nil => exact .inl ⟨_, _, hmoves⟩
    | cons move rest =>
      refine .inr ?_
      rw [show moves = r.move :: move :: rest from hmoves]
      exact ⟨by simp, List.forall_mem_cons.2 ⟨⟨r.height, by rw [Reduction.move, hop]⟩, hall⟩⟩

/-- A round that reduces two exclusions, on a line where a parenthesis is left open and operands are
missing. -/
theorem ranked_and_reduceAll_exclusions :
    let tokens : List Token := [.or, .lparen, .exclude, .exclude, .word (.bare "a"), .or, .and]
    let s : State :=
      ⟨[.node (.word (.bare "a")) 1, .terminal .exclude (some 3), .terminal .exclude (some 2),
        .terminal .lparen (some 1), .terminal .or (some 0), .terminal .stop none], [.or, .and], 5⟩
    let moves := (reduceAll s.stack).1
    Reachable tokens s ∧
      (kinds s.stack).IsChain (fun above below ↦ below.leftRank ≤ above.rightRank) ∧
      (reduceAll s.stack).2 = .ok [.node (.exclude (.exclude (.word (.bare "a")))) 3,
        .terminal .lparen (some 1), .terminal .or (some 0), .terminal .stop none] ∧
      2 ≤ moves.length ∧ ∀ move ∈ moves, ∃ height, move = .reduce .exclude height := by
  intro tokens s moves
  have hs : Reachable tokens s :=
    .round (k := 6) <|
      .head (.shift rfl (by simp) (by decide)) <|
      .head (.shift rfl (by simp) (by decide)) <|
      .head (.shift rfl (by simp) (by decide)) <|
      .head (.shift rfl (by simp) (by decide)) <|
      .head (.shift rfl (by simp) (by decide)) <|
      .single (.reduce rfl (by decide) (.last (.word (by decide)) (by decide) rfl (by decide)))
  have hok : (reduceAll s.stack).2 = .ok [.node (.exclude (.exclude (.word (.bare "a")))) 3,
      .terminal .lparen (some 1), .terminal .or (some 0), .terminal .stop none] := by
    decide +kernel
  have htwo : moves = [.reduce .exclude 2, .reduce .exclude 3] := by decide +kernel
  obtain ⟨hranked, hmoves⟩ := ranked_and_reduceAll.2.2.2 tokens s hs
  refine ⟨hs, hranked, hok, ?_⟩
  rcases hmoves _ hok with ⟨op, height, hone⟩ | hall
  · rw [show moves = [.reduce op height] from hone] at htwo
    simp at htwo
  · exact hall

/-- A round may go on after a word too, but it fails then. -/
example :
    reduceAll [.terminal (.word (.bare "b")) (some 1), .terminal (.word (.bare "a")) (some 0),
        .terminal .stop none] =
      ([.reduce .word 1], .error (.malformed .unclassified (some 0))) := by
  decide +kernel

end Automaton

end SearchWords
