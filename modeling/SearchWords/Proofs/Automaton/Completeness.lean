import SearchWords.Proofs.Automaton.Rounds

/-!
# Canonical expressions are read

The tokens of a canonical expression take the automaton from any stack on which a term may start to
that stack with the expression on top, and the number of rounds is the one that `Expr.rounds` gives:
this is `Reads`, which holds of whatever can be built by induction on the expression. The next token
of the line has to be one that makes the expression reduce, for otherwise it would become part of
it.

Exclusions need some care. Those in a row are reduced in one round, so that after the tokens of an
expression that follows an exclusion there may be no expression on the stack yet, but exclusions
waiting for their operand. `pending` is that stack, and `Collapses.pending` says that a round which
reduces treats it like the one with the expression.

As every round is determined by the state, the count is exact: `result_run_tokens` gives the result
of a run on the tokens of such an expression for every limit, and not only for those high enough.
-/

namespace SearchWords.Automaton

/-- The stack after the tokens of an expression. Behind an exclusion, further exclusions at the
front of the expression are not reduced yet; `n` is the index of the first token. -/
def pending : (excluded : Bool) → Expr → (n : Nat) → Stack → Stack
  | true, .exclude e, n, stack => pending true e (n + 1) (.terminal .exclude (some n) :: stack)
  | _, e, _, stack => .node e e.height :: stack

@[simp] theorem pending_false (e : Expr) (n : Nat) (stack : Stack) :
    pending false e n stack = .node e e.height :: stack := by
  cases e <;> rfl

theorem topTerminal?_pending (e : Expr) (n : Nat) {stack : Stack} {index : Option Nat}
    (htop : topTerminal? stack = some (.exclude, index)) :
    ∃ index', topTerminal? (pending true e n stack) = some (.exclude, index') := by
  induction e generalizing n stack index with
  | exclude e ih => exact ih (n + 1) rfl
  | _ => exact ⟨index, htop⟩

/-- Exclusions that wait for their operand are reduced on the way to whatever the expression would
be reduced to. -/
theorem Collapses.pending {e : Expr} (hh : e.height ≤ maxHeight) (n : Nat) {stack stack' : Stack}
    {index : Option Nat} (htop : topTerminal? stack = some (.exclude, index))
    (h : Collapses (.node e e.height :: stack) stack') :
    Collapses (pending true e n stack) stack' := by
  induction e generalizing n stack index with
  | exclude e ih =>
    have hle : e.height ≤ maxHeight := Nat.le_of_succ_le hh
    exact ih hle (n + 1) rfl (.more .exclude hh htop (Nat.le_refl _) h)
  | _ => exact h

/-! ## Reading each kind of expression -/

/-- `Reads e`: from a stack on which a term may start, the tokens of `e` lead to the stack with `e`
on it, in exactly as many rounds as `e` counts. -/
def Reads (e : Expr) : Prop :=
  ∀ ⦃stack : Stack⦄ ⦃top : Token.Kind⦄ ⦃index : Option Nat⦄ ⦃token : Token⦄ ⦃rest : List Token⦄
    (n : Nat), topTerminal? stack = some (top, index) →
    top.leftRank < Token.Kind.word.rightRank → top.leftRank ≤ e.op.opener.rightRank →
    token.kind.rightRank < e.op.closer.leftRank →
    Steps (e.rounds (top == .exclude)) ⟨stack, e.tokens ++ token :: rest, n⟩
      ⟨pending (top == .exclude) e n stack, token :: rest, n + e.tokens.length⟩

namespace Reads

/-- Where no exclusion stands in front, an expression is reduced as soon as it is read. -/
theorem of_ne {e : Expr} (h : Reads e) {stack : Stack} {top : Token.Kind} {index : Option Nat}
    {token : Token} {rest : List Token} (n : Nat) (htop : topTerminal? stack = some (top, index))
    (hne : top ≠ .exclude) (hopen : top.leftRank < Token.Kind.word.rightRank)
    (hleft : top.leftRank ≤ e.op.opener.rightRank)
    (hright : token.kind.rightRank < e.op.closer.leftRank) :
    Steps (e.rounds false) ⟨stack, e.tokens ++ token :: rest, n⟩
      ⟨.node e e.height :: stack, token :: rest, n + e.tokens.length⟩ := by
  have hread : Steps _ ⟨stack, e.tokens ++ token :: rest, n⟩ _ := h n htop hopen hleft hright
  rwa [beq_eq_false_iff_ne.2 hne, pending_false] at hread

theorem word {w : Word} (hw : w.isSearchable = true) : Reads (.word w) := by
  intro stack top index token rest n htop hopen _ hright
  have hone : 1 ≤ maxHeight := by decide
  have hshift : Step ⟨stack, .word w :: token :: rest, n⟩
      ⟨.terminal (.word w) (some n) :: stack, token :: rest, n + 1⟩ :=
    .shift htop (by simp) (Nat.le_of_lt hopen)
  have hreduce : Step ⟨.terminal (.word w) (some n) :: stack, token :: rest, n + 1⟩
      ⟨.node (.word w) 1 :: stack, token :: rest, n + 1⟩ :=
    .reduce rfl hright (.last (.word hw) hone htop hopen)
  cases top == .exclude <;> exact .head hshift (.single hreduce)

/-- A group is read by shifting the parentheses around its content and reducing once. -/
theorem paren {e : Expr} (h : Reads e) (hh : e.height + 1 ≤ maxHeight) : Reads (.paren e) := by
  intro stack top index token rest n htop hopen _ hright
  have hopened : Step ⟨stack, .lparen :: (e.tokens ++ .rparen :: token :: rest), n⟩
      ⟨.terminal .lparen (some n) :: stack, e.tokens ++ .rparen :: token :: rest, n + 1⟩ :=
    .shift htop (by simp) (Nat.le_of_lt hopen)
  have hread : Steps (e.rounds false)
      ⟨.terminal .lparen (some n) :: stack, e.tokens ++ .rparen :: token :: rest, n + 1⟩
      ⟨.node e e.height :: .terminal .lparen (some n) :: stack, .rparen :: token :: rest,
        n + 1 + e.tokens.length⟩ :=
    h.of_ne (n + 1) rfl (by decide) (by decide) (Nat.zero_le _) e.op.closer_pos
  have hclosed : Step
      ⟨.node e e.height :: .terminal .lparen (some n) :: stack, .rparen :: token :: rest,
        n + 1 + e.tokens.length⟩
      ⟨.terminal .rparen (some (n + 1 + e.tokens.length)) :: .node e e.height ::
        .terminal .lparen (some n) :: stack, token :: rest, n + 1 + e.tokens.length + 1⟩ :=
    .shift rfl (by simp) (Nat.le_refl 0)
  have hreduce : Step
      ⟨.terminal .rparen (some (n + 1 + e.tokens.length)) :: .node e e.height ::
        .terminal .lparen (some n) :: stack, token :: rest, n + 1 + e.tokens.length + 1⟩
      ⟨.node (.paren e) (e.height + 1) :: stack, token :: rest, n + 1 + e.tokens.length + 1⟩ :=
    .reduce rfl hright (.last .paren hh htop hopen)
  have htokens : (Expr.paren e).tokens ++ token :: rest =
      .lparen :: (e.tokens ++ .rparen :: token :: rest) := by simp [Expr.tokens]
  have hlength : n + (Expr.paren e).tokens.length = n + 1 + e.tokens.length + 1 := by
    simp only [Expr.tokens, List.length_cons, List.length_append, List.length_nil]
    omega
  rw [htokens, hlength]
  cases top == .exclude <;> exact .head hopened ((hread.tail hclosed).tail hreduce)

/-- A conjunction or disjunction is read by shifting the operator between its operands and reducing
once after them. -/
theorem join {op : Token} {l r e : Expr} (h : Expr.Joins op l r e) (hh : e.height ≤ maxHeight)
    (hl : op.kind.rightRank < l.op.closer.leftRank)
    (hr : op.kind.leftRank ≤ r.op.opener.rightRank) (ihl : Reads l) (ihr : Reads r) : Reads e := by
  intro stack top index token rest n htop hopen hleft hright
  have hassoc := h.rightRank_lt_leftRank
  have hexclude := h.leftRank_lt_exclude
  have hword : Token.Kind.exclude.leftRank < Token.Kind.word.rightRank := by decide
  -- As operators group to the left, the token in front yields to the operator for good.
  have hlt : top.leftRank < op.kind.rightRank := by
    have := Expr.Op.lt_opener_or_closer_le hleft
    rw [h.opener_eq] at this hleft
    rw [h.closer_eq] at this
    omega
  rw [h.closer_eq] at hright
  have hne : top ≠ .exclude := by
    rintro rfl
    omega
  have hne' : op.kind ≠ .exclude := by
    intro heq
    rw [heq] at hexclude
    omega
  have hreadl : Steps (l.rounds false) ⟨stack, l.tokens ++ op :: (r.tokens ++ token :: rest), n⟩
      ⟨.node l l.height :: stack, op :: (r.tokens ++ token :: rest), n + l.tokens.length⟩ := by
    have := l.op.closer_le_opener_add_one
    exact ihl.of_ne n htop hne hopen (by omega) hl
  have hshift : Step
      ⟨.node l l.height :: stack, op :: (r.tokens ++ token :: rest), n + l.tokens.length⟩
      ⟨.terminal op (some (n + l.tokens.length)) :: .node l l.height :: stack,
        r.tokens ++ token :: rest, n + l.tokens.length + 1⟩ :=
    .shift htop h.ne_stop (Nat.le_of_lt hlt)
  have hreadr : Steps (r.rounds false)
      ⟨.terminal op (some (n + l.tokens.length)) :: .node l l.height :: stack,
        r.tokens ++ token :: rest, n + l.tokens.length + 1⟩
      ⟨.node r r.height :: .terminal op (some (n + l.tokens.length)) :: .node l l.height :: stack,
        token :: rest, n + l.tokens.length + 1 + r.tokens.length⟩ := by
    have := r.op.opener_le_closer
    exact ihr.of_ne _ rfl hne' (by omega) hr (by omega)
  have hreduce : Step
      ⟨.node r r.height :: .terminal op (some (n + l.tokens.length)) :: .node l l.height :: stack,
        token :: rest, n + l.tokens.length + 1 + r.tokens.length⟩
      ⟨.node e e.height :: stack, token :: rest, n + l.tokens.length + 1 + r.tokens.length⟩ := by
    rw [h.height_eq] at hh ⊢
    exact .reduce rfl hright (.last (.join h) hh htop hlt)
  have htokens : e.tokens ++ token :: rest = l.tokens ++ op :: (r.tokens ++ token :: rest) := by
    simp [h.tokens_eq]
  have hlength : n + e.tokens.length = n + l.tokens.length + 1 + r.tokens.length := by
    simp only [h.tokens_eq, List.length_append, List.length_cons]
    omega
  have hrounds : e.rounds (top == .exclude) = l.rounds false + 1 + (r.rounds false + 1) := by
    rw [h.rounds_eq]
    omega
  rw [htokens, hlength, hrounds, beq_eq_false_iff_ne.2 hne, pending_false]
  exact (hreadl.tail hshift).trans (hreadr.tail hreduce)

/-- An exclusion is shifted first. Behind another exclusion it goes on waiting; otherwise all
exclusions in the row are reduced in the round after their operand. -/
theorem exclude {e : Expr} (h : Reads e) (hh : e.height + 1 ≤ maxHeight)
    (hfit : Token.Kind.exclude.leftRank ≤ e.op.opener.rightRank) : Reads (.exclude e) := by
  intro stack top index token rest n htop hopen hleft hright
  have hwaits : topTerminal? (.terminal .exclude (some n) :: stack) = some (.exclude, some n) := rfl
  have hshift : Step ⟨stack, .exclude :: (e.tokens ++ token :: rest), n⟩
      ⟨.terminal .exclude (some n) :: stack, e.tokens ++ token :: rest, n + 1⟩ :=
    .shift htop (by simp) hleft
  have hread : Steps (e.rounds true)
      ⟨.terminal .exclude (some n) :: stack, e.tokens ++ token :: rest, n + 1⟩
      ⟨pending true e (n + 1) (.terminal .exclude (some n) :: stack), token :: rest,
        n + 1 + e.tokens.length⟩ := by
    have := e.op.opener_le_closer
    exact h (n + 1) hwaits (by decide) hfit (Nat.lt_of_lt_of_le hright (Nat.le_trans hfit this))
  have hlength : n + (Expr.exclude e).tokens.length = n + 1 + e.tokens.length := by
    simp only [Expr.tokens, List.length_cons]
    omega
  rw [hlength]
  by_cases hex : top = .exclude
  · subst hex
    exact .head hshift hread
  · have hlt : top.leftRank < Token.Kind.exclude.rightRank := by
      have : top.leftRank ≠ Token.Kind.exclude.rightRank := by
        cases top <;> first | decide | exact absurd rfl hex
      exact Nat.lt_of_le_of_ne hleft this
    obtain ⟨_, hpending⟩ := topTerminal?_pending e (n + 1) hwaits
    have hreduce : Step
        ⟨pending true e (n + 1) (.terminal .exclude (some n) :: stack), token :: rest,
          n + 1 + e.tokens.length⟩
        ⟨.node (.exclude e) (e.height + 1) :: stack, token :: rest, n + 1 + e.tokens.length⟩ :=
      .reduce hpending hright
        (.pending (Nat.le_of_succ_le hh) (n + 1) hwaits (.last .exclude hh htop hlt))
    rw [beq_eq_false_iff_ne.2 hex, pending_false]
    exact .head hshift (hread.tail hreduce)

end Reads

/-! ## Reading a canonical expression -/

/-- The tokens of every expression that can be built are read. -/
theorem reads_of_buildable {e : Expr} (he : e.Buildable) : Reads e := by
  induction e with
  | word w => exact .word (Expr.buildable_word.1 he)
  | and l r ihl ihr =>
    obtain ⟨hbl, hbr, hl, hr, hh⟩ := (Expr.Joins.and l r).buildable_iff.1 he
    exact .join (.and l r) hh hl hr (ihl hbl) (ihr hbr)
  | or l r ihl ihr =>
    obtain ⟨hbl, hbr, hl, hr, hh⟩ := (Expr.Joins.or l r).buildable_iff.1 he
    exact .join (.or l r) hh hl hr (ihl hbl) (ihr hbr)
  | paren e ih =>
    obtain ⟨hb, hh⟩ := Expr.buildable_paren.1 he
    exact (ih hb).paren hh
  | exclude e ih =>
    obtain ⟨hb, hfit, hh⟩ := Expr.buildable_exclude.1 he
    exact (ih hb).exclude hh hfit

/-- The result of a run on the tokens of an expression that can be built is that expression, if the
limit allows the rounds that the expression costs. Otherwise the run is cut off. -/
theorem result_run_tokens {e : Expr} (he : e.Buildable) (limit : Nat) :
    (run (e.tokens ++ [.stop]) limit).result =
      if e.cost ≤ limit then .ok e else .error (.complexity limit) := by
  have hsteps : Steps (e.rounds false) (.initial (e.tokens ++ [.stop]))
      ⟨[.node e e.height, .terminal .stop none], [.stop], 0 + e.tokens.length⟩ :=
    (reads_of_buildable he).of_ne 0 rfl (by decide) (by decide) (Nat.zero_le _) e.op.closer_pos
  split
  · next hcost =>
    obtain ⟨fuel, rfl⟩ : ∃ fuel, limit = fuel + 1 + e.rounds false :=
      ⟨limit - e.cost, by unfold Expr.cost at *; omega⟩
    rw [run, result_runFrom_of_steps hsteps, result_runFrom_succ, outcome_of_meet rfl]
    rfl
  · next hcost =>
    exact result_runFrom_of_le hsteps 0 (by unfold Expr.cost at hcost; omega)

end SearchWords.Automaton
