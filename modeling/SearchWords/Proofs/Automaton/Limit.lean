import SearchWords.Proofs.Automaton.Reachable

/-!
# The limit on rounds

A run is the same under every limit until the limit cuts it off, so there are two things to know of
a limit: that a run which ends below it ends in the same way under any greater one
(`result_run_of_done`), and that no failure of its own looks like being cut off
(`Fails.ne_complexity`, `Fails.malformed_or_tooDeep`).

How many rounds a run can take does not depend on how its line is formed. A round moves a token to
the stack, or takes one off it at least. Each token in front of the first marker is good for one of
each, and the token that always stays is the marker of the stack. The measure that says so is
`State.roundsLeft`, which every round lowers (`Step.roundsLeft_lt`).
-/

namespace SearchWords.Automaton

/-! ## Rounds that are left -/

/-- A bound on the rounds from a state on, the last one included. The marker of the stack is counted
for the round that ends the run. -/
def State.roundsLeft (s : State) : Nat :=
  2 * (s.rest.takeWhile (· ≠ .stop)).length + terminals s.stack

theorem Collapses.terminals_lt {stack stack' : Stack} (h : Collapses stack stack') :
    terminals stack' < terminals stack := by
  induction h with
  | last hp hh _ _ => exact terminals_lt_of_reduce (reduce_eq_ok_iff.2 ⟨hp, hh⟩)
  | more hp hh _ _ _ ih =>
    exact ih.trans (terminals_lt_of_reduce (reduce_eq_ok_iff.2 ⟨hp, hh⟩))

theorem Step.roundsLeft_lt {s t : State} (h : Step s t) : t.roundsLeft < s.roundsLeft := by
  cases h with
  | @shift stack token rest n top index _ hstop _ =>
    have hread : ((token :: rest).takeWhile (· ≠ .stop)).length =
        (rest.takeWhile (· ≠ .stop)).length + 1 := by
      simp [hstop]
    simp only [State.roundsLeft, terminals_terminal]
    omega
  | reduce _ _ hc => exact Nat.add_lt_add_left hc.terminals_lt _

theorem Steps.add_roundsLeft_le {k : Nat} {s t : State} (h : Steps k s t) :
    k + t.roundsLeft ≤ s.roundsLeft := by
  induction h with
  | refl s => exact (Nat.zero_add _).le
  | head hs _ ih =>
    have := hs.roundsLeft_lt
    omega

theorem Anchored.terminals_pos {stack : Stack} (h : Anchored stack) : 0 < terminals stack := by
  obtain ⟨above, rfl, -⟩ := h.exists_append
  simp [terminals, Entry.terminal?]

/-- Twice as many rounds as there are tokens in front of the first marker, and one to end the run:
no run comes to another round after these. -/
theorem Steps.le_of_initial {tokens : List Token} {k : Nat} {s : State}
    (h : Steps k (.initial tokens) s) : k ≤ 2 * (tokens.takeWhile (· ≠ .stop)).length := by
  have hle := h.add_roundsLeft_le
  have hpos := (Reachable.round h).anchored.terminals_pos
  simp only [State.roundsLeft, State.initial, terminals_terminal, terminals_nil] at hle
  omega

/-! ## Runs under different limits -/

/-- A run that comes to its end does so under every limit above the rounds that lead there. -/
theorem result_run_of_done {tokens : List Token} {k limit : Nat} {s : State}
    {result : Except Failure Expr} (hsteps : Steps k (.initial tokens) s)
    (hdone : s.outcome = .done result) (hlt : k < limit) : (run tokens limit).result = result := by
  obtain ⟨fuel, rfl⟩ : ∃ fuel, limit = fuel + 1 + k := ⟨limit - (k + 1), by omega⟩
  rw [run, result_runFrom_of_steps hsteps, result_runFrom_succ, hdone]

/-- Where a run fails by itself, the failure does not blame the limit. -/
theorem Fails.ne_complexity {s : State} {failure : Failure} (h : Fails s failure) (rounds : Nat) :
    failure ≠ .complexity rounds := by
  cases h with
  | exhausted => simp
  | unclosed _ _ _ => simp
  | meet _ hf =>
    rintro rfl
    unfold finish at hf
    split at hf <;> cases hf
  | reduce _ _ hr =>
    rintro rfl
    rcases malformed_or_tooDeep_of_reduce hr with ⟨_, _, hf⟩ | hf <;> cases hf

theorem malformed_or_internal_of_finish {stack : Stack} {failure : Failure}
    (h : finish stack = .error failure) :
    (∃ fault index, failure = .malformed fault index) ∨ ∃ message, failure = .internal message := by
  unfold finish at h
  split at h
  · exact .inl ⟨_, _, (Except.error.inj h).symm⟩
  · cases h
  · exact .inr ⟨_, (Except.error.inj h).symm⟩
  · exact .inl ⟨_, _, (Except.error.inj h).symm⟩

/-- A run that fails by itself finds a fault in its line, or an expression that is too high. -/
theorem Fails.malformed_or_tooDeep {s : State} {failure : Failure} (h : Fails s failure)
    (ha : Anchored s.stack) :
    (∃ fault index, failure = .malformed fault index) ∨ failure = .tooDeep maxHeight := by
  cases h with
  | exhausted => exact .inl ⟨_, _, rfl⟩
  | unclosed _ _ _ => exact .inl ⟨_, _, rfl⟩
  | meet htop hf =>
    rcases malformed_or_internal_of_finish hf with hmalformed | ⟨message, rfl⟩
    · exact .inl hmalformed
    · exact absurd hf (ha.finish_ne_internal htop message)
  | reduce _ _ hr => exact malformed_or_tooDeep_of_reduce hr

/-- Where the limit leaves enough rounds, a run fails by itself if it fails. -/
theorem exists_fails_of_le {tokens : List Token} {limit : Nat} {failure : Failure}
    (hle : 2 * (tokens.takeWhile (· ≠ .stop)).length + 1 ≤ limit)
    (h : (run tokens limit).result = .error failure) :
    ∃ s, Reachable tokens s ∧ Fails s failure := by
  rcases exists_steps_of_runFrom limit 0 limit (.initial tokens) with
    ⟨k, s, -, hsteps, hdone⟩ | ⟨⟨s, hsteps⟩, -⟩
  · exact exists_fails_of_outcome hsteps (hdone.trans (congrArg _ h))
  · have := hsteps.le_of_initial
    omega

/-- The limit changes nothing about a run but to cut it off, which the failure says with the limit
itself, and a limit of twice the tokens in front of the first marker and one never does so. -/
theorem ofTokens_limit (tokens : List Token) (limit : Nat) :
    ((∀ rounds, Expr.ofTokens tokens limit ≠ .error (.complexity rounds)) →
        ∀ limit', limit ≤ limit' → Expr.ofTokens tokens limit' = Expr.ofTokens tokens limit) ∧
      (∀ rounds, Expr.ofTokens tokens limit = .error (.complexity rounds) → rounds = limit) ∧
      (2 * (tokens.takeWhile (· ≠ .stop)).length + 1 ≤ limit →
        ∀ rounds, Expr.ofTokens tokens limit ≠ .error (.complexity rounds)) := by
  have hlimit : ∀ {rounds}, Expr.ofTokens tokens limit = .error (.complexity rounds) →
      rounds = limit := by
    intro rounds h
    rcases exists_fails_of_run h with hcut | ⟨s, -, hfails⟩
    · exact Failure.complexity.inj hcut
    · exact absurd rfl (hfails.ne_complexity rounds)
  have hrun := exists_steps_of_runFrom limit 0 limit (.initial tokens)
  refine ⟨?_, fun _ ↦ hlimit, ?_⟩
  · intro hne limit' hle
    rcases hrun with ⟨k, s, hlt, hsteps, hdone⟩ | ⟨-, hcut⟩
    · exact result_run_of_done hsteps hdone (hlt.trans_le hle)
    · exact absurd hcut (hne limit)
  · intro hle rounds h
    rcases hrun with ⟨k, s, hlt, hsteps, hdone⟩ | ⟨⟨s, hsteps⟩, -⟩
    · obtain ⟨t, -, hfails⟩ := exists_fails_of_outcome hsteps (hdone.trans (congrArg _ h))
      exact hfails.ne_complexity rounds rfl
    · have := hsteps.le_of_initial
      omega

/-- A pair of exclusions takes six rounds: three that shift, one for the word, one for both of the
exclusions, and the last. What follows the marker does not count. -/
theorem ofTokens_limit_exclusions :
    let tokens : List Token := [.exclude, .exclude, .word (.bare "a"), .stop, .rparen]
    (∃ rounds, Expr.ofTokens tokens 5 = .error (.complexity rounds) ∧ rounds = 5) ∧
      ∀ limit, 7 ≤ limit →
        Expr.ofTokens tokens limit = .ok (.exclude (.exclude (.word (.bare "a")))) := by
  intro tokens
  have hcut : Expr.ofTokens tokens 5 = .error (.complexity 5) := by decide +kernel
  have hok : Expr.ofTokens tokens 7 = .ok (.exclude (.exclude (.word (.bare "a")))) := by
    decide +kernel
  obtain ⟨-, hrounds, -⟩ := ofTokens_limit tokens 5
  obtain ⟨hgreater, -, hlinear⟩ := ofTokens_limit tokens 7
  refine ⟨⟨5, hcut, hrounds 5 hcut⟩, ?_⟩
  intro limit hle
  rw [← hok]
  exact hgreater (hlinear (by decide)) limit hle

end SearchWords.Automaton
