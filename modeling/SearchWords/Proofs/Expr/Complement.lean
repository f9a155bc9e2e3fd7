import SearchWords.Expr

/-!
# Complements

A complement is told from the form of an expression: a conjunction is one if both of its operands
are, a disjunction if one of them is, and an exclusion is always one. What it stands for is a search
that finds the texts in which none of its words occurs (`isComplement_iff_eval`).

One half of this holds of every expression. What is true without any of the words owes it to an
exclusion (`isComplement_of_eval`). The other half needs that no exclusion stands below another one.
An exclusion is a complement whatever it excludes, but it is true only if that is false, as is
everything without its words that excludes nothing itself (`eval_eq_false`).
-/

namespace SearchWords.Expr

/-- There is an exclusion in the expression. -/
def hasExclusion : Expr → Bool
  | .word _ => false
  | .and l r | .or l r => l.hasExclusion || r.hasExclusion
  | .paren e => e.hasExclusion
  | .exclude _ => true

/-- No exclusion stands below another one. -/
def excludesOnce : Expr → Bool
  | .word _ => true
  | .and l r | .or l r => l.excludesOnce && r.excludesOnce
  | .paren e => e.excludesOnce
  | .exclude e => !e.hasExclusion

variable {e : Expr} {holds : String → Bool}

/-- An expression that excludes nothing needs one of its words. -/
theorem eval_eq_false (hnone : ∀ w ∈ e.leaves, holds w.text = false)
    (h : e.hasExclusion = false) : e.eval holds = false := by
  induction e with
  | word w => exact hnone w (List.mem_singleton_self w)
  | and l r ihl _ =>
    obtain ⟨hl, -⟩ := List.forall_mem_append.1 hnone
    obtain ⟨hexl, -⟩ := Bool.or_eq_false_iff.1 h
    simp [eval, ihl hl hexl]
  | or l r ihl ihr =>
    obtain ⟨hl, hr⟩ := List.forall_mem_append.1 hnone
    obtain ⟨hexl, hexr⟩ := Bool.or_eq_false_iff.1 h
    simp [eval, ihl hl hexl, ihr hr hexr]
  | paren e ih => exact ih hnone h
  | exclude e _ => cases h

/-- What is true without any of the words is a complement. -/
theorem isComplement_of_eval (hnone : ∀ w ∈ e.leaves, holds w.text = false)
    (h : e.eval holds = true) : e.isComplement = true := by
  induction e with
  | word w =>
    have hfalse : holds w.text = false := hnone w (List.mem_singleton_self w)
    rw [eval, hfalse] at h
    cases h
  | and l r ihl ihr =>
    obtain ⟨hl, hr⟩ := List.forall_mem_append.1 hnone
    obtain ⟨hel, her⟩ := Bool.and_eq_true_iff.1 h
    simp [isComplement, ihl hl hel, ihr hr her]
  | or l r ihl ihr =>
    obtain ⟨hl, hr⟩ := List.forall_mem_append.1 hnone
    rcases Bool.or_eq_true_iff.1 h with hel | her
    · simp [isComplement, ihl hl hel]
    · simp [isComplement, ihr hr her]
  | paren e ih => exact ih hnone h
  | exclude e _ => rfl

/-- A complement whose exclusions are not excluded themselves is true without any of the words. -/
theorem eval_of_isComplement (hnone : ∀ w ∈ e.leaves, holds w.text = false)
    (honce : e.excludesOnce = true) (h : e.isComplement = true) : e.eval holds = true := by
  induction e with
  | word w => cases h
  | and l r ihl ihr =>
    obtain ⟨hl, hr⟩ := List.forall_mem_append.1 hnone
    obtain ⟨hol, hor⟩ := Bool.and_eq_true_iff.1 honce
    obtain ⟨hcl, hcr⟩ := Bool.and_eq_true_iff.1 h
    simp [eval, ihl hl hol hcl, ihr hr hor hcr]
  | or l r ihl ihr =>
    obtain ⟨hl, hr⟩ := List.forall_mem_append.1 hnone
    obtain ⟨hol, hor⟩ := Bool.and_eq_true_iff.1 honce
    rcases Bool.or_eq_true_iff.1 h with hcl | hcr
    · simp [eval, ihl hl hol hcl]
    · simp [eval, ihr hr hor hcr]
  | paren e ih => exact ih hnone honce h
  | exclude e _ =>
    have hexclusion : e.hasExclusion = false := by simpa [excludesOnce] using honce
    have hfalse : e.eval holds = false := eval_eq_false hnone hexclusion
    simp [eval, hfalse]

/-- An expression in which no exclusion stands below another one is a complement if and only if it is
true where none of its words holds. -/
theorem isComplement_iff_eval (e : Expr) (holds : String → Bool)
    (hnone : ∀ w ∈ e.leaves, holds w.text = false) (honce : e.excludesOnce = true) :
    e.isComplement = true ↔ e.eval holds = true := by
  constructor
  · exact eval_of_isComplement hnone honce
  · exact isComplement_of_eval hnone

/-- An alternative makes a complement of a search that requires a word, and a group is excluded. -/
theorem isComplement_iff_eval_alternatives :
    let a : Expr := .word (.bare "a")
    let b : Expr := .word (.quoted "b c")
    let holds : String → Bool := fun text ↦ text = "b"
    let e : Expr := .or (.and a (.exclude b)) (.exclude (.paren (.or b (.and a b))))
    (∀ w ∈ e.leaves, holds w.text = false) ∧ e.excludesOnce = true ∧ e.isComplement = true ∧
      e.eval holds = true := by
  intro a b holds e
  have hnone : ∀ w ∈ e.leaves, holds w.text = false := by decide
  have honce : e.excludesOnce = true := by decide
  have hcomplement : e.isComplement = true := by decide
  exact ⟨hnone, honce, hcomplement, (isComplement_iff_eval e holds hnone honce).1 hcomplement⟩

/-- Below an exclusion, another one takes back what the first one excludes. -/
example :
    let e : Expr := .exclude (.exclude (.word (.bare "a")))
    e.isComplement = true ∧ e.eval (fun _ ↦ false) = false := by decide

end SearchWords.Expr
