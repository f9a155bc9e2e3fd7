import Mathlib.Data.List.Forall2
import SearchWords.Compiler

/-!
# Conjunctions in boolean mode

A conjunction takes two operands, and one of them may be a conjunction again. In boolean mode there
is no such nesting. The operands of all of these conjunctions, which `Expr.conjuncts` lists, are
written side by side, each with one sign: a plus sign in front of a word, a disjunction or a group,
and the minus sign that an exclusion has of its own (`Conjunct`).

Whether an operand gets a sign is decided at the conjunction right above it, which leaves a
conjunction as it is, since the operands of that one have been given their signs before.
`exists_conjuncts` follows this on both sides. The order of the operands is all that remains, so
grouping them in another way makes no difference, wherever in an expression this is done
(`Expr.Regrouped`).
-/

namespace SearchWords

universe u

namespace Expr

/-- The operands of a conjunction, and those of the conjunctions among them, from left to right. -/
def conjuncts : Expr → List Expr
  | .and l r => l.conjuncts ++ r.conjuncts
  | .word w => [.word w]
  | .or l r => [.or l r]
  | .paren e => [.paren e]
  | .exclude e => [.exclude e]

/-- Expressions that differ only in how the operands of their conjunctions are grouped. -/
inductive Regrouped : (e f : Expr) → Prop where
  | refl (e : Expr) : Regrouped e e
  | symm {e f : Expr} : Regrouped e f → Regrouped f e
  | trans {e f g : Expr} : Regrouped e f → Regrouped f g → Regrouped e g
  | assoc (e f g : Expr) : Regrouped (.and (.and e f) g) (.and e (.and f g))
  | and {l l' r r' : Expr} : Regrouped l l' → Regrouped r r' → Regrouped (.and l r) (.and l' r')
  | or {l l' r r' : Expr} : Regrouped l l' → Regrouped r r' → Regrouped (.or l r) (.or l' r')
  | paren {e f : Expr} : Regrouped e f → Regrouped (.paren e) (.paren f)
  | exclude {e f : Expr} : Regrouped e f → Regrouped (.exclude e) (.exclude f)

theorem Regrouped.op_eq {e f : Expr} (h : Regrouped e f) : e.op = f.op := by
  induction h with
  | symm _ ih => exact ih.symm
  | trans _ _ ih ih' => exact ih.trans ih'
  | _ => rfl

theorem conjuncts_ne_nil (e : Expr) : e.conjuncts ≠ [] := by
  induction e with
  | and l r ihl _ => simp [conjuncts, ihl]
  | _ => simp [conjuncts]

end Expr

namespace Compiler

variable {α : Type u}

/-- `Conjunct c e s`: as an operand of a conjunction, the expression `e` is written `s`. A conjunction
is no such operand. -/
inductive Conjunct (c : Compiler α) : (e : Expr) → (s : String) → Prop where
  | word (w : Word) : Conjunct c (.word w) ("+" ++ (c.fragment (.word w)).ibl)
  | or (l r : Expr) : Conjunct c (.or l r) ("+" ++ (c.fragment (.or l r)).ibl)
  | paren (e : Expr) : Conjunct c (.paren e) ("+(" ++ (c.fragment (.paren e)).ibl ++ ")")
  | exclude (e : Expr) : Conjunct c (.exclude e) (c.fragment (.exclude e)).ibl

/-- What a sign is put in front of: a word, or a group in parentheses. -/
inductive Signable (c : Compiler α) : (s : String) → Prop where
  | word (w : Word) : Signable c (c.fragment (.word w)).ibl
  | group (s : String) : Signable c ("(" ++ s ++ ")")

/-- The expression is written with a minus sign if it is an exclusion and with a plus sign otherwise,
and there is no other sign in front of it. -/
def SignedOnce (c : Compiler α) (e : Expr) (s : String) : Prop :=
  ∃ t, c.Signable t ∧ s = (if e.op = .exclude then "-" else "+") ++ t

variable {c : Compiler α} {e f : Expr} {s : String}

theorem signedOnce_negated (e : Expr) : c.SignedOnce (.exclude e) (c.fragment (.exclude e)).ibl := by
  have hgroup : "-(" ++ (c.fragment e).ibl ++ ")" = "-" ++ ("(" ++ (c.fragment e).ibl ++ ")") :=
    String.toList_inj.1 (by simp)
  cases e with
  | word w => exact ⟨_, .word w, rfl⟩
  | _ => exact ⟨_, .group _, hgroup⟩

theorem Conjunct.signedOnce (h : c.Conjunct e s) : c.SignedOnce e s := by
  cases h with
  | word w => exact ⟨_, .word w, rfl⟩
  | or l r =>
    exact ⟨_, .group ((c.fragment l).ibl ++ " " ++ (c.fragment r).ibl),
      String.toList_inj.1 (by simp [fragment, Expr.op])⟩
  | paren e =>
    exact ⟨_, .group (c.fragment (.paren e)).ibl, String.toList_inj.1 (by simp [Expr.op])⟩
  | exclude e => exact signedOnce_negated e

/-- At a conjunction, an operand adds the texts of its own conjuncts, whatever it is. -/
theorem exists_conjuncts (c : Compiler α) (e : Expr) :
    ∃ texts, List.Forall₂ c.Conjunct e.conjuncts texts ∧
      signed e.op (c.fragment e).ibl = " ".intercalate texts := by
  induction e with
  | word w => exact ⟨_, .cons (.word w) .nil, String.intercalate_singleton.symm⟩
  | and l r ihl ihr =>
    obtain ⟨ls, hls, hl⟩ := ihl
    obtain ⟨rs, hrs, hr⟩ := ihr
    have hlne : ls ≠ [] := by
      rintro rfl
      exact l.conjuncts_ne_nil (List.forall₂_nil_right_iff.1 hls)
    have hrne : rs ≠ [] := by
      rintro rfl
      exact r.conjuncts_ne_nil (List.forall₂_nil_right_iff.1 hrs)
    refine ⟨ls ++ rs, List.rel_append hls hrs, ?_⟩
    rw [String.intercalate_append_of_ne_nil hlne hrne, ← hl, ← hr]
    rfl
  | or l r => exact ⟨_, .cons (.or l r) .nil, String.intercalate_singleton.symm⟩
  | paren e => exact ⟨_, .cons (.paren e) .nil, String.intercalate_singleton.symm⟩
  | exclude e => exact ⟨_, .cons (.exclude e) .nil, String.intercalate_singleton.symm⟩

/-- How the operands of conjunctions are grouped does not show. -/
theorem ibl_eq_of_regrouped (h : e.Regrouped f) : (c.fragment e).ibl = (c.fragment f).ibl := by
  induction h with
  | refl e => rfl
  | symm _ ih => exact ih.symm
  | trans _ _ ih ih' => exact ih.trans ih'
  | assoc e f g => simp [fragment, signed, Expr.op, String.append_assoc]
  | and hl hr ihl ihr => simp [fragment, ihl, ihr, hl.op_eq, hr.op_eq]
  | or _ _ ihl ihr => simp [fragment, ihl, ihr]
  | paren _ ih => simp [fragment, ih]
  | exclude h ih => simp [fragment, ih, h.op_eq]

/-- The boolean-mode form of a conjunction consists of its conjuncts, however they are grouped, with a
space between them. Each of them is signed once. Grouping the operands of conjunctions in another way,
at the root or further inside, changes nothing. -/
theorem ibl_conjunction (c : Compiler α) (l r : Expr) :
    ∃ texts, List.Forall₂ c.Conjunct (Expr.and l r).conjuncts texts ∧
      (c.fragment (.and l r)).ibl = " ".intercalate texts ∧
      List.Forall₂ c.SignedOnce (Expr.and l r).conjuncts texts ∧
      ∀ e, (Expr.and l r).Regrouped e → (c.fragment e).ibl = (c.fragment (.and l r)).ibl := by
  obtain ⟨texts, htexts, hibl⟩ := c.exists_conjuncts (.and l r)
  refine ⟨texts, htexts, hibl, htexts.imp fun _ _ ↦ Conjunct.signedOnce, ?_⟩
  intro e he
  exact (ibl_eq_of_regrouped he).symm

/-- Conjuncts of every kind, grouped in two ways, and a group that is grouped inside as well. -/
theorem ibl_conjunction_regrouped :
    let c := ofTemplate "name = ?"
    let a : Expr := .word (.bare "a")
    let b : Expr := .word (.quoted "b")
    let left : Expr := .and (.and a (.or a b)) (.and (.paren (.and (.and a b) a)) (.exclude a))
    let right : Expr := .and a (.and (.or a b) (.and (.paren (.and a (.and b a))) (.exclude a)))
    left.Regrouped right ∧
      (c.fragment left).ibl = "+a +(a \"b\") +((+a +\"b\" +a)) -a" ∧
      (c.fragment right).ibl = "+a +(a \"b\") +((+a +\"b\" +a)) -a" := by
  intro c a b left right
  have h : left.Regrouped right :=
    (Expr.Regrouped.assoc a (.or a b) _).trans
      (.and (.refl a) (.and (.refl _) (.and (.paren (.assoc a b a)) (.refl _))))
  have hleft : (c.fragment left).ibl = "+a +(a \"b\") +((+a +\"b\" +a)) -a" := by decide +kernel
  obtain ⟨texts, -, -, -, hregrouped⟩ :=
    ibl_conjunction c (.and a (.or a b)) (.and (.paren (.and (.and a b) a)) (.exclude a))
  exact ⟨h, hleft, (hregrouped right h).trans hleft⟩

end Compiler

end SearchWords
