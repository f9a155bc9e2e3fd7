import SearchWords.Compiler

/-!
# Boolean-mode expressions as texts

The boolean-mode form of an expression is put together from its words by few means: texts are put
side by side, into a group, or behind a sign. `iblText_induction` says once and for all that what
these means preserve carries over from the words of an expression to its boolean-mode form.
-/

namespace SearchWords.Compiler

universe u

variable {α : Type u}

/-- The boolean-mode form of an expression. -/
def iblText (c : Compiler α) (e : Expr) : List Char :=
  (c.fragment e).ibl.toList

/-- The boolean-mode form of an expression as an operand of a conjunction. -/
def signedText (c : Compiler α) (e : Expr) : List Char :=
  (signed e.op (c.fragment e).ibl).toList

section Equations

variable (c : Compiler α)

theorem iblText_word (w : Word) :
    c.iblText (.word w) =
      if w.phrase then '"' :: (c.ibl w.text).toList ++ ['"'] else (c.ibl w.text).toList := by
  show (if w.phrase then "\"" ++ c.ibl w.text ++ "\"" else c.ibl w.text).toList = _
  cases w.phrase <;> simp

theorem iblText_and (l r : Expr) :
    c.iblText (.and l r) = c.signedText l ++ ' ' :: c.signedText r := by
  show (signed l.op (c.fragment l).ibl ++ " " ++ signed r.op (c.fragment r).ibl).toList =
    (signed l.op (c.fragment l).ibl).toList ++ ' ' :: (signed r.op (c.fragment r).ibl).toList
  simp

theorem iblText_or (l r : Expr) :
    c.iblText (.or l r) = '(' :: (c.iblText l ++ ' ' :: c.iblText r) ++ [')'] := by
  show ("(" ++ (c.fragment l).ibl ++ " " ++ (c.fragment r).ibl ++ ")").toList =
    '(' :: ((c.fragment l).ibl.toList ++ ' ' :: (c.fragment r).ibl.toList) ++ [')']
  simp

theorem iblText_paren (e : Expr) : c.iblText (.paren e) = '(' :: c.iblText e ++ [')'] := by
  show ("(" ++ (c.fragment e).ibl ++ ")").toList = '(' :: (c.fragment e).ibl.toList ++ [')']
  simp

theorem iblText_exclude (e : Expr) :
    c.iblText (.exclude e) =
      '-' :: if e.op = .word then c.iblText e else '(' :: c.iblText e ++ [')'] := by
  show (negated e.op (c.fragment e).ibl).toList =
    '-' :: if e.op = .word then (c.fragment e).ibl.toList
      else '(' :: (c.fragment e).ibl.toList ++ [')']
  cases e.op <;> simp [negated]

theorem signedText_eq (e : Expr) :
    c.signedText e =
      match e.op with
      | .exclude | .and => c.iblText e
      | .word | .or => '+' :: c.iblText e
      | .paren => '+' :: ('(' :: c.iblText e ++ [')']) := by
  cases hop : e.op <;> simp [signedText, iblText, signed, hop]

end Equations

section Induction

variable {P : List Char → Prop} (append : ∀ {s t}, P s → P t → P (s ++ t))
  (group : ∀ {s}, P s → P ('(' :: s ++ [')'])) (mark : ∀ x ∈ ['+', '-', ' '], P [x])

include append group mark

theorem signedText_induction (c : Compiler α) {e : Expr} (h : P (c.iblText e)) :
    P (c.signedText e) := by
  have hplus : P ['+'] := mark '+' (by simp)
  rw [signedText_eq]
  split
  · exact h
  · exact h
  · exact append hplus h
  · exact append hplus h
  · exact append hplus (group h)

/-- What words have, and what holds of texts side by side, of groups and of signs, holds of every
boolean-mode expression. -/
theorem iblText_induction (c : Compiler α) {e : Expr}
    (word : ∀ w ∈ e.leaves, P (c.iblText (.word w))) : P (c.iblText e) := by
  have hsigned : ∀ {e}, P (c.iblText e) → P (c.signedText e) :=
    signedText_induction (P := P) append group mark c
  have hspace : P [' '] := mark ' ' (by simp)
  induction e with
  | word w => exact word w (by simp [Expr.leaves])
  | and l r ihl ihr =>
    obtain ⟨hl, hr⟩ := List.forall_mem_append.1 word
    rw [iblText_and]
    exact append (hsigned (ihl hl)) (append hspace (hsigned (ihr hr)))
  | or l r ihl ihr =>
    obtain ⟨hl, hr⟩ := List.forall_mem_append.1 word
    rw [iblText_or]
    exact group (append (ihl hl) (append hspace (ihr hr)))
  | paren e ih =>
    rw [iblText_paren]
    exact group (ih word)
  | exclude e ih =>
    have hminus : P ['-'] := mark '-' (by simp)
    rw [iblText_exclude]
    split
    · exact append hminus (ih word)
    · exact append hminus (group (ih word))

end Induction

end SearchWords.Compiler
