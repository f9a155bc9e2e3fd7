import SearchWords.Expr.Outline
import SearchWords.Proofs.Text.Literal

/-!
# Outlines tell expressions apart

An outline lists the operations of an expression, each in front of its operands. As the number of
operands is known for each operation, the end of an operand is known without looking at what follows,
and the expression can be got back line by line (`Outlines.append_inj`).

For that, lines must end where they seem to end, and say which operation they are of. A line feed in a
word is escaped, so that it does not end a line (`Label.newline_notMem`), and the label of a line has
the operation in its first letters (`Label.op_eq`). How the other characters of a word are shown is
left to `Text.IsLiteral`. The indentation is not needed.
-/

namespace SearchWords.Expr

open Text

/-! ## The lines of an outline -/

/-- The name of a form of words. -/
def formName (phrase : Bool) : List Char :=
  if phrase then ['P', 'h', 'r', 'a', 's', 'e'] else ['W', 'o', 'r', 'd']

/-- `Label e s`: the line of the expression `e` may say `s`. -/
inductive Label : (e : Expr) → (s : List Char) → Prop where
  | word {w : Word} {lit : List Char} : IsLiteral w.text lit →
      Label (.word w) (formName w.phrase ++ '(' :: lit ++ [')'])
  | and (l r : Expr) : Label (.and l r) ['A', 'n', 'd']
  | or (l r : Expr) : Label (.or l r) ['O', 'r']
  | paren (e : Expr) : Label (.paren e) ['P', 'a', 'r', 'e', 'n']
  | exclude (e : Expr) : Label (.exclude e) ['E', 'x', 'c', 'l', 'u', 'd', 'e']

/-- A label on a line of its own, with two spaces in front of it for each level. -/
def indented (level : Nat) (label : List Char) : List Char :=
  List.replicate (2 * level) ' ' ++ label ++ ['\n']

/-- `Outlines level e s`: with its root at `level`, the expression `e` may be outlined as `s`. -/
inductive Outlines : (level : Nat) → (e : Expr) → (s : List Char) → Prop where
  | word {level : Nat} {w : Word} {label : List Char} :
      Label (.word w) label → Outlines level (.word w) (indented level label)
  | and {level : Nat} {l r : Expr} {label s t : List Char} : Label (.and l r) label →
      Outlines (level + 1) l s → Outlines (level + 1) r t →
        Outlines level (.and l r) (indented level label ++ s ++ t)
  | or {level : Nat} {l r : Expr} {label s t : List Char} : Label (.or l r) label →
      Outlines (level + 1) l s → Outlines (level + 1) r t →
        Outlines level (.or l r) (indented level label ++ s ++ t)
  | paren {level : Nat} {e : Expr} {label s : List Char} : Label (.paren e) label →
      Outlines (level + 1) e s → Outlines level (.paren e) (indented level label ++ s)
  | exclude {level : Nat} {e : Expr} {label s : List Char} : Label (.exclude e) label →
      Outlines (level + 1) e s → Outlines level (.exclude e) (indented level label ++ s)

theorem toList_outlineLine (level : Nat) (text : String) :
    (outlineLine level text).toList = indented level text.toList := by
  simp [outlineLine, indented]

theorem label_outline (w : Word) : Label (.word w) w.outline.toList := by
  have htext : w.outline.toList = formName w.phrase ++ '(' :: (literal w.text).toList ++ [')'] := by
    cases hphrase : w.phrase <;> simp [Word.outline, formName, hphrase]
  rw [htext]
  exact .word (isLiteral_literal w.text)

theorem outlines_outlineAt (level : Nat) (e : Expr) : Outlines level e (e.outlineAt level).toList := by
  induction e generalizing level with
  | word w =>
    rw [outlineAt, toList_outlineLine]
    exact .word (label_outline w)
  | and l r ihl ihr =>
    rw [outlineAt, String.toList_append, String.toList_append, toList_outlineLine]
    exact .and (.and l r) (ihl _) (ihr _)
  | or l r ihl ihr =>
    rw [outlineAt, String.toList_append, String.toList_append, toList_outlineLine]
    exact .or (.or l r) (ihl _) (ihr _)
  | paren e ih =>
    rw [outlineAt, String.toList_append, toList_outlineLine]
    exact .paren (.paren e) (ih _)
  | exclude e ih =>
    rw [outlineAt, String.toList_append, toList_outlineLine]
    exact .exclude (.exclude e) (ih _)

section

variable {level : Nat} {e f : Expr} {w w' : Word} {label label' s t u v : List Char}

/-! ## Reading a line -/

theorem Label.exists_literal (h : Label (.word w) label) :
    ∃ lit, IsLiteral w.text lit ∧ label = formName w.phrase ++ '(' :: lit ++ [')'] := by
  cases h with
  | word hlit => exact ⟨_, hlit, rfl⟩

theorem Label.newline_notMem (h : Label e label) : '\n' ∉ label := by
  have hform : ∀ phrase, '\n' ∉ formName phrase := by decide
  cases h with
  | word hlit => simp [hform, hlit.newline_notMem]
  | _ => decide

/-- The operation that a label starts with, which is a word if it is no other. -/
def labelOp : List Char → Op
  | 'A' :: _ => .and
  | 'O' :: _ => .or
  | 'P' :: 'a' :: _ => .paren
  | 'E' :: _ => .exclude
  | _ => .word

theorem Label.op_eq (h : Label e label) : e.op = labelOp label := by
  have hform : ∀ phrase lit, labelOp (formName phrase ++ '(' :: lit ++ [')']) = .word := by
    intro phrase lit
    cases phrase <;> rfl
  cases h with
  | word _ => exact (hform _ _).symm
  | _ => rfl

theorem Label.word_eq (h : Label (.word w) label) (h' : Label (.word w') label) : w = w' := by
  obtain ⟨text, phrase⟩ := w
  obtain ⟨text', phrase'⟩ := w'
  obtain ⟨lit, hlit, rfl⟩ := h.exists_literal
  obtain ⟨lit', hlit', heq⟩ := h'.exists_literal
  obtain rfl : phrase = phrase' := by
    cases phrase <;> cases phrase' <;> simp [formName] at heq ⊢
  obtain rfl : lit = lit' := by simpa using heq
  obtain rfl : text = text' := hlit.text_eq hlit'
  rfl

theorem indented_append_inj (h : Label e label) (h' : Label f label')
    (heq : indented level label ++ u = indented level label' ++ v) : label = label' ∧ u = v := by
  have hrest : label ++ '\n' :: u = label' ++ '\n' :: v := by simpa [indented] using heq
  exact append_cons_inj h.newline_notMem h'.newline_notMem hrest

/-! ## Reading an outline -/

theorem Outlines.exists_label (h : Outlines level e s) :
    ∃ label rest, Label e label ∧ s = indented level label ++ rest := by
  cases h with
  | word hlabel => exact ⟨_, [], hlabel, (List.append_nil _).symm⟩
  | and hlabel _ _ => exact ⟨_, _, hlabel, List.append_assoc _ _ _⟩
  | or hlabel _ _ => exact ⟨_, _, hlabel, List.append_assoc _ _ _⟩
  | paren hlabel _ => exact ⟨_, _, hlabel, rfl⟩
  | exclude hlabel _ => exact ⟨_, _, hlabel, rfl⟩

theorem Outlines.op_eq (h : Outlines level e s) (h' : Outlines level f t)
    (heq : s ++ u = t ++ v) : e.op = f.op := by
  obtain ⟨label, rest, hlabel, rfl⟩ := h.exists_label
  obtain ⟨label', rest', hlabel', rfl⟩ := h'.exists_label
  rw [List.append_assoc, List.append_assoc] at heq
  obtain ⟨rfl, -⟩ := indented_append_inj hlabel hlabel' heq
  rw [hlabel.op_eq, hlabel'.op_eq]

/-- An outline at the front of a text tells the expression and where it ends. -/
theorem Outlines.append_inj (h : Outlines level e s) (h' : Outlines level f t)
    (heq : s ++ u = t ++ v) : e = f ∧ u = v := by
  have hop := h.op_eq h' heq
  induction h generalizing f t u v with
  | word hlabel =>
    cases h' with
    | word hlabel' =>
      obtain ⟨rfl, rfl⟩ := indented_append_inj hlabel hlabel' heq
      exact ⟨congrArg Expr.word (hlabel.word_eq hlabel'), rfl⟩
    | _ => cases hop
  | and hlabel hl hr ihl ihr =>
    cases h' with
    | and hlabel' hl' hr' =>
      simp only [List.append_assoc] at heq
      obtain ⟨-, heq⟩ := indented_append_inj hlabel hlabel' heq
      obtain ⟨rfl, heq⟩ := ihl hl' heq (hl.op_eq hl' heq)
      obtain ⟨rfl, rfl⟩ := ihr hr' heq (hr.op_eq hr' heq)
      exact ⟨rfl, rfl⟩
    | _ => cases hop
  | or hlabel hl hr ihl ihr =>
    cases h' with
    | or hlabel' hl' hr' =>
      simp only [List.append_assoc] at heq
      obtain ⟨-, heq⟩ := indented_append_inj hlabel hlabel' heq
      obtain ⟨rfl, heq⟩ := ihl hl' heq (hl.op_eq hl' heq)
      obtain ⟨rfl, rfl⟩ := ihr hr' heq (hr.op_eq hr' heq)
      exact ⟨rfl, rfl⟩
    | _ => cases hop
  | paren hlabel h ih =>
    cases h' with
    | paren hlabel' h' =>
      simp only [List.append_assoc] at heq
      obtain ⟨-, heq⟩ := indented_append_inj hlabel hlabel' heq
      obtain ⟨rfl, rfl⟩ := ih h' heq (h.op_eq h' heq)
      exact ⟨rfl, rfl⟩
    | _ => cases hop
  | exclude hlabel h ih =>
    cases h' with
    | exclude hlabel' h' =>
      simp only [List.append_assoc] at heq
      obtain ⟨-, heq⟩ := indented_append_inj hlabel hlabel' heq
      obtain ⟨rfl, rfl⟩ := ih h' heq (h.op_eq h' heq)
      exact ⟨rfl, rfl⟩
    | _ => cases hop

theorem Outlines.eq (h : Outlines level e s) (h' : Outlines level f s) : e = f :=
  (h.append_inj h' (u := []) (v := []) rfl).1

end

/-- Expressions with the same outline are the same. The same is true of outlines that show some
characters of the words in another way, by an escape or as they are. -/
theorem outline_injective :
    Function.Injective outline ∧ ∀ e f s, Outlines 0 e s → Outlines 0 f s → e = f := by
  refine ⟨?_, fun e f s ↦ Outlines.eq⟩
  intro e f h
  have hf : Outlines 0 f e.outline.toList := by
    rw [h]
    exact outlines_outlineAt 0 f
  exact (outlines_outlineAt 0 e).eq hf

/-- A word that looks like three lines of an outline, and a word that looks like the number by which
another one may be shown. -/
theorem outline_injective_lookalikes :
    let c : Expr := .word (.bare "c")
    let e : Expr := .and (.word (.bare "a")) (.and (.word (.bare "b")) c)
    let f : Expr := .and (.word (.bare "a\")\n  And\n    Word(\"b")) c
    let accent : Expr := .word (.bare "é")
    let number : Expr := .word (.bare (String.ofList (codePoint 'é')))
    let s := indented 0 (formName false ++ '(' :: ('"' :: codePoint 'é' ++ ['"']) ++ [')'])
    e.outline ≠ f.outline ∧ Outlines 0 accent s ∧ ¬Outlines 0 number s := by
  intro c e f accent number s
  have hliteral : IsLiteral "é" ('"' :: codePoint 'é' ++ ['"']) :=
    ⟨_, .cons (.number 'é') .nil, by rw [List.append_nil]⟩
  have haccent : Outlines 0 accent s := .word (.word hliteral)
  refine ⟨?_, haccent, ?_⟩
  · intro h
    exact absurd (outline_injective.1 h) (by decide)
  · intro hnumber
    exact absurd (outline_injective.2 accent number s haccent hnumber) (by decide)

end SearchWords.Expr
