import Mathlib.Tactic.SplitIfs
import SearchWords.Text.Literal

/-!
# What a literal tells

A literal shows each character of a text as it is or by an escape. Which characters are escaped is a
matter of what can be told apart on a screen, and `IsLiteral` leaves it open, but for the quote, the
backslash and the line feed, which are never shown as they are. Even so a literal stands for one text
only (`IsLiteral.text_eq`), as what is shown of a character ends before the next one is shown
(`Shown.append_inj`). And it has no line feed, so that it stays on its line.
-/

namespace SearchWords.Text

universe u

/-! ## Up to a character that is not there -/

/-- Two texts in front of the same character, which is in neither of them. -/
theorem append_cons_inj {α : Type u} {x : α} {s t u v : List α} (hs : x ∉ s) (ht : x ∉ t)
    (h : s ++ x :: u = t ++ x :: v) : s = t ∧ u = v := by
  induction s generalizing t with
  | nil =>
    cases t with
    | nil => exact ⟨rfl, (List.cons.inj h).2⟩
    | cons y t =>
      obtain ⟨rfl, -⟩ := List.cons.inj h
      exact absurd List.mem_cons_self ht
  | cons y s ih =>
    cases t with
    | nil =>
      obtain ⟨rfl, -⟩ := List.cons.inj h
      exact absurd List.mem_cons_self hs
    | cons z t =>
      obtain ⟨rfl, hrest⟩ := List.cons.inj h
      obtain ⟨rfl, rfl⟩ :=
        ih (mt (List.mem_cons_of_mem y) hs) (mt (List.mem_cons_of_mem y) ht) hrest
      exact ⟨rfl, rfl⟩

/-! ## Code points -/

theorem digitChar_inj : ∀ m < 16, ∀ n < 16, Nat.digitChar m = Nat.digitChar n → m = n := by
  decide

theorem toDigits_inj {m n : Nat} (h : Nat.toDigits 16 m = Nat.toDigits 16 n) : m = n := by
  induction m using Nat.strongRecOn generalizing n with
  | ind m ih =>
    have hlast : ∀ {k : Nat} {x y : Char}, [x] ≠ Nat.toDigits 16 k ++ [y] := by
      intro k x y hk
      have hsplit : [] ++ [x] = Nat.toDigits 16 k ++ [y] := hk
      exact Nat.toDigits_ne_nil (List.append_inj' hsplit rfl).1.symm
    rw [Nat.toDigits_eq_if (by decide), Nat.toDigits_eq_if (by decide) (n := n)] at h
    split at h <;> split at h
    · next hm hn => exact digitChar_inj m hm n hn (List.singleton_inj.1 h)
    · exact absurd h hlast
    · exact absurd h.symm hlast
    · next hm _ =>
      obtain ⟨hfront, hdigit⟩ := List.append_inj' h rfl
      have hdiv : m / 16 = n / 16 := ih (m / 16) (by omega) hfront
      have hmod : m % 16 = n % 16 :=
        digitChar_inj _ (Nat.mod_lt m (by decide)) _ (Nat.mod_lt n (by decide))
          (List.singleton_inj.1 hdigit)
      omega

theorem notMem_toDigits {x : Char} (hx : ∀ n, Nat.digitChar n ≠ x) (n : Nat) :
    x ∉ Nat.toDigits 16 n := by
  induction n using Nat.strongRecOn with
  | ind n ih =>
    rw [Nat.toDigits_eq_if (by decide)]
    split
    · simpa using (hx n).symm
    · simpa [(hx (n % 16)).symm] using ih (n / 16) (by omega)

theorem codePoint_append_inj {c d : Char} {u v : List Char}
    (h : codePoint c ++ u = codePoint d ++ v) : c = d ∧ u = v := by
  have hclose : ∀ n, '}' ∉ Nat.toDigits 16 n := notMem_toDigits fun _ ↦ Nat.digitChar_ne '}' rfl
  have hdigits : Nat.toDigits 16 c.toNat ++ '}' :: u = Nat.toDigits 16 d.toNat ++ '}' :: v := by
    simpa [codePoint] using h
  obtain ⟨hnat, rfl⟩ := append_cons_inj (hclose _) (hclose _) hdigits
  exact ⟨Char.toNat_inj.1 (toDigits_inj hnat), rfl⟩

/-! ## Characters in a literal -/

/-- The characters that have an escape of their own, with what follows the backslash in it. -/
def escapeLetters : List (Char × Char) :=
  [('\x00', '0'), ('\t', 't'), ('\r', 'r'), ('\n', 'n'), ('"', '"'), ('\\', '\\')]

/-- `Shown c s`: a literal may show the character `c` as `s`, which is the character as it is, the
escape that it has of its own, or its number. -/
inductive Shown : (c : Char) → (s : List Char) → Prop where
  | plain {c : Char} : c ∉ ['"', '\\', '\n'] → Shown c [c]
  | letter {c x : Char} : (c, x) ∈ escapeLetters → Shown c ['\\', x]
  | number (c : Char) : Shown c (codePoint c)

theorem shown_shown (c : Char) : Shown c (shown c) := by
  unfold shown
  split_ifs with hnul htab hreturn hline hquote hslash hvisible
  · exact .letter (by simp [escapeLetters, hnul])
  · exact .letter (by simp [escapeLetters, htab])
  · exact .letter (by simp [escapeLetters, hreturn])
  · exact .letter (by simp [escapeLetters, hline])
  · exact .letter (by simp [escapeLetters, hquote])
  · exact .letter (by simp [escapeLetters, hslash])
  · exact .plain (by simp [hquote, hslash, hline])
  · exact .number c

section

variable {c d : Char} {s t u v : List Char}

/-- What stands at the front of a literal tells the character and where the next one starts. -/
theorem Shown.append_inj (hc : Shown c s) (hd : Shown d t) (h : s ++ u = t ++ v) :
    c = d ∧ u = v := by
  have hbackslash : ∀ {x : Char}, x ∉ ['"', '\\', '\n'] → x ≠ '\\' := by
    rintro x hx rfl
    exact hx (by decide)
  have hletters : ∀ p ∈ escapeLetters, ∀ q ∈ escapeLetters, p.2 = q.2 → p.1 = q.1 := by decide
  have hmark : ∀ p ∈ escapeLetters, p.2 ≠ 'u' := by decide
  cases hc with
  | plain hplain =>
    cases hd with
    | plain _ => exact List.cons.inj h
    | _ => exact absurd (List.cons.inj h).1 (hbackslash hplain)
  | letter hx =>
    cases hd with
    | plain hplain => exact absurd (List.cons.inj h).1.symm (hbackslash hplain)
    | letter hy =>
      obtain ⟨hxy, rfl⟩ := List.cons.inj (List.cons.inj h).2
      exact ⟨hletters _ hx _ hy hxy, rfl⟩
    | number => exact absurd (List.cons.inj (List.cons.inj h).2).1 (hmark _ hx)
  | number =>
    cases hd with
    | plain hplain => exact absurd (List.cons.inj h).1.symm (hbackslash hplain)
    | letter hy => exact absurd (List.cons.inj (List.cons.inj h).2).1.symm (hmark _ hy)
    | number => exact codePoint_append_inj h

theorem Shown.ne_nil (h : Shown c s) : s ≠ [] := by
  cases h <;> simp [codePoint]

theorem Shown.newline_notMem (h : Shown c s) : '\n' ∉ s := by
  have hletters : ∀ p ∈ escapeLetters, '\n' ≠ p.2 := by decide
  have hdigits : ∀ n, '\n' ∉ Nat.toDigits 16 n :=
    notMem_toDigits fun _ ↦ Nat.digitChar_ne '\n' rfl
  cases h with
  | plain hplain =>
    intro hmem
    obtain rfl := List.mem_singleton.1 hmem
    exact hplain (by decide)
  | letter hx => simpa using hletters _ hx
  | number => simp [codePoint, hdigits]

end

/-! ## Literals -/

/-- A text as it may be shown, one character after the other. -/
inductive Spelled : (cs s : List Char) → Prop where
  | nil : Spelled [] []
  | cons {c : Char} {cs s t : List Char} : Shown c s → Spelled cs t → Spelled (c :: cs) (s ++ t)

/-- `IsLiteral text s`: between its quotes, `s` shows the text. -/
def IsLiteral (text : String) (s : List Char) : Prop :=
  ∃ body, Spelled text.toList body ∧ s = '"' :: body ++ ['"']

theorem spelled_flatMap_shown (cs : List Char) : Spelled cs (cs.flatMap shown) := by
  induction cs with
  | nil => exact .nil
  | cons c cs ih => exact .cons (shown_shown c) ih

theorem isLiteral_literal (text : String) : IsLiteral text (literal text).toList :=
  ⟨_, spelled_flatMap_shown text.toList, toList_literal text⟩

section

variable {cs ds s : List Char} {text text' : String}

theorem Spelled.eq (hc : Spelled cs s) (hd : Spelled ds s) : cs = ds := by
  induction hc generalizing ds with
  | nil =>
    generalize hs : ([] : List Char) = s at hd
    cases hd with
    | nil => rfl
    | cons hshown _ => exact absurd (List.append_eq_nil_iff.1 hs.symm).1 hshown.ne_nil
  | @cons c cs s t hshown _ ih =>
    generalize hs : s ++ t = r at hd
    cases hd with
    | nil => exact absurd (List.append_eq_nil_iff.1 hs).1 hshown.ne_nil
    | cons hshown' hd =>
      obtain ⟨rfl, rfl⟩ := hshown.append_inj hshown' hs
      rw [ih hd]

theorem Spelled.newline_notMem (h : Spelled cs s) : '\n' ∉ s := by
  induction h with
  | nil => exact List.not_mem_nil
  | cons hshown _ ih => simp [hshown.newline_notMem, ih]

/-- A literal stands for one text. -/
theorem IsLiteral.text_eq (h : IsLiteral text s) (h' : IsLiteral text' s) : text = text' := by
  obtain ⟨body, hbody, rfl⟩ := h
  obtain ⟨body', hbody', heq⟩ := h'
  obtain rfl := List.append_cancel_right (List.cons.inj heq).2
  exact String.toList_inj.1 (hbody.eq hbody')

theorem IsLiteral.newline_notMem (h : IsLiteral text s) : '\n' ∉ s := by
  obtain ⟨body, hbody, rfl⟩ := h
  simp [hbody.newline_notMem]

end

end SearchWords.Text
