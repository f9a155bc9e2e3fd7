import Mathlib.Data.List.Infix

/-!
# Balanced brackets

Tokens and characters both come with brackets. A list is balanced in a pair of them if every bracket
that is opened is closed, and none is closed before it is opened. Lists without brackets are
balanced, and so are balanced lists one after the other or between brackets. A balanced list ends
where a bracket is closed that it did not open, whatever follows (`append_closer_inj`).
-/

namespace SearchWords

universe u

variable {α : Type u} [BEq α]

/-- Every bracket that is opened is closed, and none is closed before it is opened. -/
structure Bracketed (opener closer : α) (xs : List α) : Prop where
  closed : xs.count closer = xs.count opener
  nested : ∀ ys, ys <+: xs → ys.count closer ≤ ys.count opener

namespace Bracketed

variable {opener closer : α} {xs ys : List α}

theorem of_notMem [LawfulBEq α] (hopen : opener ∉ xs) (hclose : closer ∉ xs) :
    Bracketed opener closer xs := by
  constructor
  · rw [List.count_eq_zero.2 hopen, List.count_eq_zero.2 hclose]
  · intro ys hys
    rw [List.count_eq_zero.2 (mt (hys.subset ·) hclose)]
    exact Nat.zero_le _

theorem append (hx : Bracketed opener closer xs) (hy : Bracketed opener closer ys) :
    Bracketed opener closer (xs ++ ys) := by
  constructor
  · rw [List.count_append, List.count_append, hx.closed, hy.closed]
  · intro zs hzs
    rcases List.prefix_or_prefix_of_prefix hzs (List.prefix_append xs ys) with h | ⟨ws, rfl⟩
    · exact hx.nested zs h
    · have hws := hy.nested ws ((List.prefix_append_right_inj xs).1 hzs)
      rw [List.count_append, List.count_append, hx.closed]
      exact Nat.add_le_add_left hws _

theorem wrap [LawfulBEq α] (hne : opener ≠ closer) (hx : Bracketed opener closer xs) :
    Bracketed opener closer (opener :: xs ++ [closer]) := by
  have hclosed := hx.closed
  constructor
  · simp [hne, hne.symm, hclosed]
  · intro ys hys
    rw [List.cons_append] at hys
    rcases List.prefix_cons_iff.1 hys with rfl | ⟨zs, rfl, hzs⟩
    · exact Nat.le_refl _
    rcases List.prefix_concat_iff.1 hzs with rfl | hzs
    · simp [hne, hne.symm, hclosed]
    · have hle := hx.nested zs hzs
      simp only [List.count_cons, beq_self_eq_true, if_true]
      rw [if_neg (by simpa using hne)]
      omega

/-- The bracket that is not opened in a balanced list is found in one place only. -/
theorem append_closer_inj [LawfulBEq α] (hne : opener ≠ closer) (hx : Bracketed opener closer xs)
    (hy : Bracketed opener closer ys) {us vs : List α}
    (h : xs ++ closer :: us = ys ++ closer :: vs) : xs = ys ∧ us = vs := by
  have key : ∀ {xs ys us vs as : List α}, Bracketed opener closer xs →
      Bracketed opener closer ys → ys = xs ++ as → closer :: us = as ++ closer :: vs →
      xs = ys ∧ us = vs := by
    rintro xs ys us vs as hx hy rfl h
    cases as with
    | nil => exact ⟨(List.append_nil xs).symm, (List.cons.inj h).2⟩
    | cons a as =>
      -- The longer list would close a bracket where the shorter one has none open.
      obtain ⟨rfl, -⟩ := List.cons.inj h
      have hle := hy.nested (xs ++ [closer]) ⟨as, by simp⟩
      have hclosed := hx.closed
      simp [hne.symm] at hle
      omega
  rcases List.append_eq_append_iff.1 h with ⟨as, hys, has⟩ | ⟨as, hxs, has⟩
  · exact key hx hy hys has
  · obtain ⟨rfl, rfl⟩ := key hy hx hxs has
    exact ⟨rfl, rfl⟩

end Bracketed

instance (opener closer : α) (xs : List α) : Decidable (Bracketed opener closer xs) :=
  decidable_of_iff
    (xs.count closer = xs.count opener ∧ ∀ ys ∈ xs.inits, ys.count closer ≤ ys.count opener)
    ⟨fun h ↦ ⟨h.1, fun ys hys ↦ h.2 ys ((List.mem_inits ys xs).2 hys)⟩,
      fun h ↦ ⟨h.closed, fun ys hys ↦ h.nested ys ((List.mem_inits ys xs).1 hys)⟩⟩

end SearchWords
