import SearchWords.Parameters

/-!
# What a word matches

A word is turned into a `LIKE` pattern for the database, and it is cut at its wildcards into the
pieces that are highlighted. Both speak of the same matches: a text is like the pattern of a word if
and only if the pieces of the word stand in it, in their order and apart from each other
(`like_likePattern_iff`). No character of a word but the wildcard has a meaning in the pattern, as
each of them is found as it is (`like_likeChar_append_iff`).

The pattern is read from left to right, and so are the pieces. What has been read of a piece must
stand right where the last character was found, whereas the pieces behind it may stand anywhere from
there on. `like_flatMap_append_iff` therefore keeps the first piece apart from the others.
-/

namespace SearchWords.Word

variable {s p : List Char}

/-! ## The front of a pattern -/

theorem like_run_iff : Like s ('%' :: p) ↔ ∃ x t, s = x ++ t ∧ Like t p := by
  constructor
  · intro h
    cases h with
    | run x h => exact ⟨x, _, rfl, h⟩
    | char percent _ _ _ => exact absurd rfl percent
  · rintro ⟨x, t, rfl, h⟩
    exact .run x h

/-- Two runs in a row are one. -/
theorem like_run_run_iff : Like s ('%' :: '%' :: p) ↔ Like s ('%' :: p) := by
  constructor
  · intro h
    obtain ⟨x, t, rfl, ht⟩ := like_run_iff.1 h
    obtain ⟨y, u, rfl, hu⟩ := like_run_iff.1 ht
    exact like_run_iff.2 ⟨x ++ y, u, (List.append_assoc x y u).symm, hu⟩
  · intro h
    exact .run [] h

theorem like_escaped_iff {c : Char} :
    Like s ('\\' :: c :: p) ↔ ∃ t, s = c :: t ∧ Like t p := by
  constructor
  · intro h
    cases h with
    | escaped _ h => exact ⟨_, rfl, h⟩
    | char _ _ backslash _ => exact absurd rfl backslash
  · rintro ⟨t, rfl, h⟩
    exact .escaped c h

theorem like_char_iff {c : Char} (percent : c ≠ '%') (underscore : c ≠ '_')
    (backslash : c ≠ '\\') : Like s (c :: p) ↔ ∃ t, s = c :: t ∧ Like t p := by
  constructor
  · intro h
    cases h with
    | run _ _ => exact absurd rfl percent
    | one _ _ => exact absurd rfl underscore
    | escaped _ _ => exact absurd rfl backslash
    | backslash => exact absurd rfl backslash
    | char _ _ _ h => exact ⟨_, rfl, h⟩
  · rintro ⟨t, rfl, h⟩
    exact .char percent underscore backslash h

/-- A character of a word that is no wildcard stands for itself in the pattern. -/
theorem like_likeChar_append_iff {c : Char} (hc : c ≠ wildcard) :
    Like s (likeChar c ++ p) ↔ ∃ t, s = c :: t ∧ Like t p := by
  rw [likeChar, if_neg hc]
  split
  · exact like_escaped_iff
  · next hplain =>
    simp only [Bool.or_eq_true, decide_eq_true_eq, not_or] at hplain
    obtain ⟨⟨hbackslash, hpercent⟩, hunderscore⟩ := hplain
    exact like_char_iff hpercent hunderscore hbackslash

theorem likeChar_wildcard : likeChar wildcard = ['%'] := rfl

/-! ## Pieces in a text -/

/-- `Shows s ps`: the pieces `ps` stand in `s` one behind the other, with any text in front of each
of them and after the last. -/
inductive Shows : (s : List Char) → (ps : List (List Char)) → Prop where
  | nil (last : List Char) : Shows last []
  | cons (gap p : List Char) {s : List Char} {ps : List (List Char)} :
      Shows s ps → Shows (gap ++ p ++ s) (p :: ps)

theorem shows_cons_iff {ps : List (List Char)} :
    Shows s (p :: ps) ↔ ∃ gap t, s = gap ++ p ++ t ∧ Shows t ps := by
  constructor
  · intro h
    cases h with
    | cons gap _ h => exact ⟨gap, _, rfl, h⟩
  · rintro ⟨gap, t, rfl, h⟩
    exact .cons gap p h

/-- The texts in front of the pieces may be listed. -/
theorem shows_map_toList_iff {text : String} {ps : List String} :
    Shows text.toList (ps.map String.toList) ↔
      ∃ (gaps : List String) (last : String), gaps.length = ps.length ∧
        text = String.join (List.zipWith (· ++ ·) gaps ps) ++ last := by
  induction ps generalizing text with
  | nil =>
    constructor
    · intro _
      exact ⟨[], text, rfl, by simp⟩
    · intro _
      exact .nil _
  | cons p ps ih =>
    rw [List.map_cons, shows_cons_iff]
    constructor
    · rintro ⟨gap, t, htext, h⟩
      rw [← String.toList_ofList (l := t)] at h
      obtain ⟨gaps, last, hlength, ht⟩ := ih.1 h
      refine ⟨String.ofList gap :: gaps, last, by simp [hlength], ?_⟩
      have hlist : t = (String.join (List.zipWith (· ++ ·) gaps ps) ++ last).toList := by
        rw [← ht, String.toList_ofList]
      rw [← String.toList_inj, htext, hlist]
      simp
    · rintro ⟨gaps, last, hlength, htext⟩
      cases gaps with
      | nil => cases hlength
      | cons gap gaps =>
        refine ⟨gap.toList, (String.join (List.zipWith (· ++ ·) gaps ps) ++ last).toList, ?_, ?_⟩
        · simp [htext]
        · exact ih.2 ⟨gaps, last, Nat.succ.inj hlength, rfl⟩

/-! ## Patterns and pieces -/

/-- Within a word the first piece must stand in front, and the others are shown by what follows. -/
theorem like_flatMap_append_iff (cs : List Char) :
    Like s (cs.flatMap likeChar ++ ['%']) ↔
      ∃ p ps t, cut cs = p :: ps ∧ s = p ++ t ∧ Shows t ps := by
  fun_induction cut cs generalizing s with
  | case1 =>
    constructor
    · intro _
      exact ⟨[], [], s, rfl, rfl, .nil s⟩
    · intro _
      exact like_run_iff.2 ⟨s, [], (List.append_nil s).symm, .nil⟩
  | case2 cs hhead ih =>
    -- Of several wildcards in a row the last one makes the cut.
    obtain ⟨cs, rfl⟩ := List.head?_eq_some_iff.1 hhead
    rw [← ih]
    exact like_run_run_iff
  | case3 cs _ ih =>
    rw [List.flatMap_cons, likeChar_wildcard, List.append_assoc, List.singleton_append,
      like_run_iff]
    constructor
    · rintro ⟨x, t, rfl, ht⟩
      obtain ⟨p, ps, u, hcut, rfl, hu⟩ := ih.1 ht
      refine ⟨[], cut cs, x ++ (p ++ u), rfl, rfl, ?_⟩
      rw [hcut, ← List.append_assoc]
      exact .cons x p hu
    · rintro ⟨_, _, t, hcut, rfl, ht⟩
      obtain ⟨rfl, rfl⟩ := List.cons.inj hcut
      obtain ⟨p, ps, hcut⟩ := List.exists_cons_of_ne_nil (cut_ne_nil cs)
      rw [hcut] at ht
      obtain ⟨x, u, rfl, hu⟩ := shows_cons_iff.1 ht
      exact ⟨x, p ++ u, by simp, ih.2 ⟨p, ps, u, hcut, rfl, hu⟩⟩
  | case4 c cs hc ih =>
    rw [List.flatMap_cons, List.append_assoc, like_likeChar_append_iff hc]
    constructor
    · rintro ⟨t, rfl, ht⟩
      obtain ⟨p, ps, u, hcut, rfl, hu⟩ := ih.1 ht
      exact ⟨c :: p, ps, u, by rw [hcut]; rfl, rfl, hu⟩
    · rintro ⟨_, _, t, hcut, rfl, ht⟩
      obtain ⟨p, ps, hcut'⟩ := List.exists_cons_of_ne_nil (cut_ne_nil cs)
      rw [hcut'] at hcut
      obtain ⟨rfl, rfl⟩ := List.cons.inj hcut
      exact ⟨p ++ t, rfl, ih.2 ⟨p, ps, t, hcut', rfl, ht⟩⟩

/-- A text is like the pattern of a word if and only if it shows the pieces of the word. -/
theorem like_pattern_iff_shows (cs : List Char) :
    Like s ('%' :: (cs.flatMap likeChar ++ ['%'])) ↔ Shows s (cut cs) := by
  obtain ⟨p, ps, hcut⟩ := List.exists_cons_of_ne_nil (cut_ne_nil cs)
  rw [like_run_iff, hcut, shows_cons_iff]
  constructor
  · rintro ⟨x, t, rfl, ht⟩
    obtain ⟨p', ps', u, hcut', rfl, hu⟩ := (like_flatMap_append_iff cs).1 ht
    obtain ⟨rfl, rfl⟩ := List.cons.inj (hcut.symm.trans hcut')
    exact ⟨x, u, (List.append_assoc x _ u).symm, hu⟩
  · rintro ⟨x, t, rfl, h⟩
    exact ⟨x, p ++ t, List.append_assoc x p t,
      (like_flatMap_append_iff cs).2 ⟨p, ps, t, hcut, rfl, h⟩⟩

theorem map_toList_pieces (word : String) :
    (pieces word).map String.toList = cut word.toList := by
  simp [pieces, Function.comp_def]

/-- The texts that are like the pattern of a word are those with the pieces of the word in them, in
order, each behind some text of its own and the last of them in front of some text. -/
theorem like_likePattern_iff (text word : String) :
    Like text.toList (likePattern word).toList ↔
      ∃ (gaps : List String) (last : String), gaps.length = (pieces word).length ∧
        text = String.join (List.zipWith (· ++ ·) gaps (pieces word)) ++ last := by
  rw [← shows_map_toList_iff, map_toList_pieces, ← like_pattern_iff_shows]
  simp [likePattern]

end SearchWords.Word
