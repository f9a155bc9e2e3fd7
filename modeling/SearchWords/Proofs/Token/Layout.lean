import SearchWords.Proofs.Text.Pairs
import SearchWords.Proofs.Token.Places

/-!
# How a line is laid out

A line is its tokens as they are written, with white space in between. `Spells` says which characters
are which token, in view of what follows them, and does not mention the scanner: `spells_read` and
`Spells.read_eq` say that the scanner reads the tokens that are spelled and no others. `LaidOut` puts
the lexemes of a line together. A line has a layout (`exists_laidOut_scan`), and it is the only one,
as a line is scanned as it is laid out (`LaidOut.scan_eq`).

A token that is written is placed at the byte where its characters start (`getElem?_place`). The
others are placed by what follows: a conjunction at the next token, and the marker at the end of the
line. `placed_layout` says all of this of the tokens of a line.
-/

namespace SearchWords

open Text

/-! ## Spellings -/

/-- `IsBareWord source rest`: the characters of `source` are a bare word in front of `rest`. -/
structure IsBareWord (source rest : List Char) : Prop where
  ne_nil : source ≠ []
  inside : ∀ c ∈ source, isWhiteSpace c = false ∧ c ≠ '(' ∧ c ≠ ')'
  ended : ∀ c ∈ rest.head?, isWhiteSpace c = true ∨ c = '(' ∨ c = ')'
  not_exclude : ¬['-'] <+: source
  not_keyword : source ≠ ['O', 'R'] ∧ ¬['O', 'R', '-'] <+: source ∧ ¬['O', 'R', '"'] <+: source
  unclosed : ∀ s, source = '"' :: s → ['"'] ∉ units (s ++ rest)

/-- `Spells source rest token`: the characters of `source` are the token, where `rest` is what follows
them in the line. -/
inductive Spells : (source rest : List Char) → Token → Prop where
  | lparen {rest : List Char} : Spells ['('] rest .lparen
  | rparen {rest : List Char} : Spells [')'] rest .rparen
  | exclude {rest : List Char} : Spells ['-'] rest .exclude
  | or {rest : List Char} :
      (∀ c ∈ rest.head?, isWhiteSpace c = true ∨ c ∈ ['(', ')', '-', '"']) →
        Spells ['O', 'R'] rest .or
  | phrase {body rest : List Char} : ['"'] ∉ units body →
      units (body ++ '"' :: rest) = units body ++ ['"'] :: units rest →
        Spells ('"' :: body ++ ['"']) rest (.word (.quoted (String.ofList (unescape body))))
  | bare {source rest : List Char} : IsBareWord source rest →
      Spells source rest (.word (.bare (String.ofList (unescape source))))

namespace Lexeme

section

variable {rest : List Char}

theorem endsKeyword_iff :
    endsKeyword rest = true ↔
      ∀ c ∈ rest.head?, isWhiteSpace c = true ∨ c ∈ ['(', ')', '-', '"'] := by
  cases rest with
  | nil => simp [endsKeyword]
  | cons c cs => simp [endsKeyword, isBoundary, or_assoc]

theorem takeWhile_eq_nil_iff :
    rest.takeWhile (!isBoundary ·) = [] ↔
      ∀ c ∈ rest.head?, isWhiteSpace c = true ∨ c = '(' ∨ c = ')' := by
  cases rest with
  | nil => simp
  | cons c cs =>
    have hc : isBoundary c = true ↔ isWhiteSpace c = true ∨ c = '(' ∨ c = ')' := by
      simp [isBoundary, or_assoc]
    cases hb : isBoundary c <;> simp [← hc, hb]

end

/-- A word that is read behind no opening quote, or behind one that is not closed, is bare. -/
theorem isBareWord_read {c : Char} {cs : List Char} (hc : isBoundary c = false) (hd : c ≠ '-')
    (hp : phrase? (c :: cs) = none) (hk : keyword? (c :: cs) = none) :
    IsBareWord (c :: cs.takeWhile (!isBoundary ·)) (cs.dropWhile (!isBoundary ·)) where
  ne_nil := List.cons_ne_nil _ _
  inside := by
    intro x hx
    rcases List.mem_cons.1 hx with rfl | hx
    · exact isBoundary_eq_false_iff.1 hc
    · exact isBoundary_eq_false_iff.1 (isBoundary_of_mem_takeWhile hx)
  ended := takeWhile_eq_nil_iff.1 (takeWhile_dropWhile cs)
  not_exclude := by
    rintro ⟨t, ht⟩
    exact hd (List.cons.inj ht).1.symm
  not_keyword := source_of_keyword? hc hk
  unclosed := by
    intro s hs
    obtain ⟨rfl, rfl⟩ := List.cons.inj hs
    rw [List.takeWhile_append_dropWhile]
    exact splitQuote_eq_none_iff.1 hp

/-- What is read is spelled by the characters it is read from. -/
theorem spells_read {c : Char} (hc : isWhiteSpace c = false) (cs : List Char) :
    Spells (read c cs).source (read c cs).rest (read c cs).token := by
  unfold read
  split
  · next h => subst h; exact .lparen
  split
  · next h => subst h; exact .rparen
  split
  · next h => subst h; exact .exclude
  next hl hr hd =>
  split
  · next body rest hp =>
    obtain ⟨rfl, rfl⟩ := List.cons.inj (phrase?_eq hp)
    obtain ⟨hunits, hnone⟩ := units_of_splitQuote hp
    exact .phrase hnone hunits
  next hp =>
  split
  · next rest hk => exact .or (endsKeyword_iff.1 (endsKeyword_of_keyword? hk))
  · next hk => exact .bare (isBareWord_read (isBoundary_eq_false_iff.2 ⟨hc, hl, hr⟩) hd hp hk)

end Lexeme

namespace Spells

variable {source rest : List Char} {token : Token}

/-- A token does not start with white space, and from its first character on it is read. -/
theorem read_eq (h : Spells source rest token) :
    ∃ c s, source = c :: s ∧ isWhiteSpace c = false ∧
      Lexeme.read c (s ++ rest) = ⟨token, source, rest⟩ := by
  cases h with
  | lparen => exact ⟨'(', [], rfl, by decide, rfl⟩
  | rparen => exact ⟨')', [], rfl, by decide, rfl⟩
  | exclude => exact ⟨'-', [], rfl, by decide, rfl⟩
  | or hrest =>
    exact ⟨'O', ['R'], rfl, by decide, Lexeme.read_of_keyword (Lexeme.endsKeyword_iff.2 hrest)⟩
  | @phrase body _ hnone hunits =>
    refine ⟨'"', body ++ ['"'], rfl, by decide, ?_⟩
    have hsplit := splitQuote_eq_some_iff.2 ⟨hunits, hnone⟩
    rw [List.append_assoc, List.singleton_append]
    exact Lexeme.read_of_quote hsplit
  | bare hbare =>
    obtain ⟨c, s, rfl⟩ := List.exists_cons_of_ne_nil hbare.ne_nil
    have hs : ∀ x ∈ c :: s, Lexeme.isBoundary x = false :=
      fun x hx ↦ Lexeme.isBoundary_eq_false_iff.2 (hbare.inside x hx)
    have hrest := Lexeme.takeWhile_eq_nil_iff.2 hbare.ended
    have hd : c ≠ '-' := by
      rintro rfl
      exact hbare.not_exclude ⟨s, rfl⟩
    have hp : Lexeme.phrase? (c :: (s ++ rest)) = none := by
      by_cases hq : c = '"'
      · subst hq
        exact splitQuote_eq_none_iff.2 (hbare.unclosed s rfl)
      · exact Lexeme.phrase?_of_ne hq _
    have hk := (Lexeme.keyword?_eq_none_iff hs hrest).2 hbare.not_keyword
    exact ⟨c, s, rfl, (hbare.inside c List.mem_cons_self).1,
      Lexeme.read_of_inside hs hrest hd hp hk⟩

end Spells

/-! ## Lines -/

/-- The characters of a lexeme, those of the white space in front of it included. -/
def Lexeme.text (l : Lexeme) : List Char :=
  l.blank ++ l.source

/-- `LaidOut line ls last`: the line consists of the lexemes `ls` and of white space `last` behind
them. In front of each token there is nothing but white space, and each is spelled by its characters
in view of all that follows them. -/
structure LaidOut (line : List Char) (ls : List Lexeme) (last : List Char) : Prop where
  line_eq : line = ls.flatMap Lexeme.text ++ last
  isWhiteSpace_blank : ∀ l ∈ ls, ∀ c ∈ l.blank, isWhiteSpace c = true
  isWhiteSpace_last : ∀ c ∈ last, isWhiteSpace c = true
  spells : ∀ before l after, ls = before ++ l :: after →
    Spells l.source (after.flatMap Lexeme.text ++ last) l.token

namespace LaidOut

variable {line rest last : List Char} {l : Lexeme} {ls : List Lexeme}

theorem nil (h : ∀ c ∈ last, isWhiteSpace c = true) : LaidOut last [] last where
  line_eq := rfl
  isWhiteSpace_blank := by simp
  isWhiteSpace_last := h
  spells := by simp

theorem cons (hblank : ∀ c ∈ l.blank, isWhiteSpace c = true) (hl : Spells l.source rest l.token)
    (h : LaidOut rest ls last) : LaidOut (l.text ++ rest) (l :: ls) last where
  line_eq := by rw [h.line_eq, List.flatMap_cons, List.append_assoc]
  isWhiteSpace_blank := List.forall_mem_cons.2 ⟨hblank, h.isWhiteSpace_blank⟩
  isWhiteSpace_last := h.isWhiteSpace_last
  spells := by
    intro before l' after hls
    cases before with
    | nil =>
      obtain ⟨rfl, rfl⟩ := List.cons.inj hls
      rwa [← h.line_eq]
    | cons l'' before => exact h.spells before l' after (List.cons.inj hls).2

theorem of_cons (h : LaidOut line (l :: ls) last) :
    ∃ rest, line = l.text ++ rest ∧ Spells l.source rest l.token ∧ LaidOut rest ls last := by
  refine ⟨ls.flatMap Lexeme.text ++ last, ?_, h.spells [] l ls rfl, rfl, ?_, ?_, ?_⟩
  · rw [h.line_eq, List.flatMap_cons, List.append_assoc]
  · exact fun l' hl' ↦ h.isWhiteSpace_blank l' (List.mem_cons_of_mem l hl')
  · exact h.isWhiteSpace_last
  · intro before l' after hls
    exact h.spells (l :: before) l' after (by rw [hls, List.cons_append])

end LaidOut

namespace Lexeme

theorem scan_of_dropWhile {line : List Char} {c : Char} {cs : List Char}
    (h : line.dropWhile isWhiteSpace = c :: cs) :
    scan line = ⟨line.takeWhile isWhiteSpace, (read c cs).source, (read c cs).token⟩ ::
      scan (read c cs).rest := by
  rw [scan]
  split
  · next h' => rw [h] at h'; cases h'
  · next h' =>
    rw [h] at h'
    obtain ⟨rfl, rfl⟩ := List.cons.inj h'
    rfl

theorem scan_of_isWhiteSpace {line : List Char} (h : ∀ c ∈ line, isWhiteSpace c = true) :
    scan line = [] := by
  have hnil := List.dropWhile_eq_nil_iff.2 h
  rw [scan]
  split
  · rfl
  · next h' => rw [hnil] at h'; cases h'

end Lexeme

theorem exists_laidOut_scan (line : List Char) : ∃ last, LaidOut line (Lexeme.scan line) last := by
  fun_induction Lexeme.scan line with
  | case1 line hline => exact ⟨line, .nil (List.dropWhile_eq_nil_iff.1 hline)⟩
  | case2 line c cs hline ih =>
    obtain ⟨last, h⟩ := ih
    have hc := Lexeme.isWhiteSpace_of_dropWhile hline
    have hblank : ∀ x ∈ line.takeWhile isWhiteSpace, isWhiteSpace x = true := by
      exact List.all_eq_true.1 List.all_takeWhile
    have hcons := h.cons (l := ⟨line.takeWhile isWhiteSpace, _, _⟩) hblank (Lexeme.spells_read hc cs)
    rw [Lexeme.text, List.append_assoc, Lexeme.read_source_append_rest, ← hline,
      List.takeWhile_append_dropWhile] at hcons
    exact ⟨last, hcons⟩

/-- A line is scanned as it is laid out. -/
theorem LaidOut.scan_eq {line last : List Char} {ls : List Lexeme} (h : LaidOut line ls last) :
    Lexeme.scan line = ls := by
  induction ls generalizing line with
  | nil =>
    have hline := h.line_eq
    rw [List.flatMap_nil, List.nil_append] at hline
    exact Lexeme.scan_of_isWhiteSpace (hline ▸ h.isWhiteSpace_last)
  | cons l ls ih =>
    obtain ⟨rest, rfl, hspells, hrest⟩ := h.of_cons
    have hblank := h.isWhiteSpace_blank l List.mem_cons_self
    obtain ⟨c, s, hsource, hc, hread⟩ := hspells.read_eq
    have hline : l.text ++ rest = l.blank ++ c :: (s ++ rest) := by
      rw [Lexeme.text, hsource, List.append_assoc, List.cons_append]
    have hdrop : (l.text ++ rest).dropWhile isWhiteSpace = c :: (s ++ rest) := by
      rw [hline, List.dropWhile_append_of_pos hblank, List.dropWhile_cons_of_neg (by simp [hc])]
    have htake : (l.text ++ rest).takeWhile isWhiteSpace = l.blank := by
      rw [hline, List.takeWhile_append_of_pos hblank, List.takeWhile_cons_of_neg (by simp [hc]),
        List.append_nil]
    rw [Lexeme.scan_of_dropWhile hdrop, htake, hread, ih hrest]

/-- A line has one layout. -/
theorem LaidOut.unique {line last last' : List Char} {ls ls' : List Lexeme}
    (h : LaidOut line ls last) (h' : LaidOut line ls' last') : ls = ls' ∧ last = last' := by
  obtain rfl : ls = ls' := by rw [← h.scan_eq, ← h'.scan_eq]
  exact ⟨rfl, List.append_cancel_left (h.line_eq.symm.trans h'.line_eq)⟩

/-! ## Places -/

namespace Token

theorem length_place (start : Nat) (ls : List Lexeme) : (place start ls).length = ls.length := by
  induction ls generalizing start with
  | nil => rfl
  | cons l ls ih => rw [place, List.length_cons, ih, List.length_cons]

/-- A lexeme is placed behind all that stands in front of its token. -/
theorem getElem?_place (start : Nat) (before : List Lexeme) (l : Lexeme) (after : List Lexeme) :
    (place start (before ++ l :: after))[before.length]? =
      some ⟨l.token, start + byteSize (before.flatMap Lexeme.text ++ l.blank)⟩ := by
  induction before generalizing start with
  | nil => rfl
  | cons l' before ih =>
    rw [List.cons_append, place, List.length_cons, List.getElem?_cons_succ, ih]
    simp only [List.flatMap_cons, Lexeme.text, byteSize_append, Nat.add_assoc]

/-- The tokens that are placed by joining are all but those that are left out by `q`. -/
theorem filter_join {q : Placed → Bool} (hand : ∀ p, p.token = .and → q p = false)
    {ps : List Placed} (h : ∀ p ∈ ps, q p = true) : (join ps).filter q = ps := by
  fun_induction join ps with
  | case1 a b ps hab ih =>
    obtain ⟨ha, h⟩ := List.forall_mem_cons.1 h
    rw [List.filter_cons_of_pos ha, List.filter_cons_of_neg (by simp [hand]), ih h]
  | case2 a b ps hab ih =>
    obtain ⟨ha, h⟩ := List.forall_mem_cons.1 h
    rw [List.filter_cons_of_pos ha, ih h]
  | case3 ps _ => exact List.filter_eq_self.2 h

theorem head?_join (ps : List Placed) : (join ps).head? = ps.head? := by
  fun_cases join ps <;> rfl

theorem getLast?_join (ps : List Placed) : (join ps).getLast? = ps.getLast? := by
  fun_induction join ps with
  | case1 a b ps hab ih => simp [List.getLast?_cons, ih]
  | case2 a b ps hab ih => simp [List.getLast?_cons, ih]
  | case3 ps _ => rfl

/-- A conjunction that is put between two tokens is placed at the second. -/
theorem isChain_join {ps : List Placed} (h : ∀ p ∈ ps, p.token ≠ .and) :
    (join ps).IsChain fun p q ↦ p.token = .and → q.offset = p.offset := by
  fun_induction join ps with
  | case1 a b ps hab ih =>
    obtain ⟨ha, h⟩ := List.forall_mem_cons.1 h
    refine List.isChain_cons_cons.2 ⟨fun hand ↦ absurd hand ha, List.isChain_cons.2 ⟨?_, ih h⟩⟩
    intro q hq _
    rw [head?_join] at hq
    obtain rfl := Option.some.inj hq
    rfl
  | case2 a b ps hab ih =>
    obtain ⟨ha, h⟩ := List.forall_mem_cons.1 h
    exact List.isChain_cons.2 ⟨fun q _ hand ↦ absurd hand ha, ih h⟩
  | case3 ps hps =>
    rcases ps with _ | ⟨a, _ | ⟨b, ps⟩⟩
    · exact .nil
    · exact .singleton a
    · exact absurd rfl (hps a b ps)

/-- The tokens that are written in a line, with their places: all but the conjunctions and the
marker. -/
def written (line : String) : List Placed :=
  (placed line).filter fun p ↦ p.token ≠ .and ∧ p.token ≠ .stop

section

variable {line : String} {p : Placed}

theorem ne_of_mem_place (h : p ∈ place 0 (Lexeme.scan line.toList)) :
    p.token ≠ .and ∧ p.token ≠ .stop := by
  have hmem : p.token ∈ Lexeme.tokens line.toList := by
    rw [Lexeme.tokens, ← map_token_place 0]
    exact List.mem_map_of_mem h
  exact Lexeme.ne_of_mem_tokens hmem

theorem placed_eq (line : String) :
    placed line = join (place 0 (Lexeme.scan line.toList)) ++ [⟨.stop, line.utf8ByteSize⟩] := by
  rw [placed, byteSize_toList]

theorem written_eq (line : String) : written line = place 0 (Lexeme.scan line.toList) := by
  rw [written, placed_eq, List.filter_append, filter_join]
  · exact List.append_nil _
  · intro p hand
    simp [hand]
  · intro p hp
    exact decide_eq_true (ne_of_mem_place hp)

theorem isChain_placed (line : String) :
    (placed line).IsChain fun p q ↦ p.token = .and → q.offset = p.offset := by
  have hne : ∀ p ∈ place 0 (Lexeme.scan line.toList), p.token ≠ .and :=
    fun p hp ↦ (ne_of_mem_place hp).1
  refine List.isChain_append.2 ⟨isChain_join hne, .singleton _, ?_⟩
  intro p hp q _ hand
  rw [getLast?_join] at hp
  exact absurd hand (hne p (List.mem_of_mem_getLast? hp))

/-- A conjunction is placed where the token behind it is. There is one, as the line ends with its
marker. -/
theorem exists_offset_eq {before after : List Placed} (h : placed line = before ++ p :: after)
    (hand : p.token = .and) : ∃ q, after.head? = some q ∧ q.offset = p.offset := by
  cases after with
  | nil =>
    have hlast := congrArg List.getLast? ((placed_eq line).symm.trans h)
    rw [List.getLast?_concat, List.getLast?_concat] at hlast
    obtain rfl := Option.some.inj hlast
    cases hand
  | cons q after =>
    have hchain := isChain_placed line
    rw [h] at hchain
    exact ⟨q, rfl, (List.isChain_cons_cons.1 hchain.right_of_append).1 hand⟩

end

/-- Where the tokens of a line are. The line has one layout. The tokens that are written are those
that its lexemes spell, and they are placed at the bytes where the characters of each start. A
conjunction is followed by a token that is placed where the conjunction is, and there is one marker,
at the end. -/
theorem placed_layout (line : String) :
    (∃ ls last, LaidOut line.toList ls last ∧
        (∀ ls' last', LaidOut line.toList ls' last' → ls' = ls ∧ last' = last) ∧
        (written line).length = ls.length ∧
        ∀ (before : List Lexeme) (l : Lexeme) (after : List Lexeme), ls = before ++ l :: after →
          (written line)[before.length]? =
            some ⟨l.token, byteSize (before.flatMap Lexeme.text ++ l.blank)⟩) ∧
      (∀ (before : List Placed) (p : Placed) (after : List Placed),
        placed line = before ++ p :: after → p.token = .and →
          ∃ q, after.head? = some q ∧ q.offset = p.offset) ∧
      ∃ ps : List Placed, placed line = ps ++ [⟨.stop, line.utf8ByteSize⟩] ∧
        ∀ p ∈ ps, p.token ≠ .stop := by
  refine ⟨?_, fun before p after ↦ exists_offset_eq, _, placed_eq line, ?_⟩
  · obtain ⟨last, hlast⟩ := exists_laidOut_scan line.toList
    refine ⟨_, last, hlast, fun ls' last' h ↦ h.unique hlast, ?_, ?_⟩
    · rw [written_eq, length_place]
    · intro before l after hls
      rw [written_eq, hls, getElem?_place, Nat.zero_add]
  · intro p hp
    rcases eq_and_or_mem_of_mem_join hp with h | h
    · rw [h]
      decide
    · exact (ne_of_mem_place h).2

/-- The first character takes two bytes, and the keyword ends at a quote. The phrase goes on behind
its first two quotes, and the last quote of the line is never closed. -/
theorem placed_layout_quotes :
    let line := "ä OR\"b\\\"\" -(c) \"d "
    placed line =
        [⟨.word (.bare "ä"), 0⟩, ⟨.or, 3⟩, ⟨.word (.quoted "b\""), 5⟩, ⟨.and, 11⟩, ⟨.exclude, 11⟩,
          ⟨.lparen, 12⟩, ⟨.word (.bare "c"), 13⟩, ⟨.rparen, 14⟩, ⟨.and, 16⟩,
          ⟨.word (.bare "\"d"), 16⟩, ⟨.stop, 19⟩] ∧
      (∃ ls last, LaidOut line.toList ls last ∧ ls.length = 8) ∧ line.utf8ByteSize = 19 := by
  intro line
  have hplaced : placed line =
      [⟨.word (.bare "ä"), 0⟩, ⟨.or, 3⟩, ⟨.word (.quoted "b\""), 5⟩, ⟨.and, 11⟩, ⟨.exclude, 11⟩,
        ⟨.lparen, 12⟩, ⟨.word (.bare "c"), 13⟩, ⟨.rparen, 14⟩, ⟨.and, 16⟩,
        ⟨.word (.bare "\"d"), 16⟩, ⟨.stop, 19⟩] := by
    decide +kernel
  obtain ⟨⟨ls, last, hlaid, -, hlength, -⟩, -, ps, hstop, -⟩ := placed_layout line
  refine ⟨hplaced, ⟨ls, last, hlaid, ?_⟩, ?_⟩
  · rw [← hlength, written, hplaced]
    rfl
  · have hlast := congrArg List.getLast? (hplaced.symm.trans hstop)
    rw [List.getLast?_concat] at hlast
    exact (Placed.mk.inj (Option.some.inj hlast)).2.symm

end Token

end SearchWords
