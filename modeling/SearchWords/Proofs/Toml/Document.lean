import Mathlib.Data.List.Basic
import SearchWords.Proofs.Toml.Quoted
import SearchWords.Toml.Document

/-!
# Tables read back

A document with one table is read back from its lines. What is asked of a line is that its key is
bare and that its value is read where the line ends; strings in the form chosen for them and natural
numbers are such values.
-/

namespace SearchWords.Toml

theorem ne_of_holds {p : Char → Bool} {c d : Char} (hc : p c = true) (hd : p d = false) :
    c ≠ d := by
  rintro rfl
  exact absurd hc (by simp [hd])

/-! ## Numbers -/

theorem digits?_of_isDigit {cs : List Char} (hne : cs ≠ []) (hcs : ∀ c ∈ cs, c.isDigit = true) :
    digits? Char.isDigit cs = some cs := by
  fun_induction digits? Char.isDigit cs with
  | case1 => exact absurd rfl hne
  | case2 => rfl
  | case3 c hc => exact absurd (hcs c (by simp)) hc
  | case4 | case5 => exact absurd (hcs '_' (by simp)) (by decide)
  | case6 c cs hnil _ hc ih =>
    have hrest : digits? Char.isDigit cs = some cs :=
      ih (fun h ↦ hnil h) (List.forall_mem_cons.1 hcs).2
    rw [hrest, Option.map_some]
  | case7 c cs _ _ hc => exact absurd (hcs c (by simp)) hc

theorem sign_of_isDigit {c : Char} (hc : c.isDigit = true) (cs : List Char) :
    sign (c :: cs) = (false, c :: cs) := by
  unfold sign
  split
  · next h => exact absurd (List.cons.inj h).1 (ne_of_holds hc (by decide))
  · next h => exact absurd (List.cons.inj h).1 (ne_of_holds hc (by decide))
  · rfl

/-- Digits without a zero in front are an integer. -/
theorem integer?_of_isDigit {cs : List Char} (hne : cs ≠ []) (hcs : ∀ c ∈ cs, c.isDigit = true)
    (hzero : ∀ ds, cs = '0' :: ds → ds = []) : integer? cs = some (number 10 cs : Int) := by
  have hdecimal : decimal? cs = some cs := by
    unfold decimal?
    split
    · next h =>
      simp only [Bool.and_eq_true, decide_eq_true_eq] at h
      obtain ⟨ds, rfl⟩ := List.head?_eq_some_iff.1 h.1
      simp [hzero ds rfl] at h
    · exact digits?_of_isDigit hne hcs
  have hsign : sign cs = (false, cs) := by
    obtain ⟨c, cs, rfl⟩ := List.exists_cons_of_ne_nil hne
    exact sign_of_isDigit (hcs c List.mem_cons_self) cs
  unfold integer?
  split
  · exact absurd (hzero _ rfl) (List.cons_ne_nil _ _)
  · exact absurd (hzero _ rfl) (List.cons_ne_nil _ _)
  · exact absurd (hzero _ rfl) (List.cons_ne_nil _ _)
  · simp [hsign, hdecimal]

theorem isDigit_toDigits {n : Nat} : ∀ c ∈ Nat.toDigits 10 n, c.isDigit = true :=
  fun _ ↦ Nat.isDigit_of_mem_toDigits (by decide) (by decide)

theorem number_toDigits (n : Nat) : number 10 (Nat.toDigits 10 n) = n := by
  have hnumber : number 10 (Nat.toDigits 10 n) = Nat.ofDigitChars 10 (Nat.toDigits 10 n) 0 := by
    refine List.foldl_ext _ _ _ fun m c hc ↦ ?_
    simp [digitValue, isDigit_toDigits c hc]
  rw [hnumber, Nat.ofDigitChars_ten_toDigits]

/-- Only zero has a zero in front. -/
theorem eq_nil_of_toDigits {n : Nat} {cs : List Char} (h : Nat.toDigits 10 n = '0' :: cs) :
    cs = [] := by
  induction n using Nat.strongRecOn generalizing cs with
  | ind n ih =>
    by_cases hn : n < 10
    · rw [Nat.toDigits_of_lt_base hn] at h
      exact (List.cons.inj h).2.symm
    · rw [Nat.toDigits_eq_if (by decide), if_neg hn] at h
      cases hdigits : Nat.toDigits 10 (n / 10) with
      | nil => exact absurd hdigits Nat.toDigits_ne_nil
      | cons d ds =>
        rw [hdigits, List.cons_append] at h
        have hd : d = '0' := (List.cons.inj h).1
        subst hd
        have hds : ds = [] := ih (n / 10) (by omega) hdigits
        have hzero : n / 10 = 0 := by
          rw [← Nat.ofDigitChars_ten_toDigits (n := n / 10), hdigits, hds]
          rfl
        omega

theorem scalar?_toDigits (n : Nat) : scalar? (Nat.toDigits 10 n) = some (.integer n) := by
  have hinteger : integer? (Nat.toDigits 10 n) = some (n : Int) := by
    rw [integer?_of_isDigit Nat.toDigits_ne_nil isDigit_toDigits fun _ ↦ eq_nil_of_toDigits,
      number_toDigits]
  have hdigits : ∀ c ds, c.isDigit = false → c ∈ ds → Nat.toDigits 10 n ≠ ds := by
    rintro c _ hc hmem rfl
    exact absurd (isDigit_toDigits c hmem) (by simp [hc])
  have hradix : isRadixMark (Nat.toDigits 10 n) = false := by
    simp [isRadixMark, hdigits 'x' ['0', 'x'], hdigits 'o' ['0', 'o'], hdigits 'b' ['0', 'b']]
  simp [scalar?, hdigits 't' ['t', 'r', 'u', 'e'], hdigits 'f' ['f', 'a', 'l', 's', 'e'], hradix,
    hinteger]

/-! ## Values -/

theorem string_of_ne {c : Char} (hdouble : c ≠ '"') (hsingle : c ≠ '\'') (cs : List Char) :
    string (c :: cs) = none := by
  unfold string
  split <;> simp_all

theorem word_of_isMark {c : Char} (hc : isMark c = true) (cs : List Char) :
    word (c :: cs) = none := by
  simp [word, hc]

theorem scalar_of_isMark {c : Char} (hc : isMark c = true) (cs : List Char) :
    scalar (c :: cs) = none := by
  simp [scalar, words, word_of_isMark hc]

theorem value_of_string {cs rest : List Char} {text : String} (h : string cs = some (text, rest))
    (depth : Nat) : value depth cs = some (.string text, rest) := by
  unfold value
  split
  · simp [string] at h
  · simp [string] at h
  · simp [h]

theorem value_of_scalar {cs rest : List Char} {v : Value} (hstring : string cs = none)
    (h : scalar cs = some (v, rest)) (depth : Nat) : value depth cs = some (v, rest) := by
  unfold value
  split
  · rw [scalar_of_isMark (by decide)] at h
    cases h
  · rw [scalar_of_isMark (by decide)] at h
    cases h
  · simp [hstring, h]

/-- No value starts with a blank. -/
theorem isBlank_of_value {depth : Nat} {c : Char} {cs : List Char} {p : Value × List Char}
    (h : value depth (c :: cs) = some p) : isBlank c = false := by
  by_contra hblank
  rw [Bool.not_eq_false] at hblank
  have hscalar : scalar (c :: cs) = none := scalar_of_isMark (by simp [isMark, hblank]) cs
  have hc : c = ' ' ∨ c = '\t' := by simpa [isBlank] using hblank
  rcases hc with rfl | rfl
  all_goals simp [value, string, hscalar] at h

/-- At the end of a line the text `shown` stands for the value `v`. -/
def Shows (shown : String) (v : Value) : Prop :=
  ∀ rest, value maxDepth (shown.toList ++ '\n' :: rest) = some (v, '\n' :: rest)

theorem shows_writeString (text : String) : Shows (writeString text) (.string text) :=
  fun _ ↦ value_of_string (string_writeString text (by simp) (by simp)) _

theorem words_of_isMark {cs rest : List Char} (hne : cs ≠ []) (hcs : ∀ c ∈ cs, isMark c = false) :
    words (cs ++ '\n' :: rest) = some (cs, '\n' :: rest) := by
  have hfirst : word (cs ++ '\n' :: rest) = some (cs, '\n' :: rest) := by
    have hmark : ∀ c ∈ cs, (!isMark c) = true := by simpa using hcs
    have hline : isMark '\n' = true := by decide
    simp [word, List.takeWhile_append_of_pos hmark, List.dropWhile_append_of_pos hmark, hline, hne]
  have hnext : nextWord ('\n' :: rest) = none := by
    simp [nextWord, isBlank, word_of_isMark (c := '\n') (by decide)]
  simp [words, hfirst, many_of_none hnext]

theorem shows_toString (n : Nat) : Shows (toString n) (.integer n) := by
  intro rest
  rw [Nat.toString_eq_ofList_toDigits, String.toList_ofList]
  have hmark : ∀ c ∈ Nat.toDigits 10 n, isMark c = false := by
    intro c hc
    have hdigit : c.isDigit = true := isDigit_toDigits c hc
    simp [isMark, isBlank, ne_of_holds hdigit]
  have hscalar : scalar (Nat.toDigits 10 n ++ '\n' :: rest) = some (.integer n, '\n' :: rest) := by
    simp [scalar, words_of_isMark Nat.toDigits_ne_nil hmark, scalar?_toDigits]
  have hstring : string (Nat.toDigits 10 n ++ '\n' :: rest) = none := by
    obtain ⟨c, cs, h⟩ := List.exists_cons_of_ne_nil (Nat.toDigits_ne_nil (n := n) (b := 10))
    have hdigit : c.isDigit = true := isDigit_toDigits (n := n) c (by simp [h])
    rw [h]
    exact string_of_ne (ne_of_holds hdigit (by decide)) (ne_of_holds hdigit (by decide)) _
  exact value_of_scalar hstring hscalar _

/-! ## Lines -/

/-- A key that needs no quotes. -/
structure IsBareKey (name : String) : Prop where
  ne_nil : name.toList ≠ []
  all : name.toList.all isBareKeyChar = true

instance (name : String) : Decidable (IsBareKey name) :=
  decidable_of_iff (name.toList ≠ [] ∧ name.toList.all isBareKeyChar = true)
    ⟨fun h ↦ ⟨h.1, h.2⟩, fun h ↦ ⟨h.1, h.2⟩⟩

theorem isBlank_of_isBareKeyChar {c : Char} (hc : isBareKeyChar c = true) : isBlank c = false := by
  have hspace : c ≠ ' ' := ne_of_holds hc (by decide)
  have htab : c ≠ '\t' := ne_of_holds hc (by decide)
  simp [isBlank, hspace, htab]

theorem skipBlanks_of_isBlank {c : Char} (hc : isBlank c = false) (cs : List Char) :
    skipBlanks (c :: cs) = c :: cs := by
  simp [skipBlanks, hc]

namespace IsBareKey

variable {name : String}

theorem exists_cons (hname : IsBareKey name) :
    ∃ c cs, name.toList = c :: cs ∧ isBareKeyChar c = true := by
  obtain ⟨c, cs, hcons⟩ := List.exists_cons_of_ne_nil hname.ne_nil
  exact ⟨c, cs, hcons, List.all_eq_true.1 hname.all c (by simp [hcons])⟩

theorem skipBlanks_append (hname : IsBareKey name) (rest : List Char) :
    skipBlanks (name.toList ++ rest) = name.toList ++ rest := by
  obtain ⟨c, cs, hcons, hc⟩ := hname.exists_cons
  rw [hcons]
  exact skipBlanks_of_isBlank (isBlank_of_isBareKeyChar hc) _

end IsBareKey

/-- A bare key is read up to a character that is not part of one. -/
theorem key_of_isBareKey {name : String} (hname : IsBareKey name) {c : Char} (rest : List Char)
    (hc : isBareKeyChar c = false) : key (name.toList ++ c :: rest) = some (name, c :: rest) := by
  have hbare : ∀ c ∈ name.toList, isBareKeyChar c = true := List.all_eq_true.1 hname.all
  obtain ⟨d, ds, hcons, hd⟩ := hname.exists_cons
  unfold key
  split
  · next h =>
    rw [hcons] at h
    exact absurd (List.cons.inj h).1 (ne_of_holds hd (by decide))
  · next h =>
    rw [hcons] at h
    exact absurd (List.cons.inj h).1 (ne_of_holds hd (by decide))
  · have hempty : name.toList.isEmpty = false := by simp [hcons]
    simp only [List.takeWhile_append_of_pos hbare, List.dropWhile_append_of_pos hbare,
      List.takeWhile_cons, List.dropWhile_cons, hc]
    simpa using hempty

theorem keyPath_of_isBareKey {name : String} (hname : IsBareKey name) {c : Char} {rest : List Char}
    (hc : isBareKeyChar c = false) (hdot : dotKey (c :: rest) = none) :
    keyPath (name.toList ++ c :: rest) = some ([name], c :: rest) := by
  simp [keyPath, key_of_isBareKey hname rest hc, many_of_none hdot, maxDepth, guard]

theorem Shows.skipBlanks_append {shown : String} {v : Value} (h : Shows shown v)
    (rest : List Char) :
    skipBlanks (shown.toList ++ '\n' :: rest) = shown.toList ++ '\n' :: rest := by
  have hvalue := h rest
  cases hcons : shown.toList ++ '\n' :: rest with
  | nil => rfl
  | cons c cs =>
    rw [hcons] at hvalue
    exact skipBlanks_of_isBlank (isBlank_of_value hvalue) cs

theorem pair_of_shows {name shown : String} {v : Value} (hname : IsBareKey name)
    (hshown : Shows shown v) (rest : List Char) :
    pair (value maxDepth) (name.toList ++ ' ' :: '=' :: ' ' :: (shown.toList ++ '\n' :: rest)) =
      some (([name], v), '\n' :: rest) := by
  have hpath : keyPath (name.toList ++ ' ' :: '=' :: ' ' :: (shown.toList ++ '\n' :: rest)) =
      some ([name], ' ' :: '=' :: ' ' :: (shown.toList ++ '\n' :: rest)) :=
    keyPath_of_isBareKey hname (by decide) rfl
  have hequals : ∀ cs, skipBlanks (' ' :: '=' :: cs) = '=' :: cs := fun _ ↦ rfl
  have hblank : ∀ cs, skipBlanks (' ' :: cs) = skipBlanks cs := fun _ ↦ rfl
  simp [pair, hpath, hequals, hblank, hshown.skipBlanks_append, hshown rest]

theorem line_of_skipBlanks {cs : List Char} (hne : cs ≠ []) (hcs : skipBlanks cs = cs) :
    line cs = (statement cs).bind fun p ↦ (endLine p.2).map (p.1, ·) := by
  simp only [line, hcs, Option.map_eq_bind]
  rfl

/-- A line that starts with a bare key is no header, and it is not empty. -/
theorem statement_of_isBareKey {name : String} (hname : IsBareKey name) (rest : List Char) :
    statement (name.toList ++ rest) = (pair (value maxDepth) (name.toList ++ rest)).map fun p ↦
      (some (.pair p.1.1 p.1.2), p.2) := by
  obtain ⟨c, cs, hcons, hc⟩ := hname.exists_cons
  have hblank : isBlank c = false := isBlank_of_isBareKeyChar hc
  have hcomment : c ≠ '#' := ne_of_holds hc (by decide)
  have hnewline : newline (c :: (cs ++ rest)) = none :=
    newline_of_ne (ne_of_holds hc (by decide)) (ne_of_holds hc (by decide)) _
  have hend : endLine (c :: (cs ++ rest)) = none := by
    simp [endLine, skipBlanks_of_isBlank hblank, comment, hcomment, hnewline]
  have hbracket : c ≠ '[' := ne_of_holds hc (by decide)
  rw [hcons, List.cons_append]
  simp [statement, hend, hbracket]

/-- A line of a table: a bare key and its value, as it is shown. -/
structure Entry where
  key : String
  shown : String
  value : Value
  isBareKey : IsBareKey key
  shows : Shows shown value

namespace Entry

/-- An entry with a text. -/
def ofText (key : String) (isBareKey : IsBareKey key) (text : String) : Entry :=
  ⟨key, writeString text, .string text, isBareKey, shows_writeString text⟩

/-- An entry with a number. -/
def ofNat (key : String) (isBareKey : IsBareKey key) (n : Nat) : Entry :=
  ⟨key, toString n, .integer n, isBareKey, shows_toString n⟩

def toLine (e : Entry) : List Char :=
  e.key.toList ++ ' ' :: '=' :: ' ' :: (e.shown.toList ++ ['\n'])

theorem toLine_ne_nil (e : Entry) : e.toLine ≠ [] := by
  simp [toLine]

theorem line_toLine (e : Entry) (rest : List Char) :
    line (e.toLine ++ rest) = some (some (.pair [e.key] e.value), rest) := by
  have hline : e.toLine ++ rest =
      e.key.toList ++ ' ' :: '=' :: ' ' :: (e.shown.toList ++ '\n' :: rest) := by
    simp [toLine]
  rw [hline, line_of_skipBlanks (by simp) (e.isBareKey.skipBlanks_append _),
    statement_of_isBareKey e.isBareKey, pair_of_shows e.isBareKey e.shows]
  rfl

end Entry

theorem statement_header {name : String} (hname : IsBareKey name) (rest : List Char) :
    statement ('[' :: (name.toList ++ ']' :: rest)) = some (some (.table [name]), rest) := by
  have hpath : keyPath (name.toList ++ ']' :: rest) = some ([name], ']' :: rest) :=
    keyPath_of_isBareKey hname (by decide) rfl
  have hheader : header [']'] (name.toList ++ ']' :: rest) = some ([name], rest) := by
    have hclose : skipBlanks (']' :: rest) = ']' :: rest := rfl
    simp [header, hname.skipBlanks_append, hpath, hclose, List.isPrefixOf?]
  obtain ⟨c, cs, hcons, hc⟩ := hname.exists_cons
  have hbracket : c ≠ '[' := ne_of_holds hc (by decide)
  rw [hcons, List.cons_append] at hheader ⊢
  simp [statement, hbracket, hheader]

theorem line_header {name : String} (hname : IsBareKey name) (rest : List Char) :
    line ('[' :: (name.toList ++ ']' :: '\n' :: rest)) = some (some (.table [name]), rest) := by
  rw [line_of_skipBlanks (by simp) rfl, statement_header hname]
  rfl

/-- The lines of a table with a header. -/
def tableLines (name : String) (entries : List Entry) : List Char :=
  '[' :: (name.toList ++ ']' :: '\n' :: entries.flatMap Entry.toLine)

theorem many_line_entries (entries : List Entry) :
    many line (entries.flatMap Entry.toLine) =
      (entries.map fun e ↦ some (.pair [e.key] e.value), []) := by
  induction entries with
  | nil => exact many_of_none rfl
  | cons e entries ih =>
    rw [List.flatMap_cons, many_of_some (e.line_toLine _) (length_lt_append e.toLine_ne_nil _), ih]
    rfl

theorem statements_tableLines {name : String} (hname : IsBareKey name) (entries : List Entry) :
    statements (tableLines name entries) =
      some (.table [name] :: entries.map fun e ↦ .pair [e.key] e.value) := by
  have hmany : many line (tableLines name entries) =
      (some (.table [name]) :: entries.map fun e ↦ some (.pair [e.key] e.value), []) := by
    rw [tableLines, many_of_some (line_header hname _) (by simp; omega), many_line_entries]
  have hmark : (tableLines name entries).head? ≠ some '\uFEFF' := by simp [tableLines]
  simp [statements, hmark, hmany, List.filterMap_map]

/-! ## Documents -/

namespace Table

theorem get?_of_notMem {t : Table} {key : String} (h : key ∉ t.entries.map Prod.fst) :
    t.get? key = none := by
  rw [get?, List.lookup_eq_none_iff]
  intro p hp
  have hne : key ≠ p.1 := fun heq ↦ h (heq ▸ List.mem_map_of_mem hp)
  simpa using hne

theorem insert_of_notMem {t : Table} {key : String} (horigin : t.origin ≠ .dotted)
    (h : key ∉ t.entries.map Prod.fst) (v : Value) :
    t.insert [key] v = some { t with entries := t.entries ++ [(key, v)] } := by
  have hget : t.get? key = none := get?_of_notMem h
  have hlookup : t.entries.lookup key = none := hget
  simp [insert, modify, horigin, hget, put, hlookup, guard]

/-- A path leads on through a table. -/
theorem modify_cons {made origin : Origin} {key : String} {t : Table}
    {entries : List (String × Value)} (hget : t.get? key = some (.table origin entries))
    (henter : mayEnter made origin = true) (f : Table → Option Table) (path : List String) :
    modify made f (key :: path) t =
      (modify made f path ⟨origin, entries⟩).map fun child ↦ t.put key child.toValue := by
  simp [modify, hget, henter, guard, Option.map_eq_bind]

end Table

namespace Draft

/-- A document that has one table so far. -/
def ofTable (name : String) (entries : List (String × Value)) : Draft where
  root := ⟨.header, [(name, .table .header entries)]⟩
  current := [name]

theorem add_table (name : String) : empty.add (.table [name]) = some (ofTable name []) := by
  simp [add, empty, ofTable, Table.openTable, Table.modify, Table.get?, Table.put]

theorem add_pair {name key : String} {entries : List (String × Value)}
    (h : key ∉ entries.map Prod.fst) (v : Value) :
    (ofTable name entries).add (.pair [key] v) = some (ofTable name (entries ++ [(key, v)])) := by
  have hinsert : (⟨.header, entries⟩ : Table).insert [key] v =
      some ⟨.header, entries ++ [(key, v)]⟩ := Table.insert_of_notMem (by simp) h v
  have hget : (ofTable name entries).root.get? name = some (.table .header entries) := by
    simp [ofTable, Table.get?]
  have hmodify : Table.modify .implied (·.insert [key] v) [name] (ofTable name entries).root =
      some (ofTable name (entries ++ [(key, v)])).root := by
    rw [Table.modify_cons hget rfl, Table.modify, hinsert]
    simp [ofTable, Table.put, Table.toValue]
  exact congrArg (Option.map _) hmodify

theorem foldlM_add (name : String) {entries done : List (String × Value)}
    (h : ((done ++ entries).map Prod.fst).Nodup) :
    (entries.map fun e ↦ Statement.pair [e.1] e.2).foldlM add (ofTable name done) =
      some (ofTable name (done ++ entries)) := by
  induction entries generalizing done with
  | nil => simp
  | cons e entries ih =>
    have hfresh : e.1 ∉ done.map Prod.fst := by
      rw [List.map_append, List.map_cons, List.nodup_append] at h
      exact fun hmem ↦ h.2.2 e.1 hmem e.1 List.mem_cons_self rfl
    have hrest : ((done ++ [e]) ++ entries).map Prod.fst |>.Nodup := by simpa using h
    rw [List.map_cons, List.foldlM_cons, add_pair hfresh]
    simpa using ih hrest

end Draft

/-- A table is read back from its lines. -/
theorem parse_tableLines {name : String} (hname : IsBareKey name) {entries : List Entry}
    (hkeys : (entries.map Entry.key).Nodup) :
    parse (String.ofList (tableLines name entries)) =
      some ⟨.header, [(name, .table .header (entries.map fun e ↦ (e.key, e.value)))]⟩ := by
  have hnodup : (([] ++ entries.map fun e : Entry ↦ (e.key, e.value)).map Prod.fst).Nodup := by
    simpa [Function.comp_def] using hkeys
  have hfold : (entries.map fun e ↦ Statement.pair [e.key] e.value).foldlM Draft.add
      (.ofTable name []) = some (.ofTable name (entries.map fun e ↦ (e.key, e.value))) := by
    simpa [Function.comp_def] using Draft.foldlM_add name hnodup
  rw [parse, String.toList_ofList, statements_tableLines hname]
  simp only [Option.bind_eq_bind, Option.bind_some, List.foldlM_cons, Draft.add_table, hfold]
  rfl

end SearchWords.Toml
