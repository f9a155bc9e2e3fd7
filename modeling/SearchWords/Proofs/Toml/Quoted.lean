import Mathlib.Data.Option.Basic
import Mathlib.Tactic.SplitIfs
import SearchWords.Toml.Quoted
import SearchWords.Toml.Writer

/-!
# Strings read back

The writer chooses one of four forms for a text, and the reader finds out which one it was from the
quotes in front. Whatever the text holds, it is read back from the form that was chosen for it
(`string_writeString`), as long as no quote follows.

On one line the reader takes one character at a time, and each of them is shown in a way that it
takes as a whole. In a string that spans lines a quote may also stand for itself, and the reader
tells it from the closing quotes by what follows it. So it matters how many quotes stand in a row:
`Body` says what a string may look like there, and both forms that span lines are written so. The
last quotes of such a string are read together with the closing ones.
-/

namespace SearchWords.Toml

/-! ## Single characters -/

theorem hexDigit?_digitChar : ∀ d < 16, hexDigit? (Nat.digitChar d).toUpper = some d := by
  decide

theorem hexNumber?_hexDigits4 {n : Nat} (h : n < 65536) : hexNumber? (hexDigits4 n) = some n := by
  have hdigit : ∀ m, hexDigit? (Nat.digitChar (m % 16)).toUpper = some (m % 16) :=
    fun m ↦ hexDigit?_digitChar _ (Nat.mod_lt m (by decide))
  have hvalue : 16 * (16 * (16 * (16 * 0 + n / 4096 % 16) + n / 256 % 16) + n / 16 % 16) +
      n % 16 = n := by
    omega
  simpa [hexNumber?, hexDigits4, hdigit] using hvalue

theorem codePoint_hexDigits4 {c : Char} (h : c.toNat < 65536) (rest : List Char) :
    codePoint 4 (hexDigits4 c.toNat ++ rest) = some (c, rest) := by
  have htake : (hexDigits4 c.toNat ++ rest).take 4 = hexDigits4 c.toNat := rfl
  have hdrop : (hexDigits4 c.toNat ++ rest).drop 4 = rest := rfl
  have hlength : 4 ≤ (hexDigits4 c.toNat).length + rest.length := by simp [hexDigits4]
  have hvalid : c.toNat.isValidChar := c.valid
  simp [codePoint, guard, htake, hdrop, hlength, hexNumber?_hexDigits4 h, hvalid]

theorem isPlain_of_isControl {c : Char} (hcontrol : isControl c = false) (hline : c ≠ '\n') :
    isPlain c = true := by
  by_cases htab : c = '\t'
  · simp [isPlain, htab]
  · have hrange : 0x20 ≤ c.toNat ∧ c.toNat ≠ 0x7F := by
      simpa [isControl, htab, hline] using hcontrol
    simp [isPlain, hrange]

theorem basicChar_of_isPlain {c : Char} (hplain : isPlain c = true) (hquote : c ≠ '"')
    (hslash : c ≠ '\\') (rest : List Char) : basicChar (c :: rest) = some (c, rest) := by
  simp [basicChar, hplain, hquote]

/-- A character as a basic string shows it is read back. -/
theorem basicChar_basicShown {c : Char} (hline : c ≠ '\n') (hquote : c ≠ '"') (rest : List Char) :
    basicChar (basicShown c ++ rest) = some (c, rest) := by
  unfold basicShown
  split_ifs with hbackspace htab hfeed hreturn hslash hcontrol
  · subst hbackspace
    rfl
  · subst htab
    rfl
  · subst hfeed
    rfl
  · subst hreturn
    rfl
  · subst hslash
    rfl
  · refine codePoint_hexDigits4 ?_ rest
    rw [Bool.or_eq_true, decide_eq_true_eq, decide_eq_true_eq] at hcontrol
    omega
  · have hrange : 0x20 ≤ c.toNat ∧ c.toNat ≠ 0x7F := by simpa using hcontrol
    exact basicChar_of_isPlain (by simp [isPlain, hrange]) hquote hslash rest

theorem basicChar_lineShown (c : Char) (rest : List Char) :
    basicChar (lineShown c ++ rest) = some (c, rest) := by
  unfold lineShown
  split_ifs with hline hquote
  · subst hline
    rfl
  · subst hquote
    rfl
  · exact basicChar_basicShown hline hquote rest

/-- A basic string shows a character as itself or by an escape. -/
theorem basicShown_eq (c : Char) :
    basicShown c = [c] ∧ 0x20 ≤ c.toNat ∧ c ≠ '\\' ∨
      ∃ d more, basicShown c = '\\' :: d :: more ∧
        (d = 'b' ∨ d = 't' ∨ d = 'f' ∨ d = 'r' ∨ d = '\\' ∨ d = 'u') := by
  unfold basicShown
  split_ifs with h₁ h₂ h₃ h₄ hslash hcontrol
  all_goals try exact .inr ⟨_, _, rfl, by decide⟩
  have hrange : 0x20 ≤ c.toNat ∧ c.toNat ≠ 0x7F := by simpa using hcontrol
  exact .inl ⟨rfl, hrange.1, hslash⟩

theorem basicShown_ne_nil (c : Char) : basicShown c ≠ [] := by
  obtain ⟨h, -⟩ | ⟨d, more, h, -⟩ := basicShown_eq c
  all_goals simp [h]

theorem head?_basicShown {c : Char} (hquote : c ≠ '"') : (basicShown c).head? ≠ some '"' := by
  obtain ⟨h, -⟩ | ⟨d, more, h, -⟩ := basicShown_eq c
  all_goals simp [h, hquote]

theorem lineShown_ne_nil (c : Char) : lineShown c ≠ [] := by
  unfold lineShown
  split_ifs
  all_goals simp [basicShown_ne_nil]

theorem head?_lineShown (c : Char) : (lineShown c).head? ≠ some '"' := by
  unfold lineShown
  split_ifs with hline hquote
  · simp
  · simp
  · exact head?_basicShown hquote

/-! ## Strings on one line -/

theorem length_lt_append {shown : List Char} (hne : shown ≠ []) (rest : List Char) :
    rest.length < (shown ++ rest).length := by
  have := List.length_pos_iff.2 hne
  simp only [List.length_append]
  omega

theorem not_prefix_append {quote : Char} {shown : List Char} (hne : shown ≠ [])
    (hhead : shown.head? ≠ some quote) (quotes rest : List Char) :
    ¬ quote :: quotes <+: shown ++ rest := by
  cases shown with
  | nil => exact absurd rfl hne
  | cons c shown =>
    intro hpre
    have heq : quote = c := (List.cons_prefix_cons.1 hpre).1
    exact hhead (by rw [heq, List.head?_cons])

/-- Characters that are each read back are read back one after the other. -/
theorem many_flatMap {char : Reader Char} {shown : Char → List Char} {cs rest : List Char}
    (hne : ∀ c ∈ cs, shown c ≠ [])
    (hchar : ∀ c ∈ cs, ∀ rest, char (shown c ++ rest) = some (c, rest))
    (hrest : char rest = none) : many char (cs.flatMap shown ++ rest) = (cs, rest) := by
  induction cs with
  | nil => exact many_of_none hrest
  | cons c cs ih =>
    obtain ⟨hc, hcs⟩ := List.forall_mem_cons.1 hchar
    obtain ⟨hnec, hnecs⟩ := List.forall_mem_cons.1 hne
    rw [List.flatMap_cons, List.append_assoc, many_of_some (hc _) (length_lt_append hnec _),
      ih hnecs hcs]

theorem oneLine_basic (cs rest : List Char) :
    oneLine '"' basicChar (cs.flatMap lineShown ++ '"' :: rest) =
      some (String.ofList cs, rest) := by
  have hstop : basicChar ('"' :: rest) = none := by simp [basicChar]
  rw [oneLine, many_flatMap (fun c _ ↦ lineShown_ne_nil c) (fun c _ ↦ basicChar_lineShown c) hstop]
  simp

theorem oneLine_literal {cs : List Char} (hplain : ∀ c ∈ cs, isPlain c = true)
    (hquote : '\'' ∉ cs) (rest : List Char) :
    oneLine '\'' literalChar (cs ++ '\'' :: rest) = some (String.ofList cs, rest) := by
  have hstop : literalChar ('\'' :: rest) = none := by simp [literalChar]
  have hchar : ∀ c ∈ cs, ∀ rest, literalChar ([c] ++ rest) = some (c, rest) := by
    intro c hc rest
    have hne : c ≠ '\'' := by
      rintro rfl
      exact hquote hc
    simp [literalChar, hplain c hc, hne]
  have hmany : many literalChar (cs.flatMap (fun c ↦ [c]) ++ '\'' :: rest) =
      (cs, '\'' :: rest) := many_flatMap (by simp) hchar hstop
  rw [List.flatMap_singleton'] at hmany
  simp [oneLine, hmany]

/-! ## Strings that span lines -/

/-- `Body quote item n text chars`: between three quotes, `text` stands for `chars`. Quotes stand
for themselves, no more than two in a row, and `n` of them stand in front of the text. All else is
read by `item`. -/
inductive Body (quote : Char) (item : Reader (List Char)) :
    (n : Nat) → (text chars : List Char) → Prop where
  | nil {n : Nat} : Body quote item n [] []
  | quote {n : Nat} {text chars : List Char} :
      n < 2 → Body quote item (n + 1) text chars →
        Body quote item n (quote :: text) (quote :: chars)
  | char {n : Nat} {c : Char} {shown text chars : List Char} :
      shown ≠ [] → shown.head? ≠ some quote →
        (∀ rest, item (shown ++ rest) = some ([c], rest)) →
        Body quote item 0 text chars → Body quote item n (shown ++ text) (c :: chars)

namespace Body

variable {quote : Char} {item : Reader (List Char)} {n : Nat} {text chars : List Char}

/-- A character may stand for itself. -/
theorem char_self {c : Char} (hquote : c ≠ quote)
    (hread : ∀ rest, item (c :: rest) = some ([c], rest)) (h : Body quote item 0 text chars) :
    Body quote item n (c :: text) (c :: chars) := by
  have hhead : [c].head? ≠ some quote := by simpa using hquote
  exact char (List.cons_ne_nil c []) hhead hread h

/-- Behind a quote, two more quotes can only be the last ones of the string. -/
theorem eq_replicate (h : Body quote item (n + 1) text chars) (hn : n < 2) {rest : List Char}
    (hpre : [quote, quote] <+: text ++ quote :: quote :: quote :: rest) :
    ∃ k, text = List.replicate k quote ∧ chars = List.replicate k quote ∧ k + 1 ≤ 2 := by
  cases h with
  | nil => exact ⟨0, rfl, rfl, by omega⟩
  | char hne hhead _ _ =>
    rw [List.append_assoc] at hpre
    exact absurd hpre (not_prefix_append hne hhead _ _)
  | quote hlt h =>
    rw [List.cons_append, List.cons_prefix_cons] at hpre
    cases h with
    | nil => exact ⟨1, rfl, rfl, by omega⟩
    | quote hlt' _ => omega
    | char hne hhead _ _ =>
      rw [List.append_assoc] at hpre
      exact absurd hpre.2 (not_prefix_append hne hhead _ _)

/-- Reading stops at the three closing quotes, or one or two quotes before them that are the last
ones of the string. -/
theorem many_eq (h : Body quote item n text chars)
    (hitem : ∀ cs, item (quote :: cs) = fewQuotes quote (quote :: cs)) (rest : List Char) :
    ∃ chunks k, many item (text ++ quote :: quote :: quote :: rest) =
        (chunks, List.replicate k quote ++ quote :: quote :: quote :: rest) ∧
      chars = chunks.flatten ++ List.replicate k quote ∧ k ≤ 2 := by
  induction h with
  | nil =>
    have hstop : item (quote :: quote :: quote :: rest) = none := by simp [hitem, fewQuotes]
    exact ⟨[], 0, many_of_none hstop, rfl, by omega⟩
  | @quote n text chars hn h ih =>
    -- A quote with two more behind it is left to the closing quotes.
    by_cases hpre : [quote, quote] <+: text ++ quote :: quote :: quote :: rest
    · obtain ⟨k, rfl, rfl, hk⟩ := h.eq_replicate hn hpre
      have hstop : item (quote :: (List.replicate k quote ++ quote :: quote :: quote :: rest)) =
          none := by
        simp only [hitem, fewQuotes, List.isPrefixOf_iff_prefix.2 hpre]
        simp
      exact ⟨[], k + 1, many_of_none hstop, rfl, hk⟩
    · have hread : item (quote :: (text ++ quote :: quote :: quote :: rest)) =
          some ([quote], text ++ quote :: quote :: quote :: rest) := by
        rw [← List.isPrefixOf_iff_prefix, Bool.not_eq_true] at hpre
        simp only [hitem, fewQuotes, hpre]
        simp
      obtain ⟨chunks, k, hmany, rfl, hk⟩ := ih
      refine ⟨[quote] :: chunks, k, ?_, rfl, hk⟩
      rw [List.cons_append, many_of_some hread (by simp), hmany]
  | char hne _ hread _ ih =>
    obtain ⟨chunks, k, hmany, rfl, hk⟩ := ih
    refine ⟨[_] :: chunks, k, ?_, rfl, hk⟩
    rw [List.append_assoc, many_of_some (hread _) (length_lt_append hne _), hmany]

end Body

/-- The closing quotes take up to two quotes in front of them into the string. -/
theorem closing_replicate {quote : Char} {k : Nat} {rest : List Char} (hk : k ≤ 2)
    (hrest : rest.head? ≠ some quote) :
    closing quote (List.replicate k quote ++ quote :: quote :: quote :: rest) =
      some (List.replicate k quote, rest) := by
  have hquotes : List.replicate k quote ++ quote :: quote :: quote :: rest =
      List.replicate (k + 3) quote ++ rest := by
    rw [← List.replicate_append_replicate, List.append_assoc]
    rfl
  have htake : rest.takeWhile (· = quote) = [] := by
    cases rest with
    | nil => rfl
    | cons c rest =>
      have hc : c ≠ quote := by simpa using hrest
      simp [hc]
  have hrun : ((List.replicate (k + 3) quote ++ rest).takeWhile (· = quote)).length = k + 3 := by
    rw [List.takeWhile_append_of_pos (by simp), htake]
    simp
  have hextra : min (k + 3 - 3) 2 = k := by omega
  have hdrop : (List.replicate (k + 3) quote ++ rest).drop (k + 3) = rest := by
    rw [List.drop_append_of_le_length (by simp)]
    simp
  simp only [closing, hquotes, hrun, hextra, hdrop]
  simp

/-- A string that spans lines is read back. Its body stands behind the opening quotes, with or
without a line end between them. -/
theorem multiLine_of_body {quote : Char} {item : Reader (List Char)}
    {opened text chars rest : List Char} (h : Body quote item 0 text chars)
    (hitem : ∀ cs, item (quote :: cs) = fewQuotes quote (quote :: cs))
    (hopen : ((newline opened).map Prod.snd).getD opened =
      text ++ quote :: quote :: quote :: rest)
    (hrest : rest.head? ≠ some quote) :
    multiLine quote item opened = some (String.ofList chars, rest) := by
  obtain ⟨chunks, k, hmany, rfl, hk⟩ := h.many_eq hitem rest
  simp only [multiLine, hopen, hmany, closing_replicate hk hrest, Option.map_some]

/-! ### Basic strings -/

theorem newline_of_ne {c : Char} (hline : c ≠ '\n') (hreturn : c ≠ '\r') (rest : List Char) :
    newline (c :: rest) = none := by
  unfold newline
  split <;> simp_all

theorem basicItem_quote (cs : List Char) : basicItem ('"' :: cs) = fewQuotes '"' ('"' :: cs) := by
  have hnone : single basicChar ('"' :: cs) = none := by simp [single, basicChar]
  simp [basicItem, newline, lineJoin, hnone]

theorem newline_basicShown {c : Char} (hline : c ≠ '\n') (rest : List Char) :
    newline (basicShown c ++ rest) = none := by
  obtain ⟨h, hrange, -⟩ | ⟨d, more, h, -⟩ := basicShown_eq c
  · have hreturn : c ≠ '\r' := by
      rintro rfl
      exact absurd hrange (by decide)
    simp [h, newline_of_ne hline hreturn]
  · simp [h, newline_of_ne]

theorem basicItem_basicShown {c : Char} (hline : c ≠ '\n') (hquote : c ≠ '"') (rest : List Char) :
    basicItem (basicShown c ++ rest) = some ([c], rest) := by
  have hread : single basicChar (basicShown c ++ rest) = some ([c], rest) := by
    simp [single, basicChar_basicShown hline hquote]
  suffices h : lineJoin (basicShown c ++ rest) = none ∧
      fewQuotes '"' (basicShown c ++ rest) = none by
    simp [basicItem, newline_basicShown hline, h, hread]
  obtain ⟨h, -, hslash⟩ | ⟨d, more, h, hd⟩ := basicShown_eq c
  · simp [h, lineJoin, fewQuotes, hslash, hquote]
  · obtain ⟨hblank, hline, hreturn⟩ : isBlank d = false ∧ d ≠ '\n' ∧ d ≠ '\r' := by
      rcases hd with rfl | rfl | rfl | rfl | rfl | rfl <;> decide
    simp [h, lineJoin, skipBlanks, hblank, newline_of_ne hline hreturn, fewQuotes]

/-- The body of a basic string stands for the text that it was written for. -/
theorem body_multiShown {n : Nat} (hn : n ≤ 2) (cs : List Char) :
    Body '"' basicItem n (multiShown n cs) cs := by
  induction cs generalizing n with
  | nil => exact .nil
  | cons c cs ih =>
    have hrest : Body '"' basicItem 0 (multiShown 0 cs) cs := ih (by omega)
    unfold multiShown
    split_ifs with hline hquote htwo
    · subst hline
      exact .char_self (by decide) (fun _ ↦ rfl) hrest
    · subst hquote
      have hread : ∀ rest, basicItem (['\\', '"'] ++ rest) = some (['"'], rest) := fun _ ↦ rfl
      exact .char (List.cons_ne_nil _ _) (by decide) hread hrest
    · subst hquote
      exact .quote (by omega) (ih (by omega))
    · exact .char (basicShown_ne_nil c) (head?_basicShown hquote)
        (basicItem_basicShown hline hquote) hrest

/-! ### Literal strings -/

theorem literalItem_quote (cs : List Char) :
    literalItem ('\'' :: cs) = fewQuotes '\'' ('\'' :: cs) := by
  have hnone : single literalChar ('\'' :: cs) = none := by simp [single, literalChar]
  simp [literalItem, newline, hnone]

theorem literalItem_of_isControl {c : Char} (hcontrol : isControl c = false) (hquote : c ≠ '\'')
    (rest : List Char) : literalItem (c :: rest) = some ([c], rest) := by
  by_cases hline : c = '\n'
  · subst hline
    rfl
  · have hreturn : c ≠ '\r' := by
      rintro rfl
      exact absurd hcontrol (by decide)
    have hplain : isPlain c = true := isPlain_of_isControl hcontrol hline
    simp [literalItem, newline_of_ne hline hreturn, fewQuotes, hquote, single, literalChar, hplain]

theorem le_longestRun (q : Char) (n : Nat) (cs : List Char) : n ≤ longestRun q n cs := by
  induction cs generalizing n with
  | nil => exact Nat.le_refl n
  | cons c cs ih =>
    unfold longestRun
    split
    · exact Nat.le_of_succ_le (ih (n + 1))
    · exact Nat.le_max_left _ _

/-- A text is the body of a literal string if it has no controls and no long runs of quotes. -/
theorem body_of_longestRun {n : Nat} {cs : List Char} (hcontrol : ∀ c ∈ cs, isControl c = false)
    (hrun : longestRun '\'' n cs ≤ 2) : Body '\'' literalItem n cs cs := by
  induction cs generalizing n with
  | nil => exact .nil
  | cons c cs ih =>
    obtain ⟨hc, hcs⟩ := List.forall_mem_cons.1 hcontrol
    unfold longestRun at hrun
    split at hrun
    · next hquote =>
      subst hquote
      have hn : n + 1 ≤ 2 := Nat.le_trans (le_longestRun _ _ _) hrun
      exact .quote hn (ih hcs hrun)
    · next hquote =>
      have hrest : longestRun '\'' 0 cs ≤ 2 := Nat.le_trans (Nat.le_max_right _ _) hrun
      exact .char_self hquote (literalItem_of_isControl hc hquote) (ih hcs hrest)

/-! ## The form that is chosen -/

theorem notMem_of_longestRun {q : Char} {n : Nat} {cs : List Char} (h : longestRun q n cs = 0) :
    q ∉ cs := by
  induction cs generalizing n with
  | nil => simp
  | cons c cs ih =>
    unfold longestRun at h
    split at h
    · have hle : n + 1 ≤ longestRun q (n + 1) cs := le_longestRun q (n + 1) cs
      omega
    · next hc =>
      have hrest : longestRun q 0 cs = 0 := by omega
      simp [ih hrest, Ne.symm hc]

theorem of_form_literal {cs : List Char} (h : form cs = .literal) :
    (∀ c ∈ cs, isControl c = false) ∧ '\'' ∉ cs ∧ '\n' ∉ cs ∧ cs ≠ [] := by
  have hne : cs ≠ [] := by
    rintro rfl
    exact absurd h (by decide)
  unfold form at h
  dsimp only at h
  split_ifs at h with hcontrol _ _ hquote
  have hfree : longestRun '\'' 0 cs = 0 ∧ '\n' ∉ cs := by simpa using hquote
  exact ⟨by simpa using hcontrol, notMem_of_longestRun hfree.1, hfree.2, hne⟩

theorem of_form_multiLiteral {cs : List Char} (h : form cs = .multiLiteral) :
    (∀ c ∈ cs, isControl c = false) ∧ longestRun '\'' 0 cs ≤ 2 := by
  unfold form at h
  dsimp only at h
  split_ifs at h with hcontrol _ _ _ _ hrun
  exact ⟨by simpa using hcontrol, hrun⟩

/-! ## Strings of every form -/

theorem string_oneLine_basic {body : List Char} (h : ¬ ['"', '"'] <+: body) :
    string ('"' :: body) = oneLine '"' basicChar body := by
  unfold string
  split <;> simp_all

theorem string_oneLine_literal {body : List Char} (h : ¬ ['\'', '\''] <+: body) :
    string ('\'' :: body) = oneLine '\'' literalChar body := by
  unfold string
  split <;> simp_all

theorem string_basic (cs : List Char) {rest : List Char} (hrest : rest.head? ≠ some '"') :
    string (writeAs .basic cs ++ rest) = some (String.ofList cs, rest) := by
  have hone : ¬ ['"', '"'] <+: cs.flatMap lineShown ++ '"' :: rest := by
    cases cs with
    | nil =>
      rintro ⟨more, hmore⟩
      exact hrest (by simpa using congrArg List.head? (List.cons.inj hmore).2.symm)
    | cons c cs =>
      rw [List.flatMap_cons, List.append_assoc]
      exact not_prefix_append (lineShown_ne_nil c) (head?_lineShown c) _ _
  have hwrite : writeAs .basic cs ++ rest = '"' :: (cs.flatMap lineShown ++ '"' :: rest) := by
    simp [writeAs]
  rw [hwrite, string_oneLine_basic hone, oneLine_basic]

theorem string_literal {cs : List Char} (h : form cs = .literal) (rest : List Char) :
    string (writeAs .literal cs ++ rest) = some (String.ofList cs, rest) := by
  obtain ⟨hcontrol, hquote, hline, hne⟩ := of_form_literal h
  have hone : ¬ ['\'', '\''] <+: cs ++ '\'' :: rest := by
    refine not_prefix_append hne (fun hhead ↦ hquote ?_) _ _
    exact List.mem_of_head? hhead
  have hplain : ∀ c ∈ cs, isPlain c = true := by
    intro c hc
    refine isPlain_of_isControl (hcontrol c hc) ?_
    rintro rfl
    exact hline hc
  have hwrite : writeAs .literal cs ++ rest = '\'' :: (cs ++ '\'' :: rest) := by simp [writeAs]
  rw [hwrite, string_oneLine_literal hone, oneLine_literal hplain hquote]

/-- A line end behind the opening quotes is dropped, and without one there is none to drop. -/
theorem newline_opening {cs text : List Char} (h : '\n' ∉ cs → newline text = none) :
    ((newline (opening cs ++ text)).map Prod.snd).getD (opening cs ++ text) = text := by
  by_cases hline : '\n' ∈ cs
  · simp [opening, hline, newline]
  · simp [opening, hline, h hline]

theorem string_multiBasic (cs : List Char) {rest : List Char} (hrest : rest.head? ≠ some '"') :
    string (writeAs .multiBasic cs ++ rest) = some (String.ofList cs, rest) := by
  have hstart : '\n' ∉ cs → newline (multiShown 0 cs ++ '"' :: '"' :: '"' :: rest) = none := by
    intro hline
    cases cs with
    | nil => rfl
    | cons c cs =>
      have hc : c ≠ '\n' := by
        rintro rfl
        exact hline List.mem_cons_self
      by_cases hquote : c = '"'
      · simp [multiShown, hquote, newline]
      · simp [multiShown, hquote, hc, newline_basicShown hc]
  have hwrite : writeAs .multiBasic cs ++ rest =
      '"' :: '"' :: '"' :: (opening cs ++ (multiShown 0 cs ++ '"' :: '"' :: '"' :: rest)) := by
    simp [writeAs]
  rw [hwrite]
  exact multiLine_of_body (body_multiShown (by decide) cs) basicItem_quote (newline_opening hstart)
    hrest

theorem string_multiLiteral {cs : List Char} (h : form cs = .multiLiteral) {rest : List Char}
    (hrest : rest.head? ≠ some '\'') :
    string (writeAs .multiLiteral cs ++ rest) = some (String.ofList cs, rest) := by
  obtain ⟨hcontrol, hrun⟩ := of_form_multiLiteral h
  have hstart : '\n' ∉ cs → newline (cs ++ '\'' :: '\'' :: '\'' :: rest) = none := by
    intro hline
    cases cs with
    | nil => rfl
    | cons c cs =>
      refine newline_of_ne ?_ ?_ _
      · rintro rfl
        exact hline List.mem_cons_self
      · rintro rfl
        exact absurd (hcontrol _ List.mem_cons_self) (by decide)
  have hwrite : writeAs .multiLiteral cs ++ rest =
      '\'' :: '\'' :: '\'' :: (opening cs ++ (cs ++ '\'' :: '\'' :: '\'' :: rest)) := by
    simp [writeAs]
  rw [hwrite]
  exact multiLine_of_body (body_of_longestRun hcontrol hrun) literalItem_quote
    (newline_opening hstart) hrest

/-- A text that is written as a string is read back, if no more quotes follow. -/
theorem string_writeString (text : String) {rest : List Char} (hdouble : rest.head? ≠ some '"')
    (hsingle : rest.head? ≠ some '\'') :
    string ((writeString text).toList ++ rest) = some (text, rest) := by
  rw [writeString, String.toList_ofList]
  have hread : string (writeAs (form text.toList) text.toList ++ rest) =
      some (String.ofList text.toList, rest) := by
    cases h : form text.toList with
    | basic => exact string_basic _ hdouble
    | literal => exact string_literal h _
    | multiBasic => exact string_multiBasic _ hdouble
    | multiLiteral => exact string_multiLiteral h hsingle
  rw [hread, String.ofList_toList]

end SearchWords.Toml
