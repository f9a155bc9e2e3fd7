import SearchWords.Proofs.Toml.Document
import SearchWords.Settings.File

/-!
# Settings read back

The text of settings gives them back, whatever their template holds. Settings that cannot be used
are written as well, and refused for their own flaw when they are read.
-/

namespace SearchWords.Settings

open Toml (Entry)

/-! ## The text of settings -/

/-- The lines of the table of settings. -/
def entries (s : Settings) : List Entry :=
  [.ofText "template" (by decide) s.template,
    .ofText "value" (by decide) s.value.name,
    .ofText "ibl" (by decide) s.ibl.name,
    .ofNat "max_rounds" (by decide) s.maxRounds.toNat]

theorem toToml_eq (s : Settings) :
    s.toToml = String.ofList (Toml.tableLines "builder" s.entries) := by
  -- The names of forms are plain, so that the form of a string that is chosen for them is basic.
  have hvalue : Toml.writeString s.value.name = "\"" ++ s.value.name ++ "\"" := by
    cases s.value <;> decide
  have hibl : Toml.writeString s.ibl.name = "\"" ++ s.ibl.name ++ "\"" := by
    cases s.ibl <;> decide
  -- First all texts are made lists of characters, which the automation would go back on.
  apply String.toList_inj.1
  rw [String.toList_ofList]
  unfold toToml Toml.tableLines
  simp only [String.toList_append, List.append_assoc]
  simp only [entries, List.flatMap_cons, Entry.toLine, Entry.ofText, Entry.ofNat, hvalue, hibl]
  simp

/-! ## What the text gives -/

namespace Schema

theorem rounds_toNat (n : UInt64) : rounds (.integer n.toNat) = .ok n := by
  have hfits : fitsUnsigned 64 n.toNat = true := by
    have hlt : n.toNat < 2 ^ 64 := n.toNat_lt
    simp [fitsUnsigned]
    omega
  simp [rounds, hfits]

theorem setField_template (g : Given) (template : String) :
    setField g "template" (.string template) = .ok { g with template := some template } :=
  rfl

theorem setField_value (g : Given) (value : ValueForm) :
    setField g "value" (.string value.name) = .ok { g with value := some value } := by
  cases value <;> rfl

theorem setField_ibl (g : Given) (ibl : IblForm) :
    setField g "ibl" (.string ibl.name) = .ok { g with ibl := some ibl } := by
  cases ibl <;> rfl

theorem setField_maxRounds (g : Given) (maxRounds : UInt64) :
    setField g "max_rounds" (.integer maxRounds.toNat) =
      .ok { g with maxRounds := some maxRounds } := by
  have hset : setField g "max_rounds" (.integer maxRounds.toNat) =
      (rounds (.integer maxRounds.toNat)).map fun n ↦ { g with maxRounds := some n } := rfl
  rw [hset, rounds_toNat]
  rfl

end Schema

/-- The settings with nothing left out. -/
def toGiven (s : Settings) : Given where
  template := some s.template
  value := some s.value
  ibl := some s.ibl
  maxRounds := some s.maxRounds

theorem given_entries (s : Settings) :
    Schema.given (.table .header (s.entries.map fun e ↦ (e.key, e.value))) = .ok s.toGiven := by
  simp only [Schema.given, entries, List.map_cons, List.map_nil, Entry.ofText, Entry.ofNat,
    List.foldlM_cons, List.foldlM_nil, Schema.setField_template, Schema.setField_value,
    Schema.setField_ibl, Schema.setField_maxRounds]
  rfl

theorem given_toToml (s : Settings) : Given.ofToml s.toToml = .ok (some s.toGiven) := by
  have hkeys : (s.entries.map Entry.key).Nodup := by
    simp [entries, Entry.ofText, Entry.ofNat]
  rw [Given.ofToml, toToml_eq, Toml.parse_tableLines (by decide) hkeys]
  simp only [Schema.document, List.foldlM_cons, List.foldlM_nil, given_entries]
  rfl

/-! ## Usable and flawed settings -/

/-- Settings are written in full, so that nothing but their own flaw can get in the way. -/
theorem ofToml_eq (s : Settings) :
    ofToml s.toToml =
      match s.flaw? with
      | none => .ok s
      | some flaw => .error (.flawed inlinePath flaw) := by
  have hread : readGiven inlinePath s.toToml = .ok (some s.toGiven) := by
    rw [readGiven, given_toToml]
    rfl
  have hfill : s.toGiven.withDefaults = s := rfl
  rw [ofToml, hread]
  change (ofGiven s.toGiven).mapError (FileError.flawed inlinePath) = _
  rw [ofGiven, hfill]
  cases s.flaw? <;> rfl

theorem isBlank_eq_false_iff {text : String} :
    Text.isBlank text = false ↔ ∃ c ∈ text.toList, Text.isWhiteSpace c = false := by
  simp [Text.isBlank]

/-- The text of settings gives them back if they can be used, whatever characters their template
holds. Otherwise it is refused for a blank template in the first place, and then for the lack of
rounds. -/
theorem ofToml_toToml (s : Settings) :
    ((∃ c ∈ s.template.toList, Text.isWhiteSpace c = false) → 0 < s.maxRounds →
      ofToml s.toToml = .ok s) ∧
    ((∀ c ∈ s.template.toList, Text.isWhiteSpace c = true) →
      ofToml s.toToml = .error (.flawed inlinePath .missingTemplate)) ∧
    ((∃ c ∈ s.template.toList, Text.isWhiteSpace c = false) → s.maxRounds = 0 →
      ofToml s.toToml = .error (.flawed inlinePath .zeroRounds)) := by
  rw [ofToml_eq]
  refine ⟨fun htemplate hrounds ↦ ?_, fun htemplate ↦ ?_, fun htemplate hrounds ↦ ?_⟩
  · have hblank : Text.isBlank s.template = false := isBlank_eq_false_iff.2 htemplate
    have hzero : s.maxRounds ≠ 0 := (UInt64.ne_of_lt hrounds).symm
    simp [flaw?, hblank, hzero]
  · have hblank : Text.isBlank s.template = true := List.all_eq_true.2 htemplate
    simp [flaw?, hblank]
  · have hblank : Text.isBlank s.template = false := isBlank_eq_false_iff.2 htemplate
    simp [flaw?, hblank, hrounds]

/-- A template with quotes of both kinds, a backslash, controls and line ends, and a template of
line ends alone. -/
theorem ofToml_toToml_unruly_template :
    let s : Settings := {
      template := "\n\r\n'''c\\ = \"\"\"\"?\x00\t"
      value := .like
      ibl := .verbatim
      maxRounds := 0xFFFFFFFFFFFFFFFF }
    ofToml s.toToml = .ok s ∧
      ofToml { s with maxRounds := 0 }.toToml = .error (.flawed inlinePath .zeroRounds) ∧
      ofToml { s with template := "\r\n", maxRounds := 0 }.toToml =
        .error (.flawed inlinePath .missingTemplate) := by
  intro s
  have hmark : ∃ c ∈ s.template.toList, Text.isWhiteSpace c = false :=
    ⟨'?', by decide +kernel, by decide⟩
  refine ⟨(ofToml_toToml s).1 hmark (by decide), ?_, ?_⟩
  · exact (ofToml_toToml { s with maxRounds := 0 }).2.2 hmark rfl
  · exact (ofToml_toToml { s with template := "\r\n", maxRounds := 0 }).2.1
      (List.all_eq_true.1 (by decide))

end SearchWords.Settings
