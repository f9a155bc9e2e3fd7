import SearchWords.Settings
import SearchWords.Text.Literal
import SearchWords.Toml.Document

/-! # Settings in TOML documents

A document has at most one entry, `builder`, which holds the settings by name in a table or by
position in an array. -/

namespace SearchWords.Settings

open Toml (Value)

/-- An integer of so many bits, one of them for its sign. -/
def fitsSigned (bits : Nat) (n : Int) : Bool :=
  -(Int.ofNat (1 <<< (bits - 1))) ≤ n && n < Int.ofNat (1 <<< (bits - 1))

/-- An integer of so many bits without a sign. -/
def fitsUnsigned (bits : Nat) (n : Int) : Bool :=
  0 ≤ n && n < Int.ofNat (1 <<< bits)

/-- Why a text does not give settings. -/
inductive Refusal where
  | notToml
  | unknownField (name : String) (known : List String)
  | unknownVariant (name : String) (known : List String)
  | wrongType (found : Value) (wanted : String)
  | negative (n : Int) (wanted : String)
  | notVariant

namespace Refusal

def backquoted (name : String) : String :=
  "`" ++ name ++ "`"

/-- A choice of names in words. -/
def oneOf : List String → String
  | [a] => backquoted a
  | [a, b] => backquoted a ++ " or " ++ backquoted b
  | names => "one of " ++ ", ".intercalate (names.map backquoted)

/-- An integer in words, with the width that holds it if that is above 64 bits. There are no words
for integers that need more than 128 bits. -/
def integerText (n : Int) : Option String :=
  let text := "integer " ++ backquoted (toString n)
  if fitsSigned 64 n || fitsUnsigned 64 n then some text
  else if fitsSigned 128 n then some (text ++ " as i128")
  else if fitsUnsigned 128 n then some (text ++ " as u128")
  else none

/-- A value in words. -/
def valueText : Value → Option String
  | .string s => some ("string " ++ Text.literal s)
  | .integer n => integerText n
  | .noInteger => none
  | .real x => x.text?.map fun text => "floating point " ++ backquoted text
  | .boolean b => some ("boolean " ++ backquoted (if b then "true" else "false"))
  | .array _ _ => some "sequence"
  | .table _ _ | .dateTime _ => some "map"

/-- The reason in words, where there are any. -/
def reason : Refusal → Option String
  | .notToml | .notVariant => none
  | .unknownField name known =>
    some ("unknown field " ++ backquoted name ++ ", expected " ++ oneOf known)
  | .unknownVariant name known =>
    some ("unknown variant " ++ backquoted name ++ ", expected " ++ oneOf known)
  | .wrongType found wanted =>
    (valueText found).map fun text => "invalid type: " ++ text ++ ", expected " ++ wanted
  | .negative n wanted =>
    some ("invalid value: integer " ++ backquoted (toString n) ++ ", expected " ++ wanted)

end Refusal

namespace Schema

def text : Value → Except Refusal String
  | .string s => .ok s
  | v => .error (.wrongType v "a string")

/-- An integer of 64 bits. -/
def rounds : Value → Except Refusal UInt64
  | .integer n =>
    if fitsUnsigned 64 n then .ok (UInt64.ofNat n.toNat)
    else if fitsSigned 64 n then .error (.negative n "usize")
    else .error (.wrongType (.integer n) "usize")
  | v => .error (.wrongType v "usize")

/-- The choice with a name. -/
def choose {α : Type} (name : α → String) (all : List α) (given : String) : Except Refusal α :=
  match all.find? (name · = given) with
  | some a => .ok a
  | none => .error (.unknownVariant given (all.map name))

/-- One of several choices, given by its name or by a table with the name as its only key and
nothing under it. -/
def variant {α : Type} (name : α → String) (all : List α) : Value → Except Refusal α
  | .string s => choose name all s
  | .table _ [(key, v)] => do
    let a ← choose name all key
    match v with
    | .array _ [] | .table _ [] => return a
    | _ => throw .notVariant
  | _ => .error .notVariant

/-- The names of the settings, in the order of an array. -/
def fieldNames : List String := ["template", "value", "ibl", "max_rounds"]

/-- Set a setting by name. -/
def setField (g : Given) (name : String) (v : Value) : Except Refusal Given :=
  if name = "template" then
    (text v).map fun template => { g with template := some template }
  else if name = "value" then
    (variant ValueForm.name ValueForm.all v).map fun value => { g with value := some value }
  else if name = "ibl" then
    (variant IblForm.name IblForm.all v).map fun ibl => { g with ibl := some ibl }
  else if name = "max_rounds" then
    (rounds v).map fun maxRounds => { g with maxRounds := some maxRounds }
  else .error (.unknownField name fieldNames)

/-- The only entry of the table that a date or time counts as. -/
def dateTimeField : String := "$__toml_private_datetime"

/-- The settings of a table, or of an array by position. -/
def given : Value → Except Refusal Given
  | .table _ entries => entries.foldlM (fun g e => setField g e.1 e.2) {}
  | .array _ items => (fieldNames.zip items).foldlM (fun g e => setField g e.1 e.2) {}
  | .dateTime _ => .error (.unknownField dateTimeField fieldNames)
  | v => .error (.wrongType v "struct RawBuilderSettings")

/-- The settings of a document, if it has any. -/
def document (entries : List (String × Value)) : Except Refusal (Option Given) :=
  entries.foldlM
    (fun _ e =>
      if e.1 = "builder" then (given e.2).map some
      else .error (.unknownField e.1 ["builder"]))
    none

end Schema

/-- Read the settings that a text gives. -/
def Given.ofToml (toml : String) : Except Refusal (Option Given) :=
  match Toml.parse toml with
  | none => .error .notToml
  | some table => Schema.document table.entries

end SearchWords.Settings
