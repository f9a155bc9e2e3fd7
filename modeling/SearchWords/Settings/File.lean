import SearchWords.Settings.Schema
import SearchWords.Toml.Writer

/-! # Settings in files -/

namespace SearchWords.Settings

/-- Why a file cannot be read as text. -/
inductive ReadFault where
  | missing
  | notUtf8
deriving DecidableEq, Repr

def ReadFault.message : ReadFault → String
  | .missing => "No such file or directory (os error 2)"
  | .notUtf8 => "stream did not contain valid UTF-8"

/-- Why a file does not give settings. -/
inductive FileError where
  | unreadable (path : String) (fault : ReadFault)
  | refused (path : String) (refusal : Refusal)
  | flawed (path : String) (flaw : Flaw)

/-- The name of a setting with a flaw, and what is wrong with it. -/
def roundsKey : String := "builder.max_rounds"

def roundsReason : String := "must be greater than zero"

def Flaw.message (path : String) : Flaw → String
  | .missingTemplate => "config file " ++ path ++ " does not set builder.template"
  | .zeroRounds => "invalid value for " ++ roundsKey ++ " in " ++ path ++ ": " ++ roundsReason

def ReadFault.report (path : String) (fault : ReadFault) : String :=
  "failed to read config file " ++ path ++ ": " ++ fault.message

/-- The path that stands for a text that is in no file. -/
def inlinePath : String := "<inline>"

/-- The text of a file with the given bytes, if there is such a file. -/
def decode (path : String) (bytes : Option ByteArray) : Except FileError String :=
  match bytes with
  | none => .error (.unreadable path .missing)
  | some bytes =>
    match String.fromUTF8? bytes with
    | none => .error (.unreadable path .notUtf8)
    | some text => .ok text

/-- What the text of a file gives. -/
def readGiven (path toml : String) : Except FileError (Option Given) :=
  (Given.ofToml toml).mapError (.refused path)

/-- The settings of a file that gives some of them. -/
def complete (path : String) (given : Option Given) : Except FileError Settings :=
  (ofGiven (given.getD {})).mapError (.flawed path)

/-- The settings in a text. -/
def ofToml (toml : String) : Except FileError Settings := do
  complete inlinePath (← readGiven inlinePath toml)

/-- The settings in a file with the given bytes. -/
def load (path : String) (bytes : Option ByteArray) : Except FileError Settings := do
  complete path (← readGiven path (← decode path bytes))

/-- Settings as a text. -/
def toToml (s : Settings) : String :=
  "[builder]\n" ++
    "template = " ++ Toml.writeString s.template ++ "\n" ++
    "value = \"" ++ s.value.name ++ "\"\n" ++
    "ibl = \"" ++ s.ibl.name ++ "\"\n" ++
    "max_rounds = " ++ toString s.maxRounds.toNat ++ "\n"

/-- Whether the text of settings gives them back. -/
def readsBack (s : Settings) : Bool :=
  match ofToml s.toToml with
  | .ok t => t = s
  | .error _ => false

end SearchWords.Settings
