import SearchWords.Text.CharSet
import SearchWords.Compiler

/-! # Settings -/

namespace SearchWords

namespace Settings

/-- How the value bound to a word is made. -/
inductive ValueForm where
  | identity
  | like
deriving DecidableEq, Repr

namespace ValueForm

def all : List ValueForm := [.identity, .like]

def name : ValueForm → String
  | .identity => "identity"
  | .like => "like"

def apply : ValueForm → String → String
  | .identity => id
  | .like => Word.likePattern

end ValueForm

/-- How a word is put into a boolean-mode expression. -/
inductive IblForm where
  | strip
  | verbatim
deriving DecidableEq, Repr

namespace IblForm

def all : List IblForm := [.strip, .verbatim]

def name : IblForm → String
  | .strip => "strip"
  | .verbatim => "verbatim"

def apply : IblForm → String → String
  | .strip => Word.strip
  | .verbatim => id

end IblForm

end Settings

/-- The settings of a compiler. -/
structure Settings where
  /-- The SQL condition for one word. -/
  template : String := ""
  /-- What is bound to a word. -/
  value : Settings.ValueForm := .identity
  /-- What stands for a word in boolean mode. -/
  ibl : Settings.IblForm := .strip
  /-- The limit on the rounds of a parse. -/
  maxRounds : UInt64 := .ofNat Expr.defaultRounds
deriving DecidableEq, Repr

namespace Settings

/-- Settings as they are given, any of them possibly left out. -/
structure Given where
  template : Option String := none
  value : Option ValueForm := none
  ibl : Option IblForm := none
  maxRounds : Option UInt64 := none
deriving DecidableEq, Repr

/-- Fill in what is left out. -/
def Given.withDefaults (g : Given) : Settings :=
  let defaults : Settings := {}
  { template := g.template.getD defaults.template
    value := g.value.getD defaults.value
    ibl := g.ibl.getD defaults.ibl
    maxRounds := g.maxRounds.getD defaults.maxRounds }

/-- Why settings cannot be used. -/
inductive Flaw where
  | missingTemplate
  | zeroRounds
deriving DecidableEq, Repr

/-- What is wrong with settings: a template is required, and after it at least one round. -/
def flaw? (s : Settings) : Option Flaw :=
  if Text.isBlank s.template then some .missingTemplate
  else if s.maxRounds = 0 then some .zeroRounds
  else none

/-- The settings that are given, with defaults, if they can be used. -/
def ofGiven (g : Given) : Except Flaw Settings :=
  match g.withDefaults.flaw? with
  | none => .ok g.withDefaults
  | some flaw => .error flaw

/-- The compiler that settings describe. -/
def compiler (s : Settings) : Compiler String where
  condition := "(" ++ s.template ++ ")"
  value := s.value.apply
  ibl := s.ibl.apply
  limit := s.maxRounds.toNat

end Settings

end SearchWords
