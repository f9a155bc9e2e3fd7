import SearchWords.Settings
import SearchWords.Text.Alphabetic

/-! # Questionable settings -/

namespace SearchWords.Settings

/-- Something about settings that is allowed but hardly meant. -/
inductive Warning where
  | noPlaceholder (template : String)
  | fewRounds (maxRounds : UInt64)
deriving DecidableEq, Repr

def Warning.message : Warning → String
  | .noPlaceholder template => "template '" ++ template ++ "' has no parameter placeholder"
  | .fewRounds n => "max_rounds = " ++ toString n.toNat ++ " only allows a handful of search words"

/-- Whether a character and the one after it start a placeholder: `?`, `$1`, `:name` or `@name`. -/
def startsPlaceholder (c : Char) (next : Option Char) : Bool :=
  if c = '?' then true
  else if c = '$' then next.any Char.isDigit
  else if c = ':' || c = '@' then next.any fun n => Text.isAlphabetic n || n = '_'
  else false

def hasPlaceholder : List Char → Bool
  | [] => false
  | c :: cs => startsPlaceholder c cs.head? || hasPlaceholder cs

/-- The least number of rounds that ordinary searches get by with. -/
def practicalRounds : UInt64 := 20

def warnings (s : Settings) : List Warning :=
  (if hasPlaceholder s.template.toList then [] else [.noPlaceholder s.template]) ++
    (if s.maxRounds < practicalRounds then [.fewRounds s.maxRounds] else [])

end SearchWords.Settings
