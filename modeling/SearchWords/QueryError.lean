import SearchWords.Failure

/-! # Failures told against a search line -/

namespace SearchWords

/-- Whether the characters of `part` stand next to each other somewhere in a text. -/
def Text.occursIn (part : List Char) : List Char → Bool
  | [] => part.isEmpty
  | c :: cs => part.isPrefixOf (c :: cs) || occursIn part cs

theorem Text.occursIn_iff (part s : List Char) : occursIn part s = true ↔ part <:+: s := by
  induction s with
  | nil => simp [occursIn]
  | cons c cs ih => simp [occursIn, ih, List.infix_cons_iff]

/-- A failure with the line that caused it, places in it being byte offsets. -/
structure QueryError where
  failure : Failure
  query : Option String
deriving DecidableEq, Repr

namespace QueryError

/-- The message alone. -/
def message (e : QueryError) : String :=
  e.failure.message

/-- Advice on a fault, found by what its message speaks of. -/
def faultHint (message : String) : Option String :=
  let mentions (part : String) := Text.occursIn part.toList message.toList
  if mentions "parenthesis" then some "Check that every ( has a matching )"
  else if mentions "OR" then
    some "OR requires search words on both sides, e.g., 'mysql OR postgres'"
  else if mentions "'-'" then
    some "'-' must be followed by the word or group to exclude, e.g., '-draft'"
  else if mentions "wildcard" then some "Add at least one literal character next to '*'"
  else none

/-- Advice on what to change in the line. -/
def hint (e : QueryError) : Option String :=
  match e.failure with
  | .malformed fault _ => faultHint fault.message
  | .complexity _ => some "Use fewer search words or groups"
  | .tooDeep _ => some "Use fewer nested groups or '-' signs, or split the search into several"
  | .internal _ => none

def heading (e : QueryError) : String :=
  match e.failure with
  | .malformed .. => "search syntax error"
  | .complexity _ | .tooDeep _ => "search error"
  | .internal _ => "internal error"

/-- The number of characters of a text that start before a byte offset. -/
def column (offset : Nat) : List Char → Nat
  | [] => 0
  | c :: cs => if offset = 0 then 0 else column (offset - c.utf8Size) cs + 1

/-- A line that points at a byte offset of `query`, when there is one. -/
def caretLine (query : String) : Option Nat → String
  | none => ""
  | some offset =>
    "  " ++ String.ofList (List.replicate (column offset query.toList) ' ') ++ "^\n"

/-- The whole text of an error: heading and message, the line with a mark under the fault, and
advice. -/
def render (e : QueryError) : String :=
  let context :=
    match e.query with
    | none => ""
    | some query => "  " ++ query ++ "\n" ++ caretLine query e.failure.place?
  let advice :=
    match e.hint with
    | none => ""
    | some hint => "hint: " ++ hint
  e.heading ++ ": " ++ e.message ++ "\n" ++ context ++ advice

end QueryError

end SearchWords
