import SearchWords.Settings.Warning

/-! # Events

What is logged while a compiler is set up and a search line is compiled. -/

namespace SearchWords

inductive Event where
  | questionable (warning : Settings.Warning)
  | moved (move : Automaton.Move)
  | failed (query : String) (failure : Failure)
  | built (query : String) (words : Nat) (complement : Bool)
deriving DecidableEq, Repr

namespace Event

inductive Level where
  | warn
  | debug
  | trace
deriving DecidableEq, Repr

def Level.name : Level → String
  | .warn => "WARN"
  | .debug => "DEBUG"
  | .trace => "TRACE"

def level : Event → Level
  | .questionable _ => .warn
  | .moved _ => .trace
  | .failed .. | .built .. => .debug

def message : Event → String
  | .questionable _ => "questionable builder configuration"
  | .moved (.shift ..) => "shift"
  | .moved (.reduce ..) => "reduce"
  | .failed .. => "failed to parse search words"
  | .built .. => "built search expression"

/-- The value of a field of an event. -/
inductive Field where
  | text (s : String)
  | number (n : Nat)
  | flag (b : Bool)
deriving DecidableEq, Repr

def fields : Event → List (String × Field)
  | .questionable warning => [("warning", .text warning.message)]
  | .moved (.shift round kind) => [("round", .number round), ("token", .text kind.name)]
  | .moved (.reduce op height) => [("op", .text op.name), ("depth", .number height)]
  | .failed query failure => [("query", .text query), ("error", .text failure.description)]
  | .built query words complement =>
    [("query", .text query), ("words", .number words), ("complement", .flag complement)]

/-- The events of compiling a line. -/
def ofCompile {α : Type} (c : Compiler α) (line : String) : List Event :=
  let run := Automaton.run (Token.scan line) c.limit
  let last :=
    match run.result with
    | .ok tree => .built line (c.fragment tree).values.length tree.isComplement
    | .error failure => .failed line failure
  run.moves.map .moved ++ [last]

/-- The events of setting up a compiler and compiling one line. -/
def ofSearch (s : Settings) (line : String) : List Event :=
  s.warnings.map .questionable ++ ofCompile s.compiler line

end Event

end SearchWords
