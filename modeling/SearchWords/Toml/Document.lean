import SearchWords.Toml.Quoted
import SearchWords.Toml.Value

/-! # Reading documents -/

namespace SearchWords.Toml

/-- How deep arrays and tables may nest in one value, and how many keys may stand in a path. -/
def maxDepth : Nat := 80

/-! ## Keys -/

def isBareKeyChar (c : Char) : Bool :=
  c.isAlphanum || c = '_' || c = '-'

/-- A key without dots. -/
def key : Reader String
  | '"' :: cs => oneLine '"' basicChar cs
  | '\'' :: cs => oneLine '\'' literalChar cs
  | cs =>
    let name := cs.takeWhile isBareKeyChar
    if name.isEmpty then none else some (String.ofList name, cs.dropWhile isBareKeyChar)

def dotKey : Reader String := fun cs =>
  match skipBlanks cs with
  | '.' :: cs => key (skipBlanks cs)
  | _ => none

/-- Keys with dots between them. -/
def keyPath : Reader (List String) := fun cs => do
  let (first, rest) ← key cs
  let (others, rest) := many dotKey rest
  guard (others.length < maxDepth)
  return (first :: others, rest)

/-! ## Values -/

/-- A key path, an equals sign and a value. -/
def pair (value : Reader Value) : Reader (List String × Value) := fun cs => do
  let (path, rest) ← keyPath cs
  match skipBlanks rest with
  | '=' :: rest =>
    let (v, rest) ← value (skipBlanks rest)
    return ((path, v), rest)
  | _ => none

/-- Read something after a comma, both with the same blanks in front. -/
def afterComma {α : Type} (skip : List Char → List Char) (item : Reader α) : Reader α := fun cs =>
  match skip cs with
  | ',' :: cs => item (skip cs)
  | _ => none

/-- Items with commas between them, possibly none. -/
def commaList {α : Type} (skip : List Char → List Char) (item : Reader α) (cs : List Char) :
    List α × List Char :=
  match item (skip cs) with
  | none => ([], cs)
  | some (first, rest) =>
    let (others, rest) := many (afterComma skip item) rest
    (first :: others, rest)

/-- The rest of an array after its opening bracket. A comma may follow the last item. -/
def array (value : Reader Value) : Reader Value := fun cs =>
  let (items, rest) := commaList skipLines value cs
  let rest := skipLines rest
  let rest :=
    match items, rest with
    | _ :: _, ',' :: rest => skipLines rest
    | _, rest => rest
  match rest with
  | ']' :: rest => some (.array false items, rest)
  | _ => none

/-- The rest of a table in braces, which stands on one line. -/
def inlineTable (value : Reader Value) : Reader Value := fun cs =>
  let (pairs, rest) := commaList skipBlanks (pair value) cs
  match skipBlanks rest with
  | '}' :: rest => do
    let table ← pairs.foldlM (fun t p => Table.insert t p.1 p.2) ⟨.inline, []⟩
    return (table.toValue, rest)
  | _ => none

/-- A character that has a meaning of its own between values. -/
def isMark (c : Char) : Bool :=
  isBlank c || c = '=' || c = ',' || c = '[' || c = ']' || c = '{' || c = '}' || c = '#' ||
    c = '\r' || c = '\n'

/-- Characters up to a mark, at least one. -/
def word : Reader (List Char) := fun cs =>
  let chars := cs.takeWhile (!isMark ·)
  if chars.isEmpty then none else some (chars, cs.dropWhile (!isMark ·))

/-- A word and the blanks in front of it. A quote starts a string instead. -/
def nextWord : Reader (List Char) := fun cs =>
  match cs.dropWhile isBlank with
  | '"' :: _ | '\'' :: _ => none
  | rest => (word rest).map fun p => (cs.takeWhile isBlank ++ p.1, p.2)

/-- All words that only blanks divide, with these blanks. -/
def words : Reader (List Char) := fun cs => do
  let (first, rest) ← word cs
  let (others, rest) := many nextWord rest
  return (first ++ others.flatten, rest)

/-- The value that a text without quotes stands for. -/
def scalar? (cs : List Char) : Option Value :=
  if cs = ['t', 'r', 'u', 'e'] then some (.boolean true)
  else if cs = ['f', 'a', 'l', 's', 'e'] then some (.boolean false)
  else if isRadixMark cs then some .noInteger
  else
    (integer? cs).map .integer <|> (real? cs).map .real <|> (dateTime? cs).map .dateTime <|>
      if isGrouped cs then some .noInteger else none

def scalar : Reader Value := fun cs => do
  let (text, rest) ← words cs
  let v ← scalar? text
  return (v, rest)

/-- A value whose arrays and tables nest no deeper than `depth`. -/
def value (depth : Nat) : Reader Value := fun cs =>
  match depth, cs with
  | depth + 1, '[' :: cs => array (value depth) cs
  | depth + 1, '{' :: cs => inlineTable (value depth) cs
  | _, cs => ((string cs).map fun p => (.string p.1, p.2)) <|> scalar cs

/-! ## Statements -/

/-- What a line or a value that spans lines says. -/
inductive Statement where
  | table (path : List String)
  | element (path : List String)
  | pair (path : List String) (value : Value)

/-- A header after its opening brackets, up to the closing ones. -/
def header (brackets : List Char) : Reader (List String) := fun cs => do
  let (path, rest) ← keyPath (skipBlanks cs)
  let rest ← brackets.isPrefixOf? (skipBlanks rest)
  return (path, rest)

/-- A statement at the start of a line, if there is one. -/
def statement : Reader (Option Statement)
  | '[' :: '[' :: cs => (header [']', ']'] cs).map fun p => (some (.element p.1), p.2)
  | '[' :: cs => (header [']'] cs).map fun p => (some (.table p.1), p.2)
  | cs =>
    if (endLine cs).isSome then some (none, cs)
    else (pair (value maxDepth) cs).map fun p => (some (.pair p.1.1 p.1.2), p.2)

/-- A line and its end. There is none at the end of the text. -/
def line : Reader (Option Statement)
  | [] => none
  | cs => do
    let (s, rest) ← statement (skipBlanks cs)
    let rest ← endLine rest
    return (s, rest)

/-- The statements of a whole text. A byte order mark in front is skipped. -/
def statements (text : List Char) : Option (List Statement) :=
  let text := if text.head? = some '\uFEFF' then text.tail else text
  match many line text with
  | (lines, []) => some (lines.filterMap id)
  | _ => none

/-! ## Documents -/

/-- The table of a document while it is read, and the path of the table that pairs go to. -/
structure Draft where
  root : Table
  current : List String

namespace Draft

def empty : Draft where
  root := ⟨.header, []⟩
  current := []

def add (d : Draft) : Statement → Option Draft
  | .table path => (d.root.openTable path).map (⟨·, path⟩)
  | .element path => (d.root.openElement path).map (⟨·, path⟩)
  | .pair path v =>
    (Table.modify .implied (·.insert path v) d.current d.root).map (⟨·, d.current⟩)

end Draft

/-- The table that a document describes, if it is well-formed. -/
def parse (text : String) : Option Table := do
  let statements ← statements text.toList
  let draft ← statements.foldlM Draft.add .empty
  return draft.root

end SearchWords.Toml
