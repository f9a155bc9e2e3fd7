import SearchWords.Toml.DateTime

/-! # Values and tables -/

namespace SearchWords.Toml

/-- How a table came to be, which decides what may still be added to it: under a header of its own,
on the way to another table, by a dotted key, or in braces. -/
inductive Origin where
  | header
  | implied
  | dotted
  | inline
deriving DecidableEq, Repr

/-- A value. An array of tables under headers is open to more of them. A radix mark without a digit
after it has the form of an integer but stands for none, and neither does a text with underscores
that goes on with other things than digits. -/
inductive Value where
  | string (text : String)
  | integer (n : Int)
  | noInteger
  | real (x : Real)
  | boolean (b : Bool)
  | dateTime (d : DateTime)
  | array (isOpen : Bool) (items : List Value)
  | table (origin : Origin) (entries : List (String × Value))

/-- A table with its entries in the order in which they were added. -/
structure Table where
  origin : Origin
  entries : List (String × Value)

namespace Table

def toValue (t : Table) : Value :=
  .table t.origin t.entries

def get? (t : Table) (key : String) : Option Value :=
  t.entries.lookup key

/-- Set a key, at the place where it stands if it is there already. -/
def put (t : Table) (key : String) (v : Value) : Table :=
  { t with
    entries :=
      if (t.entries.lookup key).isSome then
        t.entries.map fun e => if e.1 = key then (key, v) else e
      else t.entries ++ [(key, v)] }

/-- Whether a path may lead on through a table. Dotted keys only extend tables that have no header
of their own, and a table in braces is complete. -/
def mayEnter (made : Origin) : Origin → Bool
  | .inline => false
  | .header => made ≠ .dotted
  | .implied | .dotted => true

/-- Change the table at the end of a path. Tables on the way that are missing are made, and an
array of tables stands for its last one. -/
def modify (made : Origin) (f : Table → Option Table) : List String → Table → Option Table
  | [], t => f t
  | key :: path, t =>
    match t.get? key with
    | none => do
      let child ← modify made f path ⟨made, []⟩
      return t.put key child.toValue
    | some (.table origin entries) => do
      guard (mayEnter made origin)
      let child ← modify made f path ⟨origin, entries⟩
      return t.put key child.toValue
    | some (.array true items) =>
      match items.getLast? with
      | some (.table origin entries) => do
        let child ← modify made f path ⟨origin, entries⟩
        return t.put key (.array true (items.dropLast ++ [child.toValue]))
      | _ => none
    | some _ => none

/-- Add a value under a dotted key. The tables on its way and only those are made by dotted keys. -/
def insert (t : Table) (path : List String) (v : Value) : Option Table := do
  let key ← path.getLast?
  let parents := path.dropLast
  modify .dotted
    (fun table => do
      guard (table.origin = .dotted ↔ parents ≠ [])
      guard (table.get? key).isNone
      return table.put key v)
    parents t

/-- Open the table of a header. It must be new, or only implied by headers before. -/
def openTable (t : Table) (path : List String) : Option Table := do
  let key ← path.getLast?
  modify .implied
    (fun table =>
      match table.get? key with
      | none => some (table.put key (.table .header []))
      | some (.table .implied entries) => some (table.put key (.table .header entries))
      | some _ => none)
    path.dropLast t

/-- Add a table to the array of a header. -/
def openElement (t : Table) (path : List String) : Option Table := do
  let key ← path.getLast?
  modify .implied
    (fun table =>
      match table.get? key with
      | none => some (table.put key (.array true [.table .header []]))
      | some (.array true items) =>
        some (table.put key (.array true (items ++ [.table .header []])))
      | some _ => none)
    path.dropLast t

end Table

end SearchWords.Toml
