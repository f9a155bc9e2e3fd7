import SearchWords.Toml.Number
import SearchWords.Toml.Reader

/-! # Dates and times

A date, a time of day, or both, and with both of them an offset from universal time. -/

namespace SearchWords.Toml

/-- A day of the calendar. -/
structure Date where
  year : Nat
  month : Nat
  day : Nat
deriving DecidableEq, Repr

/-- A time of day. The fraction of its second is kept as it is written. -/
structure Time where
  hour : Nat
  minute : Nat
  second : Nat
  fraction : List Char
deriving DecidableEq, Repr

/-- The minutes by which a clock is ahead of universal time. -/
abbrev Offset := Int

inductive DateTime where
  | date (d : Date)
  | time (t : Time)
  | both (d : Date) (t : Time) (offset : Option Offset)
deriving DecidableEq, Repr

namespace Date

def isLeapYear (year : Nat) : Bool :=
  year % 4 = 0 && (year % 100 ≠ 0 || year % 400 = 0)

def daysIn (year month : Nat) : Nat :=
  if month = 2 then if isLeapYear year then 29 else 28
  else if month = 4 || month = 6 || month = 9 || month = 11 then 30
  else 31

def isValid (d : Date) : Bool :=
  1 ≤ d.month && d.month ≤ 12 && 1 ≤ d.day && d.day ≤ daysIn d.year d.month

end Date

/-- A minute may have a leap second at its end. -/
def Time.isValid (t : Time) : Bool :=
  t.hour ≤ 23 && t.minute ≤ 59 && t.second ≤ 60

/-! ## Reading -/

/-- A number that is written with exactly `width` digits. -/
def field (width : Nat) : Reader Nat := fun cs =>
  let digits := cs.takeWhile Char.isDigit
  if digits.length = width then some (number 10 digits, cs.dropWhile Char.isDigit) else none

/-- A number of two digits after a separator. -/
def nextField (separator : Char) : Reader Nat
  | c :: cs => if c = separator then field 2 cs else none
  | [] => none

def date : Reader Date := fun cs => do
  let (year, cs) ← field 4 cs
  let (month, cs) ← nextField '-' cs
  let (day, cs) ← nextField '-' cs
  guard (Date.isValid ⟨year, month, day⟩)
  return (⟨year, month, day⟩, cs)

/-- The digits of a fraction of a second, none if there is no point. -/
def secondFraction : Reader (List Char)
  | '.' :: cs =>
    let digits := cs.takeWhile Char.isDigit
    if digits.isEmpty then none else some (digits, cs.dropWhile Char.isDigit)
  | cs => some ([], cs)

def time : Reader Time := fun cs => do
  let (hour, cs) ← field 2 cs
  let (minute, cs) ← nextField ':' cs
  let (second, cs) ← nextField ':' cs
  let (fraction, cs) ← secondFraction cs
  guard (Time.isValid ⟨hour, minute, second, fraction⟩)
  return (⟨hour, minute, second, fraction⟩, cs)

/-- An offset that takes up the whole text, or none if there is no text. -/
def offset? : List Char → Option (Option Offset)
  | [] => some none
  | ['Z'] | ['z'] => some (some 0)
  | c :: cs => do
    guard (c = '+' || c = '-')
    let (hours, cs) ← field 2 cs
    let (minutes, cs) ← nextField ':' cs
    guard (cs = [] && hours ≤ 23 && minutes ≤ 59)
    let total : Int := 60 * hours + minutes
    return some (if c = '-' then -total else total)

/-- Between a date and a time stands a letter or one space. -/
def isDateEnd (c : Char) : Bool :=
  c = 'T' || c = 't' || c = ' '

/-- The date or time that a whole text stands for. -/
def dateTime? (cs : List Char) : Option DateTime :=
  match date cs with
  | some (d, []) => some (.date d)
  | some (d, c :: cs) => do
    guard (isDateEnd c)
    let (t, cs) ← time cs
    return .both d t (← offset? cs)
  | none =>
    match time cs with
    | some (t, []) => some (.time t)
    | _ => none

end SearchWords.Toml
