/-! # Numbers as binary64 shows them

A decimal number is rounded to the nearest binary64 number, which is shown by the fewest digits
that round back to it. All arithmetic is exact. -/

namespace SearchWords.Toml

/-- A floating point number as it is written: `mantissa * 10 ^ exponent`, an infinity, or no
number. -/
inductive Real where
  | finite (negative : Bool) (mantissa : Nat) (exponent : Int)
  | infinity (negative : Bool)
  | nan
deriving DecidableEq, Repr

namespace Binary64

/-- A positive rational number. -/
structure Ratio where
  num : Nat
  den : Nat

namespace Ratio

/-- `num / den * base ^ power`. -/
def scale (r : Ratio) (base : Nat) (power : Int) : Ratio :=
  if 0 ≤ power then ⟨r.num * Nat.pow base power.toNat, r.den⟩
  else ⟨r.num, r.den * Nat.pow base (-power).toNat⟩

def floor (r : Ratio) : Nat :=
  r.num / r.den

/-- The nearest integer, the even one of two. -/
def round (r : Ratio) : Nat :=
  let q := r.num / r.den
  let twice := 2 * (r.num % r.den)
  if twice < r.den || (twice = r.den && q % 2 = 0) then q else q + 1

/-- The nearest integer, the greater one of two. -/
def roundUp (r : Ratio) : Nat :=
  (2 * r.num + r.den) / (2 * r.den)

def le (r s : Ratio) : Bool :=
  r.num * s.den ≤ s.num * r.den

end Ratio

/-- A binary64 number `mantissa * 2 ^ exponent`. -/
structure Magnitude where
  mantissa : Nat
  exponent : Int
deriving DecidableEq, Repr

/-- The smallest mantissa with all 53 bits. -/
def minMantissa : Nat := 0x10000000000000

/-- The smallest exponent of a binary64 number. -/
def minExponent : Int := -1074

/-- The binary64 number nearest to a positive ratio, of any size. -/
def nearest (r : Ratio) : Magnitude :=
  let guess : Int := (Nat.log2 r.num : Int) - Nat.log2 r.den - 52
  let exponent := if minMantissa ≤ (r.scale 2 (-guess)).floor then guess else guess - 1
  let exponent := max exponent minExponent
  let mantissa := (r.scale 2 (-exponent)).round
  if mantissa = 2 * minMantissa then ⟨minMantissa, exponent + 1⟩ else ⟨mantissa, exponent⟩

/-- A number of 2 ^ 1024 or more is out of range. -/
def inRange (m : Magnitude) : Bool :=
  m.exponent ≤ 971

namespace Magnitude

def toRatio (m : Magnitude) : Ratio :=
  Ratio.scale ⟨m.mantissa, 1⟩ 2 m.exponent

/-- Whether a ratio rounds to the number: it lies between the midpoints to the two neighbours, which
belong to the number with the even mantissa. -/
def covers (m : Magnitude) (r : Ratio) : Bool :=
  let below := if m.mantissa = minMantissa && minExponent < m.exponent then 1 else 2
  let low := Ratio.scale ⟨4 * m.mantissa - below, 4⟩ 2 m.exponent
  let high := Ratio.scale ⟨4 * m.mantissa + 2, 4⟩ 2 m.exponent
  if m.mantissa % 2 = 0 then low.le r && r.le high
  else !(r.le low) && !(high.le r)

end Magnitude

/-- The number of decimal digits in front of the point, negative if zeros follow the point. -/
def decimalPlace (r : Ratio) : Int :=
  ((Nat.toDigits 10 (r.scale 10 400).floor).length : Int) - 400

/-- The decimal number `digits * 10 ^ exponent` with the given number of digits that is nearest to
a number and rounds to it, if there is one. Of two that are equally near the greater is taken, and a
power of ten is shown as such. -/
def withDigits (m : Magnitude) (count : Nat) : Option (Nat × Int) :=
  let r := m.toRatio
  let exponent := decimalPlace r - count
  let scaled := r.scale 10 (-exponent)
  let down := scaled.floor
  let fits (n : Nat) := m.covers (Ratio.scale ⟨n, 1⟩ 10 exponent)
  let nearer := scaled.roundUp
  let farther := if nearer = down then down + 1 else down
  let decimal (n : Nat) := if n = Nat.pow 10 count then (1, exponent + count) else (n, exponent)
  if fits nearer then some (decimal nearer)
  else if fits farther then some (decimal farther)
  else none

/-- The shortest decimal number that rounds to a binary64 number; seventeen digits are enough. -/
def shortest (m : Magnitude) : Option (Nat × Int) :=
  (List.range 17).findSome? fun k => withDigits m (k + 1)

/-- A decimal number without an exponent, with at least one digit on both sides of the point. -/
def positional (digits : Nat) (exponent : Int) : List Char :=
  let text := Nat.toDigits 10 digits
  if 0 ≤ exponent then text ++ List.replicate exponent.toNat '0' ++ ['.', '0']
  else
    let places := (-exponent).toNat
    let text := List.replicate (places + 1 - text.length) '0' ++ text
    text.take (text.length - places) ++ '.' :: text.drop (text.length - places)

end Binary64

/-- The text of a floating point number; there is none for a finite number that is too large.
Decimal places far outside the range are settled without computing with them. -/
def Real.text? : Real → Option String
  | .nan => some "NaN"
  | .infinity negative => some (if negative then "-inf" else "inf")
  | .finite negative mantissa exponent =>
    let sign := if negative then "-" else ""
    let place := ((Nat.toDigits 10 mantissa).length : Int) + exponent
    if mantissa = 0 || place < -330 then some (sign ++ "0.0")
    else if 310 < place then none
    else
      let m := Binary64.nearest (Binary64.Ratio.scale ⟨mantissa, 1⟩ 10 exponent)
      if m.mantissa = 0 then some (sign ++ "0.0")
      else if !Binary64.inRange m then none
      else (Binary64.shortest m).map fun p => sign ++ String.ofList (Binary64.positional p.1 p.2)

end SearchWords.Toml
