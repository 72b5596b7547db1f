import CourseBlueprint.Json.Document

/-!
# The numbers of JSON values

An integer that 64 bits can hold, with a sign or without, is kept exactly; any other number is a
binary64, kept as its bits. A numeral beyond the range of binary64 is no number.

A binary64 is found from the first digits that fit 64 bits, scaled by one power of ten: the digits
are rounded, and so is the product or the quotient. For up to 15 digits and powers up to `10 ^ 22`
this is the nearest binary64.
-/

namespace CourseBlueprint.Json

/-- The integers that 64 bits can hold, with a sign or without. -/
def Fits (n : Int) : Prop := -9223372036854775808 ≤ n ∧ n < 18446744073709551616

instance (n : Int) : Decidable (Fits n) := inferInstanceAs (Decidable (_ ∧ _))

/-- A number of a JSON value. -/
inductive Number where
  | whole (n : Int) (fits : Fits n)
  | real (bits : UInt64)
deriving DecidableEq

namespace Number

/-- Whether the bits are those of a zero of either sign. -/
def isZero (bits : UInt64) : Bool := bits <<< 1 == 0

/-- Equality of numbers: integers by value, binary64 numbers as such, and never across. -/
def same : Number → Number → Bool
  | .whole m _, .whole n _ => m = n
  | .real a, .real b => a == b || (isZero a && isZero b)
  | _, _ => false

/-! ## From numerals -/

/-- The bound of what 64 bits hold. -/
def limit : Nat := 18446744073709551616

/-- Reads digits on while 64 bits hold the number; the second part counts those left over. -/
def takeWhole (acc : Nat) : List Digit → Nat × Nat
  | [] => (acc, 0)
  | d :: rest =>
    if 10 * acc + d.val < limit then takeWhole (10 * acc + d.val) rest else (acc, rest.length + 1)

/-- Reads digits on while 64 bits hold the number; the second part counts those read. -/
def takeFraction (acc : Nat) : List Digit → Nat × Nat
  | [] => (acc, 0)
  | d :: rest =>
    if 10 * acc + d.val < limit then
      let (n, count) := takeFraction (10 * acc + d.val) rest
      (n, count + 1)
    else (acc, 0)

/-- The number that digits write. -/
def digitsValue (ds : List Digit) : Nat := ds.foldl (fun acc d => 10 * acc + d.val) 0

/-- The binary64 nearest to a power of ten. -/
def tenTo (e : Nat) : Float := Float.ofScientific 1 false e

/-- Divides by `10 ^ 308` as often as given, or until nothing is left. -/
def shrink : Nat → Float → Float
  | 0, x => x
  | n + 1, x => if x == 0 then x else shrink n (x / tenTo 308)

/-- A number times a power of ten; none if that is beyond the range. -/
def scale (significand : Nat) (exponent : Int) : Option Float :=
  let x := (UInt64.ofNat significand).toFloat
  if 0 ≤ exponent then
    if exponent ≤ 308 then
      let y := x * tenTo exponent.toNat
      if y.isInf then none else some y
    else if significand = 0 then some 0 else none
  else
    let e := exponent.natAbs
    let times := (e - 1) / 308
    some (shrink times x / tenTo (e - 308 * times))

/-- The binary64 of a sign and a magnitude. -/
def realOf (negative : Bool) (x : Float) : Number :=
  .real (if negative then (-x).toBits else x.toBits)

/-- The greatest exponent that is read; a numeral with a greater one is zero or beyond the range. -/
def maxExponent : Nat := 2147483647

/-- The binary64 of a numeral; none if it is beyond the range. -/
def ofFloatNumeral (n : Numeral) : Option Number :=
  let (acc, dropped) := takeWhole 0 n.whole
  let (significand, places) := takeFraction acc n.fraction
  let exponent : Int := dropped - places
  match n.exponent with
  | none => (scale significand exponent).map (realOf n.negative)
  | some e =>
    let shift := digitsValue e.digits
    if maxExponent < shift then
      if significand ≠ 0 ∧ !e.negative then none else some (realOf n.negative 0)
    else
      (scale significand (if e.negative then exponent - shift else exponent + shift)).map
        (realOf n.negative)

/-- The number of a numeral; none if it is beyond the range. -/
def ofNumeral? (n : Numeral) : Option Number :=
  if n.fraction = [] ∧ n.exponent = none then
    let v : Nat := digitsValue n.whole
    if n.negative then
      if v = 0 then some (realOf true 0)
      else if h : Fits (-(v : Int)) then some (.whole (-(v : Int)) h)
      else ofFloatNumeral n
    else if h : Fits v then some (.whole v h)
    else ofFloatNumeral n
  else ofFloatNumeral n

end Number

end CourseBlueprint.Json
