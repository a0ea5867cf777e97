/-!
# Binary floating point numbers

A finite 64-bit floating point number is a sign and a magnitude of 63 bits: eleven bits of exponent
above fifty-two bits of fraction. Every such number is a whole multiple of `2 ^ (-1074)`, so `units`
gives its value as an integer and two numbers are compared by their units. Results of arithmetic are
rounded to the nearest number, ties to the even significand, in exact integer arithmetic.
-/

namespace PropertyGraph

/-- A finite 64-bit floating point number. Zero has two signs. -/
structure Binary64 where
  negative : Bool
  magnitude : Nat
deriving DecidableEq, Repr, Inhabited

namespace Binary64

/-- The weight of the exponent's lowest bit within the magnitude. -/
def fractionSpan : Nat := Nat.pow 2 52

/-- The least magnitude that stands for no finite number. -/
def overflowMagnitude : Nat := 2047 * fractionSpan

/-- The value of `2 ^ 0` counted in units of the smallest positive number. -/
def unitsPerOne : Nat := Nat.pow 2 1074

def exponentField (x : Binary64) : Nat := x.magnitude / fractionSpan

/-- Numbers in the lowest binade have no hidden leading bit. -/
def significand (x : Binary64) : Nat :=
  if x.exponentField = 0 then x.magnitude else x.magnitude % fractionSpan + fractionSpan

/-- The power of two by which the significand is scaled, relative to the unit. -/
def scale (x : Binary64) : Nat := x.exponentField - 1

/-- The absolute value in units of `2 ^ (-1074)`. -/
def absUnits (x : Binary64) : Nat := x.significand * Nat.pow 2 x.scale

/-- The value in units of `2 ^ (-1074)`. -/
def units (x : Binary64) : Int := if x.negative then -(x.absUnits : Int) else x.absUnits

def isZero (x : Binary64) : Bool := x.magnitude == 0

/-- Equality of values: the two zeros are equal. -/
def sameValue (x y : Binary64) : Bool := x.units == y.units

def compare (x y : Binary64) : Ordering := Ord.compare x.units y.units

/-- The quotient rounded to the nearest integer, halves to the even one. -/
def divNearest (num den : Nat) : Nat :=
  let quotient := num / den
  let remainder := num % den
  if 2 * remainder > den || (2 * remainder == den && quotient % 2 == 1) then quotient + 1
  else quotient

/-- The magnitude nearest to `num / den`. The significand keeps at most fifty-three bits; when
rounding carries into a fifty-fourth, the carry moves into the exponent by itself. -/
def nearestMagnitude (num den : Nat) : Nat :=
  let units := num * unitsPerOne
  let shift := (units / den).log2 - 52
  shift * fractionSpan + divNearest units (den * Nat.pow 2 shift)

/-- The number nearest to the ratio, unless it is too large for a finite one. -/
def ofRatio (negative : Bool) (num den : Nat) : Option Binary64 :=
  let magnitude := nearestMagnitude num den
  if magnitude < overflowMagnitude then some ⟨negative, magnitude⟩ else none

def ofNat (n : Nat) : Binary64 := ⟨false, nearestMagnitude n 1⟩

def ofInt (i : Int) : Binary64 := ⟨i < 0, nearestMagnitude i.natAbs 1⟩

/-- The rounded product of two numbers that are not negative. -/
def mul (x y : Binary64) : Option Binary64 :=
  ofRatio false (x.absUnits * y.absUnits) (unitsPerOne * unitsPerOne)

/-- The rounded quotient of two numbers that are not negative. -/
def div (x y : Binary64) : Option Binary64 := ofRatio false x.absUnits y.absUnits

/-- The greatest power of ten that is a finite number. -/
def maxPowerOfTen : Nat := 308

/-- Scales by a power of ten in rounded steps, none when the result is too large. Below the reach of
one step the number is scaled down by the greatest power first. -/
def scaleByTen : Nat → Binary64 → Int → Option Binary64
  | 0, x, _ => some x
  | fuel + 1, x, exponent =>
    if exponent.natAbs ≤ maxPowerOfTen then
      let power := ofNat (Nat.pow 10 exponent.natAbs)
      if 0 ≤ exponent then x.mul power else x.div power
    else if x.isZero then some x
    else if 0 ≤ exponent then none
    else (x.div (ofNat (Nat.pow 10 maxPowerOfTen))).bind fun y =>
      scaleByTen fuel y (exponent + maxPowerOfTen)

/-- The number written as `significand * 10 ^ exponent`. The significand is rounded first and the
scaled result again, which is exact for short decimals and may miss the nearest number for long
ones. Four steps reach zero from any 64-bit significand. -/
def ofDecimal (negative : Bool) (significand : Nat) (exponent : Int) : Option Binary64 :=
  (scaleByTen 4 (ofNat significand) exponent).map ({ · with negative })

end Binary64

end PropertyGraph
