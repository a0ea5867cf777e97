import PropertyGraph.Number.Binary64

/-!
# Shortest decimal text

A number is written with the fewest decimal digits that read back as the same number, and with the
nearest of those. The reals that read back as `x` form an interval around it, ends included when the
significand is even. For each digit count in turn the two neighbours of `x` on the decimal grid are
tried: if a grid has any point in the interval, one of the neighbours is in it.
-/

namespace PropertyGraph

/-- A positive decimal `digits * 10 ^ exponent`. -/
structure Decimal where
  digits : Nat
  exponent : Int
deriving DecidableEq, Repr, Inhabited

namespace Decimal

/-- Drops trailing zeros of the digits. -/
def trim : Nat → Decimal → Decimal
  | 0, d => d
  | fuel + 1, d =>
    if d.digits % 10 == 0 && d.digits != 0 then trim fuel ⟨d.digits / 10, d.exponent + 1⟩ else d

end Decimal

namespace Binary64

/-- The interval of reals that read back as a number, over a common denominator. The centre is the
number itself. -/
structure Neighbourhood where
  low : Nat
  centre : Nat
  high : Nat
  den : Nat
  closed : Bool

/-- Below a power of two the numbers lie twice as dense, so the interval is narrower on that side. -/
def neighbourhood (x : Binary64) : Neighbourhood :=
  let step := Nat.pow 2 x.scale
  let below := if x.significand == fractionSpan && 1 < x.exponentField then 1 else 2
  let centre := 4 * x.absUnits
  { low := centre - below * step
    centre
    high := centre + 2 * step
    den := 4 * unitsPerOne
    closed := x.significand % 2 == 0 }

/-- Whether `num / scaleDen`, brought to the neighbourhood's denominator, lies in the interval. -/
def Neighbourhood.contains (n : Neighbourhood) (num scaleDen : Nat) : Bool :=
  let low := n.low * scaleDen
  let high := n.high * scaleDen
  if n.closed then low ≤ num && num ≤ high else low < num && num < high

/-- The exponent of the leading decimal digit of `num / den`, searched upwards for a value of at
least one and downwards otherwise. -/
def leadingExponent (num den : Nat) : Int :=
  if den ≤ num then ((toString (num / den)).length : Int) - 1
  else
    let gap := (toString (den / num)).length
    if den ≤ num * Nat.pow 10 (gap - 1) then 1 - (gap : Int) else -(gap : Int)

/-- The nearest point of the decimal grid `10 ^ exponent` in the interval, if there is one. -/
def Neighbourhood.onGrid (n : Neighbourhood) (exponent : Int) : Option Decimal :=
  let up := Nat.pow 10 exponent.toNat
  let down := Nat.pow 10 (-exponent).toNat
  -- a grid point `k` stands for `k * up / down`
  let scaled := n.centre * down
  let unit := n.den * up
  let lower := scaled / unit
  let fits (k : Nat) : Bool := k != 0 && n.contains (k * unit) down
  let remainder := scaled % unit
  let preferUpper := 2 * remainder > unit || (2 * remainder == unit && lower % 2 == 1)
  match fits lower, fits (lower + 1) with
  | true, true => some ⟨if preferUpper then lower + 1 else lower, exponent⟩
  | true, false => some ⟨lower, exponent⟩
  | false, true => some ⟨lower + 1, exponent⟩
  | false, false => none

/-- Tries grids of growing fineness. Seventeen digits always suffice. -/
def Neighbourhood.search (n : Neighbourhood) : Nat → Int → Option Decimal
  | 0, _ => none
  | fuel + 1, exponent => (n.onGrid exponent).or (n.search fuel (exponent - 1))

/-- The shortest decimal that reads back as the absolute value of a number other than zero. -/
def shortest (x : Binary64) : Decimal :=
  let n := x.neighbourhood
  let found := n.search 18 (leadingExponent n.centre n.den)
  (found.getD ⟨0, 0⟩).trim 20

/-- The text of a number: positional when the leading digit's exponent lies from -5 to 15, with at
least one digit on either side of the point, and otherwise with a signed exponent and no more than
one digit before the point. -/
def toText (x : Binary64) : String :=
  let sign := if x.negative then "-" else ""
  if x.isZero then sign ++ "0.0"
  else
    let d := x.shortest
    let digits := toString d.digits
    let leading := d.exponent + digits.length - 1
    let body :=
      if 0 ≤ d.exponent && leading ≤ 15 then
        digits ++ String.ofList (List.replicate d.exponent.toNat '0') ++ ".0"
      else if 0 ≤ leading && leading ≤ 15 then
        let whole := (leading + 1).toNat
        (digits.take whole).toString ++ "." ++ (digits.drop whole).toString
      else if -5 ≤ leading && leading < 0 then
        "0." ++ String.ofList (List.replicate (-leading - 1).toNat '0') ++ digits
      else
        let mantissa :=
          if digits.length == 1 then digits
          else (digits.take 1).toString ++ "." ++ (digits.drop 1).toString
        mantissa ++ "e" ++ (if leading < 0 then "-" else "+") ++ toString leading.natAbs
    sign ++ body

end Binary64

end PropertyGraph
