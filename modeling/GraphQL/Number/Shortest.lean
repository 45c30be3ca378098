import GraphQL.Number.Binary

/-!
# Shortest decimal text of a binary number

`Double.shortest` gives the fewest decimal digits that read back as the number, and among those the
nearest to it. It looks at the two neighbours of the number on decimal grids of one, two and more
digits, and takes the first grid that has a neighbour within the interval of reals that round to the
number. `DecimalLayout` says how digits and exponent are written down.
-/

namespace GraphQL

/-- A positive decimal `digits * 10 ^ exponent`. -/
structure Decimal where
  digits : Nat
  exponent : Int
deriving DecidableEq, Repr

/-- `num / den` as numerator and denominator after a division by `10 ^ exponent`. -/
def scaleDown10 (num den : Nat) (exponent : Int) : Nat × Nat :=
  (num * Nat.pow 10 (-exponent).toNat, den * Nat.pow 10 exponent.toNat)

/-- The first power of ten at or below the positive quotient `num / den`, going down from `top`. -/
def powerAtMost (num den : Nat) : Nat → Int → Int
  | 0, top => top
  | fuel + 1, top =>
    let (n, d) := scaleDown10 num den top
    if d ≤ n then top else powerAtMost num den fuel (top - 1)

/-- The power of ten at or below the positive quotient `num / den`. The binary logarithm, of which
0.30103 is a decimal, gives a start at most a few powers above it. -/
def floorLog10 (num den : Nat) : Int :=
  powerAtMost num den 4 ((floorLog2 num den + 1) * 30103 / 100000 + 1)

namespace Decimal

/-- The same decimal without trailing zeros, of which there are at most `fuel`. -/
def trim : Nat → Decimal → Decimal
  | 0, x => x
  | fuel + 1, x => if x.digits % 10 = 0 && x.digits ≠ 0 then trim fuel ⟨x.digits / 10, x.exponent + 1⟩ else x

end Decimal

/-- The reals that round to a number, as an interval of numerators over one denominator. -/
structure RoundingInterval where
  low : Nat
  value : Nat
  high : Nat
  den : Nat
  /-- Whether the ends belong to the interval. -/
  closed : Bool

namespace RoundingInterval

/-- The interval of a positive number: half a last place up, and half or a quarter of one down. -/
def ofDouble (x : Double) : RoundingInterval :=
  let bottom := x.mantissa == BinaryFormat.double.leastNormal && x.exponent > BinaryFormat.double.minExponent
  let up := Nat.pow 2 (x.exponent - 2).toNat
  { low := (4 * x.mantissa - (if bottom then 1 else 2)) * up
    value := 4 * x.mantissa * up
    high := (4 * x.mantissa + 2) * up
    den := Nat.pow 2 (2 - x.exponent).toNat
    closed := x.mantissa % 2 == 0 }

/-- Whether `digits * 10 ^ exponent` lies in the interval. -/
def contains (r : RoundingInterval) (x : Decimal) : Bool :=
  let point := x.digits * r.den * Nat.pow 10 x.exponent.toNat
  let unit := Nat.pow 10 (-x.exponent).toNat
  let (low, high) := (r.low * unit, r.high * unit)
  if r.closed then low ≤ point && point ≤ high else low < point && point < high

/-- The neighbour of the value on the grid `10 ^ exponent` that lies in the interval: the nearer of
two, the even one on a tie. -/
def onGrid (r : RoundingInterval) (exponent : Int) : Option Decimal :=
  let (num, den) := scaleDown10 r.value r.den exponent
  let below : Decimal := ⟨num / den, exponent⟩
  let above : Decimal := ⟨num / den + 1, exponent⟩
  match below.digits != 0 && r.contains below, r.contains above with
  | true, true => some ⟨roundDiv num den, exponent⟩
  | true, false => some below
  | false, true => some above
  | false, false => none

/-- The first hit on grids ever finer by one digit. -/
def firstHit (r : RoundingInterval) : Nat → Int → Option Decimal
  | 0, _ => none
  | fuel + 1, exponent =>
    match r.onGrid exponent with
    | some x => some x
    | none => r.firstHit fuel (exponent - 1)

end RoundingInterval

/-- Seventeen digits always read back. -/
def Double.maxDigits : Nat := 17

/-- The shortest decimal that reads back as the magnitude of a nonzero number. -/
def Double.shortest (x : Double) : Decimal :=
  let interval := RoundingInterval.ofDouble x
  let (num, den) := x.ratio
  let found := (interval.firstHit Double.maxDigits (floorLog10 num den)).getD ⟨num / den, 0⟩
  found.trim 400

/-- How a decimal is written: the scientific exponents with positional notation, and the marks. -/
structure DecimalLayout where
  minPositional : Int
  maxPositional : Int
  /-- What follows the digits of a whole number in positional notation. -/
  wholeSuffix : String
  exponentMark : String
  /-- The sign written before an exponent that is not negative. -/
  plusSign : String

namespace DecimalLayout

/-- Numbers from `0.00001` up to below `10 ^ 16` are positional, whole ones end in `.0`, and an exponent
has a sign. -/
def response : DecimalLayout := ⟨-5, 15, ".0", "e", "+"⟩

/-- The text of a positive decimal without trailing zeros. -/
def write (layout : DecimalLayout) (x : Decimal) : String :=
  let digits := Nat.toDigits 10 x.digits
  let count : Int := digits.length
  let scientific := count - 1 + x.exponent
  if layout.minPositional ≤ scientific && scientific ≤ layout.maxPositional then
    if 0 ≤ x.exponent then
      String.ofList (digits ++ List.replicate x.exponent.toNat '0') ++ layout.wholeSuffix
    else if 0 ≤ scientific then
      let whole := (scientific + 1).toNat
      String.ofList (digits.take whole ++ '.' :: digits.drop whole)
    else
      String.ofList ('0' :: '.' :: List.replicate (-scientific - 1).toNat '0' ++ digits)
  else
    let mantissa := match digits with
      | first :: second :: rest => first :: '.' :: second :: rest
      | short => short
    let sign := if scientific < 0 then "-" else layout.plusSign
    String.ofList mantissa ++ layout.exponentMark ++ sign ++ toString scientific.natAbs

end DecimalLayout

/-- The text of a number, a negative zero keeping its sign. -/
def Double.text (x : Double) : String :=
  let layout := DecimalLayout.response
  let magnitude := if x.isZero then "0" ++ layout.wholeSuffix else layout.write x.shortest
  if x.negative then "-" ++ magnitude else magnitude

end GraphQL
