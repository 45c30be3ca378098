/-!
# Binary numbers in exact arithmetic

A finite binary number is a sign, a mantissa and a power of two. A `BinaryFormat` bounds the
mantissa and the power, and `BinaryFormat.round` takes a quotient of naturals to the nearest number
of the format, a tie going to the even mantissa. Products and quotients of `Double`s are the exact
rational result rounded once, so nothing here uses machine floating point.
-/

namespace GraphQL

/-- The bits of a mantissa and the least and greatest power of two of its last place. -/
structure BinaryFormat where
  precision : Nat
  minExponent : Int
  maxExponent : Int

/-- Sixty-four bit numbers. -/
def BinaryFormat.double : BinaryFormat := ⟨53, -1074, 971⟩

/-- Thirty-two bit numbers. -/
def BinaryFormat.single : BinaryFormat := ⟨24, -149, 104⟩

/-- The natural nearest to `num / den`, a tie going to the even one. -/
def roundDiv (num den : Nat) : Nat :=
  let floor := num / den
  let rest := 2 * (num % den)
  if rest < den || (rest == den && floor % 2 == 0) then floor else floor + 1

/-- `num / den` as numerator and denominator after a division by `2 ^ exponent`. -/
def scaleDown (num den : Nat) (exponent : Int) : Nat × Nat :=
  (num * Nat.pow 2 (-exponent).toNat, den * Nat.pow 2 exponent.toNat)

/-- The power of two at or below the positive quotient `num / den`. -/
def floorLog2 (num den : Nat) : Int :=
  let guess : Int := (num.log2 : Int) - den.log2
  let (n, d) := scaleDown num den guess
  if d ≤ n then guess else guess - 1

namespace BinaryFormat

/-- The least mantissa with all the bits of the format. -/
def leastNormal (format : BinaryFormat) : Nat := Nat.pow 2 (format.precision - 1)

/-- The mantissa and exponent nearest to `num / den`, or `none` above the greatest number of the format. -/
def round (format : BinaryFormat) (num den : Nat) : Option (Nat × Int) :=
  if num = 0 then some (0, format.minExponent)
  else
    let exponent := max format.minExponent (floorLog2 num den - (format.precision - 1))
    let (n, d) := scaleDown num den exponent
    let mantissa := roundDiv n d
    let (mantissa, exponent) :=
      if mantissa = 2 * format.leastNormal then (format.leastNormal, exponent + 1) else (mantissa, exponent)
    if exponent ≤ format.maxExponent then some (mantissa, exponent) else none

end BinaryFormat

/-- A finite sixty-four bit number, its exponent as small as the mantissa allows. Zero keeps a sign. -/
structure Double where
  negative : Bool
  mantissa : Nat
  exponent : Int
deriving DecidableEq, Repr

namespace Double

/-- Zero of the given sign. -/
def zero (negative : Bool) : Double := ⟨negative, 0, BinaryFormat.double.minExponent⟩

instance : Inhabited Double := ⟨zero false⟩

def isZero (x : Double) : Bool := x.mantissa == 0

/-- The magnitude as a quotient of naturals. -/
def ratio (x : Double) : Nat × Nat := scaleDown x.mantissa 1 (-x.exponent)

/-- The number nearest to `± num / den`, or `none` when it is out of range. -/
def ofRatio (negative : Bool) (num den : Nat) : Option Double :=
  (BinaryFormat.double.round num den).map fun (mantissa, exponent) => ⟨negative, mantissa, exponent⟩

/-- The number nearest to an integer of at most sixty-four bits. -/
def ofInt (n : Int) : Double := (ofRatio (n < 0) n.natAbs 1).getD (zero false)

def neg (x : Double) : Double := { x with negative := !x.negative }

/-- The product, or `none` when it is out of range. -/
def mul (x y : Double) : Option Double :=
  let (a, b) := x.ratio
  let (c, d) := y.ratio
  ofRatio (x.negative != y.negative) (a * c) (b * d)

/-- The quotient by a nonzero number, or `none` when it is out of range. -/
def div (x y : Double) : Option Double :=
  let (a, b) := x.ratio
  let (c, d) := y.ratio
  ofRatio (x.negative != y.negative) (a * d) (b * c)

/-- The nearest thirty-two bit number, widened again, or `none` when it is out of that range. -/
def toSingle (x : Double) : Option Double :=
  let (num, den) := x.ratio
  (BinaryFormat.single.round num den).bind fun (mantissa, exponent) =>
    let (num, den) := scaleDown mantissa 1 (-exponent)
    ofRatio x.negative num den

/-- Equality of values: the zeros of both signs are equal. -/
def sameValue (x y : Double) : Bool := (x.isZero && y.isZero) || x == y

end Double

end GraphQL
