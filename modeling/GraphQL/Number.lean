import GraphQL.Number.Shortest

/-!
# Numbers

A number is an integer of at most sixty-four bits or a binary fraction. `NumberToken` is the written
form that documents and JSON texts share; `NumberToken.value?` reads it. Integers that fit stay
integers. Everything else is an integer of at most twenty digits scaled by one power of ten, each of
the two steps rounded, so a long fraction may read one last place away from the nearest number.
-/

namespace GraphQL

/-- The least and greatest integers that stay integers. -/
def minInteger : Int := -(Nat.pow 2 63 : Nat)

def maxInteger : Int := (Nat.pow 2 64 : Nat) - 1

def maxInt64 : Int := (Nat.pow 2 63 : Nat) - 1

inductive Number where
  | integer (n : Int)
  | double (x : Double)
deriving DecidableEq, Repr

namespace Number

instance : Inhabited Number := ⟨integer 0⟩

/-- The text of a number in responses, messages and JSON. -/
def text : Number → String
  | integer n => toString n
  | double x => x.text

/-- The value as a signed sixty-four bit integer. -/
def toInt64? : Number → Option Int
  | integer n => if minInteger ≤ n && n ≤ maxInt64 then some n else none
  | double _ => none

/-- The nearest binary fraction. -/
def toDouble : Number → Double
  | integer n => Double.ofInt n
  | double x => x

/-- Equality in which integers and fractions differ and the zeros of both signs are equal. -/
def sameValue : Number → Number → Bool
  | integer n, integer m => n == m
  | double x, double y => x.sameValue y
  | _, _ => false

/-- An integer written out: within sixty-four bits it stays an integer, beyond it becomes a fraction. -/
def ofInt (n : Int) : Number :=
  if minInteger ≤ n && n ≤ maxInteger then integer n else double (Double.ofInt n)

end Number

/-- The written form of a number: sign, digits before and after the point, and exponent. -/
structure NumberToken where
  negative : Bool
  whole : List Char
  fraction : Option (List Char)
  exponent : Option Int
deriving DecidableEq, Repr

/-- The value of a decimal digit. -/
def digitValue (c : Char) : Nat := c.toNat - '0'.toNat

/-- The number a run of digits stands for. -/
def digitsValue (cs : List Char) : Nat := cs.foldl (fun n c => 10 * n + digitValue c) 0

/-- A significand and the number of digits taken into it. -/
structure Significand where
  value : Nat
  taken : Nat

/-- Takes digits as long as the significand stays below `2 ^ 64`; returns the digits left over. -/
def Significand.extend (s : Significand) : List Char → Significand × List Char
  | [] => (s, [])
  | c :: cs =>
    let next := 10 * s.value + digitValue c
    if next < Nat.pow 2 64 then Significand.extend ⟨next, s.taken + 1⟩ cs else (s, c :: cs)

/-- The greatest power of ten that is a finite number. -/
def maxPowerOfTen : Nat := 308

/-- The finite number nearest to `10 ^ n`. -/
def Double.powerOfTen (n : Nat) : Double := (Double.ofRatio false (Nat.pow 10 n) 1).getD (Double.zero false)

/-- Divides `steps` times by the greatest power of ten, stopping at zero. -/
def Double.scaleDown10 (x : Double) : Nat → Option Double
  | 0 => some x
  | steps + 1 =>
    if x.isZero then some x
    else (x.div (Double.powerOfTen maxPowerOfTen)).bind fun smaller => smaller.scaleDown10 steps

/-- `x * 10 ^ exponent`, scaling down in steps of at most 308 places; `none` when it is out of range. -/
def Double.scale10 (x : Double) (exponent : Int) : Option Double :=
  if x.isZero then some x
  else if 0 ≤ exponent then
    if exponent ≤ maxPowerOfTen then x.mul (Double.powerOfTen exponent.toNat) else none
  else
    let places := (-exponent).toNat
    let steps := (places - 1) / maxPowerOfTen
    (x.scaleDown10 steps).bind fun smaller => smaller.div (Double.powerOfTen (places - steps * maxPowerOfTen))

namespace NumberToken

/-- The digits before the point that do not fit the significand count as zeros; of the digits after
it only those are read that fit. -/
def significand (t : NumberToken) : Nat × Int :=
  let (whole, dropped) := Significand.extend ⟨0, 0⟩ t.whole
  match t.fraction with
  | none => (whole.value, dropped.length)
  | some digits =>
    let (all, _) := Significand.extend ⟨whole.value, 0⟩ digits
    (all.value, (dropped.length : Int) - all.taken)

/-- The number written, or `none` when it is beyond the greatest finite one. -/
def value? (t : NumberToken) : Option Number :=
  let (value, exponent) := t.significand
  let signed (x : Double) : Number := .double { x with negative := t.negative }
  let isInteger := t.fraction.isNone && t.exponent.isNone && exponent == 0
  if isInteger && !t.negative then some (.integer value)
  else if isInteger && value ≠ 0 && minInteger ≤ -(value : Int) then some (.integer (-value))
  else ((Double.ofInt value).scale10 (exponent + t.exponent.getD 0)).map signed

end NumberToken

/-- Takes the digits at the front. -/
def takeDigits (cs : List Char) : List Char × List Char := (cs.takeWhile Char.isDigit, cs.dropWhile Char.isDigit)

/-- Reads a point followed by at least one digit. -/
def scanFraction : List Char → Option (List Char × List Char)
  | '.' :: cs =>
    let (digits, rest) := takeDigits cs
    if digits.isEmpty then none else some (digits, rest)
  | _ => none

/-- Reads an exponent mark, an optional sign and at least one digit. -/
def scanExponent (cs : List Char) : Option (Int × List Char) :=
  let unsigned (negative : Bool) (cs : List Char) : Option (Int × List Char) :=
    let (digits, rest) := takeDigits cs
    let value : Int := digitsValue digits
    if digits.isEmpty then none else some (if negative then -value else value, rest)
  let signed : List Char → Option (Int × List Char)
    | '-' :: cs => unsigned true cs
    | '+' :: cs => unsigned false cs
    | cs => unsigned false cs
  match cs with
  | 'e' :: cs | 'E' :: cs => signed cs
  | _ => none

namespace NumberToken

/-- Reads the longest number at the front. A leading zero is a whole part of its own. -/
def scan (cs : List Char) : Option (NumberToken × List Char) :=
  let (negative, cs) := match cs with
    | '-' :: cs => (true, cs)
    | cs => (false, cs)
  let (whole, cs) := match cs with
    | '0' :: cs => (['0'], cs)
    | cs => takeDigits cs
  if whole.isEmpty then none
  else
    let (fraction, cs) := match scanFraction cs with
      | some (digits, cs) => (some digits, cs)
      | none => (none, cs)
    let (exponent, cs) := match scanExponent cs with
      | some (value, cs) => (some value, cs)
      | none => (none, cs)
    some (⟨negative, whole, fraction, exponent⟩, cs)

end NumberToken

/-- Reads a text that is one number and nothing else. -/
def Number.ofChars? (cs : List Char) : Option Number :=
  match NumberToken.scan cs with
  | some (token, []) => token.value?
  | _ => none

end GraphQL
