import GuildSandbox.Number.Binary64

/-!
The shortest decimal that reads back as a given binary64 number.

The reals that round to a number form an interval around it, ends included when the mantissa is
even. Among the decimals of one digit, then two, and so on, the first grid with a point in the
interval wins; of two such points the nearer one, and on an exact tie the even one. All of it is
integer arithmetic on numerators over one common denominator.
-/

set_option autoImplicit false
set_option relaxedAutoImplicit false

namespace GuildSandbox.Number

/-- Decimal digits, most significant first, and the power of ten of the first digit. -/
structure Decimal where
  digits : List Char
  exponent : Int
  deriving DecidableEq, Repr

/-- A magnitude and the bounds of the reals that round to it, over one denominator. -/
structure Rounding where
  low : Nat
  value : Nat
  high : Nat
  denominator : Nat
  endsIncluded : Bool

/-- The interval of a positive magnitude. The lower gap is half as wide at a power of two. -/
def Binary64.Parts.rounding (p : Binary64.Parts) : Rounding :=
  let up := p.exponent.toNat
  let down := (-p.exponent).toNat
  let atPower := p.mantissa = Nat.pow 2 52 ∧ p.exponent ≠ -1074
  { low := (if atPower then 4 * p.mantissa - 1 else 4 * p.mantissa - 2) * Nat.pow 2 up
    value := 4 * p.mantissa * Nat.pow 2 up
    high := (4 * p.mantissa + 2) * Nat.pow 2 up
    denominator := 4 * Nat.pow 2 down
    endsIncluded := p.mantissa % 2 == 0 }

/-- The point `d` times ten to `k`, compared with the interval after clearing denominators. -/
def Rounding.holds (r : Rounding) (d : Nat) (k : Int) : Bool :=
  let point := d * Nat.pow 10 k.toNat * r.denominator
  let scale := Nat.pow 10 (-k).toNat
  if r.endsIncluded then r.low * scale ≤ point && point ≤ r.high * scale
  else r.low * scale < point && point < r.high * scale

/-- The best grid point in the interval on the grid of step ten to `k`, if there is one. -/
def Rounding.onGrid? (r : Rounding) (k : Int) : Option Nat :=
  let step := Nat.pow 10 k.toNat * r.denominator
  let target := r.value * Nat.pow 10 (-k).toNat
  let below := target / step
  let left := target % step
  match r.holds below k, r.holds (below + 1) k with
  | true, true =>
    if 2 * left < step then some below
    else if step < 2 * left then some (below + 1)
    else if below % 2 = 0 then some below else some (below + 1)
  | true, false => some below
  | false, true => some (below + 1)
  | false, false => none

def Rounding.search (r : Rounding) : Nat → Int → Nat × Int
  | 0, k => (r.value * Nat.pow 10 (-k).toNat / (Nat.pow 10 k.toNat * r.denominator), k)
  | tries + 1, k =>
    match r.onGrid? k with
    | some d => (d, k)
    | none => r.search tries (k - 1)

/-- An upper bound for the decimal exponent of a magnitude, at most one too large. -/
def Rounding.startExponent (r : Rounding) : Int :=
  let bits : Int := (r.value.log2 : Int) - (r.denominator.log2 : Int)
  (bits * 30103).fdiv 100000 + 1

def dropTrailingZeros (ds : List Char) : List Char :=
  (ds.reverse.dropWhile (· = '0')).reverse

def Binary64.Parts.shortest (p : Binary64.Parts) : Decimal :=
  let r := p.rounding
  let (d, k) := r.search 20 r.startExponent
  let ds := Nat.toDigits 10 d
  { digits := dropTrailingZeros ds, exponent := k + (ds.length : Int) - 1 }

/-- How a written number is laid out: which decimal exponents are written positionally, and
whether a positive exponent carries a plus sign. -/
structure FloatLayout where
  leastPlain : Int
  greatestPlain : Int
  plusSign : Bool

/-- Digits with the decimal point in place and at least one digit on either side of it. -/
def Decimal.plain (d : Decimal) : List Char :=
  if 0 ≤ d.exponent then
    let whole := d.exponent.toNat + 1
    let padded := d.digits ++ List.replicate (whole - d.digits.length) '0'
    let fraction := padded.drop whole
    padded.take whole ++ '.' :: (if fraction.isEmpty then ['0'] else fraction)
  else
    '0' :: '.' :: (List.replicate ((-d.exponent).toNat - 1) '0' ++ d.digits)

def Decimal.scientific (plusSign : Bool) (d : Decimal) : List Char :=
  let mantissa := match d.digits with
    | [] => ['0']
    | [c] => [c]
    | c :: cs => c :: '.' :: cs
  let sign := if d.exponent < 0 then ['-'] else if plusSign then ['+'] else []
  mantissa ++ 'e' :: (sign ++ Nat.toDigits 10 d.exponent.natAbs)

def Decimal.layOut (l : FloatLayout) (d : Decimal) : List Char :=
  if l.leastPlain ≤ d.exponent ∧ d.exponent ≤ l.greatestPlain then d.plain
  else d.scientific l.plusSign

/-- The text of a number under a layout; zeros keep their sign, and infinities and NaNs are
written as words. -/
def writeFloat (l : FloatLayout) (f : Float) : List Char :=
  let sign := if Binary64.isNegative f then ['-'] else []
  match Binary64.parts? f with
  | none => if Binary64.isNaN f then "NaN".toList else sign ++ "inf".toList
  | some p =>
    if p.mantissa = 0 then sign ++ "0.0".toList
    else sign ++ p.shortest.layOut l

end GuildSandbox.Number
