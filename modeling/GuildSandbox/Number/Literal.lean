import GuildSandbox.Number.Binary64

/-!
Reading decimal literals as binary64 numbers.

A literal stands for a ratio of two natural numbers, and that is rounded once: to the 53 bits from its
first one on, or to fewer where the exponent is already the least.
-/

set_option autoImplicit false
set_option relaxedAutoImplicit false

namespace GuildSandbox.Number

/-- The whole number nearest to a quotient, and the even one of two that are equally near. -/
def roundedQuotient (n d : Nat) : Nat :=
  let below := n / d
  let left := n % d
  if 2 * left < d then below
  else if d < 2 * left then below + 1
  else below + below % 2

def lastExponent (n d : Nat) : Int :=
  let e : Int := n.log2 - d.log2 - 52
  -- The first bit is the one that the lengths tell, or the next one.
  let e := if n * Nat.pow 2 (-e).toNat < Nat.pow 2 52 * (d * Nat.pow 2 e.toNat) then e - 1 else e
  max e (-1074)

def infinityBits : Nat := 2047 * Nat.pow 2 52

def ofRatio (n d : Nat) : Float :=
  let e := lastExponent n d
  let mantissa := roundedQuotient (n * Nat.pow 2 (-e).toNat) (d * Nat.pow 2 e.toNat)
  -- The first of 53 bits falls into the exponent, and so does a carry out of them.
  .ofBits (.ofNat (min infinityBits ((e + 1074).toNat * Nat.pow 2 52 + mantissa)))

/-- The number of decimal digits beyond which an exponent leaves no finite number but zero. -/
def furthestExponent : Int := 400

/-- The binary64 number nearest to a decimal with digits before and after the point and an
exponent; one too large for a finite number is infinite. -/
def nearest (whole fraction : List Char) (exponent : Int) : Float :=
  let significand := Text.digitsValue (whole ++ fraction)
  let lowest := exponent - fraction.length
  let highest := lowest + (Nat.toDigits 10 significand).length
  if significand = 0 || highest < -furthestExponent then 0.0
  else if furthestExponent < highest then 1.0 / 0.0
  else ofRatio (significand * Nat.pow 10 lowest.toNat) (Nat.pow 10 (-lowest).toNat)

end GuildSandbox.Number
