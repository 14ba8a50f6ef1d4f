import GuildSandbox.Text.Blank

set_option autoImplicit false
set_option relaxedAutoImplicit false

namespace GuildSandbox.Number.Binary64

/-- A finite binary64 number: the sign, and a magnitude of `mantissa` times two to `exponent`. -/
structure Parts where
  negative : Bool
  mantissa : Nat
  exponent : Int
  deriving DecidableEq, Repr

def exponentBits (f : Float) : Nat := (f.toBits.toNat / Nat.pow 2 52) % 2048

def fractionBits (f : Float) : Nat := f.toBits.toNat % Nat.pow 2 52

def isNegative (f : Float) : Bool := f.toBits.toNat / Nat.pow 2 63 == 1

def isFinite (f : Float) : Bool := exponentBits f != 2047

def isNaN (f : Float) : Bool := exponentBits f == 2047 && fractionBits f != 0

def parts? (f : Float) : Option Parts :=
  if exponentBits f = 2047 then none
  else if exponentBits f = 0 then
    some { negative := isNegative f, mantissa := fractionBits f, exponent := -1074 }
  else
    some { negative := isNegative f, mantissa := Nat.pow 2 52 + fractionBits f
           exponent := (exponentBits f : Int) - 1075 }

def Parts.wholeMagnitude (p : Parts) : Nat :=
  if 0 ≤ p.exponent then p.mantissa * Nat.pow 2 p.exponent.toNat
  else p.mantissa / Nat.pow 2 (-p.exponent).toNat

def Parts.truncated (p : Parts) : Int :=
  if p.negative then -(p.wholeMagnitude : Int) else p.wholeMagnitude

def Parts.isWhole (p : Parts) : Bool :=
  0 ≤ p.exponent || p.mantissa % Nat.pow 2 (-p.exponent).toNat == 0

def isWhole (f : Float) : Bool := (parts? f).any Parts.isWhole

def minInt64 : Int := -9223372036854775808

def endInt64 : Int := 9223372036854775808

def int64? (n : Int) : Option Int64 :=
  if minInt64 ≤ n ∧ n < endInt64 then some (Int64.ofInt n) else none

theorem int64?_toInt (n : Int64) : int64? n.toInt = some n := by
  rw [int64?, if_pos ⟨n.le_toInt, n.toInt_lt⟩, Int64.ofInt_toInt]

theorem toInt_of_int64? {n : Int} {m : Int64} (fits : int64? n = some m) : m.toInt = n := by
  unfold int64? at fits
  split at fits
  next inside =>
    cases fits
    exact Int64.toInt_ofInt_of_le inside.1 inside.2
  next => cases fits

def ofInt (n : Int) : Float := Float.ofInt n

/-- The value without its fraction as a signed 64-bit word. What lies beyond either end goes to that
end, and a NaN to zero. -/
def toInt64 (f : Float) : Int64 :=
  match parts? f with
  | some p => Int64.ofIntClamp p.truncated
  | none => if isNaN f then 0 else if isNegative f then Int64.minValue else Int64.maxValue

/-- A whole value within the signed 64-bit words. The greatest word is no float: the nearest one is
the first value beyond them. -/
def isInt64 (f : Float) : Bool :=
  isWhole f && ofInt Int64.minValue.toInt ≤ f && f < ofInt Int64.maxValue.toInt

def toInt64? (f : Float) : Option Int64 := if isInt64 f then some (toInt64 f) else none

/-- The magnitude of the parts, as a multiple of two to a smaller exponent. -/
def Parts.scaledTo (p : Parts) (exponent : Int) : Nat :=
  p.mantissa * Nat.pow 2 (p.exponent - exponent).toNat

/-- What is left of the first number when multiples of the second one are taken off toward zero; it
has the sign of the first one and is exact. -/
def remainder (x y : Float) : Float :=
  match parts? x, parts? y with
  | some p, some q =>
    if q.mantissa = 0 then 0.0 / 0.0
    else
      let exponent := min p.exponent q.exponent
      let left := p.scaledTo exponent % q.scaledTo exponent
      let magnitude := (Float.ofNat left).scaleB exponent
      if p.negative then -magnitude else magnitude
  | some _, none => if isNaN y then y else x
  | none, _ => 0.0 / 0.0

end GuildSandbox.Number.Binary64
