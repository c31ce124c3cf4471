import RowDirectives.Number.Digits

/-! Finite binary64 numbers as sign, mantissa and exponent, with the roundings that reading a
decimal takes. All arithmetic is exact on natural numbers; `roundRatio` is the only place that
loses digits, and it goes to the nearest number, a tie to the even mantissa. -/
namespace RowDirectives.Number

/-- The value `mantissa * 2 ^ exponent` of a finite binary64: the mantissa has 53 bits, or fewer when
the exponent is the least one. -/
structure Magnitude where
  mantissa : Nat
  exponent : Int
  deriving DecidableEq, Repr

structure Binary64 where
  negative : Bool
  magnitude : Magnitude
  deriving DecidableEq, Repr

def leastExponent : Int := -1074

def greatestExponent : Int := 971

/-- The quotient to the nearest integer, a tie to the even one. -/
def roundQuotient (num den : Nat) : Nat :=
  let quotient := num / den
  let twice := 2 * (num % den)
  if twice < den || twice == den && quotient % 2 == 0 then quotient else quotient + 1

namespace Magnitude

def zero : Magnitude := ⟨0, leastExponent⟩

def isZero (m : Magnitude) : Bool := m.mantissa == 0

/-- The value as a fraction. -/
def ratio (m : Magnitude) : Nat × Nat :=
  (m.mantissa * Nat.pow 2 m.exponent.toNat, Nat.pow 2 (-m.exponent).toNat)

/-- The exponent at which a positive fraction has a quotient of 53 bits, kept in range from below. -/
def exponentOf (num den : Nat) : Int :=
  let guess : Int := (Nat.log2 num : Int) - (Nat.log2 den : Int)
  let reaches := den * Nat.pow 2 guess.toNat ≤ num * Nat.pow 2 (-guess).toNat
  max leastExponent ((if reaches then guess else guess - 1) - 52)

/-- The nearest number to a fraction, none above the largest finite one. -/
def roundRatio (num den : Nat) : Option Magnitude :=
  if num == 0 then some zero
  else
    let exponent := exponentOf num den
    let mantissa := roundQuotient (num * Nat.pow 2 (-exponent).toNat) (den * Nat.pow 2 exponent.toNat)
    let rounded : Magnitude :=
      if mantissa == Nat.pow 2 53 then ⟨Nat.pow 2 52, exponent + 1⟩ else ⟨mantissa, exponent⟩
    if rounded.exponent ≤ greatestExponent then some rounded else none

def ofNat (n : Nat) : Option Magnitude := roundRatio n 1

def mul (a b : Magnitude) : Option Magnitude :=
  roundRatio (a.ratio.1 * b.ratio.1) (a.ratio.2 * b.ratio.2)

def div (a b : Magnitude) : Option Magnitude :=
  roundRatio (a.ratio.1 * b.ratio.2) (a.ratio.2 * b.ratio.1)

/-- The greatest power of ten used as one factor. -/
def greatestPower : Nat := 308

def powerOfTen (k : Nat) : Option Magnitude := ofNat (Nat.pow 10 k)

/-- Divides by the greatest power again and again, and stops early at zero. -/
def shrink : Nat → Magnitude → Option Magnitude
  | 0, m => some m
  | k + 1, m =>
    if m.isZero then some m
    else (powerOfTen greatestPower).bind fun p => (m.div p).bind (shrink k)

/-- A decimal `significand * 10 ^ power` in two roundings: the significand first, then its product or
quotient with a power of ten. Small numbers take further quotients. None stands for overflow. -/
def scaled (significand : Nat) (power : Int) : Option Magnitude := do
  let m ← ofNat significand
  if m.isZero then
    some m
  else if 0 ≤ power then
    if power.toNat ≤ greatestPower then m.mul (← powerOfTen power.toNat) else none
  else
    let size := (-power).toNat
    let steps := (size - 1) / greatestPower
    let small ← shrink steps m
    if small.isZero then some small else small.div (← powerOfTen (size - steps * greatestPower))

/-- The number nearest to `significand * 10 ^ power` in one rounding. Where the first digit stands decides
about numbers far out of range, so that no huge power is computed. -/
def nearest (significand : Nat) (power : Int) : Option Magnitude :=
  if significand == 0 then some zero
  else
    let lead : Int := ((digits significand).length : Int) + power
    if lead < -400 then some zero
    else if 400 < lead then none
    else roundRatio (significand * Nat.pow 10 power.toNat) (Nat.pow 10 (-power).toNat)

end Magnitude
end RowDirectives.Number
