import RowDirectives.Number.Binary64

/-! The shortest decimal that reads back as a given binary64, and its two spellings. With one digit,
two digits and so on, the two decimals around the value are tried; the first that rounds to the
value wins, of two the nearer, and an exact tie goes to the even digit. Seventeen digits always do. -/
namespace RowDirectives.Number

/-- The value of `digits`, read with one digit before the point, times `10 ^ exponent`. -/
structure Decimal where
  digits : List Char
  exponent : Int
  deriving DecidableEq, Repr

namespace Magnitude

/-- The end points of the fractions that round to the number, over one denominator with its value. -/
structure Neighbourhood where
  low : Nat
  value : Nat
  high : Nat
  den : Nat
  closed : Bool

def neighbourhood (m : Magnitude) : Neighbourhood :=
  let up := Nat.pow 2 m.exponent.toNat
  let narrow := m.mantissa == Nat.pow 2 52 && m.exponent > leastExponent
  { low := (4 * m.mantissa - if narrow then 1 else 2) * up
    value := 4 * m.mantissa * up
    high := (4 * m.mantissa + 2) * up
    den := 4 * Nat.pow 2 (-m.exponent).toNat
    closed := m.mantissa % 2 == 0 }

/-- The decimal exponent of the first digit of a positive fraction. -/
def leadingExponent (num den : Nat) : Int :=
  if den ≤ num then ((digits (num / den)).length : Int) - 1
  else -((digits ((den + num - 1) / num - 1)).length : Int)

namespace Neighbourhood

/-- Whether `n * 10 ^ power` rounds to the number. -/
def holds (b : Neighbourhood) (n : Nat) (power : Int) : Bool :=
  let point := n * Nat.pow 10 power.toNat * b.den
  let scale := Nat.pow 10 (-power).toNat
  if b.closed then b.low * scale ≤ point && point ≤ b.high * scale
  else b.low * scale < point && point < b.high * scale

/-- The nearest multiple of `10 ^ power` that rounds to the number. -/
def onGrid? (b : Neighbourhood) (power : Int) : Option Nat :=
  let num := b.value * Nat.pow 10 (-power).toNat
  let den := b.den * Nat.pow 10 power.toNat
  let near := roundQuotient num den
  let other := if near == num / den then near + 1 else num / den
  if b.holds near power then some near
  else if b.holds other power then some other
  else none

/-- Tries grids of more and more digits, `count` of them at most. -/
def search (b : Neighbourhood) (lead : Int) : Nat → Nat → Option (Nat × Int)
  | 0, _ => none
  | count + 1, size =>
    let power := lead - size
    match b.onGrid? power with
    | some n => some (n, power)
    | none => search b lead count (size + 1)

end Neighbourhood

def dropZeros (cs : List Char) : List Char := (cs.reverse.dropWhile (· == '0')).reverse

def shortest (m : Magnitude) : Decimal :=
  if m.isZero then ⟨['0'], 0⟩
  else
    let b := m.neighbourhood
    let lead := leadingExponent b.value b.den
    let (n, power) := (b.search lead 17 0).getD (b.value / b.den, 0)
    let ds := digits n
    ⟨dropZeros ds, power + ds.length - 1⟩

end Magnitude

namespace Decimal

def zeros (n : Nat) : List Char := List.replicate n '0'

/-- All digits around a point, with `.0` after an integer. -/
def plain (d : Decimal) : List Char :=
  if d.exponent < 0 then
    '0' :: '.' :: zeros ((-d.exponent).toNat - 1) ++ d.digits
  else
    let whole := d.exponent.toNat + 1
    let rest := d.digits.drop whole
    d.digits.take whole ++ zeros (whole - d.digits.length) ++
      '.' :: (if rest.isEmpty then ['0'] else rest)

/-- One digit before the point, and a signed exponent. -/
def scientific (d : Decimal) : List Char :=
  let mantissa := match d.digits with
    | [] => []
    | [c] => [c]
    | c :: rest => c :: '.' :: rest
  mantissa ++ 'e' :: (if d.exponent < 0 then '-' else '+') :: Number.digits d.exponent.natAbs

/-- Plain from `0.00001` up to, but without, ten to the sixteenth. -/
def text (d : Decimal) : List Char :=
  if -5 ≤ d.exponent && d.exponent < 16 then d.plain else d.scientific

end Decimal

namespace Binary64

def signed (x : Binary64) (cs : List Char) : List Char :=
  if x.negative then '-' :: cs else cs

/-- The text as a value: short numbers plain, the others with an exponent. -/
def text (x : Binary64) : List Char := x.signed x.magnitude.shortest.text

/-- The text without an exponent, however long. -/
def plainText (x : Binary64) : List Char := x.signed x.magnitude.shortest.plain

end Binary64
end RowDirectives.Number
