/-! Decimal digits: natural numbers written without leading zeros, and read with any number of them.
The two readers for arguments differ in the sign they allow and in the limit they keep. -/
namespace RowDirectives.Number

def digitValue (c : Char) : Nat := c.toNat - '0'.toNat

def ofDigits (cs : List Char) : Nat :=
  cs.foldl (fun n c => 10 * n + digitValue c) 0

/-- Reads one or more ASCII digits and nothing else. -/
def digits? (cs : List Char) : Option Nat :=
  if !cs.isEmpty && cs.all Char.isDigit then some (ofDigits cs) else none

/-- The value of a hexadecimal digit. -/
def hexValue? (c : Char) : Option Nat :=
  if c.isDigit then some (digitValue c)
  else if 'a' ≤ c && c ≤ 'f' then some (c.toNat - 'a'.toNat + 10)
  else if 'A' ≤ c && c ≤ 'F' then some (c.toNat - 'A'.toNat + 10)
  else none

/-- The decimal digits of a number, `0` for zero. -/
def digits (n : Nat) : List Char := Nat.toDigits 10 n

def text (n : Nat) : String := String.ofList (digits n)

/-- The decimal digits of an integer, after `-` when it is negative. -/
def signedDigits (i : Int) : List Char :=
  if i < 0 then '-' :: digits i.natAbs else digits i.natAbs

/-- Positions are below this limit. -/
def unsignedLimit : Nat := Nat.pow 2 64

/-- Signed numbers lie from minus this limit up to, but without, the limit itself. -/
def signedLimit : Nat := Nat.pow 2 63

/-- An optional `+` and digits, below `unsignedLimit`. -/
def unsigned? (cs : List Char) : Option Nat :=
  let body := match cs with
    | '+' :: rest => rest
    | _ => cs
  (digits? body).filter (· < unsignedLimit)

/-- An optional sign and digits, within the signed limits. -/
def signed? (cs : List Char) : Option Int :=
  match cs with
  | '-' :: rest => ((digits? rest).filter (· ≤ signedLimit)).map fun n => -(n : Int)
  | '+' :: rest => ((digits? rest).filter (· < signedLimit)).map Int.ofNat
  | _ => ((digits? cs).filter (· < signedLimit)).map Int.ofNat

end RowDirectives.Number
