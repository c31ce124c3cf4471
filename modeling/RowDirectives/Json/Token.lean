import RowDirectives.Json.Basic

/-! The tokens of a JSON text. Strings and numbers are taken whole, and what they stand for may be
missing: a string with an unpaired surrogate is no text, and a number may be too large. That matters
only to a reader that wants the value, so the token is made in either case. -/
namespace RowDirectives.Json

inductive Numeral where
  | int (value : Int)
  | double (value : Number.Binary64)

inductive Token where
  | openList
  | closeList
  | openRecord
  | closeRecord
  | comma
  | colon
  | null
  | bool (value : Bool)
  | number (value : Option Numeral)
  | string (value : Option String)
  /-- Here the text stops being a row of tokens. -/
  | unreadable

def isSpace (c : Char) : Bool := c == ' ' || c == '\n' || c == '\t' || c == '\r'

/-- One character between quotes, or a UTF-16 unit that was written with hex digits. -/
inductive Piece where
  | char (value : Char)
  | unit (value : Nat)

def hexUnit? (a b c d : Char) : Option Nat := do
  let a ← Number.hexValue? a
  let b ← Number.hexValue? b
  let c ← Number.hexValue? c
  let d ← Number.hexValue? d
  some (((a * 16 + b) * 16 + c) * 16 + d)

/-- The character after a backslash stands for this one. -/
def unescape? : Char → Option Char
  | '"' => some '"'
  | '\\' => some '\\'
  | '/' => some '/'
  | 'b' => some '\x08'
  | 'f' => some '\x0c'
  | 'n' => some '\n'
  | 'r' => some '\r'
  | 't' => some '\t'
  | _ => none

/-- The pieces up to the closing quote, and the text after it. -/
def scanString : List Char → Option (List Piece × List Char)
  | [] => none
  | '"' :: rest => some ([], rest)
  | '\\' :: 'u' :: a :: b :: c :: d :: rest => do
    let unit ← hexUnit? a b c d
    let (pieces, rest) ← scanString rest
    some (.unit unit :: pieces, rest)
  | '\\' :: c :: rest => do
    let char ← unescape? c
    let (pieces, rest) ← scanString rest
    some (.char char :: pieces, rest)
  | c :: rest =>
    if c.toNat < 0x20 then none
    else do
      let (pieces, rest) ← scanString rest
      some (.char c :: pieces, rest)

def isHighSurrogate (unit : Nat) : Bool := 0xD800 ≤ unit && unit < 0xDC00

def isLowSurrogate (unit : Nat) : Bool := 0xDC00 ≤ unit && unit < 0xE000

/-- Joins surrogate pairs; none where a surrogate has no partner. -/
def joinPieces : List Piece → Option (List Char)
  | [] => some []
  | .char c :: rest => (joinPieces rest).map (c :: ·)
  | .unit high :: .unit low :: rest =>
    if isHighSurrogate high then
      if isLowSurrogate low then
        (joinPieces rest).map
          (Char.ofNat (0x10000 + (high - 0xD800) * 0x400 + (low - 0xDC00)) :: ·)
      else none
    else if isLowSurrogate high then none
    else (joinPieces (.unit low :: rest)).map (Char.ofNat high :: ·)
  | .unit unit :: rest =>
    if isHighSurrogate unit || isLowSurrogate unit then none
    else (joinPieces rest).map (Char.ofNat unit :: ·)

/-- A number as it is written; `fraction` and `power` are missing in an integer. -/
structure Literal where
  negative : Bool
  whole : List Char
  fraction : Option (List Char)
  power : Option Int

def scanFraction : List Char → Option (Option (List Char) × List Char)
  | '.' :: rest =>
    match rest.takeWhile Char.isDigit with
    | [] => none
    | ds => some (some ds, rest.dropWhile Char.isDigit)
  | rest => some (none, rest)

def scanPower (cs : List Char) : Option (Option Int × List Char) :=
  match cs with
  | [] => some (none, [])
  | c :: rest =>
    if c == 'e' || c == 'E' then
      let (negative, body) : Bool × List Char := match rest with
        | '-' :: body => (true, body)
        | '+' :: body => (false, body)
        | body => (false, body)
      match body.takeWhile Char.isDigit with
      | [] => none
      | ds =>
        let size : Int := Number.ofDigits ds
        some (some (if negative then -size else size), body.dropWhile Char.isDigit)
    else some (none, cs)

/-- A number starts with a minus sign or a digit, and no digit follows a leading zero. -/
def scanNumber (cs : List Char) : Option (Literal × List Char) := do
  let (negative, body) : Bool × List Char := match cs with
    | '-' :: body => (true, body)
    | body => (false, body)
  let whole := body.takeWhile Char.isDigit
  match whole with
  | [] => none
  | '0' :: _ :: _ => none
  | _ =>
    let (fraction, rest) ← scanFraction (body.dropWhile Char.isDigit)
    let (power, rest) ← scanPower rest
    some (⟨negative, whole, fraction, power⟩, rest)

namespace Literal

/-- Takes digits into a significand while it stays below `2 ^ 64`; the rest is left over. -/
def absorb (significand : Nat) : List Char → Nat × List Char
  | [] => (significand, [])
  | c :: cs =>
    let next := 10 * significand + Number.digitValue c
    if next < Number.unsignedLimit then absorb next cs else (significand, c :: cs)

/-- A number that is no integer in range is a double: as many digits as fit are its significand, the
digits of the whole part that did not fit raise the power of ten. -/
def double? (l : Literal) : Option Number.Binary64 :=
  let fraction := l.fraction.getD []
  let (high, leftWhole) := absorb 0 l.whole
  let (significand, leftFraction) := absorb high fraction
  let power : Int := leftWhole.length - (fraction.length - leftFraction.length : Int)
  (Number.Magnitude.scaled significand (power + l.power.getD 0)).map (⟨l.negative, ·⟩)

/-- The integer that is written, unless the literal has another form or is out of range. Minus zero is
no integer. -/
def int? (l : Literal) : Option Int :=
  if l.fraction.isNone && l.power.isNone then
    let size := Number.ofDigits l.whole
    if l.negative then
      if 0 < size && size ≤ Number.signedLimit then some (-(size : Int)) else none
    else if size < Number.unsignedLimit then some (size : Int) else none
  else none

def numeral? (l : Literal) : Option Numeral :=
  match l.int? with
  | some i => some (.int i)
  | none => l.double?.map .double

end Literal

/-- The first token of a text that does not start with a blank, and the text after it. -/
def scanToken : List Char → Option (Token × List Char)
  | '[' :: rest => some (.openList, rest)
  | ']' :: rest => some (.closeList, rest)
  | '{' :: rest => some (.openRecord, rest)
  | '}' :: rest => some (.closeRecord, rest)
  | ',' :: rest => some (.comma, rest)
  | ':' :: rest => some (.colon, rest)
  | 'n' :: 'u' :: 'l' :: 'l' :: rest => some (.null, rest)
  | 't' :: 'r' :: 'u' :: 'e' :: rest => some (.bool true, rest)
  | 'f' :: 'a' :: 'l' :: 's' :: 'e' :: rest => some (.bool false, rest)
  | '"' :: rest =>
    (scanString rest).map fun (pieces, rest) =>
      (.string ((joinPieces pieces).map String.ofList), rest)
  | cs => (scanNumber cs).map fun (literal, rest) => (.number literal.numeral?, rest)

/-- At most `count` steps, each of which takes a blank or a token. -/
def lexFrom : Nat → List Char → List Token
  | 0, _ => []
  | _, [] => []
  | count + 1, c :: cs =>
    if isSpace c then lexFrom count cs
    else
      match scanToken (c :: cs) with
      | some (token, rest) => token :: lexFrom count rest
      | none => [.unreadable]

/-- Every step takes a character, so the length of the text bounds their number. -/
def lex (cs : List Char) : List Token := lexFrom cs.length cs

end RowDirectives.Json
