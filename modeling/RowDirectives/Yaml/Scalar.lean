import RowDirectives.Mismatch
import RowDirectives.Number.Shortest
import RowDirectives.Yaml.Cell

/-! Scalars: the text between two structural characters. A line break inside is folded to a space, several
breaks to one less. Plain scalars are text where text is wanted; elsewhere their form tells what they
are: nothing, a truth value, a number or a text. -/
namespace RowDirectives.Yaml

structure Scalar where
  text : String
  plain : Bool
  /-- Whether it is the first thing in the whole text. -/
  leads : Bool
  deriving DecidableEq, Repr

/-- The blanks and breaks since the last character of a scalar; they count only if another follows. -/
inductive Gap where
  | none
  | blanks (reversed : List Char)
  | breaks (first : Option Char) (more : List Char)

namespace Gap

def addBlank (c : Char) : Gap → Gap
  | none => blanks [c]
  | blanks cs => blanks (c :: cs)
  | breaks first more => breaks first more

def addBreak (c : Char) : Gap → Gap
  | breaks first more => breaks first (c :: more)
  | _ => breaks (some c) []

/-- What the gap contributes to the scalar, last character first. -/
def reversed : Gap → List Char
  | none => []
  | blanks cs => cs
  | breaks (some '\n') [] => [' ']
  | breaks (some '\n') more => more
  | breaks (some c) more => more ++ [c]
  | breaks Option.none more => more

def isNone : Gap → Bool
  | none => true
  | _ => false

def isBreaks : Gap → Bool
  | breaks _ _ => true
  | _ => false

end Gap

/-- A scanned scalar: its text, whether it ended in a line break, and the cells after it. -/
structure Scanned where
  text : List Char
  broken : Bool
  rest : List Cell

def flowIndicators : List Char := [',', '[', ']', '{', '}']

/-- Whether a plain scalar ends before a cell that is neither a blank nor a break: in a block where a line
starts left of `least`, in a flow collection at the characters that structure it. -/
def endsPlain (flow : Bool) (least : Int) (gap : Gap) (cells : List Cell) (cell : Cell)
    (next : Char) : Bool :=
  let c := cell.char
  c == finish || (gap.isBreaks && !flow && (cell.column : Int) < least) || isDocumentMark cells ||
    (c == '#' && !gap.isNone) || (c == ':' && isGap next) || (flow && flowIndicators.contains c)

/-- Reads a plain scalar. `taken` holds the text so far, last character first. -/
def scanPlain (flow : Bool) (least : Int) (taken : List Char) (gap : Gap) :
    List Cell → Option Scanned
  | [] => some ⟨taken.reverse, gap.isBreaks, []⟩
  | cell :: rest =>
    let c := cell.char
    let next := charAt rest 0
    if isBlank c then
      if gap.isBreaks && (cell.column : Int) < least && c == '\t' then none
      else scanPlain flow least taken (gap.addBlank c) rest
    else if isBreak c then scanPlain flow least taken (gap.addBreak c) rest
    else if endsPlain flow least gap (cell :: rest) cell next then
      some ⟨taken.reverse, gap.isBreaks, cell :: rest⟩
    else if flow && c == ':' && (flowIndicators.contains next || next == '?') then none
    else scanPlain flow least (c :: gap.reversed ++ taken) .none rest

/-- Reads a single-quoted scalar after its opening quote; a quote inside is written twice. -/
def scanSingle (taken : List Char) (gap : Gap) : List Cell → Option Scanned
  | [] => none
  | cell :: rest =>
    let c := cell.char
    if c == finish || isDocumentMark (cell :: rest) then none
    else if isBlank c then scanSingle taken (gap.addBlank c) rest
    else if isBreak c then scanSingle taken (gap.addBreak c) rest
    else if c == '\'' then
      match rest with
      | ⟨'\'', _, _, _⟩ :: rest => scanSingle ('\'' :: gap.reversed ++ taken) .none rest
      | _ => some ⟨(gap.reversed ++ taken).reverse, false, rest⟩
    else scanSingle (c :: gap.reversed ++ taken) .none rest

/-- Where a double-quoted scalar stands: between characters, after a backslash, or inside the digits of a
code point. -/
inductive Escape where
  | none
  | started
  | hex (left value : Nat)

def simpleEscapes : List (Char × Char) :=
  [('0', '\x00'), ('a', '\x07'), ('b', '\x08'), ('t', '\t'), ('\t', '\t'), ('n', '\n'), ('v', '\x0b'),
   ('f', '\x0c'), ('r', '\r'), ('e', '\x1b'), (' ', ' '), ('"', '"'), ('/', '/'), ('\\', '\\'),
   ('N', '\u0085'), ('_', '\u00a0'), ('L', '\u2028'), ('P', '\u2029')]

/-- The number of hex digits that a letter announces. -/
def hexLengths : List (Char × Nat) := [('x', 2), ('u', 4), ('U', 8)]

def isScalarValue (n : Nat) : Bool := n < 0xD800 || (0xE000 ≤ n && n ≤ 0x10FFFF)

/-- Reads a double-quoted scalar after its opening quote. -/
def scanDouble (taken : List Char) (gap : Gap) (escape : Escape) : List Cell → Option Scanned
  | [] => none
  | cell :: rest =>
    let c := cell.char
    match escape with
    | .hex left value =>
      match Number.hexValue? c with
      | none => none
      | some digit =>
        let value := value * 16 + digit
        if left ≤ 1 then
          if isScalarValue value then scanDouble (Char.ofNat value :: taken) .none .none rest
          else none
        else scanDouble taken .none (.hex (left - 1) value) rest
    | .started =>
      if isBreak c then scanDouble taken (.breaks none []) .none rest
      else
        match simpleEscapes.lookup c, hexLengths.lookup c with
        | some plain, _ => scanDouble (plain :: taken) .none .none rest
        | none, some length => scanDouble taken .none (.hex length 0) rest
        | none, none => none
    | .none =>
      if c == finish || isDocumentMark (cell :: rest) then none
      else if isBlank c then scanDouble taken (gap.addBlank c) .none rest
      else if isBreak c then scanDouble taken (gap.addBreak c) .none rest
      else if c == '"' then some ⟨(gap.reversed ++ taken).reverse, false, rest⟩
      else if c == '\\' then scanDouble (gap.reversed ++ taken) .none .started rest
      else scanDouble (c :: gap.reversed ++ taken) .none .none rest

/-! ### What a plain scalar is -/

def nulls : List String := ["null", "Null", "NULL", "~"]

def trues : List String := ["true", "True", "TRUE"]

def falses : List String := ["false", "False", "FALSE"]

/-- Letters that announce a base after a zero. -/
def bases : List (Char × Nat) := [('x', 16), ('o', 8), ('b', 2)]

def digitIn? (base : Nat) (c : Char) : Option Nat := (Number.hexValue? c).filter (· < base)

/-- One or more digits of a base. -/
def digitsIn? (base : Nat) (cs : List Char) : Option Nat :=
  if cs.isEmpty then none
  else cs.foldl (fun n? c => do some (base * (← n?) + (← digitIn? base c))) (some 0)

/-- Digits with a leading zero are no number. -/
def isPadded (cs : List Char) : Bool :=
  match cs with
  | '0' :: _ :: _ => cs.all Char.isDigit
  | _ => false

/-- An unsigned number in one of the bases. -/
def unsignedIn? (cs : List Char) : Option Nat :=
  let based := match cs with
    | '0' :: letter :: ds => (bases.lookup letter).bind fun base => digitsIn? base ds
    | _ => none
  match based with
  | some n => some n
  | none => if isPadded cs then none else digitsIn? 10 cs

/-- An integer with an optional sign, of at most 128 bits. -/
def integer? (cs : List Char) : Option Int :=
  match cs with
  | '-' :: rest => ((unsignedIn? rest).filter (· ≤ Nat.pow 2 127)).map fun n => -(n : Int)
  | '+' :: rest => ((unsignedIn? rest).filter (· < Nat.pow 2 128)).map Int.ofNat
  | _ => ((unsignedIn? cs).filter (· < Nat.pow 2 128)).map Int.ofNat

/-- The power of ten after the digits of a decimal, zero if none is given. -/
def power? (cs : List Char) : Option Int :=
  match cs with
  | [] => some 0
  | c :: rest =>
    if c == 'e' || c == 'E' then
      match rest with
      | '-' :: ds => (Number.digits? ds).map fun n => -(n : Int)
      | '+' :: ds => (Number.digits? ds).map Int.ofNat
      | ds => (Number.digits? ds).map Int.ofNat
    else none

/-- A decimal without a sign: digits with an optional point among or around them, and a power of ten. -/
def decimal? (cs : List Char) : Option Number.Magnitude :=
  let whole := cs.takeWhile Char.isDigit
  let (fraction, rest) := match cs.dropWhile Char.isDigit with
    | '.' :: rest => (rest.takeWhile Char.isDigit, rest.dropWhile Char.isDigit)
    | rest => ([], rest)
  if (whole ++ fraction).isEmpty then none
  else (power? rest).bind fun power =>
    Number.Magnitude.nearest (Number.ofDigits (whole ++ fraction)) (power - fraction.length)

def infinities : List String := [".inf", ".Inf", ".INF"]

def nans : List String := [".nan", ".NaN", ".NAN"]

/-- The text of a number with a fraction or a power, or of one beyond all integers. -/
def floating? (cs : List Char) : Option String :=
  let (signed, negative, body) : Bool × Bool × List Char := match cs with
    | '-' :: body => (true, true, body)
    | '+' :: body => (true, false, body)
    | body => (false, false, body)
  if infinities.contains (String.ofList body) then some (if negative then "-inf" else "inf")
  else if !signed && nans.contains (String.ofList body) then some "NaN"
  else if isPadded body then none
  else (decimal? body).map fun m => String.ofList (Number.Binary64.plainText ⟨negative, m⟩)

/-- What a plain scalar is to a reader that wanted no text. -/
def foundPlain (text : String) : Found :=
  let cs := text.toList
  if cs.isEmpty || nulls.contains text then .unit
  else if trues.contains text then .bool true
  else if falses.contains text then .bool false
  else
    match integer? cs with
    | some i => if -Number.signedLimit ≤ i && i < Number.unsignedLimit then .integer i else .wideInteger i
    | none =>
      match floating? cs with
      | some text => .floating text
      | none => .string text

/-- What a scalar is to a reader that wanted no text. Between quotes everything is text. -/
def Scalar.found (s : Scalar) : Found := if s.plain then foundPlain s.text else .string s.text

end RowDirectives.Yaml
