import RowDirectives.Dict
import RowDirectives.Number.Shortest

/-! JSON values and their compact text. Integers and doubles are different values, whatever they
weigh: `1` and `1.0` have different texts. -/
namespace RowDirectives

/-- The members of an object stand in ascending order of their names, each name once. -/
inductive Json where
  | null
  | bool (value : Bool)
  | int (value : Int)
  | double (value : Number.Binary64)
  | string (value : String)
  | array (items : List Json)
  | object (members : List (String × Json))

namespace Json

/-- Integers outside these bounds are read as doubles. -/
def leastInt : Int := -Number.signedLimit

def greatestInt : Int := Number.unsignedLimit - 1

/-- Arranges members as an object keeps them, a later value over an earlier one of the same name. -/
def ofMembers (members : List (String × Json)) : Json := object (Entries.ofList members)

/-- How a character is written between quotes. -/
def escape (c : Char) : List Char :=
  match c with
  | '"' => ['\\', '"']
  | '\\' => ['\\', '\\']
  | '\x08' => ['\\', 'b']
  | '\x0c' => ['\\', 'f']
  | '\n' => ['\\', 'n']
  | '\r' => ['\\', 'r']
  | '\t' => ['\\', 't']
  | _ =>
    if c.toNat < 0x20 then
      ['\\', 'u', '0', '0', Nat.digitChar (c.toNat / 16), Nat.digitChar (c.toNat % 16)]
    else [c]

def quote (s : String) : List Char := '"' :: s.toList.flatMap escape ++ ['"']

mutual

/-- The text without any blanks. -/
def chars : Json → List Char
  | null => ['n', 'u', 'l', 'l']
  | bool true => ['t', 'r', 'u', 'e']
  | bool false => ['f', 'a', 'l', 's', 'e']
  | int i => Number.signedDigits i
  | double x => x.text
  | string s => quote s
  | array items => '[' :: itemChars items ++ [']']
  | object members => '{' :: memberChars members ++ ['}']

def itemChars : List Json → List Char
  | [] => []
  | [item] => chars item
  | item :: rest => chars item ++ ',' :: itemChars rest

def memberChars : List (String × Json) → List Char
  | [] => []
  | [(name, value)] => quote name ++ ':' :: chars value
  | (name, value) :: rest => quote name ++ ':' :: chars value ++ ',' :: memberChars rest

end

def render (v : Json) : String := String.ofList v.chars

/-- The text a value stands for when it is made a string: a string is its own text, null has none. -/
def text? : Json → Option String
  | null => none
  | string s => some s
  | v => some v.render

end Json
end RowDirectives
