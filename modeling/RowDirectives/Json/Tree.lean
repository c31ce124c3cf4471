import RowDirectives.Json.Token

/-! The tree of a JSON text, as far as the text has one. Where the text breaks off or stops being JSON the
tree says so at that very place, so a reader that walks the tree in the order of the text meets the
first problem first, whether it is a wrong type or a syntax error. -/
namespace RowDirectives.Json

inductive Tree where
  | null
  | bool (value : Bool)
  | number (value : Option Numeral)
  | string (value : Option String)
  | list (items : List Tree) (closed : Bool)
  | record (entries : List (Option String × Tree)) (closed : Bool)
  | broken

mutual

/-- The value at the head of the tokens, and the tokens after it: none after a break. -/
def parseValue : Nat → List Token → Tree × List Token
  | 0, _ => (.broken, [])
  | _, [] => (.broken, [])
  | count + 1, token :: rest =>
    match token with
    | .null => (.null, rest)
    | .bool b => (.bool b, rest)
    | .number n => (.number n, rest)
    | .string s => (.string s, rest)
    | .openList =>
      match rest with
      | .closeList :: rest => (.list [] true, rest)
      | _ =>
        let (items, closed, rest) := parseItems count rest
        (.list items closed, rest)
    | .openRecord =>
      match rest with
      | .closeRecord :: rest => (.record [] true, rest)
      | _ =>
        let (entries, closed, rest) := parseEntries count rest
        (.record entries closed, rest)
    | _ => (.broken, [])

/-- One item or more, up to the closing bracket. -/
def parseItems : Nat → List Token → List Tree × Bool × List Token
  | 0, _ => ([], false, [])
  | count + 1, tokens =>
    let (item, rest) := parseValue count tokens
    match rest with
    | .comma :: rest =>
      let (items, closed, rest) := parseItems count rest
      (item :: items, closed, rest)
    | .closeList :: rest => ([item], true, rest)
    | _ => ([item], false, [])

/-- One entry or more, up to the closing brace. -/
def parseEntries : Nat → List Token → List (Option String × Tree) × Bool × List Token
  | 0, _ => ([], false, [])
  | count + 1, tokens =>
    match tokens with
    | .string name :: .colon :: rest =>
      let (value, rest) := parseValue count rest
      match rest with
      | .comma :: rest =>
        let (entries, closed, rest) := parseEntries count rest
        ((name, value) :: entries, closed, rest)
      | .closeRecord :: rest => ([(name, value)], true, rest)
      | _ => ([(name, value)], false, [])
    | .string name :: _ => ([(name, .broken)], false, [])
    | _ => ([], false, [])

end

/-- The tree of a token row, and what follows it. Each step takes a token or enters a list that does. -/
def parse (tokens : List Token) : Tree × List Token :=
  parseValue (2 * tokens.length + 1) tokens

namespace Tree

mutual

/-- Whether the text of a value is complete. Nothing else is asked of a value that is skipped. -/
def complete : Tree → Bool
  | list items closed => completeItems items && closed
  | record entries closed => completeEntries entries && closed
  | broken => false
  | _ => true

def completeItems : List Tree → Bool
  | [] => true
  | item :: rest => complete item && completeItems rest

def completeEntries : List (Option String × Tree) → Bool
  | [] => true
  | (_, value) :: rest => complete value && completeEntries rest

end
end Tree
end RowDirectives.Json
