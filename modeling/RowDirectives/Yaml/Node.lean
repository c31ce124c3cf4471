import RowDirectives.Yaml.Token

/-! The tree of a YAML text, as far as the text has one. Where the text breaks off or stops being YAML the
tree says so at that very place. Anchors, tags, directives and block scalars are not read. -/
namespace RowDirectives.Yaml

inductive Node where
  | scalar (value : Scalar)
  | list (items : List Node) (closed : Bool)
  | record (entries : List (Node × Node)) (closed : Bool)
  /-- The text has no document at all. -/
  | nothing
  | broken

namespace Node

/-- What stands where nothing is written. -/
def empty : Node := scalar ⟨"", true, false⟩

/-! ### Tokens before which a part may be missing -/

def blockPartEnds : List Token := [.key, .value, .closeBlock]

def blockItemEnds : List Token := [.entry, .closeBlock]

def flowKeyEnds (close : Token) : List Token := [.value, .comma, close]

def flowValueEnds (close : Token) : List Token := [.comma, close]

/-- A missing part. Where the text breaks off it cannot be told whether the part is missing. -/
def missing : List Token → Node × List Token
  | [] => (.broken, [])
  | .unreadable :: _ => (.broken, [])
  | rest => (empty, rest)

mutual

/-- The node at the head of the tokens and the tokens after it, none after a break. Block collections occur
inside blocks only, lists without indentation only as the parts of an entry. -/
def parse (block bare : Bool) : Nat → List Token → Node × List Token
  | 0, _ => (.broken, [])
  | _, [] => (.broken, [])
  | count + 1, token :: rest =>
    match token with
    | .scalar s => (.scalar s, rest)
    | .openList =>
      let (items, closed, rest) := flowItems true count rest
      (.list items closed, rest)
    | .openRecord =>
      let (entries, closed, rest) := flowEntries true count rest
      (.record entries closed, rest)
    | .openBlockList =>
      if block then
        let (items, closed, rest) := blockItems count rest
        (.list items closed, rest)
      else (.broken, [])
    | .openBlockRecord =>
      if block then
        let (entries, closed, rest) := blockEntries count rest
        (.record entries closed, rest)
      else (.broken, [])
    | .entry =>
      if bare then
        let (items, closed, rest) := bareItems count (.entry :: rest)
        (.list items closed, rest)
      else (.broken, [])
    | _ => (.broken, [])

/-- A part that may be missing before one of the tokens `ends`. -/
def part (block bare : Bool) (ends : List Token) : Nat → List Token → Node × List Token
  | 0, _ => (.broken, [])
  | _, [] => (.broken, [])
  | count + 1, token :: rest =>
    if ends.contains token then (empty, token :: rest) else parse block bare count (token :: rest)

/-- The value of an entry; without its mark the entry has none. -/
def valuePart (block : Bool) (ends : List Token) : Nat → List Token → Node × List Token
  | 0, _ => (.broken, [])
  | count + 1, .value :: rest => part block block ends count rest
  | _, rest => missing rest

/-- The items of an indented list. -/
def blockItems : Nat → List Token → List Node × Bool × List Token
  | count + 1, .entry :: rest =>
    let (item, rest) := part true false blockItemEnds count rest
    let (items, closed, rest) := blockItems count rest
    (item :: items, closed, rest)
  | _, .closeBlock :: rest => ([], true, rest)
  | _, _ => ([], false, [])

/-- The items of a list that stands no further right than the record around it. -/
def bareItems : Nat → List Token → List Node × Bool × List Token
  | count + 1, .entry :: rest =>
    let (item, rest) := part true false (blockPartEnds ++ blockItemEnds) count rest
    let (items, closed, rest) := bareItems count rest
    (item :: items, closed, rest)
  | _, [] => ([], false, [])
  | _, .unreadable :: _ => ([], false, [])
  | _, rest => ([], true, rest)

def blockEntries : Nat → List Token → List (Node × Node) × Bool × List Token
  | count + 1, .key :: rest =>
    let (name, rest) := part true true blockPartEnds count rest
    let (value, rest) := valuePart true blockPartEnds count rest
    let (entries, closed, rest) := blockEntries count rest
    ((name, value) :: entries, closed, rest)
  | _, .closeBlock :: rest => ([], true, rest)
  | _, _ => ([], false, [])

/-- The items of a list in brackets; each but the first follows a comma, and one comma may be left over.
An entry among them is a record of its own. -/
def flowItems (first : Bool) : Nat → List Token → List Node × Bool × List Token
  | _, .closeList :: rest => ([], true, rest)
  | count + 1, tokens =>
    let next := match first, tokens with
      | false, .comma :: rest => rest
      | false, _ => []
      | true, tokens => tokens
    match next with
    | .closeList :: rest => ([], true, rest)
    | .key :: rest =>
      let (name, rest) := part false false (flowKeyEnds .closeList) count rest
      let (value, rest) := valuePart false (flowValueEnds .closeList) count rest
      let (items, closed, rest) := flowItems false count rest
      (.record [(name, value)] true :: items, closed, rest)
    | [] => ([], false, [])
    | tokens =>
      let (item, rest) := parse false false count tokens
      let (items, closed, rest) := flowItems false count rest
      (item :: items, closed, rest)
  | _, _ => ([], false, [])

def flowEntries (first : Bool) : Nat → List Token → List (Node × Node) × Bool × List Token
  | _, .closeRecord :: rest => ([], true, rest)
  | count + 1, tokens =>
    let next := match first, tokens with
      | false, .comma :: rest => rest
      | false, _ => []
      | true, tokens => tokens
    match next with
    | .closeRecord :: rest => ([], true, rest)
    | .key :: rest =>
      let (name, rest) := part false false (flowKeyEnds .closeRecord) count rest
      let (value, rest) := valuePart false (flowValueEnds .closeRecord) count rest
      let (entries, closed, rest) := flowEntries false count rest
      ((name, value) :: entries, closed, rest)
    | [] => ([], false, [])
    | tokens =>
      let (name, rest) := parse false false count tokens
      let (value, rest) := missing rest
      let (entries, closed, rest) := flowEntries false count rest
      ((name, value) :: entries, closed, rest)
  | _, _ => ([], false, [])

end

/-- A document without any node in it holds the empty scalar. -/
def documentEnds : List Token := [.openDocument, .closeDocument, .finish]

/-- Whether nothing but the end follows a document. -/
def isLast : List Token → Bool
  | [.finish] => true
  | .closeDocument :: rest => isLast rest
  | _ => false

/-- The only document of a text, and whether the text ends after it. -/
def ofTokens (tokens : List Token) : Node × Bool :=
  let count := 3 * tokens.length + 3
  match tokens with
  | [.finish] => (.nothing, true)
  | .openDocument :: rest =>
    let (node, rest) := part true false documentEnds count rest
    (node, isLast rest)
  | tokens =>
    let (node, rest) := parse true false count tokens
    (node, isLast rest)

end Node
end RowDirectives.Yaml
