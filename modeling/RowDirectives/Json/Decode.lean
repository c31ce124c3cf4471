import RowDirectives.Json.Tree
import RowDirectives.Mismatch

/-! Reading typed values off a tree. Each reader walks the tree in the order of its text and stops at the
first mismatch. `room` is the number of brackets that may still be opened. -/
namespace RowDirectives.Json

/-- The number of brackets that may be open at once. -/
def depthLimit : Nat := 127

namespace Tree

/-- What a tree is to a reader that wanted something else; nothing where the text cannot be read. -/
def found? : Tree → Option Found
  | null => some .null
  | bool b => some (.bool b)
  | number n => n.map fun
    | .int i => .integer i
    | .double x => .floating (String.ofList x.text)
  | string s => s.map .string
  | list _ _ => some .sequence
  | record _ _ => some .map
  | broken => none

def refuse (tree : Tree) (expected : String) : Mismatch :=
  match tree.found? with
  | some found => .wrongType found expected
  | none => .malformed

def text : Tree → Except Mismatch String
  | string (some s) => .ok s
  | tree => .error (tree.refuse "a string")

def unit : Tree → Except Mismatch Unit
  | null => .ok ()
  | tree => .error (tree.refuse "unit")

def skip (tree : Tree) : Except Mismatch Unit :=
  if tree.complete then .ok () else .error .malformed

/-- A list of values. -/
def listOf {α : Type} (room : Nat) (item : Tree → Except Mismatch α) :
    Tree → Except Mismatch (List α)
  | list items closed =>
    if room = 0 then .error .malformed
    else do
      let values ← items.mapM item
      if closed then .ok values else .error .malformed
  | tree => .error (tree.refuse "a sequence")

/-- A name that can be read. -/
def nameOf : Option String → Except Mismatch String
  | some name => .ok name
  | none => .error .malformed

/-- Reads the entries of a record one after the other into `state`. -/
def entriesInto {σ : Type} (entry : σ → String → Tree → Except Mismatch σ) (state : σ) :
    List (Option String × Tree) → Except Mismatch σ
  | [] => .ok state
  | (name?, value) :: rest => do
    let name ← nameOf name?
    entriesInto entry (← entry state name value) rest

/-- A record with one known entry, or a list of its value alone. Other entries are skipped. -/
def single {α : Type} (room : Nat) (title field : String) (reader : Tree → Except Mismatch α) :
    Tree → Except Mismatch α
  | list items closed =>
    if room = 0 then .error .malformed
    else
      match items with
      | [] => .error (.wrongLength 0 s!"{title} with 1 element")
      | item :: others => do
        let value ← reader item
        if others.isEmpty && closed then .ok value else .error .malformed
  | record entries closed =>
    if room = 0 then .error .malformed
    else do
      match ← entriesInto (entry reader) none entries, closed with
      | _, false => .error .malformed
      | some value, true => .ok value
      | none, true => .error (.missingField field)
  | tree => .error (tree.refuse title)
where
  entry (reader : Tree → Except Mismatch α) (value? : Option α) (name : String) (tree : Tree) :
      Except Mismatch (Option α) :=
    if name = field then
      if value?.isSome then .error (.duplicateField field) else (reader tree).map some
    else (skip tree).map fun _ => value?

/-- One of several alternatives, written as its bare name or as a record of its name and its content.
`choose` sees the name before the content is looked at. -/
def variantOf {κ α : Type} (room : Nat) (choose : String → Except Mismatch κ)
    (build : κ → Option Tree → Except Mismatch α) : Tree → Except Mismatch α
  | string (some name) => do build (← choose name) none
  | record entries closed =>
    if room = 0 then .error .malformed
    else
      match entries with
      | (name?, content) :: others => do
        let name ← nameOf name?
        let value ← build (← choose name) (some content)
        if others.isEmpty && closed then .ok value else .error .malformed
      | [] => .error .malformed
  | _ => .error .malformed

/-- Finds the alternative of a name. -/
def chooseFrom {κ : Type} (known : List (String × κ)) (name : String) : Except Mismatch κ :=
  match Entries.find? name known with
  | some choice => .ok choice
  | none => .error (.unknownVariant name (known.map Prod.fst))

/-- The content of an alternative without any: nothing, or null. -/
def noContent : Option Tree → Except Mismatch Unit
  | none => .ok ()
  | some tree => tree.unit

/-- Reads one of several bare names. -/
def nameAmong {κ : Type} (known : List (String × κ)) (tree : Tree) : Except Mismatch κ :=
  tree.variantOf depthLimit (chooseFrom known) fun choice content => do
    noContent content
    .ok choice

/-- Reads a whole text with `reader`; nothing but blanks may follow the value. -/
def decode {α : Type} (reader : Tree → Except Mismatch α) (text : String) : Except Mismatch α := do
  let (tree, rest) := parse (lex text.toList)
  let value ← reader tree
  if rest.isEmpty then .ok value else .error .malformed

end Tree

/-- A value of any kind. -/
def ofTree : Nat → Tree → Except Mismatch Json
  | _, .null => .ok .null
  | _, .bool b => .ok (.bool b)
  | _, .number (some (.int i)) => .ok (.int i)
  | _, .number (some (.double x)) => .ok (.double x)
  | _, .string (some s) => .ok (.string s)
  | room + 1, .list items closed => do
    let values ← items.mapM (ofTree room)
    if closed then .ok (.array values) else .error .malformed
  | room + 1, .record entries closed => do
    let members ← entries.mapM fun (name?, tree) => do
      let name ← Tree.nameOf name?
      let value ← ofTree room tree
      pure (name, value)
    if closed then .ok (ofMembers members) else .error .malformed
  | _, _ => .error .malformed

def read (text : String) : Except Mismatch Json := Tree.decode (ofTree depthLimit) text

end RowDirectives.Json
