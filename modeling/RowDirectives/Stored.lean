import RowDirectives.Json.Decode
import RowDirectives.Registry
import RowDirectives.Row
import RowDirectives.Schema

/-! The JSON forms in which values are stored. A fault is a record whose only name is its kind: three kinds
and the missing name hold a record of their text, the two others the text itself. A plain type is its name, a
union a record of its members, a field a record of its name and its type, and a row the object of its columns.
Kinds of stages, mask revisions and sides are stored as their names. -/
namespace RowDirectives
open Json

namespace Fault

def withText (kind field text : String) : Json :=
  .object [(kind, .object [(field, .string text)])]

def toJson : Fault → Json
  | invalidDirective message => withText "InvalidDirective" "message" message
  | typeMismatch message => withText "TypeMismatch" "message" message
  | notFound name => withText "NotFound" "name" name
  | config message => withText "Config" "message" message
  | io text => .object [("Io", .string text)]
  | serialization text => .object [("Serde", .string text)]

/-- How the text of a kind of fault is stored: under a name, or bare. -/
inductive Body where
  | named (title field : String)
  | bare

def alternatives : List (String × Body × (String → Fault)) :=
  [("InvalidDirective", .named "struct variant ZiError::InvalidDirective" "message", invalidDirective),
   ("TypeMismatch", .named "struct variant ZiError::TypeMismatch" "message", typeMismatch),
   ("NotFound", .named "struct variant ZiError::NotFound" "name", notFound),
   ("Config", .named "struct variant ZiError::Config" "message", config),
   ("Io", .bare, io),
   ("Serde", .bare, serialization)]

def textOf (room : Nat) : Body → Option Tree → Except Mismatch String
  | .named title field, some content => Tree.single room title field Tree.text content
  | .named _ _, none => .error (.wrongType .unitVariant "struct variant")
  | .bare, some content => content.text
  | .bare, none => .error (.wrongType .unitVariant "newtype variant")

def ofTree (room : Nat) : Tree → Except Mismatch Fault :=
  Tree.variantOf room (Tree.chooseFrom alternatives) fun (body, build) content =>
    (textOf (room - 1) body content).map build

def read (text : String) : Except Mismatch Fault := Tree.decode (ofTree depthLimit) text

end Fault

namespace FieldType

mutual

def toJson : FieldType → Json
  | union members => .object [("union", .array (toJsonAll members))]
  | t => .string t.name

def toJsonAll : List FieldType → List Json
  | [] => []
  | member :: rest => toJson member :: toJsonAll rest

end

/-- The names of the plain types, and of the union, which alone has a content. -/
def alternatives : List (String × Option FieldType) :=
  [("null", some null), ("boolean", some boolean), ("int", some int), ("long", some long),
   ("float", some float), ("double", some double), ("bytes", some bytes), ("string", some string),
   ("union", none)]

/-- Reads the content of an alternative; `member` reads the members of a union. -/
def ofContent (room : Nat) (member : Tree → Except Mismatch FieldType) :
    Option FieldType → Option Tree → Except Mismatch FieldType
  | some plain, content => (Tree.noContent content).map fun _ => plain
  | none, some content => (Tree.listOf room member content).map union
  | none, none => .error (.wrongType .unitVariant "newtype variant")

/-- A union opens two brackets, so no more than every other step has members to read. -/
def ofTree : Nat → Tree → Except Mismatch FieldType
  | room + 2 =>
    Tree.variantOf (room + 2) (Tree.chooseFrom alternatives) (ofContent (room + 1) (ofTree room))
  | room =>
    Tree.variantOf room (Tree.chooseFrom alternatives) (ofContent 0 fun _ => .error .malformed)

def read (text : String) : Except Mismatch FieldType := Tree.decode (ofTree depthLimit) text

end FieldType

namespace Field

def toJson (field : Field) : Json :=
  .object [("name", .string field.name), ("type", field.type.toJson)]

/-- The parts of a field that have been read so far. -/
structure Parts where
  name? : Option String
  type? : Option FieldType

def entry (room : Nat) (parts : Parts) (name : String) (tree : Tree) : Except Mismatch Parts :=
  if name = "name" then
    if parts.name?.isSome then .error (.duplicateField "name")
    else tree.text.map fun text => { parts with name? := some text }
  else if name = "type" then
    if parts.type?.isSome then .error (.duplicateField "type")
    else (FieldType.ofTree room tree).map fun type => { parts with type? := some type }
  else tree.skip.map fun _ => parts

def ofParts : Parts → Except Mismatch Field
  | ⟨none, _⟩ => .error (.missingField "name")
  | ⟨some _, none⟩ => .error (.missingField "type")
  | ⟨some name, some type⟩ => .ok ⟨name, type⟩

/-- A field may also be a list of its name and its type. -/
def ofTree : Nat → Tree → Except Mismatch Field
  | 0, .list _ _ => .error .malformed
  | 0, .record _ _ => .error .malformed
  | room + 1, .list items closed =>
    match items with
    | [] => .error (.wrongLength 0 "struct ZiField with 2 elements")
    | [name] => do
      let _ ← name.text
      if closed then .error (.wrongLength 1 "struct ZiField with 2 elements") else .error .malformed
    | name :: type :: others => do
      let name ← name.text
      let type ← FieldType.ofTree room type
      if others.isEmpty && closed then .ok ⟨name, type⟩ else .error .malformed
  | room + 1, .record entries closed => do
    let parts ← Tree.entriesInto (entry room) ⟨none, none⟩ entries
    if closed then ofParts parts else .error .malformed
  | _, tree => .error (tree.refuse "struct ZiField")

def read (text : String) : Except Mismatch Field := Tree.decode (ofTree depthLimit) text

end Field

namespace Schema

def toJson (schema : Schema) : Json :=
  .object [("fields", .array (schema.fields.map Field.toJson))]

def fieldsOfTree (room : Nat) : Tree → Except Mismatch (List Field) :=
  Tree.listOf room (Field.ofTree (room - 1))

def ofTree (room : Nat) (tree : Tree) : Except Mismatch Schema :=
  (Tree.single room "struct ZiSchema" "fields" (fieldsOfTree (room - 1)) tree).map Schema.mk

def read (text : String) : Except Mismatch Schema := Tree.decode (ofTree depthLimit) text

/-- Reads a bare list of fields. -/
def readFields (text : String) : Except Mismatch (List Field) :=
  Tree.decode (fieldsOfTree depthLimit) text

end Schema

namespace Row

def ofTree (room : Nat) (tree : Tree) : Except Mismatch Row :=
  match tree with
  | .record _ _ => do
    match ← Json.ofTree room tree with
    | .object members => .ok ⟨Dict.ofList members⟩
    | _ => .error .malformed
  | _ => .error (tree.refuse "a map")

def read (text : String) : Except Mismatch Row := Tree.decode (ofTree depthLimit) text

end Row

namespace Kind

def alternatives : List (String × Kind) :=
  [("rename", rename), ("to_string", toText), ("mask_range", maskRange),
   ("mask_substitution", maskSubstitution)]

def storedName : Kind → String
  | rename => "rename"
  | toText => "to_string"
  | maskRange => "mask_range"
  | maskSubstitution => "mask_substitution"

def ofText (text : String) : Except Mismatch Kind :=
  Tree.decode (Tree.nameAmong alternatives) text

end Kind

namespace MaskGrammar

def alternatives : List (String × MaskGrammar) :=
  [("substitution", substitution), ("range", range)]

def storedName : MaskGrammar → String
  | substitution => "substitution"
  | range => "range"

def ofText (text : String) : Except Mismatch MaskGrammar :=
  Tree.decode (Tree.nameAmong alternatives) text

end MaskGrammar

namespace Side

def alternatives : List (String × Side) := [("left", left), ("right", right)]

def ofText (text : String) : Except Mismatch Side :=
  Tree.decode (Tree.nameAmong alternatives) text

end Side
end RowDirectives
