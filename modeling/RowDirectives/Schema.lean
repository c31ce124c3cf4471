import RowDirectives.Fault

/-! Ordered lists of typed fields. A union type holds a value of any one of its members; one of two members,
of which exactly one is null, makes the other nullable. A name may be declared more than once; a look-up then
finds the first, and no operation adds a repetition. -/
namespace RowDirectives

inductive FieldType where
  | null
  | boolean
  | int
  | long
  | float
  | double
  | bytes
  | string
  | union (members : List FieldType)

namespace FieldType

def nullable (inner : FieldType) : FieldType := union [inner, null]

def isNull : FieldType → Bool
  | null => true
  | _ => false

/-- Only the plain string type; a nullable string is not one. -/
def isString : FieldType → Bool
  | string => true
  | _ => false

/-- The other member of a union that makes it nullable. -/
def nonNull? : FieldType → Option FieldType
  | union [a, b] =>
    if a.isNull then (if b.isNull then none else some b)
    else if b.isNull then some a
    else none
  | _ => none

/-- A string, or a string that may be null. -/
def holdsText (t : FieldType) : Bool :=
  t.isString || t.nonNull?.any isString

mutual

def name : FieldType → String
  | null => "null"
  | boolean => "boolean"
  | int => "int"
  | long => "long"
  | float => "float"
  | double => "double"
  | bytes => "bytes"
  | string => "string"
  | union members => "union[" ++ ", ".intercalate (memberNames members) ++ "]"

def memberNames : List FieldType → List String
  | [] => []
  | member :: rest => name member :: memberNames rest

end
end FieldType

structure Field where
  name : String
  type : FieldType

structure Schema where
  fields : List Field

namespace Schema

def empty : Schema := ⟨[]⟩

def size (s : Schema) : Nat := s.fields.length

def isEmpty (s : Schema) : Bool := s.fields.isEmpty

def find? (s : Schema) (name : String) : Option Field :=
  s.fields.find? (·.name == name)

/-- The place of the first field of a name. -/
def position? (s : Schema) (name : String) : Option Nat :=
  s.fields.findIdx? (·.name == name)

def getField (s : Schema) (name : String) : Except Fault Field :=
  match s.find? name with
  | some field => .ok field
  | none => .error (.notFound name)

/-- Replaces the first element that satisfies `p`. -/
def updateFirst {α : Type} (p : α → Bool) (f : α → α) : List α → List α
  | [] => []
  | a :: rest => if p a then f a :: rest else a :: updateFirst p f rest

/-- Replaces the first field of the same name, or adds the field at the end. -/
def setField (s : Schema) (field : Field) : Schema :=
  if s.fields.any (·.name == field.name) then
    ⟨updateFirst (·.name == field.name) (fun _ => field) s.fields⟩
  else ⟨s.fields ++ [field]⟩

/-- The fields that a renaming keeps: all but those that have the new name already. -/
def kept (s : Schema) (source target : String) : List Field :=
  if source = target then s.fields else s.fields.filter (·.name != target)

/-- Gives the first field of a name another name, in its place. -/
def relabel (source target : String) : Step Schema Unit := do
  match (← get).position? source with
  | some index =>
    modify fun s => ⟨s.fields.modify index fun field => { field with name := target }⟩
  | none => throw (.notFound source)

/-- Gives a field a new name in its place. Fields that had the new name before are gone, and the place of the
field is looked for again among those that are left. -/
def renameField (source target : String) : Step Schema Unit := do
  if ((← get).position? source).isNone then throw (.notFound source)
  modify fun s => ⟨s.kept source target⟩
  relabel source target

/-- The schema that declares the fields one after the other, a repeated one over the earlier. -/
def declare (fields : List Field) : Schema := fields.foldl setField empty

end Schema
end RowDirectives
