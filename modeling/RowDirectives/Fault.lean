/-! What can go wrong, from a directive that cannot be read to a column that is missing, and computations
in which it can. -/
namespace RowDirectives

inductive Fault where
  /-- A directive that does not match the grammar of its kind. -/
  | invalidDirective (message : String)
  /-- A field or a value of an unexpected type. -/
  | typeMismatch (message : String)
  /-- A field or column that does not exist. -/
  | notFound (name : String)
  | config (message : String)
  | io (text : String)
  | serialization (text : String)
  deriving DecidableEq, Repr

namespace Fault

def message : Fault → String
  | invalidDirective message => s!"invalid directive: {message}"
  | typeMismatch message => s!"type mismatch: {message}"
  | notFound name => s!"'{name}' not found"
  | config message => s!"config error: {message}"
  | io text => s!"io error: {text}"
  | serialization text => s!"serialization error: {text}"

def isInvalidDirective : Fault → Bool
  | invalidDirective _ => true
  | _ => false

def isTypeMismatch : Fault → Bool
  | typeMismatch _ => true
  | _ => false

def isNotFound : Fault → Bool
  | notFound _ => true
  | _ => false

end Fault

/-- A computation on a state that may fail. What it changed before a failure stays changed. -/
abbrev Step (σ : Type) := ExceptT Fault (StateM σ)

/-- The answer to a question that changes nothing. -/
def Step.ask {σ α : Type} (f : σ → Except Fault α) : Step σ α := fun s => (f s, s)

end RowDirectives
