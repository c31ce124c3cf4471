import RowDirectives.Stage.Basic
import RowDirectives.Stage.Host

/-! What a stage does to a schema and to a row. A mask checks the declared type and never changes it;
only `to-string` widens a schema. Null values are left alone by every stage but `rename`. -/
namespace RowDirectives

namespace Fault

def fieldNotText (column : String) (found : FieldType) : Fault :=
  .typeMismatch s!"Field {column} is supposed to be string, found {found.name}."

def valueNotText (column : String) : Fault :=
  .typeMismatch s!"Column {column} is supposed to have string value."

end Fault

namespace Mask

/-- The declared types that a mask accepts: only a substitution works on nullable strings. -/
def accepts : Mask → FieldType → Bool
  | range _ _, t => t.isString
  | substitution _ _ _, t => t.holdsText

end Mask

namespace Stage

def schemaStep {σ : Type} [SchemaHost σ] : Stage → Step σ Unit
  | rename source target => SchemaHost.renameField source target
  | toText column => ExceptT.lift (SchemaHost.setField ⟨column, .string⟩)
  | mask column m => do
    let field ← SchemaHost.getField column
    if m.accepts field.type then pure () else throw (.fieldNotText column field.type)

def rowStep {σ : Type} [RowHost σ] : Stage → Step σ Unit
  | rename source target => RowHost.renameColumn source target
  | toText column => do
    match (← RowHost.getColumn column).text? with
    | none => pure ()
    | some text => ExceptT.lift (RowHost.setColumn column (.string text))
  | mask column m => do
    match ← RowHost.getColumn column with
    | .null => pure ()
    | .string text =>
      match m.masked? text with
      | none => pure ()
      | some masked => ExceptT.lift (RowHost.setColumn column (.string masked))
    | _ => throw (.valueNotText column)

end Stage
end RowDirectives
