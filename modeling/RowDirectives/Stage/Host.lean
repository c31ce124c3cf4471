import RowDirectives.Row
import RowDirectives.Schema

/-! What a stage may ask of the schema and the rows it works on, and nothing else. A host is any state
that answers these requests; an answer may change the state, and a failure leaves a state too. -/
namespace RowDirectives

class SchemaHost (σ : Type) where
  getField : String → Step σ Field
  setField : Field → StateM σ Unit
  renameField : String → String → Step σ Unit

class RowHost (σ : Type) where
  getColumn : String → Step σ Json
  setColumn : String → Json → StateM σ Unit
  renameColumn : String → String → Step σ Unit

instance : SchemaHost Schema where
  getField name := Step.ask (·.getField name)
  setField field := modify (·.setField field)
  renameField := Schema.renameField

instance : RowHost Row where
  getColumn name := Step.ask (·.getColumn name)
  setColumn name value := modify (·.setColumn name value)
  renameColumn := Row.renameColumn

/-- A request to a schema, as it was made. -/
inductive SchemaCall where
  | getField (name : String)
  | setField (field : Field)
  | renameField (source target : String)

inductive RowCall where
  | getColumn (name : String)
  | setColumn (name : String) (value : Json)
  | renameColumn (source target : String)

/-- A host that also keeps the requests made to it, in order, failed ones too. -/
structure Recorded (σ κ : Type) where
  host : σ
  calls : List κ

namespace Recorded

/-- Notes a request and passes it on. -/
def passing {σ κ α : Type} (call : κ) (act : StateM σ α) : StateM (Recorded σ κ) α := fun s =>
  let (answer, host) := act s.host
  (answer, ⟨host, s.calls ++ [call]⟩)

end Recorded

instance {σ : Type} [SchemaHost σ] : SchemaHost (Recorded σ SchemaCall) where
  getField name := Recorded.passing (.getField name) (SchemaHost.getField name).run
  setField field := Recorded.passing (.setField field) (SchemaHost.setField field)
  renameField source target :=
    Recorded.passing (.renameField source target) (SchemaHost.renameField source target).run

instance {σ : Type} [RowHost σ] : RowHost (Recorded σ RowCall) where
  getColumn name := Recorded.passing (.getColumn name) (RowHost.getColumn name).run
  setColumn name value := Recorded.passing (.setColumn name value) (RowHost.setColumn name value)
  renameColumn source target :=
    Recorded.passing (.renameColumn source target) (RowHost.renameColumn source target).run

end RowDirectives
