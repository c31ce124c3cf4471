import RowDirectives.Fault
import RowDirectives.Json.Basic

/-! Rows: named columns that hold JSON values. A null value stands for a missing one. -/
namespace RowDirectives

structure Row where
  columns : Dict Json

namespace Row

def empty : Row := ⟨Dict.empty⟩

/-- Only an object is a row. -/
def ofJson : Json → Except Fault Row
  | .object members => .ok ⟨Dict.ofList members⟩
  | v => .error (.typeMismatch s!"row must be a JSON object, got {v.render}")

def toJson (row : Row) : Json := .object row.columns.entries

def names (row : Row) : List String := row.columns.names

def getColumn (row : Row) (name : String) : Except Fault Json :=
  match row.columns.get? name with
  | some value => .ok value
  | none => .error (.notFound name)

def setColumn (row : Row) (name : String) (value : Json) : Row :=
  ⟨row.columns.insert name value⟩

/-- Takes a column out of the row, and tells its value if there was one. -/
def takeColumn (name : String) : StateM Row (Option Json) := do
  let row ← get
  set (Row.mk (row.columns.erase name))
  return row.columns.get? name

/-- Moves a value to another name, over the value that is there. The column is taken out before it is known
whether there was one. -/
def renameColumn (source target : String) : Step Row Unit := do
  match ← takeColumn source with
  | some value => modify (·.setColumn target value)
  | none => throw (.notFound source)

end Row
end RowDirectives
