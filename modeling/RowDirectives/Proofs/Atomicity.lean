import RowDirectives.Proofs.Masking
import RowDirectives.Proofs.Renaming

/-! A stage changes a schema or a row as a whole or not at all: it makes one request before it fails, and
neither a question nor a renaming that is refused leaves a change behind. What a stage does is then a function
from one state to the next or to a fault, and every statement about pipelines is made about that function. A
stage other than a rename rewrites the value of one column, and reads no other. -/
namespace RowDirectives

namespace Json

/-- The value as a text; null has none and stays what it is. -/
def asText (value : Json) : Json :=
  match value.text? with
  | none => value
  | some text => .string text

theorem asText_textOrNull (value : Json) : value.asText.TextOrNull := by
  unfold asText TextOrNull
  cases value <;> simp [text?]

end Json

namespace Row

/-- Puts in place of the value of a column what is made of it. -/
def rewrite (row : Row) (column : String) (f : Json → Except Fault Json) : Except Fault Row :=
  (row.getColumn column).bind fun value => (f value).map (row.setColumn column)

theorem rewrite_of_value {row : Row} {column : String} {value : Json}
    (h : row.columns.get? column = some value) (f : Json → Except Fault Json) :
    row.rewrite column f = (f value).map (row.setColumn column) := by
  rw [rewrite, getColumn_eq_ok.mpr h]
  rfl

theorem rewrite_of_none {row : Row} {column : String} (h : row.columns.get? column = none)
    (f : Json → Except Fault Json) : row.rewrite column f = .error (.notFound column) := by
  rw [rewrite, getColumn_eq_error.mpr ⟨h, rfl⟩]
  rfl

theorem rewrite_eq_ok {row row' : Row} {column : String} {f : Json → Except Fault Json} :
    row.rewrite column f = .ok row' ↔ ∃ value value', row.columns.get? column = some value ∧
      f value = .ok value' ∧ row' = row.setColumn column value' := by
  cases hget : row.columns.get? column with
  | none => simp [rewrite_of_none hget]
  | some value =>
    rw [rewrite_of_value hget]
    cases hf : f value <;> simp [Except.map, hf, eq_comm]

theorem rewrite_eq_error {row : Row} {column : String} {f : Json → Except Fault Json}
    {fault : Fault} :
    row.rewrite column f = .error fault ↔
      row.columns.get? column = none ∧ fault = .notFound column ∨
        ∃ value, row.columns.get? column = some value ∧ f value = .error fault := by
  cases hget : row.columns.get? column with
  | none => simp [rewrite_of_none hget, @eq_comm _ fault]
  | some value =>
    rw [rewrite_of_value hget]
    cases hf : f value <;> simp [Except.map, hf]

theorem rewrite_setColumn (row : Row) {column other : String} (h : column ≠ other) (value : Json)
    (f : Json → Except Fault Json) :
    (row.setColumn other value).rewrite column f =
      (row.rewrite column f).map (·.setColumn other value) := by
  cases hget : row.columns.get? column with
  | none =>
    have : (row.setColumn other value).columns.get? column = none := by simp [h, hget]
    rw [rewrite_of_none this, rewrite_of_none hget]
    rfl
  | some old =>
    have : (row.setColumn other value).columns.get? column = some old := by simp [h, hget]
    rw [rewrite_of_value this, rewrite_of_value hget]
    cases f old with
    | error fault => rfl
    | ok new => exact congrArg Except.ok (setColumn_comm row value new (Ne.symm h))

/-- A question for a column rewrites it, if what follows the answer puts a new value in its place. -/
theorem exec_ask_getColumn_bind {row : Row} {column : String} {next : Json → Step Row Unit}
    {f : Json → Except Fault Json}
    (h : ∀ value, row.columns.get? column = some value →
      (next value).exec row = (f value).map (row.setColumn column)) :
    (Step.ask (·.getColumn column) >>= next).exec row = row.rewrite column f := by
  rw [Step.exec_ask_bind]
  cases hget : row.columns.get? column with
  | none =>
    rw [getColumn_eq_error.mpr ⟨hget, rfl⟩, rewrite_of_none hget]
    rfl
  | some value =>
    rw [getColumn_eq_ok.mpr hget, rewrite_of_value hget]
    exact h value hget

end Row

namespace Stage

def onSchema (stage : Stage) (schema : Schema) : Except Fault Schema :=
  (stage.schemaStep : Step Schema Unit).exec schema

def onRow (stage : Stage) (row : Row) : Except Fault Row :=
  (stage.rowStep : Step Row Unit).exec row

theorem atomic_schemaStep (stage : Stage) : (stage.schemaStep : Step Schema Unit).Atomic :=
  atomic_schemaStep_of_host (fun _ _ => rfl) Schema.atomic_renameField stage

theorem atomic_rowStep (stage : Stage) : (stage.rowStep : Step Row Unit).Atomic :=
  atomic_rowStep_of_host (fun _ _ => rfl) Row.atomic_renameColumn stage

section Equations

variable (source target column : String) (m : Mask) (schema : Schema) (row : Row)

theorem onSchema_rename :
    (rename source target).onSchema schema = (Schema.renameField source target).exec schema := rfl

theorem onSchema_toText :
    (toText column).onSchema schema = .ok (schema.setField ⟨column, .string⟩) := rfl

theorem onSchema_toText_eq_ok {column : String} {schema schema' : Schema} :
    (toText column).onSchema schema = .ok schema' ↔ schema' = schema.setField ⟨column, .string⟩ := by
  rw [onSchema_toText, Except.ok.injEq, eq_comm]

theorem onSchema_mask :
    (mask column m).onSchema schema = (schema.getField column).bind fun field =>
      if m.accepts field.type then .ok schema
      else .error (.fieldNotText column field.type) := by
  refine (Step.exec_ask_bind _ _ schema).trans (congrArg _ (funext fun field => ?_))
  by_cases h : m.accepts field.type = true
  · simp only [h, if_true]
    rfl
  · simp only [h]
    rfl

theorem onSchema_mask_eq_ok {column : String} {m : Mask} {schema schema' : Schema} :
    (mask column m).onSchema schema = .ok schema' ↔
      schema' = schema ∧ ∃ field, schema.find? column = some field ∧ m.accepts field.type = true := by
  rw [onSchema_mask]
  cases hfind : schema.find? column with
  | none => simp [Schema.getField_eq_error.mpr ⟨hfind, rfl⟩, Except.bind]
  | some field =>
    rw [Schema.getField_eq_ok.mpr hfind]
    by_cases haccepts : m.accepts field.type = true
    · simpa [Except.bind, haccepts] using eq_comm
    · simp [Except.bind, haccepts]

theorem onSchema_mask_eq_error {column : String} {m : Mask} {schema : Schema} {fault : Fault} :
    (mask column m).onSchema schema = .error fault ↔
      schema.find? column = none ∧ fault = .notFound column ∨
        ∃ field, schema.find? column = some field ∧ m.accepts field.type = false ∧
          fault = .fieldNotText column field.type := by
  rw [onSchema_mask]
  cases hfind : schema.find? column with
  | none => simp [Schema.getField_eq_error.mpr ⟨hfind, rfl⟩, Except.bind, @eq_comm _ fault]
  | some field =>
    rw [Schema.getField_eq_ok.mpr hfind]
    cases haccepts : m.accepts field.type <;> simp [Except.bind, haccepts, @eq_comm _ fault]

theorem onRow_rename :
    (rename source target).onRow row = (Row.renameColumn source target).exec row := rfl

theorem onRow_toText :
    (toText column).onRow row = row.rewrite column fun value => .ok value.asText := by
  apply Row.exec_ask_getColumn_bind
  intro value h
  rw [Json.asText]
  cases value.text? with
  | none =>
    simp only [Except.map, Row.setColumn_eq_self h]
    rfl
  | some text => rfl

theorem onRow_mask :
    (mask column m).onRow row = row.rewrite column (m.rewrite column) := by
  apply Row.exec_ask_getColumn_bind
  intro value h
  cases value with
  | null =>
    simp only [Mask.rewrite, Except.map, Row.setColumn_eq_self h]
    rfl
  | string text =>
    cases hmask : m.masked? text with
    | none =>
      simp only [Mask.rewrite, Mask.applied, hmask, Except.map, Option.getD_none,
        Row.setColumn_eq_self h]
      rfl
    | some masked =>
      simp only [Mask.rewrite, Mask.applied, hmask, Except.map, Option.getD_some]
      rfl
  | _ => rfl

end Equations

def onValue : Stage → Json → Except Fault Json
  | rename _ _, value => .ok value
  | toText _, value => .ok value.asText
  | mask column m, value => m.rewrite column value

theorem onRow_eq_rewrite {stage : Stage} (plain : stage.kind ≠ .rename) (row : Row) :
    stage.onRow row = row.rewrite stage.column stage.onValue := by
  cases stage with
  | rename source target => exact absurd rfl plain
  | toText column => exact onRow_toText column row
  | mask column m => exact onRow_mask column m row

theorem textOrNull_of_onValue {stage : Stage} (plain : stage.kind ≠ .rename) {value value' : Json}
    (h : stage.onValue value = .ok value') : value'.TextOrNull := by
  cases stage with
  | rename source target => exact absurd rfl plain
  | toText column => exact Except.ok.inj h ▸ value.asText_textOrNull
  | mask column m =>
    obtain ⟨value'', hvalue, htext⟩ := m.rewrite_of_textOrNull column (Mask.textOrNull_of_rewrite h)
    rw [onValue, hvalue] at h
    exact Except.ok.inj h ▸ htext

/-- The names that a stage mentions. -/
def names : Stage → List String
  | rename source target => [source, target]
  | toText column => [column]
  | mask column _ => [column]

theorem names_of_plain {stage : Stage} (plain : stage.kind ≠ .rename) :
    stage.names = [stage.column] := by
  cases stage with
  | rename source target => exact absurd rfl plain
  | _ => rfl

theorem not_mem_names_rename {source target name : String} :
    name ∉ (rename source target).names ↔ name ≠ source ∧ name ≠ target := by
  simp [names]

/-- A stage neither reads nor changes a column that it does not name. -/
theorem onRow_setColumn {stage : Stage} {column : String} (away : column ∉ stage.names) (row : Row)
    (value : Json) :
    stage.onRow (row.setColumn column value) = (stage.onRow row).map (·.setColumn column value) := by
  rcases stage.rename_or_plain with ⟨source, target, rfl⟩ | plain
  · simp only [names, List.mem_cons, List.not_mem_nil, or_false, not_or] at away
    rw [onRow_rename, onRow_rename]
    exact row.renameColumn_setColumn value away.1 away.2
  · rw [names_of_plain plain, List.mem_singleton] at away
    rw [onRow_eq_rewrite plain, onRow_eq_rewrite plain]
    exact row.rewrite_setColumn (Ne.symm away) value stage.onValue

end Stage
end RowDirectives
