import RowDirectives.Proofs.DistinctFields
import RowDirectives.Proofs.Outcome

/-! The schema step is a type check for rows. A row fits a schema when it has a column for each field, and
null or a text wherever the declared type promises one. Each stage that the schema accepts keeps the fit,
or misses a column that neither side has: only `to-string` adds a field to a schema and no column to a row. -/
namespace RowDirectives

namespace FieldType

/-- The types that promise a text: the string, and the two unions that make it nullable. -/
def PromisesText (t : FieldType) : Prop :=
  t = string ∨ t = union [null, string] ∨ t = union [string, null]

theorem holdsText_iff {t : FieldType} : t.holdsText = true ↔ t.PromisesText := by
  unfold holdsText PromisesText
  cases t with
  | union members =>
    match members with
    | [] => simp [isString, nonNull?]
    | [a] => simp [isString, nonNull?]
    | [a, b] => cases a <;> cases b <;> simp [isString, nonNull?, isNull]
    | a :: b :: c :: rest => simp [isString, nonNull?]
  | _ => simp [isString, nonNull?]

end FieldType

namespace Mask

theorem promisesText_of_accepts {m : Mask} {t : FieldType} (h : m.accepts t = true) :
    t.PromisesText := by
  cases m with
  | range start stop =>
    apply FieldType.holdsText_iff.mp
    rw [FieldType.holdsText, show t.isString = true from h, Bool.true_or]
  | substitution side cover count => exact FieldType.holdsText_iff.mp h

end Mask

namespace Schema

theorem Distinct.onSchema {schema schema' : Schema} {stage : Stage} (distinct : schema.Distinct)
    (accepted : stage.onSchema schema = .ok schema') : schema'.Distinct := by
  cases stage with
  | rename source target => exact distinct.renameField (Stage.onSchema_rename .. ▸ accepted)
  | toText column =>
    rw [Stage.onSchema_toText] at accepted
    exact Except.ok.inj accepted ▸ distinct.setField _
  | mask column m =>
    obtain ⟨rfl, -⟩ := Stage.onSchema_mask_eq_ok.mp accepted
    exact distinct

end Schema

namespace Row

/-- The row has a column for each field, with null or a text where the type promises a text. -/
def Fits (row : Row) (schema : Schema) : Prop :=
  ∀ field ∈ schema.fields, ∃ value, row.columns.get? field.name = some value ∧
    (field.type.PromisesText → value.TextOrNull)

variable {row : Row} {schema schema' : Schema}

theorem Fits.setColumn {column : String} {value : Json} (hvalue : value.TextOrNull)
    (h : ∀ field ∈ schema.fields, field.name ≠ column → ∃ value,
      row.columns.get? field.name = some value ∧ (field.type.PromisesText → value.TextOrNull)) :
    (row.setColumn column value).Fits schema := by
  intro field hmem
  rw [get?_setColumn]
  by_cases hname : field.name = column
  · exact ⟨value, if_pos hname, fun _ => hvalue⟩
  · rw [if_neg hname]
    exact h field hmem hname

theorem Fits.rename {source target : String} (fits : row.Fits schema) (distinct : schema.Distinct)
    (accepted : (Schema.renameField source target).exec schema = .ok schema') :
    ∃ row', (renameColumn source target).exec row = .ok row' ∧ row'.Fits schema' := by
  obtain ⟨hsource, -⟩ := Schema.renameField_eq_ok.mp accepted
  obtain ⟨old, hold, rfl⟩ := List.mem_map.mp hsource
  obtain ⟨value, hvalue, htext⟩ := fits old hold
  refine ⟨_, renameColumn_eq_ok.mpr ⟨value, hvalue, rfl⟩, ?_⟩
  intro field hmem
  rcases Schema.mem_renameField distinct accepted hmem with
    ⟨other, hother, hname, rfl⟩ | ⟨hfield, hsource', htarget⟩
  · obtain ⟨value', hvalue', htext'⟩ := fits other hother
    have : value' = value := by rw [hname, hvalue] at hvalue'; exact (Option.some.inj hvalue').symm
    subst this
    exact ⟨value', by simp, htext'⟩
  · simp only [Dict.get?_insert, Dict.get?_erase, if_neg hsource', if_neg htarget]
    exact fits field hfield

/-- One stage: what the schema accepts, the row goes through and fits again, or the column of a
`to-string` is on neither side. -/
theorem Fits.step {stage : Stage} (fits : row.Fits schema) (distinct : schema.Distinct)
    (accepted : stage.onSchema schema = .ok schema') :
    (∃ row', stage.onRow row = .ok row' ∧ row'.Fits schema') ∨
      ∃ column, stage = .toText column ∧ row.columns.get? column = none ∧
        schema.find? column = none := by
  cases stage with
  | rename source target =>
    rw [Stage.onSchema_rename] at accepted
    rw [Stage.onRow_rename]
    exact .inl (fits.rename distinct accepted)
  | toText column =>
    rw [Stage.onSchema_toText] at accepted
    cases Except.ok.inj accepted
    cases hget : row.columns.get? column with
    | none =>
      refine .inr ⟨column, rfl, hget, Schema.find?_eq_none_iff.mpr fun hmem => ?_⟩
      obtain ⟨field, hfield, rfl⟩ := List.mem_map.mp hmem
      obtain ⟨value, hvalue, -⟩ := fits field hfield
      rw [hget] at hvalue
      contradiction
    | some value =>
      refine .inl ⟨row.setColumn column value.asText, ?_, ?_⟩
      · rw [Stage.onRow_toText, rewrite_of_value hget]
        rfl
      · apply Fits.setColumn value.asText_textOrNull
        intro field hmem hname
        rcases Schema.mem_setField distinct hmem with rfl | ⟨hfield, -⟩
        · exact absurd rfl hname
        · exact fits field hfield
  | mask column m =>
    obtain ⟨rfl, field, hfind, haccepts⟩ := Stage.onSchema_mask_eq_ok.mp accepted
    have hmem : field ∈ schema'.fields := List.mem_of_find?_eq_some hfind
    have hname : field.name = column := by simpa using List.find?_some hfind
    obtain ⟨value, hvalue, htext⟩ := fits field hmem
    obtain ⟨value', hrewrite, htext'⟩ :=
      m.rewrite_of_textOrNull column (htext (Mask.promisesText_of_accepts haccepts))
    refine .inl ⟨row.setColumn column value', ?_, ?_⟩
    · rw [Stage.onRow_mask, rewrite_of_value (hname ▸ hvalue), hrewrite]
      rfl
    · exact Fits.setColumn htext' fun field hfield _ => fits field hfield

end Row

namespace Pipeline

variable {schema schema' : Schema} {row : Row}

theorem distinct_through {stages : List Stage} (distinct : schema.Distinct)
    (accepted : through Stage.schemaStep stages schema = .ok schema') : schema'.Distinct := by
  induction stages generalizing schema with
  | nil => exact Except.ok.inj accepted ▸ distinct
  | cons stage rest ih =>
    obtain ⟨next, hnext, hrest⟩ := through_cons_eq_ok.mp accepted
    exact ih (distinct.onSchema hnext) hrest

/-- All stages: the fit carries over from stage to stage, up to a `to-string` whose column is on
neither side. -/
theorem through_of_fits {stages : List Stage} (fits : row.Fits schema) (distinct : schema.Distinct)
    (accepted : through Stage.schemaStep stages schema = .ok schema') :
    (∃ row', through Stage.rowStep stages row = .ok row' ∧ row'.Fits schema') ∨
      ∃ before column after midSchema midRow, stages = before ++ .toText column :: after ∧
        through Stage.schemaStep before schema = .ok midSchema ∧
        through Stage.rowStep before row = .ok midRow ∧
        midRow.columns.get? column = none ∧ midSchema.find? column = none := by
  induction stages generalizing schema row with
  | nil => exact .inl ⟨row, rfl, Except.ok.inj accepted ▸ fits⟩
  | cons stage rest ih =>
    obtain ⟨nextSchema, hschema, hrest⟩ := through_cons_eq_ok.mp accepted
    rcases fits.step distinct hschema with ⟨nextRow, hrow, nextFits⟩ | ⟨column, rfl, h⟩
    · rcases ih nextFits (distinct.onSchema hschema) hrest with ⟨row', hthrough, fits'⟩ |
        ⟨before, column, after, midSchema, midRow, rfl, hbefore, hbeforeRow, h⟩
      · exact .inl ⟨row', through_cons_eq_ok.mpr ⟨nextRow, hrow, hthrough⟩, fits'⟩
      · refine .inr ⟨stage :: before, column, after, midSchema, midRow, rfl, ?_, ?_, h⟩
        · exact through_cons_eq_ok.mpr ⟨nextSchema, hschema, hbefore⟩
        · exact through_cons_eq_ok.mpr ⟨nextRow, hrow, hbeforeRow⟩
    · exact .inr ⟨[], column, rest, schema, row, rfl, rfl, rfl, h⟩

/-- What the schema step accepts never meets a value of another type. Rows that get through fit the
schema that comes out, and the only failure left is a `to-string` on a column that was neither in the row
nor in the schema when its turn came. -/
theorem transformRow_of_fits (p : Pipeline) (schema : Schema) (row : Row)
    (distinct : schema.Distinct) (fits : row.Fits schema)
    (accepted : (p.transformSchema schema).result = .ok ()) :
    (p.transformSchema schema).state.Distinct ∧
    (∀ message, (p.transformRow row).result ≠ .error (.typeMismatch message)) ∧
    ((p.transformRow row).result = .ok () →
      (p.transformRow row).state.Fits (p.transformSchema schema).state) ∧
    ∀ fault, (p.transformRow row).result = .error fault →
      ∃ before column after, p.stages = before ++ .toText column :: after ∧
        fault = .notFound column ∧
        ∃ midSchema midRow,
          (⟨before⟩ : Pipeline).transformSchema schema = ⟨.ok (), midSchema, []⟩ ∧
          (⟨before⟩ : Pipeline).transformRow row = ⟨.ok (), midRow, []⟩ ∧
          column ∉ midRow.names ∧ column ∉ midSchema.fields.map Field.name ∧
          p.transformRow row =
            ⟨.error (.notFound column), midRow,
              [.failedRowStep (.toText column) (.notFound column)]⟩ := by
  obtain ⟨schema', hschema⟩ := exists_of_transformSchema_ok accepted
  rw [transformSchema_of_ok hschema]
  refine ⟨distinct_through distinct hschema, ?_⟩
  rcases through_of_fits fits distinct hschema with ⟨row', hrow, fits'⟩ |
    ⟨before, column, after, midSchema, midRow, split, hbefore, hbeforeRow, hmissing, hundeclared⟩
  · rw [transformRow_of_ok hrow]
    exact ⟨nofun, fun _ => fits', nofun⟩
  · have hfault : p.transformRow row = ⟨.error (.notFound column), midRow,
        [.failedRowStep (.toText column) (.notFound column)]⟩ := by
      apply transformRow_of_fault split hbeforeRow
      rw [Stage.onRow_toText, Row.rewrite_of_none hmissing]
    rw [hfault]
    refine ⟨nofun, nofun, fun fault h => ?_⟩
    cases h
    refine ⟨before, column, after, split, rfl, midSchema, midRow, transformSchema_of_ok hbefore,
      transformRow_of_ok hbeforeRow, ?_, Schema.find?_eq_none_iff.mp hundeclared, rfl⟩
    rw [Row.names, Dict.mem_names_iff]
    simp [hmissing]

theorem transformRow_of_fits_undeclared_column :
    let p : Pipeline := ⟨[.rename "pin" "code", .toText "code",
      .mask "code" (.substitution .left '#' 1), .mask "card" (.substitution .right '*' 2),
      .toText "note"]⟩
    let schema : Schema := ⟨[⟨"pin", .int⟩, ⟨"card", .union [.null, .string]⟩]⟩
    let row : Row := ⟨Dict.ofList [("pin", .int 4821), ("card", .null)]⟩
    schema.Distinct ∧ row.Fits schema ∧ (p.transformSchema schema).result = .ok () ∧
      (p.transformRow row).result = .error (.notFound "note") ∧
      ∃ before after, p.stages = before ++ .toText "note" :: after := by
  intro p schema row
  have distinct : schema.Distinct := by decide
  have fits : row.Fits schema := by
    intro field hmem
    simp only [schema, List.mem_cons, List.not_mem_nil, or_false] at hmem
    rcases hmem with rfl | rfl
    · exact ⟨.int 4821, rfl, by simp [FieldType.PromisesText]⟩
    · exact ⟨.null, rfl, fun _ => .inl rfl⟩
  have accepted : (p.transformSchema schema).result = .ok () := by rfl
  have fails : (p.transformRow row).result = .error (.notFound "note") := by rfl
  obtain ⟨-, -, -, h⟩ := transformRow_of_fits p schema row distinct fits accepted
  obtain ⟨before, column, after, split, hfault, -⟩ := h _ fails
  cases hfault
  exact ⟨distinct, fits, accepted, fails, before, after, split⟩

end Pipeline
end RowDirectives
