import RowDirectives.Proofs.Lineage
import RowDirectives.Proofs.TypeSoundness

/-! A schema and its rows stay in step. Renamings are done by one algorithm on the ordered fields and by
another on the sorted columns, yet where the names were the same before a stage that both sides take, they
are the same after it. Declared types follow the routes of the names, and only a `to-string` replaces one. -/
namespace RowDirectives

variable {stage : Stage} {schema schema' : Schema} {row row' : Row}

namespace Row

/-- The columns of the row have the names of the fields of the schema, and no others. -/
def Aligned (row : Row) (schema : Schema) : Prop :=
  ∀ name, name ∈ row.names ↔ name ∈ schema.fields.map Field.name

/-- One stage that both sides take keeps the names the same. -/
theorem Aligned.step (aligned : row.Aligned schema) (distinct : schema.Distinct)
    (hschema : stage.onSchema schema = .ok schema') (hrow : stage.onRow row = .ok row') :
    row'.Aligned schema' := by
  intro name
  cases stage with
  | rename source target =>
    rw [Stage.onSchema_rename] at hschema
    rw [Stage.onRow_rename] at hrow
    rw [mem_names_renameColumn hrow, Schema.mem_names_renameField distinct hschema, aligned name]
  | toText column =>
    rw [Stage.onSchema_toText] at hschema
    cases Except.ok.inj hschema
    rw [Stage.onRow_toText] at hrow
    obtain ⟨value, value', -, -, rfl⟩ := rewrite_eq_ok.mp hrow
    rw [mem_names_setColumn, Schema.mem_names_setField, aligned name]
  | mask column m =>
    obtain ⟨rfl, -⟩ := Stage.onSchema_mask_eq_ok.mp hschema
    rw [Stage.onRow_mask] at hrow
    obtain ⟨value, value', hvalue, -, rfl⟩ := rewrite_eq_ok.mp hrow
    rw [mem_names_setColumn, aligned name, or_iff_right_iff_imp]
    rintro rfl
    exact (aligned name).mp (mem_names_iff.mpr ⟨value, hvalue⟩)

/-- With the same names on both sides a renaming fails on both or on none, and for the same reason. -/
theorem Aligned.rename_error_iff (aligned : row.Aligned schema) (source target : String)
    (fault : Fault) :
    (Stage.rename source target).onSchema schema = .error fault ↔
      (Stage.rename source target).onRow row = .error fault := by
  rw [Stage.onSchema_rename, Stage.onRow_rename, Schema.renameField_eq_error,
    renameColumn_eq_error, get?_eq_none_iff, aligned source]

end Row

/-- A field after a stage is the one that a `to-string` declares, or an old one at the end of its route. -/
theorem Schema.mem_onSchema (distinct : schema.Distinct)
    (hschema : stage.onSchema schema = .ok schema') {field : Field} (hmem : field ∈ schema'.fields) :
    (stage = .toText field.name ∧ field.type = .string) ∨
      stage ≠ .toText field.name ∧
        ∃ old ∈ schema.fields, stage.route old.name = some field.name ∧ field.type = old.type := by
  cases stage with
  | rename source target =>
    rw [Stage.onSchema_rename] at hschema
    refine .inr ⟨Stage.noConfusion, ?_⟩
    rcases mem_renameField distinct hschema hmem with
      ⟨old, hold, hname, rfl⟩ | ⟨hfield, hsource, htarget⟩
    · exact ⟨old, hold, by simp [Stage.route_rename, hname], rfl⟩
    · exact ⟨field, hfield, by simp [Stage.route_rename, hsource, htarget], rfl⟩
  | toText column =>
    rw [Stage.onSchema_toText] at hschema
    cases Except.ok.inj hschema
    rcases mem_setField distinct hmem with rfl | ⟨hfield, hname⟩
    · exact .inl ⟨rfl, rfl⟩
    · refine .inr ⟨fun heq => hname (Stage.toText.inj heq).symm, field, hfield, rfl, rfl⟩
  | mask column m =>
    obtain ⟨rfl, -⟩ := Stage.onSchema_mask_eq_ok.mp hschema
    exact .inr ⟨Stage.noConfusion, field, hmem, rfl, rfl⟩

namespace Pipeline

/-- One of the stages is a `to-string` on the column that ends under the name, under the name that the
column has at that time. -/
def MakesText (stages : List Stage) (name : String) : Prop :=
  ∃ before column after, stages = before ++ .toText column :: after ∧ route after column = some name

theorem not_makesText_nil (name : String) : ¬ MakesText [] name := by
  rintro ⟨before, column, after, split, -⟩
  exact List.append_ne_nil_of_right_ne_nil before (List.cons_ne_nil _ after) split.symm

theorem makesText_cons {rest : List Stage} {name : String} :
    MakesText (stage :: rest) name ↔
      (∃ column, stage = .toText column ∧ route rest column = some name) ∨ MakesText rest name := by
  constructor
  · rintro ⟨before, column, after, split, hroute⟩
    cases before with
    | nil =>
      obtain ⟨rfl, rfl⟩ := List.cons.inj split
      exact .inl ⟨column, rfl, hroute⟩
    | cons first before =>
      obtain ⟨-, rfl⟩ := List.cons.inj split
      exact .inr ⟨before, column, after, rfl, hroute⟩
  · rintro (⟨column, rfl, hroute⟩ | ⟨before, column, after, rfl, hroute⟩)
    · exact ⟨[], column, rest, rfl, hroute⟩
    · exact ⟨stage :: before, column, after, rfl, hroute⟩

instance decidableMakesText (name : String) : (stages : List Stage) →
    Decidable (MakesText stages name)
  | [] => isFalse (not_makesText_nil name)
  | stage :: rest =>
    have : Decidable (∃ column, stage = .toText column ∧ route rest column = some name) :=
      match stage with
      | .toText column => decidable_of_iff (route rest column = some name) (by simp)
      | .rename _ _ => isFalse (by simp)
      | .mask _ _ => isFalse (by simp)
    have := decidableMakesText name rest
    decidable_of_iff _ makesText_cons.symm

/-- All stages: the type of a field is the one it had at the start of its route, unless it was made text. -/
theorem type_of_through {stages : List Stage} (distinct : schema.Distinct)
    (accepted : through Stage.schemaStep stages schema = .ok schema') {field : Field}
    (hmem : field ∈ schema'.fields) :
    (MakesText stages field.name ∧ field.type = .string) ∨
      ¬ MakesText stages field.name ∧ ∃ original ∈ schema.fields,
        route stages original.name = some field.name ∧ field.type = original.type := by
  induction stages generalizing schema with
  | nil =>
    cases Except.ok.inj accepted
    exact .inr ⟨not_makesText_nil field.name, field, hmem, rfl, rfl⟩
  | cons stage rest ih =>
    obtain ⟨next, hstep, hrest⟩ := through_cons_eq_ok.mp accepted
    rcases ih (distinct.onSchema hstep) hrest with
      ⟨hmakes, htype⟩ | ⟨hkeeps, old, hold, hroute, htype⟩
    · exact .inl ⟨makesText_cons.mpr (.inr hmakes), htype⟩
    · rcases Schema.mem_onSchema distinct hstep hold with
        ⟨rfl, hstring⟩ | ⟨hother, original, horiginal, hfirst, hsame⟩
      · exact .inl ⟨makesText_cons.mpr (.inl ⟨old.name, rfl, hroute⟩), htype.trans hstring⟩
      · refine .inr ⟨?_, original, horiginal, route_cons_eq_some.mpr ⟨_, hfirst, hroute⟩,
          htype.trans hsame⟩
        -- A to-string that reaches the name reaches it from the old field: routes do not meet.
        rintro hmakes
        rcases makesText_cons.mp hmakes with ⟨column, rfl, hcolumn⟩ | hmakes
        · exact hother (congrArg Stage.toText ((route rest).inj hcolumn hroute))
        · exact hkeeps hmakes

theorem aligned_through {stages : List Stage} (aligned : row.Aligned schema)
    (distinct : schema.Distinct) (accepted : through Stage.schemaStep stages schema = .ok schema')
    (run : through Stage.rowStep stages row = .ok row') : row'.Aligned schema' := by
  induction stages generalizing schema row with
  | nil =>
    cases Except.ok.inj accepted
    cases Except.ok.inj run
    exact aligned
  | cons stage rest ih =>
    obtain ⟨nextSchema, hschema, hrest⟩ := through_cons_eq_ok.mp accepted
    obtain ⟨nextRow, hrow, hrestRow⟩ := through_cons_eq_ok.mp run
    exact ih (aligned.step distinct hschema hrow) (distinct.onSchema hschema) hrest hrestRow

theorem aligned_rowsThrough {p : Pipeline} {rows rows' : List Row} (distinct : schema.Distinct)
    (accepted : through Stage.schemaStep p.stages schema = .ok schema')
    (aligned : ∀ row ∈ rows, row.Aligned schema) (all : p.RowsThrough rows rows') :
    ∀ row' ∈ rows', row'.Aligned schema' := by
  induction all with
  | nil => exact fun row' hmem => absurd hmem List.not_mem_nil
  | cons hrow _ ih =>
    intro row' hmem
    rcases List.mem_cons.mp hmem with rfl | hmem
    · exact aligned_through (aligned _ List.mem_cons_self) distinct accepted hrow
    · exact ih (fun row hrow => aligned row (List.mem_cons_of_mem _ hrow)) row' hmem

/-- A run that succeeds on a schema and rows with the same names leaves the same names on both. A field is
text if a `to-string` met it, and otherwise has the type of the field that it is renamed from. A renaming
never fails on one of the two sides alone. -/
theorem run_keeps_alignment :
    (∀ (p : Pipeline) (schema : Schema) (rows : List Row), schema.Distinct →
      (∀ row ∈ rows, row.Aligned schema) → (p.run schema rows).result = .ok () →
      (p.run schema rows).state.1.Distinct ∧
      (∀ row ∈ (p.run schema rows).state.2, row.Aligned (p.run schema rows).state.1) ∧
      ∀ field ∈ (p.run schema rows).state.1.fields,
        (MakesText p.stages field.name → field.type = .string) ∧
        (¬ MakesText p.stages field.name → ∃ original ∈ schema.fields,
          route p.stages original.name = some field.name ∧ field.type = original.type)) ∧
    ∀ (schema : Schema) (row : Row), row.Aligned schema → ∀ source target fault,
      (Stage.rename source target).onSchema schema = .error fault ↔
        (Stage.rename source target).onRow row = .error fault := by
  refine ⟨?_, fun schema row aligned => aligned.rename_error_iff⟩
  intro p schema rows distinct aligned ok
  obtain ⟨schema', rows', accepted, all, hrun⟩ := exists_of_run_ok ok
  rw [hrun]
  refine ⟨distinct_through distinct accepted, aligned_rowsThrough distinct accepted aligned all, ?_⟩
  intro field hmem
  rcases type_of_through distinct accepted hmem with ⟨hmakes, htype⟩ | ⟨hkeeps, original⟩
  · exact ⟨fun _ => htype, fun hnot => absurd hmakes hnot⟩
  · exact ⟨fun hmakes => absurd hmakes hkeeps, fun _ => original⟩

theorem run_keeps_alignment_through_overwrites :
    let p : Pipeline := ⟨[.rename "card" "pan", .toText "pin", .rename "pin" "card",
      .rename "card" "memo", .mask "pan" (.substitution .left '#' 2), .rename "pan" "pan"]⟩
    let schema : Schema := ⟨[⟨"pin", .int⟩, ⟨"card", .nullable .string⟩, ⟨"memo", .boolean⟩]⟩
    let rows : List Row :=
      [⟨Dict.ofList [("card", .string "4111"), ("pin", .int 4821), ("memo", .bool true)]⟩,
        ⟨Dict.ofList [("card", .null), ("pin", .array []), ("memo", .null)]⟩]
    (∀ row ∈ rows, row.Aligned schema) ∧ (p.run schema rows).result = .ok () ∧
      (p.run schema rows).state.1.fields.map Field.name = ["memo", "pan"] ∧
      (∀ row ∈ (p.run schema rows).state.2, row.Aligned (p.run schema rows).state.1) ∧
      (∀ field ∈ (p.run schema rows).state.1.fields, field.name = "memo" → field.type = .string) ∧
      (∀ field ∈ (p.run schema rows).state.1.fields, field.name = "pan" →
        ∃ original ∈ schema.fields, route p.stages original.name = some "pan" ∧
          field.type = original.type) ∧
      ∀ row ∈ rows, (Stage.rename "zip" "pin").onRow row = .error (.notFound "zip") := by
  intro p schema rows
  have distinct : schema.Distinct := by decide
  have aligned : ∀ row ∈ rows, row.Aligned schema := by
    intro row hmem name
    have hnames : row.names = ["card", "memo", "pin"] := by
      simp only [rows, List.mem_cons, List.not_mem_nil, or_false] at hmem
      rcases hmem with rfl | rfl <;> rfl
    simp only [hnames, schema, List.map_cons, List.map_nil, List.mem_cons, List.not_mem_nil]
    grind
  have ok : (p.run schema rows).result = .ok () := by rfl
  obtain ⟨hrun, hrename⟩ := run_keeps_alignment
  obtain ⟨-, aligned', types⟩ := hrun p schema rows distinct aligned ok
  refine ⟨aligned, ok, rfl, aligned', ?_, ?_, ?_⟩
  · intro field hmem hname
    apply (types field hmem).1
    rw [hname]
    decide
  · intro field hmem hname
    have hkeeps : ¬ MakesText p.stages "pan" := by decide
    exact hname ▸ (types field hmem).2 (hname ▸ hkeeps)
  · intro row hmem
    exact (hrename schema row (aligned row hmem) "zip" "pin" _).mp rfl

end Pipeline
end RowDirectives
