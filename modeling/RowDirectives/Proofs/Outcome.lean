import Mathlib.Data.List.Forall2
import RowDirectives.Pipeline
import RowDirectives.Proofs.Atomicity

/-! How a run ends. The stages before the first failure have taken place and the failing one has not, so
what is left is the work of a prefix of the stages on a prefix of the rows, and the log names the stage
that failed. `RunsTo` lists the three ways to end; a run ends in exactly one of them. -/
namespace RowDirectives.Pipeline

section Stages

variable {σ : Type} (step : Stage → Step σ Unit) (report : Stage → Fault → LogEntry)

/-- What the steps of all stages make of a state, one after the other. -/
def through : List Stage → σ → Except Fault σ
  | [], s => .ok s
  | stage :: rest, s => ((step stage).exec s).bind (through rest)

theorem through_append (before after : List Stage) (s : σ) :
    through step (before ++ after) s = (through step before s).bind (through step after) := by
  induction before generalizing s with
  | nil => rfl
  | cons stage rest ih =>
    simp only [List.cons_append, through]
    cases (step stage).exec s with
    | error fault => rfl
    | ok s' => exact ih s'

variable {step}

theorem through_cons_eq_ok {stage : Stage} {rest : List Stage} {s s' : σ} :
    through step (stage :: rest) s = .ok s' ↔
      ∃ next, (step stage).exec s = .ok next ∧ through step rest next = .ok s' := by
  rw [through]
  cases (step stage).exec s <;> simp [Except.bind]

theorem through_append_eq_ok {before after : List Stage} {s s' : σ} :
    through step (before ++ after) s = .ok s' ↔
      ∃ next, through step before s = .ok next ∧ through step after next = .ok s' := by
  rw [through_append]
  cases through step before s <;> simp [Except.bind]

theorem through_ok_or_fault (step : Stage → Step σ Unit) (stages : List Stage) (s : σ) :
    (∃ s', through step stages s = .ok s') ∨
      ∃ before stage after s' fault, stages = before ++ stage :: after ∧
        through step before s = .ok s' ∧ (step stage).exec s' = .error fault := by
  induction stages generalizing s with
  | nil => exact .inl ⟨s, rfl⟩
  | cons stage rest ih =>
    cases hstep : (step stage).exec s with
    | error fault => exact .inr ⟨[], stage, rest, s, fault, rfl, rfl, hstep⟩
    | ok next =>
      rcases ih next with ⟨s', hrest⟩ | ⟨before, failing, after, s', fault, split, earlier, fails⟩
      · exact .inl ⟨s', through_cons_eq_ok.mpr ⟨next, hstep, hrest⟩⟩
      · refine .inr ⟨stage :: before, failing, after, s', fault, ?_, ?_, fails⟩
        · rw [split, List.cons_append]
        · exact through_cons_eq_ok.mpr ⟨next, hstep, earlier⟩

theorem through_of_fixed {stages : List Stage} {s : σ}
    (h : ∀ stage ∈ stages, (step stage).exec s = .ok s) : through step stages s = .ok s := by
  induction stages with
  | nil => rfl
  | cons stage rest ih =>
    apply through_cons_eq_ok.mpr
    exact ⟨s, h stage List.mem_cons_self, ih fun other mem => h other (List.mem_cons_of_mem _ mem)⟩

theorem through_keeps {P : σ → Prop} {stages : List Stage}
    (keeps : ∀ stage ∈ stages, ∀ s s', P s → (step stage).exec s = .ok s' → P s') {s s' : σ}
    (hs : P s) (h : through step stages s = .ok s') : P s' := by
  induction stages generalizing s with
  | nil => exact Except.ok.inj h ▸ hs
  | cons stage rest ih =>
    obtain ⟨next, hstep, hrest⟩ := through_cons_eq_ok.mp h
    exact ih (fun other mem => keeps other (List.mem_cons_of_mem _ mem))
      (keeps stage List.mem_cons_self s next hs hstep) hrest

theorem through_establishes {P : σ → Prop} {stages : List Stage} {stage : Stage}
    (mem : stage ∈ stages) (sets : ∀ s s', (step stage).exec s = .ok s' → P s')
    (keeps : ∀ other ∈ stages, ∀ s s', P s → (step other).exec s = .ok s' → P s') {s s' : σ}
    (h : through step stages s = .ok s') : P s' := by
  obtain ⟨before, after, rfl⟩ := List.append_of_mem mem
  obtain ⟨mid, -, hrest⟩ := through_append_eq_ok.mp h
  obtain ⟨next, hstep, hafter⟩ := through_cons_eq_ok.mp hrest
  refine through_keeps (fun other hother => keeps other ?_) (sets mid next hstep) hafter
  exact List.mem_append_right _ (List.mem_cons_of_mem _ hother)

/-- Stages that succeed only hand their state on to the stages after them. -/
theorem steps_append {before after : List Stage} {s s' : σ} (h : through step before s = .ok s') :
    steps step report (before ++ after) s = steps step report after s' := by
  induction before generalizing s with
  | nil => rw [List.nil_append, Except.ok.inj h]
  | cons stage rest ih =>
    obtain ⟨next, hstep, hrest⟩ := through_cons_eq_ok.mp h
    rw [List.cons_append, steps, Step.run_of_exec_ok hstep]
    exact ih hrest

theorem steps_of_ok {stages : List Stage} {s s' : σ} (h : through step stages s = .ok s') :
    steps step report stages s = ⟨.ok (), s', []⟩ := by
  have hsteps : steps step report (stages ++ []) s = ⟨.ok (), s', []⟩ := steps_append report h
  rwa [List.append_nil] at hsteps

/-- The stages after the one that fails do not matter, and the failing one has changed nothing. -/
theorem steps_of_fault (atomic : ∀ stage, (step stage).Atomic) {before after : List Stage}
    {stage : Stage} {s s' : σ} {fault : Fault} (earlier : through step before s = .ok s')
    (fails : (step stage).exec s' = .error fault) :
    steps step report (before ++ stage :: after) s =
      ⟨.error fault, s', [report stage fault]⟩ := by
  rw [steps_append report earlier, steps, atomic stage s' fault fails]

theorem exists_of_steps_ok (atomic : ∀ stage, (step stage).Atomic) {stages : List Stage} {s : σ}
    (h : (steps step report stages s).result = .ok ()) :
    ∃ s', through step stages s = .ok s' := by
  rcases through_ok_or_fault step stages s with
    hok | ⟨before, stage, after, s', fault, rfl, earlier, fails⟩
  · exact hok
  · rw [steps_of_fault report atomic earlier fails] at h
    contradiction

/-- A fault is the fault of one stage, and the report says of which. -/
theorem exists_of_steps_error (atomic : ∀ stage, (step stage).Atomic) {stages : List Stage} {s : σ}
    {fault : Fault} (h : (steps step report stages s).result = .error fault) :
    ∃ stage ∈ stages, ∃ s', (step stage).exec s' = .error fault ∧
      (steps step report stages s).log = [report stage fault] := by
  rcases through_ok_or_fault step stages s with
    ⟨s', whole⟩ | ⟨before, stage, after, s', fault', rfl, earlier, fails⟩
  · rw [steps_of_ok report whole] at h
    contradiction
  · rw [steps_of_fault report atomic earlier fails] at h ⊢
    cases h
    exact ⟨stage, List.mem_append_right before List.mem_cons_self, s', fails, rfl⟩

end Stages

/-- Each row of the first list becomes the row of the second at the same place, for itself alone. -/
def RowsThrough (p : Pipeline) (rows rows' : List Row) : Prop :=
  List.Forall₂ (fun row row' => through Stage.rowStep p.stages row = .ok row') rows rows'

/-- The outcomes a run may have, each under the condition that makes it the outcome. -/
inductive RunsTo (p : Pipeline) (schema : Schema) (rows : List Row) :
    Outcome (Schema × List Row) → Prop where
  /-- A stage fails on the schema: the stages before it have changed the schema, and no row is touched. -/
  | schemaFault (before after : List Stage) (stage : Stage) (schema' : Schema) (fault : Fault)
      (split : p.stages = before ++ stage :: after)
      (earlier : through Stage.schemaStep before schema = .ok schema')
      (fails : stage.onSchema schema' = .error fault) :
      RunsTo p schema rows ⟨.error fault, (schema', rows), [.failedSchemaStep stage fault]⟩
  /-- A stage fails on a row: the rows before it are done, the row itself is as far as the stages before
  the failing one bring it, and the rows after it are untouched. -/
  | rowFault (before after : List Stage) (stage : Stage) (schema' : Schema)
      (done done' rest : List Row) (row row' : Row) (fault : Fault)
      (whole : through Stage.schemaStep p.stages schema = .ok schema')
      (place : rows = done ++ row :: rest) (first : p.RowsThrough done done')
      (split : p.stages = before ++ stage :: after)
      (earlier : through Stage.rowStep before row = .ok row')
      (fails : stage.onRow row' = .error fault) :
      RunsTo p schema rows
        ⟨.error fault, (schema', done' ++ row' :: rest), [.failedRowStep stage fault]⟩
  | finished (schema' : Schema) (rows' : List Row)
      (whole : through Stage.schemaStep p.stages schema = .ok schema')
      (all : p.RowsThrough rows rows') :
      RunsTo p schema rows ⟨.ok (), (schema', rows'), []⟩

section Runs

variable {p : Pipeline} {schema schema' : Schema} {rows rows' : List Row} {row row' : Row}

theorem transformSchema_of_ok (h : through Stage.schemaStep p.stages schema = .ok schema') :
    p.transformSchema schema = ⟨.ok (), schema', []⟩ :=
  steps_of_ok _ h

theorem transformSchema_of_fault {before after : List Stage} {stage : Stage} {fault : Fault}
    (split : p.stages = before ++ stage :: after)
    (earlier : through Stage.schemaStep before schema = .ok schema')
    (fails : stage.onSchema schema' = .error fault) :
    p.transformSchema schema = ⟨.error fault, schema', [.failedSchemaStep stage fault]⟩ := by
  rw [transformSchema, split]
  exact steps_of_fault _ Stage.atomic_schemaStep earlier fails

theorem exists_of_transformSchema_ok (h : (p.transformSchema schema).result = .ok ()) :
    ∃ schema', through Stage.schemaStep p.stages schema = .ok schema' :=
  exists_of_steps_ok _ Stage.atomic_schemaStep h

theorem transformRow_of_ok (h : through Stage.rowStep p.stages row = .ok row') :
    p.transformRow row = ⟨.ok (), row', []⟩ :=
  steps_of_ok _ h

theorem transformRow_of_fault {before after : List Stage} {stage : Stage} {fault : Fault}
    (split : p.stages = before ++ stage :: after)
    (earlier : through Stage.rowStep before row = .ok row')
    (fails : stage.onRow row' = .error fault) :
    p.transformRow row = ⟨.error fault, row', [.failedRowStep stage fault]⟩ := by
  rw [transformRow, split]
  exact steps_of_fault _ Stage.atomic_rowStep earlier fails

theorem exists_of_transformRow_ok (h : (p.transformRow row).result = .ok ()) :
    ∃ row', through Stage.rowStep p.stages row = .ok row' :=
  exists_of_steps_ok _ Stage.atomic_rowStep h

/-- Stages that do not name a column pass every change of it. -/
theorem through_setColumn {stages : List Stage} {column : String}
    (away : ∀ stage ∈ stages, column ∉ stage.names) (row : Row) (value : Json) :
    through Stage.rowStep stages (row.setColumn column value) =
      (through Stage.rowStep stages row).map (·.setColumn column value) := by
  induction stages generalizing row with
  | nil => rfl
  | cons stage rest ih =>
    have hstage := Stage.onRow_setColumn (away stage List.mem_cons_self) row value
    simp only [Stage.onRow] at hstage
    rw [through, through, hstage]
    cases (stage.rowStep : Step Row Unit).exec row with
    | error fault => rfl
    | ok next => exact ih (fun other mem => away other (List.mem_cons_of_mem _ mem)) next

theorem transformRows_of_ok (h : p.RowsThrough rows rows') :
    p.transformRows rows = ⟨.ok (), rows', []⟩ := by
  induction h with
  | nil => rfl
  | cons hrow _ ih =>
    rw [transformRows, transformRow_of_ok hrow]
    simp only [ih, List.append_nil]

theorem transformRows_of_fault {before after : List Stage} {stage : Stage} {done done' : List Row}
    {fault : Fault} (first : p.RowsThrough done done')
    (split : p.stages = before ++ stage :: after)
    (earlier : through Stage.rowStep before row = .ok row')
    (fails : stage.onRow row' = .error fault) (rest : List Row) :
    p.transformRows (done ++ row :: rest) =
      ⟨.error fault, done' ++ row' :: rest, [.failedRowStep stage fault]⟩ := by
  induction first with
  | nil =>
    simp only [List.nil_append]
    rw [transformRows, transformRow_of_fault split earlier fails]
  | cons hrow _ ih =>
    simp only [List.cons_append]
    rw [transformRows, transformRow_of_ok hrow]
    simp only [ih, List.nil_append]

theorem rowsThrough_or_fault (p : Pipeline) (rows : List Row) :
    (∃ rows', p.RowsThrough rows rows') ∨
      ∃ done row rest done' before stage after row' fault, rows = done ++ row :: rest ∧
        p.RowsThrough done done' ∧ p.stages = before ++ stage :: after ∧
        through Stage.rowStep before row = .ok row' ∧ stage.onRow row' = .error fault := by
  induction rows with
  | nil => exact .inl ⟨[], .nil⟩
  | cons row rest ih =>
    rcases through_ok_or_fault Stage.rowStep p.stages row with
      ⟨row', hrow⟩ | ⟨before, stage, after, row', fault, split, earlier, fails⟩
    · rcases ih with ⟨rows', hrest⟩ |
        ⟨done, failing, others, done', before, stage, after, failing', fault, place, first, h⟩
      · exact .inl ⟨row' :: rows', .cons hrow hrest⟩
      · refine .inr ⟨row :: done, failing, others, row' :: done', before, stage, after, failing',
          fault, ?_, .cons hrow first, h⟩
        rw [place, List.cons_append]
    · exact .inr ⟨[], row, rest, [], before, stage, after, row', fault, rfl, .nil, split,
        earlier, fails⟩

theorem RunsTo.eq {o : Outcome (Schema × List Row)} (h : p.RunsTo schema rows o) :
    p.run schema rows = o := by
  cases h with
  | schemaFault before after stage schema' fault split earlier fails =>
    rw [run, transformSchema_of_fault split earlier fails]
  | rowFault before after stage schema' done done' rest row row' fault whole place first split
      earlier fails =>
    rw [run, transformSchema_of_ok whole, place]
    simp only [transformRows_of_fault first split earlier fails, List.nil_append]
  | finished schema' rows' whole all =>
    rw [run, transformSchema_of_ok whole]
    simp only [transformRows_of_ok all, List.nil_append]

theorem exists_runsTo (p : Pipeline) (schema : Schema) (rows : List Row) :
    ∃ o, p.RunsTo schema rows o := by
  rcases through_ok_or_fault Stage.schemaStep p.stages schema with
    ⟨schema', whole⟩ | ⟨before, stage, after, schema', fault, split, earlier, fails⟩
  · rcases rowsThrough_or_fault p rows with ⟨rows', all⟩ |
      ⟨done, row, rest, done', before, stage, after, row', fault, place, first, split, earlier, fails⟩
    · exact ⟨_, .finished schema' rows' whole all⟩
    · exact ⟨_, .rowFault before after stage schema' done done' rest row row' fault whole place
        first split earlier fails⟩
  · exact ⟨_, .schemaFault before after stage schema' fault split earlier fails⟩

theorem runsTo_run (p : Pipeline) (schema : Schema) (rows : List Row) :
    p.RunsTo schema rows (p.run schema rows) := by
  obtain ⟨o, ends⟩ := exists_runsTo p schema rows
  rw [ends.eq]
  exact ends

theorem exists_of_run_ok (h : (p.run schema rows).result = .ok ()) :
    ∃ schema' rows', through Stage.schemaStep p.stages schema = .ok schema' ∧
      p.RowsThrough rows rows' ∧ p.run schema rows = ⟨.ok (), (schema', rows'), []⟩ := by
  have ends := runsTo_run p schema rows
  generalize p.run schema rows = o at ends h
  cases ends with
  | finished schema' rows' whole all => exact ⟨schema', rows', whole, all, rfl⟩
  | _ => contradiction

/-- A run ends in one way if and only if the condition of that way holds, and a failure is reported by
one warning that shows the canonical text of the stage and the fault. -/
theorem run_eq_iff_runsTo (p : Pipeline) (schema : Schema) (rows : List Row) :
    (∀ o, p.run schema rows = o ↔ p.RunsTo schema rows o) ∧
      ∀ (stage : Stage) (fault : Fault),
        (LogEntry.failedSchemaStep stage fault).level = .warn ∧
        (LogEntry.failedSchemaStep stage fault).message =
          s!"schema step '{stage.line}' failed: {fault.message}" ∧
        (LogEntry.failedRowStep stage fault).level = .warn ∧
        (LogEntry.failedRowStep stage fault).message =
          s!"value step '{stage.line}' failed: {fault.message}" := by
  refine ⟨fun o => ⟨?_, RunsTo.eq⟩, fun stage fault => ⟨rfl, rfl, rfl, rfl⟩⟩
  rintro rfl
  exact runsTo_run p schema rows

/-- The second row fails at the last stage, which finds no memo; what the stages before made of the row stays,
and the third row is not touched. A schema fails at the last stage too, after the others have changed it. -/
theorem run_eq_iff_runsTo_at_a_later_stage :
    let masking : Stage := .mask "pin" (.range 0 2)
    let moving : Stage := .rename "memo" "pin"
    let p : Pipeline := ⟨[.toText "pin", masking, moving]⟩
    let schema : Schema := ⟨[⟨"pin", .int⟩, ⟨"memo", .bytes⟩]⟩
    let last : Row := ⟨Dict.ofList [("pin", .int 77), ("memo", .null)]⟩
    let rows : List Row := [⟨Dict.ofList [("pin", .int 4821), ("memo", .bool true)]⟩,
      ⟨Dict.ofList [("pin", .int 1234)]⟩, last]
    let rows' : List Row :=
      [⟨Dict.ofList [("pin", .bool true)]⟩, ⟨Dict.ofList [("pin", .string "**34")]⟩, last]
    p.RunsTo schema rows ⟨.error (.notFound "memo"), (⟨[⟨"pin", .bytes⟩]⟩, rows'),
      [.failedRowStep moving (.notFound "memo")]⟩ ∧
    (LogEntry.failedRowStep moving (.notFound "memo")).message =
      "value step 'rename memo pin' failed: 'memo' not found" ∧
    p.RunsTo ⟨[]⟩ rows ⟨.error (.notFound "memo"), (⟨[⟨"pin", .string⟩]⟩, rows),
      [.failedSchemaStep moving (.notFound "memo")]⟩ := by
  intro masking moving p schema last rows rows'
  obtain ⟨ends, messages⟩ := run_eq_iff_runsTo p schema rows
  obtain ⟨ends', -⟩ := run_eq_iff_runsTo p ⟨[]⟩ rows
  obtain ⟨-, -, -, message⟩ := messages moving (.notFound "memo")
  exact ⟨(ends _).mp rfl, message, (ends' _).mp rfl⟩

end Runs

end RowDirectives.Pipeline
