import RowDirectives.Proofs.Outcome
import RowDirectives.Proofs.Refusals

/-! The phases of a pipeline fail in different ways. Whatever goes wrong before a pipeline exists is an
invalid directive; whatever goes wrong after that is a missing name or a value of another type, and comes
from one stage, which the log names. The missing name is the one that the stage asks for. Null values are not
among the reasons, nor is what a renaming does in between. -/
namespace RowDirectives

namespace Stage

/-- The faults that a stage may end with: the column that it asks for is missing, or a mask finds a type
that it does not accept. -/
inductive Raises : Stage → Fault → Prop
  | missing (stage : Stage) : Raises stage (.notFound stage.column)
  | fieldNotText (column : String) {m : Mask} {type : FieldType} : m.accepts type = false →
      Raises (.mask column m) (.fieldNotText column type)
  | valueNotText (column : String) (m : Mask) : Raises (.mask column m) (.valueNotText column)

variable {stage : Stage} {fault : Fault}

theorem column_mem_names (stage : Stage) : stage.column ∈ stage.names := by
  cases stage <;> exact List.mem_cons_self

theorem Raises.typeMismatch_or_notFound (h : stage.Raises fault) :
    (∃ message, fault = .typeMismatch message) ∨ ∃ name ∈ stage.names, fault = .notFound name := by
  cases h with
  | missing => exact .inr ⟨stage.column, stage.column_mem_names, rfl⟩
  | fieldNotText => exact .inl ⟨_, rfl⟩
  | valueNotText => exact .inl ⟨_, rfl⟩

theorem raises_of_onSchema {schema : Schema} (h : stage.onSchema schema = .error fault) :
    stage.Raises fault := by
  cases stage with
  | rename source target =>
    rw [onSchema_rename] at h
    obtain ⟨-, rfl⟩ := Schema.renameField_eq_error.mp h
    exact .missing _
  | toText column =>
    rw [onSchema_toText] at h
    contradiction
  | mask column m =>
    rcases onSchema_mask_eq_error.mp h with ⟨-, rfl⟩ | ⟨field, -, refuses, rfl⟩
    · exact .missing _
    · exact .fieldNotText column refuses

theorem raises_of_onValue {value : Json} (plain : stage.kind ≠ .rename)
    (h : stage.onValue value = .error fault) : stage.Raises fault := by
  cases stage with
  | rename source target => exact absurd rfl plain
  | toText column => contradiction
  | mask column m =>
    cases value with
    | null => contradiction
    | string text => contradiction
    | _ =>
      cases h
      exact .valueNotText column m

theorem raises_of_onRow {row : Row} (h : stage.onRow row = .error fault) : stage.Raises fault := by
  rcases stage.rename_or_plain with ⟨source, target, rfl⟩ | plain
  · rw [onRow_rename] at h
    obtain ⟨-, rfl⟩ := Row.renameColumn_eq_error.mp h
    exact .missing _
  · rw [onRow_eq_rewrite plain] at h
    rcases Row.rewrite_eq_error.mp h with ⟨-, rfl⟩ | ⟨value, -, hvalue⟩
    · exact .missing stage
    · exact raises_of_onValue plain hvalue

/-- Null is not worked on: it passes every stage that does not rename. -/
theorem run_rowStep_of_null {row : Row} (plain : stage.kind ≠ .rename)
    (h : row.columns.get? stage.column = some .null) :
    (stage.rowStep : Step Row Unit).run row = (.ok (), row) := by
  apply Step.run_of_exec_ok
  change stage.onRow row = .ok row
  rw [onRow_eq_rewrite plain, Row.rewrite_of_value h]
  have hnull : stage.onValue .null = .ok .null := by
    cases stage <;> rfl
  rw [hnull]
  exact congrArg Except.ok (Row.setColumn_eq_self h)

end Stage

namespace Pipeline

theorem exists_of_compileFrom_error {r : Registry} {index : Nat} {lines : List (Option String)}
    {fault : Fault} (h : (compileFrom r index lines).1 = .error fault) :
    ∃ line? ∈ lines, (r.compile line?).1 = .error fault := by
  induction lines generalizing index with
  | nil => contradiction
  | cons line? rest ih =>
    rw [compileFrom] at h
    rcases hcompile : r.compile line? with ⟨fault' | stage, log⟩
    · rw [hcompile] at h
      refine ⟨line?, List.mem_cons_self, ?_⟩
      rw [hcompile, Except.error.inj h]
    · rw [hcompile] at h
      cases hrest : (compileFrom r (index + 1) rest).1 with
      | error fault' =>
        simp only [hrest, Except.map] at h
        obtain ⟨other, hmem, hother⟩ := ih (hrest.trans h)
        exact ⟨other, List.mem_cons_of_mem _ hmem, hother⟩
      | ok stages =>
        simp only [hrest, Except.map] at h
        contradiction

/-- A list of directives is refused for the fault of one of them. -/
theorem exists_of_compile_error {r : Registry} {lines : List (Option String)} {fault : Fault}
    (h : (compile r lines).1 = .error fault) :
    ∃ line? ∈ lines, (r.compile line?).1 = .error fault := by
  rw [compile] at h
  rcases hcompile : compileFrom r 1 lines with ⟨fault' | stages, log⟩
  · rw [hcompile] at h
    apply exists_of_compileFrom_error
    rw [hcompile, Except.error.inj h]
  · rw [hcompile] at h
    contradiction

/-- One of the stages raises the fault, and the log names this stage. -/
def Blames (p : Pipeline) (fault : Fault) (log : List LogEntry) : Prop :=
  ∃ stage ∈ p.stages, stage.Raises fault ∧
    (log = [.failedSchemaStep stage fault] ∨ log = [.failedRowStep stage fault])

variable {p : Pipeline} {schema : Schema} {row : Row} {rows : List Row} {fault : Fault}

theorem mem_stages {before after : List Stage} {stage : Stage}
    (split : p.stages = before ++ stage :: after) : stage ∈ p.stages := by
  rw [split]
  exact List.mem_append_right before List.mem_cons_self

theorem blames_of_transformSchema (h : (p.transformSchema schema).result = .error fault) :
    p.Blames fault (p.transformSchema schema).log := by
  obtain ⟨stage, mem, _, fails, reported⟩ := exists_of_steps_error _ Stage.atomic_schemaStep h
  exact ⟨stage, mem, Stage.raises_of_onSchema fails, .inl reported⟩

theorem blames_of_transformRow (h : (p.transformRow row).result = .error fault) :
    p.Blames fault (p.transformRow row).log := by
  obtain ⟨stage, mem, _, fails, reported⟩ := exists_of_steps_error _ Stage.atomic_rowStep h
  exact ⟨stage, mem, Stage.raises_of_onRow fails, .inr reported⟩

theorem blames_of_run (h : (p.run schema rows).result = .error fault) :
    p.Blames fault (p.run schema rows).log := by
  have ends := runsTo_run p schema rows
  generalize p.run schema rows = o at ends h
  cases ends with
  | schemaFault before after stage schema' fault' split earlier fails =>
    cases h
    exact ⟨stage, mem_stages split, Stage.raises_of_onSchema fails, .inl rfl⟩
  | rowFault before after stage schema' done done' rest row row' fault' whole place first split
      earlier fails =>
    cases h
    exact ⟨stage, mem_stages split, Stage.raises_of_onRow fails, .inr rfl⟩
  | finished => contradiction

/-- Directives, lists of them and scripts are refused as invalid directives only. Schemas, rows and runs
fail because a stage misses a name that it mentions or meets another type, and for no other reason. A null
value is no reason. Nor is the second look-up of a renaming: among the fields that are kept it succeeds wherever
the first one did, and the renaming with it. -/
theorem faults_by_phase :
    (∀ (r : Registry) (line? : Option String) (fault : Fault),
      (r.compile line?).1 = .error fault → ∃ message, fault = .invalidDirective message) ∧
    (∀ (r : Registry) (lines : List (Option String)) (fault : Fault),
      (compile r lines).1 = .error fault → ∃ message, fault = .invalidDirective message) ∧
    (∀ (r : Registry) (script : String) (fault : Fault),
      (compileScript r script).1 = .error fault → ∃ message, fault = .invalidDirective message) ∧
    (∀ (p : Pipeline) (schema : Schema) (fault : Fault),
      (p.transformSchema schema).result = .error fault →
        p.Blames fault (p.transformSchema schema).log) ∧
    (∀ (p : Pipeline) (row : Row) (fault : Fault),
      (p.transformRow row).result = .error fault → p.Blames fault (p.transformRow row).log) ∧
    (∀ (p : Pipeline) (schema : Schema) (rows : List Row) (fault : Fault),
      (p.run schema rows).result = .error fault → p.Blames fault (p.run schema rows).log) ∧
    (∀ (stage : Stage) (fault : Fault), stage.Raises fault →
      (∃ message, fault = .typeMismatch message) ∨
        ∃ name ∈ stage.names, fault = .notFound name) ∧
    (∀ (stage : Stage) (row : Row), stage.kind ≠ .rename →
      row.columns.get? stage.column = some .null →
        (stage.rowStep : Step Row Unit).run row = (.ok (), row)) ∧
    ∀ (schema : Schema) (source target : String), source ∈ schema.fields.map Field.name →
      ∃ schema', (Schema.relabel source target).run ⟨schema.kept source target⟩ = (.ok (), schema') ∧
        (SchemaHost.renameField source target : Step Schema Unit).run schema = (.ok (), schema') := by
  have directives (r : Registry) (lines : List (Option String)) (fault : Fault)
      (h : (compile r lines).1 = .error fault) : ∃ message, fault = .invalidDirective message := by
    obtain ⟨line?, -, hline⟩ := exists_of_compile_error h
    exact r.onlyInvalid_compile line? fault hline
  exact ⟨Registry.onlyInvalid_compile, directives, fun r script => directives r _,
    fun _ _ _ => blames_of_transformSchema, fun _ _ _ => blames_of_transformRow,
    fun _ _ _ _ => blames_of_run, fun _ _ => Stage.Raises.typeMismatch_or_notFound,
    fun _ _ => Stage.run_rowStep_of_null, fun _ _ target => Schema.exists_relabel_of_mem target⟩

/-- A directive is missing after a good one; the second row has no card; the card of the first one is null. -/
theorem faults_by_phase_of_missing_card :
    let masking : Stage := .mask "card" (.substitution .right '*' 4)
    let p : Pipeline := ⟨[.toText "pin", masking, .rename "card" "pan"]⟩
    let schema : Schema := ⟨[⟨"pin", .int⟩, ⟨"card", .nullable .string⟩, ⟨"pan", .int⟩]⟩
    let row : Row := ⟨Dict.ofList [("card", .null), ("pin", .int 4821)]⟩
    let rows : List Row := [row, ⟨Dict.ofList [("pin", .int 1234)]⟩]
    let log : List LogEntry := [.failedRowStep masking (.notFound "card")]
    (∃ message,
      (compile .default [some "to-string pin", none]).1 = .error (.invalidDirective message)) ∧
    ((p.run schema rows).result, (p.run schema rows).log) = (.error (.notFound "card"), log) ∧
    p.Blames (.notFound "card") log ∧
    (masking.rowStep : Step Row Unit).run row = (.ok (), row) ∧
    (∃ schema', (Schema.relabel "card" "pan").run ⟨[⟨"pin", .int⟩, ⟨"card", .nullable .string⟩]⟩ =
        (.ok (), schema') ∧
      (SchemaHost.renameField "card" "pan" : Step Schema Unit).run schema = (.ok (), schema')) := by
  intro masking p schema row rows log
  have fails : (p.run schema rows).result = .error (.notFound "card") := by rfl
  have reported : (p.run schema rows).log = log := by rfl
  obtain ⟨-, directives, -, -, -, run, -, null, kept⟩ := faults_by_phase
  refine ⟨?refused, ?ends, ?blames, ?passes, ?finds⟩
  case refused =>
    have refuses : (compile .default [some "to-string pin", none]).1 =
        .error (.invalidDirective "Directive command line is null.") := by decide +kernel
    obtain ⟨message, hfault⟩ := directives _ _ _ refuses
    exact ⟨message, hfault ▸ refuses⟩
  case ends => rw [fails, reported]
  case blames => exact reported ▸ run p schema rows _ fails
  case passes => exact null masking row (by decide) (by rfl)
  case finds => exact kept schema "card" "pan" (by decide)

end Pipeline
end RowDirectives
