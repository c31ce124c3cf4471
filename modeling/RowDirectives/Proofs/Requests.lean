import RowDirectives.Proofs.Steps
import RowDirectives.Stage.Step

/-! What a stage asks of the schema or the row that it works on, whatever answers. A host may be in any state
and give any answers, failures included; the stage and the answer to its first request fix which requests
reach it, and in which order. A dialogue lists them beside the way the stage ends. A stage that fails has
made one request only, a renaming that was refused or a question, so it changes nothing on a host that keeps
its state over these. -/
namespace RowDirectives

def Json.TextOrNull (value : Json) : Prop := value = null ∨ ∃ text, value = string text

/-- Null alone has no text. -/
theorem Json.exists_text {value : Json} (h : value ≠ null) : ∃ text, value.text? = some text := by
  cases value with
  | null => exact absurd rfl h
  | _ => exact ⟨_, rfl⟩

namespace Stage

/-- The column that a stage asks for. -/
def column : Stage → String
  | rename source _ => source
  | toText column => column
  | mask column _ => column

/-- A renaming changes the names of columns, every other stage the value of one column. -/
theorem rename_or_plain (stage : Stage) :
    (∃ source target, stage = rename source target) ∨ stage.kind ≠ .rename := by
  cases stage with
  | rename source target => exact .inl ⟨source, target, rfl⟩
  | toText column => exact .inr Kind.noConfusion
  | mask column m => cases m <;> exact .inr Kind.noConfusion

end Stage

theorem Recorded.run_passing {σ κ α : Type} {act : StateM σ α} {host host' : σ} {answer : α}
    (h : act.run host = (answer, host')) (call : κ) (calls : List κ) :
    (passing call act).run ⟨host, calls⟩ = (answer, ⟨host', calls ++ [call]⟩) := by
  change ((act.run host).1, (⟨(act.run host).2, calls ++ [call]⟩ : Recorded σ κ)) = _
  rw [h]

section Schemas

variable {σ : Type} [SchemaHost σ]

/-- The requests that a stage makes to a schema, how the stage ends, and the state in which it leaves the
host, by what the host answers. -/
inductive SchemaDialogue (host : σ) : Stage → List SchemaCall → Except Fault Unit → σ → Prop
  | rename {source target : String} {answer : Except Fault Unit} {host' : σ} :
      (SchemaHost.renameField source target : Step σ Unit).run host = (answer, host') →
      SchemaDialogue host (.rename source target) [.renameField source target] answer host'
  | toText {column : String} {host' : σ} :
      (SchemaHost.setField ⟨column, .string⟩ : StateM σ Unit).run host = ((), host') →
      SchemaDialogue host (.toText column) [.setField ⟨column, .string⟩] (.ok ()) host'
  | missing {column : String} {m : Mask} {fault : Fault} {host' : σ} :
      (SchemaHost.getField column : Step σ Field).run host = (.error fault, host') →
      SchemaDialogue host (.mask column m) [.getField column] (.error fault) host'
  | accepted {column : String} {m : Mask} {field : Field} {host' : σ} :
      (SchemaHost.getField column : Step σ Field).run host = (.ok field, host') →
      m.accepts field.type = true →
      SchemaDialogue host (.mask column m) [.getField column] (.ok ()) host'
  | notText {column : String} {m : Mask} {field : Field} {host' : σ} :
      (SchemaHost.getField column : Step σ Field).run host = (.ok field, host') →
      m.accepts field.type = false →
      SchemaDialogue host (.mask column m) [.getField column]
        (.error (.fieldNotText column field.type)) host'

variable {host host' : σ} {stage : Stage} {made : List SchemaCall} {result : Except Fault Unit}

theorem SchemaDialogue.run (h : SchemaDialogue host stage made result host') :
    (stage.schemaStep : Step σ Unit).run host = (result, host') := by
  cases h with
  | rename answer => exact answer
  | toText answer => exact Step.lift_of_run answer
  | missing answer => exact Step.bind_of_error answer
  | accepted answer accepts =>
    rw [Stage.schemaStep, Step.bind_of_ok answer, if_pos accepts]
    rfl
  | notText answer refuses =>
    rw [Stage.schemaStep, Step.bind_of_ok answer, if_neg (Bool.not_eq_true _ ▸ refuses)]
    rfl

/-- A host that is recorded has the same dialogues, and its record holds what is asked in them. -/
theorem SchemaDialogue.recorded (h : SchemaDialogue host stage made result host')
    (calls : List SchemaCall) :
    SchemaDialogue (⟨host, calls⟩ : Recorded σ SchemaCall) stage made result
      ⟨host', calls ++ made⟩ := by
  cases h with
  | rename answer => exact .rename (Recorded.run_passing answer _ calls)
  | toText answer => exact .toText (Recorded.run_passing answer _ calls)
  | missing answer => exact .missing (Recorded.run_passing answer _ calls)
  | accepted answer accepts => exact .accepted (Recorded.run_passing answer _ calls) accepts
  | notText answer refuses => exact .notText (Recorded.run_passing answer _ calls) refuses

theorem exists_schemaDialogue (host : σ) (stage : Stage) :
    ∃ made result host', SchemaDialogue host stage made result host' := by
  cases stage with
  | rename source target => exact ⟨_, _, _, .rename rfl⟩
  | toText column => exact ⟨_, _, _, .toText rfl⟩
  | mask column m =>
    cases hanswer : (SchemaHost.getField column : Step σ Field).run host with
    | mk answer host' =>
      cases answer with
      | error fault => exact ⟨_, _, _, .missing hanswer⟩
      | ok field =>
        cases haccepts : m.accepts field.type with
        | true => exact ⟨_, _, _, .accepted hanswer haccepts⟩
        | false => exact ⟨_, _, _, .notText hanswer haccepts⟩

theorem run_schemaStep_iff : (stage.schemaStep : Step σ Unit).run host = (result, host') ↔
    ∃ made, SchemaDialogue host stage made result host' :=
  Step.run_eq_iff SchemaDialogue.run (exists_schemaDialogue host stage)

theorem run_recorded_schemaStep_iff {calls : List SchemaCall} {after : Recorded σ SchemaCall} :
    (stage.schemaStep : Step (Recorded σ SchemaCall) Unit).run ⟨host, calls⟩ = (result, after) ↔
      ∃ made host', SchemaDialogue host stage made result host' ∧ after = ⟨host', calls ++ made⟩ := by
  apply Step.run_eq_iff
  · rintro made result after ⟨host', dialogue, rfl⟩
    exact (dialogue.recorded calls).run
  · obtain ⟨made, result, host', dialogue⟩ := exists_schemaDialogue host stage
    exact ⟨made, result, _, host', dialogue, rfl⟩

/-- The host answers the request with the fault. No answer to a change of a field is a fault. -/
def SchemaCall.Refused (host : σ) (fault : Fault) : SchemaCall → Prop
  | getField name => ((SchemaHost.getField name : Step σ Field).run host).1 = .error fault
  | setField _ => False
  | renameField source target =>
    ((SchemaHost.renameField source target : Step σ Unit).run host).1 = .error fault

theorem SchemaDialogue.of_error {fault : Fault}
    (h : SchemaDialogue host stage made (.error fault) host') :
    ∃ call, made = [call] ∧ (call.Refused host fault ∨
      ∃ column m type, stage = .mask column m ∧ call = .getField column ∧
        fault = .fieldNotText column type) := by
  cases h with
  | rename answer => exact ⟨_, rfl, .inl (congrArg Prod.fst answer)⟩
  | missing answer => exact ⟨_, rfl, .inl (congrArg Prod.fst answer)⟩
  | notText answer refuses => exact ⟨_, rfl, .inr ⟨_, _, _, rfl, rfl, rfl⟩⟩

/-- On a host that keeps its state over questions and over the renamings that it refuses, a stage that fails
leaves the schema as it was. -/
theorem Stage.atomic_schemaStep_of_host
    (asks : ∀ name (s : σ), ((SchemaHost.getField name : Step σ Field).run s).2 = s)
    (renames : ∀ source target, (SchemaHost.renameField source target : Step σ Unit).Atomic)
    (stage : Stage) : (stage.schemaStep : Step σ Unit).Atomic := by
  intro host fault fails
  obtain ⟨host', hrun⟩ := Step.exists_of_exec_error fails
  obtain ⟨made, dialogue⟩ := run_schemaStep_iff.mp hrun
  suffices host' = host from this ▸ hrun
  cases dialogue with
  | rename answer => exact ((renames _ _).run_eq_error.mp answer).2
  | missing answer => exact (congrArg Prod.snd answer).symm.trans (asks _ host)
  | notText answer => exact (congrArg Prod.snd answer).symm.trans (asks _ host)

end Schemas

section Rows

variable {σ : Type} [RowHost σ]

/-- The requests that a stage makes to a row, how the stage ends, and the state in which it leaves the
host, by what the host answers. -/
inductive RowDialogue (host : σ) : Stage → List RowCall → Except Fault Unit → σ → Prop
  | rename {source target : String} {answer : Except Fault Unit} {host' : σ} :
      (RowHost.renameColumn source target : Step σ Unit).run host = (answer, host') →
      RowDialogue host (.rename source target) [.renameColumn source target] answer host'
  | missing {stage : Stage} {fault : Fault} {host' : σ} :
      stage.kind ≠ .rename →
      (RowHost.getColumn stage.column : Step σ Json).run host = (.error fault, host') →
      RowDialogue host stage [.getColumn stage.column] (.error fault) host'
  | null {stage : Stage} {host' : σ} :
      stage.kind ≠ .rename →
      (RowHost.getColumn stage.column : Step σ Json).run host = (.ok .null, host') →
      RowDialogue host stage [.getColumn stage.column] (.ok ()) host'
  | toText {column text : String} {value : Json} {mid host' : σ} :
      (RowHost.getColumn column : Step σ Json).run host = (.ok value, mid) →
      value ≠ .null → value.text? = some text →
      (RowHost.setColumn column (.string text) : StateM σ Unit).run mid = ((), host') →
      RowDialogue host (.toText column) [.getColumn column, .setColumn column (.string text)]
        (.ok ()) host'
  | masked {column text masked : String} {m : Mask} {mid host' : σ} :
      (RowHost.getColumn column : Step σ Json).run host = (.ok (.string text), mid) →
      m.masked? text = some masked →
      (RowHost.setColumn column (.string masked) : StateM σ Unit).run mid = ((), host') →
      RowDialogue host (.mask column m) [.getColumn column, .setColumn column (.string masked)]
        (.ok ()) host'
  | tooShort {column text : String} {m : Mask} {host' : σ} :
      (RowHost.getColumn column : Step σ Json).run host = (.ok (.string text), host') →
      m.masked? text = none →
      RowDialogue host (.mask column m) [.getColumn column] (.ok ()) host'
  | notText {column : String} {m : Mask} {value : Json} {host' : σ} :
      (RowHost.getColumn column : Step σ Json).run host = (.ok value, host') →
      ¬ value.TextOrNull →
      RowDialogue host (.mask column m) [.getColumn column] (.error (.valueNotText column)) host'

variable {host host' : σ} {stage : Stage} {made : List RowCall} {result : Except Fault Unit}

theorem RowDialogue.run (h : RowDialogue host stage made result host') :
    (stage.rowStep : Step σ Unit).run host = (result, host') := by
  cases h with
  | rename answer => exact answer
  | missing plain answer =>
    cases stage with
    | rename source target => exact absurd rfl plain
    | _ => exact Step.bind_of_error answer
  | null plain answer =>
    cases stage with
    | rename source target => exact absurd rfl plain
    | _ => exact Step.bind_of_ok answer
  | toText answer present text written =>
    rw [Stage.rowStep, Step.bind_of_ok answer]
    simp only [text]
    exact Step.lift_of_run written
  | masked answer text written =>
    rw [Stage.rowStep, Step.bind_of_ok answer]
    simp only [text]
    exact Step.lift_of_run written
  | tooShort answer text =>
    rw [Stage.rowStep, Step.bind_of_ok answer]
    simp only [text]
    rfl
  | @notText column m value host' answer other =>
    rw [Stage.rowStep, Step.bind_of_ok answer]
    cases value with
    | null => exact absurd (.inl rfl) other
    | string text => exact absurd (.inr ⟨text, rfl⟩) other
    | _ => rfl

theorem RowDialogue.recorded (h : RowDialogue host stage made result host')
    (calls : List RowCall) :
    RowDialogue (⟨host, calls⟩ : Recorded σ RowCall) stage made result ⟨host', calls ++ made⟩ := by
  cases h with
  | rename answer => exact .rename (Recorded.run_passing answer _ calls)
  | missing plain answer => exact .missing plain (Recorded.run_passing answer _ calls)
  | null plain answer => exact .null plain (Recorded.run_passing answer _ calls)
  | toText answer present text written =>
    rw [List.append_cons]
    exact .toText (Recorded.run_passing answer _ calls) present text
      (Recorded.run_passing written _ _)
  | masked answer text written =>
    rw [List.append_cons]
    exact .masked (Recorded.run_passing answer _ calls) text (Recorded.run_passing written _ _)
  | tooShort answer text => exact .tooShort (Recorded.run_passing answer _ calls) text
  | notText answer other => exact .notText (Recorded.run_passing answer _ calls) other

theorem exists_rowDialogue (host : σ) (stage : Stage) :
    ∃ made result host', RowDialogue host stage made result host' := by
  rcases stage.rename_or_plain with ⟨source, target, rfl⟩ | plain
  · exact ⟨_, _, _, .rename rfl⟩
  cases hanswer : (RowHost.getColumn stage.column : Step σ Json).run host with
  | mk answer host' =>
    cases answer with
    | error fault => exact ⟨_, _, _, .missing plain hanswer⟩
    | ok value =>
      by_cases hnull : value = .null
      · exact ⟨_, _, _, .null plain (hnull ▸ hanswer)⟩
      cases stage with
      | rename source target => exact absurd rfl plain
      | toText column =>
        obtain ⟨text, htext⟩ := Json.exists_text hnull
        exact ⟨_, _, _, .toText hanswer hnull htext rfl⟩
      | mask column m =>
        by_cases hother : value.TextOrNull
        · obtain ⟨text, rfl⟩ := hother.resolve_left hnull
          cases hmasked : m.masked? text with
          | none => exact ⟨_, _, _, .tooShort hanswer hmasked⟩
          | some masked => exact ⟨_, _, _, .masked hanswer hmasked rfl⟩
        · exact ⟨_, _, _, .notText hanswer hother⟩

theorem run_rowStep_iff : (stage.rowStep : Step σ Unit).run host = (result, host') ↔
    ∃ made, RowDialogue host stage made result host' :=
  Step.run_eq_iff RowDialogue.run (exists_rowDialogue host stage)

theorem run_recorded_rowStep_iff {calls : List RowCall} {after : Recorded σ RowCall} :
    (stage.rowStep : Step (Recorded σ RowCall) Unit).run ⟨host, calls⟩ = (result, after) ↔
      ∃ made host', RowDialogue host stage made result host' ∧ after = ⟨host', calls ++ made⟩ := by
  apply Step.run_eq_iff
  · rintro made result after ⟨host', dialogue, rfl⟩
    exact (dialogue.recorded calls).run
  · obtain ⟨made, result, host', dialogue⟩ := exists_rowDialogue host stage
    exact ⟨made, result, _, host', dialogue, rfl⟩

/-- The host answers the request with the fault. No answer to a change of a value is a fault. -/
def RowCall.Refused (host : σ) (fault : Fault) : RowCall → Prop
  | getColumn name => ((RowHost.getColumn name : Step σ Json).run host).1 = .error fault
  | setColumn _ _ => False
  | renameColumn source target =>
    ((RowHost.renameColumn source target : Step σ Unit).run host).1 = .error fault

theorem RowDialogue.of_error {fault : Fault} (h : RowDialogue host stage made (.error fault) host') :
    ∃ call, made = [call] ∧ (call.Refused host fault ∨
      ∃ column m, stage = .mask column m ∧ call = .getColumn column ∧
        fault = .valueNotText column) := by
  cases h with
  | rename answer => exact ⟨_, rfl, .inl (congrArg Prod.fst answer)⟩
  | missing plain answer => exact ⟨_, rfl, .inl (congrArg Prod.fst answer)⟩
  | notText answer other => exact ⟨_, rfl, .inr ⟨_, _, rfl, rfl, rfl⟩⟩

/-- On a host that keeps its state over questions and over the renamings that it refuses, a stage that fails
leaves the row as it was. -/
theorem Stage.atomic_rowStep_of_host
    (asks : ∀ name (s : σ), ((RowHost.getColumn name : Step σ Json).run s).2 = s)
    (renames : ∀ source target, (RowHost.renameColumn source target : Step σ Unit).Atomic)
    (stage : Stage) : (stage.rowStep : Step σ Unit).Atomic := by
  intro host fault fails
  obtain ⟨host', hrun⟩ := Step.exists_of_exec_error fails
  obtain ⟨made, dialogue⟩ := run_rowStep_iff.mp hrun
  suffices host' = host from this ▸ hrun
  cases dialogue with
  | rename answer => exact ((renames _ _).run_eq_error.mp answer).2
  | missing plain answer => exact (congrArg Prod.snd answer).symm.trans (asks _ host)
  | notText answer => exact (congrArg Prod.snd answer).symm.trans (asks _ host)

end Rows

/-- Whatever answers a stage, the requests that reach it, the result and the state in which it is left are
those of a dialogue, and a record of the requests changes nothing. A stage that fails has made one request:
one that was refused with this very fault, or the question of a mask that another type answers. -/
theorem Stage.requests_on_any_host {σ τ : Type} [SchemaHost σ] [RowHost τ] (stage : Stage) :
    (∀ (host : σ) (calls : List SchemaCall) (result : Except Fault Unit)
      (after : Recorded σ SchemaCall),
      (stage.schemaStep : Step (Recorded σ SchemaCall) Unit).run ⟨host, calls⟩ = (result, after) ↔
        ∃ made host', SchemaDialogue host stage made result host' ∧
          after = ⟨host', calls ++ made⟩) ∧
    (∀ (host host' : σ) (result : Except Fault Unit),
      (stage.schemaStep : Step σ Unit).run host = (result, host') ↔
        ∃ made, SchemaDialogue host stage made result host') ∧
    (∀ (host : τ) (calls : List RowCall) (result : Except Fault Unit) (after : Recorded τ RowCall),
      (stage.rowStep : Step (Recorded τ RowCall) Unit).run ⟨host, calls⟩ = (result, after) ↔
        ∃ made host', RowDialogue host stage made result host' ∧ after = ⟨host', calls ++ made⟩) ∧
    (∀ (host host' : τ) (result : Except Fault Unit),
      (stage.rowStep : Step τ Unit).run host = (result, host') ↔
        ∃ made, RowDialogue host stage made result host') ∧
    (∀ (host host' : σ) (made : List SchemaCall) (fault : Fault),
      SchemaDialogue host stage made (.error fault) host' →
        ∃ call, made = [call] ∧ (call.Refused host fault ∨
          ∃ column m type, stage = .mask column m ∧ call = .getField column ∧
            fault = .fieldNotText column type)) ∧
    ∀ (host host' : τ) (made : List RowCall) (fault : Fault),
      RowDialogue host stage made (.error fault) host' →
        ∃ call, made = [call] ∧ (call.Refused host fault ∨
          ∃ column m, stage = .mask column m ∧ call = .getColumn column ∧
            fault = .valueNotText column) :=
  ⟨fun _ _ _ _ => run_recorded_schemaStep_iff, fun _ _ _ => run_schemaStep_iff,
    fun _ _ _ _ => run_recorded_rowStep_iff, fun _ _ _ => run_rowStep_iff,
    fun _ _ _ _ => SchemaDialogue.of_error, fun _ _ _ _ => RowDialogue.of_error⟩

/-- A row that answers questions with its values in turn, and is never renamed. -/
structure Prompter where
  answers : List Json

instance : RowHost Prompter where
  getColumn name := fun prompter =>
    match prompter.answers with
    | [] => (.error (.io name), prompter)
    | value :: rest => (.ok value, ⟨rest⟩)
  setColumn _ value := modify fun prompter => ⟨prompter.answers ++ [value]⟩
  renameColumn source _ := throw (.config source)

theorem Stage.requests_on_any_host_that_forgets_answers :
    let mask : Stage := .mask "c" (.substitution .left '*' 2)
    let answered (answers : List Json) : Recorded Prompter RowCall := ⟨⟨answers⟩, []⟩
    let declared (fields : List Field) : Recorded Schema SchemaCall := ⟨⟨fields⟩, []⟩
    mask.rowStep.run (answered [.string "4111", .null]) =
        (.ok (), ⟨⟨[.null, .string "41**"]⟩, [.getColumn "c", .setColumn "c" (.string "41**")]⟩) ∧
      mask.rowStep.run (answered [.int 4111]) =
        (.error (.valueNotText "c"), ⟨⟨[]⟩, [.getColumn "c"]⟩) ∧
      mask.rowStep.run (answered []) = (.error (.io "c"), ⟨⟨[]⟩, [.getColumn "c"]⟩) ∧
      (Stage.rename "a" "b").rowStep.run (answered []) =
        (.error (.config "a"), ⟨⟨[]⟩, [.renameColumn "a" "b"]⟩) ∧
      (Stage.toText "c").rowStep.run (answered [.int 4111, .null]) =
        (.ok (), ⟨⟨[.null, .string "4111"]⟩, [.getColumn "c", .setColumn "c" (.string "4111")]⟩) ∧
      (Stage.toText "c").rowStep.run (answered [.null]) = (.ok (), ⟨⟨[]⟩, [.getColumn "c"]⟩) ∧
      (Stage.toText "c").schemaStep.run (declared [⟨"c", .int⟩]) =
        (.ok (), ⟨⟨[⟨"c", .string⟩]⟩, [.setField ⟨"c", .string⟩]⟩) ∧
      mask.schemaStep.run (declared [⟨"c", .int⟩]) =
        (.error (.fieldNotText "c" .int), ⟨⟨[⟨"c", .int⟩]⟩, [.getField "c"]⟩) ∧
      (Stage.rename "a" "b").schemaStep.run (declared [⟨"b", .int⟩]) =
        (.error (.notFound "a"), ⟨⟨[⟨"b", .int⟩]⟩, [.renameField "a" "b"]⟩) := by
  intro mask answered declared
  obtain ⟨maskSchema, -, maskRow, -⟩ := @requests_on_any_host Schema Prompter _ _ mask
  obtain ⟨renameSchema, -, renameRow, -⟩ := @requests_on_any_host Schema Prompter _ _ (.rename "a" "b")
  obtain ⟨toTextSchema, -, toTextRow, -⟩ := @requests_on_any_host Schema Prompter _ _ (.toText "c")
  have other : ¬ (Json.int 4111).TextOrNull := by simp [Json.TextOrNull]
  have wrong := @SchemaDialogue.notText Schema _ ⟨[⟨"c", .int⟩]⟩ "c" (.substitution .left '*' 2)
    ⟨"c", .int⟩ _ rfl rfl
  refine ⟨?_, ?_, ?_, ?_, ?_, ?_, ?_, ?_, ?_⟩
  · exact (maskRow _ _ _ _).mpr ⟨_, _, .masked rfl (by decide +kernel) rfl, rfl⟩
  · exact (maskRow _ _ _ _).mpr ⟨_, _, .notText rfl other, rfl⟩
  · exact (maskRow _ _ _ _).mpr ⟨_, _, .missing (by decide) rfl, rfl⟩
  · exact (renameRow _ _ _ _).mpr ⟨_, _, .rename rfl, rfl⟩
  · exact (toTextRow _ _ _ _).mpr ⟨_, _, .toText rfl nofun rfl rfl, rfl⟩
  · exact (toTextRow _ _ _ _).mpr ⟨_, _, .null (by decide) rfl, rfl⟩
  · exact (toTextSchema _ _ _ _).mpr ⟨_, _, .toText rfl, rfl⟩
  · exact (maskSchema _ _ _ _).mpr ⟨_, _, wrong, rfl⟩
  · exact (renameSchema _ _ _ _).mpr ⟨_, _, .rename rfl, rfl⟩

end RowDirectives
