import Mathlib.Data.List.Induction
import RowDirectives.Proofs.Masking
import RowDirectives.Proofs.Outcome

/-! Without renames a pipeline can be replayed: on what a run leaves, a second run does nothing, and it
ends and reports as the first one did. On a schema each stage is settled once it has taken place. On a row
it is not, since masks with other covers may follow; there each stage is absorbed by its own later
application, so a replay of all stages ends where the last of them ended before. -/
namespace RowDirectives

namespace Stage

/-- The schema says what it would say right after the stage. -/
def Settled (schema : Schema) : Stage → Prop
  | rename _ _ => False
  | toText column => schema.find? column = some ⟨column, .string⟩
  | mask column m => ∃ field, schema.find? column = some field ∧ m.accepts field.type = true

variable {stage other : Stage} {schema schema' : Schema}

theorem Settled.onSchema (h : stage.Settled schema) : stage.onSchema schema = .ok schema := by
  cases stage with
  | rename source target => exact h.elim
  | toText column =>
    rw [onSchema_toText]
    exact congrArg Except.ok (Schema.setField_eq_self h)
  | mask column m => exact onSchema_mask_eq_ok.mpr ⟨rfl, h⟩

theorem settled_of_onSchema (plain : stage.kind ≠ .rename)
    (h : stage.onSchema schema = .ok schema') : stage.Settled schema' := by
  cases stage with
  | rename source target => exact absurd rfl plain
  | toText column =>
    rw [onSchema_toText] at h
    rw [← Except.ok.inj h, Settled, Schema.find?_setField, if_pos rfl]
  | mask column m =>
    obtain ⟨rfl, haccepts⟩ := onSchema_mask_eq_ok.mp h
    exact haccepts

theorem accepts_string (m : Mask) : m.accepts .string = true := by
  cases m <;> rfl

theorem Settled.keep (h : stage.Settled schema) (plain : other.kind ≠ .rename)
    (hother : other.onSchema schema = .ok schema') : stage.Settled schema' := by
  cases other with
  | rename source target => exact absurd rfl plain
  | toText column =>
    rw [onSchema_toText] at hother
    cases Except.ok.inj hother
    cases stage with
    | rename source target => exact h.elim
    | toText column' =>
      rw [Settled, Schema.find?_setField]
      split
      next heq => rw [heq]
      next => exact h
    | mask column' m =>
      rw [Settled, Schema.find?_setField]
      split
      next => exact ⟨_, rfl, accepts_string m⟩
      next => exact h
  | mask column m =>
    obtain ⟨rfl, -⟩ := onSchema_mask_eq_ok.mp hother
    exact h

end Stage

namespace Json

def mapText (f : String → String) : Json → Json
  | .string text => .string (f text)
  | value => value

theorem TextOrNull.mapText {value : Json} (h : value.TextOrNull) (f : String → String) :
    (value.mapText f).TextOrNull := by
  rcases h with rfl | ⟨text, rfl⟩
  · exact .inl rfl
  · exact .inr ⟨f text, rfl⟩

end Json

namespace Row

/-- The row has the column, with null or a text in it. -/
def HoldsText (row : Row) (column : String) : Prop :=
  ∃ value, row.columns.get? column = some value ∧ value.TextOrNull

def mapText (row : Row) (column : String) (f : String → String) : Row :=
  match row.columns.get? column with
  | some value => row.setColumn column (value.mapText f)
  | none => row

variable {row : Row}

@[simp] theorem get?_mapText (row : Row) (column name : String) (f : String → String) :
    (row.mapText column f).columns.get? name =
      if name = column then (row.columns.get? name).map (Json.mapText f)
      else row.columns.get? name := by
  unfold mapText
  cases hget : row.columns.get? column with
  | none =>
    by_cases hname : name = column
    · simp [hname, hget]
    · simp [hname]
  | some value =>
    by_cases hname : name = column
    · simp [hname, hget]
    · simp [hname]

theorem HoldsText.mapText {name : String} (h : row.HoldsText name) (column : String)
    (f : String → String) : (row.mapText column f).HoldsText name := by
  obtain ⟨value, hvalue, htext⟩ := h
  rw [HoldsText, get?_mapText]
  split
  · exact ⟨value.mapText f, by rw [hvalue, Option.map_some], htext.mapText f⟩
  · exact ⟨value, hvalue, htext⟩

theorem mapText_idem {f : String → String} (hf : ∀ text, f (f text) = f text) (row : Row)
    (column : String) : (row.mapText column f).mapText column f = row.mapText column f := by
  apply ext_get?
  intro name
  simp only [get?_mapText]
  by_cases hname : name = column
  · simp only [if_pos hname]
    cases row.columns.get? name with
    | none => rfl
    | some value => cases value <;> simp [Json.mapText, hf]
  · simp only [if_neg hname]

theorem mapText_absorb {f g : String → String} (hfg : ∀ text, f (g (f text)) = f (g text))
    (hf : ∀ text, f (f text) = f text) (row : Row) (column other : String) :
    ((row.mapText column f).mapText other g).mapText column f =
      (row.mapText other g).mapText column f := by
  -- On two columns the changes pass each other, on one the last of them decides.
  apply ext_get?
  intro name
  simp only [get?_mapText]
  by_cases hname : name = column
  · by_cases hother : name = other
    · simp only [if_pos hname, if_pos hother]
      cases row.columns.get? name with
      | none => rfl
      | some value => cases value <;> simp [Json.mapText, hfg]
    · simp only [if_pos hname, if_neg hother]
      cases row.columns.get? name with
      | none => rfl
      | some value => cases value <;> simp [Json.mapText, hf]
  · simp only [if_neg hname]

end Row

namespace Stage

variable {stage other : Stage} {row row' : Row}

/-- What a stage does to a text: only a mask does anything. -/
def onText : Stage → String → String
  | mask _ m, text => m.applied text
  | _, text => text

theorem onValue_of_textOrNull (plain : stage.kind ≠ .rename) {value : Json} (h : value.TextOrNull) :
    stage.onValue value = .ok (value.mapText stage.onText) := by
  cases stage with
  | rename source target => exact absurd rfl plain
  | toText column => rcases h with rfl | ⟨text, rfl⟩ <;> rfl
  | mask column m => rcases h with rfl | ⟨text, rfl⟩ <;> rfl

def onTexts (row : Row) (stage : Stage) : Row := row.mapText stage.column stage.onText

theorem onRow_of_holdsText (plain : stage.kind ≠ .rename) (h : row.HoldsText stage.column) :
    stage.onRow row = .ok (onTexts row stage) := by
  obtain ⟨value, hvalue, htext⟩ := h
  rw [onRow_eq_rewrite plain, Row.rewrite_of_value hvalue, onValue_of_textOrNull plain htext,
    onTexts, Row.mapText, hvalue]
  rfl

theorem onTexts_toText (row : Row) (column : String) : onTexts row (toText column) = row := by
  apply Row.ext_get?
  intro name
  rw [onTexts, Row.get?_mapText]
  split
  · cases row.columns.get? name with
    | none => rfl
    | some value => cases value <;> rfl
  · rfl

theorem onText_onText (stage : Stage) (text : String) :
    stage.onText (stage.onText text) = stage.onText text := by
  cases stage with
  | mask column m => exact m.applied_applied text
  | _ => rfl

theorem onTexts_onTexts_onTexts (stage other : Stage) (row : Row) :
    onTexts (onTexts (onTexts row stage) other) stage = onTexts (onTexts row other) stage := by
  apply Row.mapText_absorb _ stage.onText_onText
  intro text
  cases stage with
  | mask column m =>
    cases other with
    | mask column' m' => exact m.applied_applied_applied m' text
    | _ => exact m.applied_applied text
  | _ => rfl

theorem foldl_onTexts_absorb (stages : List Stage) (stage : Stage) (row : Row) :
    onTexts (stages.foldl onTexts (onTexts row stage)) stage =
      onTexts (stages.foldl onTexts row) stage := by
  induction stages generalizing row with
  | nil => exact Row.mapText_idem stage.onText_onText row stage.column
  | cons other rest ih =>
    simp only [List.foldl_cons]
    rw [← ih, onTexts_onTexts_onTexts, ih]

theorem holdsText_of_onRow (plain : stage.kind ≠ .rename) (h : stage.onRow row = .ok row') :
    row'.HoldsText stage.column := by
  rw [onRow_eq_rewrite plain] at h
  obtain ⟨value, value', hvalue, hrewrite, rfl⟩ := Row.rewrite_eq_ok.mp h
  exact ⟨value', by simp, textOrNull_of_onValue plain hrewrite⟩

theorem holdsText_keep {column : String} (h : row.HoldsText column) (plain : stage.kind ≠ .rename)
    (hstage : stage.onRow row = .ok row') : row'.HoldsText column := by
  rw [onRow_eq_rewrite plain] at hstage
  obtain ⟨value, value', hvalue, hrewrite, rfl⟩ := Row.rewrite_eq_ok.mp hstage
  rw [Row.HoldsText, Row.get?_setColumn]
  split
  · exact ⟨value', rfl, textOrNull_of_onValue plain hrewrite⟩
  · exact h

end Stage

namespace Pipeline

variable {stages : List Stage} {row row' : Row}

theorem through_of_holdsText (plain : ∀ stage ∈ stages, stage.kind ≠ .rename)
    (h : ∀ stage ∈ stages, row.HoldsText stage.column) :
    through Stage.rowStep stages row = .ok (stages.foldl Stage.onTexts row) := by
  induction stages generalizing row with
  | nil => rfl
  | cons stage rest ih =>
    apply through_cons_eq_ok.mpr
    refine ⟨Stage.onTexts row stage, ?_, ?_⟩
    · exact Stage.onRow_of_holdsText (plain stage List.mem_cons_self) (h stage List.mem_cons_self)
    · apply ih fun other mem => plain other (List.mem_cons_of_mem _ mem)
      intro other mem
      exact (h other (List.mem_cons_of_mem _ mem)).mapText _ _

theorem holdsText_of_through (plain : ∀ stage ∈ stages, stage.kind ≠ .rename)
    (h : through Stage.rowStep stages row = .ok row') {stage : Stage} (mem : stage ∈ stages) :
    row'.HoldsText stage.column := by
  refine through_establishes mem (fun _ _ => Stage.holdsText_of_onRow (plain stage mem)) ?_ h
  exact fun other hother _ _ hs => Stage.holdsText_keep hs (plain other hother)

theorem through_replay (plain : ∀ stage ∈ stages, stage.kind ≠ .rename)
    (h : through Stage.rowStep stages row = .ok row') :
    through Stage.rowStep stages row' = .ok row' := by
  -- The last stage is the one that absorbs, so it is taken off. It finds null or a text in its column, or
  -- it is a to-string on a column that no stage before it asks for.
  induction stages using List.reverseRecOn generalizing row' with
  | nil => rfl
  | append_singleton before last ih =>
    have plainBefore : ∀ stage ∈ before, stage.kind ≠ .rename :=
      fun stage mem => plain stage (List.mem_append_left _ mem)
    have plainLast : last.kind ≠ .rename := plain last (by simp)
    obtain ⟨mid, hbefore, hlast⟩ := through_append_eq_ok.mp h
    obtain ⟨_, hstep, hnil⟩ := through_cons_eq_ok.mp hlast
    cases Except.ok.inj hnil
    have hmid := ih plainBefore hbefore
    have textsMid : ∀ stage ∈ before, mid.HoldsText stage.column :=
      fun stage => holdsText_of_through plainBefore hbefore
    have texts : ∀ stage ∈ before ++ [last], row'.HoldsText stage.column :=
      fun stage => holdsText_of_through plain h
    by_cases htext : mid.HoldsText last.column
    · have hrow : row' = Stage.onTexts mid last := by
        have := Stage.onRow_of_holdsText plainLast htext
        exact Except.ok.inj (hstep.symm.trans this)
      have hfold : before.foldl Stage.onTexts mid = mid := by
        rw [through_of_holdsText plainBefore textsMid] at hmid
        exact Except.ok.inj hmid
      rw [through_of_holdsText plain texts, List.foldl_append, hrow, List.foldl_cons,
        List.foldl_nil, Stage.foldl_onTexts_absorb, hfold]
    · have away : ∀ stage ∈ before, last.column ∉ stage.names := by
        intro stage mem hnames
        rw [Stage.names_of_plain (plainBefore stage mem), List.mem_singleton] at hnames
        exact htext (hnames ▸ textsMid stage mem)
      obtain ⟨value, value', hvalue, hrewrite, rfl⟩ := Row.rewrite_eq_ok.mp
        ((Stage.onRow_eq_rewrite plainLast mid).symm.trans hstep)
      apply through_append_eq_ok.mpr
      refine ⟨mid.setColumn last.column value', ?_, ?_⟩
      · rw [through_setColumn away, hmid]
        rfl
      cases last with
      | rename source target => exact absurd rfl plainLast
      | toText column =>
        apply through_cons_eq_ok.mpr
        refine ⟨_, Stage.onRow_of_holdsText plainLast (texts _ (by simp)), ?_⟩
        rw [Stage.onTexts_toText]
        rfl
      | mask column m => exact absurd ⟨value, hvalue, Mask.textOrNull_of_rewrite hrewrite⟩ htext

theorem settled_of_through {schema schema' : Schema}
    (plain : ∀ stage ∈ stages, stage.kind ≠ .rename)
    (h : through Stage.schemaStep stages schema = .ok schema') {stage : Stage}
    (mem : stage ∈ stages) : stage.Settled schema' := by
  refine through_establishes mem (fun _ _ => Stage.settled_of_onSchema (plain stage mem)) ?_ h
  exact fun other hother _ _ hs => hs.keep (plain other hother)

theorem schemaThrough_replay {schema schema' : Schema}
    (plain : ∀ stage ∈ stages, stage.kind ≠ .rename)
    (h : through Stage.schemaStep stages schema = .ok schema') :
    through Stage.schemaStep stages schema' = .ok schema' :=
  through_of_fixed fun _ mem => (settled_of_through plain h mem).onSchema

theorem rowsThrough_replay {p : Pipeline} {rows rows' : List Row}
    (plain : ∀ stage ∈ p.stages, stage.kind ≠ .rename) (h : p.RowsThrough rows rows') :
    p.RowsThrough rows' rows' := by
  induction h with
  | nil => exact .nil
  | cons hrow _ ih => exact .cons (through_replay plain hrow) ih

/-- On the schema and the rows that a run leaves, whether it succeeded or not, a second run ends in the
same result, leaves everything as it is and reports the same. -/
theorem run_replay (p : Pipeline) (schema : Schema) (rows : List Row)
    (plain : ∀ stage ∈ p.stages, stage.kind ≠ .rename) :
    p.run (p.run schema rows).state.1 (p.run schema rows).state.2 = p.run schema rows := by
  have plainBefore {before after : List Stage} {stage : Stage}
      (split : p.stages = before ++ stage :: after) : ∀ other ∈ before, other.kind ≠ .rename :=
    fun other mem => plain other (split ▸ List.mem_append_left _ mem)
  have ends := runsTo_run p schema rows
  generalize p.run schema rows = o at ends
  apply RunsTo.eq
  cases ends with
  | schemaFault before after stage schema' fault split earlier fails =>
    exact .schemaFault before after stage schema' fault split
      (schemaThrough_replay (plainBefore split) earlier) fails
  | rowFault before after stage schema' done done' rest row row' fault whole place first split
      earlier fails =>
    exact .rowFault before after stage schema' done' done' rest row' row' fault
      (schemaThrough_replay plain whole) rfl (rowsThrough_replay plain first) split
      (through_replay (plainBefore split) earlier) fails
  | finished schema' rows' whole all =>
    exact .finished schema' rows' (schemaThrough_replay plain whole)
      (rowsThrough_replay plain all)

theorem run_replay_after_fault :
    let p : Pipeline := ⟨[.toText "pin", .mask "pin" (.range 1 3),
      .mask "pin" (.substitution .left '#' 2), .mask "card" (.substitution .right '*' 2)]⟩
    let schema : Schema := ⟨[⟨"pin", .int⟩, ⟨"card", .nullable .string⟩]⟩
    let rows : List Row := [⟨Dict.ofList [("pin", .int 48217), ("card", .string "4111")]⟩,
      ⟨Dict.ofList [("pin", .int 7), ("card", .bool true)]⟩]
    (∀ stage ∈ p.stages, stage.kind ≠ .rename) ∧
      (p.run schema rows).result = .error (.valueNotText "card") ∧
      p.run (p.run schema rows).state.1 (p.run schema rows).state.2 = p.run schema rows := by
  intro p schema rows
  have plain : ∀ stage ∈ p.stages, stage.kind ≠ .rename := by decide
  exact ⟨plain, rfl, run_replay p schema rows plain⟩

end Pipeline
end RowDirectives
