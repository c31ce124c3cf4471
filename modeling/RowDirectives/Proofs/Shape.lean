import RowDirectives.Proofs.TwoRuns

/-! What results and logs depend on. Two rows have the same shape if they have the same columns, with null,
a text or some other value in both of them. A stage cannot tell such rows apart: it succeeds on both and
leaves rows of the same shape, or fails on both with one fault. So what a run reports says nothing about
the data beyond its shape. -/
namespace RowDirectives

inductive Shape where
  | null
  | text
  | other
  deriving DecidableEq, Repr

namespace Json

def shape : Json → Shape
  | null => .null
  | string _ => .text
  | _ => .other

theorem shape_eq_null {value : Json} : value.shape = .null ↔ value = null := by
  cases value <;> simp [shape]

theorem shape_eq_text {value : Json} : value.shape = .text ↔ ∃ text, value = string text := by
  cases value <;> simp [shape]

theorem shape_asText (value : Json) :
    value.asText.shape = if value.shape = .null then .null else .text := by
  cases value <;> rfl

end Json

theorem Mask.rewrite_of_other (m : Mask) (column : String) {value : Json}
    (h : value.shape = .other) : m.rewrite column value = .error (.valueNotText column) := by
  cases value with
  | null => contradiction
  | string text => contradiction
  | _ => rfl

/-- A stage turns values of one shape into values of one shape, or refuses them for one reason. -/
theorem Stage.onValue_alike (stage : Stage) {value value' : Json} (h : value.shape = value'.shape) :
    Alike (fun v v' => v.shape = v'.shape) (stage.onValue value) (stage.onValue value') := by
  cases stage with
  | rename source target => exact .ok h
  | toText column =>
    apply Alike.ok
    rw [Json.shape_asText, Json.shape_asText, h]
  | mask column m =>
    change Alike _ (m.rewrite column value) (m.rewrite column value')
    cases hshape : value.shape with
    | null =>
      cases Json.shape_eq_null.mp hshape
      cases Json.shape_eq_null.mp h.symm
      exact .ok rfl
    | text =>
      obtain ⟨text, rfl⟩ := Json.shape_eq_text.mp hshape
      obtain ⟨text', rfl⟩ := Json.shape_eq_text.mp h.symm
      exact .ok rfl
    | other =>
      rw [m.rewrite_of_other column hshape, m.rewrite_of_other column (h ▸ hshape)]
      exact .error _

namespace Row

/-- The same columns, and in each of them null, a text or something else on both sides. -/
def SameShape (row other : Row) : Prop :=
  ∀ name, (row.columns.get? name).map Json.shape = (other.columns.get? name).map Json.shape

variable {row other : Row}

theorem SameShape.refl (row : Row) : row.SameShape row := fun _ => rfl

theorem SameShape.setColumn (h : row.SameShape other) (column : String) {value value' : Json}
    (hvalue : value.shape = value'.shape) :
    (row.setColumn column value).SameShape (other.setColumn column value') := by
  intro name
  rw [get?_setColumn, get?_setColumn]
  by_cases hname : name = column
  · rw [if_pos hname, if_pos hname, Option.map_some, Option.map_some, hvalue]
  · rw [if_neg hname, if_neg hname]
    exact h name

theorem SameShape.get? (h : row.SameShape other) (name : String) :
    (row.columns.get? name = none ∧ other.columns.get? name = none) ∨
      ∃ value value', row.columns.get? name = some value ∧ other.columns.get? name = some value' ∧
        value.shape = value'.shape := by
  have hname := h name
  cases hrow : row.columns.get? name with
  | none =>
    rw [hrow, Option.map_none, eq_comm, Option.map_eq_none_iff] at hname
    exact .inl ⟨rfl, hname⟩
  | some value =>
    rw [hrow, Option.map_some, eq_comm, Option.map_eq_some_iff] at hname
    obtain ⟨value', hother, hshape⟩ := hname
    exact .inr ⟨value, value', rfl, hother, hshape.symm⟩

theorem SameShape.rewrite (h : row.SameShape other) (column : String)
    {f : Json → Except Fault Json}
    (alike : ∀ value value', value.shape = value'.shape →
      Alike (fun v v' => v.shape = v'.shape) (f value) (f value')) :
    Alike SameShape (row.rewrite column f) (other.rewrite column f) := by
  rcases h.get? column with ⟨hrow, hother⟩ | ⟨value, value', hrow, hother, hshape⟩
  · rw [rewrite_of_none hrow, rewrite_of_none hother]
    exact .error _
  · rw [rewrite_of_value hrow, rewrite_of_value hother]
    exact (alike value value' hshape).map fun new new' hnew => h.setColumn column hnew

theorem SameShape.renameColumn (h : row.SameShape other) (source target : String) :
    Alike SameShape ((renameColumn source target).exec row) ((renameColumn source target).exec other) := by
  rcases h.get? source with ⟨hrow, hother⟩ | ⟨value, value', hrow, hother, hshape⟩
  · rw [renameColumn_eq_error.mpr ⟨hrow, rfl⟩, renameColumn_eq_error.mpr ⟨hother, rfl⟩]
    exact .error _
  · obtain ⟨row', hrename⟩ := exists_renameColumn hrow target
    obtain ⟨other', hrename'⟩ := exists_renameColumn hother target
    rw [hrename, hrename']
    apply Alike.ok
    intro name
    rw [get?_renameColumn hrename, get?_renameColumn hrename']
    split
    · exact h source
    · split
      · rfl
      · exact h name

end Row

/-- One stage on two rows of one shape. -/
theorem Stage.onRow_alike (stage : Stage) {row other : Row} (h : row.SameShape other) :
    Alike Row.SameShape (stage.onRow row) (stage.onRow other) := by
  rcases stage.rename_or_plain with ⟨source, target, rfl⟩ | plain
  · rw [onRow_rename, onRow_rename]
    exact h.renameColumn source target
  · rw [onRow_eq_rewrite plain, onRow_eq_rewrite plain]
    exact h.rewrite stage.column fun _ _ => stage.onValue_alike

namespace Pipeline

theorem transformRow_matches (p : Pipeline) {row other : Row} (h : row.SameShape other) :
    (p.transformRow row).Matches Row.SameShape (p.transformRow other) :=
  steps_matches _ Stage.atomic_rowStep (fun stage _ _ _ => stage.onRow_alike) h

/-- What a pipeline answers and reports depends on the shape of the rows alone. -/
theorem run_of_sameShape (p : Pipeline) :
    (∀ row other : Row, row.SameShape other →
      (p.transformRow row).result = (p.transformRow other).result ∧
      (p.transformRow row).log = (p.transformRow other).log ∧
      (p.transformRow row).state.SameShape (p.transformRow other).state) ∧
    ∀ (schema : Schema) (rows others : List Row), List.Forall₂ Row.SameShape rows others →
      (p.run schema rows).result = (p.run schema others).result ∧
      (p.run schema rows).log = (p.run schema others).log := by
  constructor
  · intro row other h
    have outcomes := p.transformRow_matches h
    exact ⟨outcomes.result, outcomes.log, outcomes.state⟩
  · intro schema rows others h
    have outcomes := run_matches (fun _ _ => p.transformRow_matches) schema h
    exact ⟨outcomes.result, outcomes.log⟩

theorem run_of_sameShape_failing :
    let p : Pipeline := ⟨[.toText "pin", .mask "card" (.range 2 6), .rename "card" "pan",
      .mask "flag" (.substitution .right '#' 1)]⟩
    let schema : Schema := ⟨[⟨"card", .string⟩, ⟨"pin", .int⟩, ⟨"flag", .nullable .string⟩]⟩
    let row (card : String) (pin flag : Json) : Row :=
      ((Row.empty.setColumn "card" (.string card)).setColumn "pin" pin).setColumn "flag" flag
    let rows : List Row := [row "4111-2222" (.int 4821) .null, row "77" (.bool true) (.int 3)]
    let others : List Row := [row "x" (.array []) .null, row "" (.object []) (.bool false)]
    List.Forall₂ Row.SameShape rows others ∧
      (p.run schema rows).result = .error (.valueNotText "flag") ∧
      (p.run schema rows).result = (p.run schema others).result ∧
      (p.run schema rows).log = (p.run schema others).log ∧
      (p.transformRow (row "77" (.bool true) (.int 3))).state.SameShape
        (p.transformRow (row "" (.object []) (.bool false))).state := by
  intro p schema row rows others
  have same (card card' : String) {pin pin' flag flag' : Json} (hpin : pin.shape = pin'.shape)
      (hflag : flag.shape = flag'.shape) : (row card pin flag).SameShape (row card' pin' flag') := by
    have first : (Row.empty.setColumn "card" (.string card)).SameShape
        (Row.empty.setColumn "card" (.string card')) := (Row.SameShape.refl _).setColumn "card" rfl
    exact (first.setColumn "pin" hpin).setColumn "flag" hflag
  have related : List.Forall₂ Row.SameShape rows others :=
    .cons (same "4111-2222" "x" rfl rfl) (.cons (same "77" "" rfl rfl) .nil)
  obtain ⟨single, batch⟩ := run_of_sameShape p
  obtain ⟨result, log⟩ := batch schema rows others related
  have last : (row "77" (.bool true) (.int 3)).SameShape (row "" (.object []) (.bool false)) :=
    same "77" "" rfl rfl
  exact ⟨related, rfl, result, log, (single _ _ last).2.2⟩

end Pipeline
end RowDirectives
