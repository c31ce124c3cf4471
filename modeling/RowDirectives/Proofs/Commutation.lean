import Mathlib.Data.List.Lattice
import RowDirectives.Proofs.OrderedFields
import RowDirectives.Proofs.Phases
import RowDirectives.Proofs.TwoRuns

/-! Stages that name no common column commute. On a row a stage leaves what it does not name and reads
nothing else, so each of two stages finds after the other what it finds without it. A schema has an order
too: there the stages change, remove and append fields of different names, which can be exchanged one change
at a time, up to the order of two fields that are both new. -/
namespace RowDirectives

namespace Row

/-- The rows have the same in the columns. -/
def AgreeOn (names : List String) (row other : Row) : Prop :=
  ∀ name ∈ names, row.columns.get? name = other.columns.get? name

end Row

namespace Stage

variable {a b stage : Stage} {row row' other rowA rowB : Row} {name : String}

theorem get?_onRow (h : stage.onRow row = .ok row') (away : name ∉ stage.names) :
    row'.columns.get? name = row.columns.get? name := by
  rcases stage.rename_or_plain with ⟨source, target, rfl⟩ | plain
  · obtain ⟨hsource, htarget⟩ := not_mem_names_rename.mp away
    rw [onRow_rename] at h
    rw [Row.get?_renameColumn h, if_neg htarget, if_neg hsource]
  · rw [names_of_plain plain, List.mem_singleton] at away
    rw [onRow_eq_rewrite plain] at h
    obtain ⟨value, value', -, -, rfl⟩ := Row.rewrite_eq_ok.mp h
    rw [Row.get?_setColumn, if_neg away]

/-- What a stage does depends on the columns that it names, and so does what it leaves in them. -/
theorem onRow_agreeOn (h : Row.AgreeOn stage.names row other) :
    Alike (Row.AgreeOn stage.names) (stage.onRow row) (stage.onRow other) := by
  rcases stage.rename_or_plain with ⟨source, target, rfl⟩ | plain
  · have hsource := h source List.mem_cons_self
    rw [onRow_rename, onRow_rename]
    cases hget : row.columns.get? source with
    | none =>
      rw [Row.renameColumn_eq_error.mpr ⟨hget, rfl⟩,
        Row.renameColumn_eq_error.mpr ⟨hsource ▸ hget, rfl⟩]
      exact .error _
    | some value =>
      obtain ⟨row', hrow⟩ := Row.exists_renameColumn hget target
      obtain ⟨other', hother⟩ := Row.exists_renameColumn (hsource ▸ hget) target
      rw [hrow, hother]
      apply Alike.ok
      intro name mem
      rw [Row.get?_renameColumn hrow, Row.get?_renameColumn hother, hsource, h name mem]
  · rw [names_of_plain plain] at h ⊢
    rw [onRow_eq_rewrite plain, onRow_eq_rewrite plain]
    have hcolumn := h stage.column List.mem_cons_self
    cases hget : row.columns.get? stage.column with
    | none =>
      rw [Row.rewrite_of_none hget, Row.rewrite_of_none (hcolumn ▸ hget)]
      exact .error _
    | some value =>
      rw [Row.rewrite_of_value hget, Row.rewrite_of_value (hcolumn ▸ hget)]
      cases stage.onValue value with
      | error fault => exact .error fault
      | ok new =>
        apply Alike.ok
        intro name mem
        rw [Row.get?_setColumn, Row.get?_setColumn, h name mem]

/-- A stage finds after another one what it finds without it. -/
theorem onRow_after (disjoint : a.names.Disjoint b.names) (hA : a.onRow row = .ok rowA) :
    Alike (Row.AgreeOn b.names) (b.onRow row) (b.onRow rowA) :=
  onRow_agreeOn fun _ mem => (get?_onRow hA (disjoint.symm mem)).symm

theorem onRow_error_after (disjoint : a.names.Disjoint b.names) (hA : a.onRow row = .ok rowA)
    {fault : Fault} : b.onRow rowA = .error fault ↔ b.onRow row = .error fault := by
  have after := onRow_after disjoint hA
  generalize b.onRow row = result, b.onRow rowA = resultA at after
  cases after with
  | ok => simp
  | error => rfl

theorem onRow_comm (disjoint : a.names.Disjoint b.names) (hA : a.onRow row = .ok rowA)
    (hB : b.onRow row = .ok rowB) :
    ∃ row', b.onRow rowA = .ok row' ∧ a.onRow rowB = .ok row' := by
  have afterA := onRow_after disjoint hA
  have afterB := onRow_after disjoint.symm hB
  rw [hB] at afterA
  rw [hA] at afterB
  generalize hAB : b.onRow rowA = resultAB at afterA
  generalize hBA : a.onRow rowB = resultBA at afterB
  obtain ⟨sameOnB⟩ | _ := afterA
  obtain ⟨sameOnA⟩ | _ := afterB
  refine ⟨_, rfl, congrArg Except.ok (Row.ext_get? fun name => ?_)⟩
  -- Each column is named by one stage at most, and the other one leaves it.
  by_cases inA : name ∈ a.names
  · rw [get?_onRow hAB (disjoint inA), sameOnA name inA]
  · by_cases inB : name ∈ b.names
    · rw [get?_onRow hBA inA, sameOnB name inB]
    · rw [get?_onRow hBA inA, get?_onRow hAB inB, get?_onRow hA inA, get?_onRow hB inB]

end Stage

namespace Schema

variable {s s' first second : Schema} {field other : Field} {f g : Field → Field}
  {source target source' target' name name' : String}

section Changes

/-- Changes of the first fields of two names pass each other, unless one of them makes a field of the other
name. -/
theorem updateFirst_comm (different : name ≠ name') (hf : ∀ field, (f field).name ≠ name')
    (hg : ∀ field, (g field).name ≠ name) (fields : List Field) :
    updateFirst (·.name == name') g (updateFirst (·.name == name) f fields) =
      updateFirst (·.name == name) f (updateFirst (·.name == name') g fields) := by
  induction fields with
  | nil => rfl
  | cons head rest ih =>
    by_cases hname : head.name = name
    · simp [updateFirst, hname, different, hf]
    · by_cases hname' : head.name = name'
      · simp [updateFirst, hname', Ne.symm different, hg]
      · simp [updateFirst, hname, hname', ih]

theorem updateFirst_append_singleton (h : field.name ≠ name) (fields : List Field) :
    updateFirst (·.name == name) f (fields ++ [field]) =
      updateFirst (·.name == name) f fields ++ [field] := by
  induction fields with
  | nil => simp [updateFirst, h]
  | cons head rest ih =>
    by_cases hname : head.name = name
    · simp [updateFirst, hname]
    · simp [updateFirst, hname, ih]

theorem without_updateFirst (hname : name ≠ target) (hf : ∀ field, (f field).name ≠ target)
    (fields : List Field) :
    without target (updateFirst (·.name == name) f fields) =
      updateFirst (·.name == name) f (without target fields) := by
  induction fields with
  | nil => rfl
  | cons head rest ih =>
    by_cases hhead : head.name = name
    · have htarget : head.name ≠ target := hhead ▸ hname
      simp [updateFirst, hhead, without_cons htarget, without_cons (hf head)]
    · by_cases htarget : head.name = target
      · simp [updateFirst, hhead, without_cons_of_name htarget, ih]
      · simp [updateFirst, hhead, without_cons htarget, ih]

theorem kept_updateFirst (hname : name ≠ target) (hf : ∀ field, (f field).name ≠ target)
    (fields : List Field) :
    (⟨updateFirst (·.name == name) f fields⟩ : Schema).kept source target =
      updateFirst (·.name == name) f ((⟨fields⟩ : Schema).kept source target) := by
  unfold kept
  split
  · rfl
  · exact without_updateFirst hname hf fields

theorem kept_append_singleton (h : field.name ≠ target) (fields : List Field) :
    (⟨fields ++ [field]⟩ : Schema).kept source target =
      (⟨fields⟩ : Schema).kept source target ++ [field] := by
  unfold kept
  split
  · rfl
  · simp [h]

theorem kept_comm (s : Schema) (source target source' target' : String) :
    (⟨s.kept source target⟩ : Schema).kept source' target' =
      (⟨s.kept source' target'⟩ : Schema).kept source target := by
  unfold kept
  by_cases h : source = target <;> by_cases h' : source' = target' <;> simp [h, h', Bool.and_comm]

end Changes

section Requests

theorem setField_of_mem (h : field.name ∈ s.fields.map Field.name) :
    s.setField field = ⟨updateFirst (·.name == field.name) (fun _ => field) s.fields⟩ := by
  rw [setField, if_pos (any_name_iff.mpr h)]

theorem mem_names_iff_of_find? (h : s'.find? name = s.find? name) :
    name ∈ s'.fields.map Field.name ↔ name ∈ s.fields.map Field.name := by
  rw [← not_iff_not, ← find?_eq_none_iff, ← find?_eq_none_iff, h]

theorem renameField_setField (hrename : (renameField source target).exec s = .ok s')
    (hsource : field.name ≠ source) (htarget : field.name ≠ target) :
    (renameField source target).exec (s.setField field) = .ok (s'.setField field) := by
  have known := mem_names_iff_of_find? (find?_renameField hrename hsource htarget)
  obtain ⟨hmem, rfl⟩ := renameField_eq_ok.mp hrename
  apply renameField_eq_ok.mpr
  refine ⟨mem_names_setField.mpr (.inr hmem), ?_⟩
  by_cases hfield : field.name ∈ s.fields.map Field.name
  · rw [setField_of_mem hfield, setField_of_mem (known.mpr hfield),
      kept_updateFirst htarget fun _ => htarget,
      updateFirst_comm (Ne.symm hsource) (fun _ => Ne.symm htarget) fun _ => hsource]
  · rw [setField_of_absent hfield, setField_of_absent (mt known.mp hfield),
      kept_append_singleton htarget, updateFirst_append_singleton hsource]

theorem renameField_renameField (hfirst : (renameField source target).exec s = .ok first)
    (hsecond : (renameField source' target').exec s = .ok second)
    (hsource : source ≠ source' ∧ source ≠ target')
    (htarget : target ≠ source' ∧ target ≠ target') :
    ∃ s', (renameField source' target').exec first = .ok s' ∧
      (renameField source target).exec second = .ok s' := by
  have known := mem_names_iff_of_find? (find?_renameField hsecond hsource.1 hsource.2)
  have known' := mem_names_iff_of_find?
    (find?_renameField hfirst (Ne.symm hsource.1) (Ne.symm htarget.1))
  obtain ⟨hmem, rfl⟩ := renameField_eq_ok.mp hfirst
  obtain ⟨hmem', rfl⟩ := renameField_eq_ok.mp hsecond
  refine ⟨_, renameField_eq_ok.mpr ⟨known'.mpr hmem', rfl⟩,
    renameField_eq_ok.mpr ⟨known.mpr hmem, ?_⟩⟩
  rw [kept_updateFirst hsource.2 fun _ => htarget.2,
    kept_updateFirst (Ne.symm htarget.1) fun _ => Ne.symm htarget.2,
    updateFirst_comm hsource.1 (fun _ => htarget.1) fun _ => Ne.symm hsource.2]
  exact congrArg (fun fields => Schema.mk (updateFirst _ _ (updateFirst _ _ fields)))
    (kept_comm s source target source' target')

theorem setField_comm_of_mem (h : field.name ∈ s.fields.map Field.name)
    (different : field.name ≠ other.name) :
    (s.setField field).setField other = (s.setField other).setField field := by
  have known : field.name ∈ (s.setField other).fields.map Field.name :=
    mem_names_setField.mpr (.inr h)
  have known' : other.name ∈ (s.setField field).fields.map Field.name ↔
      other.name ∈ s.fields.map Field.name :=
    mem_names_setField.trans (or_iff_right (Ne.symm different))
  by_cases hother : other.name ∈ s.fields.map Field.name
  · rw [setField_of_mem (known'.mpr hother), setField_of_mem known, setField_of_mem h,
      setField_of_mem hother]
    exact congrArg Schema.mk (updateFirst_comm different (fun _ => different)
      (fun _ => Ne.symm different) s.fields)
  · rw [setField_of_absent (mt known'.mp hother), setField_of_mem known, setField_of_mem h,
      setField_of_absent hother]
    exact congrArg Schema.mk (updateFirst_append_singleton (Ne.symm different) s.fields).symm

theorem setField_setField_of_absent (h : field.name ∉ s.fields.map Field.name)
    (hother : other.name ∉ s.fields.map Field.name) (different : field.name ≠ other.name) :
    ((s.setField field).setField other).fields = s.fields ++ [field, other] := by
  have absent : other.name ∉ (s.setField field).fields.map Field.name := by
    rw [mem_names_setField]
    exact not_or.mpr ⟨Ne.symm different, hother⟩
  rw [setField_of_absent absent, setField_of_absent h, List.append_assoc]
  rfl

end Requests

end Schema

namespace Stage

variable {a b stage : Stage} {s s' sA sB : Schema} {name : String}

theorem find?_onSchema (h : stage.onSchema s = .ok s') (away : name ∉ stage.names) :
    s'.find? name = s.find? name := by
  cases stage with
  | rename source target =>
    obtain ⟨hsource, htarget⟩ := not_mem_names_rename.mp away
    rw [onSchema_rename] at h
    exact Schema.find?_renameField h hsource htarget
  | toText column =>
    have hname : name ≠ column := mt List.mem_singleton.mpr away
    obtain rfl := onSchema_toText_eq_ok.mp h
    rw [Schema.find?_setField, if_neg hname]
  | mask column m =>
    obtain ⟨rfl, -⟩ := onSchema_mask_eq_ok.mp h
    rfl

/-- Whether and why a stage refuses a schema depends on the field that it asks for. -/
theorem onSchema_error_congr (h : s'.find? stage.column = s.find? stage.column) {fault : Fault} :
    stage.onSchema s' = .error fault ↔ stage.onSchema s = .error fault := by
  cases stage with
  | rename source target =>
    have hsource : s'.find? source = s.find? source := h
    rw [onSchema_rename, onSchema_rename, Schema.renameField_eq_error, Schema.renameField_eq_error,
      ← Schema.find?_eq_none_iff, ← Schema.find?_eq_none_iff, hsource]
  | toText column =>
    rw [onSchema_toText, onSchema_toText]
    simp
  | mask column m =>
    have hcolumn : s'.find? column = s.find? column := h
    rw [onSchema_mask_eq_error, onSchema_mask_eq_error, hcolumn]

theorem onSchema_after (disjoint : a.names.Disjoint b.names) (hA : a.onSchema s = .ok sA)
    {fault : Fault} : b.onSchema sA = .error fault ↔ b.onSchema s = .error fault :=
  onSchema_error_congr (find?_onSchema hA (disjoint.symm b.column_mem_names))

theorem exists_onSchema_after (disjoint : a.names.Disjoint b.names) (hA : a.onSchema s = .ok sA)
    (hB : b.onSchema s = .ok sB) : ∃ s', b.onSchema sA = .ok s' := by
  cases h : b.onSchema sA with
  | ok s' => exact ⟨s', rfl⟩
  | error fault =>
    rw [(onSchema_after disjoint hA).mp h] at hB
    contradiction

/-- The stage declares a field that the schema does not have yet. -/
inductive Appends (s : Schema) : Stage → Field → Prop
  | toText {column : String} : column ∉ s.fields.map Field.name →
      Appends s (toText column) ⟨column, .string⟩

theorem onSchema_comm_of_mask {column : String} {m : Mask}
    (disjoint : a.names.Disjoint (mask column m).names) (hA : a.onSchema s = .ok sA)
    (hM : (mask column m).onSchema s = .ok sB) :
    ∃ s', (mask column m).onSchema sA = .ok s' ∧ a.onSchema sB = .ok s' := by
  obtain ⟨s', hafter⟩ := exists_onSchema_after disjoint hA hM
  obtain ⟨rfl, -⟩ := onSchema_mask_eq_ok.mp hM
  obtain ⟨rfl, -⟩ := onSchema_mask_eq_ok.mp hafter
  exact ⟨s', hafter, hA⟩

theorem onSchema_comm_of_renames {source target source' target' : String}
    (disjoint : (rename source target).names.Disjoint (rename source' target').names)
    (hA : (rename source target).onSchema s = .ok sA)
    (hB : (rename source' target').onSchema s = .ok sB) :
    ∃ s', (rename source' target').onSchema sA = .ok s' ∧
      (rename source target).onSchema sB = .ok s' := by
  have hsource := not_mem_names_rename.mp (disjoint List.mem_cons_self)
  have htarget := not_mem_names_rename.mp (disjoint (List.mem_cons_of_mem _ List.mem_cons_self))
  rw [onSchema_rename] at hA hB
  simp only [onSchema_rename]
  exact Schema.renameField_renameField hA hB hsource htarget

theorem onSchema_comm_of_toText {column source target : String}
    (disjoint : (toText column).names.Disjoint (rename source target).names)
    (hA : (toText column).onSchema s = .ok sA) (hB : (rename source target).onSchema s = .ok sB) :
    ∃ s', (rename source target).onSchema sA = .ok s' ∧ (toText column).onSchema sB = .ok s' := by
  obtain ⟨hsource, htarget⟩ := not_mem_names_rename.mp (List.singleton_disjoint.mp disjoint)
  obtain rfl := onSchema_toText_eq_ok.mp hA
  rw [onSchema_rename] at hB
  refine ⟨sB.setField ⟨column, .string⟩, ?_, onSchema_toText _ _⟩
  rw [onSchema_rename]
  exact Schema.renameField_setField hB hsource htarget

theorem ne_of_disjoint {column column' : String}
    (disjoint : (toText column).names.Disjoint (toText column').names) : column ≠ column' :=
  fun heq => disjoint List.mem_cons_self (heq ▸ List.mem_cons_self)

theorem onSchema_comm_of_toTexts {column column' : String} (different : column ≠ column')
    (known : column ∈ s.fields.map Field.name ∨ column' ∈ s.fields.map Field.name)
    (hA : (toText column).onSchema s = .ok sA) (hB : (toText column').onSchema s = .ok sB) :
    ∃ s', (toText column').onSchema sA = .ok s' ∧ (toText column).onSchema sB = .ok s' := by
  obtain rfl := onSchema_toText_eq_ok.mp hA
  obtain rfl := onSchema_toText_eq_ok.mp hB
  refine ⟨_, onSchema_toText _ _, onSchema_toText_eq_ok.mpr ?_⟩
  rcases known with hcolumn | hcolumn
  · exact Schema.setField_comm_of_mem hcolumn different
  · exact (Schema.setField_comm_of_mem hcolumn (Ne.symm different)).symm

theorem onSchema_comm (disjoint : a.names.Disjoint b.names) (hA : a.onSchema s = .ok sA)
    (hB : b.onSchema s = .ok sB) (known : ¬ ∃ x y, Appends s a x ∧ Appends s b y) :
    ∃ s', b.onSchema sA = .ok s' ∧ a.onSchema sB = .ok s' := by
  -- Each pair of kinds is looked at in one order only.
  have swapped : (∃ s', a.onSchema sB = .ok s' ∧ b.onSchema sA = .ok s') →
      ∃ s', b.onSchema sA = .ok s' ∧ a.onSchema sB = .ok s' :=
    fun ⟨s', hfirst, hsecond⟩ => ⟨s', hsecond, hfirst⟩
  cases b with
  | mask column m => exact onSchema_comm_of_mask disjoint hA hB
  | rename source' target' =>
    cases a with
    | mask column m => exact swapped (onSchema_comm_of_mask disjoint.symm hB hA)
    | rename source target => exact onSchema_comm_of_renames disjoint hA hB
    | toText column => exact onSchema_comm_of_toText disjoint hA hB
  | toText column' =>
    cases a with
    | mask column m => exact swapped (onSchema_comm_of_mask disjoint.symm hB hA)
    | rename source target => exact swapped (onSchema_comm_of_toText disjoint.symm hB hA)
    | toText column =>
      apply onSchema_comm_of_toTexts (ne_of_disjoint disjoint) _ hA hB
      by_contra absent
      obtain ⟨hcolumn, hcolumn'⟩ := not_or.mp absent
      exact known ⟨_, _, .toText hcolumn, .toText hcolumn'⟩

/-- Two new fields stand in the order in which they are declared. -/
theorem onSchema_onSchema_of_appends {x y : Field} (disjoint : a.names.Disjoint b.names)
    (hx : Appends s a x) (hy : Appends s b y) (hA : a.onSchema s = .ok sA)
    (hAB : b.onSchema sA = .ok s') : s'.fields = s.fields ++ [x, y] := by
  obtain ⟨hcolumn⟩ := hx
  obtain ⟨hcolumn'⟩ := hy
  obtain rfl := onSchema_toText_eq_ok.mp hA
  obtain rfl := onSchema_toText_eq_ok.mp hAB
  exact Schema.setField_setField_of_absent hcolumn hcolumn' (ne_of_disjoint disjoint)

/-- Two stages without a common name take place in either order. Each succeeds, or fails for the same
reason, before the other and after it, on a row and on a schema; what the two leave is the same, but for the
order of two new fields. -/
theorem disjoint_stages_commute (a b : Stage) (disjoint : a.names.Disjoint b.names) :
    (∀ row rowA : Row, (a.rowStep : Step Row Unit).run row = (.ok (), rowA) →
      ((b.rowStep : Step Row Unit).run rowA).1 = ((b.rowStep : Step Row Unit).run row).1 ∧
      ∀ rowB : Row, (b.rowStep : Step Row Unit).run row = (.ok (), rowB) →
        ∃ row', (b.rowStep : Step Row Unit).run rowA = (.ok (), row') ∧
          (a.rowStep : Step Row Unit).run rowB = (.ok (), row')) ∧
    ∀ s sA : Schema, (a.schemaStep : Step Schema Unit).run s = (.ok (), sA) →
      ((b.schemaStep : Step Schema Unit).run sA).1 = ((b.schemaStep : Step Schema Unit).run s).1 ∧
      ∀ sB : Schema, (b.schemaStep : Step Schema Unit).run s = (.ok (), sB) →
        ∃ sAB sBA, (b.schemaStep : Step Schema Unit).run sA = (.ok (), sAB) ∧
          (a.schemaStep : Step Schema Unit).run sB = (.ok (), sBA) ∧
          ((¬ ∃ x y, Appends s a x ∧ Appends s b y) → sAB = sBA) ∧
          ∀ x y, Appends s a x → Appends s b y →
            sAB.fields = s.fields ++ [x, y] ∧ sBA.fields = s.fields ++ [y, x] := by
  simp only [Step.run_eq_ok]
  refine ⟨?rows, ?schemas⟩
  case rows =>
    intro row rowA hA
    exact ⟨Step.result_congr fun _ => onRow_error_after disjoint hA,
      fun rowB hB => onRow_comm disjoint hA hB⟩
  case schemas =>
    intro s sA hA
    refine ⟨Step.result_congr fun _ => onSchema_after disjoint hA, ?_⟩
    intro sB hB
    obtain ⟨sAB, hAB⟩ := exists_onSchema_after disjoint hA hB
    obtain ⟨sBA, hBA⟩ := exists_onSchema_after disjoint.symm hB hA
    refine ⟨sAB, sBA, hAB, hBA, ?_, fun x y hx hy => ?_⟩
    · intro known
      obtain ⟨s', hfirst, hsecond⟩ := onSchema_comm disjoint hA hB known
      exact (Except.ok.inj (hAB.symm.trans hfirst)).trans (Except.ok.inj (hsecond.symm.trans hBA))
    · exact ⟨onSchema_onSchema_of_appends disjoint hx hy hA hAB,
        onSchema_onSchema_of_appends disjoint.symm hy hx hB hBA⟩

/-- The renaming takes over a column that is there and a field that is there twice; the mask finds no column
in either order; two new fields are exchanged. -/
theorem disjoint_stages_commute_over_overwritten_names :
    let moving : Stage := .rename "card" "pan"
    let masking : Stage := .mask "memo" (.range 0 2)
    let row : Row := ⟨Dict.ofList [("card", .string "4111"), ("pan", .null), ("pin", .int 4821)]⟩
    let rowA : Row := ⟨Dict.ofList [("pan", .string "4111"), ("pin", .int 4821)]⟩
    let rowB : Row :=
      ⟨Dict.ofList [("card", .string "4111"), ("pan", .null), ("pin", .string "4821")]⟩
    let s : Schema := ⟨[⟨"pan", .int⟩, ⟨"card", .bytes⟩, ⟨"pan", .null⟩, ⟨"card", .long⟩]⟩
    let sA : Schema := ⟨[⟨"pan", .bytes⟩, ⟨"card", .long⟩]⟩
    (moving.rowStep : Step Row Unit).run row = (.ok (), rowA) ∧
    ((toText "pin").rowStep : Step Row Unit).run row = (.ok (), rowB) ∧
    (∃ row', ((toText "pin").rowStep : Step Row Unit).run rowA = (.ok (), row') ∧
      (moving.rowStep : Step Row Unit).run rowB = (.ok (), row')) ∧
    ((masking.rowStep : Step Row Unit).run rowA).1 = .error (.notFound "memo") ∧
    (∃ s', ((toText "pin").schemaStep : Step Schema Unit).run sA = (.ok (), s') ∧
      (moving.schemaStep : Step Schema Unit).run (s.setField ⟨"pin", .string⟩) = (.ok (), s')) ∧
    (∃ sAB sBA,
      ((toText "memo").schemaStep : Step Schema Unit).run (s.setField ⟨"pin", .string⟩) =
        (.ok (), sAB) ∧
      ((toText "pin").schemaStep : Step Schema Unit).run (s.setField ⟨"memo", .string⟩) =
        (.ok (), sBA) ∧
      sAB.fields = s.fields ++ [⟨"pin", .string⟩, ⟨"memo", .string⟩] ∧
      sBA.fields = s.fields ++ [⟨"memo", .string⟩, ⟨"pin", .string⟩]) := by
  intro moving masking row rowA rowB s sA
  obtain ⟨rows, schemas⟩ := disjoint_stages_commute moving (toText "pin") (by simp [moving, names])
  obtain ⟨fails, -⟩ := disjoint_stages_commute moving masking (by simp [moving, masking, names])
  obtain ⟨-, both⟩ := disjoint_stages_commute (toText "pin") (toText "memo") (by simp [names])
  refine ⟨rfl, rfl, (rows row rowA rfl).2 rowB rfl, (fails row rowA rfl).1.trans rfl, ?renamed,
    ?appended⟩
  case renamed =>
    obtain ⟨sAB, sBA, hAB, hBA, same, -⟩ := (schemas s sA rfl).2 (s.setField ⟨"pin", .string⟩) rfl
    have known : ¬ ∃ x y, Appends s (rename "card" "pan") x ∧ Appends s (toText "pin") y := by
      rintro ⟨x, y, ⟨⟩, -⟩
    exact ⟨sAB, hAB, same known ▸ hBA⟩
  case appended =>
    have absent : "pin" ∉ s.fields.map Field.name ∧ "memo" ∉ s.fields.map Field.name := by decide
    obtain ⟨sAB, sBA, hAB, hBA, -, swapped⟩ :=
      (both s (s.setField ⟨"pin", .string⟩) rfl).2 (s.setField ⟨"memo", .string⟩) rfl
    exact ⟨sAB, sBA, hAB, hBA, swapped _ _ (.toText absent.1) (.toText absent.2)⟩

end Stage

end RowDirectives
