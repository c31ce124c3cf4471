import RowDirectives.Proofs.Lookup
import RowDirectives.Proofs.Steps

/-! Renaming in place. A row gives up the column before it is known that there was one, and a schema drops the
fields of the new name before it looks for the field again. A renaming still takes place as a whole or not at
all: taking out a column that is not there changes nothing, and a field that was found is found again among
those that are kept. -/
namespace RowDirectives

namespace Row

theorem run_takeColumn (row : Row) (name : String) :
    (liftM (takeColumn name) : Step Row (Option Json)).run row =
      (.ok (row.columns.get? name), ⟨row.columns.erase name⟩) := rfl

theorem run_renameColumn_of_value {row : Row} {source : String} {value : Json}
    (h : row.columns.get? source = some value) (target : String) :
    (renameColumn source target).run row =
      (.ok (), ⟨(row.columns.erase source).insert target value⟩) := by
  have taken := run_takeColumn row source
  rw [h] at taken
  rw [renameColumn, Step.bind_of_ok taken]
  rfl

/-- The column that was taken out was not there, so the row is what it was. -/
theorem run_renameColumn_of_none {row : Row} {source : String} (h : row.columns.get? source = none)
    (target : String) : (renameColumn source target).run row = (.error (.notFound source), row) := by
  have taken := run_takeColumn row source
  rw [h, Dict.erase_eq_self h] at taken
  rw [renameColumn, Step.bind_of_ok taken]
  rfl

theorem renameColumn_eq_ok {row row' : Row} {source target : String} :
    (renameColumn source target).exec row = .ok row' ↔
      ∃ value, row.columns.get? source = some value ∧
        row' = ⟨(row.columns.erase source).insert target value⟩ := by
  cases hget : row.columns.get? source with
  | none => simp [Step.exec_of_run_error (run_renameColumn_of_none hget target)]
  | some value => simp [Step.exec_of_run_ok (run_renameColumn_of_value hget target), eq_comm]

theorem exists_renameColumn {row : Row} {source : String} {value : Json}
    (h : row.columns.get? source = some value) (target : String) :
    ∃ row', (renameColumn source target).exec row = .ok row' :=
  ⟨_, renameColumn_eq_ok.mpr ⟨value, h, rfl⟩⟩

theorem renameColumn_eq_error {row : Row} {source target : String} {fault : Fault} :
    (renameColumn source target).exec row = .error fault ↔
      row.columns.get? source = none ∧ fault = .notFound source := by
  cases hget : row.columns.get? source with
  | none => simp [Step.exec_of_run_error (run_renameColumn_of_none hget target), eq_comm]
  | some value => simp [Step.exec_of_run_ok (run_renameColumn_of_value hget target)]

theorem atomic_renameColumn (source target : String) : (renameColumn source target).Atomic := by
  intro row fault fails
  obtain ⟨hget, rfl⟩ := renameColumn_eq_error.mp fails
  exact run_renameColumn_of_none hget target

theorem get?_renameColumn {row row' : Row} {source target : String}
    (h : (renameColumn source target).exec row = .ok row') (name : String) :
    row'.columns.get? name =
      if name = target then row.columns.get? source
      else if name = source then none else row.columns.get? name := by
  obtain ⟨value, hvalue, rfl⟩ := renameColumn_eq_ok.mp h
  rw [Dict.get?_insert, Dict.get?_erase, hvalue]

theorem mem_names_renameColumn {row row' : Row} {source target : String}
    (h : (renameColumn source target).exec row = .ok row') {name : String} :
    name ∈ row'.names ↔ name = target ∨ name ∈ row.names ∧ name ≠ source := by
  obtain ⟨value, hvalue, -⟩ := renameColumn_eq_ok.mp h
  simp only [mem_names_iff, get?_renameColumn h]
  by_cases htarget : name = target
  · simp [htarget, hvalue]
  · by_cases hsource : name = source
    · simp [hsource, hvalue, hsource ▸ htarget]
    · simp [htarget, hsource]

/-- A renaming and a change of a column with another name pass each other. -/
theorem renameColumn_setColumn (row : Row) {source target column : String} (value : Json)
    (hsource : column ≠ source) (htarget : column ≠ target) :
    (renameColumn source target).exec (row.setColumn column value) =
      ((renameColumn source target).exec row).map (·.setColumn column value) := by
  cases hget : row.columns.get? source with
  | none =>
    have hset : (row.setColumn column value).columns.get? source = none := by
      rw [get?_setColumn, if_neg (Ne.symm hsource), hget]
    rw [renameColumn_eq_error.mpr ⟨hset, rfl⟩, renameColumn_eq_error.mpr ⟨hget, rfl⟩]
    rfl
  | some moved =>
    have hset : (row.setColumn column value).columns.get? source = some moved := by
      rw [get?_setColumn, if_neg (Ne.symm hsource), hget]
    rw [renameColumn_eq_ok.mpr ⟨moved, hset, rfl⟩, renameColumn_eq_ok.mpr ⟨moved, hget, rfl⟩]
    apply congrArg Except.ok
    apply ext_get?
    intro name
    simp only [setColumn, Dict.get?_insert, Dict.get?_erase]
    by_cases hname : name = column
    · simp [hname, hsource, htarget]
    · simp only [if_neg hname]

end Row

namespace Schema

variable {s s' : Schema} {source target name : String}

theorem position?_eq_none_iff : s.position? name = none ↔ name ∉ s.fields.map Field.name := by
  simp [position?, List.findIdx?_eq_none_iff]

theorem exists_position? (h : name ∈ s.fields.map Field.name) :
    ∃ index, s.position? name = some index := by
  cases hposition : s.position? name with
  | none => exact absurd h (position?_eq_none_iff.mp hposition)
  | some index => exact ⟨index, rfl⟩

/-- What is done at the place of a name is done to the first field of the name. -/
theorem modify_of_position? {index : Nat} (h : s.position? name = some index) (f : Field → Field) :
    s.fields.modify index f = updateFirst (·.name == name) f s.fields := by
  obtain ⟨fields⟩ := s
  simp only [position?] at h ⊢
  induction fields generalizing index with
  | nil => contradiction
  | cons head rest ih =>
    rw [List.findIdx?_cons] at h
    by_cases hhead : (head.name == name) = true
    · rw [if_pos hhead] at h
      obtain rfl := Option.some.inj h
      rw [updateFirst, if_pos hhead]
      rfl
    · rw [if_neg hhead] at h
      obtain ⟨place, hplace, rfl⟩ := Option.map_eq_some_iff.mp h
      rw [updateFirst, if_neg hhead, ← ih hplace]
      rfl

theorem run_relabel_of_mem (h : source ∈ s.fields.map Field.name) (target : String) :
    (relabel source target).run s = (.ok (),
      ⟨updateFirst (·.name == source) (fun field => { field with name := target }) s.fields⟩) := by
  obtain ⟨index, hposition⟩ := exists_position? h
  rw [← modify_of_position? hposition, relabel, Step.get_bind, hposition]
  rfl

theorem mem_kept {field : Field} :
    field ∈ s.kept source target ↔ field ∈ s.fields ∧ (field.name = target → source = target) := by
  unfold kept
  split <;> simp_all

theorem mem_names_kept : name ∈ (s.kept source target).map Field.name ↔
    name ∈ s.fields.map Field.name ∧ (name = target → source = target) := by
  simp only [List.mem_map, mem_kept]
  constructor
  · rintro ⟨field, ⟨hfield, htarget⟩, rfl⟩
    exact ⟨⟨field, hfield, rfl⟩, htarget⟩
  · rintro ⟨⟨field, hfield, rfl⟩, htarget⟩
    exact ⟨field, ⟨hfield, htarget⟩, rfl⟩

/-- A field that was found is not lost to the other fields of the new name, so it is found again. -/
theorem run_relabel_kept (h : source ∈ s.fields.map Field.name) (target : String) :
    (relabel source target).run ⟨s.kept source target⟩ = (.ok (),
      ⟨updateFirst (·.name == source) (fun field => { field with name := target })
        (s.kept source target)⟩) :=
  run_relabel_of_mem (s := ⟨s.kept source target⟩) (mem_names_kept.mpr ⟨h, id⟩) target

theorem run_renameField_of_mem (h : source ∈ s.fields.map Field.name) (target : String) :
    (renameField source target).run s = (relabel source target).run ⟨s.kept source target⟩ := by
  obtain ⟨index, hposition⟩ := exists_position? h
  rw [renameField, Step.get_bind, hposition]
  rfl

theorem run_renameField_of_not_mem (h : source ∉ s.fields.map Field.name) (target : String) :
    (renameField source target).run s = (.error (.notFound source), s) := by
  rw [renameField, Step.get_bind, position?_eq_none_iff.mpr h]
  rfl

theorem renameField_eq_ok :
    (renameField source target).exec s = .ok s' ↔ source ∈ s.fields.map Field.name ∧
      s' = ⟨updateFirst (·.name == source) (fun field => { field with name := target })
        (s.kept source target)⟩ := by
  by_cases hmem : source ∈ s.fields.map Field.name
  · have hrun := (run_renameField_of_mem hmem target).trans (run_relabel_kept hmem target)
    rw [Step.exec_of_run_ok hrun, Except.ok.injEq, eq_comm, and_iff_right hmem]
  · simp [Step.exec_of_run_error (run_renameField_of_not_mem hmem target), hmem]

theorem renameField_eq_error {fault : Fault} :
    (renameField source target).exec s = .error fault ↔
      source ∉ s.fields.map Field.name ∧ fault = .notFound source := by
  by_cases hmem : source ∈ s.fields.map Field.name
  · rw [Step.exec_of_run_ok (Step.run_of_exec_ok (renameField_eq_ok.mpr ⟨hmem, rfl⟩))]
    simp [hmem]
  · rw [Step.exec_of_run_error (run_renameField_of_not_mem hmem target), eq_comm]
    simp [hmem]

/-- The second look-up of a renaming does not fail after the first, and the renaming ends as it does. -/
theorem exists_relabel_of_mem (target : String) (h : source ∈ s.fields.map Field.name) :
    ∃ s', (relabel source target).run ⟨s.kept source target⟩ = (.ok (), s') ∧
      (renameField source target).run s = (.ok (), s') :=
  ⟨_, run_relabel_kept h target, (run_renameField_of_mem h target).trans (run_relabel_kept h target)⟩

theorem atomic_renameField (source target : String) : (renameField source target).Atomic := by
  intro s fault fails
  obtain ⟨hmem, rfl⟩ := renameField_eq_error.mp fails
  exact run_renameField_of_not_mem hmem target

end Schema
end RowDirectives
