import Mathlib.Data.List.Nodup
import RowDirectives.Proofs.Renaming

/-! Schemas whose field names are pairwise distinct. There the first field of a name is the only one, so
declaring and renaming act on each field for itself, and what they leave is distinct again. -/
namespace RowDirectives.Schema

def Distinct (s : Schema) : Prop := (s.fields.map Field.name).Nodup

instance (s : Schema) : Decidable s.Distinct :=
  inferInstanceAs (Decidable (s.fields.map Field.name).Nodup)

theorem updateFirst_eq_map {fields : List Field} (h : (fields.map Field.name).Nodup) (name : String)
    (f : Field → Field) :
    updateFirst (·.name == name) f fields =
      fields.map fun field => if field.name = name then f field else field := by
  induction fields with
  | nil => rfl
  | cons head rest ih =>
    obtain ⟨hhead, hrest⟩ := List.nodup_cons.mp (List.map_cons ▸ h)
    by_cases hname : head.name = name
    · have hother : ∀ field ∈ rest, field.name ≠ name := by
        intro field hmem heq
        exact hhead (hname ▸ heq ▸ List.mem_map_of_mem hmem)
      have hid : (rest.map fun field => if field.name = name then f field else field) =
          rest.map id := List.map_congr_left fun field hmem => if_neg (hother field hmem)
      simp only [updateFirst, List.map_cons, hname, beq_self_eq_true, if_true, hid, List.map_id]
    · simp [updateFirst, hname, ih hrest]

theorem fields_setField {s : Schema} (h : s.Distinct) (field : Field) :
    (s.setField field).fields =
      if field.name ∈ s.fields.map Field.name then
        s.fields.map fun old => if old.name = field.name then field else old
      else s.fields ++ [field] := by
  by_cases hmem : field.name ∈ s.fields.map Field.name
  · rw [setField, if_pos (any_name_iff.mpr hmem), if_pos hmem]
    exact updateFirst_eq_map h field.name _
  · rw [setField, if_neg (fun hany => hmem (any_name_iff.mp hany)), if_neg hmem]

theorem Distinct.setField {s : Schema} (h : s.Distinct) (field : Field) :
    (s.setField field).Distinct := by
  rw [Distinct, fields_setField h]
  split
  next hmem =>
    rw [List.map_map]
    have hnames : ∀ old ∈ s.fields,
        (Field.name ∘ fun old => if old.name = field.name then field else old) old = old.name := by
      intro old _
      by_cases heq : old.name = field.name <;> simp [heq]
    rw [List.map_congr_left hnames]
    exact h
  next hmem =>
    rw [List.map_append]
    apply List.Nodup.append h (List.nodup_singleton _)
    simpa using hmem

theorem mem_setField {s : Schema} (h : s.Distinct) {new field : Field}
    (hmem : field ∈ (s.setField new).fields) :
    field = new ∨ field ∈ s.fields ∧ field.name ≠ new.name := by
  rw [fields_setField h] at hmem
  split at hmem
  next =>
    obtain ⟨old, hold, rfl⟩ := List.mem_map.mp hmem
    by_cases heq : old.name = new.name
    · exact .inl (if_pos heq)
    · rw [if_neg heq]
      exact .inr ⟨hold, heq⟩
  next hnew =>
    rcases List.mem_append.mp hmem with hold | hlast
    · exact .inr ⟨hold, fun heq => hnew (heq ▸ List.mem_map_of_mem hold)⟩
    · exact .inl (List.mem_singleton.mp hlast)

theorem Distinct.nodup_kept {s : Schema} (h : s.Distinct) (source target : String) :
    ((s.kept source target).map Field.name).Nodup := by
  unfold kept
  split
  · exact h
  · exact h.sublist (List.filter_sublist.map Field.name)

theorem names_renameField {s s' : Schema} (h : s.Distinct) {source target : String}
    (hrename : (renameField source target).exec s = .ok s') :
    s'.fields.map Field.name = ((s.kept source target).map Field.name).map
      fun name => if name = source then target else name := by
  obtain ⟨-, rfl⟩ := renameField_eq_ok.mp hrename
  have hnames : ∀ field ∈ s.kept source target,
      (Field.name ∘ fun field =>
        if field.name = source then { field with name := target } else field) field =
      ((fun name => if name = source then target else name) ∘ Field.name) field := by
    intro field _
    by_cases heq : field.name = source <;> simp [heq]
  simp only
  rw [updateFirst_eq_map (h.nodup_kept source target), List.map_map, List.map_congr_left hnames,
    ← List.map_map]

theorem Distinct.renameField {s s' : Schema} (h : s.Distinct) {source target : String}
    (hrename : (renameField source target).exec s = .ok s') : s'.Distinct := by
  rw [Distinct, names_renameField h hrename]
  -- A kept field has the new name only if the old one is the same, so no two names fall together.
  have hkept : ∀ name ∈ (s.kept source target).map Field.name, name = target → name = source :=
    fun name hname heq => heq.trans ((mem_names_kept.mp hname).2 heq).symm
  apply List.Nodup.map_on _ (h.nodup_kept source target)
  intro x hx y hy heq
  by_cases hxs : x = source
  · by_cases hys : y = source
    · rw [hxs, hys]
    · rw [if_pos hxs, if_neg hys] at heq
      exact absurd (hkept y hy heq.symm) hys
  · by_cases hys : y = source
    · rw [if_neg hxs, if_pos hys] at heq
      exact absurd (hkept x hx heq) hxs
    · rwa [if_neg hxs, if_neg hys] at heq

theorem mem_names_renameField {s s' : Schema} (h : s.Distinct) {source target : String}
    (hrename : (renameField source target).exec s = .ok s') {name : String} :
    name ∈ s'.fields.map Field.name ↔
      name = target ∨ name ∈ s.fields.map Field.name ∧ name ≠ source := by
  obtain ⟨hsource, -⟩ := renameField_eq_ok.mp hrename
  rw [names_renameField h hrename, List.mem_map]
  constructor
  · rintro ⟨old, hold, rfl⟩
    by_cases heq : old = source
    · exact .inl (if_pos heq)
    · rw [if_neg heq]
      exact .inr ⟨(mem_names_kept.mp hold).1, heq⟩
  · intro hname
    by_cases htarget : name = target
    · exact ⟨source, mem_names_kept.mpr ⟨hsource, id⟩, by rw [if_pos rfl, htarget]⟩
    · obtain ⟨hold, hother⟩ := hname.resolve_left htarget
      exact ⟨name, mem_names_kept.mpr ⟨hold, fun heq => absurd heq htarget⟩, if_neg hother⟩

theorem mem_renameField {s s' : Schema} (h : s.Distinct) {source target : String}
    (hrename : (renameField source target).exec s = .ok s') {field : Field} (hmem : field ∈ s'.fields) :
    (∃ old ∈ s.fields, old.name = source ∧ field = { old with name := target }) ∨
      field ∈ s.fields ∧ field.name ≠ source ∧ field.name ≠ target := by
  obtain ⟨-, rfl⟩ := renameField_eq_ok.mp hrename
  simp only at hmem
  rw [updateFirst_eq_map (h.nodup_kept source target)] at hmem
  obtain ⟨old, hold, rfl⟩ := List.mem_map.mp hmem
  obtain ⟨hfields, htarget⟩ := mem_kept.mp hold
  by_cases heq : old.name = source
  · exact .inl ⟨old, hfields, heq, if_pos heq⟩
  · rw [if_neg heq]
    exact .inr ⟨hfields, heq, fun h => heq (h.trans (htarget h).symm)⟩

end RowDirectives.Schema
