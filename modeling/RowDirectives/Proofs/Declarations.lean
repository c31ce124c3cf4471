import Mathlib.Data.List.Induction
import RowDirectives.Proofs.OrderedFields

/-! Fields declared one after the other. What is declared of a row of fields grows at the end of the row: a new
name goes to the end, a name that is there keeps its place and gets the new type. So names keep the order in
which they first occur, and each has the type with which it occurs last. -/
namespace RowDirectives.Schema

variable {fields : List Field} {field : Field} {name : String}

theorem declare_append (fields : List Field) (field : Field) :
    declare (fields ++ [field]) = (declare fields).setField field := by
  rw [declare, List.foldl_append]
  rfl

theorem eraseDups_append_singleton (names : List String) (name : String) :
    (names ++ [name]).eraseDups =
      if name ∈ names then names.eraseDups else names.eraseDups ++ [name] := by
  rw [List.eraseDups_append]
  by_cases h : name ∈ names <;> simp [List.removeAll, List.eraseDups_cons, h]

theorem names_declare (fields : List Field) :
    (declare fields).fields.map Field.name = (fields.map Field.name).eraseDups := by
  induction fields using List.reverseRecOn with
  | nil => rfl
  | append_singleton fields field ih =>
    rw [declare_append, names_setField, ih, List.map_append, List.map_singleton,
      eraseDups_append_singleton]
    simp only [List.mem_eraseDups]

theorem find?_declare (fields : List Field) (name : String) :
    (declare fields).find? name = fields.reverse.find? (·.name == name) := by
  induction fields using List.reverseRecOn with
  | nil => rfl
  | append_singleton fields field ih =>
    rw [declare_append, find?_setField, ih, List.reverse_append, List.reverse_singleton,
      List.singleton_append, List.find?_cons]
    by_cases hname : field.name = name
    · simp [hname]
    · rw [if_neg (Ne.symm hname), beq_eq_false_iff_ne.mpr hname]

theorem distinct_declare (fields : List Field) : (declare fields).Distinct := by
  induction fields using List.reverseRecOn with
  | nil => exact List.nodup_nil
  | append_singleton fields field ih =>
    rw [declare_append]
    exact ih.setField field

theorem declare_of_nodup (h : (fields.map Field.name).Nodup) : declare fields = ⟨fields⟩ := by
  induction fields using List.reverseRecOn with
  | nil => rfl
  | append_singleton fields field ih =>
    rw [List.map_append] at h
    obtain ⟨hnodup, -, hnew⟩ := List.nodup_append.mp h
    have hfields := ih hnodup
    have habsent : field.name ∉ (declare fields).fields.map Field.name := by
      rw [hfields]
      exact fun hmem => hnew _ hmem _ (List.mem_singleton_self _) rfl
    rw [declare_append, setField_of_absent habsent, hfields]

theorem Distinct.find?_of_mem {s : Schema} (h : s.Distinct) (hmem : field ∈ s.fields) :
    s.find? field.name = some field := by
  cases hfind : s.find? field.name with
  | none => exact absurd (List.mem_map_of_mem hmem) (find?_eq_none_iff.mp hfind)
  | some found =>
    have hname : found.name = field.name := by simpa using List.find?_some hfind
    rw [List.inj_on_of_nodup_map h (List.mem_of_find?_eq_some hfind) hmem hname]

/-- A field that is left is the last of its name. -/
theorem last_of_mem_declare (hmem : field ∈ (declare fields).fields) :
    ∃ before after, fields = before ++ field :: after ∧ field.name ∉ after.map Field.name := by
  have hfind := (distinct_declare fields).find?_of_mem hmem
  rw [find?_declare, List.find?_eq_some_iff_append] at hfind
  obtain ⟨-, after, before, hreverse, hafter⟩ := hfind
  refine ⟨before.reverse, after.reverse, ?_, ?_⟩
  · simpa using congrArg List.reverse hreverse
  · simpa using hafter

/-- The fields of a schema that is declared step by step have distinct names, in the order in which these first
occur, and each is the last field of its name. It is the schema of all the fields exactly where no name is
repeated; repeated or not, a look-up finds a name in the one if and only if it finds it in the other. -/
theorem declare_first_places_last_fields (fields : List Field) :
    (declare fields).Distinct ∧
    (declare fields).fields.map Field.name = (fields.map Field.name).eraseDups ∧
    (∀ field ∈ (declare fields).fields, ∃ before after,
      fields = before ++ field :: after ∧ field.name ∉ after.map Field.name) ∧
    (declare fields = ⟨fields⟩ ↔ (fields.map Field.name).Nodup) ∧
    ∀ name, (∃ field, (declare fields).getField name = .ok field) ↔
      ∃ field, (Schema.mk fields).getField name = .ok field := by
  refine ⟨distinct_declare fields, names_declare fields, fun field => last_of_mem_declare,
    ⟨fun h => ?_, declare_of_nodup⟩, fun name => ?_⟩
  · have hdistinct := distinct_declare fields
    rwa [h] at hdistinct
  · simp only [getField_eq_ok, ← Option.isSome_iff_exists, Option.isSome_iff_ne_none, ne_eq, find?_eq_none_iff,
      names_declare, List.mem_eraseDups]

/-- The first field and the last of a repeated name have different types. -/
theorem declare_first_places_last_fields_of_repeated_names :
    let fields : List Field :=
      [⟨"b", .int⟩, ⟨"a", .null⟩, ⟨"b", .string⟩, ⟨"c", .long⟩, ⟨"a", .bytes⟩]
    declare fields = ⟨[⟨"b", .string⟩, ⟨"a", .bytes⟩, ⟨"c", .long⟩]⟩ ∧
    (declare fields).Distinct ∧
    (declare fields).fields.map Field.name = (fields.map Field.name).eraseDups ∧
    declare fields ≠ ⟨fields⟩ ∧
    (declare fields).getField "b" = .ok ⟨"b", .string⟩ ∧
    (Schema.mk fields).getField "b" = .ok ⟨"b", .int⟩ ∧
    ∃ field, (declare fields).getField "a" = .ok field := by
  intro fields
  obtain ⟨distinct, names, -, same, found⟩ := declare_first_places_last_fields fields
  have repeated : ¬ (fields.map Field.name).Nodup := by decide
  exact ⟨rfl, distinct, names, mt same.mp repeated, rfl, rfl, (found "a").mpr ⟨_, rfl⟩⟩

end RowDirectives.Schema
