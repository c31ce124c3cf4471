import Mathlib.Data.List.Count
import Mathlib.Data.List.Forall2
import RowDirectives.Proofs.DistinctFields
import RowDirectives.Proofs.Atomicity

/-! Schemas as ordered maps, repeated names included. A name that is declared has a first field, and every
request works there: declaring a field puts it in the place of the first of its name or at the end, and a
renaming gives the first field another name after the fields of that name are gone. All other fields stay, in
their order, so look-ups of other names do not change and no name is repeated more often than before. -/
namespace RowDirectives.Schema

variable {s s' : Schema} {fields before after : List Field} {field old : Field}
  {name source target : String}

section FirstField

/-- The first field of a name, with what stands before and after it. -/
structure First (name : String) (fields before : List Field) (old : Field) (after : List Field) :
    Prop where
  split : fields = before ++ old :: after
  fresh : name ∉ before.map Field.name
  named : old.name = name

theorem exists_first (h : name ∈ fields.map Field.name) :
    ∃ before old after, First name fields before old after := by
  induction fields with
  | nil => exact absurd h List.not_mem_nil
  | cons head rest ih =>
    by_cases hhead : head.name = name
    · exact ⟨[], head, rest, rfl, List.not_mem_nil, hhead⟩
    · have hrest : name ∈ rest.map Field.name := by
        simpa [Ne.symm hhead] using h
      obtain ⟨before, old, after, split, fresh, named⟩ := ih hrest
      refine ⟨head :: before, old, after, ?_, ?_, named⟩
      · rw [split, List.cons_append]
      · simpa [Ne.symm hhead] using fresh

theorem First.mem (h : First name fields before old after) : name ∈ fields.map Field.name := by
  rw [h.split, List.map_append, List.map_cons, h.named]
  exact List.mem_append_right _ List.mem_cons_self

/-- The first field has the name already. -/
theorem First.rename_self (h : First name fields before old after) : { old with name := name } = old := by
  rw [← h.named]

theorem First.updateFirst (h : First name fields before old after) (f : Field → Field) :
    updateFirst (·.name == name) f fields = before ++ f old :: after := by
  obtain ⟨rfl, fresh, named⟩ := h
  induction before with
  | nil => simp [Schema.updateFirst, named]
  | cons head rest ih =>
    obtain ⟨hhead, hrest⟩ := not_or.mp (mt List.mem_cons.mpr fresh)
    simp [Schema.updateFirst, Ne.symm hhead, ih hrest]

theorem First.find? (h : First name s.fields before old after) : s.find? name = some old := by
  have hbefore : before.find? (·.name == name) = none := find?_eq_none_iff.mpr h.fresh
  rw [Schema.find?, h.split, List.find?_append, hbefore, Option.none_or]
  simp [h.named]

end FirstField

section Without

/-- The fields that have another name. -/
def without (name : String) (fields : List Field) : List Field := fields.filter (·.name != name)

theorem not_mem_without (name : String) (fields : List Field) :
    name ∉ (without name fields).map Field.name := by
  simp [without]

theorem without_eq_self (h : name ∉ fields.map Field.name) : without name fields = fields := by
  apply List.filter_eq_self.mpr
  intro field hmem
  exact bne_iff_ne.mpr fun heq => h (heq ▸ List.mem_map_of_mem hmem)

theorem without_append (name : String) (before after : List Field) :
    without name (before ++ after) = without name before ++ without name after :=
  List.filter_append before after

theorem without_cons (h : old.name ≠ name) : without name (old :: after) = old :: without name after :=
  List.filter_cons_of_pos (bne_iff_ne.mpr h)

theorem without_cons_of_name (h : old.name = name) : without name (old :: after) = without name after :=
  List.filter_cons_of_neg (by simp [h])

theorem find?_without (h : name ≠ target) (fields : List Field) :
    (without target fields).find? (·.name == name) = fields.find? (·.name == name) := by
  rw [without, List.find?_filter]
  congr 1
  funext field
  by_cases hname : field.name = name <;> simp [hname, h]

theorem count_without (h : name ≠ target) (fields : List Field) :
    ((without target fields).map Field.name).count name = (fields.map Field.name).count name := by
  induction fields with
  | nil => rfl
  | cons head rest ih =>
    by_cases hhead : head.name = target
    · have hname : head.name ≠ name := hhead ▸ Ne.symm h
      rw [without_cons_of_name hhead, List.map_cons, List.count_cons_of_ne hname, ih]
    · rw [without_cons hhead, List.map_cons, List.map_cons, List.count_cons, List.count_cons, ih]

theorem length_without (name : String) (fields : List Field) :
    (without name fields).length + (fields.map Field.name).count name = fields.length := by
  induction fields with
  | nil => rfl
  | cons head rest ih =>
    by_cases hhead : head.name = name
    · rw [without_cons_of_name hhead, List.map_cons, hhead, List.count_cons_self, List.length_cons]
      omega
    · rw [without_cons hhead, List.map_cons, List.count_cons_of_ne hhead, List.length_cons,
        List.length_cons]
      omega

theorem first_without (h : First source fields before old after) (different : source ≠ target) :
    First source (without target fields) (without target before) old (without target after) := by
  have hold : old.name ≠ target := h.named ▸ different
  refine ⟨?_, ?_, h.named⟩
  · rw [h.split, without_append, without_cons hold]
  · exact fun hmem => h.fresh (List.filter_sublist.map Field.name |>.subset hmem)

end Without

section Requests

/-- What declaring a field makes of a schema. -/
structure Declares (s : Schema) (field : Field) (s' : Schema) : Prop where
  found : s'.getField field.name = .ok field
  others : ∀ name, name ≠ field.name → s'.getField name = s.getField name
  replaced : field.name ∈ s.fields.map Field.name → ∃ before old after,
    First field.name s.fields before old after ∧ s'.fields = before ++ field :: after
  appended : field.name ∉ s.fields.map Field.name → s'.fields = s.fields ++ [field]
  positions : ∀ index < s.size,
    s'.fields[index]?.map Field.name = s.fields[index]?.map Field.name
  grows : s'.size = s.size + 1 ↔ field.name ∉ s.fields.map Field.name

/-- What a renaming that succeeds makes of a schema. -/
structure Renames (s : Schema) (source target : String) (s' : Schema) : Prop where
  unchanged : source = target → s' = s
  moved : source ≠ target → ∃ before old after, First source s.fields before old after ∧
    s'.fields = without target before ++ { old with name := target } :: without target after
  found : s'.getField target = (s.getField source).map fun field => { field with name := target }
  others : ∀ name, name ≠ source → name ≠ target → s'.getField name = s.getField name
  ordered : ∃ survivors, survivors.Sublist s.fields ∧ List.Forall₂ (fun field field' =>
    field' = field ∨ field.name = source ∧ field' = { field with name := target })
    survivors s'.fields

theorem getField_congr (h : s'.find? name = s.find? name) : s'.getField name = s.getField name := by
  unfold getField
  rw [h]

theorem setField_of_absent (h : field.name ∉ s.fields.map Field.name) :
    s.setField field = ⟨s.fields ++ [field]⟩ := by
  rw [setField, if_neg (mt any_name_iff.mp h)]

theorem First.setField (h : First field.name s.fields before old after) :
    s.setField field = ⟨before ++ field :: after⟩ := by
  rw [Schema.setField, if_pos (any_name_iff.mpr h.mem), h.updateFirst]

theorem names_setField (s : Schema) (field : Field) :
    (s.setField field).fields.map Field.name =
      if field.name ∈ s.fields.map Field.name then s.fields.map Field.name
      else s.fields.map Field.name ++ [field.name] := by
  by_cases hmem : field.name ∈ s.fields.map Field.name
  · obtain ⟨before, old, after, first⟩ := exists_first hmem
    rw [if_pos hmem, first.setField, first.split]
    simp [first.named]
  · rw [if_neg hmem, setField_of_absent hmem, List.map_append]
    rfl

theorem declares_setField (s : Schema) (field : Field) : s.Declares field (s.setField field) := by
  have found : (s.setField field).getField field.name = .ok field := by
    rw [getField_eq_ok, find?_setField, if_pos rfl]
  have others (name : String) (h : name ≠ field.name) :
      (s.setField field).getField name = s.getField name := by
    apply getField_congr
    rw [find?_setField, if_neg h]
  by_cases hmem : field.name ∈ s.fields.map Field.name
  · obtain ⟨before, old, after, first⟩ := exists_first hmem
    have hset := first.setField
    have names : (s.setField field).fields.map Field.name = s.fields.map Field.name := by
      rw [names_setField, if_pos hmem]
    refine ⟨found, others, fun _ => ⟨before, old, after, first, hset ▸ rfl⟩, absurd hmem, ?_, ?_⟩
    · intro index _
      rw [← List.getElem?_map, ← List.getElem?_map, names]
    · have hsize : (s.setField field).size = s.size := by
        simpa [size] using congrArg List.length names
      exact iff_of_false (by omega) (not_not_intro hmem)
  · have hset := setField_of_absent hmem
    refine ⟨found, others, fun h => absurd h hmem, fun _ => hset ▸ rfl, ?_, ?_⟩
    · intro index hindex
      rw [hset, List.getElem?_append_left hindex]
    · have hsize : (s.setField field).size = s.size + 1 := by
        rw [hset, size, List.length_append, List.length_singleton, size]
      exact iff_of_true hsize hmem

theorem run_renameField_eq_ok :
    (SchemaHost.renameField source target : Step Schema Unit).run s = (.ok (), s') ↔
      (renameField source target).exec s = .ok s' :=
  Step.run_eq_ok

theorem run_renameField_eq_error {fault : Fault} :
    (SchemaHost.renameField source target : Step Schema Unit).run s = (.error fault, s') ↔
      (renameField source target).exec s = .error fault ∧ s' = s :=
  (atomic_renameField source target).run_eq_error

theorem renameField_self (h : name ∈ s.fields.map Field.name) : (renameField name name).exec s = .ok s := by
  obtain ⟨before, old, after, first⟩ := exists_first h
  apply renameField_eq_ok.mpr
  refine ⟨h, ?_⟩
  rw [kept, if_pos rfl, first.updateFirst, first.rename_self, ← first.split]

theorem First.renameField (h : First source s.fields before old after) (different : source ≠ target) :
    (renameField source target).exec s =
      .ok ⟨without target before ++ { old with name := target } :: without target after⟩ := by
  apply renameField_eq_ok.mpr
  refine ⟨h.mem, ?_⟩
  have renamed := (first_without h different).updateFirst fun field => { field with name := target }
  rw [kept, if_neg different]
  exact congrArg Schema.mk renamed.symm

/-- A renaming that succeeds changes nothing, or it renames the first field of the name. -/
theorem renameField_cases (hrename : (renameField source target).exec s = .ok s') :
    source = target ∧ s' = s ∨ source ≠ target ∧ ∃ before old after,
      First source s.fields before old after ∧
        s' = ⟨without target before ++ { old with name := target } :: without target after⟩ := by
  obtain ⟨hmem, -⟩ := renameField_eq_ok.mp hrename
  by_cases heq : source = target
  · subst heq
    exact .inl ⟨rfl, Except.ok.inj (hrename.symm.trans (renameField_self hmem))⟩
  · obtain ⟨before, old, after, first⟩ := exists_first hmem
    exact .inr ⟨heq, before, old, after, first,
      Except.ok.inj (hrename.symm.trans (first.renameField heq))⟩

theorem first_renamed (target : String) (before : List Field) (old : Field) (after : List Field) :
    First target (without target before ++ { old with name := target } :: without target after)
      (without target before) { old with name := target } (without target after) :=
  ⟨rfl, not_mem_without target before, rfl⟩

theorem find?_renameField (hrename : (renameField source target).exec s = .ok s') (hsource : name ≠ source)
    (htarget : name ≠ target) : s'.find? name = s.find? name := by
  obtain ⟨-, rfl⟩ | ⟨-, before, old, after, first, rfl⟩ := renameField_cases hrename
  · rfl
  · -- Neither the field that is renamed nor one that is dropped has the third name.
    have hold : ¬ old.name = name := fun h => hsource (h.symm.trans first.named)
    simp [find?, first.split, List.find?_append, find?_without htarget, Ne.symm htarget, hold]

theorem renames_renameField (hrename : (renameField source target).exec s = .ok s') :
    s.Renames source target s' := by
  have others (name : String) (hsource : name ≠ source) (htarget : name ≠ target) :
      s'.getField name = s.getField name := getField_congr (find?_renameField hrename hsource htarget)
  have same (fields : List Field) : List.Forall₂ (fun field field' =>
      field' = field ∨ field.name = source ∧ field' = { field with name := target })
      fields fields := List.forall₂_same.mpr fun _ _ => .inl rfl
  obtain ⟨rfl, rfl⟩ | ⟨different, before, old, after, first, rfl⟩ := renameField_cases hrename
  · obtain ⟨hmem, -⟩ := renameField_eq_ok.mp hrename
    obtain ⟨before, old, after, first⟩ := exists_first hmem
    refine ⟨fun _ => rfl, absurd rfl, ?_, others, s'.fields, List.Sublist.refl _, same _⟩
    rw [getField_eq_ok.mpr first.find?]
    exact congrArg Except.ok first.rename_self.symm
  · refine ⟨(absurd · different), fun _ => ⟨before, old, after, first, rfl⟩, ?_, others,
      without target before ++ old :: without target after, ?_, ?_⟩
    · rw [getField_eq_ok.mpr first.find?, getField_eq_ok.mpr (first_renamed target _ _ _).find?]
      rfl
    · rw [← (first_without first different).split]
      exact List.filter_sublist
    · exact List.rel_append (same _) (.cons (.inr ⟨first.named, rfl⟩) (same _))

end Requests

section Multiplicity

/-- How many fields have the name. -/
def multiplicity (s : Schema) (name : String) : Nat := (s.fields.map Field.name).count name

theorem distinct_iff_multiplicity : s.Distinct ↔ ∀ name, s.multiplicity name ≤ 1 :=
  List.nodup_iff_count_le_one

theorem Distinct.multiplicity (h : s.Distinct) (name : String) :
    s.multiplicity name = if name ∈ s.fields.map Field.name then 1 else 0 := by
  split
  next hmem => exact List.count_eq_one_of_mem h hmem
  next hmem => exact List.count_eq_zero.mpr hmem

theorem multiplicity_eq_zero_iff : s.multiplicity name = 0 ↔ name ∉ s.fields.map Field.name :=
  List.count_eq_zero

theorem First.multiplicity (h : First name s.fields before old after) (other : String) :
    s.multiplicity other = (before.map Field.name).count other +
      (if name = other then 1 else 0) + (after.map Field.name).count other := by
  rw [Schema.multiplicity, h.split, List.map_append, List.map_cons, List.count_append,
    List.count_cons, h.named]
  simp only [beq_iff_eq]
  omega

theorem multiplicity_setField (s : Schema) (field : Field) (name : String) :
    (s.setField field).multiplicity name =
      if name = field.name then max 1 (s.multiplicity name) else s.multiplicity name := by
  by_cases hmem : field.name ∈ s.fields.map Field.name
  · obtain ⟨before, old, after, first⟩ := exists_first hmem
    have set : First field.name (s.setField field).fields before field after :=
      ⟨congrArg Schema.fields first.setField, first.fresh, rfl⟩
    rw [set.multiplicity, first.multiplicity]
    by_cases hname : name = field.name
    · rw [if_pos hname, if_pos hname.symm]
      omega
    · rw [if_neg hname]
  · have hzero := multiplicity_eq_zero_iff.mpr hmem
    rw [setField_of_absent hmem, multiplicity, List.map_append, List.count_append]
    by_cases hname : name = field.name
    · subst hname
      rw [if_pos rfl, hzero, ← multiplicity, hzero]
      simp
    · simp [hname, Ne.symm hname, multiplicity]

theorem multiplicity_renameField_le (hrename : (renameField source target).exec s = .ok s') (name : String) :
    s'.multiplicity name ≤ max 1 (s.multiplicity name) := by
  obtain ⟨-, rfl⟩ | ⟨-, before, old, after, first, rfl⟩ := renameField_cases hrename
  · exact Nat.le_max_right _ _
  · rw [(first_renamed target before old after).multiplicity]
    by_cases hname : name = target
    · subst hname
      have hbefore := List.count_eq_zero.mpr (not_mem_without name before)
      have hafter := List.count_eq_zero.mpr (not_mem_without name after)
      rw [if_pos rfl, hbefore, hafter]
      exact Nat.le_max_left _ _
    · rw [if_neg (Ne.symm hname), count_without hname, count_without hname, first.multiplicity]
      omega

/-- The schema after a request, whether it was answered or refused. -/
def afterCall (s : Schema) : SchemaCall → Schema
  | .getField name => ((SchemaHost.getField name : Step Schema Field).run s).2
  | .setField field => ((SchemaHost.setField field : StateM Schema Unit).run s).2
  | .renameField source target => ((SchemaHost.renameField source target : Step Schema Unit).run s).2

/-- One request repeats no name more often than before, but for a name that was missing. -/
theorem multiplicity_afterCall_le (s : Schema) (call : SchemaCall) (name : String) :
    (s.afterCall call).multiplicity name ≤ max 1 (s.multiplicity name) := by
  cases call with
  | getField asked => exact Nat.le_max_right _ _
  | setField field =>
    change (s.setField field).multiplicity name ≤ _
    rw [multiplicity_setField]
    split <;> omega
  | renameField source target =>
    cases hrename : (renameField source target).exec s with
    | ok s' =>
      have hafter : s.afterCall (.renameField source target) = s' :=
        congrArg Prod.snd (run_renameField_eq_ok.mpr hrename)
      rw [hafter]
      exact multiplicity_renameField_le hrename name
    | error fault =>
      have hafter : s.afterCall (.renameField source target) = s :=
        congrArg Prod.snd (run_renameField_eq_error.mpr ⟨hrename, rfl⟩)
      rw [hafter]
      exact Nat.le_max_right _ _

theorem multiplicity_foldl_afterCall_le (s : Schema) (calls : List SchemaCall) (name : String) :
    (calls.foldl afterCall s).multiplicity name ≤ max 1 (s.multiplicity name) := by
  induction calls generalizing s with
  | nil => exact Nat.le_max_right _ _
  | cons call rest ih =>
    have hrest := ih (s.afterCall call)
    have hcall := multiplicity_afterCall_le s call name
    rw [List.foldl_cons]
    omega

theorem Distinct.foldl_afterCall (h : s.Distinct) (calls : List SchemaCall) :
    (calls.foldl afterCall s).Distinct := by
  apply distinct_iff_multiplicity.mpr
  intro name
  have hname := distinct_iff_multiplicity.mp h name
  have hbound := multiplicity_foldl_afterCall_le s calls name
  omega

end Multiplicity

section Distinct

/-- Only the fields of the new name go. -/
theorem size_renameField (hrename : (renameField source target).exec s = .ok s')
    (different : source ≠ target) : s'.size + s.multiplicity target = s.size := by
  obtain ⟨heq, -⟩ | ⟨-, before, old, after, first, rfl⟩ := renameField_cases hrename
  · exact absurd heq different
  · have hbefore := length_without target before
    have hafter := length_without target after
    rw [first.multiplicity, if_neg different, size, size, first.split]
    simp only [List.length_append, List.length_cons]
    omega

/-- The opposite renaming undoes a renaming to a name that was free. -/
theorem Distinct.renameField_back (h : s.Distinct)
    (hrename : (Schema.renameField source target).exec s = .ok s')
    (free : target ∉ s.fields.map Field.name) : (Schema.renameField target source).exec s' = .ok s := by
  obtain ⟨hmem, -⟩ := renameField_eq_ok.mp hrename
  obtain ⟨rfl, -⟩ | ⟨different, before, old, after, first, rfl⟩ := renameField_cases hrename
  · exact absurd hmem free
  · -- The first field of the source is its only one, so the way back drops nothing.
    have hone := distinct_iff_multiplicity.mp h source
    rw [first.multiplicity, if_pos rfl] at hone
    have hafter : source ∉ after.map Field.name := List.count_eq_zero.mp (by omega)
    rw [first.split, List.map_append, List.map_cons, List.mem_append, List.mem_cons] at free
    obtain ⟨freeBefore, freeRest⟩ := not_or.mp free
    rw [without_eq_self freeBefore, without_eq_self (not_or.mp freeRest).2]
    have renamed : First target (before ++ { old with name := target } :: after) before
        { old with name := target } after := ⟨rfl, freeBefore, rfl⟩
    have back : (Schema.renameField target source).exec
        ⟨before ++ { old with name := target } :: after⟩ = .ok ⟨_⟩ := renamed.renameField (Ne.symm different)
    rw [back, without_eq_self first.fresh, without_eq_self hafter, first.rename_self, ← first.split]

end Distinct

/-- A schema is an ordered map under every request, whether or not names are repeated in it. Declaring a
field and renaming one do what `Declares` and `Renames` say; a renaming is refused if and only if its source
is missing, and then it changes nothing; no sequence of requests repeats a name more often than before. Where
names are distinct a renaming loses the other field of the new name, if there is one, and to a free name it
can be undone. -/
theorem ordered_map_under_requests :
    (∀ (s : Schema) (field : Field), s.Declares field (s.setField field)) ∧
    (∀ (s s' : Schema) (source target : String) (fault : Fault),
      (SchemaHost.renameField source target : Step Schema Unit).run s = (.error fault, s') ↔
        source ∉ s.fields.map Field.name ∧ fault = .notFound source ∧ s' = s) ∧
    (∀ (s s' : Schema) (source target : String),
      (SchemaHost.renameField source target : Step Schema Unit).run s = (.ok (), s') →
        s.Renames source target s') ∧
    (∀ (s : Schema) (calls : List SchemaCall) (name : String),
      (calls.foldl afterCall s).multiplicity name ≤ max 1 (s.multiplicity name)) ∧
    (∀ (s : Schema) (calls : List SchemaCall), s.Distinct → (calls.foldl afterCall s).Distinct) ∧
    ∀ (s s' : Schema) (source target : String), s.Distinct →
      (SchemaHost.renameField source target : Step Schema Unit).run s = (.ok (), s') →
        s'.Distinct ∧
        s'.size + (if source ≠ target ∧ target ∈ s.fields.map Field.name then 1 else 0) = s.size ∧
        (source ≠ target → s'.find? source = none) ∧
        (target ∉ s.fields.map Field.name →
          (SchemaHost.renameField target source : Step Schema Unit).run s' = (.ok (), s)) := by
  refine ⟨declares_setField, ?refused, ?renamed, multiplicity_foldl_afterCall_le,
    fun s calls distinct => distinct.foldl_afterCall calls, ?distinct⟩
  case refused =>
    intro s s' source target fault
    rw [run_renameField_eq_error, renameField_eq_error, and_assoc]
  case renamed =>
    intro s s' source target hrun
    exact renames_renameField (run_renameField_eq_ok.mp hrun)
  case distinct =>
    intro s s' source target distinct hrun
    have hrename := run_renameField_eq_ok.mp hrun
    refine ⟨distinct.renameField hrename, ?_, ?_, ?_⟩
    · by_cases heq : source = target
      · rw [(renames_renameField hrename).unchanged heq, if_neg fun h => h.1 heq, Nat.add_zero]
      · rw [← size_renameField hrename heq, distinct.multiplicity]
        simp only [ne_eq, heq, not_false_eq_true, true_and]
    · intro different
      rw [find?_eq_none_iff, mem_names_renameField distinct hrename]
      simp [different]
    · exact fun free => run_renameField_eq_ok.mpr (distinct.renameField_back hrename free)

/-- Both names of the renaming are repeated, and the field that is renamed stands behind one that goes. -/
theorem ordered_map_under_requests_with_repeated_names :
    let s : Schema := ⟨[⟨"b", .int⟩, ⟨"a", .long⟩, ⟨"c", .bytes⟩, ⟨"b", .string⟩, ⟨"a", .null⟩]⟩
    let plain : Schema := ⟨[⟨"a", .int⟩, ⟨"b", .string⟩]⟩
    let calls : List SchemaCall :=
      [.renameField "a" "b", .setField ⟨"d", .int⟩, .renameField "z" "c", .renameField "d" "a"]
    s.Declares ⟨"a", .string⟩
      ⟨[⟨"b", .int⟩, ⟨"a", .string⟩, ⟨"c", .bytes⟩, ⟨"b", .string⟩, ⟨"a", .null⟩]⟩ ∧
    (SchemaHost.renameField "z" "b" : Step Schema Unit).run s = (.error (.notFound "z"), s) ∧
    s.Renames "a" "b" ⟨[⟨"b", .long⟩, ⟨"c", .bytes⟩, ⟨"a", .null⟩]⟩ ∧
    (calls.foldl afterCall s).multiplicity "a" ≤ max 1 (s.multiplicity "a") ∧
    (calls.foldl afterCall plain).Distinct ∧
    (SchemaHost.renameField "c" "a" : Step Schema Unit).run ⟨[⟨"c", .int⟩, ⟨"b", .string⟩]⟩ =
      (.ok (), plain) := by
  intro s plain calls
  obtain ⟨declares, refused, renamed, bounded, invariant, distinct⟩ := ordered_map_under_requests
  have missing : "z" ∉ s.fields.map Field.name := by decide
  have plainDistinct : plain.Distinct := by decide
  have free : "c" ∉ plain.fields.map Field.name := by decide
  obtain ⟨-, -, -, back⟩ :=
    distinct plain ⟨[⟨"c", .int⟩, ⟨"b", .string⟩]⟩ "a" "c" plainDistinct rfl
  exact ⟨declares s ⟨"a", .string⟩, (refused s s "z" "b" _).mpr ⟨missing, rfl, rfl⟩,
    renamed s _ "a" "b" rfl, bounded s calls "a", invariant plain calls plainDistinct, back free⟩

end RowDirectives.Schema
