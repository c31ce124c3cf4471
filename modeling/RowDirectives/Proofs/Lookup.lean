import Mathlib.Tactic.ByContra
import RowDirectives.Row
import RowDirectives.Schema

/-! Look-ups say everything about a dict: two ascending lists with the same look-ups are one list. So an
equation between rows is proved one name at a time, from what insertion and erasure do to each look-up.
Schemas keep the order of their fields and get the same look-up laws, but no such principle. -/
namespace RowDirectives

variable {α : Type}

namespace Entries

theorem find?_insert (name other : String) (value : α) (entries : List (String × α)) :
    find? other (insert name value entries) =
      if other = name then some value else find? other entries := by
  induction entries with
  | nil => simp [insert, find?, eq_comm]
  | cons head rest ih =>
    obtain ⟨k, v⟩ := head
    by_cases hlt : name < k
    · simp [insert, hlt, find?, eq_comm]
    · by_cases heq : name = k
      · subst heq
        simp only [insert, if_neg hlt, if_true, find?]
        by_cases hother : name = other <;> simp [hother, eq_comm]
      · simp only [insert, if_neg hlt, if_neg heq, find?, ih]
        by_cases hk : k = other
        · have : other ≠ name := fun h => heq (h.symm.trans hk.symm)
          simp [hk, this]
        · simp [hk]

theorem erase_cons (name : String) (head : String × α) (rest : List (String × α)) :
    erase name (head :: rest) =
      if head.1 = name then erase name rest else head :: erase name rest := by
  by_cases h : head.1 = name <;> simp [erase, h]

theorem find?_erase (name other : String) (entries : List (String × α)) :
    find? other (erase name entries) = if other = name then none else find? other entries := by
  induction entries with
  | nil => simp [erase, find?]
  | cons head rest ih =>
    obtain ⟨k, v⟩ := head
    rw [erase_cons]
    by_cases hk : k = name
    · subst hk
      by_cases hother : other = k
      · subst hother
        simp [ih]
      · simp [ih, find?, hother, Ne.symm hother]
    · by_cases hother : other = name
      · subst hother
        simp [find?, hk, ih]
      · simp [find?, hk, ih, hother]

theorem find?_eq_none_of_below {name : String} {entries : List (String × α)}
    (h : ∀ entry ∈ entries, name < entry.1) : find? name entries = none := by
  induction entries with
  | nil => rfl
  | cons head rest ih =>
    have hne : head.1 ≠ name := by
      intro heq
      exact String.lt_irrefl name (heq ▸ h head List.mem_cons_self)
    rw [find?, if_neg hne]
    exact ih fun entry mem => h entry (List.mem_cons_of_mem _ mem)

theorem mem_names_iff {name : String} {entries : List (String × α)} :
    name ∈ entries.map Prod.fst ↔ ∃ value, find? name entries = some value := by
  induction entries with
  | nil => simp [find?]
  | cons head rest ih =>
    obtain ⟨k, v⟩ := head
    by_cases hk : k = name
    · simp [find?, hk]
    · simp [find?, hk, ← ih, Ne.symm hk]

theorem Ascending.not_head_lt {x y : String × α} {xs ys : List (String × α)}
    (hy : Ascending (y :: ys)) (h : ∀ name, find? name (x :: xs) = find? name (y :: ys)) :
    ¬ x.1 < y.1 := by
  -- A head below the other is found on one side only.
  intro hlt
  have hnone : find? x.1 (y :: ys) = none := by
    apply find?_eq_none_of_below
    intro entry mem
    rcases List.mem_cons.mp mem with rfl | mem
    · exact hlt
    · exact String.lt_trans hlt ((List.pairwise_cons.mp hy).1 entry mem)
  have hsome := h x.1
  rw [hnone, find?, if_pos rfl] at hsome
  contradiction

theorem Ascending.ext {xs ys : List (String × α)} (hx : Ascending xs) (hy : Ascending ys)
    (h : ∀ name, find? name xs = find? name ys) : xs = ys := by
  induction xs generalizing ys with
  | nil =>
    cases ys with
    | nil => rfl
    | cons y ys => simpa [find?] using h y.1
  | cons x xs ih =>
    cases ys with
    | nil => simpa [find?] using h x.1
    | cons y ys =>
      -- Both lists start with their least name, and what follows it has the same look-ups again.
      obtain ⟨belowX, tailX⟩ := List.pairwise_cons.mp hx
      obtain ⟨belowY, tailY⟩ := List.pairwise_cons.mp hy
      have names : x.1 = y.1 := by
        rcases Std.lt_trichotomy x.1 y.1 with hlt | heq | hlt
        · exact absurd hlt (hy.not_head_lt h)
        · exact heq
        · exact absurd hlt (hx.not_head_lt fun name => (h name).symm)
      have values : x.2 = y.2 := by
        simpa [find?, names] using h y.1
      have tails : xs = ys := by
        apply ih tailX tailY
        intro name
        by_cases hname : y.1 = name
        · rw [find?_eq_none_of_below, find?_eq_none_of_below]
          · exact fun entry mem => hname ▸ belowY entry mem
          · exact fun entry mem => hname ▸ names ▸ belowX entry mem
        · simpa [find?, names, hname] using h name
      rw [tails, Prod.ext names values]

theorem mem_of_mem_ofList {entries : List (String × α)} {entry : String × α} (h : entry ∈ ofList entries) :
    entry ∈ entries := by
  suffices ∀ sorted, entry ∈ entries.foldl (fun sorted entry => insert entry.1 entry.2 sorted) sorted →
      entry ∈ sorted ∨ entry ∈ entries from
    (this [] h).resolve_left List.not_mem_nil
  clear h
  induction entries with
  | nil => exact fun _ h => .inl h
  | cons first rest ih =>
    intro sorted h
    rcases ih _ h with h | h
    · rcases mem_insert h with rfl | h
      · exact .inr List.mem_cons_self
      · exact .inl h
    · exact .inr (List.mem_cons_of_mem _ h)

theorem insert_of_above {name : String} {value : α} {entries : List (String × α)}
    (h : ∀ entry ∈ entries, entry.1 < name) :
    insert name value entries = entries ++ [(name, value)] := by
  induction entries with
  | nil => rfl
  | cons head rest ih =>
    obtain ⟨hhead, hrest⟩ := List.forall_mem_cons.mp h
    have hnot : ¬ name < head.1 := fun hlt => String.lt_irrefl name (String.lt_trans hlt hhead)
    have hne : name ≠ head.1 := fun heq => String.lt_irrefl name (heq ▸ hhead)
    rw [insert, if_neg hnot, if_neg hne, ih hrest, List.cons_append]

theorem Ascending.ofList_eq {entries : List (String × α)} (h : Ascending entries) :
    ofList entries = entries := by
  suffices ∀ sorted, Ascending (sorted ++ entries) →
      entries.foldl (fun sorted entry => Entries.insert entry.1 entry.2 sorted) sorted =
        sorted ++ entries from
    this [] h
  clear h
  induction entries with
  | nil => exact fun sorted _ => (List.append_nil sorted).symm
  | cons entry rest ih =>
    intro sorted h
    have habove : ∀ before ∈ sorted, before.1 < entry.1 := fun before hbefore =>
      (List.pairwise_append.mp h).2.2 before hbefore entry List.mem_cons_self
    rw [List.append_cons] at h
    rw [List.foldl_cons, insert_of_above habove, ih _ h, ← List.append_cons]

end Entries

namespace Dict

theorem ext_get? {d e : Dict α} (h : ∀ name, d.get? name = e.get? name) : d = e := by
  cases d with
  | mk xs hx =>
    cases e with
    | mk ys hy =>
      have : xs = ys := hx.ext hy h
      subst this
      rfl

@[simp] theorem get?_insert (d : Dict α) (name other : String) (value : α) :
    (d.insert name value).get? other = if other = name then some value else d.get? other :=
  Entries.find?_insert name other value d.entries

@[simp] theorem get?_erase (d : Dict α) (name other : String) :
    (d.erase name).get? other = if other = name then none else d.get? other :=
  Entries.find?_erase name other d.entries

theorem erase_eq_self {d : Dict α} {name : String} (h : d.get? name = none) : d.erase name = d := by
  apply ext_get?
  intro other
  rw [get?_erase]
  split
  next heq => rw [heq, h]
  next => rfl

theorem mem_names_iff {d : Dict α} {name : String} :
    name ∈ d.names ↔ ∃ value, d.get? name = some value :=
  Entries.mem_names_iff

theorem get?_eq_none_iff {d : Dict α} {name : String} : d.get? name = none ↔ name ∉ d.names := by
  rw [mem_names_iff]
  cases d.get? name <;> simp

end Dict

namespace Row

theorem ext_get? {row other : Row}
    (h : ∀ name, row.columns.get? name = other.columns.get? name) : row = other := by
  cases row
  cases other
  exact congrArg Row.mk (Dict.ext_get? h)

@[simp] theorem get?_setColumn (row : Row) (name other : String) (value : Json) :
    (row.setColumn name value).columns.get? other =
      if other = name then some value else row.columns.get? other :=
  Dict.get?_insert row.columns name other value

theorem mem_names_iff {row : Row} {name : String} :
    name ∈ row.names ↔ ∃ value, row.columns.get? name = some value :=
  Dict.mem_names_iff

theorem get?_eq_none_iff {row : Row} {name : String} :
    row.columns.get? name = none ↔ name ∉ row.names :=
  Dict.get?_eq_none_iff

theorem mem_names_setColumn {row : Row} {name other : String} {value : Json} :
    other ∈ (row.setColumn name value).names ↔ other = name ∨ other ∈ row.names := by
  simp only [mem_names_iff, get?_setColumn]
  by_cases h : other = name <;> simp [h]

theorem getColumn_eq_ok {row : Row} {name : String} {value : Json} :
    row.getColumn name = .ok value ↔ row.columns.get? name = some value := by
  unfold getColumn
  cases row.columns.get? name <;> simp

theorem getColumn_eq_error {row : Row} {name : String} {fault : Fault} :
    row.getColumn name = .error fault ↔ row.columns.get? name = none ∧ fault = .notFound name := by
  unfold getColumn
  cases row.columns.get? name <;> simp [eq_comm]

theorem setColumn_eq_self {row : Row} {name : String} {value : Json}
    (h : row.columns.get? name = some value) : row.setColumn name value = row := by
  apply ext_get?
  intro other
  rw [get?_setColumn]
  split
  next heq => rw [heq, h]
  next => rfl

theorem setColumn_comm (row : Row) {name other : String} (value next : Json) (h : name ≠ other) :
    (row.setColumn name value).setColumn other next =
      (row.setColumn other next).setColumn name value := by
  apply ext_get?
  intro column
  simp only [get?_setColumn]
  by_cases hname : column = name
  · subst hname
    simp [h]
  · simp [hname]

end Row

namespace Schema

theorem getField_eq_ok {s : Schema} {name : String} {field : Field} :
    s.getField name = .ok field ↔ s.find? name = some field := by
  unfold getField
  cases s.find? name <;> simp

theorem getField_eq_error {s : Schema} {name : String} {fault : Fault} :
    s.getField name = .error fault ↔ s.find? name = none ∧ fault = .notFound name := by
  unfold getField
  cases s.find? name <;> simp [eq_comm]

theorem find?_eq_none_iff {s : Schema} {name : String} :
    s.find? name = none ↔ name ∉ s.fields.map Field.name := by
  simp [find?]

theorem any_name_iff {fields : List Field} {name : String} :
    fields.any (·.name == name) = true ↔ name ∈ fields.map Field.name := by
  simp

theorem find?_updateFirst {fields : List Field} {field : Field}
    (h : field.name ∈ fields.map Field.name) (name : String) :
    (updateFirst (·.name == field.name) (fun _ => field) fields).find? (·.name == name) =
      if name = field.name then some field else fields.find? (·.name == name) := by
  induction fields with
  | nil => simp at h
  | cons head rest ih =>
    by_cases hhead : head.name = field.name
    · by_cases hname : name = field.name
      · simp [updateFirst, hhead, hname]
      · have : field.name ≠ name := Ne.symm hname
        simp [updateFirst, hhead, hname, this]
    · have hrest : field.name ∈ rest.map Field.name := by
        simpa [Ne.symm hhead] using h
      by_cases hname : head.name = name
      · subst hname
        simp [updateFirst, hhead]
      · simp [updateFirst, hhead, hname, ih hrest]

theorem find?_setField (s : Schema) (field : Field) (name : String) :
    (s.setField field).find? name = if name = field.name then some field else s.find? name := by
  by_cases hmem : field.name ∈ s.fields.map Field.name
  · rw [setField, if_pos (any_name_iff.mpr hmem)]
    exact find?_updateFirst hmem name
  · rw [setField, if_neg (fun h => hmem (any_name_iff.mp h))]
    by_cases hname : name = field.name
    · have hnone := find?_eq_none_iff.mpr hmem
      simp only [find?] at hnone ⊢
      simp [List.find?_append, hname, hnone]
    · have : field.name ≠ name := Ne.symm hname
      simp [find?, List.find?_append, hname, this]

theorem mem_names_setField {s : Schema} {field : Field} {name : String} :
    name ∈ (s.setField field).fields.map Field.name ↔
      name = field.name ∨ name ∈ s.fields.map Field.name := by
  have hnone : name ∉ (s.setField field).fields.map Field.name ↔
      name ≠ field.name ∧ name ∉ s.fields.map Field.name := by
    rw [← find?_eq_none_iff, ← find?_eq_none_iff, find?_setField]
    by_cases h : name = field.name <;> simp [h]
  rw [← not_iff_not, hnone, not_or]

theorem updateFirst_eq_self {fields : List Field} {field : Field}
    (h : fields.find? (·.name == field.name) = some field) :
    updateFirst (·.name == field.name) (fun _ => field) fields = fields := by
  induction fields with
  | nil => rfl
  | cons head rest ih =>
    by_cases hhead : head.name = field.name
    · have : head = field := by simpa [hhead] using h
      simp [updateFirst, this]
    · have hrest : rest.find? (·.name == field.name) = some field := by
        simpa [hhead] using h
      simp [updateFirst, hhead, ih hrest]

/-- Declaring what a look-up already finds changes nothing, not even where a name is repeated. -/
theorem setField_eq_self {s : Schema} {field : Field} (h : s.find? field.name = some field) :
    s.setField field = s := by
  have hmem : field.name ∈ s.fields.map Field.name := by
    by_contra hnot
    rw [find?_eq_none_iff.mpr hnot] at h
    contradiction
  rw [setField, if_pos (any_name_iff.mpr hmem), updateFirst_eq_self h]

end Schema
end RowDirectives
