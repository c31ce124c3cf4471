/-! Maps from names to values, kept as entries in ascending order of their names. The order is that of
code points, and a name occurs once, so two maps with the same look-ups are the same list. -/
namespace RowDirectives

variable {α : Type}

namespace Entries

def find? (name : String) : List (String × α) → Option α
  | [] => none
  | (k, v) :: rest => if k = name then some v else find? name rest

/-- Puts a value in its place, over the one that has the same name. -/
def insert (name : String) (value : α) : List (String × α) → List (String × α)
  | [] => [(name, value)]
  | (k, v) :: rest =>
    if name < k then (name, value) :: (k, v) :: rest
    else if name = k then (name, value) :: rest
    else (k, v) :: insert name value rest

def erase (name : String) (entries : List (String × α)) : List (String × α) :=
  entries.filter fun entry => entry.1 ≠ name

/-- Later entries win over earlier ones of the same name. -/
def ofList (entries : List (String × α)) : List (String × α) :=
  entries.foldl (fun sorted entry => insert entry.1 entry.2 sorted) []

def Ascending (entries : List (String × α)) : Prop :=
  entries.Pairwise fun a b => a.1 < b.1

theorem mem_insert {name : String} {value : α} {entries : List (String × α)}
    {entry : String × α} (h : entry ∈ insert name value entries) :
    entry = (name, value) ∨ entry ∈ entries := by
  induction entries with
  | nil => simpa [insert] using h
  | cons head rest ih =>
    obtain ⟨k, v⟩ := head
    unfold insert at h
    split at h
    · simpa using h
    · split at h
      · rcases List.mem_cons.mp h with h | h
        · exact .inl h
        · exact .inr (List.mem_cons_of_mem _ h)
      · rcases List.mem_cons.mp h with h | h
        · exact .inr (h ▸ List.mem_cons_self)
        · exact (ih h).imp_right (List.mem_cons_of_mem _)

theorem Ascending.insert {entries : List (String × α)} (h : Ascending entries)
    (name : String) (value : α) : Ascending (Entries.insert name value entries) := by
  induction entries with
  | nil => simp [Entries.insert, Ascending]
  | cons head rest ih =>
    obtain ⟨k, v⟩ := head
    obtain ⟨below, tail⟩ := List.pairwise_cons.mp h
    unfold Entries.insert
    split
    case isTrue lt =>
      refine List.pairwise_cons.mpr ⟨fun entry mem => ?_, h⟩
      rcases List.mem_cons.mp mem with rfl | mem
      · exact lt
      · exact String.lt_trans lt (below entry mem)
    case isFalse notLt =>
      split
      case isTrue eq => exact List.pairwise_cons.mpr ⟨fun entry mem => eq ▸ below entry mem, tail⟩
      case isFalse ne =>
        refine List.pairwise_cons.mpr ⟨fun entry mem => ?_, ih tail⟩
        rcases mem_insert mem with rfl | mem
        · exact Std.lt_of_le_of_ne (String.not_lt.mp notLt) (Ne.symm ne)
        · exact below entry mem

theorem Ascending.erase {entries : List (String × α)} (h : Ascending entries) (name : String) :
    Ascending (Entries.erase name entries) :=
  List.Pairwise.filter _ h

theorem ascending_ofList (entries : List (String × α)) : Ascending (ofList entries) := by
  suffices ∀ sorted, Ascending sorted →
      Ascending (entries.foldl (fun sorted entry => insert entry.1 entry.2 sorted) sorted) from
    this [] List.Pairwise.nil
  induction entries with
  | nil => exact fun _ h => h
  | cons entry rest ih => exact fun sorted h => ih _ (h.insert entry.1 entry.2)

end Entries

structure Dict (α : Type) where
  entries : List (String × α)
  ascending : Entries.Ascending entries

namespace Dict

def empty : Dict α := ⟨[], List.Pairwise.nil⟩

def ofList (entries : List (String × α)) : Dict α :=
  ⟨Entries.ofList entries, Entries.ascending_ofList entries⟩

def get? (d : Dict α) (name : String) : Option α := Entries.find? name d.entries

def insert (d : Dict α) (name : String) (value : α) : Dict α :=
  ⟨Entries.insert name value d.entries, d.ascending.insert name value⟩

def erase (d : Dict α) (name : String) : Dict α :=
  ⟨Entries.erase name d.entries, d.ascending.erase name⟩

/-- The names in ascending order. -/
def names (d : Dict α) : List String := d.entries.map Prod.fst

end Dict
end RowDirectives
