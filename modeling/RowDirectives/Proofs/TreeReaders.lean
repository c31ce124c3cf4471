import Mathlib.Data.List.Forall2
import RowDirectives.Proofs.WrittenValues

/-! What the parts of a reader make of the trees of values. A list is read item by item, and a record entry by
entry, where entries that are skipped leave no trace: on the tree of a value nothing is ever broken, so each
part answers what the reader of the content answers. How deep brackets may be nested is the only limit. -/
namespace RowDirectives.Json

theorem mapM_eq_ok {ε α β : Type} {f : α → Except ε β} {xs : List α} {ys : List β} :
    xs.mapM f = .ok ys ↔ List.Forall₂ (fun x y => f x = .ok y) xs ys := by
  induction xs generalizing ys with
  | nil => simp [pure, Except.pure, eq_comm]
  | cons x xs ih =>
    rw [List.mapM_cons]
    cases hx : f x with
    | error e => simp [bind, Except.bind, hx, List.forall₂_cons_left_iff]
    | ok y =>
      cases hxs : xs.mapM f <;>
        simp [bind, Except.bind, pure, Except.pure, hx, hxs, List.forall₂_cons_left_iff, ← ih, eq_comm]

/-- Where an item that is read can only be what it stands for, so can the whole list. -/
theorem mapM_eq_ok_iff_forall {ε α β : Type} {f : α → Except ε β} {p : β → Prop} {xs : List α} {ys zs : List β}
    (h : List.Forall₂ (fun x y => ∀ z, f x = .ok z ↔ z = y ∧ p y) xs ys) :
    xs.mapM f = .ok zs ↔ zs = ys ∧ ∀ y ∈ ys, p y := by
  rw [mapM_eq_ok]
  induction h generalizing zs with
  | nil => simp
  | @cons x y xs ys hxy _ ih =>
    simp only [List.forall₂_cons_left_iff, hxy, ih, List.forall_mem_cons]
    constructor
    · rintro ⟨_, _, ⟨rfl, hy⟩, ⟨rfl, hys⟩, rfl⟩
      exact ⟨rfl, hy, hys⟩
    · rintro ⟨rfl, hy, hys⟩
      exact ⟨y, ys, ⟨rfl, hy⟩, ⟨rfl, hys⟩, rfl⟩

theorem map_eq_ok_iff {ε α β : Type} {x : Except ε α} {f : α → β} {a : α} {b : β} {p : Prop}
    (h : ∀ found, x = .ok found ↔ found = a ∧ p) : x.map f = .ok b ↔ b = f a ∧ p := by
  constructor
  · intro hmap
    cases x with
    | error e => cases hmap
    | ok found =>
      obtain ⟨rfl, hp⟩ := (h found).mp rfl
      exact ⟨(Except.ok.inj hmap).symm, hp⟩
  · rintro ⟨rfl, hp⟩
    rw [(h a).mpr ⟨rfl, hp⟩]
    rfl

section Depth

mutual

/-- How many brackets are open at once where the text of a value is deepest. -/
def depth : Json → Nat
  | array items => itemDepth items + 1
  | object members => memberDepth members + 1
  | _ => 0

def itemDepth : List Json → Nat
  | [] => 0
  | item :: rest => max (depth item) (itemDepth rest)

def memberDepth : List (String × Json) → Nat
  | [] => 0
  | (_, value) :: rest => max (depth value) (memberDepth rest)

end

theorem itemDepth_le {items : List Json} {room : Nat} :
    itemDepth items ≤ room ↔ ∀ item ∈ items, item.depth ≤ room := by
  induction items with
  | nil => simp [itemDepth]
  | cons item rest ih => rw [itemDepth, Nat.max_le, ih, List.forall_mem_cons]

theorem memberDepth_le {members : List (String × Json)} {room : Nat} :
    memberDepth members ≤ room ↔ ∀ member ∈ members, member.2.depth ≤ room := by
  induction members with
  | nil => simp [memberDepth]
  | cons member rest ih => rw [memberDepth, Nat.max_le, ih, List.forall_mem_cons]

end Depth

namespace Tree

variable {α σ κ : Type} {room : Nat} {name field title : String} {value : Json}
  {members : List (String × Json)}

theorem skip_tree (v : Json) : v.tree.skip = .ok () := by
  rw [skip, complete_tree, if_pos rfl]

theorem listOf_tree (h : 0 < room) (item : Tree → Except Mismatch α) (items : List Json) :
    listOf room item (array items).tree = (itemTrees items).mapM item := by
  rw [tree, listOf, if_neg (Nat.ne_of_gt h)]
  cases hitems : (itemTrees items).mapM item <;> rfl

theorem entriesInto_cons (entry : σ → String → Tree → Except Mismatch σ) (state : σ) (name : String)
    (value : Json) (members : List (String × Json)) :
    entriesInto entry state (memberTrees ((name, value) :: members)) =
      (entry state name value.tree).bind fun state => entriesInto entry state (memberTrees members) := rfl

theorem entriesInto_append (entry : σ → String → Tree → Except Mismatch σ) (state : σ)
    (first others : List (String × Json)) :
    entriesInto entry state (memberTrees (first ++ others)) =
      (entriesInto entry state (memberTrees first)).bind fun state =>
        entriesInto entry state (memberTrees others) := by
  induction first generalizing state with
  | nil => rfl
  | cons member first ih =>
    obtain ⟨name, value⟩ := member
    rw [List.cons_append, entriesInto_cons, entriesInto_cons]
    cases entry state name value.tree with
    | error mismatch => rfl
    | ok state => exact ih state

/-- Entries that are skipped might as well be left out. -/
theorem entriesInto_filter (known : String → Bool) {entry : σ → String → Tree → Except Mismatch σ}
    (hskip : ∀ state name (value : Json), known name = false → entry state name value.tree = .ok state)
    (state : σ) (members : List (String × Json)) :
    entriesInto entry state (memberTrees members) =
      entriesInto entry state (memberTrees (members.filter fun member => known member.1)) := by
  induction members generalizing state with
  | nil => rfl
  | cons member rest ih =>
    obtain ⟨name, value⟩ := member
    cases hname : known name with
    | false =>
      rw [entriesInto_cons, hskip state name value hname, List.filter_cons_of_neg (by simp [hname])]
      exact ih state
    | true =>
      rw [List.filter_cons_of_pos (by exact hname), entriesInto_cons, entriesInto_cons]
      exact congrArg _ (funext ih)

theorem variantOf_string (room : Nat) (choose : String → Except Mismatch κ)
    (build : κ → Option Tree → Except Mismatch α) (name : String) :
    variantOf room choose build (Json.string name).tree =
      (choose name).bind fun choice => build choice none := rfl

theorem variantOf_object (h : 0 < room) (choose : String → Except Mismatch κ)
    (build : κ → Option Tree → Except Mismatch α) (name : String) (value : Json) :
    variantOf room choose build (object [(name, value)]).tree =
      (choose name).bind fun choice => build choice (some value.tree) := by
  rw [tree, memberTrees, memberTrees, variantOf, if_neg (Nat.ne_of_gt h)]
  simp only [bind, Except.bind, nameOf]
  cases hchoice : choose name with
  | error mismatch => rfl
  | ok choice => cases hvalue : build choice (some value.tree) <;> simp [hvalue]

theorem single_array (h : 0 < room) (reader : Tree → Except Mismatch α) (value : Json) :
    single room title field reader (array [value]).tree = reader value.tree := by
  rw [tree, itemTrees, itemTrees, single, if_neg (Nat.ne_of_gt h)]
  cases hvalue : reader value.tree <;> simp [bind, Except.bind]

theorem single_object (h : 0 < room) (reader : Tree → Except Mismatch α)
    (hmembers : (members.filter fun member => member.1 == field) = [(field, value)]) :
    single room title field reader (object members).tree = reader value.tree := by
  have hskip (state : Option α) (name : String) (v : Json) (hname : (name == field) = false) :
      single.entry field reader state name v.tree = .ok state := by
    rw [single.entry, if_neg (by simpa using hname), skip_tree]
    rfl
  have hentries : entriesInto (single.entry field reader) none (memberTrees members) =
      (reader value.tree).map some := by
    rw [entriesInto_filter (· == field) hskip, hmembers, entriesInto_cons, single.entry, if_pos rfl]
    cases reader value.tree <;> rfl
  rw [tree, single, if_neg (Nat.ne_of_gt h), hentries]
  cases reader value.tree <;> rfl

end Tree
end RowDirectives.Json
