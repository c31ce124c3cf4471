import Mathlib.Data.List.Permutation
import RowDirectives.Proofs.TreeReaders
import RowDirectives.Stored

/-! What is stored of a type, a field, a schema or a fault is read back. A field and a schema may be stored in
more than one form: the inductive `Form` of each says which values stand for it. Reading such a value depends
on what it stands for and on nothing else, and it fails only where the brackets of a type are more than a
reader opens. -/
namespace RowDirectives

open Json

namespace FieldType

variable {room : Nat}

theorem ofTree_bare {name : String} {plain : FieldType}
    (h : Tree.chooseFrom alternatives name = .ok (some plain)) (room : Nat) :
    ofTree room (Json.string name).tree = .ok plain := by
  rcases room with _ | _ | room <;> rw [ofTree, Tree.variantOf_string, h] <;> first | rfl | simp

theorem ofTree_union (members : List Json) (room : Nat) :
    ofTree (room + 2) (object [("union", .array members)]).tree =
      ((itemTrees members).mapM (ofTree room)).map union := by
  rw [ofTree, Tree.variantOf_object (Nat.succ_pos _)]
  exact congrArg (Except.map union) (Tree.listOf_tree (Nat.succ_pos _) _ _)

theorem ofTree_union_of_lt (h : room < 2) (members : List Json) :
    ofTree room (object [("union", .array members)]).tree = .error .malformed := by
  rcases room with _ | _ | room
  · rfl
  · rfl
  · omega

theorem ofTree_plain_eq_ok {name : String} {plain found : FieldType} (hjson : plain.toJson = .string name)
    (h : Tree.chooseFrom alternatives name = .ok (some plain)) :
    ofTree room plain.toJson.tree = .ok found ↔ found = plain ∧ plain.toJson.depth ≤ room := by
  rw [hjson, ofTree_bare h, Except.ok.injEq, eq_comm]
  exact (and_iff_left (Nat.zero_le room)).symm

theorem toJsonAll_eq_map (members : List FieldType) : toJsonAll members = members.map toJson := by
  induction members with
  | nil => rfl
  | cons member rest ih => rw [toJsonAll, ih, List.map_cons]

theorem depth_toJson_union {members : List FieldType} :
    (union members).toJson.depth ≤ room + 2 ↔ ∀ member ∈ members, member.toJson.depth ≤ room := by
  simp [toJson, toJsonAll_eq_map, Json.depth, Json.memberDepth, itemDepth_le]

mutual

theorem ofTree_toJson_eq_ok : ∀ (t : FieldType) {room : Nat} {found : FieldType},
    ofTree room t.toJson.tree = .ok found ↔ found = t ∧ t.toJson.depth ≤ room
  | null, _, _ => ofTree_plain_eq_ok rfl rfl
  | boolean, _, _ => ofTree_plain_eq_ok rfl rfl
  | int, _, _ => ofTree_plain_eq_ok rfl rfl
  | long, _, _ => ofTree_plain_eq_ok rfl rfl
  | float, _, _ => ofTree_plain_eq_ok rfl rfl
  | double, _, _ => ofTree_plain_eq_ok rfl rfl
  | bytes, _, _ => ofTree_plain_eq_ok rfl rfl
  | string, _, _ => ofTree_plain_eq_ok rfl rfl
  | union members, room, found => by
    by_cases hroom : room < 2
    case pos =>
      have hdeep : 2 ≤ (union members).toJson.depth := by simp [toJson, Json.depth, Json.memberDepth]
      rw [toJson, ofTree_union_of_lt hroom, ← toJson]
      simp
      omega
    case neg =>
      obtain ⟨room, rfl⟩ := Nat.exists_eq_add_of_le' (Nat.not_lt.mp hroom)
      rw [depth_toJson_union, toJson, ofTree_union]
      exact map_eq_ok_iff fun _ => mapM_eq_ok_iff_forall (ofTree_toJsonAll_eq_ok members room)

theorem ofTree_toJsonAll_eq_ok : ∀ (members : List FieldType) (room : Nat),
    List.Forall₂ (fun tree t => ∀ found, ofTree room tree = .ok found ↔ found = t ∧ t.toJson.depth ≤ room)
      (itemTrees (toJsonAll members)) members
  | [], _ => .nil
  | member :: rest, room =>
    .cons (fun _ => ofTree_toJson_eq_ok member) (ofTree_toJsonAll_eq_ok rest room)

end

end FieldType

namespace Field

/-- The values that stand for a field: a record of its name and its type, in either order and among members
of other names, or a list of the two. -/
inductive Form (field : Field) : Json → Prop
  | record {members : List (String × Json)} :
      (members.filter fun member => ["name", "type"].contains member.1).Perm
        [("name", .string field.name), ("type", field.type.toJson)] →
      Form field (.object members)
  | list : Form field (.array [.string field.name, field.type.toJson])

variable {field found : Field} {form : Json} {room : Nat}

theorem form_toJson (field : Field) : field.Form field.toJson := .record (.refl _)

theorem entry_skip (room : Nat) (parts : Parts) (name : String) (value : Json)
    (h : ["name", "type"].contains name = false) : entry room parts name value.tree = .ok parts := by
  obtain ⟨hname, htype⟩ : name ≠ "name" ∧ name ≠ "type" := by simpa using h
  rw [entry, if_neg hname, if_neg htype, Tree.skip_tree]
  rfl

theorem entry_name {parts : Parts} (h : parts.name? = none) (room : Nat) (name : String) :
    entry room parts "name" (Json.string name).tree = .ok { parts with name? := some name } := by
  simp [entry, h, tree, Tree.text, Except.map]

theorem entry_type {parts : Parts} (h : parts.type? = none) (room : Nat) (value : Json) :
    entry room parts "type" value.tree =
      (FieldType.ofTree room value.tree).map fun type => { parts with type? := some type } := by
  simp [entry, h]

theorem entriesInto_entry {members : List (String × Json)}
    (h : (members.filter fun member => ["name", "type"].contains member.1).Perm
      [("name", .string field.name), ("type", field.type.toJson)]) (room : Nat) :
    Tree.entriesInto (entry room) ⟨none, none⟩ (memberTrees members) =
      (FieldType.ofTree room field.type.toJson.tree).map fun type => ⟨some field.name, some type⟩ := by
  rw [Tree.entriesInto_filter _ (entry_skip room)]
  rcases List.perm_pair.mp h with hmembers | hmembers
  · rw [hmembers, Tree.entriesInto_cons, entry_name rfl, Except.bind, Tree.entriesInto_cons, entry_type rfl]
    cases FieldType.ofTree room field.type.toJson.tree <;> rfl
  · rw [hmembers, Tree.entriesInto_cons, entry_type rfl]
    cases FieldType.ofTree room field.type.toJson.tree with
    | error mismatch => rfl
    | ok type =>
      rw [Except.map, Except.bind, Tree.entriesInto_cons, entry_name rfl]
      rfl

/-- What is read of a field depends on its type alone, whatever its form. -/
theorem ofTree_form (h : field.Form form) (room : Nat) :
    ofTree (room + 1) form.tree =
      (FieldType.ofTree room field.type.toJson.tree).map fun type => ⟨field.name, type⟩ := by
  cases h with
  | record h =>
    rw [tree, ofTree, entriesInto_entry h]
    cases FieldType.ofTree room field.type.toJson.tree <;> rfl
  | list =>
    rw [tree, itemTrees, itemTrees, itemTrees, ofTree]
    cases FieldType.ofTree room field.type.toJson.tree <;>
      simp [tree, Tree.text, bind, Except.bind, Except.map]

theorem depth_toJson (field : Field) : field.toJson.depth = field.type.toJson.depth + 1 := by
  simp [toJson, Json.depth, Json.memberDepth]

theorem ofTree_form_eq_ok (h : field.Form form) :
    ofTree room form.tree = .ok found ↔ found = field ∧ field.toJson.depth ≤ room := by
  rw [depth_toJson]
  cases room with
  | zero =>
    have hnone : ofTree 0 form.tree = .error .malformed := by cases h <;> rfl
    simp [hnone]
  | succ room =>
    rw [ofTree_form h, Nat.add_le_add_iff_right]
    exact map_eq_ok_iff fun _ => field.type.ofTree_toJson_eq_ok

end Field

namespace Schema

/-- The values that stand for a schema: a record of its fields among members of other names, or a list of its
fields alone. The fields are a list in which each one has any of its forms. -/
inductive Form (schema : Schema) : Json → Prop
  | record {members : List (String × Json)} {items : List Json} :
      List.Forall₂ Field.Form schema.fields items →
      (members.filter fun member => member.1 == "fields") = [("fields", .array items)] →
      Form schema (.object members)
  | list {items : List Json} : List.Forall₂ Field.Form schema.fields items →
      Form schema (.array [.array items])

variable {schema found : Schema} {form : Json} {room : Nat}

theorem form_toJson (schema : Schema) : schema.Form schema.toJson := by
  refine .record ?_ rfl
  rw [List.forall₂_map_right_iff, List.forall₂_same]
  exact fun field _ => field.form_toJson

theorem ofTree_form (h : schema.Form form) : ∃ items, List.Forall₂ Field.Form schema.fields items ∧
    ∀ room, ofTree (room + 3) form.tree =
      ((itemTrees items).mapM (Field.ofTree (room + 1))).map Schema.mk := by
  cases h with
  | @record members items hitems hmembers =>
    refine ⟨items, hitems, fun room => ?_⟩
    rw [ofTree, Tree.single_object (Nat.succ_pos _) _ hmembers, fieldsOfTree, Tree.listOf_tree (by omega)]
    rfl
  | @list items hitems =>
    refine ⟨items, hitems, fun room => ?_⟩
    rw [ofTree, Tree.single_array (Nat.succ_pos _), fieldsOfTree, Tree.listOf_tree (by omega)]
    rfl

theorem mapM_form_eq_ok {fields read : List Field} {items : List Json}
    (h : List.Forall₂ Field.Form fields items) :
    (itemTrees items).mapM (Field.ofTree room) = .ok read ↔
      read = fields ∧ ∀ field ∈ fields, field.toJson.depth ≤ room := by
  apply mapM_eq_ok_iff_forall
  rw [itemTrees_eq_map, List.forall₂_map_left_iff]
  exact h.flip.imp fun item field hfield _ => Field.ofTree_form_eq_ok hfield

theorem depth_toJson_le {schema : Schema} :
    schema.toJson.depth ≤ room + 2 ↔ ∀ field ∈ schema.fields, field.toJson.depth ≤ room := by
  simp [toJson, Json.depth, Json.memberDepth, itemDepth_le]

/-- Reading a form of a schema gives the schema itself, unless its types nest too deep to be read. -/
theorem ofTree_form_eq_ok (h : schema.Form form) :
    ofTree (room + 3) form.tree = .ok found ↔ found = schema ∧ schema.toJson.depth ≤ room + 3 := by
  obtain ⟨items, hitems, hread⟩ := ofTree_form h
  rw [hread, depth_toJson_le]
  exact map_eq_ok_iff fun _ => mapM_form_eq_ok hitems

end Schema

namespace Fault

variable {kind : String} {build : String → Fault}

theorem ofTree_withText {title field : String}
    (h : Tree.chooseFrom alternatives kind = .ok (.named title field, build)) (text : String) (room : Nat) :
    ofTree (room + 2) (withText kind field text).tree = .ok (build text) := by
  have hmembers : ([(field, Json.string text)].filter fun member => member.1 == field) =
      [(field, .string text)] := by simp
  rw [withText, ofTree, Tree.variantOf_object (Nat.succ_pos _), h]
  simp only [Except.bind, textOf]
  rw [Tree.single_object (by omega) _ hmembers]
  rfl

theorem ofTree_bare (h : Tree.chooseFrom alternatives kind = .ok (.bare, build)) (text : String) (room : Nat) :
    ofTree (room + 2) (object [(kind, .string text)]).tree = .ok (build text) := by
  rw [ofTree, Tree.variantOf_object (Nat.succ_pos _), h]
  rfl

theorem ofTree_toJson (fault : Fault) (room : Nat) : ofTree (room + 2) fault.toJson.tree = .ok fault := by
  cases fault with
  | invalidDirective message => exact ofTree_withText rfl message room
  | typeMismatch message => exact ofTree_withText rfl message room
  | notFound name => exact ofTree_withText rfl name room
  | config message => exact ofTree_withText rfl message room
  | io text => exact ofTree_bare rfl text room
  | serialization text => exact ofTree_bare rfl text room

end Fault

/-- What is stored is read back, from any of the forms in which it may be stored and with any spaces in the
text. Nothing else is ever read there. Types may be nested too deep to be read, and that is the only way in
which something stored is lost; a fault is never lost. -/
theorem stored_forms_read_back :
    (∀ v : Json, v.Writes v.render) ∧
    (∀ (t : FieldType) (text : String), t.toJson.Writes text →
      ∀ found, FieldType.read text = .ok found ↔ found = t ∧ t.toJson.depth ≤ depthLimit) ∧
    (∀ (field : Field), field.Form field.toJson ∧ ∀ form text, field.Form form → form.Writes text →
      ∀ found, Field.read text = .ok found ↔ found = field ∧ field.toJson.depth ≤ depthLimit) ∧
    (∀ (schema : Schema), schema.Form schema.toJson ∧ ∀ form text, schema.Form form → form.Writes text →
      ∀ found, Schema.read text = .ok found ↔ found = schema ∧ schema.toJson.depth ≤ depthLimit) ∧
    ∀ (fault : Fault) (text : String), fault.toJson.Writes text → Fault.read text = .ok fault := by
  refine ⟨writes_render, fun t text h found => ?_, fun field => ⟨field.form_toJson, ?_⟩,
    fun schema => ⟨schema.form_toJson, ?_⟩, fun fault text h => ?_⟩
  · rw [FieldType.read, h.decode_eq]
    exact t.ofTree_toJson_eq_ok
  · intro form text hform h found
    rw [Field.read, h.decode_eq]
    exact Field.ofTree_form_eq_ok hform
  · intro form text hform h found
    rw [Schema.read, h.decode_eq]
    exact Schema.ofTree_form_eq_ok hform
  · rw [Fault.read, h.decode_eq]
    exact fault.ofTree_toJson _

theorem stored_forms_read_back_from_odd_forms :
    Schema.read (object [("x", .array [.null]), ("fields", .array
        [.object [("type", .object [("union", .array [.string "null", .object [("union", .array [])]])]),
          ("Name", .int 1), ("name", .string "\"\n")],
        .array [.string "\"\n", .string "long"]])]).render =
      .ok ⟨[⟨"\"\n", .union [.null, .union []]⟩, ⟨"\"\n", .long⟩]⟩ ∧
    FieldType.read " \"null\"\n" = .ok .null ∧
    Fault.read (Fault.toJson (.notFound "\u0001é")).render = .ok (.notFound "\u0001é") := by
  obtain ⟨hrender, htype, -, hschema, hfault⟩ := stored_forms_read_back
  refine ⟨?_, ?_, hfault _ _ (hrender _)⟩
  · have hfirst : Field.Form ⟨"\"\n", .union [.null, .union []]⟩ (.object
        [("type", .object [("union", .array [.string "null", .object [("union", .array [])]])]),
          ("Name", .int 1), ("name", .string "\"\n")]) := .record (.swap _ _ _)
    have hfields := List.Forall₂.cons hfirst (.cons (.list : Field.Form ⟨"\"\n", .long⟩ _) .nil)
    refine ((hschema ⟨_⟩).2 _ _ (.record hfields ?_) (hrender _) _).mpr ⟨rfl, by decide⟩
    rfl
  · have hspaces : Spaces [' '] ∧ Spaces ['\n'] := by simp [Spaces, isSpace]
    have hnull : FieldType.null.toJson.Writes " \"null\"\n" := .lexeme hspaces.1 (.trail hspaces.2)
    exact (htype .null _ hnull _).mpr ⟨rfl, by decide⟩

end RowDirectives
