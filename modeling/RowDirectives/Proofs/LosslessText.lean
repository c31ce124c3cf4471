import RowDirectives.Proofs.Atomicity
import RowDirectives.Proofs.TreeReaders

/-! What is kept of a value that is made a text. The text of a value whose numbers are integers is read back as
the same value, so it is the text of no other such value, and a column that has been made text still says what
it held. Texts are already what they are made, and null is made nothing. -/
namespace RowDirectives.Json

/-- Every object keeps its members in ascending order of their names, each name once. -/
inductive Ordered : Json → Prop
  | null : Ordered .null
  | bool (b : Bool) : Ordered (.bool b)
  | int (i : Int) : Ordered (.int i)
  | double (x : Number.Binary64) : Ordered (.double x)
  | string (s : String) : Ordered (.string s)
  | array {items : List Json} : (∀ item ∈ items, Ordered item) → Ordered (.array items)
  | object {members : List (String × Json)} : Entries.Ascending members →
      (∀ member ∈ members, Ordered member.2) → Ordered (.object members)

/-- Every number is an integer that can be read as one. -/
inductive Integral : Json → Prop
  | null : Integral .null
  | bool (b : Bool) : Integral (.bool b)
  | int {i : Int} : leastInt ≤ i → i ≤ greatestInt → Integral (.int i)
  | string (s : String) : Integral (.string s)
  | array {items : List Json} : (∀ item ∈ items, Integral item) → Integral (.array items)
  | object {members : List (String × Json)} :
      (∀ member ∈ members, Integral member.2) → Integral (.object members)

section Reading

variable {v : Json} {room : Nat} {text : String}

theorem ofTree_list_eq_ok {items : List Tree} {closed : Bool} :
    ofTree (room + 1) (.list items closed) = .ok v ↔
      closed = true ∧ ∃ values, List.Forall₂ (fun item value => ofTree room item = .ok value) items values ∧
        v = array values := by
  rw [ofTree]
  simp only [← mapM_eq_ok]
  cases items.mapM (ofTree room) <;> cases closed <;> simp [bind, Except.bind, eq_comm]

/-- An entry as a member of the value that is read. -/
def memberOf (room : Nat) (entry : Option String × Tree) : Except Mismatch (String × Json) :=
  (Tree.nameOf entry.1).bind fun name => (ofTree room entry.2).bind fun value => .ok (name, value)

theorem memberOf_eq_ok {entry : Option String × Tree} {member : String × Json} :
    memberOf room entry = .ok member ↔ entry.1 = some member.1 ∧ ofTree room entry.2 = .ok member.2 := by
  obtain ⟨name?, tree⟩ := entry
  unfold memberOf
  cases name? <;> cases ofTree room tree <;> simp [Tree.nameOf, Except.bind, Prod.ext_iff]

theorem ofTree_record (room : Nat) (entries : List (Option String × Tree)) (closed : Bool) :
    ofTree (room + 1) (.record entries closed) = (entries.mapM (memberOf room)).bind fun members =>
      if closed then .ok (ofMembers members) else .error .malformed := rfl

theorem ofTree_record_eq_ok {entries : List (Option String × Tree)} {closed : Bool} :
    ofTree (room + 1) (.record entries closed) = .ok v ↔
      closed = true ∧ ∃ members, List.Forall₂ (fun entry member =>
        entry.1 = some member.1 ∧ ofTree room entry.2 = .ok member.2) entries members ∧
        v = ofMembers members := by
  rw [ofTree_record]
  simp only [← memberOf_eq_ok, ← mapM_eq_ok]
  cases entries.mapM (memberOf room) <;> cases closed <;> simp [Except.bind, eq_comm]

theorem Integral.ofTree_tree (h : v.Integral) (hordered : v.Ordered) (hroom : v.depth ≤ room) :
    ofTree room v.tree = .ok v := by
  induction h generalizing room with
  | null => rw [tree, ofTree]
  | bool b => rw [tree, ofTree]
  | int hleast hgreatest => rw [tree_int hleast hgreatest, ofTree]
  | string s => rw [tree, ofTree]
  | @array items h ih =>
    obtain ⟨room, rfl⟩ := Nat.exists_eq_add_of_le' (Nat.lt_of_lt_of_le (Nat.succ_pos _) hroom)
    rw [depth, Nat.add_le_add_iff_right, itemDepth_le] at hroom
    cases hordered with
    | array hordered =>
      rw [tree, ofTree_list_eq_ok, itemTrees_eq_map]
      refine ⟨rfl, items, ?_, rfl⟩
      rw [List.forall₂_map_left_iff, List.forall₂_same]
      exact fun item hitem => ih item hitem (hordered item hitem) (hroom item hitem)
  | @object members h ih =>
    obtain ⟨room, rfl⟩ := Nat.exists_eq_add_of_le' (Nat.lt_of_lt_of_le (Nat.succ_pos _) hroom)
    rw [depth, Nat.add_le_add_iff_right, memberDepth_le] at hroom
    cases hordered with
    | object hascending hordered =>
      rw [tree, ofTree_record_eq_ok, memberTrees_eq_map]
      refine ⟨rfl, members, ?_, by rw [ofMembers, hascending.ofList_eq]⟩
      rw [List.forall₂_map_left_iff, List.forall₂_same]
      exact fun member hmember => ⟨rfl, ih member hmember (hordered member hmember) (hroom member hmember)⟩

theorem forall_mem_of_forall₂ {α β : Type} {R : α → β → Prop} {p : β → Prop} {xs : List α} {ys : List β}
    (h : List.Forall₂ R xs ys) (hp : ∀ x y, R x y → p y) : ∀ y ∈ ys, p y := by
  induction h with
  | nil => simp
  | cons hxy _ ih => exact List.forall_mem_cons.mpr ⟨hp _ _ hxy, ih⟩

/-- Whatever is read keeps its members in order. -/
theorem ordered_of_ofTree {tree : Tree} (h : ofTree room tree = .ok v) : v.Ordered := by
  induction room generalizing tree v with
  | zero =>
    -- No bracket may be opened here, so what is read has no members.
    unfold ofTree at h
    split at h <;> first | contradiction | (cases h; constructor)
  | succ room ih =>
    cases tree with
    | null => cases h; exact .null
    | bool b => cases h; exact .bool b
    | number n => rcases n with _ | i | x <;> cases h <;> constructor
    | string s => cases s <;> cases h; exact .string _
    | list items closed =>
      obtain ⟨-, values, hvalues, rfl⟩ := ofTree_list_eq_ok.mp h
      exact .array (forall_mem_of_forall₂ hvalues fun _ _ hvalue => ih hvalue)
    | record entries closed =>
      obtain ⟨-, members, hmembers, rfl⟩ := ofTree_record_eq_ok.mp h
      have hordered := forall_mem_of_forall₂ hmembers fun _ _ hmember => ih hmember.2
      exact .object (Entries.ascending_ofList members) fun member hmember =>
        hordered member (Entries.mem_of_mem_ofList hmember)
    | broken => cases h

theorem ordered_of_read (h : read text = .ok v) : v.Ordered := by
  rw [read, Tree.decode] at h
  cases hvalue : ofTree depthLimit (parse (lex text.toList)).1 with
  | error mismatch => simp [hvalue, bind, Except.bind] at h
  | ok value =>
    simp only [hvalue, bind, Except.bind] at h
    split at h
    · exact Except.ok.inj h ▸ ordered_of_ofTree hvalue
    · contradiction

end Reading

/-- The values whose text says everything about them. -/
structure Restorable (v : Json) : Prop where
  ne_null : v ≠ .null
  ne_string (s : String) : v ≠ .string s
  ordered : v.Ordered
  integral : v.Integral
  depth_le : v.depth ≤ depthLimit

section Restoring

variable {v w : Json} {text : String} {row : Row} {column : String}

theorem Restorable.text?_eq (h : v.Restorable) : v.text? = some v.render := by
  cases v with
  | null => exact absurd rfl h.ne_null
  | string s => exact absurd rfl (h.ne_string s)
  | _ => rfl

theorem Restorable.read_render (h : v.Restorable) : read v.render = .ok v := by
  rw [read, (writes_render v).decode_eq]
  exact h.integral.ofTree_tree h.ordered h.depth_le

theorem Restorable.eq_of_text? (hv : v.Restorable) (hw : w.Restorable) (h : v.text? = w.text?) : v = w := by
  rw [hv.text?_eq, hw.text?_eq, Option.some.injEq] at h
  have hread := hv.read_render
  rw [h, hw.read_render, Except.ok.injEq] at hread
  exact hread.symm

theorem run_toText_of_text? (hvalue : row.columns.get? column = some v) (htext : v.text? = some text) :
    (Stage.toText column).rowStep.run row = (.ok (), row.setColumn column (.string text)) := by
  apply Step.run_of_exec_ok
  change (Stage.toText column).onRow row = _
  rw [Stage.onRow_toText, Row.rewrite_of_value hvalue, asText, htext]
  rfl

end Restoring

/-- The text of a value is read back as the value, so no other value has that text, and a column that is made
text can be made what it was. This is so for every value that is neither null nor a text, whose numbers are
integers of 64 bits and which is not nested too deep to be read. That members are in order is no restriction:
every value that is read has them so. -/
theorem text_loses_nothing :
    (∀ v : Json, v.Restorable → ∃ text, v.text? = some text ∧ read text = .ok v) ∧
    (∀ v w : Json, v.Restorable → w.Restorable → v.text? = w.text? → v = w) ∧
    (∀ (row : Row) (column : String) (v : Json), row.columns.get? column = some v → v.Restorable →
      ∃ text row', (Stage.toText column).rowStep.run row = (.ok (), row') ∧
        row'.columns.get? column = some (.string text) ∧ read text = .ok v) ∧
    (∀ s : String, (string s).text? = some s) ∧
    text? null = none ∧
    ∀ (text : String) (v : Json), read text = .ok v → v.Ordered := by
  refine ⟨fun v h => ⟨v.render, h.text?_eq, h.read_render⟩, fun v w hv hw h => hv.eq_of_text? hw h, ?_,
    fun s => rfl, rfl, fun text v h => ordered_of_read h⟩
  intro row column v hvalue h
  refine ⟨v.render, _, run_toText_of_text? hvalue h.text?_eq, ?_, h.read_render⟩
  rw [Row.get?_setColumn, if_pos rfl]

theorem text_loses_nothing_at_the_bounds :
    (array [int (-9223372036854775808), object [("\"", null), ("é", int 18446744073709551615)]]).text? =
      some "[-9223372036854775808,\x7b\"\\\"\":null,\"é\":18446744073709551615\x7d]" ∧
    read "[-9223372036854775808,\x7b\"\\\"\":null,\"é\":18446744073709551615\x7d]" =
      .ok (array [int (-9223372036854775808), object [("\"", null), ("é", int 18446744073709551615)]]) := by
  have hordered : (object [("\"", null), ("é", int 18446744073709551615)]).Ordered := by
    refine .object ?_ ?_
    · unfold Entries.Ascending
      decide
    · exact List.forall_mem_cons.mpr ⟨.null, List.forall_mem_singleton.mpr (.int _)⟩
  have hintegral : (object [("\"", null), ("é", int 18446744073709551615)]).Integral :=
    .object (List.forall_mem_cons.mpr ⟨.null, List.forall_mem_singleton.mpr (.int (by decide) (by decide))⟩)
  have hrestorable : Restorable
      (array [int (-9223372036854775808), object [("\"", null), ("é", int 18446744073709551615)]]) := by
    refine ⟨nofun, nofun, .array ?_, .array ?_, by decide⟩
    · exact List.forall_mem_cons.mpr ⟨.int _, List.forall_mem_singleton.mpr hordered⟩
    · exact List.forall_mem_cons.mpr
        ⟨.int (by decide) (by decide), List.forall_mem_singleton.mpr hintegral⟩
  obtain ⟨text, htext, hread⟩ := text_loses_nothing.1 _ hrestorable
  cases htext
  exact ⟨rfl, hread⟩

end RowDirectives.Json
