import RowDirectives.Proofs.Masking
import RowDirectives.Proofs.TwoRuns

/-! Masked characters do not leak. The text under a mask is a function of its length and of the characters
that the mask keeps, so two rows that differ only in characters that are masked are one row after the mask.
Before it they cannot be told apart, since stages that do not name the column pass every change of it. -/
namespace RowDirectives

namespace Mask

/-- The positions of a text of the given length whose characters stay readable. -/
def Keeps (m : Mask) (length index : Nat) : Prop :=
  match m with
  | range start stop => index < start ∨ min stop length ≤ index
  | substitution .left _ count => length ≤ count ∨ index < count
  | substitution .right _ count => length ≤ count ∨ length - count ≤ index

instance (m : Mask) (length index : Nat) : Decidable (m.Keeps length index) :=
  match m with
  | range _ _ => inferInstanceAs (Decidable (_ ∨ _))
  | substitution .left _ _ => inferInstanceAs (Decidable (_ ∨ _))
  | substitution .right _ _ => inferInstanceAs (Decidable (_ ∨ _))

theorem keeps_iff {m : Mask} {length index : Nat} :
    m.Keeps length index ↔ ¬ m.hides length index = true := by
  rw [hides_iff]
  cases m with
  | range start stop =>
    simp only [Keeps, covers, threshold, Bool.and_eq_true, decide_eq_true_iff]
    omega
  | substitution side cover count =>
    cases side with
    | left =>
      simp only [Keeps, covers, threshold, decide_eq_true_iff]
      omega
    | right =>
      simp only [Keeps, covers, threshold, decide_eq_true_iff]
      omega

/-- The text under a mask depends on the length and on the kept characters alone. -/
theorem applied_eq_of_kept (m : Mask) {text text' : String} (hlength : text.length = text'.length)
    (hkept : ∀ index < text.length, m.Keeps text.length index →
      text.toList[index]? = text'.toList[index]?) : m.applied text = m.applied text' := by
  apply String.toList_inj.mp
  rw [toList_applied, toList_applied, ← hlength]
  apply List.ext_getElem?
  intro index
  rw [List.getElem?_mapIdx, List.getElem?_mapIdx]
  by_cases hindex : index < text.length
  · by_cases hhides : m.hides text.length index = true
    · have h : index < text.toList.length := by rwa [String.length_toList]
      have h' : index < text'.toList.length := by rwa [String.length_toList, ← hlength]
      simp [hhides, List.getElem?_eq_getElem h, List.getElem?_eq_getElem h']
    · rw [hkept index hindex (keeps_iff.mpr hhides)]
  · have h : text.toList.length ≤ index := by rw [String.length_toList]; omega
    have h' : text'.toList.length ≤ index := by rw [String.length_toList]; omega
    rw [List.getElem?_eq_none h, List.getElem?_eq_none h']

end Mask

namespace Row

/-- Rows that differ in one column only are one row with two values in it. -/
theorem eq_setColumn {row other : Row} {column : String} {value : Json}
    (elsewhere : ∀ name, name ≠ column → row.columns.get? name = other.columns.get? name)
    (h : other.columns.get? column = some value) : other = row.setColumn column value := by
  apply ext_get?
  intro name
  rw [get?_setColumn]
  by_cases hname : name = column
  · rw [if_pos hname, hname, h]
  · rw [if_neg hname, elsewhere name hname]

theorem setColumn_setColumn (row : Row) (column : String) (value next : Json) :
    (row.setColumn column value).setColumn column next = row.setColumn column next := by
  apply ext_get?
  intro name
  simp only [get?_setColumn]
  by_cases hname : name = column <;> simp [hname]

end Row

namespace Pipeline

variable {before : List Stage} {row : Row} {column : String}

/-- A pipeline that does not name a column answers and reports the same whatever is in it. -/
theorem transformRow_setColumn {p : Pipeline} (away : ∀ stage ∈ p.stages, column ∉ stage.names)
    (row : Row) (value : Json) :
    (p.transformRow row).Matches (fun row' moved => moved = row'.setColumn column value)
      (p.transformRow (row.setColumn column value)) := by
  refine steps_matches _ Stage.atomic_rowStep ?_ rfl
  rintro stage mem row' _ rfl
  have hstage := Stage.onRow_setColumn (away stage mem) row' value
  change Alike _ (stage.onRow row') (stage.onRow (row'.setColumn column value))
  rw [hstage]
  cases stage.onRow row' with
  | error fault => exact .error fault
  | ok next => exact .ok rfl

theorem get?_transformRow {p : Pipeline} (away : ∀ stage ∈ p.stages, column ∉ stage.names)
    {value : Json} (h : row.columns.get? column = some value) :
    (p.transformRow row).state.columns.get? column = some value := by
  have stays := (transformRow_setColumn away row value).state
  rw [Row.setColumn_eq_self h] at stays
  rw [stays, Row.get?_setColumn, if_pos rfl]

theorem transformRow_append_of_fault (after : List Stage)
    (h : ((⟨before⟩ : Pipeline).transformRow row).result ≠ .ok ()) :
    (⟨before ++ after⟩ : Pipeline).transformRow row = (⟨before⟩ : Pipeline).transformRow row := by
  rcases through_ok_or_fault Stage.rowStep before row with
    ⟨row', run⟩ | ⟨first, stage, rest, row', fault, split, earlier, fails⟩
  · have finished : (⟨before⟩ : Pipeline).transformRow row = _ := transformRow_of_ok run
    rw [finished] at h
    exact absurd rfl h
  · have split' : before ++ after = first ++ stage :: (rest ++ after) := by
      rw [split, List.append_assoc, List.cons_append]
    have fault : (⟨before⟩ : Pipeline).transformRow row = _ :=
      transformRow_of_fault split earlier fails
    rw [fault]
    exact transformRow_of_fault split' earlier fails

/-- The stages from a mask on do not tell two texts apart that are one text under the mask. -/
theorem transformRow_mask_cons (after : List Stage) (m : Mask) (row : Row) {text text' : String}
    (h : m.applied text = m.applied text') :
    (⟨.mask column m :: after⟩ : Pipeline).transformRow (row.setColumn column (.string text)) =
      (⟨.mask column m :: after⟩ : Pipeline).transformRow (row.setColumn column (.string text')) := by
  have masked (text : String) : (Stage.mask column m).onRow (row.setColumn column (.string text)) =
      .ok (row.setColumn column (.string (m.applied text))) := by
    have hget : (row.setColumn column (.string text)).columns.get? column = some (.string text) := by
      rw [Row.get?_setColumn, if_pos rfl]
    rw [Stage.onRow_mask, Row.rewrite_of_value hget]
    exact congrArg Except.ok (row.setColumn_setColumn column _ _)
  have hmasked := masked text
  rw [h] at hmasked
  simp only [transformRow]
  rw [steps, steps, Step.run_of_exec_ok hmasked, Step.run_of_exec_ok (masked text')]

theorem transformRow_append_mask (after : List Stage) (m : Mask)
    (away : ∀ stage ∈ before, column ∉ stage.names) {text text' : String}
    (hrow : row.columns.get? column = some (.string text))
    (h : m.applied text = m.applied text')
    (ok : ((⟨before⟩ : Pipeline).transformRow row).result = .ok ()) :
    (⟨before ++ .mask column m :: after⟩ : Pipeline).transformRow row =
      (⟨before ++ .mask column m :: after⟩ : Pipeline).transformRow
        (row.setColumn column (.string text')) := by
  obtain ⟨mid, run⟩ := exists_of_transformRow_ok ok
  have stays := through_setColumn away row (.string text)
  have moves := through_setColumn away row (.string text')
  rw [run] at stays moves
  rw [Row.setColumn_eq_self hrow] at stays
  simp only [transformRow]
  rw [steps_append _ stays, steps_append _ moves]
  exact transformRow_mask_cons after m mid h

/-- Two rows that differ in one column only, where both hold texts of one length that agree wherever a
mask on the column keeps them: a pipeline that does not name the column before the mask answers and reports
the same for both, and leaves the same row of both if it gets as far as the mask. -/
theorem transformRow_conceals (before after : List Stage) (column : String) (m : Mask)
    (away : ∀ stage ∈ before, column ∉ stage.names) (row other : Row) (text text' : String)
    (elsewhere : ∀ name, name ≠ column → row.columns.get? name = other.columns.get? name)
    (hrow : row.columns.get? column = some (.string text))
    (hother : other.columns.get? column = some (.string text'))
    (hlength : text.length = text'.length)
    (hkept : ∀ index < text.length, m.Keeps text.length index →
      text.toList[index]? = text'.toList[index]?) :
    let p : Pipeline := ⟨before ++ [.mask column m] ++ after⟩
    (p.transformRow row).result = (p.transformRow other).result ∧
    (p.transformRow row).log = (p.transformRow other).log ∧
    (((⟨before⟩ : Pipeline).transformRow row).result = .ok () →
      (p.transformRow row).state = (p.transformRow other).state) ∧
    (((⟨before⟩ : Pipeline).transformRow row).result ≠ .ok () →
      (∀ name, name ≠ column → (p.transformRow row).state.columns.get? name =
        (p.transformRow other).state.columns.get? name) ∧
      (p.transformRow row).state.columns.get? column = some (.string text) ∧
      (p.transformRow other).state.columns.get? column = some (.string text')) := by
  intro p
  have hp : p = ⟨before ++ .mask column m :: after⟩ :=
    congrArg Pipeline.mk (List.append_cons before (.mask column m) after).symm
  have differs := Row.eq_setColumn elsewhere hother
  rw [hp]
  by_cases ok : ((⟨before⟩ : Pipeline).transformRow row).result = .ok ()
  · have masked := m.applied_eq_of_kept hlength hkept
    have outcomes := transformRow_append_mask after m away hrow masked ok
    rw [differs, ← outcomes]
    exact ⟨rfl, rfl, fun _ => rfl, fun fails => absurd ok fails⟩
  · have frame := transformRow_setColumn (p := ⟨before⟩) away row (.string text')
    rw [← differs] at frame
    have ok' : ((⟨before⟩ : Pipeline).transformRow other).result ≠ .ok () := frame.result ▸ ok
    rw [transformRow_append_of_fault _ ok, transformRow_append_of_fault _ ok']
    refine ⟨frame.result, frame.log, fun hok => absurd hok ok, fun _ => ⟨?_, ?_, ?_⟩⟩
    · intro name hname
      rw [frame.state, Row.get?_setColumn, if_neg hname]
    · exact get?_transformRow (p := ⟨before⟩) away hrow
    · exact get?_transformRow (p := ⟨before⟩) away hother

theorem transformRow_conceals_leading_characters :
    let before : List Stage := [.rename "name" "holder", .toText "holder"]
    let mask : Mask := .substitution .right '*' 4
    let after : List Stage := [.rename "card" "pan", .mask "pan" (.range 0 1)]
    let p : Pipeline := ⟨before ++ [.mask "card" mask] ++ after⟩
    let base : Row := ⟨Dict.ofList [("name", .string "Ann"), ("pin", .int 4821)]⟩
    let row := base.setColumn "card" (.string "4é11-2222")
    let other := base.setColumn "card" (.string "9—00-2222")
    (∀ stage ∈ before, "card" ∉ stage.names) ∧ row.columns.get? "card" ≠ other.columns.get? "card" ∧
      (p.transformRow row).result = .ok () ∧
      (p.transformRow row).state = (p.transformRow other).state ∧
      (p.transformRow row).log = (p.transformRow other).log := by
  intro before mask after p base row other
  have away : ∀ stage ∈ before, "card" ∉ stage.names := by decide
  have elsewhere : ∀ name, name ≠ "card" → row.columns.get? name = other.columns.get? name := by
    intro name hname
    rw [Row.get?_setColumn, Row.get?_setColumn, if_neg hname, if_neg hname]
  have kept : ∀ index < ("4é11-2222" : String).length,
      mask.Keeps ("4é11-2222" : String).length index →
      ("4é11-2222" : String).toList[index]? = ("9—00-2222" : String).toList[index]? := by
    decide +kernel
  have different : row.columns.get? "card" ≠ other.columns.get? "card" := by
    rw [Row.get?_setColumn, Row.get?_setColumn, if_pos rfl, if_pos rfl]
    simp
  obtain ⟨-, log, state, -⟩ := transformRow_conceals before after "card" mask away row other
    "4é11-2222" "9—00-2222" elsewhere (by simp [row]) (by simp [other]) (by decide) kept
  have reached : ((⟨before⟩ : Pipeline).transformRow row).result = .ok () := by rfl
  have ok : (p.transformRow row).result = .ok () := by decide +kernel
  exact ⟨away, different, ok, state reached, log⟩

end Pipeline
end RowDirectives
