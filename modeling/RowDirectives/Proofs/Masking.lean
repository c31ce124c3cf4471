import RowDirectives.Proofs.Requests

/-! What masks do to a value, and to a text position by position. A mask decides by the length of the text and
by the position alone whether it puts its cover there, and it keeps the length; so the last mask that reaches a
position decides what stands there, and a mask applied before changes nothing about a later application of
the same mask. -/
namespace RowDirectives.Mask

/-- The text under the mask, the text itself where it is too short for the mask. -/
def applied (m : Mask) (text : String) : String := (m.masked? text).getD text

def rewrite (m : Mask) (column : String) : Json → Except Fault Json
  | .null => .ok .null
  | .string text => .ok (.string (m.applied text))
  | _ => .error (.valueNotText column)

theorem rewrite_of_textOrNull (m : Mask) (column : String) {value : Json} (h : value.TextOrNull) :
    ∃ value', m.rewrite column value = .ok value' ∧ value'.TextOrNull := by
  rcases h with rfl | ⟨text, rfl⟩
  · exact ⟨.null, rfl, .inl rfl⟩
  · exact ⟨.string (m.applied text), rfl, .inr ⟨_, rfl⟩⟩

theorem textOrNull_of_rewrite {m : Mask} {column : String} {value value' : Json}
    (h : m.rewrite column value = .ok value') : value.TextOrNull := by
  cases value with
  | null => exact .inl rfl
  | string text => exact .inr ⟨text, rfl⟩
  | _ => contradiction

/-- Whether the mask puts its cover at `index` in a text of `length` characters. -/
def hides (m : Mask) (length index : Nat) : Bool :=
  m.threshold < length && m.covers length index

theorem hides_iff {m : Mask} {length index : Nat} :
    m.hides length index = true ↔ m.threshold < length ∧ m.covers length index = true := by
  rw [hides, Bool.and_eq_true, decide_eq_true_iff]

theorem toList_applied (m : Mask) (text : String) :
    (m.applied text).toList =
      text.toList.mapIdx fun index c => if m.hides text.length index then m.cover else c := by
  unfold applied masked?
  by_cases h : text.length ≤ m.threshold
  · have hnot : ¬ m.threshold < text.length := by omega
    simp only [h, if_true, Option.getD_none, hides, hnot, decide_false, Bool.false_and,
      Bool.false_eq_true, if_false]
    apply List.ext_getElem
    · simp
    · intro index h1 h2
      simp
  · have hlt : m.threshold < text.length := by omega
    simp [hides, h, hlt, applyChars, String.length_toList]

@[simp] theorem length_applied (m : Mask) (text : String) : (m.applied text).length = text.length := by
  rw [← String.length_toList, toList_applied, List.length_mapIdx, String.length_toList]

theorem applied_applied_applied (m other : Mask) (text : String) :
    m.applied (other.applied (m.applied text)) = m.applied (other.applied text) := by
  apply String.toList_inj.mp
  simp only [toList_applied, length_applied, List.mapIdx_mapIdx]
  congr 1
  funext index c
  by_cases h : m.hides text.length index = true <;> simp [h]

theorem applied_applied (m : Mask) (text : String) : m.applied (m.applied text) = m.applied text := by
  apply String.toList_inj.mp
  simp only [toList_applied, length_applied, List.mapIdx_mapIdx]
  congr 1
  funext index c
  by_cases h : m.hides text.length index = true <;> simp [h]

end RowDirectives.Mask
