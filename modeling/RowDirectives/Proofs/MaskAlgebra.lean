import RowDirectives.Proofs.Positions

/-! Masks as operations on texts. The positions that a mask hides depend on the length of the text alone,
and no mask changes the length; so two masks in a row hide the positions that either of them hides, and where
both do the second decides what is seen. Masks with one cover commute, and they are one mask whenever some
mask hides what the two hide together. Masks that hide the same positions are the same, which relates the two
revisions and, on the text read backwards, the two sides. -/
namespace RowDirectives

/-- The text read backwards, character by character. -/
def Text.reversed (text : String) : String := String.ofList text.toList.reverse

theorem Text.toList_reversed (text : String) : (reversed text).toList = text.toList.reverse :=
  String.toList_ofList

@[simp] theorem Text.length_reversed (text : String) : (reversed text).length = text.length := by
  rw [← String.length_toList, toList_reversed, List.length_reverse, String.length_toList]

namespace Mask

variable {m other : Mask} {text : String} {length index start stop count : Nat} {cover : Char}

section Hidden

theorem hides_range (h : index < length) :
    (range start stop).hides length index = true ↔ start ≤ index ∧ index < stop := by
  rw [hides_iff]
  simp only [threshold, covers, Bool.and_eq_true, decide_eq_true_iff]
  omega

theorem hides_left (h : index < length) :
    (substitution .left cover count).hides length index = true ↔ count ≤ index := by
  rw [hides_iff]
  simp only [threshold, covers, decide_eq_true_iff]
  omega

theorem hides_right :
    (substitution .right cover count).hides length index = true ↔ index + count < length := by
  rw [hides_iff]
  simp only [threshold, covers, decide_eq_true_iff]
  omega

end Hidden

section Sequences

/-- Where both masks hide a character the second one decides. -/
theorem toList_applied_applied (m other : Mask) (text : String) :
    (m.applied (other.applied text)).toList = text.toList.mapIdx fun index c =>
      if m.hides text.length index then m.cover
      else if other.hides text.length index then other.cover else c := by
  rw [toList_applied, toList_applied, length_applied, List.mapIdx_mapIdx]
  rfl

/-- Two masks in a row are the mask that hides what either of them hides. -/
theorem applied_applied_eq {whole : Mask} (hm : m.cover = whole.cover)
    (hother : other.cover = whole.cover)
    (unites : ∀ index < text.length, whole.hides text.length index = true ↔
      m.hides text.length index = true ∨ other.hides text.length index = true) :
    m.applied (other.applied text) = whole.applied text := by
  apply String.toList_inj.mp
  rw [toList_applied_applied, toList_applied]
  apply List.mapIdx_eq_mapIdx_iff.mpr
  intro index hindex
  rw [String.length_toList] at hindex
  rw [hm, hother]
  by_cases hfirst : m.hides text.length index = true
  · rw [if_pos hfirst, if_pos ((unites index hindex).mpr (.inl hfirst))]
  · by_cases hsecond : other.hides text.length index = true
    · rw [if_neg hfirst, if_pos hsecond, if_pos ((unites index hindex).mpr (.inr hsecond))]
    · have hnone : ¬ whole.hides text.length index = true := fun h =>
        ((unites index hindex).mp h).elim hfirst hsecond
      rw [if_neg hfirst, if_neg hsecond, if_neg hnone]

theorem applied_comm (h : m.cover = other.cover) (text : String) :
    m.applied (other.applied text) = other.applied (m.applied text) := by
  apply String.toList_inj.mp
  rw [toList_applied_applied, toList_applied_applied, h]
  apply List.mapIdx_eq_mapIdx_iff.mpr
  intro index _
  by_cases hm : m.hides text.length index = true <;> simp [hm]

/-- Ranges that touch or overlap are one range. -/
theorem applied_range_range {start' stop' : Nat} (hstart : start' ≤ stop) (hstop : start ≤ stop')
    (text : String) :
    (range start' stop').applied ((range start stop).applied text) =
      (range (min start start') (max stop stop')).applied text := by
  refine applied_applied_eq rfl rfl fun index hindex => ?_
  rw [hides_range hindex, hides_range hindex, hides_range hindex]
  omega

/-- A gap between two ranges stays readable. -/
example : (range 2 3).applied ((range 0 1).applied "abc") = "*b*" := by decide +kernel

/-- Of two counts at one side the smaller one is what both masks keep. -/
theorem applied_substitution_substitution (side : Side) (cover : Char) (count count' : Nat)
    (text : String) :
    (substitution side cover count').applied ((substitution side cover count).applied text) =
      (substitution side cover (min count count')).applied text := by
  refine applied_applied_eq rfl rfl fun index hindex => ?_
  cases side with
  | left =>
    rw [hides_left hindex, hides_left hindex, hides_left hindex]
    omega
  | right =>
    rw [hides_right, hides_right, hides_right]
    omega

/-- Masks in a row. With one cover the order does not matter; ranges that meet are one range, and counts at
one side are one count; whatever the covers, a mask is absorbed by its own later application. -/
theorem masks_in_sequence (text : String) :
    (∀ m other : Mask, m.cover = other.cover →
      m.applied (other.applied text) = other.applied (m.applied text)) ∧
    (∀ start stop start' stop' : Nat, start' ≤ stop → start ≤ stop' →
      (range start' stop').applied ((range start stop).applied text) =
        (range (min start start') (max stop stop')).applied text) ∧
    (∀ (side : Side) (cover : Char) (count count' : Nat),
      (substitution side cover count').applied ((substitution side cover count).applied text) =
        (substitution side cover (min count count')).applied text) ∧
    ∀ m other : Mask,
      m.applied (other.applied (m.applied text)) = m.applied (other.applied text) :=
  ⟨fun _ _ h => applied_comm h text, fun _ _ _ _ hstart hstop => applied_range_range hstart hstop text,
    fun side cover count count' => applied_substitution_substitution side cover count count' text,
    fun m other => m.applied_applied_applied other text⟩

/-- The ranges touch, the larger count leaves the text alone, and the covers of the last two masks differ. -/
theorem masks_in_sequence_on_short_text :
    (range 1 3).applied ((substitution .right '*' 4).applied "Straße") = "***aße" ∧
    (substitution .right '*' 4).applied ((range 1 3).applied "Straße") = "***aße" ∧
    (range 3 9).applied ((range 1 3).applied "Straße") = "S*****" ∧
    (substitution .left '#' 6).applied ((substitution .left '#' 4).applied "Straße") = "Stra##" ∧
    (range 1 5).applied ((substitution .left '#' 3).applied ((range 1 5).applied "Straße")) =
      (range 1 5).applied ((substitution .left '#' 3).applied "Straße") := by
  obtain ⟨commute, ranges, counts, absorb⟩ := masks_in_sequence "Straße"
  have either : (range 1 3).applied ((substitution .right '*' 4).applied "Straße") = "***aße" := by
    decide +kernel
  have whole : (range (min 1 3) (max 3 9)).applied "Straße" = "S*****" := by decide +kernel
  have smaller : (substitution .left '#' (min 4 6)).applied "Straße" = "Stra##" := by decide +kernel
  exact ⟨either, (commute (substitution .right '*' 4) (range 1 3) rfl).trans either,
    (ranges 1 3 3 9 (by decide) (by decide)).trans whole, (counts .left '#' 4 6).trans smaller,
    absorb (range 1 5) (substitution .left '#' 3)⟩

end Sequences

section Agreement

theorem masked?_of_long (h : m.threshold < text.length) : m.masked? text = some (m.applied text) :=
  masked?_eq_some_iff.mpr ⟨h, rfl⟩

theorem applied_congr (hcover : m.cover = other.cover)
    (same : ∀ index < text.length,
      m.hides text.length index = true ↔ other.hides text.length index = true) :
    m.applied text = other.applied text := by
  -- A mask is the same as twice the mask, which is a case of two masks in a row.
  rw [← m.applied_applied]
  refine applied_applied_eq hcover hcover fun index hindex => ?_
  rw [same index hindex, or_self]

/-- Masks are told apart by their cover, by the texts too short for them and by what they hide. -/
theorem masked?_congr (hcover : m.cover = other.cover)
    (short : text.length ≤ m.threshold ↔ text.length ≤ other.threshold)
    (same : ∀ index < text.length,
      m.hides text.length index = true ↔ other.hides text.length index = true) :
    m.masked? text = other.masked? text := by
  by_cases h : text.length ≤ m.threshold
  · rw [masked?_eq_none_iff.mpr h, masked?_eq_none_iff.mpr (short.mp h)]
  · have hm : m.threshold < text.length := by omega
    have hother : other.threshold < text.length := by omega
    rw [masked?_of_long hm, masked?_of_long hother, applied_congr hcover same]

theorem masked?_range_of_end (h : max text.length count ≤ stop) :
    (range count stop).masked? text = (substitution .left rangeCover count).masked? text := by
  refine masked?_congr rfl Iff.rfl fun index hindex => ?_
  rw [hides_range hindex, hides_left hindex]
  omega

theorem masked?_range_of_start (h : count < text.length) :
    (range 0 (text.length - count)).masked? text =
      (substitution .right rangeCover count).masked? text := by
  have short : text.length ≤ 0 ↔ text.length ≤ count := by omega
  refine masked?_congr rfl short fun index hindex => ?_
  rw [hides_range hindex, hides_right]
  omega

/-- What is kept at the right end is what is kept at the left end of the text read backwards. -/
theorem applied_reversed (cover : Char) (count : Nat) (text : String) :
    (substitution .right cover count).applied text =
      Text.reversed ((substitution .left cover count).applied (Text.reversed text)) := by
  apply String.toList_inj.mp
  rw [Text.toList_reversed, toList_applied, toList_applied, Text.length_reversed,
    Text.toList_reversed, List.mapIdx_reverse, List.reverse_reverse]
  apply List.mapIdx_eq_mapIdx_iff.mpr
  intro index hindex
  rw [String.length_toList] at hindex
  -- What stands at `index` stands in the reversed text as far from its end.
  have hmirror : text.length - 1 - index < text.length := by omega
  have same : (substitution .right cover count).hides text.length index = true ↔
      (substitution .left cover count).hides text.length (text.length - 1 - index) = true := by
    rw [hides_right, hides_left hmirror]
    omega
  rw [String.length_toList, Bool.eq_iff_iff.mpr same]
  rfl

theorem masked?_reversed (cover : Char) (count : Nat) (text : String) :
    (substitution .right cover count).masked? text =
      ((substitution .left cover count).masked? (Text.reversed text)).map Text.reversed := by
  by_cases h : text.length ≤ count
  · have hreversed : (Text.reversed text).length ≤ count := by rwa [Text.length_reversed]
    rw [masked?_eq_none_iff.mpr h, masked?_eq_none_iff.mpr hreversed, Option.map_none]
  · have hlong : (substitution .right cover count).threshold < text.length := Nat.not_le.mp h
    have hreversed : (substitution .left cover count).threshold < (Text.reversed text).length := by
      rwa [Text.length_reversed]
    rw [masked?_of_long hlong, masked?_of_long hreversed, Option.map_some, applied_reversed]

/-- A range that reaches the end of the text is a substitution at the left, a range that starts at the
beginning and leaves the last `count` characters is one at the right, and the sides mirror each other. -/
theorem revisions_and_sides_agree (text : String) (count : Nat) :
    (∀ stop, max text.length count ≤ stop →
      (range count stop).masked? text = (substitution .left '*' count).masked? text) ∧
    (count < text.length → ∃ masked,
      (range 0 (text.length - count)).masked? text = some masked ∧
      (substitution .right '*' count).masked? text = some masked) ∧
    ∀ cover, (substitution .right cover count).masked? text =
      ((substitution .left cover count).masked? (Text.reversed text)).map Text.reversed := by
  refine ⟨fun stop => masked?_range_of_end, ?_, fun cover => masked?_reversed cover count text⟩
  intro h
  have masks : (substitution .right '*' count).masked? text = some _ := masked?_of_long h
  exact ⟨_, (masked?_range_of_start h).trans masks, masks⟩

/-- The range ends where the text does; one more and the text is too short for it. -/
theorem revisions_and_sides_agree_at_the_ends :
    (range 2 6).masked? "Straße" = (substitution .left '*' 2).masked? "Straße" ∧
    (range 7 7).masked? "Straße" = (substitution .left '*' 7).masked? "Straße" ∧
    (∃ masked, (range 0 1).masked? "Straße" = some masked ∧
      (substitution .right '*' 5).masked? "Straße" = some masked) ∧
    (substitution .right '#' 2).masked? "Straße" = some "####ße" ∧
    ((substitution .left '#' 2).masked? "eßartS").map Text.reversed = some "####ße" := by
  have masked : (substitution .right '#' 2).masked? "Straße" = some "####ße" := by decide +kernel
  have backwards : Text.reversed "Straße" = "eßartS" := by decide +kernel
  obtain ⟨ending, -, mirrored⟩ := revisions_and_sides_agree "Straße" 2
  obtain ⟨tooShort, -, -⟩ := revisions_and_sides_agree "Straße" 7
  obtain ⟨-, start, -⟩ := revisions_and_sides_agree "Straße" 5
  have mirror := mirrored '#'
  rw [masked, backwards] at mirror
  exact ⟨ending 6 (by decide +kernel), tooShort 7 (by decide +kernel), start (by decide +kernel),
    masked, mirror.symm⟩

end Agreement

end Mask
end RowDirectives
