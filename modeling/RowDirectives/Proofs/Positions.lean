import RowDirectives.Proofs.CanonicalText
import RowDirectives.Proofs.Masking

/-! What stands at each position of a text after a mask. A range covers the positions between its bounds; a
substitution covers all but `count` positions at one end, and what it keeps is counted from that end. The
numbers of a mask that was read and the length of a text fit into words of 64 bits, and so does every number
in between: a difference is taken only where the text is longer than what is subtracted. -/
namespace RowDirectives.Mask

variable {m : Mask} {text : String}

theorem masked?_eq_none_iff : m.masked? text = none ↔ text.length ≤ m.threshold := by
  unfold masked?
  split <;> simp_all

theorem masked?_eq_some_iff {masked : String} :
    m.masked? text = some masked ↔ m.threshold < text.length ∧ masked = m.applied text := by
  by_cases h : text.length ≤ m.threshold
  · have hlt : ¬ m.threshold < text.length := by omega
    simp [masked?_eq_none_iff.mpr h, hlt]
  · have hlt : m.threshold < text.length := by omega
    obtain ⟨found, hfound⟩ := Option.ne_none_iff_exists'.mp (mt masked?_eq_none_iff.mp h)
    simp [applied, hfound, hlt, eq_comm]

/-- `cover` stands at the positions of the text that `covered` selects, and at every other position what
stood there before. -/
def CoversExactly (covered : Nat → Prop) (cover : Char) (text masked : String) : Prop :=
  masked.length = text.length ∧ ∀ index < text.length,
    (covered index → masked.toList[index]? = some cover) ∧
    (¬ covered index → masked.toList[index]? = text.toList[index]?)

theorem coversExactly_applied {covered : Nat → Prop}
    (h : ∀ index < text.length, m.hides text.length index = true ↔ covered index) :
    CoversExactly covered m.cover text (m.applied text) := by
  refine ⟨m.length_applied text, fun index hindex => ?_⟩
  have hlength : index < text.toList.length := by rwa [String.length_toList]
  rw [toList_applied, List.getElem?_mapIdx, List.getElem?_eq_getElem hlength, Option.map_some]
  constructor
  · intro hcovered
    rw [if_pos ((h index hindex).mpr hcovered)]
  · intro hkept
    rw [if_neg (mt (h index hindex).mp hkept)]

section Words

/-- The decision of `covers` in words of 64 bits, where a difference below zero wraps around. -/
def coversInWords (m : Mask) (length index : UInt64) : Bool :=
  match m with
  | range start stop => UInt64.ofNat start ≤ index && index < min (UInt64.ofNat stop) length
  | substitution .left _ count => UInt64.ofNat count ≤ index
  | substitution .right _ count => index < length - UInt64.ofNat count

/-- The masked text, with length, positions and numbers in words of 64 bits. -/
def maskedInWords? (m : Mask) (text : String) : Option String :=
  let length := UInt64.ofNat text.length
  if length ≤ UInt64.ofNat m.threshold then none
  else some (String.ofList (text.toList.mapIdx fun index c =>
    if m.coversInWords length (UInt64.ofNat index) then m.cover else c))

theorem min_ofNat {a b : Nat} (ha : a < UInt64.size) (hb : b < UInt64.size) :
    min (UInt64.ofNat a) (UInt64.ofNat b) = UInt64.ofNat (min a b) := by
  change (if UInt64.ofNat a ≤ UInt64.ofNat b then UInt64.ofNat a else UInt64.ofNat b) = _
  have order : UInt64.ofNat a ≤ UInt64.ofNat b ↔ a ≤ b := UInt64.ofNat_le_iff_le ha hb
  by_cases h : a ≤ b
  · rw [if_pos (order.mpr h), Nat.min_eq_left h]
  · rw [if_neg (mt order.mp h), Nat.min_eq_right (by omega)]

theorem coversInWords_ofNat {column : String} (inRange : (Stage.mask column m).InRange)
    {length index : Nat} (hlength : length < UInt64.size) (hlong : m.threshold < length)
    (hindex : index < length) :
    m.coversInWords (UInt64.ofNat length) (UInt64.ofNat index) = m.covers length index := by
  have hindex' : index < UInt64.size := by omega
  cases m with
  | range start stop =>
    obtain ⟨hle, hstop⟩ := inRange
    have hstop : stop < UInt64.size := hstop
    have hstart : start < UInt64.size := by omega
    have hend : min stop length < UInt64.size := by omega
    simp only [coversInWords, covers, min_ofNat hstop hlength,
      UInt64.ofNat_le_iff_le hstart hindex', UInt64.ofNat_lt_iff_lt hindex' hend]
  | substitution side cover count =>
    have hcount : count < length := hlong
    have hcount' : count < UInt64.size := by omega
    cases side with
    | left => simp only [coversInWords, covers, UInt64.ofNat_le_iff_le hcount' hindex']
    | right =>
      -- The difference is taken only in texts longer than `count`, where it does not wrap.
      have hkept : length - count < UInt64.size := by omega
      simp only [coversInWords, covers, ← UInt64.ofNat_sub (Nat.le_of_lt hcount),
        UInt64.ofNat_lt_iff_lt hindex' hkept]

theorem threshold_lt_size {column : String} (inRange : (Stage.mask column m).InRange) :
    m.threshold < UInt64.size := by
  cases m with
  | range start stop => exact Nat.lt_of_le_of_lt inRange.1 inRange.2
  | substitution side cover count => exact Nat.lt_trans inRange (by decide)

/-- Masking in words masks as masking in numbers does: nothing wraps around. -/
theorem maskedInWords?_eq {column : String} (inRange : (Stage.mask column m).InRange)
    (hlength : text.length < UInt64.size) : m.maskedInWords? text = m.masked? text := by
  have short : UInt64.ofNat text.length ≤ UInt64.ofNat m.threshold ↔ text.length ≤ m.threshold :=
    UInt64.ofNat_le_iff_le hlength (threshold_lt_size inRange)
  unfold maskedInWords? masked? applyChars
  by_cases h : text.length ≤ m.threshold
  · rw [if_pos (short.mpr h), if_pos h]
  · have hlong : m.threshold < text.length := by omega
    rw [if_neg (mt short.mp h), if_neg h, String.length_toList]
    congr 2
    apply List.ext_getElem
    · rw [List.length_mapIdx, List.length_mapIdx]
    · intro index hwords hnumbers
      have hindex : index < text.length := by
        rwa [List.length_mapIdx, String.length_toList] at hnumbers
      rw [List.getElem_mapIdx, List.getElem_mapIdx,
        coversInWords_ofNat inRange hlength hlong hindex]

end Words

theorem coversExactly_of_masked? {covered : Nat → Prop} {masked : String}
    (h : ∀ index < text.length, m.covers text.length index = true ↔ covered index)
    (hmasked : m.masked? text = some masked) : CoversExactly covered m.cover text masked := by
  obtain ⟨hlong, rfl⟩ := masked?_eq_some_iff.mp hmasked
  apply coversExactly_applied
  intro index hindex
  rw [hides_iff, h index hindex]
  exact and_iff_right hlong

/-- A mask that was read leaves the texts alone that are too short for it and covers in all others exactly
the positions that its line says. Its numbers fit into words, and masking in words comes to the same text. -/
theorem exact_at_every_position {kind : Kind} {line? : Option String} {column : String}
    (h : kind.read line? = .ok (.mask column m)) (text : String) :
    (∀ start stop, m = .range start stop →
      (m.masked? text = none ↔ text.length ≤ start) ∧
      ∀ masked, m.masked? text = some masked →
        CoversExactly (fun index => start ≤ index ∧ index < stop) '*' text masked) ∧
    (∀ cover count, m = .substitution .left cover count →
      (m.masked? text = none ↔ text.length ≤ count) ∧
      ∀ masked, m.masked? text = some masked →
        CoversExactly (fun index => count ≤ index) cover text masked) ∧
    (∀ cover count, m = .substitution .right cover count →
      (m.masked? text = none ↔ text.length ≤ count) ∧
      ∀ masked, m.masked? text = some masked →
        CoversExactly (fun index => index < text.length - count) cover text masked) ∧
    (Stage.mask column m).InRange ∧
    (text.length < UInt64.size → m.maskedInWords? text = m.masked? text) := by
  have inRange : (Stage.mask column m).InRange := (Stage.readable_of_read h).2.inRange
  refine ⟨?range, ?left, ?right, inRange, maskedInWords?_eq inRange⟩
  case range =>
    rintro start stop rfl
    refine ⟨masked?_eq_none_iff, fun masked => coversExactly_of_masked? fun index hindex => ?_⟩
    simp only [covers, Bool.and_eq_true, decide_eq_true_iff]
    omega
  case left =>
    rintro cover count rfl
    refine ⟨masked?_eq_none_iff, fun masked => coversExactly_of_masked? fun index _ => ?_⟩
    simp only [covers, decide_eq_true_iff]
  case right =>
    rintro cover count rfl
    refine ⟨masked?_eq_none_iff, fun masked => coversExactly_of_masked? fun index _ => ?_⟩
    simp only [covers, decide_eq_true_iff]

/-- Two of the six characters stay, among them one that takes two bytes. -/
theorem exact_at_every_position_of_kept_ending :
    Kind.maskSubstitution.read (some "mask street Right # 2") =
      .ok (.mask "street" (.substitution .right '#' 2)) ∧
    (substitution .right '#' 2).masked? "Straße" = some "####ße" ∧
    CoversExactly (fun index => index < "Straße".length - 2) '#' "Straße" "####ße" ∧
    (substitution .right '#' 2).maskedInWords? "Straße" = some "####ße" := by
  have read : Kind.maskSubstitution.read (some "mask street Right # 2") =
      .ok (.mask "street" (.substitution .right '#' 2)) := by decide +kernel
  have masked : (substitution .right '#' 2).masked? "Straße" = some "####ße" := by decide +kernel
  obtain ⟨-, -, right, -, words⟩ := exact_at_every_position read "Straße"
  exact ⟨read, masked, (right '#' 2 rfl).2 _ masked, (words (by decide +kernel)).trans masked⟩

end RowDirectives.Mask
