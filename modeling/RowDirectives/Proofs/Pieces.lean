import RowDirectives.Text.Pieces

/-! What cutting a text yields. No piece holds a mark, joining undoes the cutting, and a cut at runs differs
from a cut at single marks only in the empty pieces that it leaves out. -/
namespace RowDirectives.Text

variable {α : Type} {mark : α → Bool}

def Unmarked (mark : α → Bool) (w : List α) : Prop := ∀ c ∈ w, mark c = false

instance (mark : α → Bool) (w : List α) : Decidable (Unmarked mark w) :=
  List.decidableBAll (mark · = false) w

theorem consFirst_eq_modifyHead (c : α) {ws : List (List α)} (hws : ws ≠ []) :
    consFirst c ws = ws.modifyHead (List.cons c) := by
  cases ws with
  | nil => exact absurd rfl hws
  | cons w ws => rfl

theorem pieces_eq_splitOnP (mark : α → Bool) (cs : List α) : pieces mark cs = cs.splitOnP mark := by
  induction cs with
  | nil => rw [pieces, List.splitOnP_nil]
  | cons c cs ih =>
    rw [pieces, List.splitOnP_cons_eq_if_modifyHead, ih,
      consFirst_eq_modifyHead c (List.splitOnP_ne_nil mark cs)]

theorem pieces_append {m : α} (hm : mark m = true) (cs ds : List α) :
    pieces mark (cs ++ m :: ds) = pieces mark cs ++ pieces mark ds := by
  simp only [pieces_eq_splitOnP]
  exact List.splitOnP_append_cons cs ds hm

theorem pieces_append_cons {w : List α} (hw : Unmarked mark w) {m : α} (hm : mark m = true)
    (cs : List α) : pieces mark (w ++ m :: cs) = w :: pieces mark cs := by
  rw [pieces_eq_splitOnP, pieces_eq_splitOnP, List.splitOnP_append_cons_of_forall_mem hw m hm]

theorem pieces_intercalate {sep : α} (hsep : mark sep = true) {ws : List (List α)}
    (hne : ws ≠ []) (hws : ∀ w ∈ ws, Unmarked mark w) :
    pieces mark ([sep].intercalate ws) = ws := by
  induction ws with
  | nil => exact absurd rfl hne
  | cons w ws ih =>
    have hw : Unmarked mark w := hws w List.mem_cons_self
    cases ws with
    | nil => rw [List.intercalate_singleton, pieces_eq_splitOnP, List.splitOnP_eq_singleton hw]
    | cons v vs =>
      have htail := ih (List.cons_ne_nil v vs) fun u hu => hws u (List.mem_cons_of_mem w hu)
      rw [List.intercalate_cons_cons, List.append_assoc, List.singleton_append,
        pieces_append_cons hw hsep, htail]

/-- The first piece reaches to the first mark, or to the end. -/
theorem eq_append_of_pieces {cs w : List α} {ws : List (List α)} (h : pieces mark cs = w :: ws) :
    ∃ rest, cs = w ++ rest ∧ rest.head?.all mark = true ∧ Unmarked mark w := by
  induction cs generalizing w ws with
  | nil =>
    rw [pieces] at h
    obtain ⟨rfl, -⟩ := List.cons.inj h
    exact ⟨[], rfl, rfl, fun c hc => absurd hc List.not_mem_nil⟩
  | cons c cs ih =>
    rw [pieces] at h
    split at h
    case isTrue hc =>
      obtain ⟨rfl, -⟩ := List.cons.inj h
      exact ⟨c :: cs, rfl, by simpa using hc, fun c hc => absurd hc List.not_mem_nil⟩
    case isFalse hc =>
      obtain ⟨v, vs, hv⟩ := List.exists_cons_of_ne_nil (pieces_ne_nil mark cs)
      rw [hv, consFirst] at h
      obtain ⟨rfl, -⟩ := List.cons.inj h
      obtain ⟨rest, rfl, hrest, hun⟩ := ih hv
      refine ⟨rest, rfl, hrest, ?_⟩
      intro d hd
      rcases List.mem_cons.mp hd with rfl | hd
      · exact Bool.eq_false_iff.mpr hc
      · exact hun d hd

theorem unmarked_of_mem_pieces {cs w : List α} (hw : w ∈ pieces mark cs) : Unmarked mark w := by
  induction cs generalizing w with
  | nil =>
    rw [pieces, List.mem_singleton] at hw
    subst hw
    exact fun c hc => absurd hc List.not_mem_nil
  | cons c cs ih =>
    obtain ⟨v, vs, hv⟩ := List.exists_cons_of_ne_nil (pieces_ne_nil mark (c :: cs))
    rw [hv] at hw
    rcases List.mem_cons.mp hw with rfl | hw
    · obtain ⟨rest, -, -, hun⟩ := eq_append_of_pieces hv
      exact hun
    · apply ih
      rw [pieces] at hv
      split at hv
      · obtain ⟨-, rfl⟩ := List.cons.inj hv
        exact hw
      · obtain ⟨u, us, hu⟩ := List.exists_cons_of_ne_nil (pieces_ne_nil mark cs)
        rw [hu, consFirst] at hv
        obtain ⟨-, rfl⟩ := List.cons.inj hv
        rw [hu]
        exact List.mem_cons_of_mem u hw

section DropTrailing

theorem dropTrailing_cons (w : List α) (ws : List (List α)) :
    dropTrailing (w :: ws) = if dropTrailing ws = [] ∧ w = [] then [] else w :: dropTrailing ws := by
  rw [dropTrailing]
  cases dropTrailing ws <;> cases w <;> simp

theorem tail_dropTrailing_cons (w : List α) (ws : List (List α)) :
    (dropTrailing (w :: ws)).tail = dropTrailing ws := by
  rw [dropTrailing_cons]
  split
  case isTrue h => rw [h.1, List.tail_nil]
  case isFalse => rw [List.tail_cons]

theorem eq_of_head?_dropTrailing {v w : List α} {ws : List (List α)}
    (h : (dropTrailing (w :: ws)).head? = some v) : v = w := by
  rw [dropTrailing_cons] at h
  split at h
  · exact absurd h (by simp)
  · exact (Option.some.inj h).symm

theorem mem_of_mem_dropTrailing {w : List α} {ws : List (List α)} (hw : w ∈ dropTrailing ws) :
    w ∈ ws := by
  induction ws with
  | nil => exact hw
  | cons v vs ih =>
    rw [dropTrailing_cons] at hw
    split at hw
    · exact absurd hw List.not_mem_nil
    · rcases List.mem_cons.mp hw with rfl | hw
      · exact List.mem_cons_self
      · exact List.mem_cons_of_mem v (ih hw)

theorem getLast?_dropTrailing (ws : List (List α)) : (dropTrailing ws).getLast? ≠ some [] := by
  induction ws with
  | nil => simp [dropTrailing]
  | cons w ws ih =>
    rw [dropTrailing_cons]
    split
    · simp
    · rename_i h
      cases hws : dropTrailing ws with
      | nil => simpa [hws] using h
      | cons v vs => rwa [List.getLast?_cons_cons, ← hws]

theorem dropTrailing_eq_self {ws : List (List α)} (h : ws.getLast? ≠ some []) :
    dropTrailing ws = ws := by
  induction ws with
  | nil => rfl
  | cons w ws ih =>
    rw [dropTrailing_cons]
    cases ws with
    | nil => rw [if_neg (by simpa [dropTrailing] using h), dropTrailing]
    | cons v vs =>
      rw [List.getLast?_cons_cons] at h
      rw [ih h, if_neg (by simp)]

end DropTrailing

/-- A cut at runs has the same first piece, and of the others those that are not empty. -/
theorem runPieces_of_pieces {cs w : List α} {ws : List (List α)} (h : pieces mark cs = w :: ws) :
    ∃ us, runPieces mark cs = w :: us ∧ dropTrailing us = ws.filter (!·.isEmpty) := by
  induction cs generalizing w ws with
  | nil =>
    rw [pieces] at h
    obtain ⟨rfl, rfl⟩ := List.cons.inj h
    exact ⟨[], rfl, rfl⟩
  | cons c cs ih =>
    obtain ⟨v, vs, hv⟩ := List.exists_cons_of_ne_nil (pieces_ne_nil mark cs)
    obtain ⟨us, hus, hdrop⟩ := ih hv
    rw [pieces] at h
    rw [runPieces]
    split at h
    case isFalse hc =>
      rw [hv, consFirst] at h
      obtain ⟨rfl, rfl⟩ := List.cons.inj h
      exact ⟨us, by rw [if_neg hc, hus, consFirst], hdrop⟩
    case isTrue hc =>
      obtain ⟨rfl, rfl⟩ := List.cons.inj h
      obtain ⟨rest, hrest, hmark, hun⟩ := eq_append_of_pieces hv
      rw [if_pos hc, hv]
      split
      case isTrue hnext =>
        -- The next character is a mark too, so the piece between the two is empty.
        cases v with
        | nil => exact ⟨us, hus, by rw [hdrop]; rfl⟩
        | cons d v =>
          rw [hrest, List.cons_append, List.head?_cons, Option.any_some] at hnext
          rw [hun d List.mem_cons_self] at hnext
          exact absurd hnext Bool.false_ne_true
      case isFalse hnext =>
        refine ⟨runPieces mark cs, rfl, ?_⟩
        rw [hus, dropTrailing_cons, hdrop]
        cases v with
        | cons d v => simp
        | nil =>
          -- An empty piece that no mark follows is the whole rest of the text.
          rw [List.nil_append] at hrest
          subst hrest
          cases cs with
          | nil =>
            rw [pieces] at hv
            obtain ⟨-, rfl⟩ := List.cons.inj hv
            rfl
          | cons d cs =>
            rw [List.head?_cons, Option.all_some] at hmark
            rw [List.head?_cons, Option.any_some] at hnext
            exact absurd hmark hnext

theorem dropTrailing_runPieces {cs w : List α} {ws : List (List α)}
    (h : pieces mark cs = w :: ws) :
    dropTrailing (runPieces mark cs) = dropTrailing (w :: ws.filter (!·.isEmpty)) := by
  obtain ⟨us, hus, hdrop⟩ := runPieces_of_pieces h
  have hfull : (ws.filter (!·.isEmpty)).getLast? ≠ some [] := by
    intro hlast
    have hmem := (List.mem_filter.mp (List.mem_of_getLast? hlast)).2
    rw [List.isEmpty_nil] at hmem
    exact absurd hmem Bool.false_ne_true
  rw [hus, dropTrailing_cons, dropTrailing_cons, hdrop, dropTrailing_eq_self hfull]

theorem firstRun?_append {w rest : List α} (hne : w ≠ []) (hw : Unmarked mark w)
    (hrest : rest.head?.all mark = true) : firstRun? mark (w ++ rest) = some w := by
  have hstop : rest.takeWhile (!mark ·) = [] := by
    cases rest with
    | nil => rfl
    | cons c cs => exact List.takeWhile_cons_of_neg (by simpa using hrest)
  have hrun : (w ++ rest).takeWhile (!mark ·) = w := by
    rw [List.takeWhile_append_of_pos (by simpa [Unmarked] using hw), hstop, List.append_nil]
  obtain ⟨c, v, rfl⟩ := List.exists_cons_of_ne_nil hne
  have hc : ¬ mark c = true := by simp [hw c List.mem_cons_self]
  rw [firstRun?, List.cons_append, List.dropWhile_cons_of_neg hc, ← List.cons_append, hrun]

end RowDirectives.Text
