import RowDirectives.Proofs.Tokens

/-! Which lines a policy cuts into given tokens. After the first token each one follows a gap, and marks may
trail: a gap is one space where single spaces cut, and a run of blanks where runs do. -/
namespace RowDirectives

open Text (Unmarked)

def Text.Marked {α : Type} (mark : α → Bool) (w : List α) : Prop := ∀ c ∈ w, mark c = true

namespace SplitPolicy

def Gap : SplitPolicy → List Char → Prop
  | singleSpace, gap => gap = [' ']
  | whitespace, gap => gap ≠ [] ∧ Text.Marked Text.isBlank gap

/-- A text that goes on, after a token, with further tokens. -/
inductive Follows (policy : SplitPolicy) : List (List Char) → List Char → Prop
  | trail {cs : List Char} : Text.Marked policy.mark cs → Follows policy [] cs
  | token {gap cs w : List Char} {ws : List (List Char)} :
      policy.Gap gap → Follows policy ws cs → Follows policy (w :: ws) (gap ++ (w ++ cs))

variable {policy : SplitPolicy} {cs w : List Char} {ws : List (List Char)}

theorem follows_nil : policy.Follows [] cs ↔ Text.Marked policy.mark cs :=
  ⟨fun h => by cases h; assumption, .trail⟩

theorem follows_cons : policy.Follows (w :: ws) cs ↔
    ∃ gap rest, policy.Gap gap ∧ cs = gap ++ (w ++ rest) ∧ policy.Follows ws rest := by
  constructor
  · rintro ⟨⟩
    exact ⟨_, _, ‹_›, rfl, ‹_›⟩
  · rintro ⟨gap, rest, hgap, rfl, hrest⟩
    exact .token hgap hrest

theorem follows_singleSpace_nil : singleSpace.Follows [] cs ↔ ∃ n, cs = List.replicate n ' ' := by
  simp [follows_nil, Text.Marked, mark, List.eq_replicate_iff]

theorem follows_singleSpace_cons : singleSpace.Follows (w :: ws) cs ↔
    ∃ rest, cs = ' ' :: (w ++ rest) ∧ singleSpace.Follows ws rest := by
  simp [follows_cons, Gap]

theorem Follows.spaces (n : Nat) : singleSpace.Follows [] (List.replicate n ' ') :=
  follows_singleSpace_nil.mpr ⟨n, rfl⟩

theorem Follows.space (h : singleSpace.Follows ws cs) (w : List Char) :
    singleSpace.Follows (w :: ws) (' ' :: (w ++ cs)) :=
  follows_singleSpace_cons.mpr ⟨cs, rfl, h⟩

/-- A mark belongs to the gap or to the trail that comes after it, if runs are cut. -/
theorem Follows.cons_blank {c : Char} (hc : Text.isBlank c = true) (h : whitespace.Follows ws cs) :
    whitespace.Follows ws (c :: cs) := by
  cases h with
  | trail h => exact .trail (List.forall_mem_cons.mpr ⟨hc, h⟩)
  | @token gap _ _ _ hgap h =>
    have hwide : whitespace.Gap (c :: gap) :=
      ⟨List.cons_ne_nil c gap, List.forall_mem_cons.mpr ⟨hc, hgap.2⟩⟩
    exact .token hwide h

theorem kept_cons (h : policy = whitespace → w ≠ []) : policy.kept (w :: ws) = w :: policy.kept ws := by
  cases policy with
  | singleSpace => rfl
  | whitespace => simp [kept, h rfl]

theorem gap_singleton {c : Char} (hc : policy.mark c = true) : policy.Gap [c] := by
  cases policy with
  | singleSpace => simpa [Gap, mark] using hc
  | whitespace => simpa [Gap, mark, Text.Marked] using hc

theorem Follows.cons_piece {c : Char} (hc : policy.mark c = true)
    (h : policy.Follows (Text.dropTrailing (policy.kept ws)) cs) :
    policy.Follows (Text.dropTrailing (policy.kept (w :: ws))) (c :: (w ++ cs)) := by
  by_cases hempty : policy = whitespace ∧ w = []
  case pos =>
    obtain ⟨rfl, rfl⟩ := hempty
    exact h.cons_blank hc
  case neg =>
    rw [kept_cons (by simpa using hempty), Text.dropTrailing_cons]
    split
    case isTrue hlast =>
      rw [hlast.1, follows_nil] at h
      rw [hlast.2]
      exact .trail (List.forall_mem_cons.mpr ⟨hc, h⟩)
    case isFalse => exact .token (gap_singleton hc) h

/-- What the pieces of a text leave of it after the first. -/
theorem follows_of_pieces (h : Text.pieces policy.mark cs = w :: ws) :
    ∃ rest, cs = w ++ rest ∧ policy.Follows (Text.dropTrailing (policy.kept ws)) rest := by
  induction cs generalizing w ws with
  | nil =>
    obtain ⟨rfl, rfl⟩ : [] = w ∧ [] = ws := by simpa [Text.pieces] using h
    have hkept : policy.kept [] = [] := by cases policy <;> rfl
    exact ⟨[], rfl, by simpa [hkept, Text.dropTrailing] using Follows.trail (by simp [Text.Marked])⟩
  | cons c cs ih =>
    obtain ⟨v, vs, hv⟩ := List.exists_cons_of_ne_nil (Text.pieces_ne_nil policy.mark cs)
    obtain ⟨rest, rfl, hrest⟩ := ih hv
    rw [Text.pieces, hv] at h
    split at h
    case isTrue hc =>
      obtain ⟨rfl, rfl⟩ := List.cons.inj h
      exact ⟨c :: (v ++ rest), rfl, hrest.cons_piece hc⟩
    case isFalse hc =>
      obtain ⟨rfl, rfl⟩ := List.cons.inj h
      exact ⟨rest, rfl, hrest⟩

theorem dropTrailing_kept_of_marked (h : Text.Marked policy.mark cs) :
    Text.dropTrailing (policy.kept (Text.pieces policy.mark cs)) = [] := by
  induction cs with
  | nil => cases policy <;> rfl
  | cons c cs ih =>
    obtain ⟨hc, hcs⟩ := List.forall_mem_cons.mp h
    rw [Text.pieces, if_pos hc]
    cases policy with
    | singleSpace => exact (Text.dropTrailing_cons _ _).trans (if_pos ⟨ih hcs, rfl⟩)
    | whitespace => exact ih hcs

/-- The first mark of a gap ends a piece, and the others leave nothing. -/
theorem Gap.exists_cons {gap : List Char} (h : policy.Gap gap) (cs : List Char) :
    ∃ c rest, gap = c :: rest ∧ policy.mark c = true ∧
      policy.kept (Text.pieces policy.mark (rest ++ cs)) =
        policy.kept (Text.pieces policy.mark cs) := by
  cases policy with
  | singleSpace => exact ⟨' ', [], h, rfl, rfl⟩
  | whitespace =>
    obtain ⟨hne, hmarked⟩ := h
    obtain ⟨c, rest, rfl⟩ := List.exists_cons_of_ne_nil hne
    obtain ⟨hc, hrest⟩ := List.forall_mem_cons.mp hmarked
    refine ⟨c, rest, rfl, hc, ?_⟩
    clear hne hmarked
    induction rest with
    | nil => rfl
    | cons d rest ih =>
      obtain ⟨hd, hrest⟩ := List.forall_mem_cons.mp hrest
      rw [← ih hrest, List.cons_append, Text.pieces, if_pos (by exact hd)]
      rfl

theorem pieces_of_follows (h : policy.Follows ws cs) (hw : Unmarked policy.mark w)
    (hunmarked : ∀ v ∈ ws, Unmarked policy.mark v)
    (hfull : policy = whitespace → ∀ v ∈ ws, v ≠ []) :
    ∃ vs, Text.pieces policy.mark (w ++ cs) = w :: vs ∧
      Text.dropTrailing (policy.kept vs) = Text.dropTrailing ws := by
  induction h generalizing w with
  | @trail cs htrail =>
    cases cs with
    | nil =>
      refine ⟨[], ?_, by cases policy <;> rfl⟩
      rw [List.append_nil, Text.pieces_eq_splitOnP, List.splitOnP_eq_singleton hw]
    | cons c cs =>
      obtain ⟨hc, hcs⟩ := List.forall_mem_cons.mp htrail
      exact ⟨_, Text.pieces_append_cons hw hc cs, dropTrailing_kept_of_marked hcs⟩
  | @token gap cs v vs hgap _ ih =>
    obtain ⟨hv, hvs⟩ := List.forall_mem_cons.mp hunmarked
    obtain ⟨us, hus, hdrop⟩ := ih hv hvs fun hp u hu => hfull hp u (List.mem_cons_of_mem v hu)
    obtain ⟨c, rest, rfl, hc, hkept⟩ := hgap.exists_cons (v ++ cs)
    refine ⟨_, Text.pieces_append_cons hw hc (rest ++ (v ++ cs)), ?_⟩
    rw [hkept, hus, kept_cons fun hp => hfull hp v List.mem_cons_self, Text.dropTrailing_cons,
      Text.dropTrailing_cons, hdrop]

theorem split_eq_cons_iff {line token : String} {tokens : List String} :
    policy.split line = token :: tokens ↔ policy.Admits (token :: tokens) ∧
      ∃ rest, line.toList = token.toList ++ rest ∧
        policy.Follows (tokens.map String.toList) rest := by
  constructor
  · intro h
    refine ⟨h ▸ policy.admits_split line, ?_⟩
    obtain ⟨w, ws, hws⟩ := List.exists_cons_of_ne_nil (Text.pieces_ne_nil policy.mark line.toList)
    obtain ⟨rest, hrest, hfollows⟩ := follows_of_pieces hws
    rw [split_of_pieces policy hws, Text.dropTrailing_cons] at h
    split at h
    · cases h
    · obtain ⟨rfl, rfl⟩ := List.cons.inj h
      exact ⟨rest, by simpa using hrest, by simpa using hfollows⟩
  · rintro ⟨hadmits, rest, hrest, hfollows⟩
    obtain ⟨hw, hunmarked⟩ := List.forall_mem_cons.mp hadmits.unmarked
    obtain ⟨ws, hws, hdrop⟩ := pieces_of_follows hfollows hw (by simpa using hunmarked)
      fun hp => by simpa using hadmits.full hp
    rw [← hrest] at hws
    rw [split_of_pieces policy hws, Text.dropTrailing_cons, hdrop, ← Text.dropTrailing_cons,
      ← List.map_cons, Text.dropTrailing_eq_self hadmits.getLast?_toList]
    simp

end SplitPolicy
end RowDirectives
