import RowDirectives.Proofs.Tokens

/-! The two policies and the look-up of the first word see the same tokens once every run of blanks is
written as one space. A cut at runs finds in a line what a cut at single spaces finds in the collapsed line,
piece by piece, and the first word is the first piece that is not empty. -/
namespace RowDirectives

open SplitPolicy (singleSpace whitespace)

namespace Text

variable {α : Type} {mark : α → Bool}

/-- Each maximal run of blanks becomes one space. -/
def collapse : List Char → List Char
  | [] => []
  | c :: cs => if isBlank c then ' ' :: collapse (cs.dropWhile isBlank) else c :: collapse cs
termination_by cs => cs.length
decreasing_by
  · exact Nat.lt_succ_of_le (List.dropWhile_sublist isBlank).length_le
  · exact Nat.lt_succ_self cs.length

theorem runPieces_cons_of_mark {c : α} (hc : mark c = true) (cs : List α) :
    runPieces mark (c :: cs) = [] :: runPieces mark (cs.dropWhile mark) := by
  induction cs generalizing c with
  | nil => simp [runPieces, hc]
  | cons d cs ih =>
    by_cases hd : mark d = true
    case pos =>
      have hrun : runPieces mark (c :: d :: cs) = runPieces mark (d :: cs) := by
        simp [runPieces, hc, hd]
      rw [hrun, ih hd, List.dropWhile_cons_of_pos hd]
    case neg => simp [runPieces, hc, hd]

/-- The pieces between the runs of blanks are those between the spaces that the runs become. -/
theorem pieces_collapse (cs : List Char) :
    pieces (· == ' ') (collapse cs) = runPieces isBlank cs := by
  fun_induction collapse cs with
  | case1 => rfl
  | case2 c cs hc ih => rw [runPieces_cons_of_mark hc, ← ih, pieces, if_pos (beq_self_eq_true ' ')]
  | case3 c cs hc ih =>
    have hspace : (c == ' ') = false := by
      rw [beq_eq_false_iff_ne]
      rintro rfl
      exact hc isBlank_space
    rw [pieces, hspace, ih, runPieces, if_neg hc]
    rfl

theorem collapse_eq_self {cs : List Char} (hspace : ∀ c ∈ cs, isBlank c = true → c = ' ')
    (hsingle : ¬ [' ', ' '] <:+: cs) : collapse cs = cs := by
  fun_induction collapse cs with
  | case1 => rfl
  | case2 c cs hc ih =>
    obtain ⟨hfirst, hrest⟩ := List.forall_mem_cons.mp hspace
    obtain rfl := hfirst hc
    -- Another blank after this one would be a second space.
    have hnext : cs.dropWhile isBlank = cs := by
      cases cs with
      | nil => rfl
      | cons d cs =>
        apply List.dropWhile_cons_of_neg
        intro hd
        obtain rfl := hrest d List.mem_cons_self hd
        exact hsingle ⟨[], cs, rfl⟩
    rw [hnext] at ih ⊢
    rw [ih hrest fun h => hsingle (h.trans (List.suffix_cons ' ' cs).isInfix)]
  | case3 c cs hc ih =>
    have hrest := (List.forall_mem_cons.mp hspace).2
    rw [ih hrest fun h => hsingle (h.trans (List.suffix_cons c cs).isInfix)]

theorem find?_dropTrailing (ws : List (List α)) :
    (dropTrailing ws).find? (!·.isEmpty) = ws.find? (!·.isEmpty) := by
  induction ws with
  | nil => rfl
  | cons w ws ih =>
    rw [dropTrailing_cons, List.find?_cons, ← ih]
    split
    case isTrue h => simp [h]
    case isFalse => rw [List.find?_cons]

theorem firstRun?_eq_find? (mark : α → Bool) (cs : List α) :
    firstRun? mark cs = (pieces mark cs).find? (!·.isEmpty) := by
  induction cs with
  | nil => rfl
  | cons c cs ih =>
    by_cases hc : mark c = true
    case pos =>
      rw [pieces, if_pos hc, List.find?_cons_of_neg (by simp), ← ih]
      simp [firstRun?, List.dropWhile_cons_of_pos hc]
    case neg =>
      obtain ⟨w, ws, hws⟩ := List.exists_cons_of_ne_nil (pieces_ne_nil mark (c :: cs))
      obtain ⟨rest, hrest, hmark, hw⟩ := eq_append_of_pieces hws
      have hne : w ≠ [] := by
        rintro rfl
        rw [List.nil_append] at hrest
        simp [← hrest, hc] at hmark
      rw [hws, List.find?_cons_of_pos (by simpa using hne), hrest, firstRun?_append hne hw hmark]

theorem find?_dropTrailing_runPieces (mark : α → Bool) (cs : List α) :
    (dropTrailing (runPieces mark cs)).find? (!·.isEmpty) = firstRun? mark cs := by
  obtain ⟨w, ws, hws⟩ := List.exists_cons_of_ne_nil (pieces_ne_nil mark cs)
  rw [dropTrailing_runPieces hws, find?_dropTrailing, firstRun?_eq_find?, hws, List.find?_cons,
    List.find?_cons, List.find?_filter]
  simp only [and_self, Bool.decide_eq_true]

end Text

namespace SplitPolicy

theorem split_collapse (line : String) :
    singleSpace.split (String.ofList (Text.collapse line.toList)) = whitespace.split line := by
  unfold split cut
  rw [String.toList_ofList]
  exact congrArg (fun ws => (Text.dropTrailing ws).map String.ofList) (Text.pieces_collapse line.toList)

end SplitPolicy

theorem keywordOf?_eq_find? (line : String) :
    keywordOf? line = (whitespace.split line).find? (· ≠ "") := by
  have hfull : (fun token : String => decide (token ≠ "")) ∘ String.ofList = (!·.isEmpty) := by
    funext w
    cases w <;> simp
  unfold keywordOf? SplitPolicy.split
  rw [List.find?_map, hfull]
  exact congrArg (Option.map String.ofList) (Text.find?_dropTrailing_runPieces Text.isBlank line.toList).symm

/-- A cut at runs of blanks is a cut at single spaces of the collapsed line, so the policies differ only on
lines with other blanks or with spaces side by side; and the word that chooses the kind of a directive is
the first token that is not empty. -/
theorem tokenizers_agree :
    (∀ line : String, whitespace.split line =
      singleSpace.split (String.ofList (Text.collapse line.toList))) ∧
    (∀ line : String, (∀ c ∈ line.toList, Text.isBlank c = true → c = ' ') →
      ¬ [' ', ' '] <:+: line.toList → whitespace.split line = singleSpace.split line) ∧
    (∀ line : String, keywordOf? line = (whitespace.split line).find? (· ≠ "")) ∧
    ∀ line : String, keywordOf? line = none ↔ ∀ token ∈ whitespace.split line, token = "" := by
  refine ⟨fun line => (SplitPolicy.split_collapse line).symm, ?_, keywordOf?_eq_find?, ?_⟩
  · intro line hspace hsingle
    rw [← SplitPolicy.split_collapse, Text.collapse_eq_self hspace hsingle, String.ofList_toList]
  · intro line
    rw [keywordOf?_eq_find?, List.find?_eq_none]
    simp

/-- A space before the first word is an empty token for both policies. -/
theorem tokenizers_agree_before_the_first_word :
    let line := " mask pin 0 5"
    (∀ c ∈ line.toList, Text.isBlank c = true → c = ' ') ∧ ¬ [' ', ' '] <:+: line.toList ∧
    whitespace.split line = singleSpace.split line ∧
    (whitespace.split line).find? (· ≠ "") = some "mask" := by
  intro line
  have hspace : ∀ c ∈ line.toList, Text.isBlank c = true → c = ' ' := by
    have hall : line.toList.all (fun c => !Text.isBlank c || c == ' ') = true := by decide
    intro c hc hblank
    have hspace := List.all_eq_true.mp hall c hc
    rwa [hblank, Bool.not_true, Bool.false_or, beq_iff_eq] at hspace
  have hsingle : ¬ [' ', ' '] <:+: line.toList := by decide +kernel
  obtain ⟨-, hagree, hfirst, -⟩ := tokenizers_agree
  refine ⟨hspace, hsingle, hagree line hspace hsingle, ?_⟩
  rw [← hfirst line]
  decide +kernel

end RowDirectives
