import Mathlib.Data.List.DropRight
import RowDirectives.Proofs.Tokens

/-! Splitting undoes joining on exactly the token lists that a policy admits, and joining undoes splitting
up to the spaces at the right end of a line. The empty pieces that a split drops there are the spaces that
a join cannot give back. -/
namespace RowDirectives

open Text (Unmarked isBlank)

namespace Text

variable {α : Type} {mark : α → Bool} {sep : α}

theorem rdropWhile_append (p : α → Bool) (xs ys : List α) : (xs ++ ys).rdropWhile p =
    if ys.rdropWhile p = [] then xs.rdropWhile p else xs ++ ys.rdropWhile p := by
  unfold List.rdropWhile
  simp only [List.reverse_append, List.dropWhile_append, List.isEmpty_iff, List.reverse_eq_nil_iff]
  split <;> simp only [List.reverse_append, List.reverse_reverse]

theorem Unmarked.rdropWhile_eq {w : List α} (h : Unmarked mark w) : w.rdropWhile mark = w := by
  rw [List.rdropWhile_eq_self_iff]
  intro hne
  simp [h _ (List.getLast_mem hne)]

theorem intercalate_ne_nil (sep : α) {ws : List (List α)} (hne : ws ≠ [])
    (hlast : ws.getLast? ≠ some []) : [sep].intercalate ws ≠ [] := by
  match ws with
  | [w] => simpa using hlast
  | v :: w :: ws => simp [List.intercalate_cons_cons]

theorem intercalate_pieces [BEq α] [LawfulBEq α] (sep : α) (cs : List α) :
    [sep].intercalate (pieces (· == sep) cs) = cs := by
  rw [pieces_eq_splitOnP, ← List.splitOn_eq_splitOnP, List.intercalate_splitOn]

/-- Joined without their empty pieces at the end, unmarked pieces are the whole text without its marks at
the end. -/
theorem intercalate_dropTrailing (hsep : mark sep = true) {ws : List (List α)}
    (hws : ∀ w ∈ ws, Unmarked mark w) :
    [sep].intercalate (dropTrailing ws) = ([sep].intercalate ws).rdropWhile mark := by
  induction ws with
  | nil => rfl
  | cons w ws ih =>
    have hw : w.rdropWhile mark = w := (hws w List.mem_cons_self).rdropWhile_eq
    have hrest := ih fun v hv => hws v (List.mem_cons_of_mem w hv)
    rw [dropTrailing_cons]
    by_cases hnil : ws = []
    case pos => by_cases hempty : w = [] <;> simp [hnil, hempty, hw, dropTrailing]
    case neg =>
      rw [List.intercalate_cons_of_ne_nil hnil, List.append_assoc, rdropWhile_append, hw,
        rdropWhile_append, ← hrest, List.rdropWhile_singleton, if_pos hsep]
      by_cases hdrop : dropTrailing ws = []
      case pos => by_cases hempty : w = [] <;> simp [hdrop, hempty]
      case neg =>
        have hfull := intercalate_ne_nil sep hdrop (getLast?_dropTrailing ws)
        simp [hdrop, hfull, List.intercalate_cons_of_ne_nil]

end Text

namespace SplitPolicy

theorem admits_whitespace_iff {tokens : List String} :
    whitespace.Admits tokens ↔ (∀ token ∈ tokens, Unmarked isBlank token.toList) ∧
      (∀ token ∈ tokens.tail, token ≠ "") ∧ tokens.getLast? ≠ some "" :=
  ⟨fun h => ⟨h.unmarked, h.full rfl, h.last⟩, fun h => ⟨h.1, fun _ => h.2.1, h.2.2⟩⟩

theorem split_intercalate_iff {policy : SplitPolicy} {tokens : List String} :
    policy.split (" ".intercalate tokens) = tokens ↔ policy.Admits tokens :=
  ⟨fun h => h ▸ policy.admits_split _, split_intercalate⟩

theorem intercalate_split (line : String) :
    (" ".intercalate (singleSpace.split line)).toList = line.toList.rdropWhile (· == ' ') := by
  have htokens : (singleSpace.split line).map String.toList =
      Text.dropTrailing (Text.pieces (· == ' ') line.toList) := by
    simp [split, cut]
  rw [String.toList_intercalate, htokens]
  calc [' '].intercalate (Text.dropTrailing (Text.pieces (· == ' ') line.toList))
      = ([' '].intercalate (Text.pieces (· == ' ') line.toList)).rdropWhile (· == ' ') :=
        Text.intercalate_dropTrailing rfl fun _ => Text.unmarked_of_mem_pieces
    _ = line.toList.rdropWhile (· == ' ') := by rw [Text.intercalate_pieces]

/-- Every line is split into tokens that its policy admits, tokens that are not admitted are split in another
way once they are joined, and joining loses only the spaces at the end. So a grammar that accepts a line
accepts the joined tokens of it, and takes them for the same directive. -/
theorem split_and_join_are_inverse :
    (∀ line : String, (∀ token ∈ singleSpace.split line, ' ' ∉ token.toList) ∧
      (singleSpace.split line).getLast? ≠ some "" ∧
      (" ".intercalate (singleSpace.split line)).toList = line.toList.rdropWhile (· == ' ')) ∧
    (∀ line : String, (∀ token ∈ whitespace.split line, Unmarked isBlank token.toList) ∧
      (∀ token ∈ (whitespace.split line).tail, token ≠ "") ∧
      (whitespace.split line).getLast? ≠ some "") ∧
    (∀ tokens : List String, singleSpace.split (" ".intercalate tokens) = tokens ↔
      (∀ token ∈ tokens, ' ' ∉ token.toList) ∧ tokens.getLast? ≠ some "") ∧
    (∀ tokens : List String, whitespace.split (" ".intercalate tokens) = tokens ↔
      (∀ token ∈ tokens, Unmarked isBlank token.toList) ∧ (∀ token ∈ tokens.tail, token ≠ "") ∧
        tokens.getLast? ≠ some "") ∧
    ∀ (g : Grammar) (line? : Option String) (d : Directive), g.parse line? = .ok d →
      g.parse (some d.line) = .ok d := by
  have hspaces (tokens : List String) : singleSpace.Admits tokens ↔
      (∀ token ∈ tokens, ' ' ∉ token.toList) ∧ tokens.getLast? ≠ some "" := by
    simp [admits_singleSpace_iff, Unmarked, ← List.forall_mem_ne']
  refine ⟨?_, ?_, ?_, ?_, ?_⟩
  · intro line
    obtain ⟨hunmarked, hlast⟩ := (hspaces _).mp (singleSpace.admits_split line)
    exact ⟨hunmarked, hlast, intercalate_split line⟩
  · intro line
    exact admits_whitespace_iff.mp (whitespace.admits_split line)
  · intro tokens
    rw [split_intercalate_iff, hspaces]
  · intro tokens
    rw [split_intercalate_iff, admits_whitespace_iff]
  · intro g line? d h
    obtain ⟨-, -, -, hsize, hkeyword⟩ := Grammar.parse_eq_ok.mp h
    exact Grammar.parse_line (Grammar.admits_of_parse h) hsize hkeyword

/-- Inner spaces enclose an empty token, and a tab at the end belongs to the last one. -/
theorem split_and_join_are_inverse_around_empty_tokens :
    let g : Grammar := ⟨"probe", 4, .singleSpace, "probe a b c"⟩
    let d : Directive := ⟨["probe", "", "\u00a0", "x\t"]⟩
    g.parse (some "probe  \u00a0 x\t  ") = .ok d ∧ g.parse (some "probe  \u00a0 x\t") = .ok d := by
  intro g d
  have hparse : g.parse (some "probe  \u00a0 x\t  ") = .ok d := by decide +kernel
  have hline : d.line = "probe  \u00a0 x\t" := by decide +kernel
  obtain ⟨-, -, -, -, hagain⟩ := split_and_join_are_inverse
  rw [← hline]
  exact ⟨hparse, hagain g _ d hparse⟩

end SplitPolicy
end RowDirectives
