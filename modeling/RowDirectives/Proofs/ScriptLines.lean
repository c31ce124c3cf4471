import RowDirectives.Proofs.Scripts

/-! Reading a script goes line by line: the directives of two scripts, one below the other, are those of the
first and then those of the second. How a line ends does not matter, because a carriage return before the
line feed is trimmed away with the other blanks. What is read is exactly the lists of plain lines. -/
namespace RowDirectives

open Text (isBlank)

namespace Text

variable {c : Char} {v w : List Char} {vs ws : List (List Char)}

/-- The lines as an editor shows them. A carriage return right before a line feed belongs to the end of the
line, one elsewhere belongs to the line, and the last line needs no end. -/
def brokenLines : List Char → List (List Char)
  | [] => []
  | c :: cs =>
    if c = '\n' then [] :: brokenLines cs
    else if c = '\r' ∧ cs.head? = some '\n' then brokenLines cs
    else consFirst c (brokenLines cs)

/-- The text with a carriage return before every line feed. -/
def withReturns (cs : List Char) : List Char :=
  cs.flatMap fun c => if c = '\n' then ['\r', '\n'] else [c]

/-- The second line is the first, or the first with a carriage return after it. -/
def MayReturn (w v : List Char) : Prop := v = w ∨ v = w ++ ['\r']

theorem trim_append_of_isBlank (hc : isBlank c = true) (cs : List Char) :
    trim (cs ++ [c]) = trim cs := by
  unfold trim
  rw [List.dropWhile_append]
  split
  case isTrue h =>
    rw [List.isEmpty_iff] at h
    rw [h, List.dropWhile_cons_of_pos hc, List.dropWhile_nil]
  case isFalse =>
    rw [List.reverse_append, List.reverse_singleton, List.singleton_append,
      List.dropWhile_cons_of_pos hc]

theorem MayReturn.trim_eq (h : MayReturn w v) : trim v = trim w := by
  rcases h with rfl | rfl
  · rfl
  · exact trim_append_of_isBlank isBlank_return w

theorem map_trim_of_mayReturn (h : List.Forall₂ MayReturn ws vs) : vs.map trim = ws.map trim := by
  induction h with
  | nil => rfl
  | cons hw _ ih => rw [List.map_cons, List.map_cons, hw.trim_eq, ih]

theorem mayReturn_consFirst (c : Char) (h : List.Forall₂ MayReturn ws vs) :
    List.Forall₂ MayReturn (consFirst c ws) (consFirst c vs) := by
  cases h with
  | nil => exact .cons (.inl rfl) .nil
  | cons hw hws => exact .cons (hw.imp (congrArg (List.cons c)) (congrArg (List.cons c))) hws

theorem mayReturn_withReturns (cs : List Char) :
    List.Forall₂ MayReturn (pieces (· == '\n') cs) (pieces (· == '\n') (withReturns cs)) := by
  induction cs with
  | nil => exact .cons (.inl rfl) .nil
  | cons c cs ih =>
    by_cases hc : c = '\n'
    case pos =>
      subst hc
      exact .cons (.inr rfl) ih
    case neg =>
      have hcons : withReturns (c :: cs) = c :: withReturns cs := by
        simp [withReturns, hc]
      rw [hcons, pieces, pieces, if_neg (mt beq_iff_eq.mp hc), if_neg (mt beq_iff_eq.mp hc)]
      exact mayReturn_consFirst c ih

/-- A cut at line feeds may find an empty piece after the last line, and leaves the carriage returns. -/
theorem mayReturn_brokenLines (cs : List Char) : ∃ rest, (rest = [] ∨ rest = [[]]) ∧
    List.Forall₂ MayReturn (brokenLines cs ++ rest) (pieces (· == '\n') cs) := by
  induction cs with
  | nil => exact ⟨[[]], .inr rfl, .cons (.inl rfl) .nil⟩
  | cons c cs ih =>
    obtain ⟨rest, hrest, hlines⟩ := ih
    rw [pieces, brokenLines]
    by_cases hc : c = '\n'
    case pos =>
      rw [if_pos (beq_iff_eq.mpr hc), if_pos hc]
      exact ⟨rest, hrest, .cons (.inl rfl) hlines⟩
    case neg =>
      rw [if_neg (mt beq_iff_eq.mp hc), if_neg hc]
      split
      case isTrue hreturn =>
        obtain ⟨rfl, hnext⟩ := hreturn
        obtain ⟨cs, rfl⟩ := List.head?_eq_some_iff.mp hnext
        cases hlines with
        | cons _ hlines => exact ⟨rest, hrest, .cons (.inr rfl) hlines⟩
      case isFalse =>
        cases hbroken : brokenLines cs with
        | nil =>
          -- The character is alone in the last line, and no piece is left over.
          rw [hbroken, List.nil_append] at hlines
          refine ⟨[], .inl rfl, ?_⟩
          rcases hrest with rfl | rfl
          · exact absurd (List.forall₂_nil_left_iff.mp hlines) (pieces_ne_nil _ cs)
          · exact mayReturn_consFirst c hlines
        | cons line lines =>
          rw [hbroken] at hlines
          exact ⟨rest, hrest, mayReturn_consFirst c hlines⟩

end Text

namespace Script

theorem lines_append (cs ds : List Char) : lines (cs ++ '\n' :: ds) = lines cs ++ lines ds := by
  unfold lines
  rw [Text.pieces_append rfl, List.map_append, List.filter_append]

theorem lines_withReturns (cs : List Char) : lines (Text.withReturns cs) = lines cs :=
  congrArg (List.filter isDirective) (Text.map_trim_of_mayReturn (Text.mayReturn_withReturns cs))

theorem lines_eq_brokenLines (cs : List Char) :
    lines cs = ((Text.brokenLines cs).map Text.trim).filter isDirective := by
  obtain ⟨rest, hrest, hlines⟩ := Text.mayReturn_brokenLines cs
  have hnone : (rest.map Text.trim).filter isDirective = [] := by
    rcases hrest with rfl | rfl <;> rfl
  rw [lines, Text.map_trim_of_mayReturn hlines, List.map_append, List.filter_append, hnone,
    List.append_nil]

theorem plain_of_mem_directives {script d : String} (h : d ∈ directives script) : Plain d.toList := by
  obtain ⟨line, hline, rfl⟩ := List.mem_map.mp h
  rw [String.toList_ofList]
  exact plain_of_mem_lines hline

/-- A script is read line by line, whether its lines end in a line feed alone or in a carriage return and a
line feed. Its directives are plain lines, and every list of plain lines is read from itself. -/
theorem directives_line_by_line :
    (∀ a b : String, directives (a ++ "\n" ++ b) = directives a ++ directives b) ∧
    (∀ script : String,
      directives (String.ofList (Text.withReturns script.toList)) = directives script) ∧
    (∀ script : String, directives script =
      (((Text.brokenLines script.toList).map Text.trim).filter isDirective).map String.ofList) ∧
    (∀ script : String, ∀ d ∈ directives script, Plain d.toList) ∧
    (∀ ds : List String, (∀ d ∈ ds, Plain d.toList) → directives ("\n".intercalate ds) = ds) ∧
    ∀ script : String, directives ("\n".intercalate (directives script)) = directives script := by
  refine ⟨?_, ?_, ?_, fun _ _ => plain_of_mem_directives, fun _ => directives_intercalate,
    fun _ => directives_intercalate fun _ => plain_of_mem_directives⟩
  · intro a b
    have htext : (a ++ "\n" ++ b).toList = a.toList ++ '\n' :: b.toList := by simp
    rw [directives, htext, lines_append, List.map_append]
    rfl
  · intro script
    rw [directives, String.toList_ofList, lines_withReturns]
    rfl
  · intro script
    rw [directives, lines_eq_brokenLines]

/-- A carriage return inside a line breaks nothing, nor does a number sign after its first character. -/
theorem directives_line_by_line_with_inner_returns :
    let ds := ["mask a\r\rb 0 5", "to-string c#"]
    (∀ d ∈ ds, Plain d.toList) ∧ directives ("\n".intercalate ds) = ds := by
  intro ds
  have hfirst : Plain "mask a\r\rb 0 5".toList :=
    ⟨by decide, ⟨'m', rfl, by decide⟩, ⟨'5', rfl, by decide⟩⟩
  have hlast : Plain "to-string c#".toList :=
    ⟨by decide, ⟨'t', rfl, by decide⟩, ⟨'#', rfl, by decide⟩⟩
  have hplain : ∀ d ∈ ds, Plain d.toList :=
    List.forall_mem_cons.mpr ⟨hfirst, List.forall_mem_singleton.mpr hlast⟩
  obtain ⟨-, -, -, -, hjoined, -⟩ := directives_line_by_line
  exact ⟨hplain, hjoined ds hplain⟩

end Script
end RowDirectives
