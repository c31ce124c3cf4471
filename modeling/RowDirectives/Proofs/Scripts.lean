import Mathlib.Data.List.DropRight
import RowDirectives.Proofs.CanonicalText
import RowDirectives.Proofs.Phrases

/-! A compiled script, written out as its directives, is read again line by line. What a script reader
hands on is a line that it would hand on unchanged, and the canonical text of a stage that was read from
such a line is such a line too: its last token keeps a character that is not blank, and nothing in it
breaks the line. -/
namespace RowDirectives

open Text (Unmarked isBlank)

namespace Text

variable {cs : List Char} {c : Char}

theorem isBlank_head_dropWhile (h : (cs.dropWhile isBlank).head? = some c) : isBlank c = false := by
  have hstop := List.head?_dropWhile_not isBlank cs
  rwa [h] at hstop

theorem dropWhile_eq_self (h : cs.head? = some c) (hc : isBlank c = false) :
    cs.dropWhile isBlank = cs := by
  obtain ⟨rest, rfl⟩ := List.head?_eq_some_iff.mp h
  exact List.dropWhile_cons_of_neg (by simp [hc])

theorem trim_append (cs : List Char) : ∃ trail, trim cs ++ trail = cs.dropWhile isBlank :=
  List.rdropWhile_prefix isBlank _

theorem mem_of_mem_trim (h : c ∈ trim cs) : c ∈ cs := by
  obtain ⟨trail, htrail⟩ := trim_append cs
  apply (List.dropWhile_sublist isBlank).subset
  rw [← htrail]
  exact List.mem_append_left trail h

theorem isBlank_head_trim (h : (trim cs).head? = some c) : isBlank c = false := by
  obtain ⟨trail, htrail⟩ := trim_append cs
  have hhead : (cs.dropWhile isBlank).head? = some c := by simp [← htrail, h]
  exact isBlank_head_dropWhile hhead

theorem isBlank_last_trim (h : (trim cs).getLast? = some c) : isBlank c = false := by
  rw [trim, List.getLast?_reverse] at h
  exact isBlank_head_dropWhile h

theorem trim_eq_self {first last : Char} (hfirst : cs.head? = some first)
    (hfirst' : isBlank first = false) (hlast : cs.getLast? = some last)
    (hlast' : isBlank last = false) : trim cs = cs := by
  rw [← List.head?_reverse] at hlast
  rw [trim, dropWhile_eq_self hfirst hfirst', dropWhile_eq_self hlast hlast', List.reverse_reverse]

theorem getLast?_of_append_spaces {n : Nat} (hc : isBlank c = false)
    (h : (cs ++ List.replicate n ' ').getLast? = some c) : cs.getLast? = some c := by
  cases n with
  | zero => simpa using h
  | succ n =>
    obtain rfl : ' ' = c := by simpa [List.getLast?_append, List.getLast?_replicate] using h
    rw [isBlank_space] at hc
    cases hc

end Text

namespace Script

/-- What stays of a line of a script, if anything stays of it. -/
structure Plain (line : List Char) : Prop where
  unbroken : Unmarked (· == '\n') line
  first : ∃ c ∈ line.head?, isBlank c = false ∧ c ≠ '#'
  last : ∃ c ∈ line.getLast?, isBlank c = false

theorem Plain.trim_eq {line : List Char} (h : Plain line) : Text.trim line = line := by
  obtain ⟨first, hfirst, hfirst', -⟩ := h.first
  obtain ⟨last, hlast, hlast'⟩ := h.last
  exact Text.trim_eq_self hfirst hfirst' hlast hlast'

theorem Plain.isDirective {line : List Char} (h : Plain line) : isDirective line = true := by
  obtain ⟨first, hfirst, -, hcomment⟩ := h.first
  obtain ⟨rest, rfl⟩ := List.head?_eq_some_iff.mp hfirst
  simpa [Script.isDirective] using hcomment

theorem plain_of_mem_lines {script line : List Char} (h : line ∈ lines script) : Plain line := by
  obtain ⟨hmem, hdirective⟩ := List.mem_filter.mp h
  obtain ⟨piece, hpiece, rfl⟩ := List.mem_map.mp hmem
  have hne : Text.trim piece ≠ [] := by
    intro hempty
    simp [isDirective, hempty] at hdirective
  constructor
  case unbroken => exact fun c hc => Text.unmarked_of_mem_pieces hpiece c (Text.mem_of_mem_trim hc)
  case first =>
    obtain ⟨c, rest, hcons⟩ := List.exists_cons_of_ne_nil hne
    have hhead : (Text.trim piece).head? = some c := by rw [hcons, List.head?_cons]
    refine ⟨c, hhead, Text.isBlank_head_trim hhead, ?_⟩
    simpa [isDirective, hcons] using hdirective
  case last =>
    have hlast := List.getLast?_eq_some_getLast hne
    exact ⟨_, hlast, Text.isBlank_last_trim hlast⟩

theorem lines_intercalate {ls : List (List Char)} (h : ∀ line ∈ ls, Plain line) :
    lines (['\n'].intercalate ls) = ls := by
  by_cases hne : ls = []
  · subst hne
    rfl
  · have htrim : ls.map Text.trim = ls := by
      rw [List.map_congr_left fun line hline => (h line hline).trim_eq, List.map_id']
    rw [lines, Text.pieces_intercalate rfl hne fun line hline => (h line hline).unbroken, htrim]
    exact List.filter_eq_self.mpr fun line hline => (h line hline).isDirective

theorem directives_intercalate {ds : List String} (h : ∀ d ∈ ds, Plain d.toList) :
    directives ("\n".intercalate ds) = ds := by
  have hplain : ∀ line ∈ ds.map String.toList, Plain line := by simpa using h
  rw [directives, String.toList_intercalate]
  change (lines (['\n'].intercalate _)).map _ = _
  rw [lines_intercalate hplain, List.map_map]
  simp

end Script

theorem Stage.toList_line (stage : Stage) : stage.line.toList =
    stage.keyword.toList ++ stage.arguments.flatMap fun token => ' ' :: token.toList := by
  rw [line, String.toList_intercalate, List.map_cons]
  generalize stage.keyword.toList = w
  induction stage.arguments generalizing w with
  | nil => simp
  | cons token rest ih =>
    rw [List.map_cons, List.intercalate_cons_cons, ih]
    simp

theorem Stage.plain_line {stage : Stage}
    (hunbroken : ∀ token ∈ stage.arguments, Unmarked (· == '\n') token.toList)
    (hlast : ∃ token ∈ stage.arguments.getLast?, ∃ c ∈ token.toList.getLast?, isBlank c = false) :
    Script.Plain stage.line.toList := by
  obtain ⟨hkeyword, first, hfirst, hcomment⟩ : Unmarked (· == '\n') stage.keyword.toList ∧
      ∃ c ∈ stage.keyword.toList.head?, isBlank c = false ∧ c ≠ '#' := by
    unfold keyword
    cases stage.kind <;> refine ⟨by decide, _, rfl, by decide⟩
  obtain ⟨token, htoken, last, hlast, hblank⟩ := hlast
  rw [toList_line]
  constructor
  case unbroken =>
    refine List.forall_mem_append.mpr ⟨hkeyword, ?_⟩
    intro c hc
    obtain ⟨token, htoken, hc⟩ := List.mem_flatMap.mp hc
    rcases List.mem_cons.mp hc with rfl | hc
    · rfl
    · exact hunbroken token htoken c hc
  case first => exact ⟨first, by simp [Option.mem_def.mp hfirst], hcomment⟩
  case last =>
    obtain ⟨before, hbefore⟩ := List.getLast?_eq_some_iff.mp htoken
    obtain ⟨front, hfront⟩ := List.getLast?_eq_some_iff.mp hlast
    refine ⟨last, ?_, hblank⟩
    rw [hbefore, List.flatMap_append, List.flatMap_singleton, hfront, ← List.cons_append,
      ← List.append_assoc, ← List.append_assoc, List.getLast?_concat]
    rfl

/-- A text without blanks can be the last token of a line. -/
theorem Text.Unmarked.exists_last {cs : List Char} (h : Unmarked isBlank cs) (hne : cs ≠ []) :
    ∃ c ∈ cs.getLast?, isBlank c = false :=
  ⟨_, List.getLast?_eq_some_getLast hne, h _ (List.getLast_mem hne)⟩

theorem Text.Unmarked.unbroken {cs : List Char} (h : Unmarked isBlank cs) :
    Unmarked (· == '\n') cs := by
  intro c hc
  have hblank := h c hc
  apply beq_eq_false_iff_ne.mpr
  rintro rfl
  rw [Text.isBlank_newline] at hblank
  cases hblank

theorem Spells.unbroken_arguments {kind : Kind} {cs : List Char} {stage : Stage}
    (h : Spells kind cs stage) (hcs : Unmarked (· == '\n') cs) :
    ∀ token ∈ stage.arguments, Unmarked (· == '\n') token.toList := by
  have unbroken_of_subset {w : List Char} (hw : w ⊆ cs) : Unmarked (· == '\n') w :=
    fun c hc => hcs c (hw hc)
  have hnumber (n : Nat) : Unmarked (· == '\n') (Number.text n).toList :=
    (Number.unmarked_text n).unbroken
  cases h with
  | rename _ hsource _ htarget =>
    simpa [Stage.arguments] using ⟨hsource.unbroken, htarget.unbroken⟩
  | @toText column =>
    have hcolumn := @unbroken_of_subset column.toList fun c hc => by simp [hc]
    simpa [Stage.arguments] using hcolumn
  | @maskRange column _ _ start stop =>
    have hcolumn := @unbroken_of_subset column.toList fun c hc => by simp [hc]
    simpa [Stage.arguments] using ⟨hcolumn, hnumber start, hnumber stop⟩
  | @maskSubstitution column _ _ side cover count =>
    have hcolumn := @unbroken_of_subset column.toList fun c hc => by simp [hc]
    have hcover := @unbroken_of_subset [cover] fun c hc => by simp [List.mem_singleton.mp hc]
    have hside : Unmarked (· == '\n') side.name.toList := by
      cases side <;> decide
    simpa [Stage.arguments] using ⟨hcolumn, hside, hcover, hnumber count⟩

theorem Spells.exists_last {kind : Kind} {cs : List Char} {stage : Stage}
    (h : Spells kind cs stage) (hcs : ∃ c ∈ cs.getLast?, isBlank c = false) :
    ∃ token ∈ stage.arguments.getLast?, ∃ c ∈ token.toList.getLast?, isBlank c = false := by
  have hnumber (n : Nat) : ∃ c ∈ (Number.text n).toList.getLast?, isBlank c = false :=
    (Number.unmarked_text n).exists_last (by simpa using Number.text_ne_empty n)
  cases h with
  | @rename _ target _ _ _ _ _ htarget htarget' =>
    exact ⟨target, rfl, htarget'.exists_last (by simpa using htarget)⟩
  | @toText column trail hcolumn =>
    -- A column may end in blanks, but here the line would end in them too.
    obtain ⟨c, hlast, hblank⟩ := hcs
    rw [← List.cons_append, ← List.append_assoc] at hlast
    have hlast := Text.getLast?_of_append_spaces hblank hlast
    rw [List.getLast?_append_of_ne_nil _ (List.cons_ne_nil _ _), List.getLast?_cons_of_ne_nil
      (by simpa using hcolumn)] at hlast
    exact ⟨column, rfl, c, hlast, hblank⟩
  | @maskRange _ _ _ _ stop => exact ⟨_, rfl, hnumber stop⟩
  | @maskSubstitution _ _ _ _ _ count => exact ⟨_, rfl, hnumber count⟩

theorem Spells.plain_line {kind : Kind} {cs : List Char} {stage : Stage} (h : Spells kind cs stage)
    (hplain : Script.Plain cs) : Script.Plain stage.line.toList :=
  Stage.plain_line (h.unbroken_arguments hplain.unbroken) (h.exists_last hplain.last)

namespace Pipeline

variable {r : Registry} {script : String} {p : Pipeline}

theorem plain_of_compileScript (h : (compileScript r script).1 = .ok p) {stage : Stage}
    (hstage : stage ∈ p.stages) : Script.Plain stage.line.toList := by
  obtain ⟨line?, hline?, hread⟩ := exists_line_of_mem (compile_eq_ok.mp h) hstage
  obtain ⟨line, hline, rfl⟩ := List.mem_map.mp hline?
  obtain ⟨cs, hcs, rfl⟩ := List.mem_map.mp hline
  obtain ⟨_, hsome, -, hread⟩ := Registry.read_eq_ok.mp hread
  obtain rfl := Option.some.inj hsome
  have hspells := Kind.spells_of_read hread
  rw [String.toList_ofList] at hspells
  exact hspells.plain_line (Script.plain_of_mem_lines hcs)

/-- The directives of a compiled script, one on each line, are a script that holds exactly these directives
and compiles to the same pipeline. -/
theorem compileScript_directives (r : Registry) (script : String) (p : Pipeline)
    (h : (compileScript r script).1 = .ok p) :
    Script.directives ("\n".intercalate p.directives) = p.directives ∧
    (compileScript r ("\n".intercalate p.directives)).1 = .ok p := by
  have hread : Script.directives ("\n".intercalate p.directives) = p.directives := by
    apply Script.directives_intercalate
    intro line hline
    obtain ⟨stage, hstage, rfl⟩ := List.mem_map.mp hline
    exact plain_of_compileScript h hstage
  refine ⟨hread, ?_⟩
  rw [compileScript, hread]
  exact compile_directives h

theorem compileScript_directives_of_odd_lines :
    (compileScript .default "# masks\r\n\t mask  LEFT # 04  \r\n\nto-string a\rb\u2028#\t").1 =
      .ok ⟨[.mask "" (.substitution .left '#' 4), .toText "a\rb\u2028#"]⟩ ∧
    (compileScript .default "mask  left # 4\nto-string a\rb\u2028#").1 =
      .ok ⟨[.mask "" (.substitution .left '#' 4), .toText "a\rb\u2028#"]⟩ := by
  have hcompiled : (compileScript .default
      "# masks\r\n\t mask  LEFT # 04  \r\n\nto-string a\rb\u2028#\t").1 =
        .ok ⟨[.mask "" (.substitution .left '#' 4), .toText "a\rb\u2028#"]⟩ := by
    decide +kernel
  exact ⟨hcompiled, (compileScript_directives .default _ _ hcompiled).2⟩

end Pipeline
end RowDirectives
