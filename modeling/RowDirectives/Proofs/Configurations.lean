import Mathlib.Data.List.Permutation
import RowDirectives.Config
import RowDirectives.Proofs.TreeReaders

/-! The ways in which the same directives are supplied: a configuration in JSON, a script, a file of either. A
configuration in JSON is read from its members in any order; members that are left out have their defaults, and
the first member of another name is refused. A script and its configuration then build the same pipeline. -/
namespace RowDirectives.Config

open Json

namespace Parts

/-- The members that stand for the parts that are given. -/
def members (parts : Parts) : List (String × Json) :=
  (parts.maskGrammar?.map fun g => ("mask_grammar", Json.string g.storedName)).toList ++
    (parts.directives?.map fun ds => ("directives", Json.array (ds.map Json.string))).toList

end Parts

section Reading

variable {parts : Parts} {members : List (String × Json)} {text key : String} {value : Json}

theorem maskGrammarOfTree_tree (g : MaskGrammar) :
    maskGrammarOfTree (Json.string g.storedName).tree = .ok g := by
  cases g <;> rfl

theorem directivesOfTree_tree (ds : List String) :
    directivesOfTree (Json.array (ds.map .string)).tree = .ok ds := by
  rw [directivesOfTree, Tree.listOf_tree (by decide), itemTrees_eq_map, List.map_map, mapM_eq_ok,
    List.forall₂_map_left_iff, List.forall₂_same]
  exact fun d _ => rfl

theorem entry_maskGrammar (h : parts.maskGrammar? = none) (g : MaskGrammar) :
    entry parts "mask_grammar" (Json.string g.storedName).tree =
      .ok { parts with maskGrammar? := some g } := by
  simp [entry, h, maskGrammarOfTree_tree, Except.map]

theorem entry_directives (h : parts.directives? = none) (ds : List String) :
    entry parts "directives" (Json.array (ds.map .string)).tree =
      .ok { parts with directives? := some ds } := by
  simp [entry, h, directivesOfTree_tree, Except.map]

theorem entry_unknown (h : knownFields.contains key = false) (parts : Parts) (tree : Tree) :
    entry parts key tree = .error (.unknownField key knownFields) := by
  obtain ⟨hmask, hdirectives⟩ : key ≠ "mask_grammar" ∧ key ≠ "directives" := by
    simpa [knownFields] using h
  rw [entry, if_neg hmask, if_neg hdirectives]

/-- The order of the members does not matter. -/
theorem entriesInto_members (h : members.Perm parts.members) :
    Tree.entriesInto entry Parts.empty (memberTrees members) = .ok parts := by
  rcases parts with ⟨_ | g, _ | ds⟩
  · rw [List.perm_nil.mp h]
    rfl
  · rw [List.perm_singleton.mp h, Tree.entriesInto_cons, entry_directives rfl]
    rfl
  · rw [List.perm_singleton.mp h, Tree.entriesInto_cons, entry_maskGrammar rfl]
    rfl
  · rcases List.perm_pair.mp h with rfl | rfl
    · rw [Tree.entriesInto_cons, entry_maskGrammar rfl, Except.bind, Tree.entriesInto_cons,
        entry_directives rfl]
      rfl
    · rw [Tree.entriesInto_cons, entry_directives rfl, Except.bind, Tree.entriesInto_cons,
        entry_maskGrammar rfl]
      rfl

/-- The first member of another name is refused, since what stands before it can be read. -/
theorem entriesInto_unknown (h : (members.filter fun m => knownFields.contains m.1).Perm parts.members)
    (hkey : members.find? (fun m => !knownFields.contains m.1) = some (key, value)) :
    Tree.entriesInto entry Parts.empty (memberTrees members) =
      .error (.unknownField key knownFields) := by
  obtain ⟨hunknown, before, after, rfl, hbefore⟩ := List.find?_eq_some_iff_append.mp hkey
  have hknown : (before.filter fun m => knownFields.contains m.1) = before :=
    List.filter_eq_self.mpr fun m hm => by simpa using hbefore m hm
  rw [List.filter_append, hknown] at h
  have hread := entriesInto_members h
  rw [Tree.entriesInto_append] at hread ⊢
  cases hstate : Tree.entriesInto entry Parts.empty (memberTrees before) with
  | error mismatch => simp [hstate, Except.bind] at hread
  | ok state =>
    rw [Except.bind, Tree.entriesInto_cons, entry_unknown (by simpa using hunknown)]
    rfl

theorem ofJsonText_members (h : members.Perm parts.members) (htext : (object members).Writes text) :
    ofJsonText text = .ok parts.config := by
  rw [ofJsonText, htext.decode_eq, tree, ofTree, entriesInto_members h]
  rfl

theorem message_unknownField (key : String) : (Mismatch.unknownField key knownFields).message =
    "unknown field `" ++ key ++ "`, expected `mask_grammar` or `directives`" := by
  have hchoice : Mismatch.choice knownFields = "`mask_grammar` or `directives`" := rfl
  change "unknown field `" ++ key ++ "`, expected " ++ Mismatch.choice knownFields = _
  rw [hchoice]
  simp [String.append_assoc]

theorem ofJsonText_unknown (h : (members.filter fun m => knownFields.contains m.1).Perm parts.members)
    (hkey : members.find? (fun m => !knownFields.contains m.1) = some (key, value))
    (htext : (object members).Writes text) :
    ∃ place : String, ofJsonText text = .error (.config
      s!"Invalid JSON config: unknown field `{key}`, expected `mask_grammar` or `directives`{place}") := by
  refine ⟨"", ?_⟩
  rw [ofJsonText, htext.decode_eq, tree, ofTree, entriesInto_unknown h hkey]
  simp [bind, Except.bind, Except.mapError, message_unknownField, toString, ← String.append_assoc]

end Reading

section Paths

variable {path name : List Char}

theorem lastPart_of_pieces {before : List (List Char)}
    (h : Text.pieces (· == '/') path = before ++ [name]) (full : name ≠ []) (proper : name ≠ ['.']) :
    lastPart path = name := by
  have hkept : (name != [] && name != ['.']) = true := by simp [full, proper]
  rw [lastPart, h, List.filter_append, List.filter_singleton, hkept]
  simp

theorem pieces_of_name (plain : '/' ∉ name) : Text.pieces (· == '/') name = [name] := by
  have hname : Text.Unmarked (· == '/') name := by
    intro c hc
    exact beq_eq_false_iff_ne.mpr fun heq => plain (heq ▸ hc)
  rw [Text.pieces_eq_splitOnP, List.splitOnP_eq_singleton hname]

/-- The folder in which a file lies does not tell its format. -/
theorem formatOf_in_folder (folder : String) {name : String} (plain : '/' ∉ name.toList)
    (full : name ≠ "") (proper : name ≠ ".") : formatOf (folder ++ "/" ++ name) = formatOf name := by
  have hfull : name.toList ≠ [] := by simpa using full
  have hproper : name.toList ≠ ['.'] := fun h => proper (String.toList_inj.mp h)
  have hname := pieces_of_name plain
  have hpath : Text.pieces (· == '/') (folder ++ "/" ++ name).toList =
      Text.pieces (· == '/') folder.toList ++ [name.toList] := by
    rw [String.toList_append, String.toList_append, List.append_assoc, ← hname]
    exact Text.pieces_append rfl _ _
  rw [formatOf, lastPart_of_pieces hpath hfull hproper, formatOf,
    @lastPart_of_pieces _ _ [] hname hfull hproper]

end Paths

theorem ofFile_toUTF8 (path source : String) :
    ofFile path (some source.toUTF8) = match formatOf path with
      | .json => ofJsonText source
      | .yaml => ofYamlText source
      | .script => .ok (ofScript source) := by
  have hsource : String.fromUTF8? source.toUTF8 = some source := dif_pos source.isValidUTF8
  cases hformat : formatOf path <;> simp only [ofFile, hsource, hformat]

/-- A configuration is read from its members in any order, with any spaces between what is written of them.
What is left out has its default, and one member of another name is enough for an error; the message tells the
name, and whether it goes on after that is left open. So the directives of a script build the same pipeline, with
the same report, or are refused with the same fault, whether they come in a configuration, as the script itself
or in a file. The extension of the file's own name tells which of them it is, in whatever folder it lies. -/
theorem configurations_build_what_scripts_do :
    (∀ c : Config, ofJsonText c.toJson.render = .ok c) ∧
    (∀ (g? : Option MaskGrammar) (ds? : Option (List String)) (members : List (String × Json)) (text : String),
      (members.filter fun m => knownFields.contains m.1).Perm (Parts.members ⟨g?, ds?⟩) →
      (object members).Writes text →
      match members.find? fun m => !knownFields.contains m.1 with
      | none => ofJsonText text = .ok ⟨g?.getD .substitution, ds?.getD []⟩
      | some (key, _) => ∃ place : String, ofJsonText text = .error (.config
          s!"Invalid JSON config: unknown field `{key}`, expected `mask_grammar` or `directives`{place}")) ∧
    (∀ (g : MaskGrammar) (script : String) (members : List (String × Json)) (text : String),
      members.Perm (Parts.members ⟨some g, some (Script.directives script)⟩) →
      (object members).Writes text →
      (ofJsonText text).map build = .ok (Pipeline.compileScript (.ofMaskGrammar g) script)) ∧
    (∀ (script path : String), formatOf path = .script →
      (ofFile path (some script.toUTF8)).map build =
        .ok (Pipeline.compileScript (.ofMaskGrammar .substitution) script)) ∧
    (∀ (text path : String), formatOf path = .json → ofFile path (some text.toUTF8) = ofJsonText text) ∧
    ∀ (folder name : String), '/' ∉ name.toList → name ≠ "" → name ≠ "." →
      formatOf (folder ++ "/" ++ name) = formatOf name := by
  refine ⟨?_, ?_, ?_, ?_, ?_, fun folder _ => formatOf_in_folder folder⟩
  · intro c
    have hswap : List.Perm _ (Parts.members ⟨some c.maskGrammar, some c.directives⟩) := .swap _ _ []
    exact ofJsonText_members hswap (writes_render _)
  · intro g? ds? members text h htext
    cases hfind : members.find? fun m => !knownFields.contains m.1 with
    | none =>
      have hknown : (members.filter fun m => knownFields.contains m.1) = members :=
        List.filter_eq_self.mpr fun m hm => by simpa using List.find?_eq_none.mp hfind m hm
      rw [hknown] at h
      exact ofJsonText_members h htext
    | some member => exact ofJsonText_unknown h hfind htext
  · intro g script members text h htext
    rw [ofJsonText_members h htext]
    rfl
  · intro script path h
    rw [ofFile_toUTF8, h]
    rfl
  · intro text path h
    rw [ofFile_toUTF8, h]

theorem configurations_build_what_scripts_do_from_odd_texts :
    ofJsonText " \x7b\"mask_grammar\":\n\"range\"\x7d" = .ok ⟨.range, []⟩ ∧
    (∃ place : String, ofJsonText (object [("directives", .array [.string "\""]), ("Directives", .null),
        ("mask_grammar", .string "range")]).render = .error (.config
      s!"Invalid JSON config: unknown field `Directives`, expected `mask_grammar` or `directives`{place}")) ∧
    (ofFile "configs/.json" (some "#\r\n to-string a\r\n".toUTF8)).map build =
      .ok (.ok ⟨[.toText "a"]⟩, [.compiledDirective "to-string a" .toText, .compiledPipeline 1]) := by
  obtain ⟨-, hjson, -, hfile, -, hfolder⟩ := configurations_build_what_scripts_do
  refine ⟨?_, ?_, ?_⟩
  · have hnone : Spaces [] := fun _ h => absurd h List.not_mem_nil
    have hspaces : Spaces [' '] ∧ Spaces ['\n'] := by simp [Spaces, isSpace]
    have htext : (object [("mask_grammar", .string "range")]).Writes " \x7b\"mask_grammar\":\n\"range\"\x7d" :=
      .lexeme hspaces.1 (.lexeme hnone (.lexeme hnone (.lexeme hspaces.2 (.lexeme hnone (.trail hnone)))))
    exact hjson (some .range) none _ _ (.refl _) htext
  · let members : List (String × Json) := [("directives", .array [.string "\""]), ("Directives", .null),
      ("mask_grammar", .string "range")]
    exact hjson (some .range) (some ["\""]) members _ (.swap _ _ _) (writes_render _)
  · have hformat : formatOf "configs/.json" = formatOf ".json" :=
      hfolder "configs" ".json" (by decide) (by decide) (by decide)
    rw [hfile _ _ (hformat.trans (by decide))]
    decide

end RowDirectives.Config
