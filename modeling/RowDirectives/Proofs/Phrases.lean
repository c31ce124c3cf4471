import Mathlib.Data.List.Forall2
import RowDirectives.Proofs.Reading
import RowDirectives.Proofs.Refusals
import RowDirectives.Proofs.Spacing

/-! The language of each kind of directive: which lines it reads, and what each of them says. A rename is
cut at runs of blanks; the other kinds are cut at single spaces, so a column may be empty or hold any other
blank. Only at the end of a line do delimiters not count. -/
namespace RowDirectives

open Number (Signed Unsigned)
open Text (Marked Unmarked)

theorem Text.toLower_eq_iff {c letter : Char} (h : letter.isLower = true) :
    c.toLower = letter ↔ c = letter ∨ c = letter.toUpper := by
  obtain ⟨hfirst, hlast⟩ := Bool.and_eq_true_iff.mp h
  have hfirst : 97 ≤ letter.toNat := UInt32.le_iff_toNat_le.mp (of_decide_eq_true hfirst)
  have hlast : letter.toNat ≤ 122 := UInt32.le_iff_toNat_le.mp (of_decide_eq_true hlast)
  have hlower : c.toLower.toNat = if 65 ≤ c.toNat ∧ c.toNat ≤ 90 then c.toNat + 32 else c.toNat := by
    unfold Char.toLower
    grind [UInt32.toNat_add, Char.toNat_val, Char.toNat_mk, UInt32.le_iff_toNat_le]
  have hupper : letter.toUpper.toNat = letter.toNat - 32 := by
    unfold Char.toUpper
    grind [UInt32.toNat_add, Char.toNat_val, Char.toNat_mk, UInt32.le_iff_toNat_le]
  rw [← Char.toNat_inj, ← Char.toNat_inj, ← Char.toNat_inj, hlower, hupper]
  split <;> omega

namespace Side

/-- The name of the side, each of its letters small or capital. -/
def Named (side : Side) (token : List Char) : Prop :=
  List.Forall₂ (fun c letter => c = letter ∨ c = letter.toUpper) token side.name.toList

theorem named_iff {side : Side} {token : List Char} :
    side.Named token ↔ token.map Char.toLower = side.name.toList := by
  have hname : ∀ letter ∈ side.name.toList, letter.isLower = true := by
    rw [← List.all_eq_true]
    cases side <;> rfl
  unfold Named
  generalize side.name.toList = name at hname
  induction token generalizing name with
  | nil => cases name <;> simp
  | cons c token ih =>
    cases name with
    | nil => simp
    | cons letter name =>
      obtain ⟨hletter, hname⟩ := List.forall_mem_cons.mp hname
      simp [Text.toLower_eq_iff hletter, ih name hname]

theorem read_eq_ok {side : Side} {token : String} :
    Side.read token = .ok side ↔ side.Named token.toList := by
  rw [named_iff]
  simp only [Side.read]
  split
  · cases side <;> simp_all [name]
  · split <;> cases side <;> simp_all [name]

theorem Named.unmarked {side : Side} {token : List Char} (h : side.Named token) :
    Unmarked (· == ' ') token := by
  have hname : ' ' ∉ side.name.toList := by
    cases side <;> decide
  intro c hc
  rw [← named_iff.mp h] at hname
  have hspace : c ≠ ' ' := by
    rintro rfl
    exact hname (List.mem_map_of_mem (f := Char.toLower) hc)
  simpa using hspace

end Side

/-- The lines of each kind, and the stage that a line stands for. -/
inductive Spells : Kind → List Char → Stage → Prop
  | rename {source target : String} {gap gap' trail : List Char} :
      source ≠ "" → Unmarked Text.isBlank source.toList →
      target ≠ "" → Unmarked Text.isBlank target.toList →
      gap ≠ [] → Marked Text.isBlank gap → gap' ≠ [] → Marked Text.isBlank gap' →
      Marked Text.isBlank trail →
      Spells .rename
        ("rename".toList ++ (gap ++ (source.toList ++ (gap' ++ (target.toList ++ trail)))))
        (.rename source target)
  | toText {column : String} (trail : Nat) :
      column ≠ "" → Unmarked (· == ' ') column.toList →
      Spells .toText ("to-string".toList ++ ' ' :: (column.toList ++ List.replicate trail ' '))
        (.toText column)
  | maskRange {column first last : String} {start stop : Nat} (trail : Nat) :
      Unmarked (· == ' ') column.toList →
      Unsigned first.toList start → Unsigned last.toList stop →
      start ≤ stop → stop < Number.unsignedLimit →
      Spells .maskRange
        ("mask".toList ++ ' ' :: (column.toList ++ ' ' :: (first.toList ++ ' ' :: (last.toList ++
          List.replicate trail ' '))))
        (.mask column (.range start stop))
  | maskSubstitution {column name number : String} {side : Side} {cover : Char} {count : Nat}
      (trail : Nat) :
      Unmarked (· == ' ') column.toList → side.Named name.toList → cover ≠ ' ' →
      Signed number.toList (count : Int) → count < Number.signedLimit →
      Spells .maskSubstitution
        ("mask".toList ++ ' ' :: (column.toList ++ ' ' :: (name.toList ++ ' ' :: cover :: ' ' ::
          (number.toList ++ List.replicate trail ' '))))
        (.mask column (.substitution side cover count))

theorem Spells.exists_append {kind : Kind} {cs : List Char} {stage : Stage} (h : Spells kind cs stage) :
    ∃ rest, cs = kind.keyword.toList ++ rest := by
  cases h <;> exact ⟨_, rfl⟩

theorem Spells.isBlank_head {kind : Kind} {cs : List Char} {stage : Stage} {c : Char}
    (h : Spells kind cs stage) (hc : cs.head? = some c) : Text.isBlank c = false := by
  obtain ⟨rest, rfl⟩ := h.exists_append
  have hne : kind.keyword.toList ≠ [] := fun h => kind.keyword_ne_empty (String.toList_eq_nil_iff.mp h)
  rw [List.head?_append_of_ne_nil _ hne] at hc
  exact kind.unmarked_keyword c (List.mem_of_head? hc)

namespace Kind

variable {kind : Kind} {stage : Stage}

theorem read_some_eq_ok {line : String} : kind.read (some line) = .ok stage ↔
    ∃ arguments, kind.grammar.policy.split line = kind.keyword :: arguments ∧
      arguments.length + 1 = kind.grammar.arity ∧
      kind.stageOf ⟨kind.keyword :: arguments⟩ = .ok stage := by
  rw [read_eq_ok]
  constructor
  · rintro ⟨⟨tokens⟩, hparse, hstage⟩
    obtain ⟨_, hline, htokens, hsize, hhead⟩ := Grammar.parse_eq_ok.mp hparse
    obtain rfl := Option.some.inj hline
    obtain ⟨arguments, rfl⟩ := List.head?_eq_some_iff.mp hhead
    exact ⟨arguments, htokens.symm, hsize, hstage⟩
  · rintro ⟨arguments, htokens, hsize, hstage⟩
    exact ⟨_, Grammar.parse_eq_ok.mpr ⟨line, rfl, htokens.symm, hsize, rfl⟩, hstage⟩

theorem spells_of_read {line : String} (h : kind.read (some line) = .ok stage) :
    Spells kind line.toList stage := by
  obtain ⟨arguments, htokens, hsize, hstage⟩ := read_some_eq_ok.mp h
  obtain ⟨hadmits, rest, hline, hfollows⟩ := SplitPolicy.split_eq_cons_iff.mp htokens
  have hunmarked := (List.forall_mem_cons.mp hadmits.unmarked).2
  rw [hline]
  cases kind with
  | rename =>
    match arguments, hsize with
    | [source, target], _ =>
      change SplitPolicy.whitespace.Follows _ _ at hfollows
      simp only [List.map, SplitPolicy.follows_cons, SplitPolicy.follows_nil] at hfollows
      obtain ⟨gap, _, hgap, rfl, gap', trail, hgap', rfl, htrail⟩ := hfollows
      obtain ⟨hsource, htarget⟩ : source ≠ "" ∧ target ≠ "" := by simpa using hadmits.full rfl
      obtain rfl := Except.ok.inj hstage
      exact .rename hsource (hunmarked source (by simp)) htarget (hunmarked target (by simp))
        hgap.1 hgap.2 hgap'.1 hgap'.2 htrail
  | toText =>
    match arguments, hsize with
    | [column], _ =>
      change SplitPolicy.singleSpace.Follows _ _ at hfollows
      simp only [List.map, SplitPolicy.follows_singleSpace_cons,
        SplitPolicy.follows_singleSpace_nil] at hfollows
      obtain ⟨_, rfl, trail, rfl⟩ := hfollows
      obtain rfl := Except.ok.inj hstage
      exact .toText trail (by simpa using hadmits.last) (hunmarked column (by simp))
  | maskRange =>
    match arguments, hsize with
    | [column, first, last], _ =>
      change SplitPolicy.singleSpace.Follows _ _ at hfollows
      simp only [List.map, SplitPolicy.follows_singleSpace_cons,
        SplitPolicy.follows_singleSpace_nil] at hfollows
      obtain ⟨_, rfl, _, rfl, _, rfl, trail, rfl⟩ := hfollows
      obtain ⟨start, stop, hstart, hstop, hle, rfl⟩ := stageOf_maskRange_eq_ok.mp hstage
      obtain ⟨hstart, -⟩ := Number.unsigned?_eq_some.mp hstart
      obtain ⟨hstop, hlimit⟩ := Number.unsigned?_eq_some.mp hstop
      exact .maskRange trail (hunmarked column (by simp)) hstart hstop hle hlimit
  | maskSubstitution =>
    match arguments, hsize with
    | [column, name, coverToken, number], _ =>
      change SplitPolicy.singleSpace.Follows _ _ at hfollows
      simp only [List.map, SplitPolicy.follows_singleSpace_cons,
        SplitPolicy.follows_singleSpace_nil] at hfollows
      obtain ⟨_, rfl, _, rfl, _, rfl, _, rfl, trail, rfl⟩ := hfollows
      obtain ⟨side, cover, count, hside, hcover, hcount, rfl⟩ :=
        stageOf_maskSubstitution_eq_ok.mp hstage
      obtain ⟨hcount, -, hlimit⟩ := Number.signed?_eq_some.mp hcount
      have hspace : (cover == ' ') = false := by
        apply hunmarked coverToken (by simp)
        rw [hcover]
        exact List.mem_cons_self
      rw [hcover]
      exact .maskSubstitution trail (hunmarked column (by simp)) (Side.read_eq_ok.mp hside)
        (by simpa using hspace) hcount (Int.ofNat_lt.mp hlimit)

theorem read_of_follows {line : String} {arguments : List String} {rest : List Char}
    (hadmits : kind.grammar.policy.Admits (kind.keyword :: arguments))
    (hline : line.toList = kind.keyword.toList ++ rest)
    (hfollows : kind.grammar.policy.Follows (arguments.map String.toList) rest)
    (hsize : arguments.length + 1 = kind.grammar.arity)
    (hstage : kind.stageOf ⟨kind.keyword :: arguments⟩ = .ok stage) :
    kind.read (some line) = .ok stage :=
  read_some_eq_ok.mpr ⟨arguments,
    SplitPolicy.split_eq_cons_iff.mpr ⟨hadmits, rest, hline, hfollows⟩, hsize, hstage⟩

theorem admits_spaced {arguments : List String}
    (hunmarked : ∀ token ∈ arguments, Unmarked (· == ' ') token.toList)
    (hlast : ∃ token ∈ arguments.getLast?, token ≠ "") :
    SplitPolicy.singleSpace.Admits (kind.keyword :: arguments) := by
  rw [SplitPolicy.admits_singleSpace_iff]
  obtain ⟨token, hmem, hne⟩ := hlast
  have hkeyword := SplitPolicy.singleSpace.unmarked_of_isBlank kind.unmarked_keyword
  refine ⟨List.forall_mem_cons.mpr ⟨hkeyword, hunmarked⟩, ?_⟩
  simp [List.getLast?_cons, Option.mem_def.mp hmem, hne]

theorem read_of_spells {line : String} (h : Spells kind line.toList stage) :
    kind.read (some line) = .ok stage := by
  have spaceless {w : List Char} (hw : Unmarked Text.isBlank w) : Unmarked (· == ' ') w :=
    SplitPolicy.singleSpace.unmarked_of_isBlank hw
  generalize hline : line.toList = cs at h
  cases h with
  | @rename source target gap gap' trail hsource hsource' htarget htarget' hgap hgap' hmid hmid'
      htrail =>
    have hadmits : SplitPolicy.whitespace.Admits [Kind.rename.keyword, source, target] :=
      ⟨by simpa using ⟨Kind.rename.unmarked_keyword, hsource', htarget'⟩,
        by simpa using ⟨hsource, htarget⟩, by simpa using htarget⟩
    exact read_of_follows hadmits hline
      (.token ⟨hgap, hgap'⟩ (.token ⟨hmid, hmid'⟩ (.trail htrail))) rfl rfl
  | @toText column trail hcolumn hcolumn' =>
    have hadmits : SplitPolicy.singleSpace.Admits [Kind.toText.keyword, column] :=
      admits_spaced (by simpa using hcolumn') (by simpa using hcolumn)
    exact read_of_follows hadmits hline ((SplitPolicy.Follows.spaces trail).space _) rfl rfl
  | @maskRange column first last start stop trail hcolumn hstart hstop hle hlimit =>
    have hadmits : SplitPolicy.singleSpace.Admits [Kind.maskRange.keyword, column, first, last] :=
      admits_spaced (by simpa using ⟨hcolumn, spaceless hstart.unmarked, spaceless hstop.unmarked⟩)
        (by simpa using hstop.ne_nil)
    refine read_of_follows hadmits hline
      ((((SplitPolicy.Follows.spaces trail).space _).space _).space _) rfl ?_
    have hstart' := Number.unsigned?_eq_some.mpr ⟨hstart, Nat.lt_of_le_of_lt hle hlimit⟩
    have hstop' := Number.unsigned?_eq_some.mpr ⟨hstop, hlimit⟩
    exact stageOf_maskRange_eq_ok.mpr ⟨start, stop, hstart', hstop', hle, rfl⟩
  | @maskSubstitution column name number side cover count trail hcolumn hside hcover hcount hlimit =>
    have hcover' : Unmarked (· == ' ') [cover] := by simpa [Unmarked] using hcover
    have hadmits : SplitPolicy.singleSpace.Admits
        [Kind.maskSubstitution.keyword, column, name, String.singleton cover, number] :=
      admits_spaced (by simpa using ⟨hcolumn, hside.unmarked, hcover', spaceless hcount.unmarked⟩)
        (by simpa using hcount.ne_nil)
    have hfollows : SplitPolicy.singleSpace.Follows
        ([column, name, String.singleton cover, number].map String.toList)
        (' ' :: (column.toList ++ ' ' :: (name.toList ++ ' ' :: cover :: ' ' ::
          (number.toList ++ List.replicate trail ' ')))) := by
      simpa using ((((SplitPolicy.Follows.spaces trail).space number.toList).space [cover]).space
        name.toList).space column.toList
    have hcount' := Number.signed?_eq_some.mpr ⟨hcount, by omega, Int.ofNat_lt.mpr hlimit⟩
    exact read_of_follows hadmits hline hfollows rfl (stageOf_maskSubstitution_eq_ok.mpr
      ⟨side, cover, count, Side.read_eq_ok.mpr hside, String.toList_singleton cover, hcount', rfl⟩)

theorem read_eq_ok_iff_spells {line? : Option String} : kind.read line? = .ok stage ↔
    ∃ line, line? = some line ∧ Spells kind line.toList stage := by
  cases line? with
  | none => simp [read, Grammar.parse, Except.bind]
  | some line => simpa using ⟨spells_of_read, read_of_spells⟩

/-- A line is read by a kind exactly if it is one of its phrases, and as the stage that the phrase spells.
Whatever else is given, a missing line included, is refused as an invalid directive; so is each line that
starts with a blank, since a phrase starts with its keyword. -/
theorem read_accepts_exactly_phrases (kind : Kind) (line? : Option String) :
    (∀ stage, kind.read line? = .ok stage ↔
      ∃ line, line? = some line ∧ Spells kind line.toList stage) ∧
    ((∀ line stage, line? = some line → ¬ Spells kind line.toList stage) →
      ∃ fault, kind.read line? = .error fault ∧ fault.isInvalidDirective = true) ∧
    ∀ line c, line? = some line → line.toList.head? = some c → Text.isBlank c = true →
      ∃ fault, kind.read line? = .error fault ∧ fault.isInvalidDirective = true := by
  refine ⟨fun stage => read_eq_ok_iff_spells, ?_, ?_⟩
  · intro h
    apply (kind.onlyInvalid_read line?).exists_fault
    intro stage hread
    obtain ⟨line, hline, hspells⟩ := read_eq_ok_iff_spells.mp hread
    exact h line stage hline hspells
  · rintro line c rfl hhead hblank
    apply (kind.onlyInvalid_read _).exists_fault
    intro stage hread
    have hfirst := (spells_of_read hread).isBlank_head hhead
    rw [hblank] at hfirst
    cases hfirst

theorem read_accepts_exactly_phrases_with_odd_tokens :
    maskSubstitution.read (some "mask  LeFT \t -0  ") =
      .ok (.mask "" (.substitution .left '\t' 0)) ∧
    (∃ fault, maskRange.read (some "mask c 5 +3") = .error fault ∧
      fault.isInvalidDirective = true) ∧
    ∃ fault, toText.read (some "\u00a0to-string c") = .error fault ∧
      fault.isInvalidDirective = true := by
  refine ⟨?_, ?_, ?_⟩
  · have hside : Side.left.Named "LeFT".toList := Side.named_iff.mpr (by decide)
    have hzero : Number.Numeral ['0'] 0 := ⟨by decide, by simp, rfl⟩
    have hcount : Signed "-0".toList ((0 : Nat) : Int) := .minus hzero
    have hspells := @Spells.maskSubstitution "" "LeFT" "-0" .left '\t' 0 2 (by decide) hside
      (by decide) hcount (by decide)
    exact ((read_accepts_exactly_phrases _ _).1 _).mpr ⟨"mask  LeFT \t -0  ", rfl, hspells⟩
  · apply (read_accepts_exactly_phrases _ _).2.1
    intro line stage hline hspells
    have hread := ((read_accepts_exactly_phrases _ _).1 _).mpr ⟨line, hline, hspells⟩
    have hreversed : maskRange.read (some "mask c 5 +3") =
        .error (.invalidDirective "from_position 5 is greater than to_position 3.") := by
      decide +kernel
    rw [hreversed] at hread
    cases hread
  · exact (read_accepts_exactly_phrases _ _).2.2 _ '\u00a0' rfl (by decide) (by decide)

end Kind
end RowDirectives
