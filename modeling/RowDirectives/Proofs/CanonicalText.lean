import Mathlib.Data.List.Forall2
import RowDirectives.Pipeline
import RowDirectives.Proofs.Reading

/-! The canonical text of a stage that was read is read as the same stage. What a reader accepts is a stage
whose tokens its policy admits and whose numbers lie in range, and of such a stage nothing is lost. -/
namespace RowDirectives

open Text (Unmarked)

namespace Stage

def InRange : Stage → Prop
  | mask _ (.range start stop) => start ≤ stop ∧ stop < Number.unsignedLimit
  | mask _ (.substitution _ _ count) => count < Number.signedLimit
  | _ => True

def directive (stage : Stage) : Directive := ⟨stage.keyword :: stage.arguments⟩

/-- What reading guarantees, and all that reading the line of the stage again needs. -/
structure Readable (stage : Stage) : Prop where
  admits : stage.kind.grammar.policy.Admits stage.directive.tokens
  inRange : stage.InRange

theorem length_directive (stage : Stage) :
    stage.directive.tokens.length = stage.kind.grammar.arity := by
  cases stage with
  | rename source target => rfl
  | toText column => rfl
  | mask column m => cases m <;> rfl

theorem stageOf_directive {stage : Stage} (h : stage.InRange) :
    stage.kind.stageOf stage.directive = .ok stage := by
  cases stage with
  | rename source target => rfl
  | toText column => rfl
  | mask column m =>
    cases m with
    | range start stop =>
      obtain ⟨hle, hstop⟩ := h
      apply Kind.stageOf_maskRange_eq_ok.mpr
      have hstart : start < Number.unsignedLimit := Nat.lt_of_le_of_lt hle hstop
      exact ⟨start, stop, Number.unsigned?_text hstart, Number.unsigned?_text hstop, hle, rfl⟩
    | substitution side cover count =>
      apply Kind.stageOf_maskSubstitution_eq_ok.mpr
      exact ⟨side, cover, count, side.read_name, String.toList_singleton cover,
        Number.signed?_text h, rfl⟩

theorem Readable.split_line {stage : Stage} (h : stage.Readable) :
    stage.kind.grammar.policy.split stage.line = stage.directive.tokens :=
  SplitPolicy.split_intercalate h.admits

theorem Readable.read_line {stage : Stage} (h : stage.Readable) :
    stage.kind.read (some stage.line) = .ok stage :=
  Kind.read_eq_ok.mpr ⟨stage.directive,
    Grammar.parse_line h.admits stage.length_directive rfl, stageOf_directive h.inRange⟩

theorem admits_mask {column : String} {m : Mask} (hcolumn : Unmarked (· == ' ') column.toList)
    (hcover : m.cover ≠ ' ') :
    SplitPolicy.singleSpace.Admits (mask column m).directive.tokens := by
  have hkeyword : Unmarked (· == ' ') (mask column m).keyword.toList :=
    SplitPolicy.singleSpace.unmarked_of_isBlank (Kind.unmarked_keyword _)
  have hnumber (n : Nat) : Unmarked (· == ' ') (Number.text n).toList :=
    SplitPolicy.singleSpace.unmarked_of_isBlank (Number.unmarked_text n)
  rw [SplitPolicy.admits_singleSpace_iff]
  cases m with
  | range start stop =>
    refine ⟨?_, fun hlast => Number.text_ne_empty stop (Option.some.inj hlast)⟩
    simp only [directive, arguments, List.forall_mem_cons]
    exact ⟨hkeyword, hcolumn, hnumber start, hnumber stop, fun _ h => absurd h List.not_mem_nil⟩
  | substitution side cover count =>
    refine ⟨?_, fun hlast => Number.text_ne_empty count (Option.some.inj hlast)⟩
    have hside : Unmarked (· == ' ') side.name.toList := by
      cases side <;> decide
    have hsingle : Unmarked (· == ' ') (String.singleton cover).toList := by
      rw [String.toList_singleton]
      intro c hc
      rw [List.mem_singleton.mp hc]
      exact beq_eq_false_iff_ne.mpr hcover
    simp only [directive, arguments, List.forall_mem_cons]
    exact ⟨hkeyword, hcolumn, hside, hsingle, hnumber count, fun _ h => absurd h List.not_mem_nil⟩

theorem readable_of_read {kind : Kind} {line? : Option String} {stage : Stage}
    (h : kind.read line? = .ok stage) : stage.kind = kind ∧ stage.Readable := by
  obtain ⟨⟨tokens⟩, hparse, hstage⟩ := Kind.read_eq_ok.mp h
  have hadmits := Grammar.admits_of_parse hparse
  obtain ⟨-, -, -, harity, hkeyword⟩ := Grammar.parse_eq_ok.mp hparse
  cases kind with
  | rename =>
    match tokens, harity with
    | [keyword, source, target], _ =>
      obtain rfl := Option.some.inj hkeyword
      obtain rfl := Except.ok.inj hstage
      exact ⟨rfl, hadmits, trivial⟩
  | toText =>
    match tokens, harity with
    | [keyword, column], _ =>
      obtain rfl := Option.some.inj hkeyword
      obtain rfl := Except.ok.inj hstage
      exact ⟨rfl, hadmits, trivial⟩
  | maskRange =>
    match tokens, harity with
    | [keyword, column, first, last], _ =>
      obtain ⟨start, stop, hstart, hstop, hle, rfl⟩ := Kind.stageOf_maskRange_eq_ok.mp hstage
      have hcolumn := hadmits.unmarked column (by simp)
      have hcover : Mask.rangeCover ≠ ' ' := by decide
      exact ⟨rfl, admits_mask hcolumn hcover, hle, (Number.unsigned?_eq_some.mp hstop).2⟩
  | maskSubstitution =>
    match tokens, harity with
    | [keyword, column, sideToken, coverToken, countToken], _ =>
      obtain ⟨side, cover, count, hside, hcover, hcount, rfl⟩ :=
        Kind.stageOf_maskSubstitution_eq_ok.mp hstage
      have hcolumn := hadmits.unmarked column (by simp)
      have hspace : (cover == ' ') = false := by
        apply hadmits.unmarked coverToken (by simp)
        rw [hcover]
        exact List.mem_cons_self
      have hcovered : cover ≠ ' ' := by simpa using hspace
      exact ⟨rfl, admits_mask hcolumn hcovered, Int.ofNat_lt.mp (Number.signed?_eq_some.mp hcount).2.2⟩

end Stage

namespace Registry

variable {r : Registry} {stage : Stage}

theorem kindOf_eq_ok {keyword : String} {kind : Kind} :
    r.kindOf keyword = .ok kind ↔ r.bindings.get? keyword = some kind := by
  rw [kindOf]
  cases r.bindings.get? keyword <;> simp

/-- The kind that reads a line is bound to its own keyword, whatever else is bound. -/
theorem read_eq_ok {line? : Option String} : r.read line? = .ok stage ↔
    ∃ line, line? = some line ∧ r.bindings.get? stage.keyword = some stage.kind ∧
      stage.kind.read (some line) = .ok stage := by
  constructor
  · intro h
    cases line? with
    | none => cases h
    | some line =>
      rw [read] at h
      cases hkeyword : keywordOf? line with
      | none =>
        rw [hkeyword] at h
        cases h
      | some keyword =>
        rw [hkeyword] at h
        obtain ⟨kind, hkind, hread⟩ := Fault.bind_eq_ok.mp h
        obtain ⟨rfl, -⟩ := Stage.readable_of_read hread
        rw [Kind.keywordOf?_of_read hread] at hkeyword
        obtain rfl := Option.some.inj hkeyword
        exact ⟨line, rfl, kindOf_eq_ok.mp hkind, hread⟩
  · rintro ⟨line, rfl, hbound, hread⟩
    rw [read, Kind.keywordOf?_of_read hread]
    exact Fault.bind_eq_ok.mpr ⟨stage.kind, kindOf_eq_ok.mpr hbound, hread⟩

theorem compile_eq_ok {line? : Option String} :
    (r.compile line?).1 = .ok stage ↔ r.read line? = .ok stage := by
  rw [compile]
  cases r.read line? <;> simp

theorem readable_of_read {line? : Option String} (h : r.read line? = .ok stage) :
    stage.Readable := by
  obtain ⟨line, -, -, hread⟩ := read_eq_ok.mp h
  exact (Stage.readable_of_read hread).2

theorem read_line {line? : Option String} (h : r.read line? = .ok stage) :
    r.read (some stage.line) = .ok stage := by
  obtain ⟨_, -, hbound, -⟩ := read_eq_ok.mp h
  exact read_eq_ok.mpr ⟨stage.line, rfl, hbound, (readable_of_read h).read_line⟩

end Registry

namespace Pipeline

variable {r : Registry} {lines : List (Option String)}

theorem compileFrom_cons_eq_ok (index : Nat) {line? : Option String} {stages : List Stage} :
    (compileFrom r index (line? :: lines)).1 = .ok stages ↔
      ∃ stage rest, r.read line? = .ok stage ∧ (compileFrom r (index + 1) lines).1 = .ok rest ∧
        stages = stage :: rest := by
  simp only [compileFrom, ← Registry.compile_eq_ok]
  obtain ⟨result, log⟩ := r.compile line?
  obtain ⟨others, later⟩ := compileFrom r (index + 1) lines
  cases result with
  | error fault => simp
  | ok stage => cases others <;> simp [Except.map, eq_comm]

theorem compileFrom_eq_ok (index : Nat) {stages : List Stage} :
    (compileFrom r index lines).1 = .ok stages ↔
      List.Forall₂ (fun line? stage => r.read line? = .ok stage) lines stages := by
  induction lines generalizing index stages with
  | nil => simp [compileFrom, eq_comm]
  | cons line? rest ih =>
    simp only [compileFrom_cons_eq_ok, ih, List.forall₂_cons_left_iff]

theorem compile_eq_ok {p : Pipeline} : (compile r lines).1 = .ok p ↔
    List.Forall₂ (fun line? stage => r.read line? = .ok stage) lines p.stages := by
  rw [← compileFrom_eq_ok 1, compile]
  obtain ⟨result, log⟩ := compileFrom r 1 lines
  obtain ⟨stages⟩ := p
  cases result <;> simp

theorem exists_line_of_mem {stages : List Stage}
    (h : List.Forall₂ (fun line? stage => r.read line? = .ok stage) lines stages) {stage : Stage}
    (hstage : stage ∈ stages) : ∃ line? ∈ lines, r.read line? = .ok stage := by
  induction h with
  | nil => exact absurd hstage List.not_mem_nil
  | @cons line? _ rest _ hread _ ih =>
    rcases List.mem_cons.mp hstage with rfl | hstage
    · exact ⟨line?, List.mem_cons_self, hread⟩
    · obtain ⟨found?, hmem, hread⟩ := ih hstage
      exact ⟨found?, List.mem_cons_of_mem line? hmem, hread⟩

theorem compile_directives {p : Pipeline} (h : (compile r lines).1 = .ok p) :
    (compile r (p.directives.map some)).1 = .ok p := by
  rw [compile_eq_ok] at h ⊢
  rw [directives, List.map_map, List.forall₂_map_left_iff, List.forall₂_same]
  intro stage hstage
  obtain ⟨line?, -, hread⟩ := exists_line_of_mem h hstage
  exact Registry.read_line hread

end Pipeline

theorem Stage.Readable.eq_of_line {stage other : Stage} (h : stage.Readable)
    (hother : other.Readable) (hline : stage.line = other.line) : stage = other := by
  have hkeyword : stage.keyword = other.keyword := by
    have hfirst := Kind.keywordOf?_of_read h.read_line
    rw [hline, Kind.keywordOf?_of_read hother.read_line] at hfirst
    exact (Option.some.inj hfirst).symm
  have htokens : stage.directive.tokens = other.directive.tokens := by
    have hpolicy := Kind.policy_eq_of_keyword hkeyword
    rw [← h.split_line, hline, hpolicy, hother.split_line]
  have hkind : stage.kind = other.kind := by
    apply Kind.eq_of_keyword_of_arity hkeyword
    rw [← stage.length_directive, ← other.length_directive, htokens]
  have hread := h.read_line
  rw [hline, hkind, hother.read_line] at hread
  exact (Except.ok.inj hread).symm

/-- A compiled stage compiles from its own line to itself, its line determines it, and a compiled pipeline
compiles from its directives to itself. No condition on the bindings is needed, however they were made: a
grammar accepts no line that starts with another keyword than its own. -/
theorem compile_canonical_text (r : Registry) :
    (∀ line? stage, (r.compile line?).1 = .ok stage →
      (r.compile (some stage.line)).1 = .ok stage) ∧
    (∀ (r' : Registry) line? line?' stage stage', (r.compile line?).1 = .ok stage →
      (r'.compile line?').1 = .ok stage' → stage.line = stage'.line → stage = stage') ∧
    ∀ lines p, (Pipeline.compile r lines).1 = .ok p →
      (Pipeline.compile r (p.directives.map some)).1 = .ok p := by
  refine ⟨?_, ?_, fun lines p h => Pipeline.compile_directives h⟩
  · intro line? stage h
    rw [Registry.compile_eq_ok] at h ⊢
    exact Registry.read_line h
  · intro r' line? line?' stage stage' h h' hline
    have hread := Registry.readable_of_read (Registry.compile_eq_ok.mp h)
    have hread' := Registry.readable_of_read (Registry.compile_eq_ok.mp h')
    exact hread.eq_of_line hread' hline

theorem compile_canonical_text_of_odd_blanks :
    (Pipeline.compile .default [some "mask \t RiGhT \n -000",
      some "mask  LEFT \u00a0 +09223372036854775807", some "rename\ta \n b ",
      some "to-string \u2003  "]).1 =
        .ok ⟨[.mask "\t" (.substitution .right '\n' 0),
          .mask "" (.substitution .left '\u00a0' 9223372036854775807),
          .rename "a" "b", .toText "\u2003"]⟩ ∧
    (Pipeline.compile .default [some "mask \t right \n 0",
      some "mask  left \u00a0 9223372036854775807", some "rename a b",
      some "to-string \u2003"]).1 =
        .ok ⟨[.mask "\t" (.substitution .right '\n' 0),
          .mask "" (.substitution .left '\u00a0' 9223372036854775807),
          .rename "a" "b", .toText "\u2003"]⟩ := by
  refine ⟨?compiled, (compile_canonical_text .default).2.2 _ _ ?compiled⟩
  decide +kernel

end RowDirectives
