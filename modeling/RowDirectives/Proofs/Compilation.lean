import RowDirectives.Proofs.CanonicalText

/-! What compiling a list of directives answers and what it reports. Either all directives compile, each of
them is reported and their number comes last; or the first that does not compile ends the list with its own
fault, and the report says where it stands. `Reports` has these two ways, with the log as it is written, and
compiling goes one of them. -/
namespace RowDirectives

theorem forall₂_append_left_iff {α β : Type} {R : α → β → Prop} {xs ys : List α} {zs : List β} :
    List.Forall₂ R (xs ++ ys) zs ↔
      ∃ us vs, List.Forall₂ R xs us ∧ List.Forall₂ R ys vs ∧ zs = us ++ vs := by
  constructor
  · intro h
    induction xs generalizing zs with
    | nil => exact ⟨[], zs, .nil, h, rfl⟩
    | cons x xs ih =>
      obtain ⟨z, zs, hx, hrest, rfl⟩ := List.forall₂_cons_left_iff.mp h
      obtain ⟨us, vs, hus, hvs, rfl⟩ := ih hrest
      exact ⟨z :: us, vs, .cons hx hus, hvs, rfl⟩
  · rintro ⟨us, vs, hus, hvs, rfl⟩
    exact List.rel_append hus hvs

/-- An entry as it stands in a log. -/
def LogEntry.written (entry : LogEntry) : Level × String := (entry.level, entry.message)

namespace Registry

variable {r : Registry} {line? : Option String} {line : String} {stage : Stage} {fault : Fault}

theorem compile_of_ok (h : (r.compile (some line)).1 = .ok stage) :
    r.compile (some line) = (.ok stage, [.compiledDirective line stage.kind]) := by
  rw [compile, compile_eq_ok.mp h]
  rfl

/-- A directive that does not compile is not reported here. -/
theorem compile_of_error (h : (r.compile line?).1 = .error fault) :
    r.compile line? = (.error fault, []) := by
  unfold compile at h ⊢
  cases hread : r.read line? with
  | ok stage => simp [hread] at h
  | error fault => simpa [hread] using h

end Registry

namespace Pipeline

/-- Each line compiles on its own, to the stage at its place. -/
def Accepts (r : Registry) : List String → List Stage → Prop :=
  List.Forall₂ fun line stage => (r.compile (some line)).1 = .ok stage

/-- A directive in a message; it need not be there. -/
def shown : Option String → String
  | some line => line
  | none => "<null>"

def compiledEntries : List String → List Stage → List LogEntry :=
  List.zipWith fun line stage => .compiledDirective line stage.kind

/-- The entries of compiled directives as they stand in a log. -/
def accounts : List String → List Stage → List (Level × String) :=
  List.zipWith fun line stage => (.debug, s!"compiled directive '{line}' as {stage.kind.title}")

/-- The answers and logs that a list of directives may have, each under the condition for it. -/
inductive Reports (r : Registry) :
    List (Option String) → Except Fault Pipeline → List (Level × String) → Prop where
  | compiled {lines : List String} {stages : List Stage} : Accepts r lines stages →
      Reports r (lines.map some) (.ok ⟨stages⟩) (accounts lines stages ++
        [(.info, s!"compiled transformation pipeline with {lines.length} stages")])
  | refused {lines : List String} {stages : List Stage} {line? : Option String} {fault : Fault}
      (after : List (Option String)) : Accepts r lines stages →
      (r.compile line?).1 = .error fault →
      Reports r (lines.map some ++ line? :: after) (.error fault) (accounts lines stages ++
        [(.error, s!"directive {lines.length + 1} ('{shown line?}') failed to compile: {fault.message}")])

variable {r : Registry} {lines : List String} {stages : List Stage}

theorem accepts_or_refused (r : Registry) (all : List (Option String)) :
    (∃ lines stages, all = lines.map some ∧ Accepts r lines stages) ∨
      ∃ lines stages line? after fault, all = lines.map some ++ line? :: after ∧
        Accepts r lines stages ∧ (r.compile line?).1 = .error fault := by
  induction all with
  | nil => exact .inl ⟨[], [], rfl, .nil⟩
  | cons line? rest ih =>
    cases hcompile : (r.compile line?).1 with
    | error fault => exact .inr ⟨[], [], line?, rest, fault, rfl, .nil, hcompile⟩
    | ok stage =>
      obtain ⟨line, rfl, -⟩ := Registry.read_eq_ok.mp (Registry.compile_eq_ok.mp hcompile)
      rcases ih with ⟨lines, stages, rfl, haccepts⟩ | ⟨lines, stages, line?, after, fault, rfl, haccepts, h⟩
      · exact .inl ⟨line :: lines, stage :: stages, rfl, .cons hcompile haccepts⟩
      · exact .inr ⟨line :: lines, stage :: stages, line?, after, fault, rfl,
          .cons hcompile haccepts, h⟩

/-- Directives that compile put their stages and their entries in front of those of the rest. -/
theorem compileFrom_append (h : Accepts r lines stages) (index : Nat) (rest : List (Option String)) :
    compileFrom r index (lines.map some ++ rest) =
      ((compileFrom r (index + lines.length) rest).1.map (stages ++ ·),
        compiledEntries lines stages ++ (compileFrom r (index + lines.length) rest).2) := by
  induction h generalizing index with
  | nil =>
    cases hrest : (compileFrom r index rest).1 <;> simp [compiledEntries, Except.map, hrest, Prod.ext_iff]
  | @cons line stage lines stages hline _ ih =>
    have hindex : index + 1 + lines.length = index + (line :: lines).length := by
      simp only [List.length_cons]
      omega
    rw [List.map_cons, List.cons_append, compileFrom, Registry.compile_of_ok hline, ih (index + 1), hindex]
    cases (compileFrom r (index + (line :: lines).length) rest).1 <;>
      simp [compiledEntries, Except.map]

theorem compile_of_accepts (h : Accepts r lines stages) : compile r (lines.map some) =
    (.ok ⟨stages⟩, compiledEntries lines stages ++ [.compiledPipeline lines.length]) := by
  have hall := compileFrom_append h 1 []
  rw [List.append_nil] at hall
  simp [compile, hall, compileFrom, Except.map, h.length_eq]

theorem compile_of_refused (h : Accepts r lines stages) {line? : Option String} {fault : Fault}
    (hrefused : (r.compile line?).1 = .error fault) (after : List (Option String)) :
    compile r (lines.map some ++ line? :: after) = (.error fault,
      compiledEntries lines stages ++ [.refusedDirective (lines.length + 1) line? fault]) := by
  have hindex : 1 + lines.length = lines.length + 1 := Nat.add_comm 1 lines.length
  simp [compile, compileFrom_append h 1 (line? :: after), compileFrom,
    Registry.compile_of_error hrefused, Except.map, hindex]

theorem written_compiledEntries (lines : List String) (stages : List Stage) :
    (compiledEntries lines stages).map LogEntry.written = accounts lines stages := by
  rw [compiledEntries, List.map_zipWith]
  rfl

theorem written_refusal (index : Nat) (line? : Option String) (fault : Fault) :
    (LogEntry.refusedDirective index line? fault).written =
      (.error, s!"directive {index} ('{shown line?}') failed to compile: {fault.message}") := by
  cases line? <;> rfl

theorem Reports.eq {all : List (Option String)} {result : Except Fault Pipeline}
    {log : List (Level × String)} (h : Reports r all result log) :
    (compile r all).1 = result ∧ (compile r all).2.map LogEntry.written = log := by
  cases h with
  | compiled h =>
    rw [compile_of_accepts h, List.map_append, written_compiledEntries]
    exact ⟨rfl, rfl⟩
  | refused after h hrefused =>
    rw [compile_of_refused h hrefused, List.map_append, written_compiledEntries, List.map_singleton, written_refusal]
    exact ⟨rfl, rfl⟩

theorem exists_reports (r : Registry) (all : List (Option String)) :
    ∃ result log, Reports r all result log := by
  rcases accepts_or_refused r all with
    ⟨lines, stages, rfl, h⟩ | ⟨lines, stages, line?, after, fault, rfl, h, hrefused⟩
  · exact ⟨_, _, .compiled h⟩
  · exact ⟨_, _, .refused after h hrefused⟩

theorem compile_append_eq_ok {xs ys : List (Option String)} {p : Pipeline} :
    (compile r (xs ++ ys)).1 = .ok p ↔ ∃ before after, (compile r xs).1 = .ok before ∧
      (compile r ys).1 = .ok after ∧ p.stages = before.stages ++ after.stages := by
  simp only [compile_eq_ok, forall₂_append_left_iff]
  constructor
  · rintro ⟨us, vs, hus, hvs, h⟩
    exact ⟨⟨us⟩, ⟨vs⟩, hus, hvs, h⟩
  · rintro ⟨before, after, hbefore, hafter, h⟩
    exact ⟨before.stages, after.stages, hbefore, hafter, h⟩

/-- Compiling a list answers and reports in exactly one of the two ways of `Reports`. The kind that an entry
names is the one bound to the first word of the line, and two lists compile one after the other exactly if
each of them compiles. -/
theorem compile_answers_and_reports (r : Registry) :
    (∀ (lines : List (Option String)) (result : Except Fault Pipeline) (log : List (Level × String)),
      ((compile r lines).1 = result ∧ (compile r lines).2.map LogEntry.written = log) ↔
        Reports r lines result log) ∧
    (∀ (line : String) (stage : Stage), (r.compile (some line)).1 = .ok stage →
      ∃ keyword, keywordOf? line = some keyword ∧ r.kindOf keyword = .ok stage.kind) ∧
    ∀ (xs ys : List (Option String)) (p : Pipeline), (compile r (xs ++ ys)).1 = .ok p ↔
      ∃ before after, (compile r xs).1 = .ok before ∧ (compile r ys).1 = .ok after ∧
        p.stages = before.stages ++ after.stages := by
  refine ⟨?_, ?_, fun _ _ _ => compile_append_eq_ok⟩
  · intro lines result log
    constructor
    · rintro ⟨rfl, rfl⟩
      obtain ⟨result, log, h⟩ := exists_reports r lines
      rwa [h.eq.1, h.eq.2]
    · exact Reports.eq
  · intro line stage h
    obtain ⟨_, hline, hbound, hread⟩ := Registry.read_eq_ok.mp (Registry.compile_eq_ok.mp h)
    obtain rfl := Option.some.inj hline
    exact ⟨stage.keyword, Kind.keywordOf?_of_read hread, Registry.kindOf_eq_ok.mpr hbound⟩

/-- A missing directive between two good ones; the one after it is not looked at. -/
theorem compile_answers_and_reports_of_missing_line :
    let first := "mask pin LEFT # 2"
    let stage : Stage := .mask "pin" (.substitution .left '#' 2)
    let all := [some first, none, some "rename a b"]
    (Registry.default.compile (some first)).1 = .ok stage ∧
    (∃ keyword, keywordOf? first = some keyword ∧ Registry.default.kindOf keyword = .ok stage.kind) ∧
    (compile .default all).1 = .error (.invalidDirective "Directive command line is null.") ∧
    (compile .default all).2.map LogEntry.written =
      [(.debug, "compiled directive 'mask pin LEFT # 2' as MaskSubstitution"),
       (.error, "directive 2 ('<null>') failed to compile: " ++
         "invalid directive: Directive command line is null.")] := by
  intro first stage all
  have hfirst : (Registry.default.compile (some first)).1 = .ok stage := by decide +kernel
  have hreports : Reports .default all (.error (.invalidDirective "Directive command line is null.")) _ :=
    .refused [some "rename a b"] (.cons hfirst .nil) rfl
  obtain ⟨hanswers, hkind, -⟩ := compile_answers_and_reports .default
  obtain ⟨hresult, hlog⟩ := (hanswers all _ _).mpr hreports
  exact ⟨hfirst, hkind first stage hfirst, hresult, hlog.trans (by decide +kernel)⟩

end Pipeline
end RowDirectives
