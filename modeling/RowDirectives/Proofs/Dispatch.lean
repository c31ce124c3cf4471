import RowDirectives.Proofs.Atomicity
import RowDirectives.Proofs.CanonicalText
import RowDirectives.Proofs.Phrases

/-! The first word of a line chooses the right kind. Every kind is bound to its own keyword, however a
registry came about, and a line that a kind reads starts with that keyword. Kinds that share a keyword cut
a line into the same tokens and differ in how many they want, so no line has two readings. -/
namespace RowDirectives

namespace Kind

variable {kind other : Kind} {stage stage' : Stage} {line? : Option String}

theorem eq_of_read (h : kind.read line? = .ok stage) (h' : other.read line? = .ok stage') :
    kind = other := by
  obtain ⟨line, rfl, -⟩ := read_eq_ok_iff_spells.mp h
  have hkeyword : kind.keyword = other.keyword := by
    have hfirst := keywordOf?_of_read h
    rw [keywordOf?_of_read h'] at hfirst
    exact (Option.some.inj hfirst).symm
  obtain ⟨arguments, htokens, harity, -⟩ := read_some_eq_ok.mp h
  obtain ⟨arguments', htokens', harity', -⟩ := read_some_eq_ok.mp h'
  rw [policy_eq_of_keyword hkeyword, htokens'] at htokens
  obtain ⟨-, rfl⟩ := List.cons.inj htokens
  exact eq_of_keyword_of_arity hkeyword (harity.symm.trans harity')

theorem eq_stage_of_read (h : kind.read line? = .ok stage) (h' : other.read line? = .ok stage') :
    stage = stage' := by
  rw [eq_of_read h h', h'] at h
  exact (Except.ok.inj h).symm

end Kind

namespace Registry

variable {r : Registry}

/-- A registry stays in use whatever the answer to a request is. -/
inductive Reachable : Registry → Prop
  | empty : Reachable .empty
  | default : Reachable .default
  | ofMaskGrammar (g : MaskGrammar) : Reachable (.ofMaskGrammar g)
  | register {r : Registry} (keyword : String) (kind : Kind) :
      Reachable r → Reachable ((Registry.register keyword kind).run r).2

def Binds (r : Registry) (kind : Kind) : Prop := ∃ keyword, r.bindings.get? keyword = some kind

/-- Every kind that is bound is bound to its own keyword. -/
def Proper (r : Registry) : Prop :=
  ∀ keyword kind, r.bindings.get? keyword = some kind → keyword = kind.keyword

theorem run_register (r : Registry) (keyword : String) (kind : Kind) :
    (keyword = kind.keyword ∧ (register keyword kind).run r = (.ok (), r.bind kind)) ∨
    (keyword ≠ kind.keyword ∧
      ∃ message, (register keyword kind).run r = (.error (.config message), r)) := by
  rw [register]
  by_cases h : keyword = kind.keyword
  · rw [if_neg (not_not_intro h)]
    exact .inl ⟨h, rfl⟩
  · rw [if_pos h]
    exact .inr ⟨h, _, rfl⟩

theorem proper_empty : Proper .empty := nofun

theorem Proper.bind (h : r.Proper) (kind : Kind) : (r.bind kind).Proper := by
  intro keyword other hbound
  rw [Registry.bind, Dict.get?_insert] at hbound
  split at hbound
  · rename_i heq
    rw [← Option.some.inj hbound]
    exact heq
  · exact h keyword other hbound

theorem proper_ofMaskGrammar (g : MaskGrammar) : (ofMaskGrammar g).Proper :=
  ((proper_empty.bind .rename).bind .toText).bind g.kind

theorem Reachable.proper (h : r.Reachable) : r.Proper := by
  induction h with
  | empty => exact proper_empty
  | default => exact proper_ofMaskGrammar .default
  | ofMaskGrammar g => exact proper_ofMaskGrammar g
  | @register r keyword kind _ ih =>
    rcases run_register r keyword kind with ⟨-, hrun⟩ | ⟨-, message, hrun⟩ <;> rw [hrun]
    · exact ih.bind kind
    · exact ih

theorem Proper.binds_iff (h : r.Proper) {kind : Kind} :
    r.Binds kind ↔ r.bindings.get? kind.keyword = some kind := by
  constructor
  · rintro ⟨keyword, hbound⟩
    rwa [h keyword kind hbound] at hbound
  · exact fun hbound => ⟨kind.keyword, hbound⟩

theorem Proper.eq_of_keyword (h : r.Proper) {kind other : Kind} (hkind : r.Binds kind)
    (hother : r.Binds other) (hkeyword : kind.keyword = other.keyword) : kind = other := by
  rw [h.binds_iff] at hkind hother
  rw [hkeyword, hother] at hkind
  exact (Option.some.inj hkind).symm

theorem Proper.compile_eq_ok_iff (h : r.Proper) {line? : Option String} {stage : Stage} :
    (r.compile line?).1 = .ok stage ↔ r.Binds stage.kind ∧ stage.kind.read line? = .ok stage := by
  rw [compile_eq_ok, read_eq_ok, h.binds_iff]
  constructor
  · rintro ⟨line, rfl, hbound, hread⟩
    exact ⟨hbound, hread⟩
  · rintro ⟨hbound, hread⟩
    obtain ⟨line, rfl, -⟩ := Kind.read_eq_ok_iff_spells.mp hread
    exact ⟨line, rfl, hbound, hread⟩

/-- However a registry came about, what it compiles is what the kinds bound in it read. A binding is
accepted exactly if the keyword is that of the kind, and one that is refused changes nothing. -/
theorem dispatch_of_reachable (h : r.Reachable) :
    (∀ keyword kind, r.bindings.get? keyword = some kind → keyword = kind.grammar.keyword) ∧
    ¬ (r.Binds .maskRange ∧ r.Binds .maskSubstitution) ∧
    (∀ keyword kind,
      (keyword = kind.keyword ∧ (register keyword kind).run r = (.ok (), r.bind kind)) ∨
      (keyword ≠ kind.keyword ∧
        ∃ message, (register keyword kind).run r = (.error (.config message), r))) ∧
    (∀ line? stage, (r.compile line?).1 = .ok stage ↔
      r.Binds stage.kind ∧ stage.kind.read line? = .ok stage) ∧
    ∀ kind line stage, r.Binds kind → kind.read (some line) = .ok stage →
      ∃ keyword, keywordOf? line = some keyword ∧ r.kindOf keyword = .ok kind := by
  refine ⟨h.proper, ?_, run_register r, fun _ _ => h.proper.compile_eq_ok_iff, ?_⟩
  · rintro ⟨hrange, hsubstitution⟩
    cases h.proper.eq_of_keyword hrange hsubstitution rfl
  · intro kind line stage hbinds hread
    exact ⟨kind.keyword, Kind.keywordOf?_of_read hread,
      kindOf_eq_ok.mpr (h.proper.binds_iff.mp hbinds)⟩

/-- A registry that was asked for a wrong keyword, and then for the other revision of the mask. -/
theorem dispatch_of_reachable_after_rebinding :
    ∃ r, Reachable r ∧ r.Binds .maskRange ∧ ¬ r.Binds .maskSubstitution ∧
      (r.compile (some "mask c 0 5")).1 = .ok (.mask "c" (.range 0 5)) := by
  let refused := ((register "hide" .rename).run default).2
  let rebound := ((register "mask" .maskRange).run refused).2
  have hreachable : rebound.Reachable := .register _ _ (.register _ _ .default)
  have hrange : rebound.Binds .maskRange := ⟨"mask", by decide⟩
  have hread : Kind.maskRange.read (some "mask c 0 5") = .ok (.mask "c" (.range 0 5)) := by
    decide +kernel
  obtain ⟨-, hexclusive, -, hcompile, -⟩ := dispatch_of_reachable hreachable
  exact ⟨rebound, hreachable, hrange, fun h => hexclusive ⟨hrange, h⟩,
    (hcompile _ _).mpr ⟨hrange, hread⟩⟩

end Registry

/-- No line has two readings, whatever kinds read it and whatever registries compile it; in particular what
one revision of the mask reads the other refuses. Nor have two stages that were read the same canonical
text. -/
theorem reading_is_unambiguous :
    (∀ (kind kind' : Kind) line? stage stage', kind.read line? = .ok stage →
      kind'.read line? = .ok stage' → kind = kind' ∧ stage = stage') ∧
    (∀ (r r' : Registry) line? stage stage', r.Reachable → r'.Reachable →
      (r.compile line?).1 = .ok stage → (r'.compile line?).1 = .ok stage' → stage = stage') ∧
    (∀ (g g' : MaskGrammar) line? stage, g ≠ g' → g.kind.read line? = .ok stage →
      (∃ fault, g'.kind.read line? = .error fault ∧ fault.isInvalidDirective = true) ∧
      ∀ r : Registry, r.Reachable → r.Binds g'.kind →
        ∃ fault, (r.compile line?).1 = .error fault ∧ fault.isInvalidDirective = true) ∧
    ∀ (kind kind' : Kind) line? line?' stage stage', kind.read line? = .ok stage →
      kind'.read line?' = .ok stage' → stage.line = stage'.line → stage = stage' := by
  refine ⟨?_, ?_, ?_, ?_⟩
  · intro kind kind' line? stage stage' h h'
    exact ⟨Kind.eq_of_read h h', Kind.eq_stage_of_read h h'⟩
  · intro r r' line? stage stage' hr hr' h h'
    exact Kind.eq_stage_of_read (hr.proper.compile_eq_ok_iff.mp h).2
      (hr'.proper.compile_eq_ok_iff.mp h').2
  · intro g g' line? stage hne h
    have hkinds : g.kind ≠ g'.kind := by
      cases g <;> cases g' <;> simp_all [MaskGrammar.kind]
    refine ⟨(g'.kind.onlyInvalid_read line?).exists_fault fun stage' h' =>
      hkinds (Kind.eq_of_read h h'), ?_⟩
    intro r hr hbinds
    apply (r.onlyInvalid_compile line?).exists_fault
    intro stage' h'
    obtain ⟨hbinds', hread'⟩ := hr.proper.compile_eq_ok_iff.mp h'
    have hkeyword : g.kind.keyword = g'.kind.keyword := by
      cases g <;> cases g' <;> rfl
    rw [← Kind.eq_of_read h hread'] at hbinds'
    exact hkinds (hr.proper.eq_of_keyword hbinds' hbinds hkeyword)
  · intro kind kind' line? line?' stage stage' h h'
    exact (Stage.readable_of_read h).2.eq_of_line (Stage.readable_of_read h').2

theorem reading_is_unambiguous_between_masks :
    Kind.maskRange.read (some "mask  0 07 ") = .ok (.mask "" (.range 0 7)) ∧
    (∀ (kind : Kind) stage, kind.read (some "mask  0 07 ") = .ok stage →
      kind = .maskRange ∧ stage = .mask "" (.range 0 7)) ∧
    ∃ fault, (Registry.default.compile (some "mask  0 07 ")).1 = .error fault ∧
      fault.isInvalidDirective = true := by
  have hread : Kind.maskRange.read (some "mask  0 07 ") = .ok (.mask "" (.range 0 7)) := by
    decide +kernel
  have hbinds : Registry.default.Binds .maskSubstitution := ⟨"mask", by decide⟩
  obtain ⟨honce, -, hrevision, -⟩ := reading_is_unambiguous
  refine ⟨hread, fun kind stage h => honce _ _ _ _ _ h hread, ?_⟩
  exact (hrevision .range .substitution _ _ (by decide) hread).2 _ .default hbinds

end RowDirectives
