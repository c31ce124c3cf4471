import RowDirectives.Registry

/-! What the readers refuse, they refuse as an invalid directive. Each place where a reader can fail is looked
at for itself: the arguments of a directive, the form of its line, the checks of its kind, and the look-up of
its keyword. -/
namespace RowDirectives

/-- If it fails, then for an invalid directive. -/
def OnlyInvalid {α : Type} (x : Except Fault α) : Prop :=
  ∀ fault, x = .error fault → ∃ message, fault = .invalidDirective message

section Results

variable {α β : Type}

theorem onlyInvalid_ok (a : α) : OnlyInvalid (.ok a) := nofun

theorem onlyInvalid_error (message : String) :
    OnlyInvalid (.error (.invalidDirective message) : Except Fault α) := by
  intro fault h
  exact ⟨message, (Except.error.inj h).symm⟩

theorem OnlyInvalid.bind {x : Except Fault α} {f : α → Except Fault β} (hx : OnlyInvalid x)
    (hf : ∀ a, OnlyInvalid (f a)) : OnlyInvalid (x >>= f) := by
  cases x with
  | ok a => exact hf a
  | error fault =>
    obtain ⟨message, rfl⟩ := hx fault rfl
    exact onlyInvalid_error message

/-- What is not accepted is refused. -/
theorem OnlyInvalid.exists_fault {x : Except Fault α} (hx : OnlyInvalid x) (h : ∀ a, x ≠ .ok a) :
    ∃ fault, x = .error fault ∧ fault.isInvalidDirective = true := by
  cases x with
  | ok a => exact absurd rfl (h a)
  | error fault =>
    obtain ⟨message, rfl⟩ := hx fault rfl
    exact ⟨_, rfl, rfl⟩

end Results

namespace Directive

variable (d : Directive) (index : Nat) (name : String)

theorem onlyInvalid_argument : OnlyInvalid (d.argument index) := by
  rw [argument]
  split
  · exact onlyInvalid_ok _
  · exact onlyInvalid_error _

theorem onlyInvalid_position : OnlyInvalid (d.position index name) := by
  apply (d.onlyInvalid_argument index).bind
  intro token
  split
  · exact onlyInvalid_ok _
  · exact onlyInvalid_error _

theorem onlyInvalid_count : OnlyInvalid (d.count index name) := by
  apply (d.onlyInvalid_argument index).bind
  intro token
  split
  · split
    · exact onlyInvalid_error _
    · exact onlyInvalid_ok _
  · exact onlyInvalid_error _

theorem onlyInvalid_character : OnlyInvalid (d.character index name) := by
  apply (d.onlyInvalid_argument index).bind
  intro token
  split
  · exact onlyInvalid_ok _
  · exact onlyInvalid_error _

end Directive

theorem Side.onlyInvalid_read (token : String) : OnlyInvalid (Side.read token) := by
  simp only [Side.read]
  split
  · exact onlyInvalid_ok _
  · split
    · exact onlyInvalid_ok _
    · exact onlyInvalid_error _

theorem Grammar.onlyInvalid_parse (g : Grammar) (line? : Option String) :
    OnlyInvalid (g.parse line?) := by
  cases line? with
  | none => exact onlyInvalid_error _
  | some line =>
    simp only [parse]
    split
    · exact onlyInvalid_error _
    · split
      · exact onlyInvalid_error _
      · exact onlyInvalid_ok _

namespace Kind

theorem onlyInvalid_stageOf (kind : Kind) (d : Directive) : OnlyInvalid (kind.stageOf d) := by
  cases kind with
  | rename =>
    apply (d.onlyInvalid_argument 1).bind
    intro source
    apply (d.onlyInvalid_argument 2).bind
    exact fun target => onlyInvalid_ok _
  | toText =>
    apply (d.onlyInvalid_argument 1).bind
    exact fun column => onlyInvalid_ok _
  | maskRange =>
    apply (d.onlyInvalid_argument 1).bind
    intro column
    apply (d.onlyInvalid_position 2 _).bind
    intro start
    apply (d.onlyInvalid_position 3 _).bind
    intro stop
    split
    · exact onlyInvalid_error _
    · exact onlyInvalid_ok _
  | maskSubstitution =>
    apply (d.onlyInvalid_argument 1).bind
    intro column
    apply (d.onlyInvalid_argument 2).bind
    intro token
    apply (Side.onlyInvalid_read token).bind
    intro side
    apply (d.onlyInvalid_character 3 _).bind
    intro cover
    apply (d.onlyInvalid_count 4 _).bind
    exact fun count => onlyInvalid_ok _

theorem onlyInvalid_read (kind : Kind) (line? : Option String) : OnlyInvalid (kind.read line?) :=
  (kind.grammar.onlyInvalid_parse line?).bind kind.onlyInvalid_stageOf

end Kind

namespace Registry

variable (r : Registry) (line? : Option String)

theorem onlyInvalid_kindOf (keyword : String) : OnlyInvalid (r.kindOf keyword) := by
  rw [kindOf]
  split
  · exact onlyInvalid_ok _
  · exact onlyInvalid_error _

theorem onlyInvalid_read : OnlyInvalid (r.read line?) := by
  cases line? with
  | none => exact onlyInvalid_error _
  | some line =>
    rw [read]
    split
    · exact onlyInvalid_error _
    · rename_i keyword _
      exact (r.onlyInvalid_kindOf keyword).bind fun kind => kind.onlyInvalid_read (some line)

theorem onlyInvalid_compile : OnlyInvalid (r.compile line?).1 := by
  intro fault h
  apply r.onlyInvalid_read line?
  rw [compile] at h
  cases hread : r.read line? with
  | ok stage =>
    rw [hread] at h
    contradiction
  | error fault' =>
    rw [hread] at h
    exact h

end Registry
end RowDirectives
