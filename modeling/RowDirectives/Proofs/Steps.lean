import RowDirectives.Fault

/-! Steps that may fail: where they end, and which of them leave what they found if they fail. A step that
changes its state before it can fail is such a step only if nothing it changed is lost. -/
namespace RowDirectives.Step

variable {σ α β : Type} {s s' : σ}

section Runs

theorem run_bind (act : Step σ α) (next : α → Step σ β) (s : σ) :
    (act >>= next).run s = match act.run s with
      | (.ok a, s') => (next a).run s'
      | (.error fault, s') => (.error fault, s') := by
  change (ExceptT.bindCont next (act.run s).1).run (act.run s).2 = _
  rcases act.run s with ⟨result, s'⟩
  cases result <;> rfl

theorem get_bind (next : σ → Step σ α) (s : σ) : (get >>= next).run s = (next s).run s := rfl

variable {act : Step σ α} {next : α → Step σ β}

theorem bind_of_ok {a : α} (h : act.run s = (.ok a, s')) : (act >>= next).run s = (next a).run s' := by
  rw [run_bind, h]

theorem bind_of_error {fault : Fault} (h : act.run s = (.error fault, s')) :
    (act >>= next).run s = (.error fault, s') := by
  rw [run_bind, h]

theorem lift_of_run {act : StateM σ α} {a : α} (h : act.run s = (a, s')) :
    (ExceptT.lift act : Step σ α).run s = (.ok a, s') := by
  change (Except.ok (act.run s).1, (act.run s).2) = _
  rw [h]

/-- A step has one outcome at a state, so a description that is right and that always applies is complete. -/
theorem run_eq_iff {δ : Type} {D : δ → Except Fault α → σ → Prop}
    (right : ∀ {d result s'}, D d result s' → act.run s = (result, s'))
    (applies : ∃ d result s', D d result s') {result : Except Fault α} :
    act.run s = (result, s') ↔ ∃ d, D d result s' := by
  constructor
  · intro h
    obtain ⟨d, _, _, described⟩ := applies
    cases (right described).symm.trans h
    exact ⟨d, described⟩
  · rintro ⟨d, described⟩
    exact right described

end Runs

/-- The state that a step leaves if it succeeds. -/
def exec (act : Step σ Unit) (s : σ) : Except Fault σ :=
  match act.run s with
  | (.ok (), s') => .ok s'
  | (.error fault, _) => .error fault

/-- A step that fails leaves the state it found. -/
def Atomic (act : Step σ Unit) : Prop :=
  ∀ s fault, act.exec s = .error fault → act.run s = (.error fault, s)

section Outcomes

variable {act : Step σ Unit} {fault : Fault}

theorem run_of_exec_ok (h : act.exec s = .ok s') : act.run s = (.ok (), s') := by
  unfold exec at h
  split at h
  next heq => rw [heq, Except.ok.inj h]
  next => contradiction

theorem exec_of_run_ok (h : act.run s = (.ok (), s')) : act.exec s = .ok s' := by
  rw [exec, h]

theorem exec_of_run_error (h : act.run s = (.error fault, s')) : act.exec s = .error fault := by
  rw [exec, h]

theorem run_eq_ok : act.run s = (.ok (), s') ↔ act.exec s = .ok s' :=
  ⟨exec_of_run_ok, run_of_exec_ok⟩

theorem Atomic.run_eq_error (atomic : act.Atomic) :
    act.run s = (.error fault, s') ↔ act.exec s = .error fault ∧ s' = s := by
  constructor
  · intro h
    have fails : act.exec s = .error fault := exec_of_run_error h
    exact ⟨fails, (congrArg Prod.snd (h.symm.trans (atomic s fault fails)))⟩
  · rintro ⟨fails, rfl⟩
    exact atomic s' fault fails

theorem exec_eq_error : act.exec s = .error fault ↔ (act.run s).1 = .error fault := by
  unfold exec
  generalize act.run s = outcome
  obtain ⟨result, s'⟩ := outcome
  cases result <;> simp

theorem exists_of_exec_error (h : act.exec s = .error fault) :
    ∃ s', act.run s = (.error fault, s') := by
  unfold exec at h
  split at h
  next => contradiction
  next heq => exact ⟨_, Except.error.inj h ▸ heq⟩

/-- The result of a step is told by the fault that it ends with, if there is one. -/
theorem result_congr (h : ∀ fault, act.exec s' = .error fault ↔ act.exec s = .error fault) :
    (act.run s').1 = (act.run s).1 := by
  simp only [exec_eq_error] at h
  cases hs : (act.run s).1 with
  | error fault => exact (h fault).mpr hs
  | ok =>
    cases hs' : (act.run s').1 with
    | ok => rfl
    | error fault =>
      rw [(h fault).mp hs'] at hs
      contradiction

theorem exec_ask_bind (f : σ → Except Fault α) (next : α → Step σ Unit) (s : σ) :
    (ask f >>= next).exec s = (f s).bind fun a => (next a).exec s := by
  have asks : (ask f).run s = (f s, s) := rfl
  cases hf : f s with
  | error fault =>
    rw [hf] at asks
    exact exec_of_run_error (bind_of_error asks)
  | ok a =>
    rw [hf] at asks
    rw [exec, bind_of_ok asks]
    rfl

end Outcomes

end RowDirectives.Step
