import RowDirectives.Proofs.Outcome

/-! Two runs beside each other. A relation between states that every step keeps, unless it fails on both
sides for one reason, holds of the states that whole runs leave, and their results and logs are the same.
Nothing is asked of the relation, so it can say what the runs are not to reveal as well as what they do not
touch. -/
namespace RowDirectives

/-- The same fault, or states that are related. -/
inductive Alike {α : Type} (R : α → α → Prop) : Except Fault α → Except Fault α → Prop where
  | ok {a b : α} (related : R a b) : Alike R (.ok a) (.ok b)
  | error (fault : Fault) : Alike R (.error fault) (.error fault)

namespace Alike

variable {α β : Type} {R : α → α → Prop} {Q : β → β → Prop} {x y : Except Fault α}

theorem map (h : Alike R x y) {f g : α → β} (next : ∀ a b, R a b → Q (f a) (g b)) :
    Alike Q (x.map f) (y.map g) := by
  cases h with
  | ok related => exact .ok (next _ _ related)
  | error fault => exact .error fault

end Alike

/-- Two outcomes with the same result and the same log, on states that are related. -/
structure Outcome.Matches {σ : Type} (R : σ → σ → Prop) (o o' : Outcome σ) : Prop where
  result : o.result = o'.result
  log : o.log = o'.log
  state : R o.state o'.state

namespace Pipeline

section TwoRuns

variable {σ : Type} {R : σ → σ → Prop} {step : Stage → Step σ Unit}
  (report : Stage → Fault → LogEntry)

/-- If each step keeps states related, or fails on both for one reason, so does a run of all of them. -/
theorem steps_matches (atomic : ∀ stage, (step stage).Atomic) {stages : List Stage}
    (alike : ∀ stage ∈ stages, ∀ s s', R s s' →
      Alike R ((step stage).exec s) ((step stage).exec s'))
    {s s' : σ} (related : R s s') :
    (steps step report stages s).Matches R (steps step report stages s') := by
  induction stages generalizing s s' with
  | nil => exact ⟨rfl, rfl, related⟩
  | cons stage rest ih =>
    have hstep := alike stage List.mem_cons_self s s' related
    generalize hs : (step stage).exec s = x, hs' : (step stage).exec s' = y at hstep
    cases hstep with
    | ok next =>
      rw [steps, steps, Step.run_of_exec_ok hs, Step.run_of_exec_ok hs']
      exact ih (fun other mem => alike other (List.mem_cons_of_mem _ mem)) next
    | error fault =>
      rw [steps, steps, atomic stage s fault hs, atomic stage s' fault hs']
      exact ⟨rfl, rfl, related⟩

end TwoRuns

section Rows

variable {R : Row → Row → Prop} {p : Pipeline}

theorem transformRows_matches
    (matching : ∀ row row', R row row' → (p.transformRow row).Matches R (p.transformRow row'))
    {rows rows' : List Row} (related : List.Forall₂ R rows rows') :
    (p.transformRows rows).Matches (List.Forall₂ R) (p.transformRows rows') := by
  induction related with
  | nil => exact ⟨rfl, rfl, .nil⟩
  | @cons row row' rest rest' hrow hrest ih =>
    have first := matching row row' hrow
    rw [transformRows, transformRows, ← first.result, ← first.log]
    cases (p.transformRow row).result with
    | ok _ =>
      have hlog := congrArg ((p.transformRow row).log ++ ·) ih.log
      exact ⟨ih.result, hlog, .cons first.state ih.state⟩
    | error fault => exact ⟨rfl, rfl, .cons first.state hrest⟩

theorem run_matches
    (matching : ∀ row row', R row row' → (p.transformRow row).Matches R (p.transformRow row'))
    (schema : Schema) {rows rows' : List Row} (related : List.Forall₂ R rows rows') :
    (p.run schema rows).Matches (fun s s' => s.1 = s'.1 ∧ List.Forall₂ R s.2 s'.2)
      (p.run schema rows') := by
  have others := transformRows_matches matching related
  rw [run, run]
  cases (p.transformSchema schema).result with
  | ok _ =>
    have hlog := congrArg ((p.transformSchema schema).log ++ ·) others.log
    exact ⟨others.result, hlog, rfl, others.state⟩
  | error fault => exact ⟨rfl, rfl, rfl, related⟩

end Rows

end Pipeline
end RowDirectives
