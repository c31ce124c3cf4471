import RowDirectives.Proofs.Outcome

/-! Two pipelines in sequence are one. A single run takes the schema through all stages and then each row
through all stages before it turns to the next row; two runs take schema and rows through the stages of the
first pipeline before any stage of the second. Where nothing fails the order makes no difference, because a
row is changed for itself alone: what stages make of a batch is a relation row by row, and such relations
compose. -/
namespace RowDirectives.Pipeline

/-- Lists related member by member through a middle member are related through a middle list. -/
theorem forall₂_comp_iff {α β γ : Type} {R : α → β → Prop} {S : β → γ → Prop} {xs : List α}
    {zs : List γ} :
    List.Forall₂ (fun x z => ∃ y, R x y ∧ S y z) xs zs ↔
      ∃ ys, List.Forall₂ R xs ys ∧ List.Forall₂ S ys zs := by
  constructor
  · intro h
    induction h with
    | nil => exact ⟨[], .nil, .nil⟩
    | cons head _ ih =>
      obtain ⟨y, hxy, hyz⟩ := head
      obtain ⟨ys, hxs, hzs⟩ := ih
      exact ⟨y :: ys, .cons hxy hxs, .cons hyz hzs⟩
  · rintro ⟨ys, hxs, hzs⟩
    induction hxs generalizing zs with
    | nil =>
      cases hzs
      exact .nil
    | cons hxy _ ih =>
      cases hzs with
      | cons hyz hrest => exact .cons ⟨_, hxy, hyz⟩ (ih hrest)

variable {before after : List Stage} {schema schema' : Schema} {rows rows' : List Row}

/-- The loops change places: rows through all stages, or all rows through one half and then the other. -/
theorem rowsThrough_append :
    (⟨before ++ after⟩ : Pipeline).RowsThrough rows rows' ↔
      ∃ mid, (⟨before⟩ : Pipeline).RowsThrough rows mid ∧
        (⟨after⟩ : Pipeline).RowsThrough mid rows' := by
  unfold RowsThrough
  simp only [through_append_eq_ok]
  exact forall₂_comp_iff

theorem run_eq_ok {p : Pipeline} :
    p.run schema rows = ⟨.ok (), (schema', rows'), []⟩ ↔
      through Stage.schemaStep p.stages schema = .ok schema' ∧ p.RowsThrough rows rows' := by
  constructor
  · intro h
    have ends := runsTo_run p schema rows
    rw [h] at ends
    cases ends with
    | finished _ _ whole all => exact ⟨whole, all⟩
  · rintro ⟨whole, all⟩
    exact (RunsTo.finished schema' rows' whole all).eq

theorem run_append_eq_ok :
    (⟨before ++ after⟩ : Pipeline).run schema rows = ⟨.ok (), (schema', rows'), []⟩ ↔
      ∃ midSchema midRows,
        (⟨before⟩ : Pipeline).run schema rows = ⟨.ok (), (midSchema, midRows), []⟩ ∧
        (⟨after⟩ : Pipeline).run midSchema midRows = ⟨.ok (), (schema', rows'), []⟩ := by
  simp only [run_eq_ok, through_append_eq_ok, rowsThrough_append]
  constructor
  · rintro ⟨⟨midSchema, first, second⟩, midRows, firstRows, secondRows⟩
    exact ⟨midSchema, midRows, ⟨first, firstRows⟩, second, secondRows⟩
  · rintro ⟨midSchema, midRows, ⟨first, firstRows⟩, second, secondRows⟩
    exact ⟨⟨midSchema, first, second⟩, midRows, firstRows, secondRows⟩

/-- Running two pipelines as one succeeds exactly if running one after the other does, and then it leaves
the same schema and the same rows, with nothing reported either way. -/
theorem run_fuses (before after : List Stage) (schema : Schema) (rows : List Row) :
    let fused := (⟨before ++ after⟩ : Pipeline).run schema rows
    let first := (⟨before⟩ : Pipeline).run schema rows
    let second := (⟨after⟩ : Pipeline).run first.state.1 first.state.2
    (fused.result = .ok () ↔ first.result = .ok () ∧ second.result = .ok ()) ∧
    (fused.result = .ok () → fused.state = second.state ∧ fused.log = first.log ++ second.log) := by
  intro fused first second
  have split (ok : fused.result = .ok ()) : first.result = .ok () ∧ second = fused ∧
      first.log = [] := by
    obtain ⟨schema', rows', -, -, hfused⟩ := exists_of_run_ok ok
    obtain ⟨midSchema, midRows, hfirst, hsecond⟩ := run_append_eq_ok.mp hfused
    have hmid : first = ⟨.ok (), (midSchema, midRows), []⟩ := hfirst
    have hend : second = ⟨.ok (), (schema', rows'), []⟩ := by
      simp only [second, hmid]
      exact hsecond
    exact ⟨hmid ▸ rfl, hend.trans hfused.symm, hmid ▸ rfl⟩
  refine ⟨⟨?_, ?_⟩, ?_⟩
  · intro ok
    obtain ⟨hfirst, hsecond, -⟩ := split ok
    exact ⟨hfirst, hsecond ▸ ok⟩
  · rintro ⟨hfirst, hsecond⟩
    obtain ⟨midSchema, midRows, -, -, hmid⟩ := exists_of_run_ok hfirst
    obtain ⟨schema', rows', -, -, hend⟩ := exists_of_run_ok hsecond
    have hmid' : first = ⟨.ok (), (midSchema, midRows), []⟩ := hmid
    simp only [hmid'] at hend
    have hfused : fused = _ := run_append_eq_ok.mpr ⟨midSchema, midRows, hmid, hend⟩
    rw [hfused]
  · intro ok
    obtain ⟨-, hsecond, hlog⟩ := split ok
    rw [hsecond, hlog, List.nil_append]
    exact ⟨rfl, rfl⟩

/-- Where a row fails the two ways part: a single run has taken the rows before it through all stages. -/
example :
    let rows : List Row :=
      [⟨Dict.ofList [("a", .int 1), ("b", .string "x")]⟩, ⟨Dict.ofList [("b", .string "y")]⟩]
    let left (p : Pipeline) := (p.run ⟨[⟨"b", .string⟩]⟩ rows).state.2.map Row.toJson
    left ⟨[.toText "a"] ++ [.mask "b" (.range 0 1)]⟩ =
        [.object [("a", .string "1"), ("b", .string "*")], .object [("b", .string "y")]] ∧
      left ⟨[.toText "a"]⟩ =
        [.object [("a", .string "1"), ("b", .string "x")], .object [("b", .string "y")]] :=
  ⟨rfl, rfl⟩

theorem run_fuses_over_renamed_columns :
    let before : List Stage := [.rename "card" "pan", .toText "pin"]
    let after : List Stage := [.mask "pan" (.substitution .right '*' 2), .rename "pin" "card"]
    let schema : Schema := ⟨[⟨"pin", .int⟩, ⟨"card", .nullable .string⟩]⟩
    let rows : List Row :=
      [⟨Dict.ofList [("card", .string "4111"), ("pin", .int 4821)]⟩,
        ⟨Dict.ofList [("card", .null), ("pin", .array []), ("memo", .bool true)]⟩]
    let fused := (⟨before ++ after⟩ : Pipeline).run schema rows
    let first := (⟨before⟩ : Pipeline).run schema rows
    let second := (⟨after⟩ : Pipeline).run first.state.1 first.state.2
    fused.result = .ok () ∧ first.result = .ok () ∧ second.result = .ok () ∧
      fused.state = second.state ∧
      second.state.1 = ⟨[⟨"card", .string⟩, ⟨"pan", .nullable .string⟩]⟩ ∧
      second.state.2.map Row.toJson =
        [.object [("card", .string "4821"), ("pan", .string "**11")],
          .object [("card", .string "[]"), ("memo", .bool true), ("pan", .null)]] := by
  intro before after schema rows fused first second
  have ok : fused.result = .ok () := by rfl
  obtain ⟨hresult, hstate⟩ := run_fuses before after schema rows
  obtain ⟨hfirst, hsecond⟩ := hresult.mp ok
  obtain ⟨hstates, -⟩ := hstate ok
  exact ⟨ok, hfirst, hsecond, hstates, by rfl, by rfl⟩

end RowDirectives.Pipeline
