import Mathlib.Data.PEquiv
import RowDirectives.Proofs.Outcome

/-! Where the values of a row come from. The stages of a pipeline alone say which column ends under a
name and which edits it meets on its way: a renaming hands the entry of one name over to another, and every
other stage adds an edit to the entry of its column. A row that gets through is what its lineage says, one
name at a time. Names move along partial injections, so no value is ever in two places. -/
namespace RowDirectives

namespace Stage

/-- The name under which a renaming leaves a column. A column whose name another one takes is lost. -/
def renamed (source target name : String) : Option String :=
  if name = source then some target else if name = target then none else some name

/-- Only the source is sent to the target, so a renaming is undone by the opposite one. -/
theorem renamed_swap {source target name name' : String} :
    renamed target source name' = some name ↔ renamed source target name = some name' := by
  unfold renamed
  grind

/-- The name under which a stage leaves a column. -/
def route : Stage → PEquiv String String
  | rename source target => ⟨renamed source target, renamed target source, fun _ _ => renamed_swap⟩
  | toText _ => PEquiv.refl String
  | mask _ _ => PEquiv.refl String

theorem route_rename (source target name : String) :
    (rename source target).route name =
      if name = source then some target else if name = target then none else some name := rfl

end Stage

/-- What a stage does to the value of its column. -/
inductive Edit where
  | toText
  | mask (mask : Mask)
  deriving DecidableEq, Repr

namespace Edit

/-- Null stays null, and a mask leaves alone what it does not cover. -/
def apply : Edit → Json → Json
  | toText, value => value.asText
  | mask m, .string text => .string (m.applied text)
  | mask _, value => value

end Edit

/-- The column that a value was in at first, and what is done to the value, in order. -/
structure Origin where
  source : String
  edits : List Edit
  deriving DecidableEq, Repr

namespace Origin

def append (origin : Origin) (edit : Edit) : Origin := ⟨origin.source, origin.edits ++ [edit]⟩

def value (origin : Origin) (value : Json) : Json :=
  origin.edits.foldl (fun value edit => edit.apply value) value

@[simp] theorem value_nil (source : String) : (Origin.value ⟨source, []⟩) = id := rfl

theorem value_append (origin : Origin) (edit : Edit) (value : Json) :
    (origin.append edit).value value = edit.apply (origin.value value) := by
  simp [Origin.value, append]

end Origin

/-- The origin of what stands under each name. -/
abbrev Lineage := String → Option Origin

namespace Lineage

def initial : Lineage := fun name => some ⟨name, []⟩

def append (lineage : Lineage) (column : String) (edit : Edit) : Lineage := fun name =>
  if name = column then (lineage name).map (·.append edit) else lineage name

def after (lineage : Lineage) : Stage → Lineage
  | .rename source target => fun name =>
    if name = target then lineage source else if name = source then none else lineage name
  | .toText column => lineage.append column .toText
  | .mask column m => lineage.append column (.mask m)

variable {lineage : Lineage} {column name : String} {edit : Edit} {origin : Origin}

theorem after_rename (lineage : Lineage) (source target name : String) :
    lineage.after (.rename source target) name =
      if name = target then lineage source
      else if name = source then none else lineage name := rfl

theorem exists_of_append (h : lineage.append column edit name = some origin) :
    ∃ old, lineage name = some old ∧ old.source = origin.source := by
  unfold append at h
  split at h
  · obtain ⟨old, hold, rfl⟩ := Option.map_eq_some_iff.mp h
    exact ⟨old, hold, rfl⟩
  · exact ⟨origin, h, rfl⟩

/-- What stands under a name after a stage stood somewhere before it, and the stage moved it. -/
theorem exists_of_after {stage : Stage} (h : lineage.after stage name = some origin) :
    ∃ earlier old, lineage earlier = some old ∧ old.source = origin.source ∧
      stage.route earlier = some name := by
  cases stage with
  | rename source target =>
    rw [after_rename] at h
    split at h
    case isTrue heq => exact ⟨source, origin, h, rfl, by simp [Stage.route_rename, heq]⟩
    case isFalse htarget =>
      split at h
      case isTrue => contradiction
      case isFalse hsource =>
        exact ⟨name, origin, h, rfl, by simp [Stage.route_rename, hsource, htarget]⟩
  | toText column =>
    obtain ⟨old, hold, hsource⟩ := exists_of_append h
    exact ⟨name, old, hold, hsource, rfl⟩
  | mask column m =>
    obtain ⟨old, hold, hsource⟩ := exists_of_append h
    exact ⟨name, old, hold, hsource, rfl⟩

theorem after_of_unnamed {stage : Stage} (away : name ∉ stage.names) :
    lineage.after stage name = lineage name := by
  cases stage with
  | rename source target =>
    simp only [Stage.names, List.mem_cons, List.not_mem_nil, or_false, not_or] at away
    rw [after_rename, if_neg away.2, if_neg away.1]
  | toText column => exact if_neg fun heq => away (List.mem_singleton.mpr heq)
  | mask column m => exact if_neg fun heq => away (List.mem_singleton.mpr heq)

/-- The row has under each name what the lineage makes of the row it comes from, and nothing else. -/
def Describes (lineage : Lineage) (start row : Row) : Prop :=
  ∀ name, row.columns.get? name =
    (lineage name).bind fun origin => (start.columns.get? origin.source).map origin.value

theorem describes_initial (row : Row) : initial.Describes row row := by
  intro name
  simp [initial]

variable {start row row' : Row}

theorem Describes.append {value : Json} (h : lineage.Describes start row)
    (hvalue : row.columns.get? column = some value) (edit : Edit) :
    (lineage.append column edit).Describes start (row.setColumn column (edit.apply value)) := by
  intro name
  rw [Row.get?_setColumn, Lineage.append]
  by_cases hname : name = column
  · rw [if_pos hname, if_pos hname]
    have hcolumn := h column
    rw [hvalue] at hcolumn
    obtain ⟨origin, horigin, hstart⟩ := Option.bind_eq_some_iff.mp hcolumn.symm
    obtain ⟨first, hfirst, rfl⟩ := Option.map_eq_some_iff.mp hstart
    rw [hname, horigin, Option.map_some, Option.bind_some]
    change _ = (start.columns.get? origin.source).map _
    rw [hfirst, Option.map_some, Origin.value_append]
  · rw [if_neg hname, if_neg hname]
    exact h name

/-- One stage: the lineage takes the step that the row takes. -/
theorem Describes.after {stage : Stage} (h : lineage.Describes start row)
    (step : stage.onRow row = .ok row') : (lineage.after stage).Describes start row' := by
  cases stage with
  | rename source target =>
    rw [Stage.onRow_rename] at step
    intro name
    rw [Row.get?_renameColumn step, after_rename]
    split
    · exact h source
    · split
      · rfl
      · exact h name
  | toText column =>
    rw [Stage.onRow_toText] at step
    obtain ⟨value, value', hvalue, hedit, rfl⟩ := Row.rewrite_eq_ok.mp step
    have : value' = Edit.toText.apply value := (Except.ok.inj hedit).symm
    rw [this]
    exact h.append hvalue .toText
  | mask column m =>
    rw [Stage.onRow_mask] at step
    obtain ⟨value, value', hvalue, hedit, rfl⟩ := Row.rewrite_eq_ok.mp step
    have : value' = (Edit.mask m).apply value := by
      cases value with
      | null => exact (Except.ok.inj hedit).symm
      | string text => exact (Except.ok.inj hedit).symm
      | _ => contradiction
    rw [this]
    exact h.append hvalue (.mask m)

end Lineage

namespace Pipeline

/-- The name under which the stages leave a column. -/
def route : List Stage → PEquiv String String
  | [] => PEquiv.refl String
  | stage :: rest => stage.route.trans (route rest)

/-- The lineage after all stages. -/
def lineage (p : Pipeline) : Lineage := p.stages.foldl Lineage.after Lineage.initial

variable {p : Pipeline} {row row' : Row} {name : String} {origin : Origin}

theorem route_cons_eq_some {stage : Stage} {rest : List Stage} {name name' : String} :
    route (stage :: rest) name = some name' ↔
      ∃ next, stage.route name = some next ∧ route rest next = some name' :=
  PEquiv.trans_eq_some _ _ _ _

theorem exists_of_foldl_after {stages : List Stage} {lineage : Lineage}
    (h : stages.foldl Lineage.after lineage name = some origin) :
    ∃ earlier old, lineage earlier = some old ∧ old.source = origin.source ∧
      route stages earlier = some name := by
  induction stages generalizing lineage with
  | nil => exact ⟨name, origin, h, rfl, rfl⟩
  | cons stage rest ih =>
    obtain ⟨next, mid, hmid, hsource, hrest⟩ := ih h
    obtain ⟨earlier, old, hold, hsource', hstage⟩ := Lineage.exists_of_after hmid
    exact ⟨earlier, old, hold, hsource'.trans hsource,
      route_cons_eq_some.mpr ⟨next, hstage, hrest⟩⟩

theorem route_source (h : p.lineage name = some origin) :
    route p.stages origin.source = some name := by
  obtain ⟨earlier, old, hold, hsource, hroute⟩ := exists_of_foldl_after h
  cases Option.some.inj hold
  rwa [← hsource]

theorem lineage_of_unnamed (away : ∀ stage ∈ p.stages, name ∉ stage.names) :
    p.lineage name = some ⟨name, []⟩ := by
  suffices ∀ (stages : List Stage) (lineage : Lineage), (∀ stage ∈ stages, name ∉ stage.names) →
      stages.foldl Lineage.after lineage name = lineage name from
    this p.stages Lineage.initial away
  intro stages
  induction stages with
  | nil => exact fun _ _ => rfl
  | cons stage rest ih =>
    intro lineage away
    rw [List.foldl_cons, ih _ fun other mem => away other (List.mem_cons_of_mem _ mem)]
    exact Lineage.after_of_unnamed (away stage List.mem_cons_self)

theorem describes_through {stages : List Stage} {lineage : Lineage} {start : Row}
    (h : lineage.Describes start row) (run : through Stage.rowStep stages row = .ok row') :
    (stages.foldl Lineage.after lineage).Describes start row' := by
  induction stages generalizing lineage row with
  | nil => exact Except.ok.inj run ▸ h
  | cons stage rest ih =>
    obtain ⟨next, hstep, hrest⟩ := through_cons_eq_ok.mp run
    exact ih (h.after hstep) hrest

theorem describes_transformRow (ok : (p.transformRow row).result = .ok ()) :
    p.lineage.Describes row (p.transformRow row).state := by
  obtain ⟨row', hrow⟩ := exists_of_transformRow_ok ok
  rw [transformRow_of_ok hrow]
  exact describes_through (Lineage.describes_initial row) hrow

section Swap

/-- Exchanges two columns by way of a third name. -/
def swap (a b temp : String) : Pipeline := ⟨[.rename a temp, .rename b a, .rename temp b]⟩

variable {a b temp : String}

theorem lineage_swap (different : a ≠ b) (ha : a ≠ temp) (hb : b ≠ temp) (name : String) :
    (swap a b temp).lineage name =
      if name = a then some ⟨b, []⟩ else if name = b then some ⟨a, []⟩
      else if name = temp then none else some ⟨name, []⟩ := by
  simp only [lineage, swap, List.foldl_cons, List.foldl_nil, Lineage.after_rename]
  by_cases hname : name = b
  · subst hname
    simp [Ne.symm ha, Ne.symm hb, Ne.symm different, Lineage.initial]
  · by_cases hname' : name = a
    · subst hname'
      simp [different, ha, hb, Ne.symm different, Lineage.initial]
    · by_cases htemp : name = temp
      · subst htemp
        simp [Ne.symm ha, Ne.symm hb]
      · simp [hname, hname', htemp, Lineage.initial]

theorem through_rename_cons_eq_ok {rest : List Stage} {source target : String} :
    through Stage.rowStep (.rename source target :: rest) row = .ok row' ↔
      ∃ next, (Row.renameColumn source target).exec row = .ok next ∧
        through Stage.rowStep rest next = .ok row' := by
  rw [through_cons_eq_ok]
  change (∃ next, (Stage.rename source target).onRow row = .ok next ∧ _) ↔ _
  simp only [Stage.onRow_rename]

/-- Nothing is left under `a` once it has given up its name, so the swap asks for a second column. -/
theorem transformRow_swap_ok_iff (ha : a ∈ row.names) (hb : b ∈ row.names)
    (htemp : temp ∉ row.names) :
    ((swap a b temp).transformRow row).result = .ok () ↔ a ≠ b := by
  obtain ⟨x, hx⟩ := Row.mem_names_iff.mp ha
  obtain ⟨y, hy⟩ := Row.mem_names_iff.mp hb
  have hat : a ≠ temp := fun heq => htemp (heq ▸ ha)
  have hbt : b ≠ temp := fun heq => htemp (heq ▸ hb)
  obtain ⟨first, hfirst⟩ := Row.exists_renameColumn hx temp
  have getFirst := Row.get?_renameColumn hfirst
  constructor
  · rintro ok rfl
    obtain ⟨row', hrow⟩ := exists_of_transformRow_ok ok
    obtain ⟨next, hnext, hrest⟩ := through_rename_cons_eq_ok.mp hrow
    cases hfirst.symm.trans hnext
    obtain ⟨second, hsecond, -⟩ := through_rename_cons_eq_ok.mp hrest
    obtain ⟨value, hvalue, -⟩ := Row.renameColumn_eq_ok.mp hsecond
    rw [getFirst, if_neg hat, if_pos rfl] at hvalue
    contradiction
  · intro different
    have hy' : first.columns.get? b = some y := by
      rw [getFirst, if_neg hbt, if_neg (Ne.symm different), hy]
    obtain ⟨second, hsecond⟩ := Row.exists_renameColumn hy' a
    have hx' : second.columns.get? temp = some x := by
      rw [Row.get?_renameColumn hsecond, if_neg (Ne.symm hat), if_neg (Ne.symm hbt), getFirst,
        if_pos rfl, hx]
    obtain ⟨third, hthird⟩ := Row.exists_renameColumn hx' b
    have run : through Stage.rowStep (swap a b temp).stages row = .ok third := by
      apply through_rename_cons_eq_ok.mpr
      refine ⟨first, hfirst, ?_⟩
      apply through_rename_cons_eq_ok.mpr
      refine ⟨second, hsecond, ?_⟩
      apply through_rename_cons_eq_ok.mpr
      exact ⟨third, hthird, rfl⟩
    rw [transformRow_of_ok run]

theorem get?_swap (ha : a ∈ row.names) (hb : b ∈ row.names) (htemp : temp ∉ row.names)
    (ok : ((swap a b temp).transformRow row).result = .ok ()) (name : String) :
    ((swap a b temp).transformRow row).state.columns.get? name =
      if name = a then row.columns.get? b else if name = b then row.columns.get? a
      else row.columns.get? name := by
  have hat : a ≠ temp := fun heq => htemp (heq ▸ ha)
  have hbt : b ≠ temp := fun heq => htemp (heq ▸ hb)
  have different : a ≠ b := (transformRow_swap_ok_iff ha hb htemp).mp ok
  rw [describes_transformRow ok, lineage_swap different hat hbt]
  by_cases hname : name = a
  · simp [hname]
  · by_cases hname' : name = b
    · simp [hname', Ne.symm different]
    · by_cases hname'' : name = temp
      · have hnone : row.columns.get? temp = none := Row.get?_eq_none_iff.mpr htemp
        simp [hname'', hnone, Ne.symm hat, Ne.symm hbt]
      · simp [hname, hname', hname'']

end Swap

/-- Rows that get through a pipeline are what its lineage says: a name is left exactly where the column
that it comes from was there, with the value of that column and its edits in it. No column is the origin of
two names, a column that no stage names stays as it is, and two columns change places by way of a name that
is free. -/
theorem transformRow_lineage (p : Pipeline) :
    (∀ row : Row, (p.transformRow row).result = .ok () →
      (∀ name,
        (name ∈ (p.transformRow row).state.names ↔
          ∃ origin, p.lineage name = some origin ∧ origin.source ∈ row.names) ∧
        ∀ origin value, p.lineage name = some origin →
          row.columns.get? origin.source = some value →
          (p.transformRow row).state.columns.get? name = some (origin.value value)) ∧
      ∀ name, (∀ stage ∈ p.stages, name ∉ stage.names) →
        (p.transformRow row).state.columns.get? name = row.columns.get? name) ∧
    (∀ name other origin origin', p.lineage name = some origin → p.lineage other = some origin' →
      origin.source = origin'.source → name = other) ∧
    ∀ (a b temp : String) (row : Row), a ∈ row.names → b ∈ row.names → temp ∉ row.names →
      (((swap a b temp).transformRow row).result = .ok () ↔ a ≠ b) ∧
      (((swap a b temp).transformRow row).result = .ok () →
        ∀ name, ((swap a b temp).transformRow row).state.columns.get? name =
          if name = a then row.columns.get? b else if name = b then row.columns.get? a
          else row.columns.get? name) := by
  refine ⟨fun row ok => ⟨fun name => ⟨?_, ?_⟩, ?_⟩, ?_, ?_⟩
  · have hname := describes_transformRow ok name
    rw [Row.mem_names_iff, hname]
    cases p.lineage name with
    | none => simp
    | some origin => simp [Row.mem_names_iff]
  · intro origin value horigin hvalue
    rw [describes_transformRow ok name, horigin, Option.bind_some, hvalue, Option.map_some]
  · intro name away
    rw [describes_transformRow ok name, lineage_of_unnamed away]
    simp
  · intro name other origin origin' h h' heq
    have hroute := route_source h
    rw [heq, route_source h'] at hroute
    exact (Option.some.inj hroute).symm
  · intro a b temp row ha hb htemp
    exact ⟨transformRow_swap_ok_iff ha hb htemp, get?_swap ha hb htemp⟩

theorem transformRow_lineage_of_reused_names :
    let p : Pipeline := ⟨[.rename "card" "pan", .toText "pin",
      .mask "pan" (.substitution .right '*' 4), .rename "pin" "card", .rename "note" "memo",
      .toText "memo", .rename "card" "card"]⟩
    let row : Row := ⟨Dict.ofList [("card", .string "4111-2222"), ("pin", .int 4821),
      ("note", .null), ("memo", .bool true), ("zip", .int 7)]⟩
    (p.transformRow row).result = .ok () ∧
      p.lineage "pan" = some ⟨"card", [.mask (.substitution .right '*' 4)]⟩ ∧
      p.lineage "card" = some ⟨"pin", [.toText]⟩ ∧ p.lineage "pin" = none ∧
      (p.transformRow row).state.columns.get? "pan" = some (.string "*****2222") ∧
      (p.transformRow row).state.columns.get? "card" = some (.string "4821") ∧
      (p.transformRow row).state.columns.get? "memo" = some .null ∧
      (∀ stage ∈ p.stages, "zip" ∉ stage.names) ∧
      (p.transformRow row).state.columns.get? "zip" = row.columns.get? "zip" ∧
      ("card" ∈ row.names ∧ "pin" ∈ row.names ∧ "spare" ∉ row.names) ∧
      ((swap "card" "pin" "spare").transformRow row).state.columns.get? "pin" =
        some (.string "4111-2222") := by
  intro p row
  have ok : (p.transformRow row).result = .ok () := by rfl
  have away : ∀ stage ∈ p.stages, "zip" ∉ stage.names := by decide
  have present : "card" ∈ row.names ∧ "pin" ∈ row.names ∧ "spare" ∉ row.names := by decide
  obtain ⟨described, -, exchanged⟩ := transformRow_lineage p
  obtain ⟨values, unchanged⟩ := described row ok
  refine ⟨ok, rfl, rfl, rfl, (values "pan").2 _ _ rfl rfl, (values "card").2 _ _ rfl rfl,
    (values "memo").2 _ _ rfl rfl, away, unchanged "zip" away, present, ?_⟩
  obtain ⟨succeeds, get⟩ := exchanged "card" "pin" "spare" row present.1 present.2.1 present.2.2
  rw [get (succeeds.mpr (by decide))]
  rfl

end Pipeline
end RowDirectives
