import RowDirectives.Directive
import RowDirectives.Proofs.Pieces

/-! Which token lists a policy admits: exactly those come out of a split, and splitting their tokens joined
by spaces gives them back. -/
namespace RowDirectives

namespace SplitPolicy

def mark : SplitPolicy → Char → Bool
  | singleSpace => (· == ' ')
  | whitespace => Text.isBlank

/-- What a policy keeps of the pieces after the first. -/
def kept : SplitPolicy → List (List Char) → List (List Char)
  | singleSpace, ws => ws
  | whitespace, ws => ws.filter (!·.isEmpty)

/-- Where runs are cut only the first token may be empty, and the last never is. -/
structure Admits (policy : SplitPolicy) (tokens : List String) : Prop where
  unmarked : ∀ token ∈ tokens, Text.Unmarked policy.mark token.toList
  full : policy = whitespace → ∀ token ∈ tokens.tail, token ≠ ""
  last : tokens.getLast? ≠ some ""

theorem mark_space (policy : SplitPolicy) : policy.mark ' ' = true := by
  cases policy with
  | singleSpace => rfl
  | whitespace => exact Text.isBlank_space

theorem isBlank_of_mark {policy : SplitPolicy} {c : Char} (h : policy.mark c = true) :
    Text.isBlank c = true := by
  cases policy with
  | singleSpace => rw [show c = ' ' from by simpa [mark] using h, Text.isBlank_space]
  | whitespace => exact h

theorem unmarked_of_isBlank (policy : SplitPolicy) {w : List Char}
    (h : Text.Unmarked Text.isBlank w) : Text.Unmarked policy.mark w := by
  intro c hc
  apply Bool.eq_false_iff.mpr
  intro hmark
  exact absurd (isBlank_of_mark hmark) (Bool.eq_false_iff.mp (h c hc))

theorem mem_of_mem_kept {policy : SplitPolicy} {w : List Char} {ws : List (List Char)}
    (h : w ∈ policy.kept ws) : w ∈ ws := by
  cases policy with
  | singleSpace => exact h
  | whitespace => exact (List.mem_filter.mp h).1

theorem dropTrailing_cut (policy : SplitPolicy) {cs w : List Char} {ws : List (List Char)}
    (h : Text.pieces policy.mark cs = w :: ws) :
    Text.dropTrailing (policy.cut cs) = Text.dropTrailing (w :: policy.kept ws) := by
  cases policy with
  | singleSpace => exact congrArg Text.dropTrailing h
  | whitespace => exact Text.dropTrailing_runPieces h

theorem split_of_pieces (policy : SplitPolicy) {line : String} {w : List Char}
    {ws : List (List Char)} (h : Text.pieces policy.mark line.toList = w :: ws) :
    policy.split line = (Text.dropTrailing (w :: policy.kept ws)).map String.ofList := by
  rw [split, dropTrailing_cut policy h]

theorem admits_split (policy : SplitPolicy) (line : String) : policy.Admits (policy.split line) := by
  obtain ⟨w, ws, hws⟩ := List.exists_cons_of_ne_nil (Text.pieces_ne_nil policy.mark line.toList)
  rw [split_of_pieces policy hws]
  constructor
  case unmarked =>
    intro token htoken
    obtain ⟨v, hv, rfl⟩ := List.mem_map.mp htoken
    have hpiece : v ∈ Text.pieces policy.mark line.toList := by
      rw [hws]
      rcases List.mem_cons.mp (Text.mem_of_mem_dropTrailing hv) with rfl | hv
      · exact List.mem_cons_self
      · exact List.mem_cons_of_mem w (mem_of_mem_kept hv)
    rw [String.toList_ofList]
    exact Text.unmarked_of_mem_pieces hpiece
  case full =>
    rintro rfl token htoken
    rw [← List.map_tail, Text.tail_dropTrailing_cons] at htoken
    obtain ⟨v, hv, rfl⟩ := List.mem_map.mp htoken
    have hfull := (List.mem_filter.mp (Text.mem_of_mem_dropTrailing hv)).2
    intro hempty
    rw [String.ofList_eq_empty_iff.mp hempty, List.isEmpty_nil] at hfull
    exact absurd hfull Bool.false_ne_true
  case last =>
    rw [List.getLast?_map]
    intro hlast
    obtain ⟨v, hv, hempty⟩ := Option.map_eq_some_iff.mp hlast
    rw [String.ofList_eq_empty_iff.mp hempty] at hv
    exact Text.getLast?_dropTrailing _ hv

theorem admits_singleSpace_iff {tokens : List String} :
    singleSpace.Admits tokens ↔
      (∀ token ∈ tokens, Text.Unmarked (· == ' ') token.toList) ∧ tokens.getLast? ≠ some "" :=
  ⟨fun h => ⟨h.unmarked, h.last⟩, fun h => ⟨h.1, nofun, h.2⟩⟩

theorem Admits.kept_toList {policy : SplitPolicy} {token : String} {rest : List String}
    (h : policy.Admits (token :: rest)) :
    policy.kept (rest.map String.toList) = rest.map String.toList := by
  cases policy with
  | singleSpace => rfl
  | whitespace =>
    apply List.filter_eq_self.mpr
    intro w hw
    obtain ⟨t, ht, rfl⟩ := List.mem_map.mp hw
    simpa using h.full rfl t ht

theorem Admits.getLast?_toList {policy : SplitPolicy} {tokens : List String}
    (h : policy.Admits tokens) : (tokens.map String.toList).getLast? ≠ some [] := by
  rw [List.getLast?_map]
  intro hlast
  obtain ⟨t, ht, hempty⟩ := Option.map_eq_some_iff.mp hlast
  exact h.last (String.toList_eq_nil_iff.mp hempty ▸ ht)

theorem split_intercalate {policy : SplitPolicy} {tokens : List String}
    (h : policy.Admits tokens) : policy.split (" ".intercalate tokens) = tokens := by
  cases tokens with
  | nil => cases policy <;> rfl
  | cons token rest =>
    have hunmarked : ∀ w ∈ (token :: rest).map String.toList, Text.Unmarked policy.mark w := by
      intro w hw
      obtain ⟨t, ht, rfl⟩ := List.mem_map.mp hw
      exact h.unmarked t ht
    have hpieces : Text.pieces policy.mark (" ".intercalate (token :: rest)).toList =
        token.toList :: rest.map String.toList := by
      rw [String.toList_intercalate]
      exact Text.pieces_intercalate policy.mark_space (List.cons_ne_nil _ _) hunmarked
    rw [split_of_pieces policy hpieces, h.kept_toList, ← List.map_cons,
      Text.dropTrailing_eq_self h.getLast?_toList, List.map_map]
    simp

end SplitPolicy

/-- A line whose first token holds no blank is dispatched by that token. -/
theorem keywordOf?_of_split {policy : SplitPolicy} {line keyword : String}
    (h : (policy.split line).head? = some keyword) (hne : keyword ≠ "")
    (hblank : Text.Unmarked Text.isBlank keyword.toList) : keywordOf? line = some keyword := by
  obtain ⟨w, ws, hws⟩ := List.exists_cons_of_ne_nil (Text.pieces_ne_nil policy.mark line.toList)
  rw [SplitPolicy.split_of_pieces policy hws, List.head?_map] at h
  obtain ⟨v, hv, rfl⟩ := Option.map_eq_some_iff.mp h
  obtain rfl := Text.eq_of_head?_dropTrailing hv
  obtain ⟨rest, hrest, hmark, -⟩ := Text.eq_append_of_pieces hws
  have hstop : rest.head?.all Text.isBlank = true := by
    cases rest with
    | nil => rfl
    | cons c cs => exact SplitPolicy.isBlank_of_mark hmark
  rw [String.toList_ofList] at hblank
  have hfull : v ≠ [] := by
    rintro rfl
    exact hne rfl
  rw [keywordOf?, hrest, Text.firstRun?_append hfull hblank hstop, Option.map_some]

namespace Grammar

variable {g : Grammar}

theorem parse_eq_ok {line? : Option String} {d : Directive} :
    g.parse line? = .ok d ↔ ∃ line, line? = some line ∧ d.tokens = g.policy.split line ∧
      d.tokens.length = g.arity ∧ d.tokens.head? = some g.keyword := by
  cases line? with
  | none => simp [parse]
  | some line =>
    constructor
    · intro h
      by_cases hsize : (Directive.tokenize g.policy line).size = g.arity
      · by_cases hhead : (Directive.tokenize g.policy line).keyword? = some g.keyword
        · have hd : Directive.tokenize g.policy line = d := by simpa [parse, hsize, hhead] using h
          subst hd
          exact ⟨line, rfl, rfl, hsize, hhead⟩
        · simp [parse, hsize, hhead] at h
      · simp [parse, hsize] at h
    · rintro ⟨_, hline, htokens, hsize, hhead⟩
      obtain rfl := Option.some.inj hline
      have hd : Directive.tokenize g.policy line = d := congrArg Directive.mk htokens.symm
      simp [parse, hd, Directive.size, Directive.keyword?, hsize, hhead]

theorem admits_of_parse {line? : Option String} {d : Directive} (h : g.parse line? = .ok d) :
    g.policy.Admits d.tokens := by
  obtain ⟨line, -, htokens, -, -⟩ := parse_eq_ok.mp h
  rw [htokens]
  exact g.policy.admits_split line

theorem parse_line {d : Directive} (hadmits : g.policy.Admits d.tokens)
    (harity : d.tokens.length = g.arity) (hkeyword : d.tokens.head? = some g.keyword) :
    g.parse (some d.line) = .ok d :=
  parse_eq_ok.mpr ⟨d.line, rfl, (SplitPolicy.split_intercalate hadmits).symm, harity, hkeyword⟩

end Grammar
end RowDirectives
