import RowDirectives.Proofs.Numerals
import RowDirectives.Proofs.Tokens
import RowDirectives.Stage.Basic

/-! Which arguments and which stages the readers accept: for each of them, exactly when it succeeds. -/
namespace RowDirectives

theorem Fault.bind_eq_ok {α β : Type} {x : Except Fault α} {f : α → Except Fault β} {b : β} :
    (x >>= f) = .ok b ↔ ∃ a, x = .ok a ∧ f a = .ok b := by
  cases x <;> simp [bind, Except.bind]

theorem Side.read_name (side : Side) : Side.read side.name = .ok side := by
  cases side <;> rfl

namespace Directive

variable {d : Directive} {index : Nat} {name : String}

theorem argument_eq_ok {token : String} :
    d.argument index = .ok token ↔ d.tokens[index]? = some token := by
  rw [argument]
  cases d.tokens[index]? <;> simp

theorem position_eq_ok {n : Nat} : d.position index name = .ok n ↔
    ∃ token, d.tokens[index]? = some token ∧ Number.unsigned? token.toList = some n := by
  simp only [position, Fault.bind_eq_ok, argument_eq_ok]
  apply exists_congr
  intro token
  cases Number.unsigned? token.toList <;> simp

theorem character_eq_ok {c : Char} : d.character index name = .ok c ↔
    ∃ token, d.tokens[index]? = some token ∧ token.toList = [c] := by
  simp only [character, Fault.bind_eq_ok, argument_eq_ok]
  apply exists_congr
  intro token
  split <;> simp_all

theorem count_eq_ok {n : Nat} : d.count index name = .ok n ↔
    ∃ token, d.tokens[index]? = some token ∧ Number.signed? token.toList = some (n : Int) := by
  simp only [count, Fault.bind_eq_ok, argument_eq_ok]
  apply exists_congr
  intro token
  cases Number.signed? token.toList with
  | none => simp
  | some i =>
    by_cases hneg : i < 0
    · have hne : i ≠ n := by omega
      simp [hneg, hne]
    · have heq : i.toNat = n ↔ i = n := by omega
      simp [hneg, heq]

end Directive

namespace Kind

variable {kind : Kind} {stage : Stage}

theorem read_eq_ok {line? : Option String} : kind.read line? = .ok stage ↔
    ∃ d, kind.grammar.parse line? = .ok d ∧ kind.stageOf d = .ok stage := by
  rw [read]
  cases kind.grammar.parse line? <;> simp [Except.bind]

theorem stageOf_maskRange_eq_ok {word column first last : String} :
    maskRange.stageOf ⟨[word, column, first, last]⟩ = .ok stage ↔
      ∃ start stop, Number.unsigned? first.toList = some start ∧
        Number.unsigned? last.toList = some stop ∧ start ≤ stop ∧
        stage = .mask column (.range start stop) := by
  simp only [stageOf, Fault.bind_eq_ok, Directive.argument_eq_ok, Directive.position_eq_ok]
  constructor
  · rintro ⟨_, hcolumn, start, ⟨_, hfirst, hstart⟩, stop, ⟨_, hlast, hstop⟩, h⟩
    obtain rfl := Option.some.inj hcolumn
    obtain rfl := Option.some.inj hfirst
    obtain rfl := Option.some.inj hlast
    split at h
    · cases h
    · rename_i hle
      exact ⟨start, stop, hstart, hstop, Nat.not_lt.mp hle, (Except.ok.inj h).symm⟩
  · rintro ⟨start, stop, hstart, hstop, hle, rfl⟩
    refine ⟨column, rfl, start, ⟨first, rfl, hstart⟩, stop, ⟨last, rfl, hstop⟩, ?_⟩
    rw [if_neg (Nat.not_lt.mpr hle)]
    rfl

theorem stageOf_maskSubstitution_eq_ok {word column side cover count : String} :
    maskSubstitution.stageOf ⟨[word, column, side, cover, count]⟩ = .ok stage ↔
      ∃ s c n, Side.read side = .ok s ∧ cover.toList = [c] ∧
        Number.signed? count.toList = some (n : Nat) ∧
        stage = .mask column (.substitution s c n) := by
  simp only [stageOf, Fault.bind_eq_ok, Directive.argument_eq_ok, Directive.character_eq_ok,
    Directive.count_eq_ok]
  constructor
  · rintro ⟨_, hcolumn, _, hside, s, hs, c, ⟨_, hcover, hc⟩, n, ⟨_, hcount, hn⟩, h⟩
    obtain rfl := Option.some.inj hcolumn
    obtain rfl := Option.some.inj hside
    obtain rfl := Option.some.inj hcover
    obtain rfl := Option.some.inj hcount
    exact ⟨s, c, n, hs, hc, hn, (Except.ok.inj h).symm⟩
  · rintro ⟨s, c, n, hs, hc, hn, rfl⟩
    exact ⟨column, rfl, side, rfl, s, hs, c, ⟨cover, rfl, hc⟩, n, ⟨count, rfl, hn⟩, rfl⟩

theorem keyword_ne_empty (kind : Kind) : kind.keyword ≠ "" := by
  cases kind <;> decide

theorem unmarked_keyword (kind : Kind) : Text.Unmarked Text.isBlank kind.keyword.toList := by
  cases kind <;> decide

theorem keywordOf?_of_read {line : String} (h : kind.read (some line) = .ok stage) :
    keywordOf? line = some kind.keyword := by
  obtain ⟨d, hparse, -⟩ := read_eq_ok.mp h
  obtain ⟨_, hline, htokens, -, hhead⟩ := Grammar.parse_eq_ok.mp hparse
  obtain rfl := Option.some.inj hline
  rw [htokens] at hhead
  exact keywordOf?_of_split hhead kind.keyword_ne_empty kind.unmarked_keyword

theorem eq_of_keyword_of_arity {kind other : Kind} (hkeyword : kind.keyword = other.keyword)
    (harity : kind.grammar.arity = other.grammar.arity) : kind = other := by
  cases kind <;> cases other <;> simp_all [keyword, grammar]

theorem policy_eq_of_keyword {kind other : Kind} (hkeyword : kind.keyword = other.keyword) :
    kind.grammar.policy = other.grammar.policy := by
  cases kind <;> cases other <;> simp_all [keyword, grammar]

end Kind
end RowDirectives
