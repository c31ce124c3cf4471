import RowDirectives.Proofs.Reading

/-! Numbers given as arguments, within 64 bits. Each token falls into one of two classes as a position, and into
one of three as a count, whatever its length: what a reader answers says which class it is, and what the token
is says what the reader answers. -/
namespace RowDirectives

open Number (Signed Unsigned padded signedLimit unsignedLimit)

theorem negative_ne_notInteger (name token : String) :
    s!"{name} '{token}' must not be negative." ≠ s!"{name} '{token}' is not an integer." := by
  intro h
  have htexts : name ++ " '" ++ token ++ "' must not be negative." =
      name ++ " '" ++ token ++ "' is not an integer." := h
  have hends := (String.append_right_inj _).mp htexts
  exact absurd hends (by decide)

namespace Directive

variable {d : Directive} {index : Nat} {token : String}

theorem position_of_token (h : d.tokens[index]? = some token) (name : String) :
    d.position index name = match Number.unsigned? token.toList with
      | some n => .ok n
      | none => .error (.invalidDirective s!"{name} '{token}' is not a non-negative integer.") := by
  rw [position, argument_eq_ok.mpr h]
  rfl

theorem count_of_token (h : d.tokens[index]? = some token) (name : String) :
    d.count index name = match Number.signed? token.toList with
      | some i =>
        if i < 0 then .error (.invalidDirective s!"{name} '{token}' must not be negative.")
        else .ok i.toNat
      | none => .error (.invalidDirective s!"{name} '{token}' is not an integer.") := by
  rw [count, argument_eq_ok.mpr h]
  rfl

theorem position_ok_iff (h : d.tokens[index]? = some token) (name : String) (n : Nat) :
    d.position index name = .ok n ↔ Unsigned token.toList n ∧ n < unsignedLimit := by
  rw [position_eq_ok, h, ← Number.unsigned?_eq_some]
  simp

theorem position_fault_iff (h : d.tokens[index]? = some token) (name : String) :
    d.position index name =
        .error (.invalidDirective s!"{name} '{token}' is not a non-negative integer.") ↔
      ¬ ∃ n, Unsigned token.toList n ∧ n < unsignedLimit := by
  simp only [position_of_token h, ← Number.unsigned?_eq_some]
  cases Number.unsigned? token.toList <;> simp

theorem count_ok_iff (h : d.tokens[index]? = some token) (name : String) (n : Nat) :
    d.count index name = .ok n ↔ Signed token.toList n ∧ n < signedLimit := by
  have hrange : n < signedLimit ↔ -(signedLimit : Int) ≤ (n : Int) ∧ (n : Int) < signedLimit := by omega
  rw [count_eq_ok, h, hrange, ← Number.signed?_eq_some]
  simp

theorem count_negative_iff (h : d.tokens[index]? = some token) (name : String) :
    d.count index name = .error (.invalidDirective s!"{name} '{token}' must not be negative.") ↔
      ∃ i, Signed token.toList i ∧ -(signedLimit : Int) ≤ i ∧ i < 0 := by
  have hread (i : Int) : Signed token.toList i ∧ -(signedLimit : Int) ≤ i ∧ i < 0 ↔
      Number.signed? token.toList = some i ∧ i < 0 := by
    rw [Number.signed?_eq_some, and_assoc]
    exact and_congr_right fun _ => by omega
  have hne := negative_ne_notInteger name token
  simp only [count_of_token h, hread]
  cases Number.signed? token.toList with
  | none => simp [hne.symm]
  | some i => by_cases hneg : i < 0 <;> simp [hneg]

theorem count_notInteger_iff (h : d.tokens[index]? = some token) (name : String) :
    d.count index name = .error (.invalidDirective s!"{name} '{token}' is not an integer.") ↔
      ¬ ∃ i, Signed token.toList i ∧ -(signedLimit : Int) ≤ i ∧ i < signedLimit := by
  have hne := negative_ne_notInteger name token
  simp only [count_of_token h, ← Number.signed?_eq_some]
  cases Number.signed? token.toList with
  | none => simp
  | some i => by_cases hneg : i < 0 <;> simp [hneg, hne]

/-- Numbers are read exactly. A token is a position if it is a numeral of at most 64 bits, perhaps after a plus
sign, and is refused otherwise. As a count it is one of three: a number from zero on, refused because it is
negative, or refused because it is no signed integer of 64 bits. The tokens of one number are its decimal text
after any number of zeros and perhaps a sign, so the text alone reads back; a minus sign may stand before a count
of zero only. Without one, both readers give the same number wherever a count can hold it. -/
theorem numbers_read_exactly (h : d.tokens[index]? = some token) (name : String) :
    (∀ n, d.position index name = .ok n ↔ Unsigned token.toList n ∧ n < Nat.pow 2 64) ∧
    (d.position index name =
        .error (.invalidDirective s!"{name} '{token}' is not a non-negative integer.") ↔
      ¬ ∃ n, Unsigned token.toList n ∧ n < Nat.pow 2 64) ∧
    (∀ n : Nat, d.count index name = .ok n ↔ Signed token.toList n ∧ n < Nat.pow 2 63) ∧
    (d.count index name =
        .error (.invalidDirective s!"{name} '{token}' must not be negative.") ↔
      ∃ i, Signed token.toList i ∧ -(Nat.pow 2 63 : Int) ≤ i ∧ i < 0) ∧
    (d.count index name =
        .error (.invalidDirective s!"{name} '{token}' is not an integer.") ↔
      ¬ ∃ i, Signed token.toList i ∧ -(Nat.pow 2 63 : Int) ≤ i ∧ i < Nat.pow 2 63) ∧
    (∀ n < Nat.pow 2 64, d.position index name = .ok n ↔
      ∃ zeros, token.toList = padded zeros n ∨ token.toList = '+' :: padded zeros n) ∧
    (∀ n < Nat.pow 2 63, d.count index name = .ok n ↔
      ∃ zeros, token.toList = padded zeros n ∨ token.toList = '+' :: padded zeros n ∨
        n = 0 ∧ token.toList = '-' :: padded zeros n) ∧
    ∀ n : Nat, '-' ∉ token.toList → Signed token.toList n → n < Nat.pow 2 63 →
      d.position index name = .ok n ∧ d.count index name = .ok n := by
  refine ⟨position_ok_iff h name, position_fault_iff h name, count_ok_iff h name,
    count_negative_iff h name, count_notInteger_iff h name, ?_, ?_, ?_⟩
  · intro n (hn : n < unsignedLimit)
    rw [position_ok_iff h, Number.unsigned_iff_padded, and_iff_left hn]
  · intro n (hn : n < signedLimit)
    rw [count_ok_iff h, Number.signed_iff_padded, and_iff_left hn]
  · intro n hminus hsigned hn
    have hunsigned := hsigned.unsigned_of_not_mem hminus
    have hlimits : signedLimit < unsignedLimit := by decide
    exact ⟨(position_ok_iff h name n).mpr ⟨hunsigned, Nat.lt_trans hn hlimits⟩,
      (count_ok_iff h name n).mpr ⟨hsigned, hn⟩⟩

theorem numbers_read_exactly_at_the_limits :
    (Directive.mk ["+00018446744073709551615"]).position 0 "start" = .ok 18446744073709551615 ∧
    (Directive.mk ["-0"]).position 0 "start" =
      .error (.invalidDirective "start '-0' is not a non-negative integer.") ∧
    (Directive.mk ["-00"]).count 0 "n" = .ok 0 ∧
    (Directive.mk ["-9223372036854775808"]).count 0 "n" =
      .error (.invalidDirective "n '-9223372036854775808' must not be negative.") ∧
    (Directive.mk ["9223372036854775808"]).count 0 "n" =
      .error (.invalidDirective "n '9223372036854775808' is not an integer.") ∧
    (Directive.mk ["+09223372036854775807"]).position 0 "n" = .ok 9223372036854775807 ∧
    (Directive.mk ["+09223372036854775807"]).count 0 "n" = .ok 9223372036854775807 := by
  have only (token : String) : (Directive.mk [token]).tokens[0]? = some token := rfl
  refine ⟨?_, ?_, ?_, ?_, ?_, ?_⟩
  · have hread := (numbers_read_exactly (only "+00018446744073709551615") "start").2.2.2.2.2.1
    exact (hread _ (by decide)).mpr ⟨3, .inr (by decide)⟩
  · have hnone : Number.unsigned? "-0".toList = none := by decide
    apply (numbers_read_exactly (only "-0") "start").2.1.mpr
    rintro ⟨n, hn⟩
    cases hnone.symm.trans (Number.unsigned?_eq_some.mpr hn)
  · have hread := (numbers_read_exactly (only "-00") "n").2.2.2.2.2.2.1
    exact (hread _ (by decide)).mpr ⟨1, by decide⟩
  · have hlowest : Signed ('-' :: padded 0 9223372036854775808) (-(9223372036854775808 : Nat)) :=
      .minus (Number.numeral_padded 0 _)
    have htext : "-9223372036854775808".toList = '-' :: padded 0 9223372036854775808 := by decide
    apply (numbers_read_exactly (only "-9223372036854775808") "n").2.2.2.1.mpr
    exact ⟨_, htext ▸ hlowest, by decide, by decide⟩
  · have hnone : Number.signed? "9223372036854775808".toList = none := by decide
    apply (numbers_read_exactly (only "9223372036854775808") "n").2.2.2.2.1.mpr
    rintro ⟨i, hi⟩
    cases hnone.symm.trans (Number.signed?_eq_some.mpr hi)
  · have hvalue : Signed "+09223372036854775807".toList (9223372036854775807 : Nat) :=
      Number.signed_iff_padded.mpr ⟨1, .inr (.inl (by decide))⟩
    have hread := (numbers_read_exactly (only "+09223372036854775807") "n").2.2.2.2.2.2.2
    exact hread _ (by decide) hvalue (by decide)

end Directive
end RowDirectives
