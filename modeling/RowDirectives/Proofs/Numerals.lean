import RowDirectives.Number.Digits
import RowDirectives.Proofs.Pieces

/-! Both readers of arguments read the decimal digits of a number back as that number. What a reader accepts
is exactly a decimal numeral, under the sign that the reader allows, whose value lies within its limits; and a
numeral is the decimal text of its value after any number of zeros. -/
namespace RowDirectives.Number

theorem digits_ne_nil (n : Nat) : digits n ≠ [] := Nat.toDigits_ne_nil

theorem isDigit_of_mem_digits {n : Nat} {c : Char} (h : c ∈ digits n) : c.isDigit = true :=
  Nat.isDigit_of_mem_toDigits (by decide) (by decide) h

theorem digits_eq_cons (n : Nat) : ∃ c cs, digits n = c :: cs ∧ c.isDigit = true := by
  obtain ⟨c, cs, hcs⟩ := List.exists_cons_of_ne_nil (digits_ne_nil n)
  refine ⟨c, cs, hcs, isDigit_of_mem_digits (n := n) ?_⟩
  rw [hcs]
  exact List.mem_cons_self

theorem ofDigits_digits (n : Nat) : ofDigits (digits n) = n := by
  have h : Nat.ofDigitChars 10 (digits n) 0 = n := Nat.ofDigitChars_ten_toDigits
  rwa [Nat.ofDigitChars_eq_foldl] at h

/-- No number but zero is written with a zero in front. -/
theorem head?_digits {n : Nat} (h : 0 < n) : (digits n).head? ≠ some '0' := by
  induction n using Nat.strongRecOn with
  | ind n ih =>
    by_cases hn : n < 10
    case pos =>
      have short : ∀ n < 10, 0 < n → (digits n).head? ≠ some '0' := by decide
      exact short n hn h
    case neg =>
      have hfront := ih (n / 10) (by omega) (by omega)
      obtain ⟨c, cs, hcs, -⟩ := digits_eq_cons (n / 10)
      rw [digits] at hcs hfront
      rw [digits, Nat.toDigits_of_base_le (by decide) (Nat.not_lt.mp hn), hcs]
      rwa [hcs] at hfront

theorem isBlank_of_isDigit {c : Char} (h : c.isDigit = true) : Text.isBlank c = false := by
  simp only [Char.isDigit, Bool.and_eq_true, decide_eq_true_eq] at h
  have hlow : 48 ≤ c.toNat := h.1
  have hhigh : c.toNat ≤ 57 := h.2
  simp [Text.isBlank, Text.blankRanges]
  omega

/-- One or more decimal digits, and the number that they stand for. -/
structure Numeral (cs : List Char) (n : Nat) : Prop where
  ne_nil : cs ≠ []
  isDigit : ∀ c ∈ cs, c.isDigit = true
  value : Nat.ofDigitChars 10 cs 0 = n

/-- Digits after a plus sign that may be missing. -/
inductive Unsigned : List Char → Nat → Prop
  | bare {cs : List Char} {n : Nat} : Numeral cs n → Unsigned cs n
  | plus {cs : List Char} {n : Nat} : Numeral cs n → Unsigned ('+' :: cs) n

/-- Digits after a sign that may be missing. -/
inductive Signed : List Char → Int → Prop
  | unsigned {cs : List Char} {n : Nat} : Unsigned cs n → Signed cs n
  | minus {cs : List Char} {n : Nat} : Numeral cs n → Signed ('-' :: cs) (-(n : Int))

theorem Numeral.exists_cons {cs : List Char} {n : Nat} (h : Numeral cs n) :
    ∃ c rest, cs = c :: rest ∧ c.isDigit = true := by
  obtain ⟨c, rest, rfl⟩ := List.exists_cons_of_ne_nil h.ne_nil
  exact ⟨c, rest, rfl, h.isDigit c List.mem_cons_self⟩

theorem Unsigned.ne_nil {cs : List Char} {n : Nat} (h : Unsigned cs n) : cs ≠ [] := by
  cases h with
  | bare hdigits => exact hdigits.ne_nil
  | plus => exact List.cons_ne_nil _ _

theorem Signed.ne_nil {cs : List Char} {i : Int} (h : Signed cs i) : cs ≠ [] := by
  cases h with
  | unsigned h => exact h.ne_nil
  | minus => exact List.cons_ne_nil _ _

theorem Numeral.unmarked {cs : List Char} {n : Nat} (h : Numeral cs n) :
    Text.Unmarked Text.isBlank cs :=
  fun c hc => isBlank_of_isDigit (h.isDigit c hc)

theorem Unsigned.unmarked {cs : List Char} {n : Nat} (h : Unsigned cs n) :
    Text.Unmarked Text.isBlank cs := by
  cases h with
  | bare hdigits => exact hdigits.unmarked
  | plus hdigits => exact List.forall_mem_cons.mpr ⟨by decide, hdigits.unmarked⟩

theorem Signed.unmarked {cs : List Char} {i : Int} (h : Signed cs i) :
    Text.Unmarked Text.isBlank cs := by
  cases h with
  | unsigned h => exact h.unmarked
  | minus hdigits => exact List.forall_mem_cons.mpr ⟨by decide, hdigits.unmarked⟩

theorem digits?_eq_some {cs : List Char} {n : Nat} : digits? cs = some n ↔ Numeral cs n := by
  have hvalue : ofDigits cs = Nat.ofDigitChars 10 cs 0 := Nat.ofDigitChars_eq_foldl.symm
  constructor
  · intro h
    obtain ⟨⟨hne, hdigits⟩, hn⟩ : (cs ≠ [] ∧ ∀ c ∈ cs, c.isDigit = true) ∧ ofDigits cs = n := by
      simpa [digits?] using h
    exact ⟨hne, hdigits, hvalue.symm.trans hn⟩
  · intro h
    simpa [digits?, hvalue, h.value, h.ne_nil] using h.isDigit

theorem filter_digits?_eq_some {cs : List Char} {n : Nat} {p : Nat → Bool} :
    (digits? cs).filter p = some n ↔ Numeral cs n ∧ p n = true := by
  rw [Option.filter_eq_some_iff, digits?_eq_some]

theorem unsigned?_of_isDigit {c : Char} (h : c.isDigit = true) (cs : List Char) :
    unsigned? (c :: cs) = (digits? (c :: cs)).filter (· < unsignedLimit) := by
  rw [unsigned?]
  rintro rest hsign
  obtain ⟨rfl, -⟩ := List.cons.inj hsign
  exact absurd h (by decide)

theorem signed?_of_isDigit {c : Char} (h : c.isDigit = true) (cs : List Char) :
    signed? (c :: cs) = ((digits? (c :: cs)).filter (· < signedLimit)).map Int.ofNat := by
  rw [signed?]
  · rintro rest hsign
    obtain ⟨rfl, -⟩ := List.cons.inj hsign
    exact absurd h (by decide)
  · rintro rest hsign
    obtain ⟨rfl, -⟩ := List.cons.inj hsign
    exact absurd h (by decide)

theorem unsigned?_eq_some {cs : List Char} {n : Nat} :
    unsigned? cs = some n ↔ Unsigned cs n ∧ n < unsignedLimit := by
  constructor
  · intro h
    unfold unsigned? at h
    obtain ⟨hdigits, hlimit⟩ := filter_digits?_eq_some.mp h
    refine ⟨?_, of_decide_eq_true hlimit⟩
    split at hdigits
    · exact .plus hdigits
    · exact .bare hdigits
  · rintro ⟨hform, hlimit⟩
    cases hform with
    | bare hdigits =>
      obtain ⟨c, rest, rfl, hc⟩ := hdigits.exists_cons
      rw [unsigned?_of_isDigit hc, filter_digits?_eq_some]
      exact ⟨hdigits, decide_eq_true hlimit⟩
    | plus hdigits => exact filter_digits?_eq_some.mpr ⟨hdigits, decide_eq_true hlimit⟩

theorem signed?_eq_some {cs : List Char} {i : Int} :
    signed? cs = some i ↔ Signed cs i ∧ -(signedLimit : Int) ≤ i ∧ i < signedLimit := by
  have hlimit : 0 < signedLimit := by decide
  have bounds {n : Nat} (hn : decide (n < signedLimit) = true) :
      -(signedLimit : Int) ≤ Int.ofNat n ∧ Int.ofNat n < signedLimit := by
    have hlt : n < signedLimit := of_decide_eq_true hn
    change -(signedLimit : Int) ≤ (n : Int) ∧ (n : Int) < signedLimit
    omega
  constructor
  · intro h
    unfold signed? at h
    split at h
    case h_1 rest =>
      -- The value becomes an integer before it changes its sign.
      obtain ⟨_, hcast, rfl⟩ := Option.map_eq_some_iff.mp h
      obtain ⟨n, hn, hcast⟩ := Option.bind_eq_some_iff.mp hcast
      obtain rfl : (n : Int) = _ := Option.some.inj hcast
      obtain ⟨hdigits, hn⟩ := filter_digits?_eq_some.mp hn
      have hle : n ≤ signedLimit := of_decide_eq_true hn
      exact ⟨.minus hdigits, by omega, by omega⟩
    case h_2 rest =>
      obtain ⟨n, hn, rfl⟩ := Option.map_eq_some_iff.mp h
      obtain ⟨hdigits, hn⟩ := filter_digits?_eq_some.mp hn
      exact ⟨.unsigned (.plus hdigits), bounds hn⟩
    case h_3 =>
      obtain ⟨n, hn, rfl⟩ := Option.map_eq_some_iff.mp h
      obtain ⟨hdigits, hn⟩ := filter_digits?_eq_some.mp hn
      exact ⟨.unsigned (.bare hdigits), bounds hn⟩
  · rintro ⟨hform, hlow, hhigh⟩
    cases hform with
    | unsigned hform =>
      have hn := decide_eq_true (Int.ofNat_lt.mp hhigh)
      cases hform with
      | bare hdigits =>
        obtain ⟨c, rest, rfl, hc⟩ := hdigits.exists_cons
        rw [signed?_of_isDigit hc, filter_digits?_eq_some.mpr ⟨hdigits, hn⟩]
        rfl
      | plus hdigits =>
        rw [signed?, filter_digits?_eq_some.mpr ⟨hdigits, hn⟩]
        rfl
    | @minus _ n hdigits =>
      have hn : n ≤ signedLimit := by omega
      rw [signed?, filter_digits?_eq_some.mpr ⟨hdigits, decide_eq_true hn⟩]
      rfl

theorem numeral_digits (n : Nat) : Numeral (digits n) n :=
  ⟨digits_ne_nil n, fun _ => isDigit_of_mem_digits, Nat.ofDigitChars_ten_toDigits⟩

theorem unsigned?_text {n : Nat} (h : n < unsignedLimit) :
    unsigned? (text n).toList = some n := by
  rw [text, String.toList_ofList, unsigned?_eq_some]
  exact ⟨.bare (numeral_digits n), h⟩

theorem signed?_text {n : Nat} (h : n < signedLimit) :
    signed? (text n).toList = some (n : Int) := by
  rw [text, String.toList_ofList, signed?_eq_some]
  exact ⟨.unsigned (.bare (numeral_digits n)), by omega, by omega⟩

theorem unmarked_text (n : Nat) : Text.Unmarked Text.isBlank (text n).toList := by
  rw [text, String.toList_ofList]
  exact (numeral_digits n).unmarked

theorem text_ne_empty (n : Nat) : text n ≠ "" := by
  intro hempty
  exact digits_ne_nil n (String.ofList_eq_empty_iff.mp hempty)

/-- Zeros and the decimal text of a number: all that stands for the number without a sign. -/
def padded (zeros n : Nat) : List Char := List.replicate zeros '0' ++ digits n

theorem Numeral.zero_cons {cs : List Char} {n : Nat} (h : Numeral cs n) : Numeral ('0' :: cs) n where
  ne_nil := List.cons_ne_nil _ _
  isDigit := List.forall_mem_cons.mpr ⟨rfl, h.isDigit⟩
  value := by
    rw [Nat.ofDigitChars_cons]
    exact h.value

theorem numeral_padded (zeros n : Nat) : Numeral (padded zeros n) n := by
  induction zeros with
  | zero => exact numeral_digits n
  | succ zeros ih => exact ih.zero_cons

theorem digitValue_lt {c : Char} (h : c.isDigit = true) : digitValue c < 10 := by
  have hhigh : c.toNat ≤ 57 := (Char.isDigit_iff_toNat.mp h).2
  change c.toNat - 48 < 10
  omega

theorem digits_digitValue {c : Char} (h : c.isDigit = true) : digits (digitValue c) = [c] := by
  have hchar : Nat.digitChar (digitValue c) = c := by
    have hlow : 48 ≤ c.toNat := (Char.isDigit_iff_toNat.mp h).1
    rw [← Char.toNat_inj, Nat.toNat_digitChar_of_lt_ten (digitValue_lt h)]
    change 48 + (c.toNat - 48) = c.toNat
    omega
  rw [digits, Nat.toDigits_of_lt_base (digitValue_lt h), hchar]

/-- Digits that are read on from a number stand after its text. From zero they do not: zero has a digit of
its own. -/
theorem digits_ofDigitChars {cs : List Char} (h : ∀ c ∈ cs, c.isDigit = true) {n : Nat} (hn : 0 < n) :
    digits (Nat.ofDigitChars 10 cs n) = digits n ++ cs := by
  induction cs generalizing n with
  | nil => simp
  | cons c cs ih =>
    obtain ⟨hc, hcs⟩ := List.forall_mem_cons.mp h
    have hstep : digits (10 * n + digitValue c) = digits n ++ [c] := by
      rw [← digits_digitValue hc]
      exact (Nat.toDigits_append_toDigits (by decide) hn (digitValue_lt hc)).symm
    calc digits (Nat.ofDigitChars 10 (c :: cs) n)
        = digits (Nat.ofDigitChars 10 cs (10 * n + digitValue c)) := by
          rw [Nat.ofDigitChars_cons, digitValue]
      _ = digits (10 * n + digitValue c) ++ cs := ih hcs (by omega)
      _ = digits n ++ c :: cs := by rw [hstep, List.append_assoc, List.singleton_append]

theorem Numeral.exists_padded {cs : List Char} {n : Nat} (h : Numeral cs n) :
    ∃ zeros, cs = padded zeros n := by
  induction cs with
  | nil => exact absurd rfl h.ne_nil
  | cons c cs ih =>
    obtain ⟨hc, hcs⟩ := List.forall_mem_cons.mp h.isDigit
    have hvalue : Nat.ofDigitChars 10 cs (digitValue c) = n := by
      rw [← h.value, Nat.ofDigitChars_cons, Nat.mul_zero, Nat.zero_add, digitValue]
    by_cases hsingle : cs = []
    case pos =>
      refine ⟨0, ?_⟩
      rw [hsingle, Nat.ofDigitChars_nil] at hvalue
      rw [hsingle, ← hvalue, padded, digits_digitValue hc]
      rfl
    case neg =>
      -- A zero in front leaves a numeral of the same value; after any other digit the rest is text.
      obtain hzero | hpos := Nat.eq_zero_or_pos (digitValue c)
      · obtain ⟨zeros, rfl⟩ := ih ⟨hsingle, hcs, hzero ▸ hvalue⟩
        have hfirst : digits 0 = [c] := hzero ▸ digits_digitValue hc
        obtain rfl : '0' = c := List.singleton_inj.mp hfirst
        exact ⟨zeros + 1, rfl⟩
      · refine ⟨0, ?_⟩
        rw [← hvalue, padded, digits_ofDigitChars hcs hpos, digits_digitValue hc]
        rfl

theorem unsigned_iff_padded {cs : List Char} {n : Nat} :
    Unsigned cs n ↔ ∃ zeros, cs = padded zeros n ∨ cs = '+' :: padded zeros n := by
  constructor
  · intro h
    cases h with
    | bare hdigits =>
      obtain ⟨zeros, rfl⟩ := hdigits.exists_padded
      exact ⟨zeros, .inl rfl⟩
    | plus hdigits =>
      obtain ⟨zeros, rfl⟩ := hdigits.exists_padded
      exact ⟨zeros, .inr rfl⟩
  · rintro ⟨zeros, rfl | rfl⟩
    · exact .bare (numeral_padded zeros n)
    · exact .plus (numeral_padded zeros n)

/-- Under a minus sign there is one natural number, zero. -/
theorem signed_iff_padded {cs : List Char} {n : Nat} :
    Signed cs n ↔ ∃ zeros, cs = padded zeros n ∨ cs = '+' :: padded zeros n ∨
      n = 0 ∧ cs = '-' :: padded zeros n := by
  constructor
  · intro h
    generalize hi : (n : Int) = i at h
    cases h with
    | unsigned h =>
      obtain rfl := Int.ofNat_inj.mp hi
      obtain ⟨zeros, h⟩ := unsigned_iff_padded.mp h
      exact ⟨zeros, h.imp_right .inl⟩
    | @minus cs m hdigits =>
      obtain ⟨rfl, rfl⟩ : n = 0 ∧ m = 0 := by omega
      obtain ⟨zeros, rfl⟩ := hdigits.exists_padded
      exact ⟨zeros, .inr (.inr ⟨rfl, rfl⟩)⟩
  · rintro ⟨zeros, rfl | rfl | ⟨rfl, rfl⟩⟩
    · exact .unsigned (.bare (numeral_padded zeros n))
    · exact .unsigned (.plus (numeral_padded zeros n))
    · exact .minus (numeral_padded zeros 0)

theorem Signed.unsigned_of_not_mem {cs : List Char} {n : Nat} (h : Signed cs n) (hminus : '-' ∉ cs) :
    Unsigned cs n := by
  generalize hi : (n : Int) = i at h
  cases h with
  | unsigned h => exact Int.ofNat_inj.mp hi ▸ h
  | minus => exact absurd List.mem_cons_self hminus

end RowDirectives.Number
