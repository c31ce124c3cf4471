import RowDirectives.Json.Token
import RowDirectives.Proofs.Numerals

/-! Strings and numbers in a JSON text. Every way in which a character is written between quotes is scanned
as one piece that stands for it, so a quoted text is read as itself. The texts of integers and of doubles all
have the form of a number, and a scanner takes such a text as a whole if nothing goes on with it. -/
namespace RowDirectives

namespace Json

section Strings

/-- How a character may be written between quotes, and the piece that is scanned there. -/
inductive Escaped (c : Char) : List Char → Piece → Prop
  | plain : c ≠ '"' → c ≠ '\\' → 0x20 ≤ c.toNat → Escaped c [c] (.char c)
  | short {letter : Char} : letter ≠ 'u' → unescape? letter = some c →
      Escaped c ['\\', letter] (.char c)
  | unit {high low : Char} : c.toNat < 0x20 → hexUnit? '0' '0' high low = some c.toNat →
      Escaped c ['\\', 'u', '0', '0', high, low] (.unit c.toNat)

variable {c : Char} {cs rest written : List Char} {piece : Piece} {pieces : List Piece}

theorem hexUnit?_of_control {n : Nat} (h : n < 0x20) :
    hexUnit? '0' '0' (Nat.digitChar (n / 16)) (Nat.digitChar (n % 16)) = some n := by
  have control : ∀ n < 0x20,
      hexUnit? '0' '0' (Nat.digitChar (n / 16)) (Nat.digitChar (n % 16)) = some n := by decide
  exact control n h

theorem exists_escaped (c : Char) : ∃ piece, Escaped c (escape c) piece := by
  unfold escape
  split
  case h_8 hquote hslash _ _ _ _ _ =>
    split
    case isTrue h => exact ⟨_, .unit h (hexUnit?_of_control h)⟩
    case isFalse h => exact ⟨_, .plain hquote hslash (Nat.not_lt.mp h)⟩
  all_goals exact ⟨_, .short (by decide) (by decide)⟩

theorem Escaped.scanString (h : Escaped c written piece)
    (hrest : scanString cs = some (pieces, rest)) :
    scanString (written ++ cs) = some (piece :: pieces, rest) := by
  cases h with
  | plain hquote hslash hvisible =>
    rw [List.singleton_append, Json.scanString, if_neg (Nat.not_lt.mpr hvisible), hrest]
    · rfl
    · exact hquote
    · exact fun _ _ _ _ _ h => absurd h hslash
    · exact fun _ _ h => absurd h hslash
  | short hletter hchar =>
    rw [List.cons_append, List.singleton_append, Json.scanString, hchar, hrest]
    · rfl
    · exact fun _ _ _ _ _ h => absurd h hletter
  | unit _ hunit => simp [Json.scanString, hunit, hrest]

theorem joinPieces_unit {n : Nat} (h : n < 0x20) (pieces : List Piece) :
    joinPieces (.unit n :: pieces) = (joinPieces pieces).map (Char.ofNat n :: ·) := by
  have hhigh : isHighSurrogate n = false := by
    simp only [isHighSurrogate, Bool.and_eq_false_iff, decide_eq_false_iff_not]
    omega
  have hlow : isLowSurrogate n = false := by
    simp only [isLowSurrogate, Bool.and_eq_false_iff, decide_eq_false_iff_not]
    omega
  rcases pieces with - | ⟨_ | _, _⟩ <;> simp [joinPieces, hhigh, hlow]

theorem Escaped.joinPieces (h : Escaped c written piece) (pieces : List Piece) :
    joinPieces (piece :: pieces) = (joinPieces pieces).map (c :: ·) := by
  cases h with
  | plain => rfl
  | short => rfl
  | unit hcontrol => rw [joinPieces_unit hcontrol, Char.ofNat_toNat]

theorem scanString_escape (cs rest : List Char) :
    ∃ pieces, scanString (cs.flatMap escape ++ '"' :: rest) = some (pieces, rest) ∧
      joinPieces pieces = some cs := by
  induction cs with
  | nil => exact ⟨[], by rw [List.flatMap_nil, List.nil_append, scanString], rfl⟩
  | cons c cs ih =>
    obtain ⟨pieces, hscan, hjoin⟩ := ih
    obtain ⟨piece, hescaped⟩ := exists_escaped c
    refine ⟨piece :: pieces, ?_, ?_⟩
    · rw [List.flatMap_cons, List.append_assoc]
      exact hescaped.scanString hscan
    · rw [hescaped.joinPieces, hjoin]
      rfl

/-- A quoted text is one token, up to its own closing quote, and stands for itself. -/
theorem scanToken_quote (s : String) (rest : List Char) :
    scanToken (quote s ++ rest) = some (.string (some s), rest) := by
  obtain ⟨pieces, hscan, hjoin⟩ := scanString_escape s.toList rest
  rw [quote, List.append_assoc, List.cons_append, List.singleton_append, scanToken, hscan]
  simp [hjoin]

end Strings

/-- What may stand after a number: nothing that would go on with it. -/
def Ends (rest : List Char) : Prop :=
  ∀ c ∈ rest.head?, c.isDigit = false ∧ c ≠ '.' ∧ c ≠ 'e' ∧ c ≠ 'E'

namespace Literal

def fractionChars : Option (List Char) → List Char
  | none => []
  | some ds => '.' :: ds

/-- A power is written with its sign, whichever it is. -/
def powerChars : Option Int → List Char
  | none => []
  | some power => 'e' :: (if power < 0 then '-' else '+') :: Number.digits power.natAbs

def unsignedChars (l : Literal) : List Char :=
  l.whole ++ (fractionChars l.fraction ++ powerChars l.power)

def chars (l : Literal) : List Char :=
  if l.negative then '-' :: l.unsignedChars else l.unsignedChars

/-- No digit follows a leading zero, and a fraction has digits. -/
structure Proper (l : Literal) : Prop where
  ne_nil : l.whole ≠ []
  isDigit : ∀ c ∈ l.whole, c.isDigit = true
  lead : l.whole.head? = some '0' → l.whole = ['0']
  fraction : ∀ ds ∈ l.fraction, ds ≠ [] ∧ ∀ c ∈ ds, c.isDigit = true

variable {ds rest : List Char}

theorem span_isDigit (hds : ∀ c ∈ ds, c.isDigit = true) (hrest : ∀ c ∈ rest.head?, c.isDigit = false) :
    (ds ++ rest).takeWhile Char.isDigit = ds ∧ (ds ++ rest).dropWhile Char.isDigit = rest := by
  rw [List.takeWhile_append_of_pos hds, List.dropWhile_append_of_pos hds]
  cases rest with
  | nil => simp
  | cons c rest => simp [hrest c rfl]

theorem scanPower_chars (power : Option Int) (hrest : Ends rest) :
    scanPower (powerChars power ++ rest) = some (power, rest) := by
  cases power with
  | none =>
    cases rest with
    | nil => rfl
    | cons c rest =>
      obtain ⟨-, -, he, hE⟩ := hrest c rfl
      simp [powerChars, scanPower, he, hE]
  | some power =>
    obtain ⟨htake, hdrop⟩ := span_isDigit (fun c => Number.isDigit_of_mem_digits (n := power.natAbs))
      fun c hc => (hrest c hc).1
    obtain ⟨c, cs, hcs, -⟩ := Number.digits_eq_cons power.natAbs
    have hsize : ((Number.ofDigits (c :: cs) : Nat) : Int) = power.natAbs := by
      rw [← hcs, Number.ofDigits_digits]
    rw [hcs, List.cons_append] at htake hdrop
    by_cases hneg : power < 0
    case pos =>
      have hvalue : -((Number.ofDigits (c :: cs) : Nat) : Int) = power := by omega
      simp [powerChars, hneg, hcs, scanPower, htake, hdrop, hvalue]
    case neg =>
      have hvalue : ((Number.ofDigits (c :: cs) : Nat) : Int) = power := by omega
      simp [powerChars, hneg, hcs, scanPower, htake, hdrop, hvalue]

theorem ends_head_powerChars (power : Option Int) (hrest : Ends rest) :
    ∀ c ∈ (powerChars power ++ rest).head?, c.isDigit = false ∧ c ≠ '.' := by
  intro c hc
  cases power with
  | none => exact ⟨(hrest c hc).1, (hrest c hc).2.1⟩
  | some power =>
    obtain rfl : 'e' = c := Option.some.inj hc
    decide

theorem scanFraction_chars (fraction : Option (List Char))
    (hdigits : ∀ ds ∈ fraction, ds ≠ [] ∧ ∀ c ∈ ds, c.isDigit = true)
    (hrest : ∀ c ∈ rest.head?, c.isDigit = false ∧ c ≠ '.') :
    scanFraction (fractionChars fraction ++ rest) = some (fraction, rest) := by
  cases fraction with
  | none =>
    rw [fractionChars, List.nil_append, scanFraction]
    rintro cs rfl
    exact absurd rfl (hrest '.' rfl).2
  | some ds =>
    obtain ⟨hne, hds⟩ := hdigits ds rfl
    obtain ⟨htake, hdrop⟩ := span_isDigit hds fun c hc => (hrest c hc).1
    obtain ⟨c, cs, rfl⟩ := List.exists_cons_of_ne_nil hne
    rw [List.cons_append] at htake hdrop
    simp only [fractionChars, List.cons_append, scanFraction, htake, hdrop]

theorem isDigit_head_fractionChars (fraction : Option (List Char))
    (hrest : ∀ c ∈ rest.head?, c.isDigit = false ∧ c ≠ '.') :
    ∀ c ∈ (fractionChars fraction ++ rest).head?, c.isDigit = false := by
  intro c hc
  cases fraction with
  | none => exact (hrest c hc).1
  | some ds =>
    obtain rfl : '.' = c := Option.some.inj hc
    decide

/-- A number is scanned as it is written, up to what cannot go on with it. -/
theorem scanNumber_chars {l : Literal} (hl : l.Proper) (hrest : Ends rest) :
    scanNumber (l.chars ++ rest) = some (l, rest) := by
  have hpower := scanPower_chars l.power hrest
  have hafter := ends_head_powerChars l.power hrest
  have hfraction := scanFraction_chars l.fraction hl.fraction hafter
  obtain ⟨htake, hdrop⟩ := span_isDigit hl.isDigit (isDigit_head_fractionChars l.fraction hafter)
  obtain ⟨negative, whole, fraction, power⟩ := l
  obtain ⟨c, ds, rfl⟩ := List.exists_cons_of_ne_nil hl.ne_nil
  have hminus : c ≠ '-' := by
    rintro rfl
    exact absurd (hl.isDigit '-' List.mem_cons_self) (by decide)
  have hlead : ds = [] ∨ c ≠ '0' := by
    by_cases hzero : c = '0'
    · exact .inl (List.cons.inj (hl.lead (congrArg some hzero))).2
    · exact .inr hzero
  -- The scanner tells a sign and a single leading digit apart from all other beginnings.
  cases negative <;> rcases hlead with rfl | hlead <;> simp_all [chars, unsignedChars, scanNumber]

def ofInt (i : Int) : Literal := ⟨i < 0, Number.digits i.natAbs, none, none⟩

theorem chars_ofInt (i : Int) : (ofInt i).chars = Number.signedDigits i := by
  simp [chars, unsignedChars, ofInt, fractionChars, powerChars, Number.signedDigits]

theorem proper_ofInt (i : Int) : (ofInt i).Proper where
  ne_nil := Number.digits_ne_nil _
  isDigit _ := Number.isDigit_of_mem_digits
  lead h := by
    by_cases hzero : i.natAbs = 0
    · rw [ofInt, hzero]
      rfl
    · exact absurd h (Number.head?_digits (Nat.pos_of_ne_zero hzero))
  fraction ds h := by cases h

/-- The integers that are read as such are those of 64 bits, with or without a sign. -/
theorem numeral?_ofInt {i : Int} (hlow : leastInt ≤ i) (hhigh : i ≤ greatestInt) :
    (ofInt i).numeral? = some (.int i) := by
  simp only [leastInt, greatestInt] at hlow hhigh
  have hint : (ofInt i).int? = some i := by
    simp only [int?, ofInt, Number.ofDigits_digits, Option.isNone_none, Bool.and_self, if_true,
      decide_eq_true_eq]
    split
    case isTrue hneg =>
      have hsize : (decide (0 < i.natAbs) && decide (i.natAbs ≤ Number.signedLimit)) = true := by
        simp only [Bool.and_eq_true, decide_eq_true_eq]
        omega
      rw [if_pos hsize]
      exact congrArg some (by omega)
    case isFalse hpos =>
      rw [if_pos (by omega)]
      exact congrArg some (by omega)
  rw [numeral?, hint]

end Literal
end Json

namespace Number

open Json (Literal)

/-- What a decimal has to be for its text to be a number: no zero stands in front but that of zero itself,
and only a decimal that is written plain may lack digits. -/
structure Decimal.Proper (d : Decimal) : Prop where
  isDigit : ∀ c ∈ d.digits, c.isDigit = true
  lead : d.digits.head? = some '0' → d = ⟨['0'], 0⟩
  empty : d.digits = [] → d.exponent = 0

namespace Magnitude

theorem holds_zero {m : Magnitude} (h : m.mantissa ≠ 0) (power : Int) :
    m.neighbourhood.holds 0 power = false := by
  have hlow : 0 < m.neighbourhood.low := by
    apply Nat.mul_pos _ (Nat.pow_pos (by decide))
    split <;> omega
  have hscale : 0 < Nat.pow 10 (-power).toNat := Nat.pow_pos (by decide)
  have hpoint : 0 < m.neighbourhood.low * Nat.pow 10 (-power).toNat := Nat.mul_pos hlow hscale
  simp only [Neighbourhood.holds, Nat.zero_mul, decide_eq_false (Nat.not_le.mpr hpoint), Nat.not_lt_zero,
    decide_false, Bool.false_and, ite_self]

theorem holds_of_onGrid? {b : Neighbourhood} {power : Int} {n : Nat} (h : b.onGrid? power = some n) :
    b.holds n power = true := by
  have either (near other : Nat) (h : (if b.holds near power then some near
      else if b.holds other power then some other else none) = some n) : b.holds n power = true := by
    split at h
    · rwa [← Option.some.inj h]
    · split at h
      · rwa [← Option.some.inj h]
      · cases h
  exact either _ _ h

theorem search_ne_zero {m : Magnitude} (h : m.mantissa ≠ 0) {lead : Int} {count size n : Nat}
    {power : Int} (hsearch : m.neighbourhood.search lead count size = some (n, power)) : n ≠ 0 := by
  induction count generalizing size with
  | zero => cases hsearch
  | succ count ih =>
    rw [Neighbourhood.search] at hsearch
    split at hsearch
    next hgrid =>
      cases hsearch
      rintro rfl
      exact absurd (holds_of_onGrid? hgrid) (by simp [holds_zero h])
    next => exact ih hsearch

theorem dropZeros_cons {c : Char} (hc : c ≠ '0') (cs : List Char) :
    dropZeros (c :: cs) = c :: dropZeros cs := by
  have hkept : (c == '0') = false := beq_false_of_ne hc
  rw [dropZeros, List.reverse_cons, List.dropWhile_append]
  split
  case isTrue h =>
    rw [List.isEmpty_iff] at h
    simp [dropZeros, h, hkept]
  case isFalse => simp [dropZeros]

theorem proper_dropZeros {n : Nat} {power : Int} (h : n = 0 → power = 0) :
    Decimal.Proper ⟨dropZeros (digits n), power + (digits n).length - 1⟩ := by
  by_cases hn : n = 0
  case pos =>
    rw [hn, h hn]
    have hnil : dropZeros (digits 0) = [] := rfl
    exact ⟨by simp [hnil], by simp [hnil], fun _ => rfl⟩
  case neg =>
    obtain ⟨c, cs, hcs, hc⟩ := digits_eq_cons n
    have hlead : c ≠ '0' := by
      rintro rfl
      exact head?_digits (Nat.pos_of_ne_zero hn) (by rw [hcs]; rfl)
    have hdrop : dropZeros (digits n) = c :: dropZeros cs := by rw [hcs, dropZeros_cons hlead]
    refine ⟨fun d hd => ?_, fun hhead => ?_, fun hnil => ?_⟩
    · have hmem : d ∈ (digits n).reverse.dropWhile (· == '0') := List.mem_reverse.mp hd
      exact isDigit_of_mem_digits (List.mem_reverse.mp ((List.dropWhile_sublist _).subset hmem))
    · rw [hdrop] at hhead
      exact absurd (Option.some.inj hhead) hlead
    · rw [hdrop] at hnil
      cases hnil

theorem proper_shortest (m : Magnitude) : m.shortest.Proper := by
  unfold shortest
  split
  case isTrue => exact ⟨List.forall_mem_singleton.mpr rfl, fun _ => rfl, fun _ => rfl⟩
  case isFalse hzero =>
    have hmantissa : m.mantissa ≠ 0 := by simpa [isZero] using hzero
    -- Without a decimal on any grid the whole part stands in, which may be zero, but at no power.
    apply proper_dropZeros
    intro hn
    cases hsearch : m.neighbourhood.search (leadingExponent m.neighbourhood.value m.neighbourhood.den) 17 0 with
    | none => rfl
    | some found =>
      simp only [hsearch] at hn
      exact absurd hn (search_ne_zero hmantissa hsearch)

end Magnitude

namespace Decimal

variable {d : Decimal}

theorem isDigit_of_mem_zeros {n : Nat} {c : Char} (h : c ∈ zeros n) : c.isDigit = true := by
  rw [(List.mem_replicate.mp h).2]
  decide

theorem exists_plain_of_neg (h : d.Proper) (hneg : d.exponent < 0) (negative : Bool) :
    ∃ l : Literal, l.Proper ∧ l.negative = negative ∧ l.unsignedChars = d.plain := by
  have hne : d.digits ≠ [] := fun hnil => absurd (h.empty hnil) (Int.ne_of_lt hneg)
  refine ⟨⟨negative, ['0'], some (zeros ((-d.exponent).toNat - 1) ++ d.digits), none⟩, ?_, rfl, ?_⟩
  · refine ⟨List.cons_ne_nil _ _, List.forall_mem_singleton.mpr rfl, fun _ => rfl, ?_⟩
    rintro _ ⟨⟩
    refine ⟨List.append_ne_nil_of_right_ne_nil _ hne, ?_⟩
    exact List.forall_mem_append.mpr ⟨fun c => isDigit_of_mem_zeros, h.isDigit⟩
  · simp [Literal.unsignedChars, Literal.fractionChars, Literal.powerChars, plain, hneg]

theorem exists_plain_of_nonneg (h : d.Proper) (hnonneg : ¬ d.exponent < 0) (negative : Bool) :
    ∃ l : Literal, l.Proper ∧ l.negative = negative ∧ l.unsignedChars = d.plain := by
  let size := d.exponent.toNat + 1
  let whole := d.digits.take size ++ zeros (size - d.digits.length)
  let rest := d.digits.drop size
  refine ⟨⟨negative, whole, some (if rest.isEmpty then ['0'] else rest), none⟩, ?_, rfl, ?_⟩
  · have hlength : whole.length = size := by
      simp only [whole, List.length_append, List.length_take, zeros, List.length_replicate]
      omega
    refine ⟨?_, ?_, ?_, ?_⟩
    · exact List.ne_nil_of_length_pos (hlength ▸ Nat.succ_pos _)
    · exact List.forall_mem_append.mpr
        ⟨fun c hc => h.isDigit c (List.mem_of_mem_take hc), fun c => isDigit_of_mem_zeros⟩
    · intro hlead
      cases hdigits : d.digits with
      | nil => simp [whole, size, hdigits, h.empty hdigits, zeros]
      | cons c cs =>
        have hzero : d = ⟨['0'], 0⟩ := by
          apply h.lead
          simpa [whole, size, hdigits] using hlead
        simp [whole, size, hzero, zeros]
    · rintro _ ⟨⟩
      split
      next => exact ⟨List.cons_ne_nil _ _, List.forall_mem_singleton.mpr rfl⟩
      next hrest =>
        exact ⟨by simpa using hrest, fun c hc => h.isDigit c (List.mem_of_mem_drop hc)⟩
  · simp [Literal.unsignedChars, Literal.fractionChars, Literal.powerChars, plain, hnonneg, whole, rest,
      size]

theorem exists_scientific (h : d.Proper) (hpower : d.exponent ≠ 0) (negative : Bool) :
    ∃ l : Literal, l.Proper ∧ l.negative = negative ∧ l.unsignedChars = d.scientific := by
  obtain ⟨c, cs, hcs⟩ := List.exists_cons_of_ne_nil (mt h.empty hpower)
  obtain ⟨hc, hdigits⟩ := List.forall_mem_cons.mp (hcs ▸ h.isDigit)
  refine ⟨⟨negative, [c], if cs = [] then none else some cs, some d.exponent⟩, ?_, rfl, ?_⟩
  · refine ⟨List.cons_ne_nil _ _, List.forall_mem_singleton.mpr hc, ?_, ?_⟩
    · exact fun hlead => congrArg List.singleton (Option.some.inj hlead)
    · intro ds hds
      split at hds
      next => cases hds
      next hne =>
        cases hds
        exact ⟨hne, hdigits⟩
  · cases cs <;>
      simp [Literal.unsignedChars, Literal.fractionChars, Literal.powerChars, scientific, hcs]

theorem exists_text (h : d.Proper) (negative : Bool) :
    ∃ l : Literal, l.Proper ∧ l.negative = negative ∧ l.unsignedChars = d.text := by
  rw [text]
  split
  case isTrue =>
    by_cases hneg : d.exponent < 0
    · exact exists_plain_of_neg h hneg negative
    · exact exists_plain_of_nonneg h hneg negative
  case isFalse hlarge =>
    apply exists_scientific h
    intro hzero
    simp [hzero] at hlarge

end Decimal

/-- Every text of a double is a number. -/
theorem Binary64.exists_literal (x : Binary64) : ∃ l : Literal, l.Proper ∧ l.chars = x.text := by
  obtain ⟨l, hl, hnegative, hchars⟩ :=
    Decimal.exists_text (Magnitude.proper_shortest x.magnitude) x.negative
  refine ⟨l, hl, ?_⟩
  rw [Literal.chars, hnegative, hchars, Binary64.text, Binary64.signed]

end Number
end RowDirectives
