import EventFlow.Framework.Rounding
import EventFlow.Js.Text
import Mathlib.Algebra.Order.Field.Basic
import Mathlib.Data.Nat.Cast.Field
import Mathlib.Data.Nat.Prime.Basic
import Mathlib.Tactic.Ring
import Mathlib.Tactic.FieldSimp

namespace EventFlow.Js

section Decimal

/-- A rational with finitely many decimal places. -/
def IsDecimal (q : ℚ) : Prop := ∃ k : ℕ, q.den ∣ 10 ^ k

theorem isDecimal_of_eq {q : ℚ} (n : ℤ) (k : ℕ) (h : q = n / 10 ^ k) : IsDecimal q := by
  have hdvd : ((Rat.divInt n ((10 ^ k : ℕ) : ℤ)).den : ℤ) ∣ ((10 ^ k : ℕ) : ℤ) := Rat.den_dvd _ _
  have hq : q = Rat.divInt n ((10 ^ k : ℕ) : ℤ) := by
    rw [h, Rat.divInt_eq_div]
    push_cast
    rfl
  rw [← hq] at hdvd
  exact ⟨k, Int.natCast_dvd_natCast.mp hdvd⟩

/-- Every binary fraction is a decimal one. -/
theorem isDecimal_of_isFloat {p : ℕ} {least : ℤ} {q : ℚ} (h : IsFloat p least q) :
    IsDecimal q := by
  obtain ⟨m, e, -, -, rfl⟩ := h
  rcases Int.le_total 0 e with hpos | hneg
  · obtain ⟨k, rfl⟩ := Int.eq_ofNat_of_zero_le hpos
    refine isDecimal_of_eq (m * 2 ^ k) 0 ?_
    push_cast
    simp
  · obtain ⟨k, hk⟩ := Int.eq_ofNat_of_zero_le (Int.neg_nonneg_of_nonpos hneg)
    obtain rfl : e = -(k : ℤ) := by omega
    have hten : (10 : ℚ) ^ k = 2 ^ k * 5 ^ k := by rw [← mul_pow]; norm_num
    refine isDecimal_of_eq (m * 5 ^ k) k ?_
    rw [hten, zpow_neg, zpow_natCast]
    push_cast
    field_simp

end Decimal

section Places

/-- A divisor of a power of ten is 1, or a prime factor of 10 times a smaller one. -/
theorem exists_factor {d j : ℕ} (h : d ∣ 10 ^ j) (hd : d ≠ 1) :
    ∃ p d', p ∣ 10 ∧ 2 ≤ p ∧ d = p * d' := by
  obtain ⟨p, hp, hpd⟩ := Nat.exists_prime_and_dvd hd
  obtain ⟨d', hd'⟩ := hpd
  exact ⟨p, d', hp.dvd_of_dvd_pow ((Dvd.intro d' hd'.symm).trans h), hp.two_le, hd'⟩

/-- It divides the power that `decimalPlaces` tries last. -/
theorem dvd_pow_log2 {j : ℕ} : ∀ {d : ℕ}, d ∣ 10 ^ j → d ∣ 10 ^ Nat.log2 d := by
  intro d
  induction d using Nat.strong_induction_on with
  | _ d ih =>
    intro h
    by_cases hd : d = 1
    · rw [hd]
      exact one_dvd _
    obtain ⟨p, d', hp10, hp2, hprod⟩ := exists_factor h hd
    have hpos : 0 < d := Nat.pos_of_dvd_of_pos h (by positivity)
    have hd' : 0 < d' := by
      apply Nat.pos_of_ne_zero
      intro hzero
      rw [hzero, Nat.mul_zero] at hprod
      omega
    have htwice : 2 * d' ≤ d := by
      rw [hprod]
      exact Nat.mul_le_mul_right d' hp2
    have hdvd : d' ∣ 10 ^ j := (Dvd.intro_left p hprod.symm).trans h
    have hlog : Nat.log2 d' + 1 ≤ Nat.log2 d := by
      rw [Nat.le_log2 hpos.ne', Nat.pow_succ]
      have hself : 2 ^ Nat.log2 d' ≤ d' := Nat.log2_self_le hd'.ne'
      omega
    have hmul : p * d' ∣ 10 * 10 ^ Nat.log2 d' := Nat.mul_dvd_mul hp10 (ih d' (by omega) hdvd)
    rw [← Nat.pow_succ'] at hmul
    calc d = p * d' := hprod
      _ ∣ 10 ^ (Nat.log2 d' + 1) := hmul
      _ ∣ 10 ^ Nat.log2 d := Nat.pow_dvd_pow 10 hlog

/-- With its places written out a decimal is an integer. -/
theorem dvd_pow_decimalPlaces {d j : ℕ} (h : d ∣ 10 ^ j) : d ∣ 10 ^ decimalPlaces d := by
  unfold decimalPlaces
  cases hfind : (List.range (Nat.log2 d + 1)).find? fun k => 10 ^ k % d == 0 with
  | some k =>
    have hk := List.find?_some hfind
    exact Nat.dvd_of_mod_eq_zero (by simpa using hk)
  | none =>
    have hlast := List.find?_eq_none.mp hfind (Nat.log2 d) (by simp)
    have hzero : 10 ^ Nat.log2 d % d = 0 := Nat.mod_eq_zero_of_dvd (dvd_pow_log2 h)
    simp [hzero] at hlast

end Places

section RoundTrip

/-- Digits, a point and digits. -/
theorem unsignedDecimal_point {whole frac : List Char} (hne : whole ≠ [])
    (hw : ∀ c ∈ whole, c.isDigit = true) (hf : ∀ c ∈ frac, c.isDigit = true) :
    unsignedDecimal (whole ++ '.' :: frac) =
      .ofRat (digitsValue (whole ++ frac) * (10 : ℚ) ^ (-(frac.length : ℤ))) := by
  have hpoint : ('.' : Char).isDigit = false := by decide
  have htake : (whole ++ '.' :: frac).takeWhile Char.isDigit = whole := by
    rw [List.takeWhile_append_of_pos hw, List.takeWhile_cons, if_neg (by simp [hpoint]),
      List.append_nil]
  have hdrop : (whole ++ '.' :: frac).dropWhile Char.isDigit = '.' :: frac := by
    rw [List.dropWhile_append_of_pos hw, List.dropWhile_cons, if_neg (by simp [hpoint])]
  have htake' : frac.takeWhile Char.isDigit = frac := List.takeWhile_eq_self_iff.mpr hf
  have hdrop' : frac.dropWhile Char.isDigit = [] := List.dropWhile_eq_nil_iff.mpr hf
  have hinf : whole ++ '.' :: frac ≠ "Infinity".toList := by
    intro heq
    have hmem : '.' ∈ "Infinity".toList := heq ▸ by simp
    exact absurd hmem (by decide)
  have hsome : (whole ++ frac).isEmpty = false := by simp [hne]
  rw [unsignedDecimal, if_neg hinf]
  simp only [htake, hdrop, htake', hdrop', hsome, exponentPart, Bool.false_eq_true, if_false]
  rw [zero_sub]

/-- The digits that `toText` writes, before and after the point. -/
def paddedDigits (n k : ℕ) : List Char :=
  List.replicate (k + 1 - n.repr.toList.length) '0' ++ n.repr.toList

theorem isDigit_padded {n k : ℕ} : ∀ c ∈ paddedDigits n k, c.isDigit = true := by
  intro c hc
  rcases List.mem_append.mp hc with hc | hc
  · rw [List.eq_of_mem_replicate hc]
    decide
  · rw [Nat.toList_repr] at hc
    exact Nat.isDigit_of_mem_toDigits (by decide) (by decide) hc

theorem digitsValue_padded (n k : ℕ) : digitsValue (paddedDigits n k) = n := by
  rw [digitsValue, paddedDigits, Nat.ofDigitChars_append, Nat.ofDigitChars_replicate_zero,
    Nat.mul_zero, Nat.toList_repr, Nat.ofDigitChars_ten_toDigits]

theorem lt_length_padded (n k : ℕ) : k < (paddedDigits n k).length := by
  rw [paddedDigits, List.length_append, List.length_replicate]
  omega

/-- What `toText` writes after the sign. -/
def magnitudeDigits (q : ℚ) : List Char :=
  if q.den = 1 then q.num.natAbs.repr.toList
  else
    let k := decimalPlaces q.den
    let ds := paddedDigits (q.num.natAbs * 10 ^ k / q.den) k
    ds.take (ds.length - k) ++ '.' :: ds.drop (ds.length - k)

theorem toList_toText {q : ℚ} (h : Representable q) :
    (Number.toText (.fin q h)).toList = (if q < 0 then ['-'] else []) ++ magnitudeDigits q := by
  have hsgn : (if q < 0 then "-" else "").toList = if q < 0 then ['-'] else [] := by
    split_ifs <;> rfl
  have hpoint : ".".toList = ['.'] := rfl
  unfold Number.toText magnitudeDigits
  by_cases hden : q.den = 1
  · simp only [if_pos hden, String.toList_append, hsgn]
  · simp only [if_neg hden, String.toList_append, hsgn, String.toList_ofList, hpoint,
      List.append_assoc, List.singleton_append]
    rfl

theorem plain_magnitude (q : ℚ) :
    magnitudeDigits q ≠ [] ∧ ∀ c ∈ magnitudeDigits q, c.isDigit = true ∨ c = '.' := by
  unfold magnitudeDigits
  split_ifs
  · rw [Nat.toList_repr]
    constructor
    · exact Nat.toDigits_ne_nil
    · intro c hc
      exact .inl (Nat.isDigit_of_mem_toDigits (by decide) (by decide) hc)
  · constructor
    · simp
    · intro c hc
      rcases List.mem_append.mp hc with hc | hc
      · exact .inl (isDigit_padded c (List.mem_of_mem_take hc))
      · rcases List.mem_cons.mp hc with hc | hc
        · exact .inr hc
        · exact .inl (isDigit_padded c (List.mem_of_mem_drop hc))

theorem abs_eq_natAbs_div (q : ℚ) : |q| = (q.num.natAbs : ℚ) / q.den := by
  rw [Nat.cast_natAbs, Int.cast_abs]
  calc |q| = |(q.num : ℚ) / q.den| := by rw [Rat.num_div_den]
    _ = |(q.num : ℚ)| / q.den := by rw [abs_div, Nat.abs_cast]

/-- The digits stand for the magnitude. -/
theorem unsignedDecimal_magnitude {q : ℚ} (hd : IsDecimal q) :
    unsignedDecimal (magnitudeDigits q) = .ofRat |q| := by
  rw [abs_eq_natAbs_div]
  unfold magnitudeDigits
  by_cases hden : q.den = 1
  · rw [if_pos hden, Nat.toList_repr, unsignedDecimal_digits Nat.toDigits_ne_nil fun c hc =>
      Nat.isDigit_of_mem_toDigits (by decide) (by decide) hc, digitsValue,
      Nat.ofDigitChars_ten_toDigits, hden, Nat.cast_one, div_one]
  · obtain ⟨j, hj⟩ := hd
    let k := decimalPlaces q.den
    let n := q.num.natAbs * 10 ^ k / q.den
    let ds := paddedDigits n k
    have hdvd : q.den ∣ q.num.natAbs * 10 ^ k := (dvd_pow_decimalPlaces hj).mul_left _
    have hvalue : (n : ℚ) = q.num.natAbs * 10 ^ k / q.den := by
      have hden0 : (q.den : ℚ) ≠ 0 := Nat.cast_ne_zero.mpr q.den_nz
      rw [Nat.cast_div hdvd hden0]
      push_cast
      rfl
    have hlen : k < ds.length := lt_length_padded n k
    have hfrac : (ds.drop (ds.length - k)).length = k := by
      rw [List.length_drop]
      omega
    have hwhole : ds.take (ds.length - k) ≠ [] := by
      intro hnil
      have hzero := congrArg List.length hnil
      rw [List.length_take, List.length_nil] at hzero
      omega
    have hdigits : ∀ c ∈ ds, c.isDigit = true := isDigit_padded
    have htext := unsignedDecimal_point hwhole (fun c hc => hdigits c (List.mem_of_mem_take hc))
      fun c hc => hdigits c (List.mem_of_mem_drop (i := ds.length - k) hc)
    rw [if_neg hden]
    change unsignedDecimal (ds.take (ds.length - k) ++ '.' :: ds.drop (ds.length - k)) = _
    rw [htext, List.take_append_drop, digitsValue_padded, hfrac, hvalue, zpow_neg, zpow_natCast]
    congr 1
    field_simp

/-- Any decimal survives the trip through its text. -/
theorem ofText_toText {q : ℚ} (h : Representable q) (hd : IsDecimal q) :
    Number.ofText (Number.toText (.fin q h)) = .fin q h := by
  obtain ⟨hne, hplain⟩ := plain_magnitude q
  have hspace : ∀ c ∈ magnitudeDigits q, isSpace c = false := by
    intro c hc
    rcases hplain c hc with hdigit | hpoint
    · exact isSpace_of_isDigit hdigit
    · rw [hpoint]
      decide
  rw [Number.ofText, toList_toText]
  by_cases hneg : q < 0
  · have hminus : ∀ c ∈ '-' :: magnitudeDigits q, isSpace c = false := by
      intro c hc
      rcases List.mem_cons.mp hc with hc | hc
      · rw [hc]
        decide
      · exact hspace c hc
    have habs : |q| = -q := abs_of_neg hneg
    rw [if_pos hneg, List.singleton_append, trimChars_eq_self hminus]
    change (unsignedDecimal (magnitudeDigits q)).neg = _
    rw [unsignedDecimal_magnitude hd, habs,
      Number.ofRat_of_representable (Number.representable_neg h), Number.neg, neg_neg,
      Number.ofRat_of_representable h]
  · have habs : |q| = q := abs_of_nonneg (not_lt.mp hneg)
    rw [if_neg hneg, List.nil_append, trimChars_eq_self hspace, numericLiteral_plain hne hplain,
      unsignedDecimal_magnitude hd, habs, Number.ofRat_of_representable h]

theorem toText_ne_empty {q : ℚ} (h : Representable q) : Number.toText (.fin q h) ≠ "" := by
  intro hempty
  have hlist := congrArg String.toList hempty
  rw [toList_toText] at hlist
  exact (plain_magnitude q).1 (List.append_eq_nil_iff.mp hlist).2

end RoundTrip

end EventFlow.Js
