import EventFlow.Framework.Rounding
import EventFlow.Js.Number

namespace EventFlow.Js

/-- What binary64 can hold. -/
abbrev IsDouble : ℚ → Prop := IsFloat 53 (-1074)

/-- The double next to a rational. -/
abbrev nearestDouble : ℚ → ℚ := nearestFloat 53 (-1074)

theorem cast_roundsToInf (k u : ℕ) :
    (roundsToInf (k + u) u : ℚ) = (2 ^ k - 1) * 2 ^ (u : ℤ) := by
  have hle : 2 ^ u ≤ 2 ^ (k + u) := Nat.pow_le_pow_right two_pos (Nat.le_add_left u k)
  rw [roundsToInf, Nat.cast_sub hle, Nat.cast_pow, Nat.cast_pow, pow_add, zpow_natCast]
  push_cast
  ring

theorem overflowBound_eq : overflowBound = 18014398509481983 * 2 ^ (970 : ℤ) := by
  have hfactor : (18014398509481983 : ℚ) = 2 ^ 54 - 1 := by norm_num
  rw [hfactor]
  unfold overflowBound
  exact cast_roundsToInf 54 970

/-- What does not overflow does not overflow when it is rounded. -/
theorem abs_nearestDouble_lt {q : ℚ} (h : |q| < overflowBound) :
    |nearestDouble q| < overflowBound := by
  obtain ⟨t, ht⟩ : ∃ t : ℚ, 2 ^ (970 : ℤ) = t := ⟨_, rfl⟩
  have hpos : 0 < t := ht ▸ two_zpow_pos 970
  have hnext : (2 : ℚ) ^ (971 : ℤ) = 2 * t := by
    rw [← ht]
    exact zpow_one_add₀ two_ne_zero 970
  have htop : (2 : ℚ) ^ (1024 : ℤ) = 18014398509481984 * t := by
    have hfactor : (18014398509481984 : ℚ) = 2 ^ (54 : ℤ) := by norm_num
    rw [← ht, hfactor, ← zpow_add₀ two_ne_zero]
    rfl
  rw [overflowBound_eq, ht] at h ⊢
  rcases lt_or_ge 970 (gapExponent 53 (-1074) q) with hlt | hge
  · -- the last binade: the bound is half a gap above the greatest double
    have hq : q ≠ 0 := by
      intro hzero
      rw [hzero] at hlt
      simp [gapExponent] at hlt
    have hlog : Int.log 2 |q| < 1024 := log_lt_of_abs_lt hq (by rw [htop]; linarith only [h, hpos])
    have hgap : gapExponent 53 (-1074) q = 971 := by
      unfold gapExponent at hlt ⊢
      omega
    have hquot : |q / 2 ^ gapExponent 53 (-1074) q| < ((2 ^ 53 - 1 : ℤ) : ℚ) + 1 / 2 := by
      rw [abs_div, abs_of_pos (two_zpow_pos _), div_lt_iff₀ (two_zpow_pos _), hgap, hnext]
      norm_num
      linarith
    refine (abs_nearestFloat_le hquot).trans_lt ?_
    rw [hgap, hnext]
    norm_num
    linarith only [hpos]
  · have hquot : |q / 2 ^ gapExponent 53 (-1074) q| < ((2 ^ 53 : ℤ) : ℚ) + 1 / 2 := by
      have := abs_div_gap_le 53 (-1074) q
      push_cast
      linarith
    have hle : (2 : ℚ) ^ gapExponent 53 (-1074) q ≤ t := by
      rw [← ht]
      exact zpow_le_zpow_right₀ one_le_two hge
    refine (abs_nearestFloat_le hquot).trans_lt ?_
    push_cast
    linarith only [hle, hpos]

theorem representable_nearestDouble {q : ℚ} (h : Representable q) :
    Representable (nearestDouble q) := abs_lt.mp (abs_nearestDouble_lt (abs_lt.mpr h))

theorem isDouble_natCast {n : ℕ} (h : n ≤ 2 ^ 53) : IsDouble n := by
  have hfloat : IsFloat 53 (-1074) ((n : ℤ) : ℚ) := by
    apply isFloat_intCast (by decide)
    rw [Nat.abs_cast]
    exact_mod_cast h
  simpa using hfloat

namespace Number

/-- The double that a Number is in the running code. -/
def rounded : Number → Number
  | .fin q _ => ofRat (nearestDouble q)
  | x => x

theorem rounded_fin {q : ℚ} (h : Representable q) :
    rounded (.fin q h) = .fin (nearestDouble q) (representable_nearestDouble h) :=
  ofRat_of_representable _

theorem rounded_of_isDouble {q : ℚ} (h : Representable q) (hd : IsDouble q) :
    rounded (.fin q h) = .fin q h := by
  have hsame : nearestDouble q = q := hd.nearest (by decide)
  rw [rounded, hsame, ofRat_of_representable h]

@[simp] theorem isFinite_rounded (x : Number) : x.rounded.isFinite = x.isFinite := by
  cases x with
  | fin q h => rw [rounded_fin]; rfl
  | _ => rfl

theorem rounded_ofNat {n : ℕ} (h : n ≤ 2 ^ 53) : (ofNat n).rounded = ofNat n := by
  rw [ofNat_of_representable (representable_natCast h),
    rounded_of_isDouble _ (isDouble_natCast h)]

/-- `x + 1` in binary64. -/
def succ (x : Number) : Number := (x.add 1).rounded

/-- A finite double. -/
def IsCount (x : Number) : Prop := ∃ q h, x = .fin q h ∧ IsDouble q

theorem isCount_rounded {x : Number} (h : x.isFinite = true) : IsCount x.rounded := by
  obtain ⟨q, hq, rfl⟩ := isFinite_iff.mp h
  rw [rounded_fin]
  exact ⟨_, _, rfl, isFloat_nearestFloat q⟩

theorem isCount_ofNat {n : ℕ} (h : n ≤ 2 ^ 53) : IsCount (ofNat n) :=
  ⟨n, _, ofNat_of_representable (representable_natCast h), isDouble_natCast h⟩

theorem succ_ne_nan {x : Number} (h : IsCount x) : x.succ ≠ .nan := by
  obtain ⟨q, hq, rfl, -⟩ := h
  rw [succ, one_eq, add_fin]
  intro hnan
  cases hsum : ofRat (q + 1) with
  | nan => exact ofRat_ne_nan _ hsum
  | fin r hr => rw [hsum, rounded_fin] at hnan; cases hnan
  | _ => rw [hsum] at hnan; cases hnan

/-- What stays below something is a double again. -/
theorem isCount_succ {x y : Number} (h : IsCount x) (hlt : lt x.succ y = true) : IsCount x.succ := by
  obtain ⟨q, hq, rfl, -⟩ := h
  have hsucc : succ (.fin q hq) = (ofRat (q + 1)).rounded := by rw [succ, one_eq, add_fin]
  rw [hsucc] at hlt ⊢
  by_cases hrep : Representable (q + 1)
  · apply isCount_rounded
    rw [ofRat_of_representable hrep]
    rfl
  · -- the sum has overflown, to the right
    have hpos : 0 < q + 1 := by
      by_contra hneg
      exact hrep (representable_between hq representable_zero (by linarith) (not_lt.mp hneg))
    rw [ofRat, dif_neg hrep, if_pos hpos] at hlt
    cases y <;> cases hlt

/-- Above zero the count goes up by one at least, up to the integers that a double can tell
apart. -/
theorem succ_reaches {x : Number} {n : ℕ} (h : IsCount x) (hn : n + 1 ≤ 2 ^ 53)
    (hle : le (ofNat n) x = true) : le (ofNat (n + 1)) x.succ = true := by
  obtain ⟨q, hq, rfl, -⟩ := h
  have hrep : Representable (n : ℚ) := representable_natCast (by omega)
  have hrep' : Representable ((n + 1 : ℕ) : ℚ) := representable_natCast hn
  rw [ofNat_of_representable hrep, le_fin, decide_eq_true_eq] at hle
  rw [succ, one_eq, add_fin, ofNat_of_representable hrep']
  have hsum : ((n + 1 : ℕ) : ℚ) ≤ q + 1 := by
    push_cast
    linarith
  have hpos : (0 : ℚ) < (n + 1 : ℕ) := Nat.cast_pos.mpr (Nat.succ_pos n)
  by_cases hfin : Representable (q + 1)
  · rw [ofRat_of_representable hfin, rounded_fin, le_fin, decide_eq_true_eq]
    exact (isDouble_natCast hn).le_nearest (by decide) hpos hsum
  · rw [ofRat, dif_neg hfin, if_pos (by linarith)]
    rfl

/-- The double that has counted up from zero so many times: it stops at `2 ^ 53`. -/
def counted (n : ℕ) : Number := ofNat (Nat.min n (2 ^ 53))

theorem counted_of_le {n : ℕ} (h : n ≤ 2 ^ 53) : counted n = ofNat n :=
  congrArg ofNat (Nat.min_eq_left h)

theorem counted_of_ge {n : ℕ} (h : 2 ^ 53 ≤ n) : counted n = ofNat (2 ^ 53) :=
  congrArg ofNat (Nat.min_eq_right h)

theorem isCount_counted (n : ℕ) : (counted n).IsCount := isCount_ofNat (Nat.min_le_right _ _)

theorem succ_ofNat {n : ℕ} (h : n + 1 ≤ 2 ^ 53) : (ofNat n).succ = ofNat (n + 1) := by
  have hadd : (ofNat n).add 1 = ofNat (n + 1) := by
    rw [ofNat_of_representable (representable_natCast (Nat.le_of_succ_le h)), one_eq, add_fin, ofNat]
    push_cast
    rfl
  rw [succ, hadd, rounded_ofNat h]

theorem succ_limit : (ofNat (2 ^ 53)).succ = ofNat (2 ^ 53) := by
  have hrep : Representable ((2 ^ 53 + 1 : ℕ) : ℚ) := by decide +kernel
  have hadd : (ofNat (2 ^ 53)).add 1 = .fin (2 ^ 53 + 1 : ℕ) hrep := by
    rw [ofNat_of_representable (representable_natCast le_rfl), one_eq, add_fin,
      ← ofRat_of_representable hrep]
    congr 1
    push_cast
    ring
  have htie : nearestDouble ((2 ^ 53 + 1 : ℕ) : ℚ) = (2 ^ 53 : ℕ) := by decide +kernel
  rw [succ, hadd, rounded, htie]
  rfl

/-- One more round. -/
theorem succ_counted (n : ℕ) : (counted n).succ = counted (n + 1) := by
  rcases Nat.lt_or_ge n (2 ^ 53) with hlt | hge
  · rw [counted_of_le hlt.le, counted_of_le hlt, succ_ofNat hlt]
  · rw [counted_of_ge hge, counted_of_ge (by omega), succ_limit]

end Number

end EventFlow.Js
