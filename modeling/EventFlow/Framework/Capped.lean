import Mathlib.Algebra.Order.Field.Basic
import Mathlib.Algebra.Order.Ring.Basic
import Mathlib.Tactic.Linarith

namespace EventFlow

section Capped

variable {K : Type} [Field K] [LinearOrder K] [IsStrictOrderedRing K]

/-- A geometric sequence cut off at a cap. -/
def capped (first ratio cap : K) (k : ℕ) : K := min (first * ratio ^ k) cap

/-- The first `n` terms are at least 0 and do not fall. -/
def Rising (n : ℕ) (u : ℕ → K) : Prop :=
  (∀ k < n, 0 ≤ u k) ∧ ∀ i j, i ≤ j → j < n → u i ≤ u j

/-- When the first `n` terms of a capped geometric sequence rise, told from its
parameters. -/
def RisingParameters (n : ℕ) (first ratio cap : K) : Prop :=
  n = 0 ∨ 0 ≤ first ∧ 0 ≤ cap ∧
    (n = 1 ∨ first = 0 ∨ 0 ≤ ratio ∧ (1 ≤ ratio ∨ cap ≤ first * ratio ^ (n - 1)))

variable {first ratio cap : K} {n k : ℕ}

omit [IsStrictOrderedRing K] in
theorem capped_le : capped first ratio cap k ≤ cap := min_le_right _ _

omit [IsStrictOrderedRing K] in
theorem capped_nonneg_iff : 0 ≤ capped first ratio cap k ↔ 0 ≤ first * ratio ^ k ∧ 0 ≤ cap :=
  le_min_iff

omit [IsStrictOrderedRing K] in
theorem capped_zero_first (hcap : 0 ≤ cap) : capped 0 ratio cap k = 0 := by
  rw [capped, zero_mul, min_eq_left hcap]

theorem capped_mono (hfirst : 0 ≤ first) (hratio : 1 ≤ ratio) {i j : ℕ} (hij : i ≤ j) :
    capped first ratio cap i ≤ capped first ratio cap j := by
  have hpow : ratio ^ i ≤ ratio ^ j := pow_le_pow_right₀ hratio hij
  exact min_le_min_right cap (mul_le_mul_of_nonneg_left hpow hfirst)

/-- A shrinking sequence is flat as long as it stays above its cap. -/
theorem capped_eq_cap (hfirst : 0 ≤ first) (hratio : 0 ≤ ratio) (hone : ratio ≤ 1)
    (hcap : cap ≤ first * ratio ^ (n - 1)) (hk : k < n) : capped first ratio cap k = cap := by
  have hpow : ratio ^ (n - 1) ≤ ratio ^ k := pow_le_pow_of_le_one hratio hone (by omega)
  have hterm : cap ≤ first * ratio ^ k := hcap.trans (mul_le_mul_of_nonneg_left hpow hfirst)
  exact min_eq_right hterm

theorem rising_capped (h : RisingParameters n first ratio cap) :
    Rising n (capped first ratio cap) := by
  rcases h with rfl | ⟨hfirst, hcap, hrest⟩
  · exact ⟨fun k hk => absurd hk (Nat.not_lt_zero k), fun i j _ hj => absurd hj (Nat.not_lt_zero j)⟩
  rcases hrest with rfl | rfl | ⟨hratio, hgrow | hflat⟩
  · constructor
    · intro k hk
      obtain rfl : k = 0 := by omega
      exact capped_nonneg_iff.mpr ⟨by simpa using hfirst, hcap⟩
    · intro i j hij hj
      obtain rfl : i = j := by omega
      exact le_rfl
  · constructor
    · intro k _
      rw [capped_zero_first hcap]
    · intro i j _ _
      rw [capped_zero_first hcap, capped_zero_first hcap]
  · constructor
    · intro k _
      exact capped_nonneg_iff.mpr ⟨mul_nonneg hfirst (pow_nonneg hratio k), hcap⟩
    · intro i j hij _
      exact capped_mono hfirst hgrow hij
  · rcases le_total 1 ratio with hone | hone
    · exact ⟨fun k _ => capped_nonneg_iff.mpr ⟨mul_nonneg hfirst (pow_nonneg hratio k), hcap⟩,
        fun i j hij _ => capped_mono hfirst hone hij⟩
    · constructor
      · intro k hk
        rw [capped_eq_cap hfirst hratio hone hflat hk]
        exact hcap
      · intro i j hij hj
        rw [capped_eq_cap hfirst hratio hone hflat (hij.trans_lt hj),
          capped_eq_cap hfirst hratio hone hflat hj]

/-- A sequence that shrinks and drops below its cap falls. -/
theorem not_rising_of_shrinking (hfirst : 0 < first) (hratio : 0 ≤ ratio) (hone : ratio < 1)
    (hn : 2 ≤ n) (hcap : first * ratio ^ (n - 1) < cap) : ¬ Rising n (capped first ratio cap) := by
  intro h
  have hpow : ratio ^ (n - 1) < 1 := pow_lt_one₀ hratio hone (by omega)
  have hterm : first * ratio ^ (n - 1) < first := by
    simpa using mul_lt_mul_of_pos_left hpow hfirst
  have hlast : capped first ratio cap (n - 1) = first * ratio ^ (n - 1) := min_eq_left hcap.le
  have hzero : capped first ratio cap 0 = min first cap := by simp [capped]
  have hle := h.2 0 (n - 1) (Nat.zero_le _) (by omega)
  rw [hlast, hzero] at hle
  exact absurd hle (not_le.mpr (lt_min hterm hcap))

theorem rising_capped_iff :
    Rising n (capped first ratio cap) ↔ RisingParameters n first ratio cap := by
  constructor
  · intro h
    rcases Nat.eq_zero_or_pos n with hn | hn
    · exact .inl hn
    obtain ⟨hfirst, hcap⟩ := capped_nonneg_iff.mp (h.1 0 hn)
    rw [pow_zero, mul_one] at hfirst
    refine .inr ⟨hfirst, hcap, ?_⟩
    by_cases hone : n = 1
    · exact .inl hone
    rcases hfirst.eq_or_lt with hzero | hpos
    · exact .inr (.inl hzero.symm)
    have hsecond : 0 ≤ first * ratio ^ 1 := (capped_nonneg_iff.mp (h.1 1 (by omega))).1
    rw [pow_one] at hsecond
    have hratio : 0 ≤ ratio := nonneg_of_mul_nonneg_right hsecond hpos
    refine .inr (.inr ⟨hratio, ?_⟩)
    by_contra hno
    rw [not_or, not_le, not_le] at hno
    exact not_rising_of_shrinking hpos hratio hno.1 (by omega) hno.2 h
  · exact rising_capped

end Capped

end EventFlow
