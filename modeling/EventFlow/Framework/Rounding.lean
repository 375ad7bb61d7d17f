import Mathlib.Data.Int.Log
import Mathlib.Data.Rat.Floor
import Mathlib.Tactic.Linarith
import Mathlib.Tactic.Ring

namespace EventFlow

/-- The nearest integer; a tie goes to the even one. -/
def roundEven (x : ℚ) : ℤ :=
  if x - ⌊x⌋ < 1 / 2 then ⌊x⌋
  else if 1 / 2 < x - ⌊x⌋ then ⌊x⌋ + 1
  else if ⌊x⌋ % 2 = 0 then ⌊x⌋ else ⌊x⌋ + 1

section RoundEven

variable {n : ℤ} {x : ℚ}

@[simp] theorem roundEven_intCast (n : ℤ) : roundEven n = n := by simp [roundEven]

theorem floor_le_roundEven (x : ℚ) : ⌊x⌋ ≤ roundEven x := by
  unfold roundEven
  split_ifs <;> omega

theorem roundEven_le_floor_add_one (x : ℚ) : roundEven x ≤ ⌊x⌋ + 1 := by
  unfold roundEven
  split_ifs <;> omega

theorem le_roundEven (h : (n : ℚ) ≤ x) : n ≤ roundEven x :=
  (Int.le_floor.mpr h).trans (floor_le_roundEven x)

/-- Below the middle to the next integer it is not passed. -/
theorem roundEven_le_of_lt_half (h : x < n + 1 / 2) : roundEven x ≤ n := by
  rcases lt_or_ge ⌊x⌋ n with hlt | hge
  · exact (roundEven_le_floor_add_one x).trans hlt
  · have hn : (n : ℚ) ≤ ⌊x⌋ := Int.cast_le.mpr hge
    have hfloor : ⌊x⌋ = n := by
      apply Int.floor_eq_iff.mpr
      exact ⟨hn.trans (Int.floor_le x), by linarith⟩
    have hfrac : x - ⌊x⌋ < 1 / 2 := by linarith
    rw [roundEven, if_pos hfrac, hfloor]

/-- Above the middle from the integer before it is reached. -/
theorem le_roundEven_of_half_lt (h : n - 1 / 2 < x) : n ≤ roundEven x := by
  rcases lt_or_ge ⌊x⌋ n with hlt | hge
  · have hup : x < ⌊x⌋ + 1 := Int.lt_floor_add_one x
    have hle : ((⌊x⌋ + 1 : ℤ) : ℚ) ≤ n := Int.cast_le.mpr hlt
    push_cast at hle
    have hfloor : ⌊x⌋ + 1 = n := by
      have hn : (n : ℚ) - 1 < (⌊x⌋ + 1 : ℤ) := by
        push_cast
        linarith
      have hn' : n - 1 < ⌊x⌋ + 1 := by exact_mod_cast hn
      omega
    have hfrac : 1 / 2 < x - ⌊x⌋ := by
      have hcast : ((⌊x⌋ : ℤ) : ℚ) + 1 = n := by exact_mod_cast hfloor
      linarith
    rw [roundEven, if_neg (by linarith), if_pos hfrac, hfloor]
  · exact hge.trans (floor_le_roundEven x)

theorem abs_roundEven_le (h : |x| < n + 1 / 2) : |roundEven x| ≤ n := by
  obtain ⟨hlow, hhigh⟩ := abs_lt.mp h
  refine abs_le.mpr ⟨le_roundEven_of_half_lt ?_, roundEven_le_of_lt_half hhigh⟩
  push_cast
  linarith

end RoundEven

section Floats

variable (p : ℕ) (least : ℤ)

/-- The exponent of the gap between the floats next to a number. -/
def gapExponent (x : ℚ) : ℤ := max (Int.log 2 |x| + 1 - p) least

/-- The nearest float of precision `p`; a tie goes to the even one. -/
def nearestFloat (x : ℚ) : ℚ :=
  roundEven (x / 2 ^ gapExponent p least x) * 2 ^ gapExponent p least x

/-- A number that `p` bits and an exponent can hold. -/
def IsFloat (q : ℚ) : Prop := ∃ m e : ℤ, |m| ≤ 2 ^ p ∧ least ≤ e ∧ q = m * 2 ^ e

variable {p : ℕ} {least : ℤ} {x d : ℚ}

theorem two_zpow_pos (e : ℤ) : (0 : ℚ) < 2 ^ e := zpow_pos two_pos e

/-- On a coarse grid is on a fine one. -/
theorem exists_multiple {e e' : ℤ} (h : e' ≤ e) (m : ℤ) : ∃ m' : ℤ, (m : ℚ) * 2 ^ e = m' * 2 ^ e' := by
  obtain ⟨k, rfl⟩ := Int.le.dest h
  refine ⟨m * 2 ^ k, ?_⟩
  rw [zpow_add₀ two_ne_zero, zpow_natCast]
  push_cast
  ring

/-- What is on the grid around it stays. -/
theorem nearestFloat_of_multiple (h : ∃ m : ℤ, x = m * 2 ^ gapExponent p least x) :
    nearestFloat p least x = x := by
  obtain ⟨m, hm⟩ := h
  have hquot : x / 2 ^ gapExponent p least x = m := by
    rw [div_eq_iff (two_zpow_pos _).ne']
    exact hm
  rw [nearestFloat, hquot, roundEven_intCast, ← hm]

theorem abs_lt_two_zpow (x : ℚ) : |x| < 2 ^ (Int.log 2 |x| + 1) :=
  mod_cast Int.lt_zpow_succ_log_self (by decide : 1 < 2) |x|

theorem two_zpow_log_le (hx : x ≠ 0) : (2 : ℚ) ^ Int.log 2 |x| ≤ |x| :=
  mod_cast Int.zpow_log_le_self (by decide : 1 < 2) (abs_pos.mpr hx)

theorem log_lt_of_abs_lt (hx : x ≠ 0) {e : ℤ} (h : |x| < 2 ^ e) : Int.log 2 |x| < e := by
  have hpow : (2 : ℚ) ^ Int.log 2 |x| < 2 ^ e := (two_zpow_log_le hx).trans_lt h
  exact (zpow_lt_zpow_iff_right₀ one_lt_two).mp hpow

/-- A float lies on its own grid. -/
theorem IsFloat.multiple (hp : 1 ≤ p) (h : IsFloat p least d) :
    ∃ m : ℤ, d = m * 2 ^ gapExponent p least d := by
  obtain ⟨m, e, hm, he, hd⟩ := h
  rcases eq_or_ne m 0 with rfl | hne
  · exact ⟨0, by rw [hd]; simp⟩
  have habs : |d| = |(m : ℚ)| * 2 ^ e := by rw [hd, abs_mul, abs_of_pos (two_zpow_pos e)]
  have hd0 : d ≠ 0 := by
    rw [hd]
    exact mul_ne_zero (Int.cast_ne_zero.mpr hne) (two_zpow_pos e).ne'
  have hcast : |(m : ℚ)| = (|m| : ℤ) := (Int.cast_abs).symm
  rcases lt_or_eq_of_le hm with hlt | heq
  · -- fewer bits than the precision: the grid is at least as fine as the exponent
    have hbound : |d| < 2 ^ (p + e) := by
      rw [habs, zpow_add₀ two_ne_zero, zpow_natCast, hcast]
      exact mul_lt_mul_of_pos_right (mod_cast hlt) (two_zpow_pos e)
    have hlog := log_lt_of_abs_lt hd0 hbound
    have hgap : gapExponent p least d ≤ e := max_le (by omega) he
    rw [hd]
    rw [hd] at hgap
    exact exists_multiple hgap m
  · -- a power of two, one binade up
    have hpow : |d| = 2 ^ (p + e) := by
      rw [habs, zpow_add₀ two_ne_zero, zpow_natCast, hcast, heq]
      push_cast
      rfl
    have hlog : Int.log 2 |d| < p + e + 1 := by
      apply log_lt_of_abs_lt hd0
      rw [hpow]
      exact zpow_lt_zpow_right₀ one_lt_two (by omega)
    have hgap : gapExponent p least d ≤ p + e := max_le (by omega) (by omega)
    obtain ⟨m', hm'⟩ := exists_multiple hgap (Int.sign m)
    refine ⟨m', ?_⟩
    rw [← hm', zpow_add₀ two_ne_zero, zpow_natCast, ← mul_assoc]
    conv_lhs => rw [hd]
    congr 1
    have hsign : m = Int.sign m * |m| := (Int.sign_mul_abs m).symm
    rw [heq] at hsign
    exact_mod_cast hsign

/-- A float is its own nearest float. -/
theorem IsFloat.nearest (hp : 1 ≤ p) (h : IsFloat p least d) : nearestFloat p least d = d :=
  nearestFloat_of_multiple (h.multiple hp)

theorem isFloat_intCast {n : ℤ} (hleast : least ≤ 0) (h : |n| ≤ 2 ^ p) : IsFloat p least n :=
  ⟨n, 0, h, hleast, by simp⟩

/-- A number is less than `2 ^ p` gaps. -/
theorem abs_div_gap_le (p : ℕ) (least : ℤ) (x : ℚ) :
    |x / 2 ^ gapExponent p least x| ≤ 2 ^ p := by
  rw [abs_div, abs_of_pos (two_zpow_pos _), div_le_iff₀ (two_zpow_pos _), ← zpow_natCast,
    ← zpow_add₀ two_ne_zero]
  refine (abs_lt_two_zpow x).le.trans (zpow_le_zpow_right₀ one_le_two ?_)
  have := le_max_left (Int.log 2 |x| + 1 - p) least
  unfold gapExponent
  omega

theorem isFloat_nearestFloat (x : ℚ) : IsFloat p least (nearestFloat p least x) := by
  have hquot := abs_div_gap_le p least x
  refine ⟨_, _, abs_roundEven_le ?_, le_max_right _ _, rfl⟩
  push_cast
  linarith

/-- Rounding keeps within a multiple of the gap that is not further than half a gap away. -/
theorem abs_nearestFloat_le {m : ℤ} (h : |x / 2 ^ gapExponent p least x| < m + 1 / 2) :
    |nearestFloat p least x| ≤ m * 2 ^ gapExponent p least x := by
  rw [nearestFloat, abs_mul, abs_of_pos (two_zpow_pos _), ← Int.cast_abs]
  exact mul_le_mul_of_nonneg_right (Int.cast_le.mpr (abs_roundEven_le h)) (two_zpow_pos _).le

theorem le_nearestFloat {m : ℤ} (hd : d = m * 2 ^ gapExponent p least x) (h : d ≤ x) :
    d ≤ nearestFloat p least x := by
  rw [hd]
  refine mul_le_mul_of_nonneg_right (Int.cast_le.mpr (le_roundEven ?_)) (two_zpow_pos _).le
  rw [le_div_iff₀ (two_zpow_pos _), ← hd]
  exact h

/-- Rounding keeps above a positive float. -/
theorem IsFloat.le_nearest (hp : 1 ≤ p) (hfloat : IsFloat p least d) (hpos : 0 < d) (h : d ≤ x) :
    d ≤ nearestFloat p least x := by
  have hx : 0 < x := hpos.trans_le h
  have hlog : Int.log 2 |d| ≤ Int.log 2 |x| := by
    rw [abs_of_pos hpos, abs_of_pos hx]
    exact Int.log_mono_right hpos h
  rcases lt_or_ge (gapExponent p least d) (gapExponent p least x) with hlt | hge
  · -- a coarser grid: the power of two below `x` comes between
    have hgap : gapExponent p least x = Int.log 2 |x| + 1 - p := by
      apply max_eq_left
      by_contra hsmall
      have hx' : gapExponent p least x = least := max_eq_right (not_le.mp hsmall).le
      have := le_max_right (Int.log 2 |d| + 1 - p) least
      rw [hx'] at hlt
      exact absurd hlt (not_lt.mpr this)
    have hbelow : Int.log 2 |d| + 1 ≤ Int.log 2 |x| := by
      have := le_max_left (Int.log 2 |d| + 1 - p) least
      unfold gapExponent at hlt hgap
      omega
    have hd : d ≤ 2 ^ Int.log 2 |x| := by
      have hup := abs_lt_two_zpow d
      rw [abs_of_pos hpos] at hup
      rw [abs_of_pos hpos] at hbelow
      exact hup.le.trans (zpow_le_zpow_right₀ one_le_two hbelow)
    have hpow : ∃ m : ℤ, (2 : ℚ) ^ Int.log 2 |x| = m * 2 ^ gapExponent p least x := by
      have hle : gapExponent p least x ≤ Int.log 2 |x| := by omega
      obtain ⟨m, hm⟩ := exists_multiple hle 1
      exact ⟨m, by simpa using hm⟩
    obtain ⟨m, hm⟩ := hpow
    refine hd.trans (le_nearestFloat hm ?_)
    have := two_zpow_log_le hx.ne'
    rwa [abs_of_pos hx] at this ⊢
  · have hgap : gapExponent p least d = gapExponent p least x := by
      refine le_antisymm ?_ hge
      exact max_le_max (by omega) le_rfl
    obtain ⟨m, hm⟩ := hfloat.multiple hp
    rw [hgap] at hm
    exact le_nearestFloat hm h

end Floats

end EventFlow
