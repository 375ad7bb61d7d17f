import Mathlib.Algebra.Order.Ring.Rat
import Mathlib.Data.Rat.Floor
import Mathlib.Tactic.Linarith
import Mathlib.Tactic.NormNum

namespace EventFlow.Js

/-- The least magnitude that rounds to infinity with exponent `e` and a gap of
`2 ^ u` between the largest floats. -/
def roundsToInf (e u : ℕ) : ℕ := 2 ^ e - 2 ^ u

/-- Exact results of this magnitude are Infinity in binary64. -/
def overflowBound : ℚ := (roundsToInf 1024 970 : ℕ)

theorem lt_roundsToInf {e u k n : ℕ} (hu : u < e) (hk : k < u) (hn : n ≤ 2 ^ k) :
    n < roundsToInf e u := by
  have h₁ : 2 ^ k < 2 ^ u := Nat.pow_lt_pow_right (by decide) hk
  have h₂ : 2 ^ (u + 1) ≤ 2 ^ e := Nat.pow_le_pow_right (by decide) hu
  have h₃ : 2 ^ (u + 1) = 2 ^ u * 2 := Nat.pow_succ ..
  unfold roundsToInf
  omega

/-- Every integer of this size stays clear of the overflow. -/
theorem natCast_lt_overflowBound {n : ℕ} (h : n ≤ 2 ^ 53) : (n : ℚ) < overflowBound :=
  Nat.cast_lt.mpr (lt_roundsToInf (by decide) (by decide) h)

theorem overflowBound_pos : 0 < overflowBound := by
  simpa using natCast_lt_overflowBound (Nat.zero_le _)

attribute [irreducible] overflowBound

def Representable (q : ℚ) : Prop := -overflowBound < q ∧ q < overflowBound

instance (q : ℚ) : Decidable (Representable q) := inferInstanceAs (Decidable (_ ∧ _))

/-- A Number with its special values. Finite arithmetic is exact up to the point
where it overflows to an infinity; the sign of zero is left out, and rounding is up to
`rounded`, where the code depends on it. -/
inductive Number where
  | nan
  | posInf
  | negInf
  | fin (q : ℚ) (h : Representable q)
  deriving DecidableEq

namespace Number

/-- The Number an exact result becomes. -/
def ofRat (q : ℚ) : Number :=
  if h : Representable q then .fin q h else if 0 < q then .posInf else .negInf

def ofNat (n : ℕ) : Number := ofRat n

instance (n : ℕ) : OfNat Number n := ⟨ofNat n⟩

def isFinite : Number → Bool
  | .fin _ _ => true
  | _ => false

def isNaN : Number → Bool
  | .nan => true
  | _ => false

/-- `a < b`; false when either side is NaN. -/
def lt : Number → Number → Bool
  | .nan, _ | _, .nan => false
  | .posInf, _ | _, .negInf => false
  | .negInf, _ | _, .posInf => true
  | .fin a _, .fin b _ => a < b

/-- `a <= b`; false when either side is NaN. -/
def le : Number → Number → Bool
  | .nan, _ | _, .nan => false
  | .negInf, _ | _, .posInf => true
  | .posInf, _ | _, .negInf => false
  | .fin a _, .fin b _ => a ≤ b

/-- `a == b` on two Numbers; NaN equals nothing. -/
def eq (a b : Number) : Bool := le a b && le b a

def neg : Number → Number
  | .nan => .nan
  | .posInf => .negInf
  | .negInf => .posInf
  | .fin a _ => ofRat (-a)

def add : Number → Number → Number
  | .nan, _ | _, .nan => .nan
  | .posInf, .negInf | .negInf, .posInf => .nan
  | .posInf, _ | _, .posInf => .posInf
  | .negInf, _ | _, .negInf => .negInf
  | .fin a _, .fin b _ => ofRat (a + b)

def sub (a b : Number) : Number := add a (neg b)

/-- The sign of a Number; 0 also for NaN. -/
def sign : Number → ℤ
  | .nan => 0
  | .posInf => 1
  | .negInf => -1
  | .fin a _ => if 0 < a then 1 else if a < 0 then -1 else 0

def infOfSign (s : ℤ) : Number := if 0 < s then .posInf else if s < 0 then .negInf else .nan

def mul : Number → Number → Number
  | .nan, _ | _, .nan => .nan
  | .fin a _, .fin b _ => ofRat (a * b)
  | a, b => infOfSign (a.sign * b.sign)

/-- `Math.abs`. -/
def abs (a : Number) : Number := if lt a 0 then neg a else a

/-- `Math.min` of two arguments. -/
def min : Number → Number → Number
  | .nan, _ | _, .nan => .nan
  | a, b => if lt b a then b else a

/-- `Math.max` of two arguments. -/
def max : Number → Number → Number
  | .nan, _ | _, .nan => .nan
  | a, b => if lt a b then b else a

/-- Largest `r` below `bound` with `r ^ d ≤ x`, by bisection over `fuel` bits. -/
def rootBelow (d x : ℕ) : ℕ → ℕ → ℕ
  | 0, acc => acc
  | fuel + 1, acc =>
    if (acc + 2 ^ fuel) ^ d ≤ x then rootBelow d x fuel (acc + 2 ^ fuel) else rootBelow d x fuel acc

/-- A positive base to a fractional exponent, to 52 binary places: the language
leaves this value to an implementation-defined approximation. -/
def powApprox (b e : ℚ) : ℚ :=
  let x := (if e < 0 then b⁻¹ else b) ^ e.num.natAbs
  let scaled := ⌊x * 2 ^ (52 * e.den)⌋₊
  (rootBelow e.den scaled (Nat.log2 scaled + 1) 0 : ℚ) / 2 ^ 52

/-- `Math.pow`. -/
def pow : Number → Number → Number
  | _, .nan => .nan
  | base, .fin e _ =>
    if e = 0 then 1
    else match base with
      | .nan => .nan
      | .posInf => if 0 < e then .posInf else 0
      | .negInf => if e < 0 then 0 else if e.den = 1 ∧ e.num % 2 = 1 then .negInf else .posInf
      | .fin b _ =>
        if b = 0 then if 0 < e then 0 else .posInf
        else if e.den = 1 then ofRat (b ^ e.num)
        else if b < 0 then .nan
        else ofRat (powApprox b e)
  | .nan, _ => .nan
  | base, .posInf => if lt 1 (abs base) then .posInf else if eq (abs base) 1 then .nan else 0
  | base, .negInf => if lt 1 (abs base) then 0 else if eq (abs base) 1 then .nan else .posInf

/-- The rational that a finite Number stands for. -/
def toRat : Number → ℚ
  | .fin q _ => q
  | _ => 0

section Lemmas

@[simp] theorem toRat_fin {q : ℚ} (h : Representable q) : toRat (.fin q h) = q := rfl

theorem ofRat_of_representable {q : ℚ} (h : Representable q) : ofRat q = .fin q h := dif_pos h

theorem representable_zero : Representable 0 :=
  ⟨neg_lt_zero.mpr overflowBound_pos, overflowBound_pos⟩

theorem representable_natCast {n : ℕ} (h : n ≤ 2 ^ 53) : Representable (n : ℚ) :=
  ⟨(neg_lt_zero.mpr overflowBound_pos).trans_le (Nat.cast_nonneg n), natCast_lt_overflowBound h⟩

/-- Between representable numbers everything is representable. -/
theorem representable_between {a b q : ℚ} (ha : Representable a) (hb : Representable b)
    (haq : a ≤ q) (hqb : q ≤ b) : Representable q :=
  ⟨ha.1.trans_le haq, hqb.trans_lt hb.2⟩

theorem representable_natCast_of_le {n : ℕ} {q : ℚ} (hq : Representable q) (h : (n : ℚ) ≤ q) :
    Representable (n : ℚ) :=
  representable_between representable_zero hq (Nat.cast_nonneg n) h

theorem ofRat_ne_nan (q : ℚ) : ofRat q ≠ .nan := by
  unfold ofRat
  split_ifs <;> simp

theorem ofRat_ne_negInf {q : ℚ} (h : 0 ≤ q) : ofRat q ≠ .negInf := by
  unfold ofRat
  split_ifs with h₁ h₂
  · simp
  · simp
  · have hq : q = 0 := le_antisymm (not_lt.mp h₂) h
    exact absurd (hq ▸ representable_zero) h₁

@[simp] theorem lt_fin {a b : ℚ} (ha : Representable a) (hb : Representable b) :
    lt (.fin a ha) (.fin b hb) = decide (a < b) := rfl

@[simp] theorem le_fin {a b : ℚ} (ha : Representable a) (hb : Representable b) :
    le (.fin a ha) (.fin b hb) = decide (a ≤ b) := rfl

@[simp] theorem add_fin {a b : ℚ} (ha : Representable a) (hb : Representable b) :
    add (.fin a ha) (.fin b hb) = ofRat (a + b) := rfl

@[simp] theorem mul_fin {a b : ℚ} (ha : Representable a) (hb : Representable b) :
    mul (.fin a ha) (.fin b hb) = ofRat (a * b) := rfl

@[simp] theorem isFinite_fin {a : ℚ} (ha : Representable a) : isFinite (.fin a ha) = true := rfl

theorem isFinite_iff {x : Number} : x.isFinite = true ↔ ∃ q h, x = .fin q h := by
  cases x with
  | fin q h => exact ⟨fun _ => ⟨q, h, rfl⟩, fun _ => rfl⟩
  | _ => simp [isFinite]

theorem ofNat_of_representable {n : ℕ} (h : Representable (n : ℚ)) : ofNat n = .fin n h :=
  ofRat_of_representable h

theorem zero_eq : (0 : Number) = .fin 0 representable_zero  :=
  (congrArg ofRat Nat.cast_zero).trans (ofRat_of_representable representable_zero)

theorem representable_one : Representable 1 := by
  simpa using representable_natCast (show 1 ≤ 2 ^ 53 by decide)

theorem one_eq : (1 : Number) = .fin 1 representable_one  :=
  (congrArg ofRat Nat.cast_one).trans (ofRat_of_representable representable_one)

/-- `!(a < b)` and `a >= b` differ only on NaN. -/
theorem le_eq_not_lt {a b : Number} (ha : a ≠ .nan) (hb : b ≠ .nan) : le b a = !lt a b := by
  cases a <;> cases b <;> simp [le, lt, ← not_lt, decide_not] at ha hb ⊢

theorem left_ne_nan_of_le {a b : Number} (h : le a b = true) : a ≠ .nan := by
  intro ha
  subst ha
  cases h

theorem right_ne_nan_of_le {a b : Number} (h : le a b = true) : b ≠ .nan := by
  intro hb
  subst hb
  cases a <;> cases h

/-- `!(a < b)` says `b <= a` of numbers only. -/
theorem le_iff_not_lt {a b : Number} :
    le b a = true ↔ lt a b = false ∧ a ≠ .nan ∧ b ≠ .nan := by
  constructor
  · intro h
    have ha : a ≠ .nan := right_ne_nan_of_le h
    have hb : b ≠ .nan := left_ne_nan_of_le h
    rw [le_eq_not_lt ha hb, Bool.not_eq_true'] at h
    exact ⟨h, ha, hb⟩
  · intro h
    rw [le_eq_not_lt h.2.1 h.2.2, h.1]
    rfl

/-- `!(a <= b)` says `b < a` of numbers only. -/
theorem lt_iff_not_le {a b : Number} :
    lt b a = true ↔ le a b = false ∧ a ≠ .nan ∧ b ≠ .nan := by
  cases a <;> cases b <;> simp [le, lt]

theorem zero_le_ofRat {q : ℚ} (h : 0 ≤ q) : le 0 (ofRat q) = true := by
  have hne := ofRat_ne_negInf h
  by_cases hq : Representable q
  · rw [ofRat_of_representable hq, zero_eq, le_fin]
    exact decide_eq_true h
  · unfold ofRat at hne ⊢
    rw [dif_neg hq] at hne ⊢
    split_ifs at hne ⊢
    · rw [zero_eq]
      rfl
    · exact absurd rfl hne

theorem zero_le_iff {x : Number} :
    le 0 x = true ↔ x = .posInf ∨ ∃ q h, x = .fin q h ∧ 0 ≤ q := by
  rw [zero_eq]
  cases x with
  | fin q h =>
    rw [le_fin, decide_eq_true_eq]
    constructor
    · exact fun hq => .inr ⟨q, h, rfl, hq⟩
    · intro hx
      rcases hx with hx | ⟨q', h', hx, hq⟩
      · cases hx
      · cases hx
        exact hq
  | _ => simp [le]

theorem zero_le_add {x y : Number} (hx : le 0 x = true) (hy : le 0 y = true) :
    le 0 (x.add y) = true := by
  rcases zero_le_iff.mp hx with rfl | ⟨a, ha, rfl, ha'⟩
  · rcases zero_le_iff.mp hy with rfl | ⟨b, hb, rfl, -⟩ <;> exact zero_le_iff.mpr (.inl rfl)
  · rcases zero_le_iff.mp hy with rfl | ⟨b, hb, rfl, hb'⟩
    · exact zero_le_iff.mpr (.inl rfl)
    · rw [add_fin]
      exact zero_le_ofRat (add_nonneg ha' hb')

/-- A power with a whole exponent is the exact one. -/
theorem pow_natCast {b : ℚ} (hb : Representable b) {k : ℕ} (hk : Representable (k : ℚ)) :
    pow (.fin b hb) (.fin k hk) = ofRat (b ^ k) := by
  by_cases hzero : (k : ℚ) = 0
  · have hk0 : k = 0 := Nat.cast_eq_zero.mp hzero
    subst hk0
    simp only [pow, if_pos, pow_zero, Nat.cast_zero]
    exact congrArg ofRat Nat.cast_one
  · have hpos : (0 : ℚ) < k := lt_of_le_of_ne (Nat.cast_nonneg k) (Ne.symm hzero)
    have hden : ((k : ℚ)).den = 1 := Rat.den_natCast k
    simp only [pow, if_neg hzero, if_pos hpos, if_pos hden]
    by_cases hb0 : b = 0
    · have hk0 : k ≠ 0 := fun h => hzero (Nat.cast_eq_zero.mpr h)
      rw [if_pos hb0, hb0, zero_pow hk0]
      exact congrArg ofRat Nat.cast_zero
    · rw [if_neg hb0, Rat.num_natCast, zpow_natCast]

/-- Overflow does not disturb a comparison with a finite bound. -/
theorem lt_ofRat {x c : ℚ} (hc : Representable c) :
    lt (ofRat x) (.fin c hc) = decide (x < c) := by
  by_cases hx : Representable x
  · rw [ofRat_of_representable hx, lt_fin]
  · by_cases hpos : 0 < x
    · have hle : ¬ x < c := fun hlt =>
        hx (representable_between representable_zero hc hpos.le hlt.le)
      have hinf : ofRat x = .posInf := by rw [ofRat, dif_neg hx, if_pos hpos]
      rw [hinf]
      simp [lt, hle]
    · have hlt : x < c := by
        by_contra hge
        exact hx (representable_between hc representable_zero (not_lt.mp hge) (not_lt.mp hpos))
      have hinf : ofRat x = .negInf := by rw [ofRat, dif_neg hx, if_neg hpos]
      rw [hinf]
      simp [lt, hlt]

/-- Overflow does not disturb a finite cap. -/
theorem min_ofRat {x c : ℚ} (hc : Representable c) :
    (ofRat x).min (.fin c hc) = ofRat (Min.min x c) := by
  by_cases hx : Representable x
  · rw [ofRat_of_representable hx, Number.min]
    by_cases hlt : c < x
    · rw [lt_fin, if_pos (decide_eq_true hlt), min_eq_right hlt.le, ofRat_of_representable hc]
    · rw [lt_fin, if_neg (by simpa using hlt), min_eq_left (not_lt.mp hlt),
        ofRat_of_representable hx]
    all_goals simp
  · by_cases hpos : 0 < x
    · have hle : c ≤ x := by
        by_contra hlt
        exact hx (representable_between representable_zero hc hpos.le (not_le.mp hlt).le)
      have hinf : ofRat x = .posInf := by rw [ofRat, dif_neg hx, if_pos hpos]
      rw [hinf, min_eq_right hle, ofRat_of_representable hc]
      rfl
    · have hle : x ≤ c := by
        by_contra hlt
        exact hx (representable_between hc representable_zero (not_le.mp hlt).le (not_lt.mp hpos))
      have hinf : ofRat x = .negInf := by rw [ofRat, dif_neg hx, if_neg hpos]
      rw [min_eq_left hle, hinf]
      rfl

theorem representable_neg {q : ℚ} (h : Representable q) : Representable (-q) :=
  ⟨neg_lt_neg h.2, neg_lt.mp h.1⟩

theorem neg_ne_nan {a : Number} (h : a ≠ .nan) : a.neg ≠ .nan := by
  cases a with
  | fin q hq => exact ofRat_ne_nan _
  | nan => exact absurd rfl h
  | _ => simp [neg]

theorem abs_ne_nan {a : Number} (h : a ≠ .nan) : a.abs ≠ .nan := by
  unfold abs
  split_ifs
  · exact neg_ne_nan h
  · exact h

/-- Only a difference of infinities is NaN. -/
theorem sub_fin_ne_nan {a : Number} (h : a ≠ .nan) {q : ℚ} (hq : Representable q) :
    a.sub (.fin q hq) ≠ .nan := by
  have hneg : neg (.fin q hq) = .fin (-q) (representable_neg hq) :=
    ofRat_of_representable (representable_neg hq)
  rw [sub, hneg]
  cases a with
  | fin p hp => exact ofRat_ne_nan _
  | nan => exact absurd rfl h
  | _ => simp [add]

/-- A finite Number less itself is zero. -/
theorem sub_self_fin {q : ℚ} (hq : Representable q) :
    sub (.fin q hq) (.fin q hq) = 0 := by
  have hneg : neg (.fin q hq) = .fin (-q) (representable_neg hq) :=
    ofRat_of_representable (representable_neg hq)
  rw [sub, hneg, add_fin, add_neg_cancel]
  exact (congrArg ofRat Nat.cast_zero).symm

theorem ofNat_sub_one {n : ℕ} (hn : 1 ≤ n) (h : Representable (n : ℚ)) :
    (ofNat n).sub 1 = ofNat (n - 1) := by
  have hneg : neg 1 = .fin (-1) (representable_neg representable_one) := by
    rw [one_eq, neg]
    exact ofRat_of_representable _
  rw [sub, hneg, ofNat_of_representable h, add_fin, ofNat, Nat.cast_sub hn, Nat.cast_one,
    sub_eq_add_neg]

end Lemmas

end Number

end EventFlow.Js
