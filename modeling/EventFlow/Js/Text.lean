import EventFlow.Js.Number
import Mathlib.Data.List.TakeWhile

namespace EventFlow.Js

/-- WhiteSpace and LineTerminator of the language, the set `trim` strips. -/
def isSpace (c : Char) : Bool :=
  c.toNat ∈ [0x09, 0x0A, 0x0B, 0x0C, 0x0D, 0x20, 0xA0, 0x1680, 0x2028, 0x2029, 0x202F, 0x205F,
    0x3000, 0xFEFF] || (0x2000 ≤ c.toNat && c.toNat ≤ 0x200A)

def trimChars (cs : List Char) : List Char :=
  ((cs.dropWhile isSpace).reverse.dropWhile isSpace).reverse

/-- `String.prototype.trim`. -/
def trim (s : String) : String := String.ofList (trimChars s.toList)

/-- `s.trim().length > 0`, the shape every required string is tested in. -/
def nonBlank (s : String) : Bool := !(trimChars s.toList).isEmpty

/-- A string is blank exactly when all its characters are white space. -/
theorem trimChars_eq_nil_iff {cs : List Char} : trimChars cs = [] ↔ ∀ c ∈ cs, isSpace c = true := by
  rw [trimChars, List.reverse_eq_nil_iff, List.dropWhile_eq_nil_iff]
  constructor
  · intro h
    by_contra hc
    push Not at hc
    obtain ⟨c, hmem, hsp⟩ := hc
    have hne : cs.dropWhile isSpace ≠ [] := fun hnil =>
      hsp (List.dropWhile_eq_nil_iff.mp hnil c hmem)
    have hhead := List.head_dropWhile_not isSpace hne
    have := h _ (List.mem_reverse.mpr (List.head_mem hne))
    rw [hhead] at this
    exact absurd this (by decide)
  · intro h c hc
    exact h c ((List.dropWhile_sublist isSpace).subset (List.mem_reverse.mp hc))

theorem nonBlank_iff {s : String} : nonBlank s = true ↔ ∃ c ∈ s.toList, isSpace c = false := by
  rw [nonBlank, Bool.not_eq_true', ← Bool.not_eq_true, List.isEmpty_iff, trimChars_eq_nil_iff]
  push Not
  simp only [ne_eq, Bool.not_eq_true]

theorem nonBlank_ne_empty {s : String} (h : nonBlank s = true) : s ≠ "" := by
  rintro rfl
  exact absurd h (by decide)

section NumberText

/-- Value of a digit string. -/
def digitsValue (cs : List Char) : ℕ := Nat.ofDigitChars 10 cs 0

/-- `ExponentPart`: absent, or `e`/`E`, a sign and digits. -/
def exponentPart : List Char → Option ℤ
  | [] => some 0
  | 'e' :: cs | 'E' :: cs =>
    let (negative, ds) : Bool × List Char := match cs with
      | '-' :: ds => (true, ds)
      | '+' :: ds => (false, ds)
      | ds => (false, ds)
    if ds.isEmpty || !ds.all Char.isDigit then none
    else some (if negative then -(digitsValue ds : ℤ) else digitsValue ds)
  | _ => none

/-- `StrUnsignedDecimalLiteral`. -/
def unsignedDecimal (cs : List Char) : Number :=
  if cs = "Infinity".toList then .posInf
  else
    let whole := cs.takeWhile Char.isDigit
    let (frac, rest) : List Char × List Char := match cs.dropWhile Char.isDigit with
      | '.' :: r => (r.takeWhile Char.isDigit, r.dropWhile Char.isDigit)
      | r => ([], r)
    if (whole ++ frac).isEmpty then .nan
    else match exponentPart rest with
      | none => .nan
      | some e => .ofRat (digitsValue (whole ++ frac) * (10 : ℚ) ^ (e - frac.length))

/-- A `0x`, `0o` or `0b` integer literal after its prefix. -/
def radixInteger (base : ℕ) (cs : List Char) : Number :=
  let digit (c : Char) : ℕ :=
    if c.isDigit then c.toNat - 48 else if c.isAlpha then c.toLower.toNat - 87 else base
  if cs.isEmpty || !cs.all (fun c => digit c < base) then .nan
  else .ofRat ((cs.foldl (fun n c => base * n + digit c) 0 : ℕ) : ℚ)

/-- `StrNumericLiteral` on the trimmed text; the empty text is 0. -/
def numericLiteral : List Char → Number
  | [] => 0
  | '0' :: 'x' :: cs | '0' :: 'X' :: cs => radixInteger 16 cs
  | '0' :: 'o' :: cs | '0' :: 'O' :: cs => radixInteger 8 cs
  | '0' :: 'b' :: cs | '0' :: 'B' :: cs => radixInteger 2 cs
  | '-' :: cs => (unsignedDecimal cs).neg
  | '+' :: cs => unsignedDecimal cs
  | cs => unsignedDecimal cs

/-- `Number(text)`. -/
def Number.ofText (text : String) : Number := numericLiteral (trimChars text.toList)

/-- Decimal places of a fraction whose denominator divides a power of ten. -/
def decimalPlaces (den : ℕ) : ℕ :=
  ((List.range (Nat.log2 den + 1)).find? fun k => 10 ^ k % den == 0).getD (Nat.log2 den + 1)

/-- `String(number)`. Digits are written out where the language switches to
exponent notation, which reads back as the same Number. -/
def Number.toText : Number → String
  | .nan => "NaN"
  | .posInf => "Infinity"
  | .negInf => "-Infinity"
  | .fin q _ =>
    let sgn := if q < 0 then "-" else ""
    if q.den = 1 then sgn ++ q.num.natAbs.repr
    else
      let k := decimalPlaces q.den
      let ds := (q.num.natAbs * 10 ^ k / q.den).repr.toList
      let padded := List.replicate (k + 1 - ds.length) '0' ++ ds
      sgn ++ String.ofList (padded.take (padded.length - k)) ++ "." ++
        String.ofList (padded.drop (padded.length - k))

example : Number.ofText " 0x1F " = 31 ∧ Number.ofText "1e400" = .posInf ∧
    Number.ofText "12.50" = .ofRat (25 / 2) ∧ Number.ofText "1e" = .nan := by decide +kernel

example : Number.toText (.ofRat (1 / 100)) = "0.01" := by decide +kernel

private theorem dropWhile_eq_self {p : Char → Bool} {cs : List Char} (h : ∀ c ∈ cs, p c = false) :
    cs.dropWhile p = cs := by
  cases cs with
  | nil => rfl
  | cons c cs => simp [h c List.mem_cons_self]

theorem trimChars_eq_self {cs : List Char} (h : ∀ c ∈ cs, isSpace c = false) :
    trimChars cs = cs := by
  rw [trimChars, dropWhile_eq_self h,
    dropWhile_eq_self fun c hc => h c (List.mem_reverse.mp hc), List.reverse_reverse]

theorem isSpace_of_isDigit {c : Char} (h : c.isDigit = true) : isSpace c = false := by
  have hc : 48 ≤ c.toNat ∧ c.toNat ≤ 57 := Char.isDigit_iff_toNat.mp h
  simp only [isSpace, List.mem_cons, List.not_mem_nil, or_false, Bool.or_eq_false_iff,
    decide_eq_false_iff_not, Bool.and_eq_false_iff]
  omega

theorem unsignedDecimal_digits {ds : List Char} (hne : ds ≠ [])
    (h : ∀ c ∈ ds, c.isDigit = true) : unsignedDecimal ds = .ofRat (digitsValue ds : ℚ) := by
  have htake : ds.takeWhile Char.isDigit = ds := List.takeWhile_eq_self_iff.mpr h
  have hdrop : ds.dropWhile Char.isDigit = [] := List.dropWhile_eq_nil_iff.mpr h
  have hinf : ds ≠ "Infinity".toList := fun heq =>
    absurd (h 'I' (heq ▸ List.mem_cons_self)) (by decide)
  have hsome : ds.isEmpty = false := by simpa using hne
  rw [unsignedDecimal, if_neg hinf]
  simp only [htake, hdrop, List.append_nil, hsome, exponentPart, Bool.false_eq_true, if_false]
  rw [List.length_nil, Nat.cast_zero, sub_zero, zpow_zero, mul_one]

theorem numericLiteral_plain {cs : List Char} (hne : cs ≠ [])
    (h : ∀ c ∈ cs, c.isDigit = true ∨ c = '.') : numericLiteral cs = unsignedDecimal cs := by
  unfold numericLiteral
  split
  · exact absurd rfl hne
  all_goals first
    | rfl
    | exact absurd (h _ (List.mem_cons_of_mem _ List.mem_cons_self)) (by decide)
    | exact absurd (h _ List.mem_cons_self) (by decide)

end NumberText

end EventFlow.Js
