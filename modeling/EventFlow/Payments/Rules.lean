import EventFlow.Services.PaymentRules

namespace EventFlow.Services.Payment

open Js Shared

/-- The rules of `evaluatePaymentRules`. -/
inductive PaymentRule where
  | minAmount
  | maxAmount
  | nonEmptyItems
  | maxItems
  | amountMatchesItems
  | positiveQuantity
  | nonNegativePrice
  deriving DecidableEq, Repr

namespace PaymentRule

def name : PaymentRule → String
  | .minAmount => "MIN_AMOUNT"
  | .maxAmount => "MAX_AMOUNT"
  | .nonEmptyItems => "NON_EMPTY_ITEMS"
  | .maxItems => "MAX_ITEMS"
  | .amountMatchesItems => "AMOUNT_MATCHES_ITEMS"
  | .positiveQuantity => "POSITIVE_QUANTITY"
  | .nonNegativePrice => "NON_NEGATIVE_PRICE"

/-- How far the total is from the sum of the items. -/
def drift (order : OrderCreatedPayload) : Number :=
  ((sumLineItems order.items).sub order.totalAmount).abs

variable (order : OrderCreatedPayload) (config : PaymentBusinessRulesConfig)

/-- The test that reports a rule. -/
def broken : PaymentRule → Bool
  | .minAmount => Number.lt order.totalAmount config.minAmount
  | .maxAmount => Number.lt config.maxAmount order.totalAmount
  | .nonEmptyItems => order.items.length = 0
  | .maxItems => Number.lt config.maxItems (.ofNat order.items.length)
  | .amountMatchesItems => Number.lt config.amountTolerance (drift order)
  | .positiveQuantity => order.items.any fun item => Number.le item.quantity 0
  | .nonNegativePrice => order.items.any fun item => Number.lt item.unitPrice 0

/-- What the rule asks of an order. -/
def Met : PaymentRule → Prop
  | .minAmount => Number.le config.minAmount order.totalAmount = true
  | .maxAmount => Number.le order.totalAmount config.maxAmount = true
  | .nonEmptyItems => 1 ≤ order.items.length
  | .maxItems => Number.le (.ofNat order.items.length) config.maxItems = true
  | .amountMatchesItems => Number.le (drift order) config.amountTolerance = true
  | .positiveQuantity => ∀ item ∈ order.items, Number.lt 0 item.quantity = true
  | .nonNegativePrice => ∀ item ∈ order.items, Number.le 0 item.unitPrice = true

/-- Neither side of the rule's comparisons is NaN. -/
def Comparable : PaymentRule → Prop
  | .minAmount => order.totalAmount ≠ .nan ∧ config.minAmount ≠ .nan
  | .maxAmount => config.maxAmount ≠ .nan ∧ order.totalAmount ≠ .nan
  | .nonEmptyItems => True
  | .maxItems => config.maxItems ≠ .nan
  | .amountMatchesItems => config.amountTolerance ≠ .nan ∧ drift order ≠ .nan
  | .positiveQuantity => ∀ item ∈ order.items, item.quantity ≠ .nan
  | .nonNegativePrice => ∀ item ∈ order.items, item.unitPrice ≠ .nan

variable {order config}

theorem exists_violationIf {test : Bool} {rule message : String} {p : String → Prop} :
    (∃ v ∈ violationIf test rule message, p v.rule) ↔ test = true ∧ p rule := by
  cases test <;> simp [violationIf]

theorem exists_itemViolations {items : List OrderItem} {p : String → Prop} :
    (∃ v ∈ (items.map itemViolations).flatten, p v.rule) ↔
      (items.any (fun item => Number.le item.quantity 0) = true ∧ p "POSITIVE_QUANTITY") ∨
        (items.any (fun item => Number.lt item.unitPrice 0) = true ∧ p "NON_NEGATIVE_PRICE") := by
  induction items with
  | nil => simp
  | cons item rest ih =>
    simp only [List.map_cons, List.flatten_cons, List.mem_append, or_and_right, exists_or, ih,
      itemViolations, exists_violationIf, List.any_cons, Bool.or_eq_true]
    exact or_or_or_comm

/-- What is reported are the broken rules. -/
theorem exists_reported {p : String → Prop} :
    (∃ v ∈ evaluatePaymentRules order config, p v.rule) ↔
      ∃ rule : PaymentRule, rule.broken order config = true ∧ p rule.name := by
  simp only [evaluatePaymentRules, List.mem_append, or_and_right, exists_or, exists_violationIf,
    exists_itemViolations]
  constructor
  · intro h
    rcases h with ((((h | h) | h) | h) | h) | h | h
    · exact ⟨.minAmount, h⟩
    · exact ⟨.maxAmount, h⟩
    · exact ⟨.nonEmptyItems, h⟩
    · exact ⟨.maxItems, h⟩
    · exact ⟨.amountMatchesItems, h⟩
    · exact ⟨.positiveQuantity, h⟩
    · exact ⟨.nonNegativePrice, h⟩
  · intro h
    obtain ⟨rule, h⟩ := h
    cases rule with
    | minAmount => exact .inl (.inl (.inl (.inl (.inl h))))
    | maxAmount => exact .inl (.inl (.inl (.inl (.inr h))))
    | nonEmptyItems => exact .inl (.inl (.inl (.inr h)))
    | maxItems => exact .inl (.inl (.inr h))
    | amountMatchesItems => exact .inl (.inr h)
    | positiveQuantity => exact .inr (.inl h)
    | nonNegativePrice => exact .inr (.inr h)

theorem reported_of_mem {v : PaymentRuleViolation} (h : v ∈ evaluatePaymentRules order config) :
    ∃ rule : PaymentRule, rule.broken order config = true ∧ v.rule = rule.name :=
  exists_reported.mp ⟨v, h, rfl⟩

/-- The charge goes on to the gateway when no rule's test succeeds. -/
theorem evaluatePaymentRules_eq_nil_iff :
    evaluatePaymentRules order config = [] ↔
      ∀ rule : PaymentRule, rule.broken order config = false := by
  have h : (∃ v ∈ evaluatePaymentRules order config, True) ↔
      ∃ rule : PaymentRule, rule.broken order config = true ∧ True :=
    exists_reported (p := fun _ => True)
  simp only [and_true] at h
  rw [List.eq_nil_iff_forall_not_mem, ← not_iff_not]
  push Not
  rw [h]
  simp only [ne_eq, Bool.not_eq_false]

/-- A rule is met when its test fails on numbers. -/
theorem met_iff (rule : PaymentRule) :
    rule.Met order config ↔ rule.broken order config = false ∧ rule.Comparable order config := by
  cases rule with
  | minAmount => exact Number.le_iff_not_lt
  | maxAmount => exact Number.le_iff_not_lt
  | nonEmptyItems => simp [Met, broken, Comparable, Nat.one_le_iff_ne_zero]
  | maxItems =>
    have hlen : Number.ofNat order.items.length ≠ .nan := Number.ofRat_ne_nan _
    simp [Met, broken, Comparable, Number.le_iff_not_lt, hlen]
  | amountMatchesItems => exact Number.le_iff_not_lt
  | positiveQuantity =>
    have hzero : (0 : Number) ≠ .nan := Number.ofRat_ne_nan _
    simp only [Met, broken, Comparable, List.any_eq_false, Number.lt_iff_not_le,
      Bool.not_eq_true, ← forall₂_and]
    simp [hzero]
  | nonNegativePrice =>
    have hzero : (0 : Number) ≠ .nan := Number.ofRat_ne_nan _
    simp only [Met, broken, Comparable, List.any_eq_false, Number.le_iff_not_lt,
      Bool.not_eq_true, ← forall₂_and]
    simp [hzero]

end PaymentRule

section Settings

open PaymentRule

variable {env : String → Option String} {order : OrderCreatedPayload}

/-- What a check without violations is meant to establish. -/
structure Vetted (order : OrderCreatedPayload) (config : PaymentBusinessRulesConfig) : Prop where
  thresholds : config.minAmount ≠ .nan ∧ config.maxAmount ≠ .nan ∧ config.maxItems ≠ .nan ∧
    config.amountTolerance ≠ .nan
  minAmount : Number.le config.minAmount order.totalAmount = true
  maxAmount : Number.le order.totalAmount config.maxAmount = true
  items : 1 ≤ order.items.length
  maxItems : Number.le (.ofNat order.items.length) config.maxItems = true
  total : Number.le ((sumLineItems order.items).sub order.totalAmount).abs
    config.amountTolerance = true
  quantity : ∀ item ∈ order.items, Number.lt 0 item.quantity = true
  unitPrice : ∀ item ∈ order.items, Number.le 0 item.unitPrice = true

theorem vetted_iff {config : PaymentBusinessRulesConfig} :
    Vetted order config ↔ ∀ rule : PaymentRule, rule.Met order config := by
  constructor
  · intro h rule
    cases rule with
    | minAmount => exact h.minAmount
    | maxAmount => exact h.maxAmount
    | nonEmptyItems => exact h.items
    | maxItems => exact h.maxItems
    | amountMatchesItems => exact h.total
    | positiveQuantity => exact h.quantity
    | nonNegativePrice => exact h.unitPrice
  · intro h
    exact {
      thresholds := ⟨Number.left_ne_nan_of_le (h .minAmount),
        Number.right_ne_nan_of_le (h .maxAmount), Number.right_ne_nan_of_le (h .maxItems),
        Number.right_ne_nan_of_le (h .amountMatchesItems)⟩
      minAmount := h .minAmount
      maxAmount := h .maxAmount
      items := h .nonEmptyItems
      maxItems := h .maxItems
      total := h .amountMatchesItems
      quantity := h .positiveQuantity
      unitPrice := h .nonNegativePrice }

/-- The variable is unset, or its text converts to a number. -/
def Numeric (env : String → Option String) (name : String) : Prop :=
  ∀ text, env name = some text → Number.ofText text ≠ .nan

theorem envNumber_ne_nan {name : String} {fallback : Number} (h : fallback ≠ .nan) :
    envNumber env name fallback ≠ .nan ↔ Numeric env name := by
  unfold envNumber Numeric
  cases env name with
  | none => simp [h]
  | some text => simp

/-- No variable of the rules is malformed. -/
def NumericSettings (env : String → Option String) : Prop :=
  ∀ name ∈ ["PAYMENT_MIN_AMOUNT", "PAYMENT_MAX_AMOUNT", "PAYMENT_MAX_ITEMS",
    "PAYMENT_AMOUNT_TOLERANCE"], Numeric env name

/-- The numbers of an order can be compared, as those of a validated one. -/
structure NumericOrder (order : OrderCreatedPayload) : Prop where
  totalAmount : order.totalAmount ≠ .nan
  drift : ((sumLineItems order.items).sub order.totalAmount).abs ≠ .nan
  quantity : ∀ item ∈ order.items, item.quantity ≠ .nan
  unitPrice : ∀ item ∈ order.items, item.unitPrice ≠ .nan

/-- The order breaks a rule, by a comparison that a malformed variable does not
silence. -/
def Refused (env : String → Option String) (order : OrderCreatedPayload) : Prop :=
  Number.lt order.totalAmount (envNumber env "PAYMENT_MIN_AMOUNT" (.ofRat (1 / 100))) = true ∨
  Number.lt (envNumber env "PAYMENT_MAX_AMOUNT" 10000) order.totalAmount = true ∨
  order.items = [] ∨
  Number.lt (envNumber env "PAYMENT_MAX_ITEMS" 50) (.ofNat order.items.length) = true ∨
  Number.lt (envNumber env "PAYMENT_AMOUNT_TOLERANCE" (.ofRat (1 / 100)))
    ((sumLineItems order.items).sub order.totalAmount).abs = true ∨
  (∃ item ∈ order.items, Number.le item.quantity 0 = true) ∨
  ∃ item ∈ order.items, Number.lt item.unitPrice 0 = true

theorem refused_iff :
    Refused env order ↔
      ∃ rule : PaymentRule, rule.broken order (resolvePaymentBusinessRules env) = true := by
  constructor
  · intro h
    rcases h with h | h | h | h | h | h | h
    · exact ⟨.minAmount, h⟩
    · exact ⟨.maxAmount, h⟩
    · exact ⟨.nonEmptyItems, by simp [broken, h]⟩
    · exact ⟨.maxItems, h⟩
    · exact ⟨.amountMatchesItems, h⟩
    · exact ⟨.positiveQuantity, List.any_eq_true.mpr h⟩
    · exact ⟨.nonNegativePrice, List.any_eq_true.mpr h⟩
  · intro h
    obtain ⟨rule, h⟩ := h
    cases rule with
    | minAmount => exact .inl h
    | maxAmount => exact .inr (.inl h)
    | nonEmptyItems =>
      have hnil : order.items = [] := by simpa [broken] using h
      exact .inr (.inr (.inl hnil))
    | maxItems => exact .inr (.inr (.inr (.inl h)))
    | amountMatchesItems => exact .inr (.inr (.inr (.inr (.inl h))))
    | positiveQuantity =>
      exact .inr (.inr (.inr (.inr (.inr (.inl (List.any_eq_true.mp h))))))
    | nonNegativePrice =>
      exact .inr (.inr (.inr (.inr (.inr (.inr (List.any_eq_true.mp h))))))

theorem comparable_iff :
    (∀ rule : PaymentRule, rule.Comparable order (resolvePaymentBusinessRules env)) ↔
      NumericSettings env ∧ NumericOrder order := by
  have hcent : Number.ofRat (1 / 100) ≠ .nan := Number.ofRat_ne_nan _
  have hmax : (10000 : Number) ≠ .nan := Number.ofRat_ne_nan _
  have hitems : (50 : Number) ≠ .nan := Number.ofRat_ne_nan _
  constructor
  · intro h
    refine ⟨?_, (h .minAmount).1, (h .amountMatchesItems).2, h .positiveQuantity,
      h .nonNegativePrice⟩
    intro name hname
    simp only [List.mem_cons, List.not_mem_nil, or_false] at hname
    rcases hname with rfl | rfl | rfl | rfl
    · exact (envNumber_ne_nan hcent).mp (h .minAmount).2
    · exact (envNumber_ne_nan hmax).mp (h .maxAmount).1
    · exact (envNumber_ne_nan hitems).mp (h .maxItems)
    · exact (envNumber_ne_nan hcent).mp (h .amountMatchesItems).1
  · intro h rule
    obtain ⟨hset, horder⟩ := h
    cases rule with
    | minAmount =>
      exact ⟨horder.totalAmount, (envNumber_ne_nan hcent).mpr (hset _ (by simp))⟩
    | maxAmount =>
      exact ⟨(envNumber_ne_nan hmax).mpr (hset _ (by simp)), horder.totalAmount⟩
    | nonEmptyItems => trivial
    | maxItems => exact (envNumber_ne_nan hitems).mpr (hset _ (by simp))
    | amountMatchesItems =>
      exact ⟨(envNumber_ne_nan hcent).mpr (hset _ (by simp)), horder.drift⟩
    | positiveQuantity => exact horder.quantity
    | nonNegativePrice => exact horder.unitPrice

/-- A check without violations vets the order exactly when its comparisons are of
numbers, or when there are violations after all. -/
theorem vetted_iff_comparable {config : PaymentBusinessRulesConfig} :
    (evaluatePaymentRules order config = [] → Vetted order config) ↔
      (∃ rule : PaymentRule, rule.broken order config = true) ∨
        ∀ rule : PaymentRule, rule.Comparable order config := by
  rw [evaluatePaymentRules_eq_nil_iff, vetted_iff]
  constructor
  · intro h
    by_cases hbroken : ∃ rule : PaymentRule, rule.broken order config = true
    · exact .inl hbroken
    · simp only [not_exists, Bool.not_eq_true] at hbroken
      exact .inr fun rule => ((met_iff rule).mp (h hbroken rule)).2
  · intro h hnone rule
    rcases h with ⟨broken, hbroken⟩ | h
    · rw [hnone broken] at hbroken
      cases hbroken
    · exact (met_iff rule).mpr ⟨hnone rule, h rule⟩

/-- No violation vets the order exactly when nothing is malformed, or when a rule
that still works refuses the order. -/
theorem vetted_of_no_violation_iff (env : String → Option String) (order : OrderCreatedPayload) :
    (evaluatePaymentRules order (resolvePaymentBusinessRules env) = [] →
        Vetted order (resolvePaymentBusinessRules env)) ↔
      Refused env order ∨ NumericSettings env ∧ NumericOrder order := by
  rw [vetted_iff_comparable, refused_iff, comparable_iff]

/-- `PAYMENT_MAX_AMOUNT=abc`, nothing else set. -/
def malformedMaximum (name : String) : Option String :=
  if name = "PAYMENT_MAX_AMOUNT" then some "abc" else none

def largeOrder : OrderCreatedPayload where
  orderId := "o-1"
  customerId := "c-1"
  items := [{ productId := "sku-1", quantity := 1, unitPrice := 20000 }]
  totalAmount := 20000
  currency := "BRL"

/-- Twice the default maximum goes through. -/
theorem malformedMaximum_lets_through :
    ¬ (evaluatePaymentRules largeOrder (resolvePaymentBusinessRules malformedMaximum) = [] →
      Vetted largeOrder (resolvePaymentBusinessRules malformedMaximum)) := by
  have hnone : evaluatePaymentRules largeOrder (resolvePaymentBusinessRules malformedMaximum) = [] :=
    by decide +kernel
  have hnan : (resolvePaymentBusinessRules malformedMaximum).maxAmount = .nan := by decide +kernel
  intro h
  exact (h hnone).thresholds.2.1 hnan

end Settings

end EventFlow.Services.Payment
