import EventFlow.Services.Consumer

namespace EventFlow.Services

open Js Shared

/-- A validated `order.created` payload under its declared types. -/
structure OrderCreatedPayload where
  orderId : String
  customerId : String
  items : List OrderItem
  totalAmount : Number
  currency : String
  deriving DecidableEq

def OrderItem.ofJs (v : JsVal) : OrderItem where
  productId := (v.get "productId").asStr
  quantity := (v.get "quantity").asNum
  unitPrice := (v.get "unitPrice").asNum

def OrderItem.toJs (item : OrderItem) : JsVal :=
  .obj [("productId", .str item.productId), ("quantity", .num item.quantity),
    ("unitPrice", .num item.unitPrice)]

def OrderCreatedPayload.ofJs (payload : JsVal) : OrderCreatedPayload where
  orderId := (payload.get "orderId").asStr
  customerId := (payload.get "customerId").asStr
  items := (payload.get "items").asArr.map OrderItem.ofJs
  totalAmount := (payload.get "totalAmount").asNum
  currency := (payload.get "currency").asStr

/-- `items.reduce((sum, item) => sum + item.quantity * item.unitPrice, 0)`. -/
def sumLineItems (items : List OrderItem) : Number :=
  items.foldl (fun sum item => sum.add (item.quantity.mul item.unitPrice)) 0

namespace Payment

section Rules

structure PaymentBusinessRulesConfig where
  minAmount : Number
  maxAmount : Number
  maxItems : Number
  amountTolerance : Number

structure PaymentRuleViolation where
  rule : String
  message : String
  deriving DecidableEq, Repr

/-- `Number(process.env.NAME ?? fallback)`. -/
def envNumber (env : String → Option String) (name : String) (fallback : Number) : Number :=
  ((env name).map Number.ofText).getD fallback

def resolvePaymentBusinessRules (env : String → Option String) : PaymentBusinessRulesConfig where
  minAmount := envNumber env "PAYMENT_MIN_AMOUNT" (.ofRat (1 / 100))
  maxAmount := envNumber env "PAYMENT_MAX_AMOUNT" 10000
  maxItems := envNumber env "PAYMENT_MAX_ITEMS" 50
  amountTolerance := envNumber env "PAYMENT_AMOUNT_TOLERANCE" (.ofRat (1 / 100))

/-- One rule: its violation when the test succeeds. -/
def violationIf (test : Bool) (rule message : String) : List PaymentRuleViolation :=
  if test then [{ rule := rule, message := message }] else []

def itemViolations (item : OrderItem) : List PaymentRuleViolation :=
  violationIf (Number.le item.quantity 0) "POSITIVE_QUANTITY"
    ("invalid quantity for product " ++ item.productId) ++
  violationIf (Number.lt item.unitPrice 0) "NON_NEGATIVE_PRICE"
    ("invalid unitPrice for product " ++ item.productId)

def evaluatePaymentRules (order : OrderCreatedPayload) (config : PaymentBusinessRulesConfig) :
    List PaymentRuleViolation :=
  let total := order.totalAmount.toText
  let computedTotal := sumLineItems order.items
  let drift := (computedTotal.sub order.totalAmount).abs
  violationIf (Number.lt order.totalAmount config.minAmount) "MIN_AMOUNT"
    ("totalAmount " ++ total ++ " is below minimum " ++ config.minAmount.toText) ++
  violationIf (Number.lt config.maxAmount order.totalAmount) "MAX_AMOUNT"
    ("totalAmount " ++ total ++ " exceeds maximum " ++ config.maxAmount.toText) ++
  violationIf (order.items.length = 0) "NON_EMPTY_ITEMS" "order must contain at least one item" ++
  violationIf (Number.lt config.maxItems (.ofNat order.items.length)) "MAX_ITEMS"
    ("order has " ++ order.items.length.repr ++ " items; maximum is " ++
      config.maxItems.toText) ++
  violationIf (Number.lt config.amountTolerance drift) "AMOUNT_MATCHES_ITEMS"
    ("totalAmount " ++ total ++ " does not match items sum " ++ computedTotal.toText) ++
  (order.items.map itemViolations).flatten

def formatRuleViolations (violations : List PaymentRuleViolation) : String :=
  "; ".intercalate (violations.map fun v => v.rule ++ ": " ++ v.message)

end Rules

section Simulator

inductive PaymentFailureType where
  | timeout
  | gatewayUnavailable
  | cardDeclined
  | connectionReset
  deriving DecidableEq, Repr

structure PaymentFailureScenario where
  type : PaymentFailureType
  message : String
  delayMs : Option Number := none

def paymentFailureScenarios : List PaymentFailureScenario :=
  [{ type := .timeout, message := "Payment gateway timeout", delayMs := some 3000 },
    { type := .gatewayUnavailable, message := "Gateway unavailable" },
    { type := .cardDeclined, message := "Card declined" },
    { type := .connectionReset, message := "Connection reset by peer" }]

def resolvePaymentFailureRate (env : String → Option String) : Number :=
  let raw := envNumber env "PAYMENT_FAILURE_RATE" (.ofRat (1 / 5))
  if raw.isNaN then .ofRat (1 / 5) else Number.min 1 (Number.max 0 raw)

def isPaymentForceFailureEnabled (env : String → Option String) : Bool :=
  env "PAYMENT_FORCE_FAILURE" = some "true"

theorem floor_mul_lt {r : UnitFraction} {n : ℕ} (hn : 0 < n) : ⌊r.val * n⌋₊ < n := by
  have hpos : (0 : ℚ) < n := Nat.cast_pos.mpr hn
  rw [Nat.floor_lt (mul_nonneg r.2.1 hpos.le)]
  exact mul_lt_of_lt_one_left hpos r.2.2

/-- `Math.floor(Math.random() * length)` always hits the catalogue. -/
def pickSimulatedFailure (random : UnitFraction) : PaymentFailureScenario :=
  paymentFailureScenarios.get
    ⟨⌊random.val * paymentFailureScenarios.length⌋₊, floor_mul_lt (by decide)⟩

inductive PaymentSimulationOutcome where
  | approved
  | failed
  deriving DecidableEq, Repr

structure PaymentSimulationResult where
  outcome : PaymentSimulationOutcome
  paymentId : String
  status : PaymentSimulationOutcome
  failureType : Option PaymentFailureType := none
  failureReason : Option String := none
  simulateDelayMs : Option Number := none

def unitToNumber (r : UnitFraction) : Number :=
  .fin r.val (Number.representable_between Number.representable_zero Number.representable_one
    r.2.1 r.2.2.le)

structure PaymentSimulationOptions where
  paymentId : Option String := none
  failureRate : Option Number := none
  forceFailure : Option Bool := none

def simulatePaymentGateway (proc : Process) (options : PaymentSimulationOptions) :
    PaymentSimulationResult :=
  let paymentId := options.paymentId.getD (proc.uuid 9).val
  let failureRate := options.failureRate.getD (resolvePaymentFailureRate proc.env)
  let forceFailure := options.forceFailure.getD (isPaymentForceFailureEnabled proc.env)
  let shouldFail := forceFailure || Number.lt (unitToNumber (proc.random 0)) failureRate
  if !shouldFail then { outcome := .approved, paymentId := paymentId, status := .approved }
  else
    let scenario := pickSimulatedFailure (proc.random 1)
    let timeoutDelay := envNumber proc.env "PAYMENT_TIMEOUT_DELAY_MS" (scenario.delayMs.getD 0)
    { outcome := .failed
      paymentId := paymentId
      status := .failed
      failureType := some scenario.type
      failureReason := some scenario.message
      simulateDelayMs := if scenario.type = .timeout then some timeoutDelay else none }

end Simulator

end Payment

end EventFlow.Services
