import EventFlow.Services.PaymentRules

namespace EventFlow.Services.Payment

open Js Shared

section ProcessedEvents

inductive IdempotencyCheckResult where
  | new
  | duplicateEvent (record : ProcessedEventEntity)
  | duplicateOrder (record : ProcessedEventEntity)

def findByEvent (inboundEventId : String) : Promise (Option ProcessedEventEntity) :=
  Async.perform (Op.findByEvent inboundEventId)

def findApproved (orderId : String) : Promise (Option ProcessedEventEntity) :=
  Async.perform (Op.findApproved orderId)

/-- The inbound event first, then an approved payment of the same order. -/
def checkOrderCreated (inboundEventId orderId : String) : Promise IdempotencyCheckResult := do
  let byEvent ← findByEvent inboundEventId
  match byEvent with
  | some record => .resolve (.duplicateEvent record)
  | none =>
    let byOrder ← findApproved orderId
    match byOrder with
    | some record => .resolve (.duplicateOrder record)
    | none => .resolve .new

/-- What follows from the second find. -/
def decideByOrder : Option ProcessedEventEntity → Promise IdempotencyCheckResult
  | some record => .resolve (.duplicateOrder record)
  | none => .resolve .new

/-- What follows from the first. -/
def decideByEvent (orderId : String) : Option ProcessedEventEntity → Promise IdempotencyCheckResult
  | some record => .resolve (.duplicateEvent record)
  | none => (findApproved orderId).bind decideByOrder

theorem checkOrderCreated_eq (inboundEventId orderId : String) :
    checkOrderCreated inboundEventId orderId =
      (findByEvent inboundEventId).bind (decideByEvent orderId) := rfl

variable {S : Op → Prop} {inboundEventId orderId : String}

theorem performs_decideByEvent (horder : S (.findApproved orderId))
    (byEvent : Option ProcessedEventEntity) : (decideByEvent orderId byEvent).Performs S := by
  cases byEvent with
  | some record => trivial
  | none =>
    have hfind : (findApproved orderId).Performs S := (Async.performs_perform _).mpr horder
    refine hfind.bind fun byOrder => ?_
    cases byOrder <;> trivial

/-- The check is two finds. -/
theorem performs_checkOrderCreated (hevent : S (.findByEvent inboundEventId))
    (horder : S (.findApproved orderId)) :
    (checkOrderCreated inboundEventId orderId).Performs S := by
  rw [checkOrderCreated_eq]
  have hfind : (findByEvent inboundEventId).Performs S := (Async.performs_perform _).mpr hevent
  exact hfind.bind (performs_decideByEvent horder)

def recordProcessed (row : ProcessedEventEntity) : Promise Unit :=
  Async.perform (Op.saveProcessed row)

end ProcessedEvents

section PaymentService

/-- A validated `order.created` envelope under its declared types. -/
structure OrderCreatedEvent where
  eventId : String
  payload : OrderCreatedPayload

def OrderCreatedEvent.ofJs (envelope : JsVal) : OrderCreatedEvent where
  eventId := (envelope.get "eventId").asStr
  payload := .ofJs (envelope.get "payload")

variable (proc : Process)

def requestedEnvelope (event : OrderCreatedEvent) (paymentId : String) : JsVal :=
  createEventEnvelope (proc.uuid 1) (proc.iso 1) {
    eventType := .str EventType.paymentRequested.value
    source := "payment-service"
    correlationId := .str event.payload.orderId
    causationId := .str event.eventId
    payload := .obj [("paymentId", .str paymentId), ("orderId", .str event.payload.orderId),
      ("amount", .num event.payload.totalAmount), ("currency", .str event.payload.currency)] }

def publishPaymentRequested (event : OrderCreatedEvent) (paymentId : String) : Promise JsVal := do
  let requested := requestedEnvelope proc event paymentId
  eventPublisher.publish .paymentRequested requested []
  .resolve requested

structure PaymentProcessedParams where
  paymentId : String
  orderId : String
  transactionId : String
  causationId : JsVal
  correlationId : String

def processedEnvelope (params : PaymentProcessedParams) : JsVal :=
  createEventEnvelope (proc.uuid 3) (proc.iso 3) {
    eventType := .str EventType.paymentProcessed.value
    source := "payment-service"
    correlationId := .str params.correlationId
    causationId := params.causationId
    payload := .obj [("paymentId", .str params.paymentId), ("orderId", .str params.orderId),
      ("transactionId", .str params.transactionId), ("processedAt", .str (proc.iso 2).val)] }

def publishPaymentProcessed (params : PaymentProcessedParams) : Promise Unit :=
  eventPublisher.publish .paymentProcessed (processedEnvelope proc params) []

structure PaymentFailedParams where
  paymentId : String
  orderId : String
  reason : String
  causationId : JsVal
  correlationId : String

def failedEnvelope (params : PaymentFailedParams) : JsVal :=
  createEventEnvelope (proc.uuid 2) (proc.iso 3) {
    eventType := .str EventType.paymentFailed.value
    source := "payment-service"
    correlationId := .str params.correlationId
    causationId := params.causationId
    payload := .obj [("paymentId", .str params.paymentId), ("orderId", .str params.orderId),
      ("reason", .str params.reason), ("failedAt", .str (proc.iso 2).val)] }

def publishPaymentFailed (params : PaymentFailedParams) : Promise Unit :=
  eventPublisher.publish .paymentFailed (failedEnvelope proc params) []

/-- The row written when a payment reaches an outcome. -/
def outcomeRow (event : OrderCreatedEvent) (paymentId : String)
    (outcome : ProcessedEventOutcome) : ProcessedEventEntity where
  inboundEventId := event.eventId
  eventType := EventType.orderCreated.value
  orderId := event.payload.orderId
  paymentId := some paymentId
  outcome := outcome

/-- The end of both failure branches: announce, then record. -/
def failPayment (event : OrderCreatedEvent) (paymentId reason : String) (causationId : JsVal) :
    Promise Unit := do
  publishPaymentFailed proc {
    paymentId := paymentId
    orderId := event.payload.orderId
    reason := reason
    causationId := causationId
    correlationId := event.payload.orderId }
  recordProcessed (outcomeRow event paymentId .failed)

/-- The end of the approved branch. -/
def approvePayment (event : OrderCreatedEvent) (paymentId : String) (causationId : JsVal) :
    Promise Unit := do
  publishPaymentProcessed proc {
    paymentId := paymentId
    orderId := event.payload.orderId
    transactionId := (proc.uuid 4).val
    causationId := causationId
    correlationId := event.payload.orderId }
  recordProcessed (outcomeRow event paymentId .approved)

/-- `if (result.simulateDelayMs && result.simulateDelayMs > 0) await sleep(...)`. -/
def simulateDelay (result : PaymentSimulationResult) : Promise Unit :=
  match result.simulateDelayMs with
  | some ms => if Number.lt 0 ms then sleep ms else .resolve ()
  | none => .resolve ()

/-- The whole pipeline for one `order.created`. Its log lines hold strings and
numbers only and cannot throw. -/
def processPayment (event : OrderCreatedEvent) : Promise Unit := do
  let paymentId := (proc.uuid 0).val
  let requested ← publishPaymentRequested proc event paymentId
  let violations := evaluatePaymentRules event.payload (resolvePaymentBusinessRules proc.env)
  if violations.isEmpty then do
    let result := simulatePaymentGateway proc { paymentId := some paymentId }
    simulateDelay result
    match result.outcome with
    | .failed =>
      failPayment proc event paymentId (result.failureReason.getD "Payment gateway error")
        (requested.get "eventId")
    | .approved => approvePayment proc event paymentId (requested.get "eventId")
  else
    failPayment proc event paymentId ("business_rule: " ++ formatRuleViolations violations)
      (requested.get "eventId")

def handleOrderCreated (event : OrderCreatedEvent) : Promise Unit := processPayment proc event

/-- No refund in the demo: a log line. -/
def handleOrderCancelled (envelope : JsVal) : Promise Unit := do
  let orderId ← Async.ofExcept ((envelope.get "payload").prop "orderId")
  let reason ← Async.ofExcept ((envelope.get "payload").prop "reason")
  Async.ofExcept (JsVal.logLine [orderId, reason])

end PaymentService

section Consumer

variable (proc : Process) (headers : List (String × RawHeader))

/-- What follows the idempotency check. -/
def handleChecked (envelope : JsVal) (event : OrderCreatedEvent) :
    IdempotencyCheckResult → Promise JsVal
  | .duplicateEvent _ => .resolve (ackOutcome "duplicate")
  | .duplicateOrder record => do
    recordProcessed {
      inboundEventId := event.eventId
      eventType := EventType.orderCreated.value
      orderId := event.payload.orderId
      paymentId := record.paymentId
      outcome := .skippedDuplicateOrder }
    .resolve (ackOutcome "duplicate_order")
  | .new =>
    ackExecuted (RetriedHandler.paymentOrderEvents.execute proc envelope
      (parseKafkaHeaders proc.drivers headers)
      (handleOrderCreated proc event))

/-- The accepted branch of `handleOrderEvents`. -/
def handleOrderCreatedEnvelope (envelope : JsVal) : Promise JsVal := do
  let event := OrderCreatedEvent.ofJs envelope
  let idempotency ← checkOrderCreated event.eventId event.payload.orderId
  handleChecked proc headers envelope event idempotency

/-- `@EventPattern('order.events')`. -/
def handleOrderEvents (payload : KafkaValue) : Promise JsVal :=
  consumeParsed (parseOrderEventsMessage payload) ackInvalidDetails
    (fun reason _ => ackSkippedReason reason) (handleOrderCreatedEnvelope proc headers)

/-- `@EventPattern('order.cancelled')`, with its log line before the executor. -/
def handleOrderCancelledEvents (payload : KafkaValue) : Promise JsVal :=
  consumeExtracted payload fun envelope => do
    let orderId ← Async.ofExcept ((envelope.get "payload").prop "orderId")
    Async.ofExcept (JsVal.logLine [envelope.get "eventType", envelope.get "eventId", orderId])
    ackExecuted (RetriedHandler.paymentOrderCancelled.execute proc envelope
      (parseKafkaHeaders proc.drivers headers) (handleOrderCancelled envelope))

end Consumer

end EventFlow.Services.Payment
