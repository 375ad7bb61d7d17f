import EventFlow.Retry.Execute
import EventFlow.Services.Fulfilment
import EventFlow.Services.Orders
import EventFlow.Services.Payment

namespace EventFlow.Services

open Js Shared

namespace RetriedHandler

/-- The consumer methods themselves. -/
def method (h : RetriedHandler) (proc : Process) (headers : List (String × RawHeader))
    (payload : KafkaValue) : Promise JsVal :=
  match h with
  | orderPaymentEvents => Orders.handlePaymentEvents proc headers payload
  | orderStockReleased => Orders.handleStockReleased proc headers payload
  | orderStockFailed => Orders.handleStockFailed proc headers payload
  | orderNotificationSent => Orders.handleNotificationSent proc headers payload
  | paymentOrderEvents => Payment.handleOrderEvents proc headers payload
  | paymentOrderCancelled => Payment.handleOrderCancelledEvents proc headers payload
  | stockPaymentEvents => Stock.handlePaymentEvents proc headers payload
  | stockOrderCancelled => Stock.handleOrderCancelledEvents proc headers payload
  | notificationStockReserved => Notification.handleStockReservedEvents proc headers payload
  | notificationPaymentEvents => Notification.handlePaymentEvents proc headers payload
  | notificationOrderCancelled => Notification.handleOrderCancelledEvents proc headers payload

/-- What each method runs inside its retry runner. -/
def handler (h : RetriedHandler) (proc : Process) (envelope : JsVal) : Promise Unit :=
  match h with
  | orderPaymentEvents => Orders.projectStatus proc .failed "reason" envelope
  | orderStockReleased => Orders.projectStatus proc .cancelled "reason" envelope
  | orderStockFailed => Orders.projectStatus proc .failed "reason" envelope
  | orderNotificationSent => Orders.projectStatus proc .completed "channel" envelope
  | paymentOrderEvents => Payment.handleOrderCreated proc (.ofJs envelope)
  | paymentOrderCancelled => Payment.handleOrderCancelled envelope
  | stockPaymentEvents => do
    Async.ofExcept (JsVal.logLine [(envelope.get "payload").get "orderId"])
    Stock.handlePaymentProcessed proc envelope
  | stockOrderCancelled => Stock.handleOrderCancelled proc envelope
  | notificationStockReserved => do
    Notification.logOrderId envelope
    Notification.handleStockReserved proc envelope
  | notificationPaymentEvents => Notification.handlePaymentFailed envelope
  | notificationOrderCancelled => Notification.handleOrderCancelled envelope

end RetriedHandler

/-- The headers of a copy that a method's executor republishes. -/
def RetriedHandler.retryHeaders (h : RetriedHandler) (proc : Process) (envelope : JsVal)
    (nextAttempt : Number) : List (String × JsVal) :=
  (KafkaRetryExecutor.runner h.service proc.env).retryHeaders proc h.eventType envelope nextAttempt

/-- What the four services do: an HTTP request, or the delivery of a message. -/
inductive Call where
  | createOrder (proc : Process) (dto : Orders.CreateOrderDto)
  | consume (h : RetriedHandler) (proc : Process) (headers : List (String × RawHeader))
      (payload : KafkaValue)

/-- The process that runs the call. -/
def Call.proc : Call → Process
  | .createOrder proc _ => proc
  | .consume _ proc _ _ => proc

def Call.body : Call → Promise JsVal
  | .createOrder proc dto => Orders.createOrder proc dto
  | .consume h proc headers payload => h.method proc headers payload

section Performs

variable {S : Op → Prop} {proc : Process}

/-- The executor adds waits, one copy of the envelope, and failure records. -/
theorem performs_execute {h : RetriedHandler} {envelope : JsVal}
    {headers : List (String × String)} {handler : Promise Unit} (hsleep : ∀ ms, S (.sleep ms))
    (hcopy : ∀ key n, resolvePartitionKey envelope = .ok key →
      S (.emit (domainRecord h.eventType key envelope (h.retryHeaders proc envelope n))))
    (hdlq : ∀ failed failure, failed.original = envelope →
      createFailureEnvelope proc failed = .ok failure → S (.emit (dlqRecord h.eventType failure)))
    (hhandler : handler.Performs S) :
    (h.execute proc envelope headers handler).Performs S :=
  KafkaRetryExecutor.performs_execute rfl hsleep hcopy hdlq hhandler

theorem performs_consumeParsed {parsed : Except JsThrow ParseResult}
    {invalid : List String → JsVal} {skipped : String → JsVal → JsVal}
    {accepted : JsVal → Promise JsVal}
    (h : ∀ envelope, parsed = .ok (.accepted envelope) → (accepted envelope).Performs S) :
    (consumeParsed parsed invalid skipped accepted).Performs S := by
  unfold consumeParsed
  split
  · trivial
  · trivial
  · trivial
  · exact h _ rfl

theorem performs_consumeExtracted {payload : KafkaValue} {extracted : JsVal → Promise JsVal}
    (h : ∀ envelope, extractEnvelope payload = .ok envelope → (extracted envelope).Performs S) :
    (consumeExtracted payload extracted).Performs S :=
  Async.performs_ofExcept_bind h

theorem performs_ackExecuted {outcome : Promise RetryOutcome} (h : outcome.Performs S) :
    (ackExecuted outcome).Performs S :=
  h.bind fun _ => trivial

theorem performs_projectStatus {status : OrderStatus} {logged : String}
    {envelope : JsVal} (h : ∀ criterion,
      proc.drivers.criterion ((envelope.get "payload").get "orderId") = .ok criterion →
        S (.updateOrder criterion status)) :
    (Orders.projectStatus proc status logged envelope).Performs S := by
  refine Async.performs_ofExcept_bind fun id hid => ?_
  obtain rfl := JsVal.get_of_prop hid
  have hupdate : (Orders.updateOrderStatus proc ((envelope.get "payload").get "orderId")
      status).Performs S := by
    have haffected : (Orders.updateOrder proc ((envelope.get "payload").get "orderId")
        status).Performs S :=
      Async.performs_ofExcept_bind fun criterion hcriterion =>
        (Async.performs_perform _).mpr (h criterion hcriterion)
    refine haffected.bind fun affected => ?_
    split_ifs
    · exact Async.performs_ofExcept_bind fun _ _ => trivial
    · trivial
  exact hupdate.bind fun _ => Async.performs_ofExcept

theorem performs_logOrderId (envelope : JsVal) : (Notification.logOrderId envelope).Performs S :=
  Async.performs_ofExcept.bind fun _ => Async.performs_ofExcept

theorem performs_paymentOrderCancelled (envelope : JsVal) :
    (RetriedHandler.paymentOrderCancelled.handler proc envelope).Performs S :=
  Async.performs_ofExcept.bind fun _ => Async.performs_ofExcept.bind fun _ => Async.performs_ofExcept

/-- The `stock.reserved` event of one handling. -/
def reserved (proc : Process) (envelope : JsVal) : JsVal :=
  createEventEnvelope (proc.uuid 1) (proc.iso 1) {
    eventType := .str EventType.stockReserved.value
    source := "stock-service"
    correlationId := (envelope.get "payload").get "orderId"
    causationId := envelope.get "eventId"
    payload := .obj [("reservationId", .str (proc.uuid 0).val),
      ("orderId", (envelope.get "payload").get "orderId"), ("items", .arr []),
      ("reservedAt", .str (proc.iso 0).val)] }

/-- And the `stock.released` event. -/
def released (proc : Process) (envelope : JsVal) : JsVal :=
  createEventEnvelope (proc.uuid 1) (proc.iso 1) {
    eventType := .str EventType.stockReleased.value
    source := "stock-service"
    correlationId := (envelope.get "payload").get "orderId"
    causationId := envelope.get "eventId"
    payload := .obj [("reservationId", .str (proc.uuid 0).val),
      ("orderId", (envelope.get "payload").get "orderId"),
      ("reason", (envelope.get "payload").get "reason"), ("releasedAt", .str (proc.iso 0).val)] }

/-- The two events of notification-service, the second caused by the first. -/
def announcedSend (proc : Process) (envelope : JsVal) : JsVal :=
  Notification.sendEnvelope proc ((envelope.get "payload").get "orderId") (envelope.get "eventId")

def announcedSent (proc : Process) (envelope : JsVal) : JsVal :=
  Notification.sentEnvelope proc ((envelope.get "payload").get "orderId")
    ((announcedSend proc envelope).get "eventId")

/-- The two handlers of stock-service announce one event each. -/
theorem performs_stockPaymentEvents {envelope : JsVal}
    (hemit : ∀ key, resolvePartitionKey (reserved proc envelope) = .ok key →
      S (.emit (domainRecord .stockReserved key (reserved proc envelope) []))) :
    (RetriedHandler.stockPaymentEvents.handler proc envelope).Performs S := by
  refine Async.performs_ofExcept.bind fun _ => Async.performs_ofExcept_bind fun id hid => ?_
  obtain rfl : id = (envelope.get "payload").get "orderId" := JsVal.get_of_destructure hid
  exact (performs_eventPublish hemit).bind fun _ => Async.performs_ofExcept

theorem performs_stockOrderCancelled {envelope : JsVal}
    (hemit : ∀ key, resolvePartitionKey (released proc envelope) = .ok key →
      S (.emit (domainRecord .stockReleased key (released proc envelope) []))) :
    (RetriedHandler.stockOrderCancelled.handler proc envelope).Performs S := by
  refine Async.performs_ofExcept_bind fun id hid => ?_
  obtain rfl : id = (envelope.get "payload").get "orderId" := JsVal.get_of_destructure hid
  exact (performs_eventPublish hemit).bind fun _ => Async.performs_ofExcept

/-- The handler of notification-service announces two. -/
theorem performs_notificationStockReserved {envelope : JsVal}
    (hsend : ∀ key, resolvePartitionKey (announcedSend proc envelope) = .ok key →
      S (.emit (domainRecord .notificationSend key (announcedSend proc envelope) [])))
    (hsent : ∀ key, resolvePartitionKey (announcedSent proc envelope) = .ok key →
      S (.emit (domainRecord .notificationSent key (announcedSent proc envelope) []))) :
    (RetriedHandler.notificationStockReserved.handler proc envelope).Performs S := by
  refine (performs_logOrderId envelope).bind fun _ => Async.performs_ofExcept_bind fun id hid => ?_
  obtain rfl : id = (envelope.get "payload").get "orderId" := JsVal.get_of_destructure hid
  refine (performs_eventPublish hsend).bind fun _ => ?_
  exact (performs_eventPublish hsent).bind fun _ => Async.performs_ofExcept

/-- A request saves its row, publishes it, and saves it as failed if it must. -/
theorem performs_createOrder {dto : Orders.CreateOrderDto}
    (hrow : ∀ row, row.status ≠ .completed → S (.saveOrder row)) (hsleep : ∀ ms, S (.sleep ms))
    (hemit : ∀ key, resolvePartitionKey (Orders.orderCreatedEnvelope proc (proc.uuid 0).val dto) =
      .ok key → S (.emit (domainRecord .orderCreated key
        (Orders.orderCreatedEnvelope proc (proc.uuid 0).val dto) []))) :
    (Orders.createOrder proc dto).Performs S := by
  have hsave : ∀ row : OrderEntity, row.status ≠ .completed → (Orders.saveOrder row).Performs S :=
    fun row h => (Async.performs_perform _).mpr (hrow row h)
  have hpending : OrderStatus.pending ≠ .completed := nofun
  have hfailed : OrderStatus.failed ≠ .completed := nofun
  refine (hsave _ hpending).bind fun _ => ?_
  split_ifs
  · trivial
  · refine (hsave _ hpending).bind fun _ => Async.Performs.bind ?_ fun _ => trivial
    refine Async.Performs.tryCatch
      (performs_orderPublish hsleep fun key hkey _ => hemit key hkey) fun e => ?_
    exact (hsave _ hfailed).bind fun _ => Async.performs_ofExcept_bind fun _ _ => trivial

/-- What `payment.failed` says the reason was. -/
def FailReason (proc : Process) (reason : String) : Prop :=
  (∃ violations, violations ≠ [] ∧
    reason = "business_rule: " ++ Payment.formatRuleViolations violations) ∨
  reason = (Payment.simulatePaymentGateway proc { paymentId := some (proc.uuid 0).val }).failureReason.getD
    "Payment gateway error"

/-- The `payment.failed` event of one handling. -/
def declined (proc : Process) (event : Payment.OrderCreatedEvent) (reason : String) : JsVal :=
  Payment.failedEnvelope proc {
    paymentId := (proc.uuid 0).val
    orderId := event.payload.orderId
    reason := reason
    causationId := (Payment.requestedEnvelope proc event (proc.uuid 0).val).get "eventId"
    correlationId := event.payload.orderId }

/-- The `payment.processed` event of one handling. -/
def charged (proc : Process) (event : Payment.OrderCreatedEvent) : JsVal :=
  Payment.processedEnvelope proc {
    paymentId := (proc.uuid 0).val
    orderId := event.payload.orderId
    transactionId := (proc.uuid 4).val
    causationId := (Payment.requestedEnvelope proc event (proc.uuid 0).val).get "eventId"
    correlationId := event.payload.orderId }

/-- Both the rules and the gateway let the payment through. -/
def Approves (proc : Process) (event : Payment.OrderCreatedEvent) : Prop :=
  Payment.evaluatePaymentRules event.payload (Payment.resolvePaymentBusinessRules proc.env) = [] ∧
    (Payment.simulatePaymentGateway proc { paymentId := some (proc.uuid 0).val }).outcome = .approved

/-- The reason that `payment.failed` gives. -/
def declineReason (proc : Process) (event : Payment.OrderCreatedEvent) : String :=
  let violations :=
    Payment.evaluatePaymentRules event.payload (Payment.resolvePaymentBusinessRules proc.env)
  if violations.isEmpty then
    (Payment.simulatePaymentGateway proc { paymentId := some (proc.uuid 0).val }).failureReason.getD
      "Payment gateway error"
  else "business_rule: " ++ Payment.formatRuleViolations violations

theorem failReason_declineReason (proc : Process) (event : Payment.OrderCreatedEvent) :
    FailReason proc (declineReason proc event) := by
  unfold declineReason
  dsimp only
  split_ifs with hnone
  · exact .inr rfl
  · exact .inl ⟨_, fun hnil => hnone (List.isEmpty_iff.mpr hnil), rfl⟩

/-- The pipeline of payment-service is its first announcement, and what follows it: one of
two further announcements, and the row. -/
theorem processPayment_eq (proc : Process) (event : Payment.OrderCreatedEvent) :
    ∃ settled : Promise Unit,
    Payment.processPayment proc event = (eventPublisher.publish .paymentRequested
      (Payment.requestedEnvelope proc event (proc.uuid 0).val) []).bind (fun _ => settled) ∧
    ∀ S : Op → Prop, (∀ ms, S (.sleep ms)) →
      (∀ outcome, S (.saveProcessed (Payment.outcomeRow event (proc.uuid 0).val outcome))) →
      (∀ key reason, FailReason proc reason →
        resolvePartitionKey (declined proc event reason) = .ok key →
        S (.emit (domainRecord .paymentFailed key (declined proc event reason) []))) →
      (Payment.evaluatePaymentRules event.payload
          (Payment.resolvePaymentBusinessRules proc.env) = [] →
        (Payment.simulatePaymentGateway proc { paymentId := some (proc.uuid 0).val }).outcome =
          .approved → ∀ key, resolvePartitionKey (charged proc event) = .ok key →
        S (.emit (domainRecord .paymentProcessed key (charged proc event) []))) →
      settled.Performs S := by
  refine ⟨_, Async.bind_assoc _ _ _, fun S hsleep hrow hfailed happroved => ?_⟩
  have hrecord : ∀ outcome, (Payment.recordProcessed (Payment.outcomeRow event (proc.uuid 0).val
      outcome)).Performs S := fun outcome => (Async.performs_perform _).mpr (hrow outcome)
  have hfail : ∀ reason, FailReason proc reason → (Payment.failPayment proc event (proc.uuid 0).val
      reason ((Payment.requestedEnvelope proc event (proc.uuid 0).val).get "eventId")).Performs S :=
    fun reason hreason => (performs_eventPublish fun key hkey =>
      hfailed key reason hreason hkey).bind fun _ => hrecord _
  have hdelay : ∀ result, (Payment.simulateDelay result).Performs S := by
    intro result
    unfold Payment.simulateDelay
    cases result.simulateDelayMs with
    | none => trivial
    | some ms =>
      dsimp only
      split_ifs
      · exact (performs_sleep _).mpr (hsleep _)
      · trivial
  dsimp only [Async.resolve_bind]
  split_ifs with hviolations
  · refine (hdelay _).bind fun _ => ?_
    cases houtcome : (Payment.simulatePaymentGateway proc
        { paymentId := some (proc.uuid 0).val }).outcome with
    | failed => exact hfail _ (.inr rfl)
    | approved =>
      have hnone := List.isEmpty_iff.mp hviolations
      exact (performs_eventPublish fun key hkey => happroved hnone houtcome key hkey).bind
        fun _ => hrecord _
  · have hsome : Payment.evaluatePaymentRules event.payload
        (Payment.resolvePaymentBusinessRules proc.env) ≠ [] :=
      fun hnil => hviolations (List.isEmpty_iff.mpr hnil)
    exact hfail _ (.inl ⟨_, hsome, rfl⟩)

/-- The pipeline of payment-service: what it announces, and the row it writes. -/
theorem performs_processPayment {event : Payment.OrderCreatedEvent} (hsleep : ∀ ms, S (.sleep ms))
    (hrow : ∀ outcome, S (.saveProcessed (Payment.outcomeRow event (proc.uuid 0).val outcome)))
    (hrequested : ∀ key, S (.emit (domainRecord .paymentRequested key
      (Payment.requestedEnvelope proc event (proc.uuid 0).val) [])))
    (hfailed : ∀ key reason, FailReason proc reason →
      S (.emit (domainRecord .paymentFailed key (declined proc event reason) [])))
    (happroved : Payment.evaluatePaymentRules event.payload
        (Payment.resolvePaymentBusinessRules proc.env) = [] →
      (Payment.simulatePaymentGateway proc { paymentId := some (proc.uuid 0).val }).outcome =
        .approved → ∀ key,
      S (.emit (domainRecord .paymentProcessed key (charged proc event) []))) :
    (Payment.processPayment proc event).Performs S := by
  obtain ⟨settled, heq, hsettled⟩ := processPayment_eq proc event
  rw [heq]
  refine (performs_eventPublish fun key _ => hrequested key).bind fun _ => ?_
  exact hsettled S hsleep hrow (fun key reason hreason _ => hfailed key reason hreason)
    fun hnone houtcome key _ => happroved hnone houtcome key

/-- A method performs what its handler does for the envelope it reads, and what the
executor adds; `order.events` also checks and records its event. -/
theorem performs_method (h : RetriedHandler) {headers : List (String × RawHeader)}
    {payload : KafkaValue} (hquiet : ∀ op, quiet op = true → S op)
    (hrow : ∀ row, S (.saveProcessed row))
    (hread : ∀ envelope, h.read payload = .ok (.accepted envelope) →
      (h.handler proc envelope).Performs S ∧
      (∀ key n, resolvePartitionKey envelope = .ok key →
        S (.emit (domainRecord h.eventType key envelope (h.retryHeaders proc envelope n)))) ∧
      ∀ failed failure, failed.original = envelope → createFailureEnvelope proc failed = .ok failure →
        S (.emit (dlqRecord h.eventType failure))) :
    (h.method proc headers payload).Performs S := by
  have hsleep : ∀ ms, S (.sleep ms) := fun ms => hquiet _ rfl
  have hrun : ∀ envelope, h.read payload = .ok (.accepted envelope) →
      (h.execute proc envelope (parseKafkaHeaders proc.drivers headers)
        (h.handler proc envelope)).Performs S :=
    fun envelope he => performs_execute hsleep (hread envelope he).2.1 (hread envelope he).2.2
      (hread envelope he).1
  have hextracted : ∀ {envelope}, extractEnvelope payload = .ok envelope →
      (extractEnvelope payload).map ParseResult.accepted = .ok (.accepted envelope) := by
    intro envelope he
    rw [he]
    rfl
  cases h with
  | orderPaymentEvents | stockPaymentEvents | notificationPaymentEvents =>
    exact performs_consumeParsed fun envelope he => performs_ackExecuted (hrun envelope he)
  | orderStockReleased | orderStockFailed | stockOrderCancelled | notificationStockReserved
  | notificationOrderCancelled =>
    exact performs_consumeExtracted fun envelope he =>
      performs_ackExecuted (hrun envelope (hextracted he))
  | orderNotificationSent =>
    exact performs_consumeExtracted fun envelope he =>
      (hrun envelope (hextracted he)).bind fun _ => trivial
  | paymentOrderCancelled =>
    refine performs_consumeExtracted fun envelope he => ?_
    refine Async.performs_ofExcept_bind fun _ _ => Async.performs_ofExcept_bind fun _ _ => ?_
    exact performs_ackExecuted (hrun envelope (hextracted he))
  | paymentOrderEvents =>
    refine performs_consumeParsed fun envelope he => ?_
    have hcheck : (Payment.checkOrderCreated (Payment.OrderCreatedEvent.ofJs envelope).eventId
        (Payment.OrderCreatedEvent.ofJs envelope).payload.orderId).Performs S :=
      Payment.performs_checkOrderCreated (hquiet _ rfl) (hquiet _ rfl)
    refine hcheck.bind fun check => ?_
    cases check with
    | new => exact performs_ackExecuted (hrun envelope he)
    | duplicateEvent r => trivial
    | duplicateOrder r =>
      exact Async.Performs.bind ((Async.performs_perform _).mpr (hrow _)) fun _ => trivial

end Performs

end EventFlow.Services
