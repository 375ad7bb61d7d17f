import EventFlow.Shared.Executor

namespace EventFlow.Services

open Js Shared

/-- The consumer methods that run their handler inside a `KafkaRetryRunner`. -/
inductive RetriedHandler where
  | orderPaymentEvents
  | orderStockReleased
  | orderStockFailed
  | orderNotificationSent
  | paymentOrderEvents
  | paymentOrderCancelled
  | stockPaymentEvents
  | stockOrderCancelled
  | notificationStockReserved
  | notificationPaymentEvents
  | notificationOrderCancelled
  deriving DecidableEq, Repr

namespace RetriedHandler

def service : RetriedHandler → ServiceName
  | orderPaymentEvents | orderStockReleased | orderStockFailed | orderNotificationSent =>
    .orderService
  | paymentOrderEvents | paymentOrderCancelled => .paymentService
  | stockPaymentEvents | stockOrderCancelled => .stockService
  | notificationStockReserved | notificationPaymentEvents | notificationOrderCancelled =>
    .notificationService

/-- The `@EventPattern` of the method. -/
def topic : RetriedHandler → String
  | orderPaymentEvents | stockPaymentEvents | notificationPaymentEvents => paymentEventsTopic
  | paymentOrderEvents => orderEventsTopic
  | orderStockReleased => EventType.stockReleased.value
  | orderStockFailed => EventType.stockFailed.value
  | orderNotificationSent => EventType.notificationSent.value
  | notificationStockReserved => EventType.stockReserved.value
  | paymentOrderCancelled | stockOrderCancelled | notificationOrderCancelled =>
    EventType.orderCancelled.value

/-- The event type each method names to the retry executor. -/
def eventType : RetriedHandler → EventType
  | orderPaymentEvents | notificationPaymentEvents => .paymentFailed
  | orderStockReleased => .stockReleased
  | orderStockFailed => .stockFailed
  | orderNotificationSent => .notificationSent
  | paymentOrderEvents => .orderCreated
  | stockPaymentEvents => .paymentProcessed
  | notificationStockReserved => .stockReserved
  | paymentOrderCancelled | stockOrderCancelled | notificationOrderCancelled => .orderCancelled

/-- What a method republishes goes back to the topic it came from. -/
theorem resolveKafkaTopic_eventType (h : RetriedHandler) :
    resolveKafkaTopic h.eventType = h.topic := by
  cases h <;> rfl

/-- How a method reads a message: a parser that filters by event type on the shared
topics, the bare envelope elsewhere. -/
def read : RetriedHandler → KafkaValue → Except JsThrow ParseResult
  | paymentOrderEvents => parseOrderEventsMessage
  | stockPaymentEvents => parsePaymentProcessedMessage
  | orderPaymentEvents | notificationPaymentEvents => parsePaymentFailedMessage
  | orderStockReleased | orderStockFailed | orderNotificationSent | paymentOrderCancelled
  | stockOrderCancelled | notificationStockReserved | notificationOrderCancelled =>
    fun value => (extractEnvelope value).map .accepted

/-- `this.retryRunner.execute({ eventType, envelope, headers, handler })`. -/
def execute (h : RetriedHandler) (proc : Process) (envelope : JsVal)
    (headers : List (String × String)) (handler : Promise Unit) : Promise RetryOutcome :=
  (KafkaRetryExecutor.runner h.service proc.env).execute proc {
    eventType := h.eventType
    envelope := envelope
    headers := headers
    handler := handler }

end RetriedHandler

section Acknowledgements

def ackOutcome (outcome : String) : JsVal :=
  .obj [("acknowledged", .bool true), ("outcome", .str outcome)]

def ackSkippedType (eventType : JsVal) : JsVal :=
  .obj [("acknowledged", .bool true), ("skipped", .bool true), ("eventType", eventType)]

def ackSkippedReason (reason : String) : JsVal :=
  .obj [("acknowledged", .bool true), ("skipped", .bool true), ("reason", .str reason)]

def ackInvalidDetails (details : List String) : JsVal :=
  .obj [("acknowledged", .bool true), ("outcome", .str "invalid"),
    ("details", .arr (details.map .str))]

end Acknowledgements

/-- The methods on a shared topic: validation errors are acknowledged, other event
types skipped. -/
def consumeParsed (parsed : Except JsThrow ParseResult) (invalid : List String → JsVal)
    (skipped : String → JsVal → JsVal) (accepted : JsVal → Promise JsVal) : Promise JsVal :=
  match parsed with
  | .error (.validation _ details) => .resolve (invalid details)
  | .error e => .reject e
  | .ok (.skipped reason eventType) => .resolve (skipped reason eventType)
  | .ok (.accepted envelope) => accepted envelope

/-- The methods that read their envelope outside of any `try`. -/
def consumeExtracted (payload : KafkaValue) (extracted : JsVal → Promise JsVal) : Promise JsVal := do
  let envelope ← Async.ofExcept (extractEnvelope payload)
  extracted envelope

/-- `return { acknowledged: true, outcome }` after the executor. -/
def ackExecuted (outcome : Promise RetryOutcome) : Promise JsVal := do
  let o ← outcome
  .resolve (ackOutcome o.value)

end EventFlow.Services
