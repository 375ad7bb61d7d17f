import EventFlow.Services.Consumer

namespace EventFlow.Services

open Js Shared

namespace Stock

variable (proc : Process) (headers : List (String × RawHeader))

/-- Reserves nothing but an id, and announces it. -/
def handlePaymentProcessed (envelope : JsVal) : Promise Unit := do
  let orderId ← Async.ofExcept
    ((envelope.get "payload").destructure "orderId" "event.payload")
  let reserved := createEventEnvelope (proc.uuid 1) (proc.iso 1) {
    eventType := .str EventType.stockReserved.value
    source := "stock-service"
    correlationId := orderId
    causationId := envelope.get "eventId"
    payload := .obj [("reservationId", .str (proc.uuid 0).val), ("orderId", orderId),
      ("items", .arr []), ("reservedAt", .str (proc.iso 0).val)] }
  eventPublisher.publish .stockReserved reserved []
  Async.ofExcept (JsVal.logLine [orderId])

def handleOrderCancelled (envelope : JsVal) : Promise Unit := do
  let orderId ← Async.ofExcept
    ((envelope.get "payload").destructure "orderId" "event.payload")
  let released := createEventEnvelope (proc.uuid 1) (proc.iso 1) {
    eventType := .str EventType.stockReleased.value
    source := "stock-service"
    correlationId := orderId
    causationId := envelope.get "eventId"
    payload := .obj [("reservationId", .str (proc.uuid 0).val), ("orderId", orderId),
      ("reason", (envelope.get "payload").get "reason"), ("releasedAt", .str (proc.iso 0).val)] }
  eventPublisher.publish .stockReleased released []
  Async.ofExcept (JsVal.logLine [orderId])

/-- `@EventPattern('payment.events')`. -/
def handlePaymentEvents (payload : KafkaValue) : Promise JsVal :=
  consumeParsed (parsePaymentProcessedMessage payload) (fun _ => ackOutcome "invalid")
    (fun _ eventType => ackSkippedType eventType) fun envelope =>
      ackExecuted (RetriedHandler.stockPaymentEvents.execute proc envelope
        (parseKafkaHeaders proc.drivers headers) (do
          Async.ofExcept (JsVal.logLine [(envelope.get "payload").get "orderId"])
          handlePaymentProcessed proc envelope))

/-- `@EventPattern('order.cancelled')`. -/
def handleOrderCancelledEvents (payload : KafkaValue) : Promise JsVal :=
  consumeExtracted payload fun envelope =>
    ackExecuted (RetriedHandler.stockOrderCancelled.execute proc envelope
      (parseKafkaHeaders proc.drivers headers) (handleOrderCancelled proc envelope))

end Stock

namespace Notification

variable (proc : Process) (headers : List (String × RawHeader))

def sendEnvelope (orderId causationId : JsVal) : JsVal :=
  createEventEnvelope (proc.uuid 1) (proc.iso 0) {
    eventType := .str EventType.notificationSend.value
    source := "notification-service"
    correlationId := orderId
    causationId := causationId
    payload := .obj [("notificationId", .str (proc.uuid 0).val), ("orderId", orderId),
      ("channel", .str "email"), ("recipient", .str "customer@example.com"),
      ("template", .str "order-completed")] }

def sentEnvelope (orderId causationId : JsVal) : JsVal :=
  createEventEnvelope (proc.uuid 2) (proc.iso 2) {
    eventType := .str EventType.notificationSent.value
    source := "notification-service"
    correlationId := orderId
    causationId := causationId
    payload := .obj [("notificationId", .str (proc.uuid 0).val), ("orderId", orderId),
      ("channel", .str "email"), ("sentAt", .str (proc.iso 1).val)] }

/-- `notification.send`, then `notification.sent` caused by it. -/
def handleStockReserved (envelope : JsVal) : Promise Unit := do
  let orderId ← Async.ofExcept
    ((envelope.get "payload").destructure "orderId" "event.payload")
  let send := sendEnvelope proc orderId (envelope.get "eventId")
  eventPublisher.publish .notificationSend send []
  let sent := sentEnvelope proc orderId (send.get "eventId")
  eventPublisher.publish .notificationSent sent []
  Async.ofExcept (JsVal.logLine [orderId])

/-- The two demo handlers that log an order id. -/
def logOrderId (envelope : JsVal) : Promise Unit := do
  let orderId ← Async.ofExcept ((envelope.get "payload").prop "orderId")
  Async.ofExcept (JsVal.logLine [orderId])

def handlePaymentFailed : JsVal → Promise Unit := logOrderId

def handleOrderCancelled : JsVal → Promise Unit := logOrderId

/-- `@EventPattern('stock.reserved')`. -/
def handleStockReservedEvents (payload : KafkaValue) : Promise JsVal :=
  consumeExtracted payload fun envelope =>
    ackExecuted (RetriedHandler.notificationStockReserved.execute proc envelope
      (parseKafkaHeaders proc.drivers headers) (do
        logOrderId envelope
        handleStockReserved proc envelope))

/-- `@EventPattern('payment.events')`. -/
def handlePaymentEvents (payload : KafkaValue) : Promise JsVal :=
  consumeParsed (parsePaymentFailedMessage payload) (fun _ => ackOutcome "invalid")
    (fun _ eventType => ackSkippedType eventType) fun envelope =>
      ackExecuted (RetriedHandler.notificationPaymentEvents.execute proc envelope
        (parseKafkaHeaders proc.drivers headers) (handlePaymentFailed envelope))

/-- `@EventPattern('order.cancelled')`. -/
def handleOrderCancelledEvents (payload : KafkaValue) : Promise JsVal :=
  consumeExtracted payload fun envelope =>
    ackExecuted (RetriedHandler.notificationOrderCancelled.execute proc envelope
      (parseKafkaHeaders proc.drivers headers) (handleOrderCancelled envelope))

end Notification

namespace Dlq

def ackTopic (topic : String) : JsVal :=
  .obj [("acknowledged", .bool true), ("topic", .str topic)]

def ackFailure (topic : String) (kind : JsVal) : JsVal :=
  .obj [("acknowledged", .bool true), ("topic", .str topic), ("failure", kind)]

/-- The log line of the `event.failure` branch. -/
def logFailure (failure : JsVal) : Except JsThrow Unit := do
  let attempt ← (failure.get "retry").prop "attempt"
  let maxAttempts ← (failure.get "retry").prop "maxAttempts"
  let message ← (failure.get "error").prop "message"
  JsVal.logLine [attempt, maxAttempts, failure.get "originalEventType",
    failure.get "originalEventId", failure.get "correlationId", message]

/-- The `try` block of `handleDlqMessage`. -/
def readDlqMessage (topic : String) (payload : KafkaValue) : Except JsThrow JsVal := do
  let event ← extractEnvelope payload
  if isEventFailurePayload (event.get "payload") then do
    logFailure (event.get "payload")
    .ok (ackFailure topic ((event.get "payload").get "kind"))
  else do
    JsVal.logLine [event.get "eventId", event.get "eventType", event.get "correlationId"]
    .ok (ackTopic topic)

/-- The branch for records of the retry executor. -/
theorem readDlqMessage_failure {topic : String} {payload : KafkaValue} {event : JsVal}
    (hx : extractEnvelope payload = .ok event)
    (hguard : isEventFailurePayload (event.get "payload") = true)
    (hlog : logFailure (event.get "payload") = .ok ()) :
    readDlqMessage topic payload = .ok (ackFailure topic ((event.get "payload").get "kind")) := by
  simp only [readDlqMessage, hx, bind, Except.bind, hguard, if_true, hlog]

/-- Whatever cannot be read is logged raw and acknowledged all the same. -/
def handleDlqMessage (topic : String) (payload : KafkaValue) : JsVal :=
  match readDlqMessage topic payload with
  | .ok ack => ack
  | .error _ => ackTopic topic

/-- `@EventPattern(ALL_DLQ_TOPICS[n])`, one method for each. -/
def handleDlqTopic (t : EventType) (payload : KafkaValue) : Promise JsVal :=
  .resolve (handleDlqMessage (toDlqTopic t.value) payload)

/-- `@EventPattern('notification.failed')`. -/
def handleNotificationFailed (payload : KafkaValue) : Promise JsVal :=
  consumeExtracted payload fun event => do
    let notificationId ← Async.ofExcept ((event.get "payload").prop "notificationId")
    let orderId ← Async.ofExcept ((event.get "payload").prop "orderId")
    let reason ← Async.ofExcept ((event.get "payload").prop "reason")
    Async.ofExcept (JsVal.logLine [notificationId, orderId, reason])
    .resolve (.obj [("acknowledged", .bool true)])

end Dlq

end EventFlow.Services
