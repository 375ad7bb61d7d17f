import EventFlow.Shared.RetryPolicy

namespace EventFlow.Shared

open Js

section Publish

/-- `emitKafkaEvent`: the record as the client encodes it, acknowledged once. -/
def emitKafkaEvent (topic : String) (key value : JsVal) (headers : List (String × JsVal)) :
    Promise Unit :=
  Async.perform (Op.emit {
    topic := topic
    key := key.wire
    value := .value value.wire
    headers := encodeHeaders headers })

/-- What the retry executor publishes through. -/
structure KafkaEventTransport where
  publish : EventType → JsVal → List (String × JsVal) → Promise Unit
  publishToDlq : EventType → JsVal → List (String × JsVal) → Promise Unit

/-- `EventPublisher` of payment-, stock- and notification-service. -/
def eventPublisher : KafkaEventTransport where
  publish eventType envelope headers := do
    let partitionKey ← Async.ofExcept (resolvePartitionKey envelope)
    emitKafkaEvent (resolveKafkaTopic eventType) (.str partitionKey) envelope
      (spread (envelopeToKafkaHeaders envelope) headers)
  publishToDlq eventType envelope headers :=
    emitKafkaEvent (toDlqTopic (resolveKafkaTopic eventType))
      ((envelope.get "payload").get "correlationId") envelope
      (spread (envelopeToKafkaHeaders envelope) headers)

/-- The loop of `publishWithProducerRetry`. -/
def publishAttempts (policy : RetryPolicyConfig) (publish : Promise Unit)
    (onRetry : ℕ → Number → JsThrow → Except JsThrow Unit) : ℕ → ℕ → JsThrow → Promise Unit
  | 0, _, lastError => .reject lastError
  | fuel + 1, attempt, lastError =>
    if Number.le (.ofNat attempt) policy.maxAttempts then
      publish.tryCatch fun error =>
        if Number.le policy.maxAttempts (.ofNat attempt) then .reject error
        else do
          let delayMs := calculateBackoffMs (.ofNat attempt) policy
          Async.ofExcept (onRetry (attempt + 1) delayMs error)
          sleep delayMs
          publishAttempts policy publish onRetry fuel (attempt + 1) error
    else .reject lastError

def publishWithProducerRetry (policy : RetryPolicyConfig) (publish : Promise Unit)
    (onRetry : ℕ → Number → JsThrow → Except JsThrow Unit) : Promise Unit :=
  publishAttempts policy publish onRetry (passesUpTo policy.maxAttempts) 1 (.value .undefined)

/-- `EventPublisher` of order-service, with its producer retries. -/
def orderEventPublisher (env : String → Option String) : KafkaEventTransport where
  publish eventType envelope headers := do
    let partitionKey ← Async.ofExcept (resolvePartitionKey envelope)
    Async.ofExcept (JsVal.logLine [envelope.get "eventId"])
    (do publishWithProducerRetry (resolveProducerRetryPolicy env)
          (emitKafkaEvent (resolveKafkaTopic eventType) (.str partitionKey) envelope
            (spread (envelopeToKafkaHeaders envelope) headers))
          (fun _ _ error => do
            let _ ← errorText error
            JsVal.logLine [envelope.get "eventId"])
        Async.ofExcept (JsVal.logLine [envelope.get "eventId"])).tryCatch fun error => do
      let _ ← Async.ofExcept (errorText error)
      Async.ofExcept (JsVal.logLine [envelope.get "eventId"])
      .reject error
  publishToDlq eventType envelope headers :=
    publishWithProducerRetry (resolveProducerRetryPolicy env)
      (emitKafkaEvent (toDlqTopic (resolveKafkaTopic eventType))
        ((envelope.get "payload").get "correlationId") envelope
        (spread (envelopeToKafkaHeaders envelope) headers))
      (fun _ _ _ => .ok ())

/-- Each service's transport, for the environment it runs in. -/
def transportOf : ServiceName → (String → Option String) → KafkaEventTransport
  | .orderService, env => orderEventPublisher env
  | _, _ => eventPublisher

end Publish

section Failure

/-- `normalizeError`, with the stack cut to its first line. -/
def normalizeError (occurredAt : IsoTimestamp) : JsThrow → Except JsThrow JsVal
  | .error name message => .ok (.obj [("message", .str message), ("name", .str name),
      ("stack", .str (name ++ ": " ++ message)), ("occurredAt", .str occurredAt.val)])
  | .validation message _ => .ok (.obj [("message", .str message),
      ("name", .str "EventValidationError"),
      ("stack", .str ("EventValidationError: " ++ message)), ("occurredAt", .str occurredAt.val)])
  | .value v => v.toText.map fun text => .obj [("message", .str text),
      ("name", .str "UnknownError"), ("occurredAt", .str occurredAt.val)]

structure CreateFailureEnvelopeParams where
  original : JsVal
  originalTopic : String
  service : ServiceName
  error : JsThrow
  attempt : Number
  policy : RetryPolicyConfig
  nextRetryAt : Option String := none

/-- The payload of a failure record. -/
def failurePayload (errorDetails : JsVal) (failedAt : IsoTimestamp)
    (params : CreateFailureEnvelopeParams) : JsVal :=
  .obj [
    ("kind", .str "event.failure"),
    ("originalTopic", .str params.originalTopic),
    ("originalEventId", params.original.get "eventId"),
    ("originalEventType", params.original.get "eventType"),
    ("originalSource", params.original.get "source"),
    ("correlationId", params.original.get "correlationId"),
    ("originalPayload", params.original.get "payload"),
    ("originalEnvelope", params.original),
    ("error", errorDetails),
    ("retry", .obj [
      ("attempt", .num params.attempt),
      ("maxAttempts", .num params.policy.maxAttempts),
      ("exhausted", .bool (Number.le params.policy.maxAttempts params.attempt)),
      ("nextRetryAt", JsVal.stringOrUndefined params.nextRetryAt)]),
    ("failedBy", .str params.service.value),
    ("failedAt", .str failedAt.val)]

def createFailureEnvelope (proc : Process) (params : CreateFailureEnvelopeParams) :
    Except JsThrow JsVal := do
  let errorDetails ← normalizeError (proc.iso 10) params.error
  .ok (createEventEnvelope (proc.uuid 10) (proc.iso 12) {
    eventType := params.original.get "eventType"
    source := params.service.value
    correlationId := params.original.get "correlationId"
    causationId := params.original.get "eventId"
    payload := failurePayload errorDetails (proc.iso 11) params })

/-- The type guard for records of the executor. -/
def isEventFailurePayload (payload : JsVal) : Bool :=
  payload.isObject && payload.has "kind" && (payload.get "kind").strictEq (.str "event.failure")

end Failure

inductive RetryOutcome where
  | success
  | retry
  | dlq
  deriving DecidableEq, Repr

def RetryOutcome.value : RetryOutcome → String
  | .success => "success"
  | .retry => "retry"
  | .dlq => "dlq"

structure ExecuteWithRetryParams where
  eventType : EventType
  envelope : JsVal
  headers : List (String × String)
  handler : Promise Unit

/-- The engine each service wraps its handlers in. -/
structure KafkaRetryExecutor where
  transport : KafkaEventTransport
  service : ServiceName
  policy : RetryPolicyConfig

namespace KafkaRetryExecutor

/-- `new KafkaRetryExecutor(publisher, service, { policy })` of a service's runner. -/
def runner (service : ServiceName) (env : String → Option String) : KafkaRetryExecutor where
  transport := transportOf service env
  service := service
  policy := resolveConsumerRetryPolicy env

variable (ex : KafkaRetryExecutor) (proc : Process)

/-- Waits out the time a previous round has set. -/
def awaitRetryAt (headers : List (String × String)) : Promise Unit :=
  match getRetryAt headers with
  | none => .resolve ()
  | some retryAt =>
    if (JsVal.num retryAt).truthy && Number.lt (.ofNat (proc.now 0)) retryAt then
      sleep (retryAt.sub (.ofNat (proc.now 1)))
    else .resolve ()

/-- Backs off, then republishes the envelope with its retry headers. -/
def scheduleRetry (eventType : EventType) (envelope : JsVal) (nextAttempt : Number) :
    Promise Unit := do
  let backoffMs := calculateBackoffMs nextAttempt ex.policy
  let retryAt := (Number.ofNat (proc.now 2)).add backoffMs
  sleep backoffMs
  ex.transport.publish eventType envelope (buildRetryHeaders {
    retryCount := nextAttempt
    maxAttempts := ex.policy.maxAttempts
    retryAt := retryAt
    originalTopic := resolveKafkaTopic eventType
    envelopeHeaders := envelopeToKafkaHeaders envelope })

/-- Wraps the envelope with its failure and publishes it to the companion topic. -/
def sendToDlq (eventType : EventType) (envelope : JsVal) (error : JsThrow) (attempt : Number) :
    Promise Unit := do
  let failureEnvelope ← Async.ofExcept (createFailureEnvelope proc {
    original := envelope
    originalTopic := resolveKafkaTopic eventType
    service := ex.service
    error := error
    attempt := attempt
    policy := ex.policy })
  ex.transport.publishToDlq eventType failureEnvelope []

/-- The catch block of `execute`. -/
def onFailure (params : ExecuteWithRetryParams) (error : JsThrow) : Promise RetryOutcome := do
  let nextAttempt := (getRetryCount params.headers).succ
  let _ ← Async.ofExcept (errorText error)
  if shouldSendToDlq nextAttempt ex.policy then do
    Async.ofExcept
      (JsVal.logLine [params.envelope.get "eventId", params.envelope.get "eventType"])
    ex.sendToDlq proc params.eventType params.envelope error nextAttempt
    .resolve .dlq
  else if shouldRetry nextAttempt ex.policy then do
    Async.ofExcept
      (JsVal.logLine [params.envelope.get "eventId", params.envelope.get "eventType"])
    ex.scheduleRetry proc params.eventType params.envelope nextAttempt
    .resolve .retry
  else do
    ex.sendToDlq proc params.eventType params.envelope error nextAttempt
    .resolve .dlq

def execute (params : ExecuteWithRetryParams) : Promise RetryOutcome := do
  awaitRetryAt proc params.headers
  (do params.handler
      .resolve RetryOutcome.success).tryCatch (ex.onFailure proc params)

end KafkaRetryExecutor

end EventFlow.Shared
