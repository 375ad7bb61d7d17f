import EventFlow.Retry.Poison

namespace EventFlow.Saga

open Js Shared Services Async Retry

variable {C : Type} {T : Contract (World C) Op Op.Resp} {I : World C → Prop} {h : RetriedHandler}
  {proc : Process} {headers : List (String × RawHeader)} {payload : KafkaValue} {envelope : JsVal}

/-- What a consumer has to show of an envelope it reads: its handler, the copy that goes
back on failure, and the failure record keep the invariant. -/
structure Handles (T : Contract (World C) Op Op.Resp) (I : World C → Prop) (h : RetriedHandler)
    (proc : Process) (envelope : JsVal) : Prop where
  handler : (h.handler proc envelope).Keeps T I
  copy : ∀ key n, resolvePartitionKey envelope = .ok key →
    Kept T I (.emit (domainRecord h.eventType key envelope (h.retryHeaders proc envelope n)))
  failure : ∀ failed failure, failed.original = envelope →
    createFailureEnvelope proc failed = .ok failure → Kept T I (.emit (dlqRecord h.eventType failure))

theorem keeps_execute {headers : List (String × String)}
    (hrely : ∀ w w', I w → T.rely w w' → I w') (hquiet : ∀ op, quiet op = true → Kept T I op)
    (hread : Handles T I h proc envelope) :
    (h.execute proc envelope headers (h.handler proc envelope)).Keeps T I := by
  have hsleep : ∀ ms, Kept T I (.sleep ms) := fun ms => hquiet _ rfl
  have hwait : (KafkaRetryExecutor.awaitRetryAt proc headers).Keeps T I :=
    (KafkaRetryExecutor.performs_awaitRetryAt hsleep).keeps hrely
  refine hwait.bind fun _ => (hread.handler.bind fun _ => keeps_resolve _).tryCatch fun e => ?_
  have htransport : (KafkaRetryExecutor.runner h.service proc.env).transport =
      transportOf h.service proc.env := rfl
  exact (KafkaRetryExecutor.performs_onFailure htransport hsleep hread.copy hread.failure
    e).keeps hrely

/-- A method keeps what its handler and its executor keep, and the lookups and the row
that `order.events` adds. -/
theorem keeps_method (hrely : ∀ w w', I w → T.rely w w' → I w')
    (hquiet : ∀ op, quiet op = true → Kept T I op) (hrow : ∀ row, Kept T I (.saveProcessed row))
    (hread : ∀ envelope, h.read payload = .ok (.accepted envelope) → Handles T I h proc envelope) :
    (h.method proc headers payload).Keeps T I := by
  obtain ⟨invalid, skipped, -, -, hmethod⟩ := method_eq h proc headers payload
  rw [hmethod]
  unfold consumeParsed
  split
  · exact keeps_resolve _
  · exact keeps_reject _
  · exact keeps_resolve _
  · next envelope hx =>
    have hran : (h.execute proc envelope (parseKafkaHeaders proc.drivers headers)
        (h.handler proc envelope)).Keeps T I := keeps_execute hrely hquiet (hread envelope hx)
    have hacked : (ackExecuted (h.execute proc envelope (parseKafkaHeaders proc.drivers headers)
        (h.handler proc envelope))).Keeps T I := hran.bind fun _ => keeps_resolve _
    cases h with
    | paymentOrderEvents =>
      have hcheck : (Payment.checkOrderCreated (Payment.OrderCreatedEvent.ofJs envelope).eventId
          (Payment.OrderCreatedEvent.ofJs envelope).payload.orderId).Performs (Kept T I) :=
        Payment.performs_checkOrderCreated (hquiet _ rfl) (hquiet _ rfl)
      refine (hcheck.keeps hrely).bind fun check => ?_
      cases check with
      | new => exact hacked
      | duplicateEvent r => exact keeps_resolve _
      | duplicateOrder r =>
        have hsave : (Payment.recordProcessed {
            inboundEventId := (Payment.OrderCreatedEvent.ofJs envelope).eventId
            eventType := EventType.orderCreated.value
            orderId := (Payment.OrderCreatedEvent.ofJs envelope).payload.orderId
            paymentId := r.paymentId
            outcome := .skippedDuplicateOrder }).Performs (Kept T I) :=
          (performs_perform _).mpr (hrow _)
        exact (hsave.keeps hrely).bind fun _ => keeps_resolve _
    | paymentOrderCancelled =>
      exact keeps_ofExcept_bind fun _ _ => keeps_ofExcept_bind fun _ _ => hacked
    | orderNotificationSent => exact hran.bind fun _ => keeps_resolve _
    | _ => exact hacked

end EventFlow.Saga
