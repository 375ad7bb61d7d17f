import EventFlow.Payments.Handling
import EventFlow.Retry.Ends
import EventFlow.Services.System
import EventFlow.Shared.Grammar

namespace EventFlow.Payments

open Js Shared Services Payment Retry

section Reasons

theorem nonBlank_append {s t : String} (h : nonBlank s = true) : nonBlank (s ++ t) = true := by
  obtain ⟨c, hc, hspace⟩ := nonBlank_iff.mp h
  refine nonBlank_iff.mpr ⟨c, ?_, hspace⟩
  rw [String.toList_append]
  exact List.mem_append_left _ hc

/-- The gateway always has something to say. -/
theorem nonBlank_gateway (proc : Process) (options : PaymentSimulationOptions) :
    nonBlank ((simulatePaymentGateway proc options).failureReason.getD "Payment gateway error") =
      true := by
  have hdefault : nonBlank "Payment gateway error" = true := by decide
  have hcatalogue : ∀ s ∈ paymentFailureScenarios, nonBlank s.message = true := by
    simp only [paymentFailureScenarios, List.forall_mem_cons]
    decide
  unfold simulatePaymentGateway
  dsimp only
  split_ifs
  · exact hdefault
  all_goals exact hcatalogue _ (List.get_mem _ _)

theorem nonBlank_reason {proc : Process} {reason : String} (h : FailReason proc reason) :
    nonBlank reason = true := by
  rcases h with ⟨violations, -, rfl⟩ | rfl
  · have hrule : nonBlank "business_rule: " = true := by decide
    exact nonBlank_append hrule
  · exact nonBlank_gateway proc _

end Reasons

section Parsers

variable {t : EventType} {validatePayload : JsVal → Except JsThrow Unit}

/-- An envelope built for an order reads as one of its event type. -/
theorem validEnvelope_created (drawnId causationId : Uuid) (drawnTime : IsoTimestamp)
    {source orderId : String} {fields : List (String × JsVal)} (hsource : nonBlank source = true)
    (horder : nonBlank orderId = true) :
    ValidEnvelope (createEventEnvelope drawnId drawnTime {
      eventType := .str t.value
      source := source
      correlationId := .str orderId
      causationId := .str causationId.val
      payload := .obj fields }) t where
  object := rfl
  eventId := isUuid_uuid drawnId
  eventType := rfl
  version := rfl
  timestamp := isIsoTimestamp_timestamp drawnTime
  correlationId := horder
  source := hsource
  causationId := .inr (isUuid_uuid causationId)
  payload := rfl

theorem parse_created {envelope : JsVal} (hobj : envelope.has "eventId" = true)
    (hvalid : ValidEnvelope envelope t)
    (hpayload : validatePayload (envelope.get "payload") = .ok ())
    (hcorr : (envelope.get "correlationId").strictEq
      ((envelope.get "payload").get "orderId") = true) :
    parseMessage t validatePayload (.value envelope) = .ok (.accepted envelope) := by
  cases envelope with
  | obj fields =>
    exact parseMessage_eq_accepted.mpr ⟨deserializeAndExtract_obj hobj, hvalid, hpayload, hcorr⟩
  | _ => cases hobj

/-- A parser skips what another one takes. -/
theorem skipped_of_accepted {t' : EventType} {validatePayload' : JsVal → Except JsThrow Unit}
    {raw : KafkaValue} {envelope : JsVal} (hne : t ≠ t')
    (h : parseMessage t validatePayload raw = .ok (.accepted envelope)) :
    parseMessage t' validatePayload' raw =
      .ok (.skipped "unsupported-event-type" (.str t.value)) := by
  obtain ⟨hread, hvalid, -, -⟩ := parseMessage_eq_accepted.mp h
  refine parseMessage_eq_skipped.mpr ⟨envelope, hread, ?_, rfl, hvalid.eventType.symm⟩
  rw [hvalid.eventType]
  exact fun heq => hne (EventType.value_injective (JsVal.str.inj heq))

end Parsers

section Settled

variable {C : Type} {c : C} {w : World C} {proc : Process} {orderId : String}

theorem ends_simulateDelay (result : PaymentSimulationResult) :
    Ends c (simulateDelay result) w () [] := by
  unfold simulateDelay
  cases result.simulateDelayMs with
  | none => exact .resolve ()
  | some ms =>
    dsimp only
    split_ifs
    · exact .sleep ms
    · exact .resolve ()

/-- The outcome of a payment goes out, and then its row is saved. -/
theorem ends_outcome {t : EventType} {event : JsVal} {row : ProcessedEventEntity}
    (hid : (event.get "payload").get "orderId" = .str orderId) (hne : orderId ≠ "") :
    Ends c ((eventPublisher.publish t event []).bind fun _ => recordProcessed row) w ()
      [.emit (domainRecord t orderId event []), .saveProcessed row] := by
  have hsave : ∀ w : World C, Ends c (recordProcessed row) w () [.saveProcessed row] :=
    fun w => .perform rfl
  exact (Ends.publish hid hne).bind fun _ _ => hsave _

/-- What one payment writes: the announcement, then the outcome. -/
def paymentWrites (proc : Process) (event : OrderCreatedEvent) (t : EventType) (outcome : JsVal)
    (row : ProcessedEventOutcome) : List Op :=
  [.emit (domainRecord .paymentRequested event.payload.orderId
      (requestedEnvelope proc event (proc.uuid 0).val) []),
    .emit (domainRecord t event.payload.orderId outcome []),
    .saveProcessed (outcomeRow event (proc.uuid 0).val row)]

theorem ends_processPayment {event : OrderCreatedEvent} (hne : event.payload.orderId ≠ "") :
    (Approves proc event → Ends c (processPayment proc event) w ()
      (paymentWrites proc event .paymentProcessed (charged proc event) .approved)) ∧
    (¬ Approves proc event → Ends c (processPayment proc event) w ()
      (paymentWrites proc event .paymentFailed
        (declined proc event (declineReason proc event)) .failed)) := by
  let requested : JsVal := requestedEnvelope proc event (proc.uuid 0).val
  have hrequest : Ends c (publishPaymentRequested proc event (proc.uuid 0).val) w requested
      [.emit (domainRecord .paymentRequested event.payload.orderId requested [])] :=
    (Ends.publish rfl hne).bind fun _ _ => .resolve requested
  have hfail : ∀ {w' : World C}, Ends c (failPayment proc event (proc.uuid 0).val
      (declineReason proc event) (requested.get "eventId")) w' ()
      [.emit (domainRecord .paymentFailed event.payload.orderId
          (declined proc event (declineReason proc event)) []),
        .saveProcessed (outcomeRow event (proc.uuid 0).val .failed)] := ends_outcome rfl hne
  constructor
  · intro hyes
    refine hrequest.bind fun _ _ => ?_
    dsimp only
    rw [if_pos (List.isEmpty_iff.mpr hyes.1), hyes.2]
    exact (ends_simulateDelay _).bind fun _ _ => ends_outcome rfl hne
  · intro hno
    refine hrequest.bind fun _ _ => ?_
    dsimp only
    split_ifs with hempty
    · have hfailed : (simulatePaymentGateway proc { paymentId := some (proc.uuid 0).val }).outcome =
          .failed := by
        cases houtcome : (simulatePaymentGateway proc
            { paymentId := some (proc.uuid 0).val }).outcome with
        | failed => rfl
        | approved => exact absurd ⟨List.isEmpty_iff.mp hempty, houtcome⟩ hno
      have hreason : (simulatePaymentGateway proc
          { paymentId := some (proc.uuid 0).val }).failureReason.getD "Payment gateway error" =
            declineReason proc event := (if_pos hempty).symm
      rw [hfailed, hreason]
      exact (ends_simulateDelay _).bind fun _ _ => hfail
    · have hreason : "business_rule: " ++ formatRuleViolations
          (evaluatePaymentRules event.payload (resolvePaymentBusinessRules proc.env)) =
            declineReason proc event := (if_neg hempty).symm
      rw [hreason]
      exact hfail

end Settled

section Outcomes

variable {proc : Process} {event : OrderCreatedEvent}

theorem parse_charged (horder : nonBlank event.payload.orderId = true) :
    parsePaymentProcessedMessage (.value (charged proc event).wire) =
      .ok (.accepted (charged proc event)) := by
  have hjson : (charged proc event).wire = charged proc event := JsVal.wire_of_isJson _ rfl
  have hfields : ∀ field ∈ ["paymentId", "orderId", "transactionId", "processedAt"],
      isNonEmptyString (((charged proc event).get "payload").get field) = true := by
    intro field hfield
    simp only [List.mem_cons, List.not_mem_nil, or_false] at hfield
    rcases hfield with rfl | rfl | rfl | rfl
    · exact nonBlank_of_matchesUuid (proc.uuid 0).2
    · exact horder
    · exact nonBlank_of_matchesUuid (proc.uuid 4).2
    · exact nonBlank_of_matchesIsoTimestamp (proc.iso 2).2
  rw [hjson]
  exact parse_created rfl (validEnvelope_created _ (proc.uuid 1) _ (by decide) horder)
    (validateFields_eq_ok.mpr ⟨rfl, hfields⟩) (strictEq_str.mpr rfl)

theorem parse_declined {reason : String} (horder : nonBlank event.payload.orderId = true)
    (hreason : FailReason proc reason) :
    parsePaymentFailedMessage (.value (declined proc event reason).wire) =
      .ok (.accepted (declined proc event reason)) := by
  have hjson : (declined proc event reason).wire = declined proc event reason :=
    JsVal.wire_of_isJson _ rfl
  have hfields : ∀ field ∈ ["paymentId", "orderId", "reason", "failedAt"],
      isNonEmptyString (((declined proc event reason).get "payload").get field) = true := by
    intro field hfield
    simp only [List.mem_cons, List.not_mem_nil, or_false] at hfield
    rcases hfield with rfl | rfl | rfl | rfl
    · exact nonBlank_of_matchesUuid (proc.uuid 0).2
    · exact horder
    · exact nonBlank_reason hreason
    · exact nonBlank_of_matchesIsoTimestamp (proc.iso 2).2
  rw [hjson]
  exact parse_created rfl (validEnvelope_created _ (proc.uuid 1) _ (by decide) horder)
    (validateFields_eq_ok.mpr ⟨rfl, hfields⟩) (strictEq_str.mpr rfl)

/-- Whatever arrives, at most one of the two parsers takes it. -/
theorem not_both_accepted (raw : KafkaValue) :
    ¬ ∃ e e', parsePaymentProcessedMessage raw = .ok (.accepted e) ∧
      parsePaymentFailedMessage raw = .ok (.accepted e') := by
  rintro ⟨e, e', hprocessed, hfailed⟩
  have hskipped : parsePaymentFailedMessage raw =
      .ok (.skipped "unsupported-event-type" (.str EventType.paymentProcessed.value)) :=
    skipped_of_accepted (by decide) hprocessed
  rw [hskipped] at hfailed
  cases hfailed

/-- What one handling of an accepted order puts on `payment.events`. -/
def Outcome (proc : Process) (event : OrderCreatedEvent) (r : KafkaRecord) : Prop :=
  r.value = .value (charged proc event).wire ∨
    ∃ reason, FailReason proc reason ∧ r.value = .value (declined proc event reason).wire

theorem performs_outcome (proc : Process) (event : OrderCreatedEvent) :
    (handleOrderCreated proc event).Performs fun op =>
      ∀ r, op = .emit r → r.topic = paymentEventsTopic → Outcome proc event r := by
  refine performs_processPayment (fun ms => nofun) (fun outcome => nofun) ?_ ?_ ?_
  · intro key r hr htopic
    cases hr
    have hne : resolveKafkaTopic .paymentRequested ≠ paymentEventsTopic := by decide
    exact absurd htopic hne
  · intro key reason hreason r hr htopic
    cases hr
    exact .inr ⟨reason, hreason, rfl⟩
  · intro hrules hgateway key r hr htopic
    cases hr
    exact .inl rfl

/-- When every operation settles well, a handling publishes its request and then one outcome. -/
theorem log_handleOrderCreated (proc : Process) {event : OrderCreatedEvent}
    (hne : event.payload.orderId ≠ "") {C : Type} (c : C) (w : World C) :
    ∃ requested outcome, ((handleOrderCreated proc event).run (World.settle c noFailure) w).2.log =
      w.log ++ [requested, outcome] ∧ requested.topic = EventType.paymentRequested.value ∧
        outcome.topic = paymentEventsTopic ∧ Outcome proc event outcome := by
  have hlog : ∀ {t outcome row}, Ends c (handleOrderCreated proc event) w ()
      (paymentWrites proc event t outcome row) →
        ((handleOrderCreated proc event).run (World.settle c noFailure) w).2.log = w.log ++
          [domainRecord .paymentRequested event.payload.orderId
            (requestedEnvelope proc event (proc.uuid 0).val) [],
          domainRecord t event.payload.orderId outcome []] := by
    intro t outcome row hends
    obtain ⟨ops, hrun, hwrites⟩ := hends
    rw [hrun, World.after_log, ← emitted_writes, hwrites]
    rfl
  by_cases happroves : Approves proc event
  · exact ⟨_, _, hlog ((ends_processPayment hne).1 happroves), rfl, rfl, .inl rfl⟩
  · refine ⟨_, _, hlog ((ends_processPayment hne).2 happroves), rfl, rfl, .inr ⟨_, ?_, rfl⟩⟩
    exact failReason_declineReason proc event

/-- An outcome published for an accepted order is read back by its own parser as it was
built, and skipped by the other; nothing at all is taken by both; and one outcome is published
when every operation settles well. -/
theorem outcomes_read_once {raw : KafkaValue} {order : JsVal}
    (horder : parseOrderEventsMessage raw = .ok (.accepted order)) (proc : Process) :
    ((handleOrderCreated proc (.ofJs order)).Performs fun op =>
      ∀ r, op = .emit r → r.topic = paymentEventsTopic → Outcome proc (.ofJs order) r) ∧
    (parsePaymentProcessedMessage (.value (charged proc (.ofJs order)).wire) =
        .ok (.accepted (charged proc (.ofJs order))) ∧
      parsePaymentFailedMessage (.value (charged proc (.ofJs order)).wire) =
        .ok (.skipped "unsupported-event-type" (.str "payment.processed"))) ∧
    (∀ reason, FailReason proc reason →
      parsePaymentFailedMessage (.value (declined proc (.ofJs order) reason).wire) =
        .ok (.accepted (declined proc (.ofJs order) reason)) ∧
      parsePaymentProcessedMessage (.value (declined proc (.ofJs order) reason).wire) =
        .ok (.skipped "unsupported-event-type" (.str "payment.failed"))) ∧
    (∀ raw', ¬ ∃ e e', parsePaymentProcessedMessage raw' = .ok (.accepted e) ∧
      parsePaymentFailedMessage raw' = .ok (.accepted e')) ∧
    ∀ {C : Type} (c : C) (w : World C), ∃ requested outcome,
      ((handleOrderCreated proc (.ofJs order)).run (World.settle c noFailure) w).2.log =
        w.log ++ [requested, outcome] ∧ requested.topic = EventType.paymentRequested.value ∧
          outcome.topic = paymentEventsTopic ∧ Outcome proc (.ofJs order) outcome := by
  have hfilled : nonBlank (OrderCreatedEvent.ofJs order).payload.orderId = true := by
    obtain ⟨-, hgrammar⟩ := parseOrderEvents_eq_accepted.mp horder
    obtain ⟨s, hs, hblank⟩ := hgrammar.orderId
    have hid : (OrderCreatedEvent.ofJs order).payload.orderId = s := JsVal.asStr_of_eq hs
    rw [hid, hblank]
  have hne : (OrderCreatedEvent.ofJs order).payload.orderId ≠ "" := nonBlank_ne_empty hfilled
  refine ⟨performs_outcome proc _, ?_, ?_, not_both_accepted, log_handleOrderCreated proc hne⟩
  · have hread : parsePaymentProcessedMessage (.value (charged proc (.ofJs order)).wire) =
        .ok (.accepted (charged proc (.ofJs order))) := parse_charged hfilled
    exact ⟨hread, skipped_of_accepted (by decide) hread⟩
  · intro reason hreason
    have hread : parsePaymentFailedMessage (.value (declined proc (.ofJs order) reason).wire) =
        .ok (.accepted (declined proc (.ofJs order) reason)) := parse_declined hfilled hreason
    exact ⟨hread, skipped_of_accepted (by decide) hread⟩

/-- The envelope of a message that is an order. -/
def orderEnvelope : JsVal :=
  match orderMessage .first "o-1" with
  | .value envelope => envelope
  | .buffer _ => .null

/-- Both outcomes of one order, as they come back. -/
theorem outcomes_read_sample : ∃ order,
    parseOrderEventsMessage (orderMessage .first "o-1") = .ok (.accepted order) ∧
    parsePaymentProcessedMessage (.value (charged (.still .first .half) (.ofJs order)).wire) =
      .ok (.accepted (charged (.still .first .half) (.ofJs order))) ∧
    parsePaymentFailedMessage (.value (charged (.still .first .half) (.ofJs order)).wire) =
      .ok (.skipped "unsupported-event-type" (.str "payment.processed")) := by
  have horder : parseOrderEventsMessage (orderMessage .first "o-1") =
      .ok (.accepted orderEnvelope) := by decide +kernel
  exact ⟨orderEnvelope, horder, (outcomes_read_once horder (.still .first .half)).2.1⟩

end Outcomes

end EventFlow.Payments
