import EventFlow.Orders.Wire
import EventFlow.Payments.Outcomes
import EventFlow.Saga.Routing

namespace EventFlow.Saga

open Js Shared Services Async Retry
open Orders (acceptsCreateOrderDto acceptsCreateOrderDto_spec calculateTotalAmount
  parse_orderCreatedRecord CleanDto CreateOrderDto orderCreatedRecord sampleBody
  acceptsCreateOrderDto_sampleBody)
open Payment (OrderCreatedEvent evaluatePaymentRules resolvePaymentBusinessRules)
open Payments (parse_charged parse_declined skipped_of_accepted)

section Statement

/-- A request has passed the pipe, with filled names and a total that is a number. -/
def CleanRequest (a : Author) : Prop :=
  ∀ proc dto, a = .service (.createOrder proc dto) →
    (∃ body, acceptsCreateOrderDto body = true ∧ dto = .ofJs body) ∧ CleanDto dto ∧
      (calculateTotalAmount dto).isFinite = true

/-- The consumers of the record's event take its envelope as it is. -/
def Legible (r : KafkaRecord) : Prop :=
  ∀ h : RetriedHandler, r.topic = h.topic →
    (envelopeOf r).get "eventType" = .str h.eventType.value →
    h.read r.value = .ok (.accepted (envelopeOf r))

end Statement

section Records

variable {r r₀ : KafkaRecord} {h : RetriedHandler} {t : EventType} {orderId key : String}
  {proc : Process} {v event : JsVal} {done : List Op}

/-- Where no parser filters the messages every sealed record is read. -/
theorem read_extracted (hsealed : Sealed r) :
    (extractEnvelope r.value).map ParseResult.accepted = .ok (.accepted (envelopeOf r)) := by
  obtain ⟨v, hvalue, -, hhas⟩ := hsealed
  have hobj : ∃ fields, v = .obj fields := by
    cases v <;> first | exact ⟨_, rfl⟩ | cases hhas
  obtain ⟨fields, rfl⟩ := hobj
  rw [envelopeOf_value hvalue, hvalue, extractEnvelope_obj hhas]
  rfl

/-- So only the two shared topics ask for more. -/
theorem legible_of (hsealed : Sealed r)
    (hcreated : r.topic = orderEventsTopic →
      parseOrderEventsMessage r.value = .ok (.accepted (envelopeOf r)))
    (hprocessed : r.topic = paymentEventsTopic →
      (envelopeOf r).get "eventType" = .str EventType.paymentProcessed.value →
      parsePaymentProcessedMessage r.value = .ok (.accepted (envelopeOf r)))
    (hfailed : r.topic = paymentEventsTopic →
      (envelopeOf r).get "eventType" = .str EventType.paymentFailed.value →
      parsePaymentFailedMessage r.value = .ok (.accepted (envelopeOf r))) : Legible r := by
  intro h htopic htype
  cases h with
  | paymentOrderEvents => exact hcreated htopic
  | stockPaymentEvents => exact hprocessed htopic htype
  | orderPaymentEvents | notificationPaymentEvents => exact hfailed htopic htype
  | _ => exact read_extracted hsealed

theorem legible_of_topic (hsealed : Sealed r) (horder : r.topic ≠ orderEventsTopic)
    (hpayment : r.topic ≠ paymentEventsTopic) : Legible r :=
  legible_of hsealed (fun ht => absurd ht horder) (fun ht => absurd ht hpayment)
    fun ht => absurd ht hpayment

theorem Legible.copy (hr : Legible r₀) (htopic : r.topic = r₀.topic) (hvalue : r.value = r₀.value) :
    Legible r := by
  intro h ht htype
  rw [envelopeOf_congr hvalue] at htype ⊢
  rw [hvalue]
  exact hr h (htopic.symm.trans ht) htype

/-- What is taken is the envelope of the record. -/
theorem read_eq_envelope (hsealed : Sealed r) (hread : h.read r.value = .ok (.accepted v)) :
    h.read r.value = .ok (.accepted (envelopeOf r)) := by
  obtain ⟨x, hvalue, -, hhas⟩ := hsealed
  have hsame : v = x := by
    rw [hvalue] at hread
    exact read_sealed hhas hread
  rw [hread, hsame, envelopeOf_value hvalue]

theorem legible_order {dto : CreateOrderDto}
    (hclean : CleanRequest (.service (.createOrder proc dto))) :
    Legible (orderCreatedRecord proc dto) := by
  obtain ⟨⟨body, hbody, rfl⟩, hdto, htotal⟩ := hclean proc dto rfl
  have hsealed : Sealed (orderCreatedRecord proc (.ofJs body)) := sealed_createEventEnvelope _ _ _ _
  obtain ⟨v, hread⟩ := (parse_orderCreatedRecord (acceptsCreateOrderDto_spec hbody) htotal).mpr hdto
  have hread' : RetriedHandler.paymentOrderEvents.read (orderCreatedRecord proc (.ofJs body)).value =
      .ok (.accepted v) := hread
  have hne : (orderCreatedRecord proc (.ofJs body)).topic ≠ paymentEventsTopic := by
    show resolveKafkaTopic .orderCreated ≠ paymentEventsTopic
    decide
  have htaken := read_eq_envelope hsealed hread'
  exact legible_of hsealed (fun _ => htaken) (fun ht => absurd ht hne) fun ht => absurd ht hne

/-- A record of `payment.events` for which one parser answers. -/
theorem legible_payment {t : EventType} (hsealed : Sealed r) (hne : r.topic ≠ orderEventsTopic)
    (htype : (envelopeOf r).get "eventType" = .str t.value)
    (hread : ∀ h : RetriedHandler, h.topic = paymentEventsTopic → h.eventType = t →
      ∃ v, h.read r.value = .ok (.accepted v)) : Legible r := by
  have hof : ∀ h : RetriedHandler, h.topic = paymentEventsTopic →
      (envelopeOf r).get "eventType" = .str h.eventType.value →
      h.read r.value = .ok (.accepted (envelopeOf r)) := by
    intro h htopic htype'
    have hsame : h.eventType = t :=
      EventType.value_injective (JsVal.str.inj (htype'.symm.trans htype))
    obtain ⟨v, hv⟩ := hread h htopic hsame
    exact read_eq_envelope hsealed hv
  exact legible_of hsealed (fun ht => absurd ht hne)
    (fun _ hprocessed => hof .stockPaymentEvents rfl hprocessed)
    fun _ hfailed => hof .orderPaymentEvents rfl hfailed

theorem legible_charged {event : OrderCreatedEvent} (horder : nonBlank event.payload.orderId = true) :
    Legible (domainRecord .paymentProcessed key (charged proc event) []) := by
  have hread : parsePaymentProcessedMessage (.value (charged proc event).wire) =
      .ok (.accepted (charged proc event)) := parse_charged horder
  have hne : resolveKafkaTopic .paymentProcessed ≠ orderEventsTopic := by decide
  refine legible_payment (sealed_createEventEnvelope _ _ _ _) hne
    (t := .paymentProcessed) (JsVal.get_wire_str rfl) fun h htopic htype => ?_
  cases h with
  | stockPaymentEvents => exact ⟨_, hread⟩
  | _ => cases htype

theorem legible_declined {event : OrderCreatedEvent} {reason : String}
    (horder : nonBlank event.payload.orderId = true) (hreason : FailReason proc reason) :
    Legible (domainRecord .paymentFailed key (declined proc event reason) []) := by
  have hread := parse_declined horder hreason
  have hne : resolveKafkaTopic .paymentFailed ≠ orderEventsTopic := by decide
  refine legible_payment (sealed_createEventEnvelope _ _ _ _) hne
    (t := .paymentFailed) (JsVal.get_wire_str rfl) fun h htopic htype => ?_
  cases h with
  | orderPaymentEvents | notificationPaymentEvents => exact ⟨_, hread⟩
  | _ => cases htype

/-- The events that a handler announces of a message that it has taken. -/
theorem legible_announced (hann : Announced proc v done h t event) {payload : KafkaValue}
    (hread : h.read payload = .ok (.accepted v)) : Legible (domainRecord t key event []) := by
  have hfilled : ∀ {v}, parseOrderEventsMessage payload = .ok (.accepted v) →
      nonBlank (OrderCreatedEvent.ofJs v).payload.orderId = true := by
    intro v hparsed
    obtain ⟨-, hgrammar⟩ := parseOrderEvents_eq_accepted.mp hparsed
    obtain ⟨s, hs, hblank⟩ := hgrammar.orderId
    have hid : (OrderCreatedEvent.ofJs v).payload.orderId = s := JsVal.asStr_of_eq hs
    rw [hid, hblank]
  have hquiet : resolveKafkaTopic t ≠ orderEventsTopic → resolveKafkaTopic t ≠ paymentEventsTopic →
      Legible (domainRecord t key event []) :=
    fun h h' => legible_of_topic (sealed_announced hann) h h'
  cases hann with
  | processed _ _ => exact legible_charged (hfilled hread)
  | failed _ _ => exact legible_declined (hfilled hread) (failReason_declineReason proc _)
  | requested | reserved | released | send | sent _ => exact hquiet (by decide) (by decide)

end Records

section Runs

variable {w : World Author} {a : Author} {done : List Op} {r : KafkaRecord}

/-- What an author writes is legible if its order comes from a clean request, and all that is
on the same topic already is. -/
theorem legible_turn (hlog : Ledger w.log) (hall : ∀ r₀ ∈ w.log, r₀.topic = r.topic → Legible r₀)
    (hclean : r.topic = orderEventsTopic → CleanRequest a) (hturn : Turn w a done (.emit r)) :
    Legible r := by
  obtain ⟨hsealed, -⟩ := source_of_turn hlog hturn
  cases origin_of_turn hlog hturn with
  | ordered _ heq =>
    subst heq
    exact legible_order (hclean rfl)
  | cancelled _ heq =>
    subst heq
    have horder : resolveKafkaTopic .orderCancelled ≠ orderEventsTopic := by decide
    have hpayment : resolveKafkaTopic .orderCancelled ≠ paymentEventsTopic := by decide
    exact legible_of_topic hsealed horder hpayment
  | announced htaken hann _ heq =>
    subst heq
    exact legible_announced hann htaken.read
  | copied htaken htopic _ hvalue => exact (hall _ htaken.mem htopic.symm).copy htopic hvalue
  | @buried h _ _ _ _ _ _ failure _ _ _ _ heq =>
    subst heq
    intro h' htopic
    have hdlq : resolveKafkaTopic h'.eventType = toDlqTopic (resolveKafkaTopic h.eventType) :=
      h'.resolveKafkaTopic_eventType.trans htopic.symm
    exact absurd hdlq (resolveKafkaTopic_ne_dlq _ _)

variable {ι : Type} [DecidableEq ι] {ls : List (PoolAct ι Author Op JsThrow)}
  {s : Pool ι (World Author) Author Op Op.Resp JsThrow JsVal}
  {cond : Pool ι (World Author) Author Op Op.Resp JsThrow JsVal → PoolAct ι Author Op JsThrow → Prop}

/-- The topics whose records are legible in runs of such authors. -/
theorem legible_of_run {may : Author → Prop} {T : String → Prop}
    (hcond : ∀ s i a, cond s (.start i a) → may a)
    (hclean : ∀ a, may a → T orderEventsTopic → CleanRequest a)
    (hrun : RunWhere (Pool.Step eventFlow) cond (Pool.idle World.empty) ls s) :
    ∀ r ∈ s.world.log, T r.topic → Legible r := by
  refine log_invariant (P := fun _ r => T r.topic → Legible r) hcond (fun _ _ _ _ h => h) ?_ hrun
  intro w a done r hlog hall hmay hturn htopic
  refine legible_turn hlog (fun r₀ hr₀ heq => hall r₀ hr₀ ?_) (fun heq => ?_) hturn
  · rw [heq]
    exact htopic
  · rw [heq] at htopic
    exact hclean a hmay htopic

/-- Whatever is requested, the services read each other. -/
theorem legible_reactions
    (hrun : RunWhere (Pool.Step eventFlow) cond (Pool.idle World.empty) ls s) :
    ∀ r ∈ s.world.log, r.topic ≠ orderEventsTopic → Legible r := by
  have hany : ∀ s i a, cond s (.start i a) → True := fun _ _ _ _ => trivial
  exact legible_of_run (T := (· ≠ orderEventsTopic)) hany (fun _ _ hne => absurd rfl hne) hrun

/-- Where every request has passed the pipe with filled names and a number for its total, no
consumer ever meets a message that it cannot read: it takes the records of its own event, with
their envelope as it was sent, and skips those of the other event on its topic. -/
theorem read_by_type
    (hrun : RunWhere (Pool.Step eventFlow) (Starting CleanRequest) (Pool.idle World.empty) ls s) :
    ∀ r ∈ s.world.log, ∀ h : RetriedHandler, r.topic = h.topic →
      ∃ t : EventType, (envelopeOf r).get "eventType" = .str t.value ∧
        (t = h.eventType → h.read r.value = .ok (.accepted (envelopeOf r))) ∧
        (t ≠ h.eventType →
          h.read r.value = .ok (.skipped "unsupported-event-type" (.str t.value))) := by
  intro r hr h htopic
  have hlog : Ledger s.world.log := ledger_of_run hrun
  have hcond : ∀ (s : Pool ι (World Author) Author Op Op.Resp JsThrow JsVal) i a,
      Starting CleanRequest s (.start i a) → CleanRequest a := fun _ i a hc => hc i a rfl
  have hlegible : Legible r :=
    legible_of_run (T := fun _ => True) hcond (fun _ hclean _ => hclean) hrun r hr trivial
  obtain ⟨pre, post, hsplit⟩ := List.append_of_mem hr
  rcases hlog.routed_or_wraps hsplit with ⟨t, orderId, hrouted⟩ | ⟨h', orderId, r₀, -, hr₀, -, hwraps⟩
  · refine ⟨t, hrouted.eventType, fun htype => ?_, fun htype => ?_⟩
    · subst htype
      exact hlegible h htopic hrouted.eventType
    · have hsame : resolveKafkaTopic t = h.topic := hrouted.topic.symm.trans htopic
      have hother : ∀ h' : RetriedHandler, h'.topic = h.topic → h'.eventType = t →
          h'.read r.value = .ok (.accepted (envelopeOf r)) := by
        intro h' ht heq
        refine hlegible h' (htopic.trans ht.symm) ?_
        rw [heq]
        exact hrouted.eventType
      cases h with
      | stockPaymentEvents =>
        obtain rfl : t = .paymentFailed := by
          revert hsame htype
          cases t <;> decide
        exact skipped_of_accepted (by decide) (hother .orderPaymentEvents rfl rfl)
      | orderPaymentEvents | notificationPaymentEvents =>
        obtain rfl : t = .paymentProcessed := by
          revert hsame htype
          cases t <;> decide
        exact skipped_of_accepted (by decide) (hother .stockPaymentEvents rfl rfl)
      | _ =>
        exfalso
        revert hsame htype
        cases t <;> decide
  · have hdlq : resolveKafkaTopic h.eventType = toDlqTopic (resolveKafkaTopic h'.eventType) := by
      rw [h.resolveKafkaTopic_eventType, ← htopic, hwraps.topic, hr₀.topic]
    exact absurd hdlq (resolveKafkaTopic_ne_dlq _ _)

theorem cleanRequest_sampleOrder : CleanRequest sampleOrder := by
  intro proc dto heq
  cases heq
  refine ⟨⟨sampleBody "c-1", acceptsCreateOrderDto_sampleBody (by decide), rfl⟩, ⟨?_, ?_⟩, ?_⟩
  · decide
  · decide
  · decide +kernel

/-- All of a completed order is read by those that it is for. -/
theorem read_by_type_completed : ∃ ls,
    ∃ s : Pool Unit (World Author) Author Op Op.Resp JsThrow JsVal,
      RunWhere (Pool.Step eventFlow) (Starting CleanRequest) (Pool.idle World.empty) ls s ∧
      s.world.log.length = 6 ∧ ∀ r ∈ s.world.log, ∀ h : RetriedHandler, r.topic = h.topic →
        ∃ t : EventType, (envelopeOf r).get "eventType" = .str t.value ∧
          (t = h.eventType → h.read r.value = .ok (.accepted (envelopeOf r))) ∧
          (t ≠ h.eventType →
            h.read r.value = .ok (.skipped "unsupported-event-type" (.str t.value))) := by
  have hmay : ∀ c h proc headers payload, c = .consume h proc headers payload →
      CleanRequest (.service c) := by
    intro c h proc headers payload hc proc' dto heq
    rw [hc] at heq
    cases heq
  obtain ⟨ls, hrun⟩ := completedStory_run cleanRequest_sampleOrder hmay
  exact ⟨ls, _, hrun, completedStory_length, read_by_type hrun⟩

end Runs

end EventFlow.Saga
