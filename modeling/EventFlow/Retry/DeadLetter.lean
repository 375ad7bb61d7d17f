import EventFlow.Retry.Exact
import EventFlow.Services.Fulfilment

namespace EventFlow.Retry

open Js Shared Services KafkaRetryExecutor

/-- The records that a run puts on any topic, in order. -/
def published (ds : List Delivery) : List KafkaRecord :=
  (ds.map fun d => d.ops.filterMap World.emitted).flatten

/-- The handler of dlq-service for the record's topic recognises the failure of an
envelope that came from a topic. -/
def TakenByDlqService (envelope : JsVal) (topic : String) (r : KafkaRecord) : Prop :=
  ∃ t ∈ EventType.allEventTypes, r.topic = toDlqTopic t.value ∧
    Dlq.handleDlqTopic t r.value = .resolve (Dlq.ackFailure r.topic (.str "event.failure")) ∧
    ∃ event, extractEnvelope r.value = .ok event ∧
      isEventFailurePayload (event.get "payload") = true ∧
      (event.get "payload").get "originalEnvelope" = envelope.wire ∧
      (event.get "payload").get "originalTopic" = .str topic

theorem TakenByDlqService.mem {envelope : JsVal} {topic : String} {r : KafkaRecord}
    (h : TakenByDlqService envelope topic r) : r.topic ∈ allDlqTopics := by
  obtain ⟨t, ht, htopic, -⟩ := h
  rw [htopic]
  exact List.mem_map_of_mem ht

section Failure

variable {g : Group} {envelope : JsVal} {attempt : Number} {r : KafkaRecord} {proc : Process}
  {details : JsVal} {params : CreateFailureEnvelopeParams} {text : String}

theorem printable_wire_num (n : Number) : (JsVal.num n).wire.printable = true :=
  JsVal.printable_wire _ rfl

theorem printable_of_eq_str {v : JsVal} {s : String} (h : v = .str s) : v.printable = true := by
  rw [h]
  rfl

/-- What dlq-service logs of a failure that it can read. -/
theorem logFailure_ok {failure retry error : JsVal} (hretry : failure.get "retry" = retry)
    (herror : failure.get "error" = error) (hobj : retry.isNullish = false)
    (hobj' : error.isNullish = false)
    (hlog : ∀ v ∈ [retry.get "attempt", retry.get "maxAttempts", failure.get "originalEventType",
      failure.get "originalEventId", failure.get "correlationId", error.get "message"],
      v.printable = true) : Dlq.logFailure failure = .ok () := by
  have hprop : ∀ name, retry.prop name = .ok (retry.get name) := by
    intro name
    rw [JsVal.prop, hobj]
    rfl
  have hprop' : error.prop "message" = .ok (error.get "message") := by
    rw [JsVal.prop, hobj']
    rfl
  rw [Dlq.logFailure, hretry, herror, hprop, hprop, hprop']
  exact JsVal.logLine_eq_ok.mpr hlog

/-- A field of the failure that can be printed can be printed on the far side. -/
theorem printable_failure {field : String}
    (h : ((failurePayload details (proc.iso 11) params).get field).printable = true) :
    (((failureEnvelope proc details params).wire.get "payload").get field).printable = true := by
  rw [payload_failureEnvelope]
  refine JsVal.printable_get_wire ?_ h
  change ["kind", "originalTopic", "originalEventId", "originalEventType", "originalSource",
    "correlationId", "originalPayload", "originalEnvelope", "error", "retry", "failedBy",
    "failedAt"].Nodup
  decide

theorem isEventFailurePayload_failure : isEventFailurePayload
    ((failureEnvelope proc details params).wire.get "payload") = true := by
  rw [payload_failureEnvelope]
  rfl

/-- dlq-service can log a failure whose envelope could be logged before. -/
theorem logFailure_failureEnvelope (hlog : Loggable params.original)
    (hcorr : (params.original.get "correlationId").printable = true)
    (hmessage : details.get "message" = .str text) :
    Dlq.logFailure ((failureEnvelope proc details params).wire.get "payload") = .ok () := by
  have hdetails : details ≠ .undefined := by
    intro hu
    rw [hu] at hmessage
    cases hmessage
  have herror : ((failureEnvelope proc details params).wire.get "payload").get "error" =
      details.wire := get_failure rfl hdetails
  have hsent : details.wire.get "message" = .str text := JsVal.get_wire_str hmessage
  have hattempt : (retryState params).wire.get "attempt" = (JsVal.num params.attempt).wire :=
    get_retryState_num rfl
  have hlimit : (retryState params).wire.get "maxAttempts" =
      (JsVal.num params.policy.maxAttempts).wire := get_retryState_num rfl
  refine logFailure_ok get_failure_retry herror rfl ?_ ?_
  · apply JsVal.isNullish_of_get
    rw [hsent]
    exact JsVal.noConfusion
  · rw [hattempt, hlimit, hsent]
    simp only [List.forall_mem_cons, List.not_mem_nil, false_implies, implies_true, and_true]
    exact ⟨printable_wire_num _, printable_wire_num _, printable_failure hlog.2,
      printable_failure hlog.1, printable_failure hcorr, rfl⟩

/-- A failure record on a subscribed topic is taken for what it is. -/
theorem FailureRecord.taken (h : FailureRecord g envelope attempt r) (hp : Parsed envelope)
    (hlog : Loggable envelope) (hcorr : (envelope.get "correlationId").printable = true)
    {t : EventType} (htopic : toDlqTopic (resolveKafkaTopic g.eventType) = toDlqTopic t.value) :
    TakenByDlqService envelope (resolveKafkaTopic g.eventType) r := by
  obtain ⟨proc, e, text, details, -, hmessage, rfl⟩ := h.failure
  generalize hparams : g.executor.failureParams g.eventType envelope attempt e = params
  have horiginal : params.original = envelope := by rw [← hparams]; rfl
  have horigin : params.originalTopic = resolveKafkaTopic g.eventType := by rw [← hparams]; rfl
  have hextract : extractEnvelope (.value (failureEnvelope proc details params).wire) =
      .ok (failureEnvelope proc details params).wire := extractEnvelope_obj rfl
  have hguard : isEventFailurePayload ((failureEnvelope proc details params).wire.get "payload") =
      true := isEventFailurePayload_failure
  have hlogged : Dlq.logFailure ((failureEnvelope proc details params).wire.get "payload") =
      .ok () := by
    apply logFailure_failureEnvelope _ _ hmessage
    · rwa [horiginal]
    · rwa [horiginal]
  refine ⟨t, t.mem_allEventTypes, htopic, ?_, _, hextract, hguard, ?_, ?_⟩
  · change Async.resolve (Dlq.handleDlqMessage (toDlqTopic t.value)
      (.value (failureEnvelope proc details params).wire)) = _
    rw [Dlq.handleDlqMessage, Dlq.readDlqMessage_failure hextract hguard hlogged,
      get_failure_str (s := "event.failure") rfl, ← htopic]
    rfl
  · have hgot : (failurePayload details (proc.iso 11) params).get "originalEnvelope" = envelope :=
      horiginal
    rw [get_failure hgot hp.ne_undefined]
  · rw [← horigin]
    exact get_failure_str rfl

end Failure

def alwaysFails (errors : ℕ → HandlerError) (n : ℕ) : Option HandlerError := some (errors n)

theorem published_cons (d : Delivery) (ds : List Delivery) :
    published (d :: ds) = d.ops.filterMap World.emitted ++ published ds := by
  rw [published, published, List.map_cons, List.flatten_cons]

theorem recordsOn_eq_filter (topic : String) (ds : List Delivery) :
    recordsOn topic ds = (published ds).filter fun r => r.topic = topic := by
  induction ds with
  | nil => rfl
  | cons d ds ih => rw [recordsOn_cons, published_cons, List.filter_append, ih, Delivery.sent]

section Exhausted

variable {g : Group} {record : KafkaRecord} {envelope : JsVal} {key : String} {x : Number}
  {procs : ℕ → Process} {script : ℕ → Option HandlerError} {errors : ℕ → HandlerError}
  {m n fuel : ℕ} {r : KafkaRecord}

/-- A delivery writes to the handler's topic and to its companion only. -/
theorem Answers.topics {proc : Process} {result : Option HandlerError} {d : Delivery}
    (h : Answers g proc envelope x result d) (hmem : r ∈ d.ops.filterMap World.emitted) :
    r.topic = resolveKafkaTopic g.eventType ∨
      r.topic = toDlqTopic (resolveKafkaTopic g.eventType) := by
  by_cases hretry : g.reply envelope x.succ result = .ok .retry
  · obtain ⟨key, waits, -, hw, hops⟩ := h.retried hretry
    rw [hops, filterMap_of_waits hw] at hmem
    obtain rfl := List.mem_singleton.mp hmem
    exact .inl rfl
  · by_cases hdlq : g.reply envelope x.succ result = .ok .dlq
    · obtain ⟨r', waits, hr, hw, hops⟩ := h.buried hdlq
      rw [hops, filterMap_of_waits hw] at hmem
      obtain rfl := List.mem_singleton.mp hmem
      exact .inr hr.topic
    · rw [h.silent hretry hdlq] at hmem
      cases hmem

/-- So does every run. -/
theorem chain_topics (hp : Parsed envelope) (hfin : g.policy.maxAttempts.isFinite = true)
    (hc : Carries g record (trips envelope n) x)
    (hmem : r ∈ published (g.chain procs script fuel n [record])) :
    r.topic = resolveKafkaTopic g.eventType ∨
      r.topic = toDlqTopic (resolveKafkaTopic g.eventType) := by
  induction fuel generalizing n record x with
  | zero => cases hmem
  | succ fuel ih =>
    have hanswers := deliver_answers hc (procs n) (script n) hfin
    by_cases hretry : g.reply (trips envelope n) x.succ (script n) = .ok .retry
    · obtain ⟨copy, hcopy, hchain⟩ := chain_retry_trips hc hp hfin
        hretry
      rw [hchain, published_cons] at hmem
      rcases List.mem_append.mp hmem with hfirst | hrest
      · exact hanswers.topics hfirst
      · exact ih hcopy hrest
    · rw [chain_last hc hfin hretry, published_cons] at hmem
      rcases List.mem_append.mp hmem with hfirst | hrest
      · exact hanswers.topics hfirst
      · cases hrest

/-- What dlq-service takes of a run is on the companion topic, which is one of its own. -/
theorem taken_on_companion (hp : Parsed envelope) (hfin : g.policy.maxAttempts.isFinite = true)
    (hc : Carries g record envelope x) {topic : String}
    (hmem : r ∈ published (g.chain procs script fuel 0 [record]))
    (htaken : TakenByDlqService envelope topic r) :
    g.handler.topic = g.eventType.value ∧
      r ∈ recordsOn (toDlqTopic (resolveKafkaTopic g.eventType))
        (g.chain procs script fuel 0 [record]) := by
  have hlisted := htaken.mem
  rcases chain_topics (n := 0) hp hfin hc hmem with heq | heq
  · rw [heq] at hlisted
    exfalso
    revert hlisted
    change resolveKafkaTopic g.handler.eventType ∉ allDlqTopics
    cases g.handler <;> decide
  · constructor
    · rw [heq] at hlisted
      rw [← g.handler.resolveKafkaTopic_eventType]
      exact (toDlqTopic_resolve_mem_iff _).mp hlisted
    · rw [recordsOn_eq_filter]
      exact List.mem_filter.mpr ⟨hmem, decide_eq_true heq⟩

/-- A run of failures goes on to the limit of attempts, and ends with a failure record. -/
theorem exists_failure (hp : Parsed envelope) (hkey : resolvePartitionKey envelope = .ok key)
    (hfin : g.policy.maxAttempts.isFinite = true) (hable : g.Answerable envelope 1)
    (hlimit : attemptLimit g.policy ≤ 2 ^ 53) (hc : Carries g record envelope 0)
    (hfuel : attemptLimit g.policy ≤ fuel) :
    ∃ m r, FailureRecord g (trips envelope m) (.counted (m + 1)) r ∧
      r ∈ published (g.chain procs (alwaysFails errors) fuel 0 [record]) := by
  obtain ⟨m, hm⟩ : ∃ m, attemptLimit g.policy = m + 1 :=
    ⟨attemptLimit g.policy - 1, by have := one_le_attemptLimit g.policy; omega⟩
  have hable' : g.Answerable envelope (0 : Number).succ := by rwa [succ_zero]
  have hretry : ∀ j < m, shouldRetry (Number.succ^[j + 1] 0) g.policy = true := by
    intro j hj
    rw [iterate_succ]
    exact shouldRetry_counted_of_lt hfin (by omega)
  have hend : shouldRetry (Number.succ^[m + 1] 0) g.policy = false := by
    have hmin : Nat.min (m + 1) (2 ^ 53) = m + 1 := Nat.min_eq_left (by omega)
    rw [iterate_succ, shouldRetry_counted hfin, hmin, hm]
    exact decide_eq_false (Nat.lt_irrefl _)
  have hreply : ∀ j ≤ m, g.reply (trips envelope (0 + j)) (Number.succ^[j + 1] 0)
      (alwaysFails errors (0 + j)) =
        .ok (if shouldRetry (Number.succ^[j + 1] 0) g.policy then .retry else .dlq) := by
    intro j hj
    rw [Nat.zero_add]
    exact reply_trips hp hkey hable' (fun i hi => hretry i (by omega)) rfl
  have hlast := hreply m le_rfl
  rw [hend] at hlast
  obtain ⟨last, hrounds, hanswers⟩ := chain_rounds hp hfin hc
    (fun j hj => by rw [hreply j hj.le, hretry j hj]; rfl)
    (by rw [hlast]; intro h; cases h) (by omega : m < fuel)
  rw [Function.iterate_succ_apply'] at hlast
  obtain ⟨r, hfail, -, hsent, -⟩ := hanswers.sent_dlq hlast
  rw [Nat.zero_add, iterate_succ, Number.succ_counted] at hfail
  have hmem : r ∈ recordsOn (toDlqTopic (resolveKafkaTopic g.eventType))
      (g.chain procs (alwaysFails errors) fuel 0 [record]) := by
    rw [hrounds.buried, hsent]
    exact List.mem_singleton_self r
  rw [recordsOn_eq_filter] at hmem
  exact ⟨m, r, hfail, (List.mem_filter.mp hmem).1⟩

/-- An exhausted message reaches dlq-service exactly when its topic is named like its event type,
its failures can be answered, and a double can count the attempts. -/
theorem exhausted_reaches_dlq_iff {h : RetriedHandler} {env : String → Option String}
    {drivers : Drivers} (hread : h.read record.value = .ok (.accepted envelope))
    (hp : Parsed envelope) (hkey : resolvePartitionKey envelope = .ok key)
    (hcorr : ∃ s, envelope.get "correlationId" = .str s) (hfresh : Fresh record)
    (hfuel : attemptLimit (resolveConsumerRetryPolicy env) ≤ fuel) :
    (∃ r ∈ published ((Group.runner h env drivers).chain procs (alwaysFails errors) fuel 0 [record]),
      TakenByDlqService envelope h.topic r) ↔
      h.topic = h.eventType.value ∧ (Group.runner h env drivers).Answerable envelope 1 ∧
        attemptLimit (resolveConsumerRetryPolicy env) ≤ 2 ^ 53 := by
  generalize hg : Group.runner h env drivers = g
  have hhandler : g.handler = h := by rw [← hg]; rfl
  have hpolicy : g.policy = resolveConsumerRetryPolicy env := by rw [← hg]; rfl
  have hfin : g.policy.maxAttempts.isFinite = true := by
    rw [hpolicy]
    exact isFinite_resolveConsumer env
  have hc : Carries g record envelope 0 := carries_fresh (by rwa [hhandler]) hfresh
  rw [← hpolicy] at hfuel ⊢
  constructor
  · intro hex
    obtain ⟨r, hmem, htaken⟩ := hex
    obtain ⟨htopic, hcompanion⟩ := taken_on_companion hp hfin hc hmem htaken
    rw [Group.eventType, hhandler] at htopic
    refine ⟨htopic, ?_, ?_⟩
    · by_contra hnot
      obtain ⟨fuel, rfl⟩ : ∃ fuel', fuel = fuel' + 1 :=
        ⟨fuel - 1, by have := one_le_attemptLimit g.policy; omega⟩
      rw [← succ_zero] at hnot
      obtain ⟨hchain, hnone⟩ := chain_unanswered hfin hc hnot
      rw [hchain, recordsOn_cons, hnone] at hcompanion
      cases hcompanion
    · by_contra hlarge
      rw [chain_open hp hfin hc] at hcompanion
      · cases hcompanion
      · intro j _ hreply
        have hretry := (reply_dlq_iff.mp hreply).2.1
        rw [iterate_succ, shouldRetry_counted hfin] at hretry
        exact of_decide_eq_false hretry ((Nat.min_le_right _ _).trans_lt (not_le.mp hlarge))
  · intro hcond
    obtain ⟨htopic, hable, hlimit⟩ := hcond
    obtain ⟨m, r, hfail, hmem⟩ := exists_failure hp hkey hfin hable hlimit hc hfuel
    have hresolved : resolveKafkaTopic g.eventType = h.topic := by
      rw [Group.eventType, hhandler]
      exact h.resolveKafkaTopic_eventType
    have hlisted : toDlqTopic (resolveKafkaTopic g.eventType) = toDlqTopic h.eventType.value := by
      rw [hresolved, htopic]
    have hcorr' : ((trips envelope m).get "correlationId").printable = true := by
      obtain ⟨s, hs⟩ := hcorr
      cases m with
      | zero => exact printable_of_eq_str hs
      | succ m => exact printable_of_eq_str (JsVal.get_wire_str hs)
    have htaken := hfail.taken (hp.trips m) (hp.loggable_trips hable.loggable m) hcorr' hlisted
    rw [hresolved] at htaken
    rw [TakenByDlqService, wire_trips] at htaken
    exact ⟨r, hmem, htaken⟩

end Exhausted

/-- A cancellation that fails everywhere does arrive. -/
theorem exhausted_reaches_dlq_cancelled :
    ∃ r ∈ published ((Group.runner .stockOrderCancelled noEnv .documented).chain
        (fun _ => .still .first .half) (alwaysFails fun _ => gatewayDown) 3 0 [cancelledRecord]),
      TakenByDlqService cancelledEnvelope "order.cancelled" r := by
  have hread : RetriedHandler.stockOrderCancelled.read cancelledRecord.value =
      .ok (.accepted cancelledEnvelope) := rfl
  have hcorr : ∃ s, cancelledEnvelope.get "correlationId" = .str s := ⟨_, rfl⟩
  have hsmall : attemptLimit (resolveConsumerRetryPolicy noEnv) ≤ 2 ^ 53 := by
    rw [attemptLimit_noEnv]
    decide
  exact (exhausted_reaches_dlq_iff hread parsed_cancelledEnvelope key_cancelledEnvelope hcorr
    fresh_cancelledRecord attemptLimit_noEnv.le).mpr
      ⟨rfl, answerable_cancelledEnvelope _ _ _, hsmall⟩

/-- A `payment.failed` envelope and its message, as payment-service would send it. -/
def paymentFailedEnvelope : JsVal :=
  createEventEnvelope .first ((Process.still .first .half).iso 0) {
    eventType := .str EventType.paymentFailed.value
    source := "payment-service"
    correlationId := .str "o-1"
    causationId := .str Uuid.second.val
    payload := .obj [("paymentId", .str "p-1"), ("orderId", .str "o-1"),
      ("reason", .str "Card declined"), ("failedAt", .str "2026-01-01T00:00:00.000Z")] }

def paymentFailedRecord : KafkaRecord where
  topic := paymentEventsTopic
  key := .str "o-1"
  value := .value paymentFailedEnvelope
  headers := []

theorem read_paymentFailed : parsePaymentFailedMessage paymentFailedRecord.value =
    .ok (.accepted paymentFailedEnvelope) := rfl

/-- The failure record of `payment.events` goes where dlq-service does not listen. -/
theorem exhausted_payment_failed_lost :
    ¬ ∃ r ∈ published ((Group.runner .orderPaymentEvents noEnv .documented).chain
        (fun _ => .still .first .half) (alwaysFails fun _ => gatewayDown) 3 0 [paymentFailedRecord]),
      TakenByDlqService paymentFailedEnvelope "payment.events" r := by
  intro hex
  obtain ⟨r, hmem, htaken⟩ := hex
  have hp : Parsed paymentFailedEnvelope := ⟨by decide, by decide⟩
  have hfresh : Fresh paymentFailedRecord := List.not_mem_nil
  have hc : Carries (.runner .orderPaymentEvents noEnv .documented) paymentFailedRecord
      paymentFailedEnvelope 0 := carries_fresh read_paymentFailed hfresh
  obtain ⟨htopic, -⟩ := taken_on_companion hp (isFinite_resolveConsumer noEnv) hc hmem htaken
  exact absurd htopic (by decide)

end EventFlow.Retry
