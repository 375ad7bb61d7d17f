import EventFlow.Framework.Pool
import EventFlow.Retry.Execute
import EventFlow.Services.Payment

namespace EventFlow.Payments

open Js Shared Services Services.Payment Async

section Calls

/-- One delivery of a message on `order.events` to a payment-service process. -/
structure Call where
  payload : KafkaValue
  headers : List (String × RawHeader)
  proc : Process

/-- The `order.created` event of a delivery that passes the parser. -/
def Call.event? (c : Call) : Option OrderCreatedEvent :=
  match parseOrderEventsMessage c.payload with
  | .ok (.accepted envelope) => some (.ofJs envelope)
  | _ => none

/-- The payment-service consumers of `order.events`. Whatever a producer sends
may be delivered at any time and again; others may append to the broker's log. -/
def consumers : Platform (World Call) Call Op Op.Resp JsThrow JsVal where
  body c := handleOrderEvents c.proc c.headers c.payload
  exec c w op := w.exec c op
  mayReject _ := True
  ready _ _ := True
  env w w' := ∃ records, w' = { w with log := w.log ++ records }

/-- A record that announces a payment step of an order. -/
structure Announces (t : EventType) (paymentId orderId : String) (r : KafkaRecord) : Prop where
  topic : r.topic = resolveKafkaTopic t
  value : ∃ v, r.value = .value v ∧ v.get "eventType" = .str t.value ∧
    (v.get "payload").get "paymentId" = .str paymentId ∧
    (v.get "payload").get "orderId" = .str orderId

theorem announces_of_envelope {t : EventType} {paymentId orderId key : String} {envelope : JsVal}
    (htype : envelope.get "eventType" = .str t.value)
    (hid : (envelope.get "payload").get "paymentId" = .str paymentId)
    (horder : (envelope.get "payload").get "orderId" = .str orderId) :
    Announces t paymentId orderId (domainRecord t key envelope []) := by
  have hpayload : envelope.wire.get "payload" = (envelope.get "payload").wire := by
    refine JsVal.get_wire fun hu => ?_
    rw [hu] at hid
    cases hid
  refine ⟨rfl, _, rfl, JsVal.get_wire_str htype, ?_, ?_⟩
  · rw [hpayload, JsVal.get_wire_str hid]
  · rw [hpayload, JsVal.get_wire_str horder]

end Calls

section Outline

/-- Where the handling of one `order.created` stands between its awaits. -/
inductive Phase where
  | opened
  | unseen
  | skipping (record : ProcessedEventEntity)
  | cleared
  | charging
  | announced (outcome : ProcessedEventOutcome)
  | failed
  | closed

/-- One phase for a result, another for an error. -/
def ends {ε α : Type} (resolved rejected : Phase) : Except ε α → Phase
  | .ok _ => resolved
  | .error _ => rejected

def skippedRow (event : OrderCreatedEvent) (record : ProcessedEventEntity) :
    ProcessedEventEntity where
  inboundEventId := event.eventId
  eventType := EventType.orderCreated.value
  orderId := event.payload.orderId
  paymentId := record.paymentId
  outcome := .skippedDuplicateOrder

/-- What holds in each phase, and why every operation of the handling leads from
its phase to the next. -/
structure Outline {C : Type} (c : C) (T : Contract (World C) Op Op.Resp)
    (event : OrderCreatedEvent) (paymentId : String) (holds : Phase → World C → Prop) : Prop where
  exec : ∀ w op, T.exec w op = w.exec c op
  stable : ∀ ph w w', holds ph w → T.rely w w' → holds ph w'
  wait : ∀ ph op w, quiet op = true → holds ph w →
    T.guar w (w.exec c op).2 ∧ holds ph (w.exec c op).2
  unseen : ∀ w, holds .opened w → w.processed.find? event.eventId = none → holds .unseen w
  cleared : ∀ w, holds .unseen w →
    (∀ r ∈ w.processed.rows, r.orderId = event.payload.orderId → r.outcome ≠ .approved) →
    holds .cleared w
  skipping : ∀ w r, holds .unseen w → r ∈ w.processed.rows → r.orderId = event.payload.orderId →
    r.outcome = .approved → holds (.skipping r) w
  skip : ∀ w r, holds (.skipping r) w →
    T.guar w (w.exec c (.saveProcessed (skippedRow event r))).2 ∧
      holds .closed (w.exec c (.saveProcessed (skippedRow event r))).2
  charge : ∀ w record, Announces .paymentRequested paymentId event.payload.orderId record →
    holds .cleared w →
    T.guar w (w.exec c (.emit record)).2 ∧ holds .charging (w.exec c (.emit record)).2
  approve : ∀ w record, Announces .paymentProcessed paymentId event.payload.orderId record →
    holds .charging w →
    T.guar w (w.exec c (.emit record)).2 ∧ holds (.announced .approved) (w.exec c (.emit record)).2
  decline : ∀ w record, Announces .paymentFailed paymentId event.payload.orderId record →
    holds .charging w →
    T.guar w (w.exec c (.emit record)).2 ∧ holds (.announced .failed) (w.exec c (.emit record)).2
  record : ∀ w outcome, outcome ≠ .skippedDuplicateOrder → holds (.announced outcome) w →
    T.guar w (w.exec c (.saveProcessed (outcomeRow event paymentId outcome))).2 ∧
      holds .closed (w.exec c (.saveProcessed (outcomeRow event paymentId outcome))).2
  unrecorded : ∀ w outcome, outcome ≠ .skippedDuplicateOrder → holds (.announced outcome) w →
    T.rejects (.saveProcessed (outcomeRow event paymentId outcome)) → holds .failed w
  fail : ∀ w, holds .cleared w ∨ holds .charging w → holds .failed w
  retry : ∀ w record, record.topic = orderEventsTopic → holds .failed w →
    T.guar w (w.exec c (.emit record)).2 ∧ holds .closed (w.exec c (.emit record)).2
  bury : ∀ w record, record.topic = toDlqTopic orderEventsTopic → holds .failed w →
    T.guar w (w.exec c (.emit record)).2 ∧ holds .closed (w.exec c (.emit record)).2
  leave : ∀ w, holds .opened w ∨ holds .unseen w ∨ (∃ r, holds (.skipping r) w) ∨
    holds .cleared w ∨ holds .failed w → holds .closed w

variable {C : Type} {c : C} {T : Contract (World C) Op Op.Resp} {event : OrderCreatedEvent}
  {paymentId : String} {holds : Phase → World C → Prop}

namespace Outline

theorem perform_quiet (O : Outline c T event paymentId holds) {ph : Phase} {op : Op}
    {post : Except JsThrow op.Resp → Phase} (hq : quiet op = true)
    (hok : ∀ w, holds ph w → holds (post (.ok (w.exec c op).1)) (w.exec c op).2)
    (herr : ∀ e w, holds ph w → holds (post (.error e)) w) :
    Outlined T holds ph (perform op : Promise op.Resp) post := by
  refine outlined_perform (O.stable ph) (fun w hw _ => ?_) fun w e hw _ => herr e w hw
  rw [O.exec]
  exact ⟨(O.wait ph op w hq hw).1, hok w hw⟩

theorem perform_write (O : Outline c T event paymentId holds) {ph : Phase} {op : Op}
    {post : Except JsThrow op.Resp → Phase}
    (hok : ∀ w, holds ph w →
      T.guar w (w.exec c op).2 ∧ holds (post (.ok (w.exec c op).1)) (w.exec c op).2)
    (herr : ∀ w e, holds ph w → T.rejects op → holds (post (.error e)) w) :
    Outlined T holds ph (perform op : Promise op.Resp) post := by
  refine outlined_perform (O.stable ph) (fun w hw _ => ?_) herr
  rw [O.exec]
  exact hok w hw

theorem outlined_sleep (O : Outline c T event paymentId holds) {ph ph' : Phase} (ms : Number)
    (herr : ∀ w, holds ph w → holds ph' w) :
    Outlined T holds ph (sleep ms) (ends ph ph') :=
  O.perform_quiet rfl (fun w hw => (O.wait ph (.sleep ms) w rfl hw).2) fun _ w hw => herr w hw

/-- The phase in which the two finds leave the handling. -/
def afterCheck : Except JsThrow IdempotencyCheckResult → Phase
  | .ok .new => .cleared
  | .ok (.duplicateOrder record) => .skipping record
  | .ok (.duplicateEvent _) | .error _ => .closed

/-- The same after the first find. -/
def afterFindByEvent : Except JsThrow (Option ProcessedEventEntity) → Phase
  | .ok none => .unseen
  | .ok (some _) | .error _ => .closed

/-- And after the second. -/
def afterFindApproved : Except JsThrow (Option ProcessedEventEntity) → Phase
  | .ok none => .cleared
  | .ok (some record) => .skipping record
  | .error _ => .closed

theorem outlined_check (O : Outline c T event paymentId holds) :
    Outlined T holds .opened (checkOrderCreated event.eventId event.payload.orderId)
      afterCheck := by
  have hfirst : Outlined T holds .opened (findByEvent event.eventId) afterFindByEvent := by
    refine O.perform_quiet rfl (fun w hw => ?_) fun _ w hw => O.leave w (.inl hw)
    have hstay := (O.wait .opened (.findByEvent event.eventId) w rfl hw).2
    cases hfind : w.processed.find? event.eventId with
    | none =>
      simp only [World.exec_findByEvent, hfind]
      exact O.unseen _ hstay hfind
    | some r =>
      simp only [World.exec_findByEvent, hfind]
      exact O.leave _ (.inl hstay)
  have hsecond : Outlined T holds .unseen (findApproved event.payload.orderId)
      afterFindApproved := by
    refine O.perform_quiet rfl (fun w hw => ?_) fun _ w hw => O.leave w (.inr (.inl hw))
    have hstay := (O.wait .unseen (.findApproved event.payload.orderId) w rfl hw).2
    cases hfind : w.processed.findOne fun r =>
        r.orderId = event.payload.orderId ∧ r.outcome = .approved with
    | none =>
      have hall := Table.findOne_eq_none.mp hfind
      simp only [World.exec_findApproved, hfind]
      exact O.cleared _ hstay fun r hr horder happ => by simpa [horder, happ] using hall r hr
    | some r =>
      obtain ⟨hr, hp⟩ := Table.findOne_spec hfind
      simp only [decide_eq_true_eq] at hp
      simp only [World.exec_findApproved, hfind]
      exact O.skipping _ r hstay hr hp.1 hp.2
  refine hfirst.bind (fun byEvent => ?_) fun _ _ hw => hw
  cases byEvent with
  | some r => exact outlined_resolve fun _ hw => hw
  | none =>
    refine hsecond.bind (fun byOrder => ?_) fun _ _ hw => hw
    cases byOrder with
    | some r => exact outlined_resolve fun _ hw => hw
    | none => exact outlined_resolve fun _ hw => hw

/-- A publish call of payment-service sends its one record or throws. -/
theorem outlined_publish (O : Outline c T event paymentId holds) {ph ph' : Phase} {t : EventType}
    {envelope : JsVal} {headers : List (String × JsVal)}
    (hok : ∀ key w, holds ph w →
      T.guar w (w.exec c (.emit (domainRecord t key envelope headers))).2 ∧
        holds ph' (w.exec c (.emit (domainRecord t key envelope headers))).2)
    (herr : ∀ w, holds ph w → holds .failed w) :
    Outlined T holds ph (eventPublisher.publish t envelope headers)
      (ends ph' .failed) := by
  have hkey : Outlined T holds ph (ofExcept (resolvePartitionKey envelope) : Promise String)
      (ends ph .failed) := by
    refine outlined_ofExcept fun w hw => ?_
    cases resolvePartitionKey envelope with
    | ok key => exact hw
    | error e => exact herr w hw
  refine hkey.bind (fun key => ?_) fun _ _ hw => hw
  exact O.perform_write (fun w hw => hok key w hw) fun w _ hw _ => herr w hw

theorem outlined_record (O : Outline c T event paymentId holds) {outcome : ProcessedEventOutcome}
    (hne : outcome ≠ .skippedDuplicateOrder) :
    Outlined T holds (.announced outcome)
      (recordProcessed (outcomeRow event paymentId outcome)) (ends .closed .failed) :=
  O.perform_write (fun w hw => O.record w outcome hne hw)
    fun w _ hw hrej => O.unrecorded w outcome hne hw hrej

theorem outlined_failPayment {proc : Process} (O : Outline c T event paymentId holds)
    (reason : String) (causationId : JsVal) :
    Outlined T holds .charging (failPayment proc event paymentId reason causationId)
      (ends .closed .failed) := by
  refine (O.outlined_publish (fun key w hw => O.decline w _ ?_ hw)
    fun w hw => O.fail w (.inr hw)).bind (fun _ => ?_) fun _ _ hw => hw
  · exact announces_of_envelope rfl rfl rfl
  · exact O.outlined_record (by decide)

theorem outlined_approvePayment {proc : Process} (O : Outline c T event paymentId holds)
    (causationId : JsVal) :
    Outlined T holds .charging (approvePayment proc event paymentId causationId)
      (ends .closed .failed) := by
  refine (O.outlined_publish (fun key w hw => O.approve w _ ?_ hw)
    fun w hw => O.fail w (.inr hw)).bind (fun _ => ?_) fun _ _ hw => hw
  · exact announces_of_envelope rfl rfl rfl
  · exact O.outlined_record (by decide)

theorem outlined_simulateDelay (O : Outline c T event paymentId holds)
    (result : PaymentSimulationResult) :
    Outlined T holds .charging (simulateDelay result) (ends .charging .failed) := by
  have hstay : ∀ ms, Outlined T holds .charging (if Number.lt 0 ms then sleep ms else .resolve ())
      (ends .charging .failed) := by
    intro ms
    split_ifs
    · exact O.outlined_sleep ms fun w hw => O.fail w (.inr hw)
    · exact outlined_resolve fun _ hw => hw
  unfold simulateDelay
  cases result.simulateDelayMs with
  | none => exact outlined_resolve fun _ hw => hw
  | some ms => exact hstay ms

/-- The whole pipeline: one `payment.requested`, then one outcome and its row. -/
theorem outlined_processPayment {proc : Process}
    (O : Outline c T event (proc.uuid 0).val holds) :
    Outlined T holds .cleared (processPayment proc event) (ends .closed .failed) := by
  have hrequested : Outlined T holds .cleared
      (publishPaymentRequested proc event (proc.uuid 0).val) (ends .charging .failed) := by
    have hsend : Outlined T holds .cleared
        (eventPublisher.publish .paymentRequested (requestedEnvelope proc event (proc.uuid 0).val) [])
        (ends .charging .failed) := by
      refine O.outlined_publish (fun key w hw => O.charge w _ ?_ hw) fun w hw => O.fail w (.inl hw)
      exact announces_of_envelope rfl rfl rfl
    exact hsend.bind (fun _ => outlined_resolve fun _ hw => hw) fun _ _ hw => hw
  refine hrequested.bind (fun requested => ?_) fun _ _ hw => hw
  dsimp only [ends]
  split_ifs
  · refine (O.outlined_simulateDelay _).bind (fun _ => ?_) fun _ _ hw => hw
    split
    · exact O.outlined_failPayment _ _
    · exact O.outlined_approvePayment _
  · exact O.outlined_failPayment _ _

section Executor

variable {proc : Process} {params : ExecuteWithRetryParams}

/-- The catch block republishes, buries, or rejects in turn. -/
theorem outlined_onFailure (O : Outline c T event paymentId holds) {service : ServiceName}
    (hservice : service ≠ .orderService) {policy : RetryPolicyConfig} (error : JsThrow)
    (htype : params.eventType = .orderCreated) :
    Outlined T holds .failed
      (KafkaRetryExecutor.onFailure ⟨transportOf service proc.env, service, policy⟩ proc params error)
      (fun _ => .closed) := by
  have hleave : ∀ w, holds .failed w → holds .closed w := fun w hw =>
    O.leave w (.inr (.inr (.inr (.inr hw))))
  have hpure : ∀ {α : Type} (x : Except JsThrow α),
      Outlined T holds .failed (ofExcept x : Promise α) (ends .failed .closed) := by
    intro α x
    refine outlined_ofExcept fun w hw => ?_
    cases x with
    | ok a => exact hw
    | error e => exact hleave w hw
  have htransport : transportOf service proc.env = eventPublisher := by
    cases service <;> first | rfl | exact absurd rfl hservice
  have hdlq : Outlined T holds .failed
      (KafkaRetryExecutor.sendToDlq ⟨transportOf service proc.env, service, policy⟩ proc
        params.eventType params.envelope error (getRetryCount params.headers).succ)
      (fun _ => .closed) := by
    rw [htransport, htype]
    refine (hpure _).bind (fun failure => ?_) fun _ _ hw => hw
    exact O.perform_write (fun w hw => O.bury w _ rfl hw) fun w _ hw _ => hleave w hw
  have hretry : Outlined T holds .failed
      (KafkaRetryExecutor.scheduleRetry ⟨transportOf service proc.env, service, policy⟩ proc
        params.eventType params.envelope (getRetryCount params.headers).succ)
      (fun _ => .closed) := by
    rw [htransport, htype]
    refine (O.outlined_sleep _ hleave).bind (fun _ => ?_) fun _ _ hw => hw
    refine (hpure _).bind (fun key => ?_) fun _ _ hw => hw
    exact O.perform_write (fun w hw => O.retry w _ rfl hw) fun w _ hw _ => hleave w hw
  have hdone : ∀ outcome : RetryOutcome, Outlined T holds .closed
      (.resolve outcome : Promise RetryOutcome) (fun _ => .closed) := fun _ =>
    outlined_resolve fun _ hw => hw
  refine (hpure _).bind (fun text => ?_) fun _ _ hw => hw
  dsimp only [ends]
  split_ifs
  · refine (hpure _).bind (fun _ => ?_) fun _ _ hw => hw
    exact hdlq.bind (fun _ => hdone .dlq) fun _ _ hw => hw
  · refine (hpure _).bind (fun _ => ?_) fun _ _ hw => hw
    exact hretry.bind (fun _ => hdone .retry) fun _ _ hw => hw
  · exact hdlq.bind (fun _ => hdone .dlq) fun _ _ hw => hw

theorem outlined_awaitRetryAt (O : Outline c T event paymentId holds)
    (headers : List (String × String)) :
    Outlined T holds .cleared (KafkaRetryExecutor.awaitRetryAt proc headers)
      (ends .cleared .closed) := by
  have hleave : ∀ w, holds .cleared w → holds .closed w := fun w hw =>
    O.leave w (.inr (.inr (.inr (.inl hw))))
  unfold KafkaRetryExecutor.awaitRetryAt
  cases getRetryAt headers with
  | none => exact outlined_resolve fun _ hw => hw
  | some retryAt =>
    dsimp only
    split_ifs
    · exact O.outlined_sleep _ hleave
    · exact outlined_resolve fun _ hw => hw

end Executor

/-- The handling of an accepted message, from its first find to its end. -/
theorem outlined_handleOrderCreated {proc : Process} {headers : List (String × RawHeader)}
    {envelope : JsVal} (O : Outline c T (.ofJs envelope) (proc.uuid 0).val holds) :
    Outlined T holds .opened (handleOrderCreatedEnvelope proc headers envelope)
      (fun _ => .closed) := by
  refine O.outlined_check.bind (fun check => ?_) fun _ _ hw => hw
  cases check with
  | duplicateEvent record => exact outlined_resolve fun _ hw => hw
  | duplicateOrder record =>
    have hskip : Outlined T holds (.skipping record)
        (recordProcessed (skippedRow (.ofJs envelope) record)) (fun _ => .closed) :=
      O.perform_write (fun w hw => O.skip w record hw)
        fun w _ hw _ => O.leave w (.inr (.inr (.inl ⟨record, hw⟩)))
    exact hskip.bind (fun _ => outlined_resolve fun _ hw => hw) fun _ _ hw => hw
  | new =>
    have hhandler : Outlined T holds .cleared
        ((handleOrderCreated proc (.ofJs envelope)).bind fun _ => .resolve RetryOutcome.success)
        (ends .closed .failed) :=
      O.outlined_processPayment.bind (fun _ => outlined_resolve fun _ hw => hw) fun _ _ hw => hw
    have hexecute : Outlined T holds .cleared
        (RetriedHandler.paymentOrderEvents.execute proc envelope (parseKafkaHeaders proc.drivers headers)
          (handleOrderCreated proc (.ofJs envelope))) (fun _ => .closed) := by
      refine (O.outlined_awaitRetryAt _).bind (fun _ => ?_) fun _ _ hw => hw
      exact hhandler.tryCatch (fun _ _ hw => hw) fun e =>
        O.outlined_onFailure (by decide) e rfl
    exact hexecute.bind (fun _ => outlined_resolve fun _ hw => hw) fun _ _ hw => hw

end Outline

end Outline

/-- A delivery keeps to its contract if its handling follows an outline; one that
is not accepted does nothing. -/
theorem along_handleOrderEvents {c : Call} {T : Contract (World Call) Op Op.Resp}
    {Q : Except JsThrow JsVal → World Call → Prop} {w : World Call}
    (holds : OrderCreatedEvent → Phase → World Call → Prop)
    (hidle : c.event? = none → ∀ x, Q x w)
    (hevent : ∀ event, c.event? = some event → holds event .opened w ∧
      Outline c T event (c.proc.uuid 0).val (holds event) ∧
      ∀ x w', holds event .closed w' → Q x w') :
    (handleOrderEvents c.proc c.headers c.payload).Along T Q w := by
  unfold Call.event? at hidle hevent
  unfold handleOrderEvents consumeParsed
  cases hp : parseOrderEventsMessage c.payload with
  | error e =>
    simp only [hp, true_implies] at hidle
    cases e <;> exact hidle _
  | ok parsed =>
    cases parsed with
    | skipped reason eventType =>
      simp only [hp, true_implies] at hidle
      exact hidle _
    | accepted envelope =>
      simp only [hp, Option.some.injEq, forall_eq'] at hevent
      obtain ⟨hopened, O, hclosed⟩ := hevent
      exact (O.outlined_handleOrderCreated w hopened).imp hclosed

section Samples

/-- A message on `order.events` as order-service would send it. -/
def orderMessage (eventId : Uuid) (orderId : String) : KafkaValue :=
  .value (createEventEnvelope eventId ((Process.still .first .half).iso 0) {
    eventType := .str EventType.orderCreated.value
    source := "order-service"
    correlationId := .str orderId
    payload := .obj [("orderId", .str orderId), ("customerId", .str "c-1"),
      ("items", .arr [.obj [("productId", .str "sku-1"), ("quantity", .num 2),
        ("unitPrice", .num 5)]]),
      ("totalAmount", .num 10), ("currency", .str "BRL")] }).wire

/-- Its delivery to a process whose gateway approves. -/
def delivery (eventId : Uuid) (orderId : String) : Call where
  payload := orderMessage eventId orderId
  headers := []
  proc := .still .first .half

/-- The state after one whole handling. -/
def handled (c : Call) (fails : Op → Option JsThrow) (w : World Call) : World Call :=
  ((consumers.body c).run (consumers.settle c fails) w).2

/-- A delivery to a free process can be handled from start to end. -/
theorem handled_run {ι : Type} [DecidableEq ι]
    {cond : Pool ι (World Call) Call Op Op.Resp JsThrow JsVal → PoolAct ι Call Op JsThrow → Prop}
    {s : Pool ι (World Call) Call Op Op.Resp JsThrow JsVal} (i : ι) (c : Call)
    (fails : Op → Option JsThrow) (hi : s.jobs i = none) (hstart : cond s (.start i c))
    (hcond : ∀ t op, cond t (.settled i op))
    (hrej : ∀ t op e, fails op = some e → cond t (.rejected i op e))
    (hfin : ∀ t, cond t (.finish i)) :
    ∃ ls, RunWhere (Pool.Step consumers) cond s ls { s with world := handled c fails s.world } :=
  Pool.call_run consumers i fails (fun _ _ _ => trivial) (fun t _ op _ _ => hcond t op) hrej hfin hi
    trivial hstart

end Samples

end EventFlow.Payments
