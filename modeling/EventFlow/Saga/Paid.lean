import EventFlow.Framework.Pool
import EventFlow.Framework.Provenance
import EventFlow.Orders.Status
import EventFlow.Payments.Handling
import EventFlow.Services.System

namespace EventFlow.Saga

open Js Shared Services Async
open Payments (Announces announces_of_envelope)
open Payment (OrderCreatedEvent evaluatePaymentRules resolvePaymentBusinessRules
  simulatePaymentGateway)

section Statement

/-- The record is the `payment.processed` of a `processPayment` call for the order,
whose payload breaks no rule and whose gateway approves. -/
def Charged (orderId : String) (c : Call) (record : KafkaRecord) : Prop :=
  ∃ proc headers payload envelope, c = .consume .paymentOrderEvents proc headers payload ∧
    parseOrderEventsMessage payload = .ok (.accepted envelope) ∧
    (OrderCreatedEvent.ofJs envelope).payload.orderId = orderId ∧
    evaluatePaymentRules (OrderCreatedEvent.ofJs envelope).payload
      (resolvePaymentBusinessRules proc.env) = [] ∧
    (simulatePaymentGateway proc { paymentId := some (proc.uuid 0).val }).outcome = .approved ∧
    Announces .paymentProcessed (proc.uuid 0).val orderId record

def Paid (orderId : String) (trace : List (Call × Op)) : Prop :=
  ∃ c record, (c, Op.emit record) ∈ trace ∧ Charged orderId c record

/-- The record's envelope is about the order. -/
def About (orderId : String) (r : KafkaRecord) : Prop :=
  ∃ v, r.value = .value v ∧ (v.get "payload").get "orderId" = .str orderId

/-- What fulfils an order: a stock reservation, a sent notification, or its completion. -/
def Fulfils (orderId : String) : Op → Prop
  | .emit r => (r.topic = EventType.stockReserved.value ∨ r.topic = EventType.notificationSent.value) ∧
      About orderId r
  | .updateOrder criterion status => criterion orderId = true ∧ status = .completed
  | .saveOrder row => row.id = orderId ∧ row.status = .completed
  | _ => False

/-- A message on a topic can be delivered at any time and again, to any process of
the groups that subscribe to it; outside there are only requests and messages on
`order.cancelled`, of any content. -/
def services : Platform (World Call) Call Op Op.Resp JsThrow JsVal where
  body := Call.body
  exec c w op := w.exec c op
  mayReject _ := True
  ready w c := match c with
    | .createOrder _ _ => True
    | .consume h _ headers payload =>
      ∃ r ∈ w.log, r.topic = h.topic ∧ r.value = payload ∧ r.headers = headers
  env w w' := ∃ r : KafkaRecord, r.topic = EventType.orderCancelled.value ∧
    w' = { w with log := w.log ++ [r] }

end Statement

section Invariant

/-- The topics whose records lead towards fulfilment. -/
def carriers : List String :=
  [paymentEventsTopic, EventType.stockReserved.value, EventType.notificationSent.value]

/-- A record that says of an order that it is paid, or is being fulfilled. -/
def Vouches (orderId : String) (r : KafkaRecord) : Prop :=
  ∃ v, r.value = .value v ∧ (v.get "payload").get "orderId" = .str orderId ∧
    (r.topic = paymentEventsTopic → v.get "eventType" = .str EventType.paymentProcessed.value)

/-- The value of a record is an envelope that every consumer reads as it is. -/
def Sealed (r : KafkaRecord) : Prop :=
  ∃ v, r.value = .value v ∧ v.isJson = true ∧ v.has "eventId" = true

structure SagaOk (w : World Call) : Prop where
  ordered : ∀ pre c op post orderId, w.trace = pre ++ (c, op) :: post → Fulfils orderId op →
    Paid orderId pre
  logged : ∀ r ∈ w.log, r.topic ≠ EventType.orderCancelled.value → ∃ c, (c, Op.emit r) ∈ w.trace
  completed : ∀ orderId row, w.orders.find? orderId = some row → row.status = .completed →
    ∃ c op, (c, op) ∈ w.trace ∧ Fulfils orderId op
  sealed : ∀ r ∈ w.log, r.topic ∈ carriers → Sealed r
  named : ∀ r ∈ w.log, r.topic ∈ carriers → ∃ orderId, About orderId r
  vouched : ∀ r ∈ w.log, r.topic ∈ carriers → ∀ orderId, Vouches orderId r → Paid orderId w.trace

/-- What a call may do once the trace has come to `trace`. -/
def Allowed (trace : List (Call × Op)) (c : Call) : Op → Prop
  | .emit r => r.topic ∈ carriers → Sealed r ∧ (∃ orderId, About orderId r) ∧
      ∀ orderId, Vouches orderId r →
        Paid orderId trace ∨ r.topic = paymentEventsTopic ∧ Charged orderId c r
  | .updateOrder criterion status => status = .completed → ∀ orderId, criterion orderId = true →
      Paid orderId trace
  | .saveOrder row => row.status ≠ .completed
  | _ => True

theorem Paid.mono {orderId : String} {trace trace' : List (Call × Op)} (h : Paid orderId trace)
    (hle : trace <+: trace') : Paid orderId trace' := by
  obtain ⟨c, record, hmem, hcharged⟩ := h
  exact ⟨c, record, hle.subset hmem, hcharged⟩

theorem vouches_of_about {orderId : String} {r : KafkaRecord} (h : About orderId r)
    (htopic : r.topic ≠ paymentEventsTopic) : Vouches orderId r := by
  obtain ⟨v, hv, horder⟩ := h
  exact ⟨v, hv, horder, fun h => absurd h htopic⟩

theorem paid_of_fulfils {trace : List (Call × Op)} {c : Call} {op : Op} {orderId : String}
    (h : Allowed trace c op) (hf : Fulfils orderId op) : Paid orderId trace := by
  cases op with
  | emit r =>
    obtain ⟨htopic, habout⟩ := hf
    have hne : r.topic ≠ paymentEventsTopic := by
      rcases htopic with ht | ht <;> rw [ht] <;> decide
    have hmem : r.topic ∈ carriers := by
      rcases htopic with ht | ht <;> rw [ht] <;> decide
    rcases (h hmem).2.2 orderId (vouches_of_about habout hne) with hpaid | ⟨heq, -⟩
    · exact hpaid
    · exact absurd heq hne
  | updateOrder criterion status => exact h hf.2 orderId hf.1
  | saveOrder row => exact absurd hf.2 h
  | _ => exact hf.elim

theorem mem_log_exec {c : Call} {w : World Call} {op : Op} {r : KafkaRecord}
    (h : r ∈ (w.exec c op).2.log) : r ∈ w.log ∨ op = .emit r := by
  by_cases hop : ∃ r', op = .emit r'
  · obtain ⟨r', rfl⟩ := hop
    rw [World.exec_log_emit] at h
    rcases List.mem_append.mp h with hold | hnew
    · exact .inl hold
    · exact .inr (by rw [List.mem_singleton.mp hnew])
  · rw [World.exec_log c w fun r' heq => hop ⟨r', heq⟩] at h
    exact .inl h

/-- A row that is completed now was so before, or the operation completes its order. -/
theorem completed_exec {c : Call} {w : World Call} {op : Op} {orderId : String} {row : OrderEntity}
    (hrow : (w.exec c op).2.orders.find? orderId = some row) (hdone : row.status = .completed) :
    (∃ row', w.orders.find? orderId = some row' ∧ row'.status = .completed) ∨ Fulfils orderId op := by
  by_cases hsave : ∃ r, op = .saveOrder r
  · obtain ⟨r, rfl⟩ := hsave
    rw [World.find?_exec_saveOrder] at hrow
    split_ifs at hrow with ho
    · obtain rfl := Option.some.inj hrow
      exact .inr ⟨ho.symm, hdone⟩
    · exact .inl ⟨row, hrow, hdone⟩
  by_cases hupdate : ∃ criterion status, op = .updateOrder criterion status
  · obtain ⟨criterion, status, rfl⟩ := hupdate
    rw [World.find?_exec_updateOrder] at hrow
    obtain ⟨old, hold, rfl⟩ := Option.map_eq_some_iff.mp hrow
    split_ifs at hdone with hselected
    · exact .inr ⟨hselected, hdone⟩
    · exact .inl ⟨old, hold, hdone⟩
  · rw [World.exec_orders c w (fun r heq => hsave ⟨r, heq⟩) fun criterion status heq =>
      hupdate ⟨criterion, status, heq⟩] at hrow
    exact .inl ⟨row, hrow, hdone⟩

/-- What a call is allowed to do keeps the saga in order. -/
theorem SagaOk.exec {trace : List (Call × Op)} {c : Call} {w : World Call} {op : Op}
    (h : SagaOk w) (hle : trace <+: w.trace) (hop : Allowed trace c op) :
    SagaOk (w.exec c op).2 := by
  have hgrow : w.trace <+: (w.exec c op).2.trace := List.prefix_append _ _
  have hlast : (c, op) ∈ (w.exec c op).2.trace :=
    List.mem_append_right _ (List.mem_singleton_self _)
  refine ⟨?_, ?_, ?_, ?_, ?_, ?_⟩
  · intro pre c' op' post o htrace hf
    rcases split_snoc htrace with ⟨rfl, heq⟩ | ⟨post', hpre⟩
    · obtain ⟨rfl, rfl⟩ := Prod.mk.inj heq
      exact (paid_of_fulfils hop hf).mono hle
    · exact h.ordered pre c' op' post' o hpre hf
  · intro r hr hne
    rcases mem_log_exec hr with hold | rfl
    · obtain ⟨c', hc'⟩ := h.logged r hold hne
      exact ⟨c', hgrow.subset hc'⟩
    · exact ⟨c, hlast⟩
  · intro o row hrow hdone
    rcases completed_exec hrow hdone with ⟨row', hrow', hdone'⟩ | hf
    · obtain ⟨c', op', hmem, hf⟩ := h.completed o row' hrow' hdone'
      exact ⟨c', op', hgrow.subset hmem, hf⟩
    · exact ⟨c, op, hlast, hf⟩
  · intro r hr hmem
    rcases mem_log_exec hr with hold | rfl
    · exact h.sealed r hold hmem
    · exact (hop hmem).1
  · intro r hr hmem
    rcases mem_log_exec hr with hold | rfl
    · exact h.named r hold hmem
    · exact (hop hmem).2.1
  · intro r hr hmem o hv
    rcases mem_log_exec hr with hold | rfl
    · exact (h.vouched r hold hmem o hv).mono hgrow
    · rcases (hop hmem).2.2 o hv with hpaid | ⟨-, hcharged⟩
      · exact (hpaid.mono hle).mono hgrow
      · exact ⟨c, r, hlast, hcharged⟩

/-- A message on `order.cancelled` says nothing of payments. -/
theorem SagaOk.inject {w : World Call} {r : KafkaRecord} (h : SagaOk w)
    (htopic : r.topic = EventType.orderCancelled.value) :
    SagaOk { w with log := w.log ++ [r] } := by
  have hcarrier : r.topic ∉ carriers := by
    rw [htopic]
    decide
  refine ⟨h.ordered, ?_, h.completed, ?_, ?_, ?_⟩
  · intro r' hr' hne
    rcases List.mem_append.mp hr' with hold | hnew
    · exact h.logged r' hold hne
    · obtain rfl := List.mem_singleton.mp hnew
      exact absurd htopic hne
  · intro r' hr' hmem
    rcases List.mem_append.mp hr' with hold | hnew
    · exact h.sealed r' hold hmem
    · obtain rfl := List.mem_singleton.mp hnew
      exact absurd hmem hcarrier
  · intro r' hr' hmem
    rcases List.mem_append.mp hr' with hold | hnew
    · exact h.named r' hold hmem
    · obtain rfl := List.mem_singleton.mp hnew
      exact absurd hmem hcarrier
  · intro r' hr' hmem
    rcases List.mem_append.mp hr' with hold | hnew
    · exact h.vouched r' hold hmem
    · obtain rfl := List.mem_singleton.mp hnew
      exact absurd hmem hcarrier

end Invariant

section Records

variable {trace : List (Call × Op)} {c : Call}

theorem sealed_createEventEnvelope {t : EventType} {key : String} (drawnId : Uuid)
    (drawnTime : IsoTimestamp) (params : CreateEventEnvelopeParams) (hs : List (String × JsVal)) :
    Sealed (domainRecord t key (createEventEnvelope drawnId drawnTime params) hs) :=
  ⟨_, rfl, JsVal.isJson_wire _, rfl⟩

theorem allowed_of_topic {r : KafkaRecord} (h : r.topic ∉ carriers) : Allowed trace c (.emit r) :=
  fun hmem => absurd hmem h

theorem dlqTopic_not_mem (t : EventType) : toDlqTopic (resolveKafkaTopic t) ∉ carriers := by
  cases t <;> decide

theorem allowed_dlq {t : EventType} {failure : JsVal} :
    Allowed trace c (.emit (dlqRecord t failure)) :=
  allowed_of_topic (dlqTopic_not_mem t)

/-- What has a key is about the order that the key names. -/
theorem about_of_key {t : EventType} {key : String} {envelope : JsVal} {hs : List (String × JsVal)}
    (hkey : resolvePartitionKey envelope = .ok key) :
    About key (domainRecord t key envelope hs) :=
  ⟨_, rfl, JsVal.get_get_wire_str (getPartitionKey_eq_ok.mp hkey).1⟩

/-- The order that a created envelope names once it has travelled. -/
theorem order_of_created {drawnId : Uuid} {drawnTime : IsoTimestamp}
    {params : CreateEventEnvelopeParams} {orderId : String} (hnd : params.payload.keys.Nodup)
    (hne : params.payload ≠ .undefined)
    (h : ((createEventEnvelope drawnId drawnTime params).wire.get "payload").get "orderId" =
      .str orderId) : params.payload.get "orderId" = .str orderId := by
  have hpayload : (createEventEnvelope drawnId drawnTime params).wire.get "payload" =
      params.payload.wire := JsVal.get_wire hne
  rw [hpayload] at h
  exact JsVal.str_of_get_wire hnd h

/-- An envelope a service has made itself, about orders that are paid. -/
theorem allowed_created {t : EventType} {key : String} {drawnId : Uuid} {drawnTime : IsoTimestamp}
    {params : CreateEventEnvelopeParams} {hs : List (String × JsVal)}
    (hkey : resolvePartitionKey (createEventEnvelope drawnId drawnTime params) = .ok key)
    (hnd : params.payload.keys.Nodup) (hne : params.payload ≠ .undefined)
    (h : ∀ orderId, params.payload.get "orderId" = .str orderId → Paid orderId trace) :
    Allowed trace c (.emit (domainRecord t key (createEventEnvelope drawnId drawnTime params) hs)) := by
  intro _
  refine ⟨sealed_createEventEnvelope drawnId drawnTime params hs, ⟨key, about_of_key hkey⟩,
    fun orderId hv => .inl ?_⟩
  obtain ⟨v, hv, horder, -⟩ := hv
  obtain rfl := (KafkaValue.value.inj hv).symm
  exact h orderId (order_of_created hnd hne horder)

/-- Consumers read the envelope of a sealed record as it is. -/
theorem read_sealed {h : RetriedHandler} {v envelope : JsVal} (hhas : v.has "eventId" = true)
    (hread : h.read (.value v) = .ok (.accepted envelope)) : envelope = v := by
  have hobj : ∃ fields, v = .obj fields := by
    cases v <;> first | exact ⟨_, rfl⟩ | cases hhas
  obtain ⟨fields, rfl⟩ := hobj
  have hparsed : ∀ {t : EventType} {validate : JsVal → Except JsThrow Unit},
      parseMessage t validate (.value (.obj fields)) = .ok (.accepted envelope) →
      envelope = .obj fields := by
    intro t validate hp
    have hx := (parseMessage_eq_accepted.mp hp).1
    rw [deserializeAndExtract_obj hhas] at hx
    exact (Except.ok.inj hx).symm
  have hextracted : (extractEnvelope (.value (.obj fields))).map ParseResult.accepted =
      .ok (.accepted envelope) → envelope = .obj fields := by
    intro hx
    rw [extractEnvelope_obj hhas] at hx
    exact (ParseResult.accepted.inj (Except.ok.inj hx)).symm
  cases h with
  | orderPaymentEvents | paymentOrderEvents | stockPaymentEvents | notificationPaymentEvents =>
    exact hparsed hread
  | _ => exact hextracted hread

/-- What a consumer republishes is the record it has read. -/
theorem allowed_copy {h : RetriedHandler} {r : KafkaRecord} {w : World Call} {envelope : JsVal}
    {key : String} {hs : List (String × JsVal)} (hok : SagaOk w) (hr : r ∈ w.log)
    (htopic : r.topic = h.topic) (hread : h.read r.value = .ok (.accepted envelope))
    (hkey : resolvePartitionKey envelope = .ok key) :
    Allowed w.trace c (.emit (domainRecord h.eventType key envelope hs)) := by
  intro hmem
  have hsame : (domainRecord h.eventType key envelope hs).topic = r.topic :=
    h.resolveKafkaTopic_eventType.trans htopic.symm
  rw [hsame] at hmem
  obtain ⟨v, hv, hjson, hhas⟩ := hok.sealed r hr hmem
  rw [hv] at hread
  obtain rfl := read_sealed hhas hread
  have hvalue : (domainRecord h.eventType key envelope hs).value = r.value := by
    rw [hv, domainRecord, JsVal.wire_of_isJson envelope hjson]
  refine ⟨⟨envelope, hvalue.trans hv, hjson, hhas⟩, ⟨key, about_of_key hkey⟩,
    fun orderId hvouch => .inl ?_⟩
  refine hok.vouched r hr hmem orderId ?_
  rwa [Vouches, hsame, hvalue] at hvouch

theorem allowed_topic {t : EventType} {key : String} {envelope : JsVal}
    {hs : List (String × JsVal)} (h : resolveKafkaTopic t ∉ carriers) :
    Allowed trace c (.emit (domainRecord t key envelope hs)) :=
  allowed_of_topic h

end Records

section Calls

variable {h : RetriedHandler} {proc : Process} {headers : List (String × RawHeader)} {r : KafkaRecord}
  {w : World Call} {envelope : JsVal}

/-- A message that leads towards fulfilment is about an order that is paid. -/
theorem paid_of_read (hok : SagaOk w) (hr : r ∈ w.log) (htopic : r.topic = h.topic)
    (hcarrier : h.topic ∈ carriers) (hread : h.read r.value = .ok (.accepted envelope))
    (htype : h.topic = paymentEventsTopic →
      envelope.get "eventType" = .str EventType.paymentProcessed.value) {orderId : String}
    (horder : (envelope.get "payload").get "orderId" = .str orderId) : Paid orderId w.trace := by
  have hmem : r.topic ∈ carriers := htopic ▸ hcarrier
  obtain ⟨v, hv, -, hhas⟩ := hok.sealed r hr hmem
  rw [hv] at hread
  obtain rfl := read_sealed hhas hread
  exact hok.vouched r hr hmem orderId ⟨envelope, hv, horder, fun ht => htype (htopic ▸ ht)⟩

/-- What each handler does is allowed when its message was. -/
theorem allowed_handler (hok : SagaOk w) (hr : r ∈ w.log) (htopic : r.topic = h.topic)
    (hread : h.read r.value = .ok (.accepted envelope)) :
    (h.handler proc envelope).Performs (Allowed w.trace (.consume h proc headers r.value)) := by
  have hpaid : h.topic ∈ carriers → (h.topic = paymentEventsTopic →
      envelope.get "eventType" = .str EventType.paymentProcessed.value) → ∀ {orderId : String},
      (envelope.get "payload").get "orderId" = .str orderId → Paid orderId w.trace :=
    fun hcarrier htype => paid_of_read hok hr htopic hcarrier hread htype
  have hobj : ∀ fields, JsVal.obj fields ≠ .undefined := fun _ => nofun
  cases h with
  | orderPaymentEvents | orderStockReleased | orderStockFailed =>
    exact performs_projectStatus fun _ _ => nofun
  | orderNotificationSent =>
    have hmem : r.topic ∈ carriers := by
      rw [htopic]
      decide
    obtain ⟨v, hv, -, hhas⟩ := hok.sealed r hr hmem
    obtain ⟨named, v', hv', horder⟩ := hok.named r hr hmem
    obtain rfl := KafkaValue.value.inj (hv.symm.trans hv')
    rw [hv] at hread
    obtain rfl := read_sealed hhas hread
    refine performs_projectStatus fun criterion hcriterion _ orderId hselected => ?_
    rw [Drivers.eq_byId hcriterion horder, byId_eq_true] at hselected
    subst hselected
    exact hpaid (by decide) (fun ht => absurd ht (by decide)) horder
  | paymentOrderEvents =>
    refine performs_processPayment (fun _ => trivial) (fun _ => trivial)
      (fun key => allowed_topic (by decide)) (fun key reason _ => ?_)
      fun hrules hgateway key => ?_
    · intro _
      refine ⟨sealed_createEventEnvelope _ _ _ _, ⟨_, _, rfl, rfl⟩, fun orderId hv => ?_⟩
      obtain ⟨v, hv, -, htype⟩ := hv
      obtain rfl := (KafkaValue.value.inj hv).symm
      have hfailed : (declined proc (.ofJs envelope) reason).wire.get "eventType" =
          .str EventType.paymentFailed.value := rfl
      exact absurd (JsVal.str.inj (hfailed.symm.trans (htype rfl))) (by decide)
    · intro _
      refine ⟨sealed_createEventEnvelope _ _ _ _, ⟨_, _, rfl, rfl⟩,
        fun orderId hv => .inr ⟨rfl, ?_⟩⟩
      obtain ⟨v, hv, hv', -⟩ := hv
      obtain rfl := (KafkaValue.value.inj hv).symm
      have hnamed : JsVal.str (Payment.OrderCreatedEvent.ofJs envelope).payload.orderId =
          .str orderId :=
        order_of_created (by change ["paymentId", "orderId", "transactionId", "processedAt"].Nodup; decide)
          (hobj _) hv'
      refine ⟨proc, headers, r.value, envelope, rfl, hread, ?_, hrules, hgateway, ?_⟩
      · exact JsVal.str.inj hnamed
      · exact announces_of_envelope rfl rfl hnamed
  | paymentOrderCancelled => exact performs_paymentOrderCancelled envelope
  | stockPaymentEvents =>
    have htype := (parseMessage_eq_accepted.mp hread).2.1.eventType
    have hnodup : ["reservationId", "orderId", "items", "reservedAt"].Nodup := by decide
    refine performs_stockPaymentEvents fun key hkey => ?_
    exact allowed_created hkey hnodup (hobj _) fun orderId hstr =>
      hpaid (by decide) (fun _ => htype) hstr
  | stockOrderCancelled =>
    exact performs_stockOrderCancelled fun key _ => allowed_topic (by decide)
  | notificationStockReserved =>
    have hnodup : ["notificationId", "orderId", "channel", "sentAt"].Nodup := by decide
    refine performs_notificationStockReserved (fun key _ => allowed_topic (by decide))
      fun key hkey => ?_
    exact allowed_created hkey hnodup (hobj _) fun orderId hstr =>
      hpaid (by decide) (fun ht => absurd ht (by decide)) hstr
  | notificationPaymentEvents | notificationOrderCancelled => exact performs_logOrderId envelope

/-- Every call only does what is allowed. -/
theorem allowed_call {c : Call} (hok : SagaOk w) (hready : services.ready w c) :
    c.body.Performs (Allowed w.trace c) := by
  cases c with
  | createOrder proc dto =>
    exact performs_createOrder (fun row hrow => hrow) (fun _ => trivial)
      fun key _ => allowed_topic (by decide)
  | consume h proc headers payload =>
    obtain ⟨r, hr, htopic, rfl, -⟩ := hready
    refine performs_method h (fun op hq => ?_) (fun _ => trivial)
      fun envelope hread => ?_
    · cases op with
      | emit _ | saveOrder _ | updateOrder _ _ => cases hq
      | _ => trivial
    · exact ⟨allowed_handler hok hr htopic hread,
        fun _ _ hkey => allowed_copy hok hr htopic hread hkey, fun _ _ _ _ => allowed_dlq⟩

end Calls

section Runs

variable {ι : Type} [DecidableEq ι]

/-- Nobody owns anything: the logs and the trace only grow. -/
def sagaOwnership : Pool.Ownership (World Call) Call Unit where
  owns _ _ := False
  uses _ _ := False
  same _ _ _ := True
  le w w' := w.trace <+: w'.trace
  safe := SagaOk
  rest _ _ := True
  uses_of_owns _ _ h := h
  same_refl _ _ := trivial
  same_trans _ _ _ _ _ _ := trivial
  le_refl _ := List.prefix_rfl
  le_trans _ _ _ h h' := h.trans h'
  rest_stable _ _ _ _ _ h := h

omit [DecidableEq ι] in
theorem sound_saga : sagaOwnership.Sound services (fun _ _ => True) (fun _ _ => True)
    fun (_ : Pool ι (World Call) Call Op Op.Resp JsThrow JsVal) (_ : PoolAct ι Call Op JsThrow) =>
      True where
  env w w' hok henv := by
    obtain ⟨r, htopic, rfl⟩ := henv
    exact ⟨List.prefix_rfl, fun _ => trivial, SagaOk.inject hok htopic⟩
  start s i c _ hready hok _ := by
    have hstable : ∀ w w', SagaOk w ∧ s.world.trace <+: w.trace →
        (sagaOwnership.contract services (fun _ _ => True) (fun _ _ => True) c).rely w w' →
        SagaOk w' ∧ s.world.trace <+: w'.trace := fun w w' h hr => ⟨hr.ok.safe, h.2.trans hr.le⟩
    have hbody := (allowed_call hok.safe hready).along hstable (fun w op hop _ h => ?_)
      ⟨hok.safe, List.prefix_rfl⟩
    · exact hbody.imp fun _ _ _ _ _ => trivial
    · have hnext : SagaOk (w.exec c op).2 := h.1.exec h.2 hop
      have hle : w.trace <+: (w.exec c op).2.trace := List.prefix_append _ _
      exact ⟨⟨hle, fun _ _ => trivial, hnext, fun _ _ _ => trivial⟩, hnext, h.2.trans hle⟩
  free _ _ _ _ _ _ _ _ _ := ⟨fun h => h.elim, fun h => h.elim⟩
  settle _ _ _ _ _ _ _ := trivial
  reject _ _ _ _ _ _ _ _ := trivial
  crash _ _ _ _ _ _ _ _ _ := trivial

theorem sagaOk_empty : SagaOk World.empty where
  ordered pre _ _ _ _ h := by cases pre <;> cases h
  logged _ h := absurd h List.not_mem_nil
  completed _ _ h := by cases h
  sealed _ h := absurd h List.not_mem_nil
  named _ h := absurd h List.not_mem_nil
  vouched _ h := absurd h List.not_mem_nil

variable {ls : List (PoolAct ι Call Op JsThrow)}
  {s : Pool ι (World Call) Call Op Op.Resp JsThrow JsVal}

/-- No order is fulfilled unpaid: whatever reserved its stock, notified of it or
completed it came after its `payment.processed`. -/
theorem fulfilled_after_paid (hrun : Run (Pool.Step services) (Pool.idle World.empty) ls s)
    (orderId : String) :
    (∀ r ∈ s.world.log, Fulfils orderId (.emit r) → ∃ c, (c, Op.emit r) ∈ s.world.trace) ∧
    (∀ row, s.world.orders.find? orderId = some row → row.status = .completed →
      ∃ c op, (c, op) ∈ s.world.trace ∧ Fulfils orderId op) ∧
    ∀ pre c op post, s.world.trace = pre ++ (c, op) :: post → Fulfils orderId op →
      Paid orderId pre := by
  have hok : SagaOk s.world := sound_saga.safe hrun sagaOk_empty fun _ => trivial
  refine ⟨fun r hr hf => hok.logged r hr ?_, hok.completed orderId, ?_⟩
  · rcases hf.1 with ht | ht <;> rw [ht] <;> decide
  · exact fun pre c op post => hok.ordered pre c op post orderId

section Samples

/-- The delivery of the last record in the log to a consumer. -/
def deliverLast (h : RetriedHandler) (w : World Call) : Call :=
  match w.log.getLast? with
  | some r => .consume h (.still .second .half) r.headers r.value
  | none => .consume h (.still .second .half) [] (.value .undefined)

/-- The state after each consumer has taken what the one before it has sent. -/
def passedOn : List RetriedHandler → World Call → World Call
  | [], w => w
  | h :: hs, w => passedOn hs (services.called (deliverLast h w) w)

/-- Each consumer finds its message at the end of the log. -/
def Passable : List RetriedHandler → World Call → Prop
  | [], _ => True
  | h :: hs, w => w.log.getLast?.map KafkaRecord.topic = some h.topic ∧
      Passable hs (services.called (deliverLast h w) w)

theorem passedOn_run {hs : List RetriedHandler} {w : World Call} (h : Passable hs w) : ∃ ls,
    Run (Pool.Step services) (Pool.idle w : Pool Unit (World Call) Call Op Op.Resp JsThrow JsVal) ls
      (Pool.idle (passedOn hs w)) := by
  induction hs generalizing w with
  | nil => exact ⟨[], .nil⟩
  | cons handler hs ih =>
    obtain ⟨htopic, hrest⟩ := h
    obtain ⟨r, hr, ht⟩ := Option.map_eq_some_iff.mp htopic
    have hready : services.ready w (deliverLast handler w) := by
      rw [deliverLast, hr]
      exact ⟨r, List.mem_of_getLast? hr, ht, rfl, rfl⟩
    obtain ⟨ls, hfirst⟩ := Pool.run_called services () hready
    obtain ⟨ms, hmore⟩ := ih hrest
    exact ⟨ls ++ ms, hfirst.trans hmore⟩

/-- The consumers of the happy path. -/
def happyPath : List RetriedHandler :=
  [.paymentOrderEvents, .stockPaymentEvents, .notificationStockReserved, .orderNotificationSent]

/-- The happy path completes its order, paid before. -/
theorem fulfilled_after_paid_happy : ∃ ls,
    ∃ s : Pool Unit (World Call) Call Op Op.Resp JsThrow JsVal,
      Run (Pool.Step services) (Pool.idle World.empty) ls s ∧
      (s.world.orders.find? Uuid.first.val).map (fun row => row.status) = some .completed ∧
      ((∀ r ∈ s.world.log, Fulfils Uuid.first.val (.emit r) →
          ∃ c, (c, Op.emit r) ∈ s.world.trace) ∧
        (∀ row, s.world.orders.find? Uuid.first.val = some row → row.status = .completed →
          ∃ c op, (c, op) ∈ s.world.trace ∧ Fulfils Uuid.first.val op) ∧
        ∀ pre c op post, s.world.trace = pre ++ (c, op) :: post → Fulfils Uuid.first.val op →
          Paid Uuid.first.val pre) := by
  have hpassable : Passable happyPath (services.called Orders.sampleRequest World.empty) := by
    refine ⟨?_, ?_, ?_, ?_, trivial⟩ <;> decide +kernel
  have hdone : ((passedOn happyPath (services.called Orders.sampleRequest World.empty)).orders.find?
      Uuid.first.val).map (fun row => row.status) = some .completed := by decide +kernel
  have hready : services.ready World.empty Orders.sampleRequest := trivial
  obtain ⟨ls, hfirst⟩ := Pool.run_called services () hready
  obtain ⟨ms, hmore⟩ := passedOn_run hpassable
  exact ⟨_, _, hfirst.trans hmore, hdone, fulfilled_after_paid (hfirst.trans hmore) _⟩

end Samples

end Runs

end EventFlow.Saga
