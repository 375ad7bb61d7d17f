import EventFlow.Retry.Reply
import EventFlow.Services.System

namespace EventFlow.Retry

open Js Shared Services KafkaRetryExecutor

/-- An error whose text can be read. -/
def Textual (e : JsThrow) : Prop := ∃ text, errorText e = .ok text

theorem textual_error (name message : String) : Textual (.error name message) := ⟨message, rfl⟩

section Text

variable {e : JsThrow}

theorem textual_prop {v : JsVal} {k : String} (h : v.prop k = .error e) : Textual e := by
  unfold JsVal.prop at h
  split_ifs at h
  obtain rfl := Except.error.inj h
  exact textual_error _ _

theorem textual_destructure {v : JsVal} {k name : String} (h : v.destructure k name = .error e) :
    Textual e := by
  unfold JsVal.destructure at h
  split_ifs at h
  obtain rfl := Except.error.inj h
  exact textual_error _ _

theorem textual_logLine {vs : List JsVal} (h : JsVal.logLine vs = .error e) : Textual e := by
  obtain ⟨name, message, rfl⟩ := JsVal.error_of_logLine h
  exact textual_error _ _

theorem textual_toText {v : JsVal} (h : v.toText = .error e) : Textual e := by
  obtain ⟨name, message, rfl⟩ := JsVal.error_of_toText v h
  exact textual_error _ _

theorem textual_partitionKey {envelope : JsVal} (h : resolvePartitionKey envelope = .error e) :
    Textual e := by
  unfold resolvePartitionKey getPartitionKeyFromPayload at h
  split_ifs at h
  · obtain rfl := Except.error.inj h
    exact textual_error _ _
  · split at h
    · split_ifs at h
      obtain rfl := Except.error.inj h
      exact textual_error _ _
    · obtain rfl := Except.error.inj h
      exact textual_error _ _

end Text

section Throws

variable {proc : Process} {envelope : JsVal}

theorem throws_prop (v : JsVal) (k : String) :
    (Async.ofExcept (v.prop k) : Promise JsVal).Throws Textual :=
  Async.throws_ofExcept fun _ => textual_prop

theorem throws_logLine (vs : List JsVal) :
    (Async.ofExcept (JsVal.logLine vs) : Promise Unit).Throws Textual :=
  Async.throws_ofExcept fun _ => textual_logLine

theorem throws_publish (t : EventType) (envelope : JsVal) (headers : List (String × JsVal)) :
    (eventPublisher.publish t envelope headers).Throws Textual := by
  refine Async.Throws.bind (Async.throws_ofExcept fun _ => textual_partitionKey) fun key => ?_
  exact Async.throws_perform _

theorem throws_logOrderId (envelope : JsVal) : (Notification.logOrderId envelope).Throws Textual :=
  Async.Throws.bind (throws_prop _ _) fun _ => throws_logLine _

theorem throws_projectStatus (status : OrderStatus) (logged : String) (envelope : JsVal) :
    (Orders.projectStatus proc status logged envelope).Throws Textual := by
  refine Async.Throws.bind (throws_prop _ _) fun orderId => ?_
  have hselect : (Async.ofExcept (proc.drivers.criterion orderId) : Promise Criterion).Throws
      Textual := Async.throws_ofExcept fun e he => by
    obtain ⟨name, message, rfl⟩ := proc.drivers.criterion_error orderId e he
    exact textual_error _ _
  have haffected : (Orders.updateOrder proc orderId status).Throws Textual :=
    hselect.bind fun criterion => Async.throws_perform _
  have hupdate : (Orders.updateOrderStatus proc orderId status).Throws Textual := by
    refine haffected.bind fun affected => ?_
    split_ifs
    · refine Async.Throws.bind (Async.throws_ofExcept fun _ => textual_toText) fun text => ?_
      exact textual_error _ _
    · trivial
  exact hupdate.bind fun _ => throws_logLine _

theorem throws_processPayment (event : Payment.OrderCreatedEvent) :
    (Payment.processPayment proc event).Throws Textual := by
  have hfail : ∀ reason causationId, (Payment.failPayment proc event (proc.uuid 0).val reason
      causationId).Throws Textual := fun reason causationId =>
    (throws_publish _ _ _).bind fun _ => Async.throws_perform _
  have hdelay : ∀ result, (Payment.simulateDelay result).Throws Textual := by
    intro result
    unfold Payment.simulateDelay
    cases result.simulateDelayMs with
    | none => trivial
    | some ms =>
      dsimp only
      split_ifs
      · exact Async.throws_perform _
      · trivial
  refine Async.Throws.bind ((throws_publish _ _ _).bind fun _ => trivial) fun requested => ?_
  dsimp only
  split_ifs
  · refine (hdelay _).bind fun _ => ?_
    cases (Payment.simulatePaymentGateway proc { paymentId := some (proc.uuid 0).val }).outcome with
    | failed => exact hfail _ _
    | approved => exact (throws_publish _ _ _).bind fun _ => Async.throws_perform _
  · exact hfail _ _

/-- The libraries throw errors with a text. -/
theorem textual_refusal {drivers : Drivers} {op : Op} {e : JsThrow}
    (h : drivers.refusal op = some e) : Textual e := by
  cases op with
  | emit record =>
    obtain ⟨name, message, rfl⟩ := error_of_refusedHeader h
    exact textual_error _ _
  | saveOrder row =>
    obtain ⟨name, message, rfl⟩ := drivers.refuses_error row e h
    exact textual_error _ _
  | _ => cases h

/-- What a handler throws can be logged and wrapped into a failure record. -/
theorem throws_handler (h : RetriedHandler) (proc : Process) (envelope : JsVal) :
    (h.handler proc envelope).Throws Textual := by
  have hdestructure : (Async.ofExcept ((envelope.get "payload").destructure "orderId"
      "event.payload") : Promise JsVal).Throws Textual :=
    Async.throws_ofExcept fun _ => textual_destructure
  cases h with
  | orderPaymentEvents | orderStockReleased | orderStockFailed | orderNotificationSent =>
    exact throws_projectStatus _ _ _
  | paymentOrderEvents => exact throws_processPayment _
  | paymentOrderCancelled =>
    exact (throws_prop _ _).bind fun _ => (throws_prop _ _).bind fun _ => throws_logLine _
  | stockPaymentEvents =>
    refine (throws_logLine _).bind fun _ => hdestructure.bind fun _ => ?_
    exact (throws_publish _ _ _).bind fun _ => throws_logLine _
  | stockOrderCancelled =>
    exact hdestructure.bind fun _ => (throws_publish _ _ _).bind fun _ => throws_logLine _
  | notificationStockReserved =>
    refine (throws_logOrderId _).bind fun _ => hdestructure.bind fun _ => ?_
    refine (throws_publish _ _ _).bind fun _ => (throws_publish _ _ _).bind fun _ => ?_
    exact throws_logLine _
  | notificationPaymentEvents | notificationOrderCancelled => exact throws_logOrderId _

end Throws

/-- The envelope has a key to publish under. -/
def Keyed (envelope : JsVal) : Prop := ∃ key, resolvePartitionKey envelope = .ok key

theorem keyed_iff {envelope : JsVal} : Keyed envelope ↔
    ∃ key, (envelope.get "payload").get "orderId" = .str key ∧ key ≠ "" :=
  resolvePartitionKey_isOk_iff

/-- The payload can be read, and a log line can hold the fields. -/
def Readable (fields : List String) (envelope : JsVal) : Prop :=
  (envelope.get "payload").isNullish = false ∧
    ∀ field ∈ fields, ((envelope.get "payload").get field).printable = true

theorem Keyed.readable {envelope : JsVal} (h : Keyed envelope) : Readable ["orderId"] envelope := by
  obtain ⟨key, hkey, -⟩ := keyed_iff.mp h
  have hne : (envelope.get "payload").get "orderId" ≠ .undefined := by
    rw [hkey]
    exact nofun
  have hprint : ((envelope.get "payload").get "orderId").printable = true := by
    rw [hkey]
    rfl
  exact ⟨JsVal.isNullish_of_get hne, by simpa using hprint⟩

/-- An update by an id finds a row. -/
def Selects (drivers : Drivers) (orders : OrdersTable) (id : JsVal) : Prop :=
  ∃ criterion, drivers.criterion id = .ok criterion ∧
    ∃ key row, criterion key = true ∧ orders.find? key = some row

/-- The order of the payload has a row, and a log line can hold its id and one more field. -/
def Projects (drivers : Drivers) (logged : String) (orders : OrdersTable) (envelope : JsVal) :
    Prop :=
  Readable ["orderId", logged] envelope ∧
    Selects drivers orders ((envelope.get "payload").get "orderId")

/-- A handler can announce an event: there is a key to publish it under, and the client can
encode the id of the message as its cause. -/
def Announces (drivers : Drivers) (envelope : JsVal) : Prop :=
  Keyed envelope ∧ ((envelope.get "eventId").truthy = true →
    (drivers.header (envelope.get "eventId")).isOk = true)

/-- When a handler gets to its end, if every operation settles well. -/
def Completes (h : RetriedHandler) (drivers : Drivers) (orders : OrdersTable)
    (envelope : JsVal) : Prop :=
  match h with
  | .orderPaymentEvents | .orderStockReleased | .orderStockFailed =>
    Projects drivers "reason" orders envelope
  | .orderNotificationSent => Projects drivers "channel" orders envelope
  | .paymentOrderEvents => Keyed envelope
  | .paymentOrderCancelled => Readable ["orderId", "reason"] envelope
  | .stockPaymentEvents | .stockOrderCancelled | .notificationStockReserved =>
    Announces drivers envelope
  | .notificationPaymentEvents | .notificationOrderCancelled => Readable ["orderId"] envelope

section Resolves

variable {C : Type} {c : C} {w : World C} {drivers : Drivers} {proc : Process} {envelope : JsVal}
  {α : Type}

theorem resolves_perform_bind {op : Op} {f : op.Resp → Promise α}
    (hop : drivers.refusal op = none) :
    ((Async.perform op).bind f).Resolves (World.settle c drivers.refusal) w ↔
      (f (w.exec c op).1).Resolves (World.settle c drivers.refusal) (w.exec c op).2 := by
  unfold Async.Resolves
  rw [run_bind_ok (run_perform_ok hop)]
  rfl

theorem resolves_perform {op : Op} (hop : drivers.refusal op = none) :
    (Async.perform op : Promise op.Resp).Resolves (World.settle c drivers.refusal) w :=
  ⟨_, _, run_perform_ok hop⟩

theorem resolves_logLine {vs : List JsVal} :
    (Async.ofExcept (JsVal.logLine vs) : Promise Unit).Resolves (World.settle c drivers.refusal) w ↔
      ∀ v ∈ vs, v.printable = true :=
  Async.resolves_ofExcept.trans JsVal.exists_logLine_eq_ok

theorem resolves_logLine_bind {vs : List JsVal} {f : Unit → Promise α} :
    ((Async.ofExcept (JsVal.logLine vs)).bind f).Resolves (World.settle c drivers.refusal) w ↔
      (∀ v ∈ vs, v.printable = true) ∧ (f ()).Resolves (World.settle c drivers.refusal) w := by
  rw [Async.resolves_ofExcept_bind, ← JsVal.logLine_eq_ok]
  constructor
  · intro h
    obtain ⟨_, hlog, hf⟩ := h
    exact ⟨hlog, hf⟩
  · intro h
    exact ⟨(), h.1, h.2⟩

/-- A publish gets through exactly with a key, the order id of its payload, and headers that
the client can encode. -/
theorem resolves_publish_bind {t : EventType} {orderId : JsVal} {f : Unit → Promise α}
    (hid : (envelope.get "payload").get "orderId" = orderId) :
    ((eventPublisher.publish t envelope []).bind f).Resolves (World.settle c drivers.refusal) w ↔
      ∃ key, (orderId = .str key ∧ key ≠ "") ∧ drivers.Encodes (envelopeToKafkaHeaders envelope) ∧
        (f ()).Resolves (World.settle c drivers.refusal)
          (w.after c [.emit (domainRecord t key envelope [])]) := by
  have hbind : (eventPublisher.publish t envelope []).bind f =
      (Async.ofExcept (resolvePartitionKey envelope)).bind fun key =>
        (emitKafkaEvent (resolveKafkaTopic t) (.str key) envelope
          (spread (envelopeToKafkaHeaders envelope) [])).bind f := Async.bind_assoc _ _ _
  rw [hbind, Async.resolves_ofExcept_bind]
  refine exists_congr fun key => ?_
  have hkey : resolvePartitionKey envelope = .ok key ↔ orderId = .str key ∧ key ≠ "" := by
    rw [← hid]
    exact getPartitionKey_eq_ok
  rw [hkey, ← refusedHeader_eq_none_iff]
  refine and_congr_right fun _ => ?_
  have hop : drivers.refusal (.emit (domainRecord t key envelope [])) =
      drivers.refusedHeader (encodeHeaders (envelopeToKafkaHeaders envelope)) := rfl
  cases hsent : drivers.refusedHeader (encodeHeaders (envelopeToKafkaHeaders envelope)) with
  | none =>
    rw [hsent] at hop
    simp only [true_and]
    exact resolves_perform_bind hop
  | some e =>
    rw [hsent] at hop
    refine iff_of_false ?_ (by simp)
    exact Async.not_resolves (run_bind_error (run_perform_error hop))

theorem resolves_logOrderId :
    (Notification.logOrderId envelope).Resolves (World.settle c drivers.refusal) w ↔
      Readable ["orderId"] envelope := by
  show (Async.bind (Async.ofExcept _) _).Resolves _ w ↔ _
  rw [Async.resolves_ofExcept_bind]
  simp only [JsVal.prop_eq_ok, resolves_logLine, Readable, and_assoc, exists_and_left,
    exists_eq_left', List.forall_mem_singleton]

/-- An update goes through exactly when it finds a row. -/
theorem resolves_updateOrderStatus {id : JsVal} {status : OrderStatus} :
    (Orders.updateOrderStatus proc id status).Resolves (World.settle c proc.drivers.refusal) w ↔
      Selects proc.drivers w.orders id := by
  have hbind : Orders.updateOrderStatus proc id status =
      (Async.ofExcept (proc.drivers.criterion id)).bind fun criterion =>
        (Async.perform (Op.updateOrder criterion status)).bind fun affected =>
          if affected = (0 : ℕ) then (Async.ofExcept id.toText).bind fun text =>
            .reject (.error "NotFoundException" ("Order " ++ text ++ " not found"))
          else .resolve () := Async.bind_assoc _ _ _
  rw [hbind, Async.resolves_ofExcept_bind]
  refine exists_congr fun criterion => and_congr_right fun _ => ?_
  refine (resolves_perform_bind rfl).trans ?_
  rw [← World.affected_updateOrder c w criterion status rfl]
  split_ifs with hzero
  · refine iff_of_false ?_ fun h => h hzero
    rw [Async.resolves_ofExcept_bind]
    intro h
    obtain ⟨text, -, h⟩ := h
    exact Async.not_resolves_reject _ h
  · exact iff_of_true ((Async.resolves_resolve _).mpr trivial) hzero

theorem resolves_projectStatus {status : OrderStatus} {logged : String} :
    (Orders.projectStatus proc status logged envelope).Resolves
      (World.settle c proc.drivers.refusal) w ↔
        Projects proc.drivers logged w.orders envelope := by
  have hlog : ∀ id : JsVal, ((Orders.updateOrderStatus proc id status).bind fun _ => Async.ofExcept
      (JsVal.logLine [id, (envelope.get "payload").get logged])).Resolves
        (World.settle c proc.drivers.refusal) w ↔ (id.printable = true ∧
          ((envelope.get "payload").get logged).printable = true) ∧
            Selects proc.drivers w.orders id := by
    intro id
    rw [Async.resolves_bind]
    simp only [resolves_logLine, List.mem_cons, List.not_mem_nil, or_false, forall_eq_or_imp,
      forall_eq]
    constructor
    · intro h
      obtain ⟨_, w', hrun, hlogged⟩ := h
      exact ⟨hlogged, resolves_updateOrderStatus.mp ⟨_, w', hrun⟩⟩
    · intro h
      obtain ⟨hlogged, hrow⟩ := h
      obtain ⟨u, w', hrun⟩ := resolves_updateOrderStatus.mpr hrow
      exact ⟨u, w', hrun, hlogged⟩
  refine Async.resolves_ofExcept_bind.trans ?_
  simp only [Async.bind_eq, hlog, JsVal.prop_eq_ok, Projects, Readable, List.mem_cons,
    List.not_mem_nil, or_false, forall_eq_or_imp, forall_eq]
  constructor
  · intro h
    obtain ⟨id, ⟨hpayload, rfl⟩, hlogged, hrow⟩ := h
    exact ⟨⟨hpayload, hlogged⟩, hrow⟩
  · intro h
    obtain ⟨⟨hpayload, hlogged⟩, hrow⟩ := h
    exact ⟨_, ⟨hpayload, rfl⟩, hlogged, hrow⟩

/-- The pipeline of payment-service needs an order id, and nothing else. -/
theorem resolves_processPayment {event : Payment.OrderCreatedEvent} :
    (Payment.processPayment proc event).Resolves (World.settle c proc.drivers.refusal) w ↔
      event.payload.orderId ≠ "" := by
  have hassoc : ∀ f : JsVal → Promise Unit,
      (Payment.publishPaymentRequested proc event (proc.uuid 0).val).bind f =
        (eventPublisher.publish .paymentRequested
          (Payment.requestedEnvelope proc event (proc.uuid 0).val) []).bind fun _ =>
            f (Payment.requestedEnvelope proc event (proc.uuid 0).val) :=
    fun f => Async.bind_assoc _ _ _
  have hstr : ∀ text, (proc.drivers.header (.str text)).isOk = true := fun text => by
    rw [proc.drivers.header_str]
    rfl
  unfold Payment.processPayment
  rw [Async.bind_eq, hassoc]
  refine (resolves_publish_bind rfl).trans ?_
  constructor
  · intro h
    obtain ⟨key, ⟨hkey, hne⟩, -⟩ := h
    rw [JsVal.str.inj hkey]
    exact hne
  · intro hne
    refine ⟨_, ⟨rfl, hne⟩, (encodes_created ⟨_, rfl⟩).mpr ⟨hstr _, fun _ => hstr _⟩, ?_⟩
    have hrecord : ∀ row w', (Payment.recordProcessed row).Resolves
        (World.settle c proc.drivers.refusal) w' := fun row w' => resolves_perform rfl
    have hfail : ∀ reason w', (Payment.failPayment proc event (proc.uuid 0).val reason
        ((Payment.requestedEnvelope proc event (proc.uuid 0).val).get "eventId")).Resolves
          (World.settle c proc.drivers.refusal) w' := fun reason w' =>
      (resolves_publish_bind rfl).mpr ⟨_, ⟨rfl, hne⟩,
        (encodes_created ⟨_, rfl⟩).mpr ⟨hstr _, fun _ => hstr _⟩, hrecord _ _⟩
    have happrove : ∀ w', (Payment.approvePayment proc event (proc.uuid 0).val
        ((Payment.requestedEnvelope proc event (proc.uuid 0).val).get "eventId")).Resolves
          (World.settle c proc.drivers.refusal) w' := fun w' =>
      (resolves_publish_bind rfl).mpr ⟨_, ⟨rfl, hne⟩,
        (encodes_created ⟨_, rfl⟩).mpr ⟨hstr _, fun _ => hstr _⟩, hrecord _ _⟩
    have hdelay : ∀ result w', (Payment.simulateDelay result).Resolves
        (World.settle c proc.drivers.refusal) w' := by
      intro result w'
      unfold Payment.simulateDelay
      cases result.simulateDelayMs with
      | none => exact (Async.resolves_resolve _).mpr trivial
      | some ms =>
        dsimp only
        split_ifs
        · exact resolves_perform rfl
        · exact (Async.resolves_resolve _).mpr trivial
    dsimp only
    split_ifs
    · obtain ⟨u, w', hrun⟩ := hdelay (Payment.simulatePaymentGateway proc
        { paymentId := some (proc.uuid 0).val }) (w.after c [.emit (domainRecord .paymentRequested
          event.payload.orderId (Payment.requestedEnvelope proc event (proc.uuid 0).val) [])])
      refine Async.resolves_bind.mpr ⟨u, w', hrun, ?_⟩
      cases (Payment.simulatePaymentGateway proc
          { paymentId := some (proc.uuid 0).val }).outcome with
      | failed => exact hfail _ _
      | approved => exact happrove _
    · exact hfail _ _

/-- A log line of the order id after a publish takes nothing more. -/
theorem resolves_publish_log {t : EventType} {orderId : JsVal}
    (hid : (envelope.get "payload").get "orderId" = orderId) :
    ((eventPublisher.publish t envelope []).bind fun _ => Async.ofExcept
      (JsVal.logLine [orderId])).Resolves (World.settle c drivers.refusal) w ↔
        (∃ key, orderId = .str key ∧ key ≠ "") ∧
          drivers.Encodes (envelopeToKafkaHeaders envelope) := by
  rw [resolves_publish_bind hid]
  constructor
  · intro h
    obtain ⟨key, hkey, hencodes, -⟩ := h
    exact ⟨⟨key, hkey⟩, hencodes⟩
  · intro h
    obtain ⟨⟨key, hkey⟩, hencodes⟩ := h
    refine ⟨key, hkey, hencodes, resolves_logLine.mpr fun v hv => ?_⟩
    rw [List.mem_singleton.mp hv, hkey.1]
    rfl

/-- An event that carries the order id of a message and cites the message can be sent when
that is announceable. -/
theorem resolves_announce {t : EventType} {drawnId : Uuid} {drawnTime : IsoTimestamp}
    {params : CreateEventEnvelopeParams} (htype : ∃ text, params.eventType = .str text)
    (horder : params.payload.get "orderId" = params.correlationId) :
    ((eventPublisher.publish t (createEventEnvelope drawnId drawnTime params) []).bind fun _ =>
      Async.ofExcept (JsVal.logLine [params.correlationId])).Resolves
        (World.settle c drivers.refusal) w ↔
          (∃ key, params.correlationId = .str key ∧ key ≠ "") ∧
            (params.causationId.truthy = true →
              (drivers.header params.causationId).isOk = true) := by
  have hid : ((createEventEnvelope drawnId drawnTime params).get "payload").get "orderId" =
      params.correlationId := horder
  rw [resolves_publish_log hid, encodes_created htype]
  refine and_congr_right fun hkey => and_iff_right ?_
  obtain ⟨key, hkey, -⟩ := hkey
  rw [hkey, drivers.header_str]
  rfl

/-- What needs a key and a citable message needs to know nothing else of the payload. -/
theorem resolves_destructure_bind {name : String} {f : JsVal → Promise α}
    (hf : ∀ orderId, (f orderId).Resolves (World.settle c drivers.refusal) w ↔
      (∃ key, orderId = .str key ∧ key ≠ "") ∧ ((envelope.get "eventId").truthy = true →
        (drivers.header (envelope.get "eventId")).isOk = true)) :
    ((Async.ofExcept ((envelope.get "payload").destructure "orderId" name)).bind f).Resolves
      (World.settle c drivers.refusal) w ↔ Announces drivers envelope := by
  rw [Async.resolves_ofExcept_bind]
  simp only [hf, JsVal.destructure_eq_ok]
  constructor
  · intro h
    obtain ⟨orderId, ⟨-, rfl⟩, hkey, hcites⟩ := h
    exact ⟨keyed_iff.mpr hkey, hcites⟩
  · intro h
    obtain ⟨hkey, hcites⟩ := h
    exact ⟨_, ⟨hkey.readable.1, rfl⟩, keyed_iff.mp hkey, hcites⟩

theorem resolves_handleStockReserved :
    (Notification.handleStockReserved proc envelope).Resolves
      (World.settle c proc.drivers.refusal) w ↔ Announces proc.drivers envelope := by
  refine resolves_destructure_bind fun orderId => ?_
  have hid : ((Notification.sendEnvelope proc orderId (envelope.get "eventId")).get
      "payload").get "orderId" = orderId := rfl
  refine (resolves_publish_bind hid).trans ?_
  have hstr : ∀ text, (proc.drivers.header (.str text)).isOk = true := fun text => by
    rw [proc.drivers.header_str]
    rfl
  constructor
  · intro h
    obtain ⟨key, hkey, hencodes, -⟩ := h
    exact ⟨⟨key, hkey⟩, ((encodes_created ⟨_, rfl⟩).mp hencodes).2⟩
  · intro h
    obtain ⟨⟨key, rfl, hne⟩, hcites⟩ := h
    refine ⟨key, ⟨rfl, hne⟩, (encodes_created ⟨_, rfl⟩).mpr ⟨hstr _, hcites⟩, ?_⟩
    -- the second event cites the first, whose id is a text
    exact (resolves_announce ⟨_, rfl⟩ rfl).mpr ⟨⟨key, rfl, hne⟩, fun _ => hstr _⟩

/-- Each handler gets to its end on the messages it is made for, and on no others. -/
theorem resolves_handler (h : RetriedHandler) :
    (h.handler proc envelope).Resolves (World.settle c proc.drivers.refusal) w ↔
      Completes h proc.drivers w.orders envelope := by
  cases h with
  | orderPaymentEvents | orderStockReleased | orderStockFailed | orderNotificationSent =>
    exact resolves_projectStatus
  | paymentOrderEvents =>
    refine resolves_processPayment.trans ?_
    show ((envelope.get "payload").get "orderId").asStr ≠ "" ↔ Keyed envelope
    rw [keyed_iff]
    cases (envelope.get "payload").get "orderId" <;> simp [JsVal.asStr]
  | paymentOrderCancelled =>
    refine Async.resolves_ofExcept_bind.trans ?_
    simp only [Async.bind_eq, Async.resolves_ofExcept_bind, resolves_logLine, JsVal.prop_eq_ok]
    constructor
    · intro h
      obtain ⟨orderId, ⟨hpayload, rfl⟩, reason, ⟨-, rfl⟩, hlog⟩ := h
      exact ⟨hpayload, by simpa using hlog⟩
    · intro h
      obtain ⟨hpayload, hlog⟩ := h
      exact ⟨_, ⟨hpayload, rfl⟩, _, ⟨hpayload, rfl⟩, by simpa using hlog⟩
  | stockPaymentEvents =>
    refine resolves_logLine_bind.trans ?_
    have hrest : (Stock.handlePaymentProcessed proc envelope).Resolves
        (World.settle c proc.drivers.refusal) w ↔ Announces proc.drivers envelope :=
      resolves_destructure_bind fun orderId => resolves_announce ⟨_, rfl⟩ rfl
    show _ ∧ _ ↔ Announces proc.drivers envelope
    rw [hrest, and_iff_right_iff_imp]
    intro hannounces
    simpa using hannounces.1.readable.2
  | stockOrderCancelled =>
    exact resolves_destructure_bind fun orderId => resolves_announce ⟨_, rfl⟩ rfl
  | notificationStockReserved =>
    refine Async.resolves_bind.trans ?_
    simp only [resolves_handleStockReserved]
    constructor
    · intro h
      obtain ⟨-, -, -, hannounces⟩ := h
      exact hannounces
    · intro hannounces
      obtain ⟨u, w', hrun⟩ := resolves_logOrderId.mpr hannounces.1.readable
      exact ⟨u, w', hrun, hannounces⟩
  | notificationPaymentEvents | notificationOrderCancelled => exact resolves_logOrderId

end Resolves

/-- The records on one topic. -/
def onTopic {C : Type} (topic : String) (w : World C) : List KafkaRecord :=
  w.log.filter fun r => r.topic = topic

section Topics

variable {C : Type} {c : C} {w : World C} {topic : String} {α : Type}

/-- The operation puts nothing on a topic. -/
def Spares (topic : String) (op : Op) : Prop := ∀ r, op = .emit r → r.topic ≠ topic

theorem spares_of_not_emit {op : Op} (h : ∀ r, op ≠ .emit r) : Spares topic op :=
  fun r hr => absurd hr (h r)

theorem spares_emit {r : KafkaRecord} (h : r.topic ≠ topic) : Spares topic (.emit r) := by
  intro r' hr'
  cases hr'
  exact h

theorem onTopic_exec {op : Op} (h : Spares topic op) :
    onTopic topic (w.exec c op).2 = onTopic topic w := by
  unfold onTopic
  by_cases hemit : ∃ r, op = .emit r
  · obtain ⟨r, rfl⟩ := hemit
    have hne : r.topic ≠ topic := h r rfl
    simp [List.filter_append, hne]
  · have hlog : (w.exec c op).2.log = w.log :=
      World.exec_log c w fun r hr => hemit ⟨r, hr⟩
    rw [hlog]

theorem onTopic_after {ops : List Op} (h : ∀ op ∈ ops, Spares topic op) :
    onTopic topic (w.after c ops) = onTopic topic w := by
  induction ops generalizing w with
  | nil => rfl
  | cons op ops ih =>
    have hstep : w.after c (op :: ops) = (w.exec c op).2.after c ops := rfl
    rw [hstep, ih fun op' hop' => h op' (List.mem_cons_of_mem _ hop'),
      onTopic_exec (h op List.mem_cons_self)]

theorem onTopic_emit (r : KafkaRecord) : onTopic topic (w.after c [.emit r]) =
    onTopic topic w ++ if r.topic = topic then [r] else [] := by
  show List.filter _ (w.log ++ [r]) = _
  rw [List.filter_append, onTopic]
  by_cases h : r.topic = topic <;> simp [h]

/-- A run leaves a topic alone that its operations leave alone. -/
theorem onTopic_run {fails : Op → Option JsThrow} {p : Promise α}
    (hp : p.Performs (Spares topic)) :
    onTopic topic (p.run (World.settle c fails) w).2 = onTopic topic w := by
  refine hp.run (I := fun w' => onTopic topic w' = onTopic topic w) (fun w' op hop hw => ?_) rfl
  rw [World.settle]
  cases fails op with
  | some e => exact hw
  | none => exact (onTopic_exec hop).trans hw

/-- No handler publishes on its own topic, or on the companion of it. -/
theorem spares_handler (h : RetriedHandler) (proc : Process) (envelope : JsVal) {topic : String}
    (htopic : topic = h.topic ∨ topic = toDlqTopic h.topic) :
    (h.handler proc envelope).Performs (Spares topic) := by
  have hquiet : ∀ op, quiet op = true → Spares topic op := fun op hop =>
    spares_of_not_emit (not_write_of_quiet hop).1
  have hemit : ∀ (t : EventType), resolveKafkaTopic t ≠ h.topic →
      resolveKafkaTopic t ≠ toDlqTopic h.topic → ∀ key envelope,
      Spares topic (.emit (domainRecord t key envelope [])) := by
    intro t hown hdlq key envelope
    refine spares_emit ?_
    rcases htopic with rfl | rfl
    · exact hown
    · exact hdlq
  cases h with
  | orderPaymentEvents | orderStockReleased | orderStockFailed | orderNotificationSent =>
    exact performs_projectStatus fun id _ => spares_of_not_emit fun _ => nofun
  | paymentOrderEvents =>
    refine performs_processPayment (fun ms => hquiet _ rfl)
      (fun outcome => spares_of_not_emit fun _ => nofun) ?_ ?_ ?_
    · exact fun key => hemit _ (by decide) (by decide) key _
    · exact fun key _ _ => hemit _ (by decide) (by decide) key _
    · exact fun _ _ key => hemit _ (by decide) (by decide) key _
  | paymentOrderCancelled => exact performs_paymentOrderCancelled envelope
  | stockPaymentEvents =>
    exact performs_stockPaymentEvents fun key _ => hemit _ (by decide) (by decide) key _
  | stockOrderCancelled =>
    exact performs_stockOrderCancelled fun key _ => hemit _ (by decide) (by decide) key _
  | notificationStockReserved =>
    refine performs_notificationStockReserved ?_ ?_
    · exact fun key _ => hemit _ (by decide) (by decide) key _
    · exact fun key _ => hemit _ (by decide) (by decide) key _
  | notificationPaymentEvents | notificationOrderCancelled => exact performs_logOrderId envelope

end Topics

end EventFlow.Retry
