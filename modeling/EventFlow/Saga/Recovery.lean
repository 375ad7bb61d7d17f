import EventFlow.Saga.Contract
import EventFlow.Saga.Progress

namespace EventFlow.Saga

open Js Shared Services Async Retry
open Orders (announcedOrder orderCreatedRecord)
open Payment (OrderCreatedEvent requestedEnvelope)

section Rows

/-- Every order that has been announced has its row. -/
structure Placed (w : World Author) : Prop where
  ledger : Ledger w.log
  saved : ∀ a row, (a, Op.saveOrder row) ∈ w.trace → w.orders.find? row.id ≠ none
  announced : ∀ orderId, Backed w.log .orderCreated orderId → w.orders.find? orderId ≠ none

variable {w : World Author} {a : Author} {done : List Op} {op : Op} {r : KafkaRecord}
  {orderId : String}

/-- Rows are never taken away. -/
theorem row_stays (id : String) (hrow : w.orders.find? id ≠ none) :
    (w.exec a op).2.orders.find? id ≠ none := by
  cases op with
  | saveOrder row =>
    rw [World.find?_exec_saveOrder]
    split_ifs
    · exact Option.some_ne_none row
    · exact hrow
  | updateOrder criterion status =>
    rw [World.find?_exec_updateOrder]
    simpa using hrow
  | _ => exact hrow

/-- An `order.created` comes from the request that has saved its order, or is a copy. -/
theorem order_of_turn (hlog : Ledger w.log) (hturn : Turn w a done (.emit r))
    (hr : Routed .orderCreated orderId r) :
    (∃ proc dto, a = .service (.createOrder proc dto) ∧ Op.saveOrder (announcedOrder proc dto) ∈ done ∧
      r = orderCreatedRecord proc dto) ∨
    ∃ r₀ ∈ w.log, Routed .orderCreated orderId r₀ ∧ envelopeOf r = envelopeOf r₀ := by
  have htopic := hr.topic
  cases origin_of_turn hlog hturn with
  | ordered hsaved heq => exact .inl ⟨_, _, rfl, hsaved, heq⟩
  | cancelled _ heq =>
    subst heq
    have hne : resolveKafkaTopic .orderCancelled ≠ resolveKafkaTopic .orderCreated := by decide
    exact absurd htopic hne
  | @announced _ _ _ _ _ _ t _ _ _ hann _ heq =>
    subst heq
    have hne : resolveKafkaTopic t ≠ resolveKafkaTopic .orderCreated := by cases hann <;> decide
    exact absurd htopic hne
  | copied htaken htopic' hkey hvalue =>
    exact .inr ⟨_, htaken.mem, hr.copy htopic'.symm hkey.symm hvalue.symm, envelopeOf_congr hvalue⟩
  | buried _ _ _ _ heq =>
    subst heq
    exact absurd htopic.symm (resolveKafkaTopic_ne_dlq _ _)

/-- An order is announced by the request that has saved it, and by nobody else. -/
theorem backed_turn (hlog : Ledger w.log) (hturn : Turn w a done op)
    (hbacked : Backed (w.exec a op).2.log .orderCreated orderId) :
    Backed w.log .orderCreated orderId ∨
    ∃ proc dto, a = .service (.createOrder proc dto) ∧ (proc.uuid 0).val = orderId ∧
      Op.saveOrder (announcedOrder proc dto) ∈ done ∧ ∃ r, op = .emit r := by
  obtain ⟨r, hr, hrouted⟩ := hbacked
  by_cases hemit : ∃ x, op = .emit x
  · obtain ⟨x, rfl⟩ := hemit
    rcases List.mem_append.mp hr with hold | hnew
    · exact .inl ⟨r, hold, hrouted⟩
    · rw [List.mem_singleton.mp hnew] at hrouted
      rcases order_of_turn hlog hturn hrouted with
        ⟨proc, dto, hrequest, hrow, rfl⟩ | ⟨r₀, hr₀, hrouted₀, -⟩
      · exact .inr ⟨proc, dto, hrequest, JsVal.str.inj hrouted.key, hrow, _, rfl⟩
      · exact .inl ⟨r₀, hr₀, hrouted₀⟩
  · rw [World.exec_log a w fun x heq => hemit ⟨x, heq⟩] at hr
    exact .inl ⟨r, hr, hrouted⟩

theorem placed_turn (hw : Placed w) (hturn : Turn w a done op) : Placed (w.exec a op).2 := by
  have hsaved : ∀ a' row, (a', Op.saveOrder row) ∈ (w.exec a op).2.trace →
      (w.exec a op).2.orders.find? row.id ≠ none := by
    intro a' row hmem
    rcases List.mem_append.mp hmem with hold | hnew
    · exact row_stays row.id (hw.saved a' row hold)
    · obtain ⟨-, rfl⟩ := Prod.mk.inj (List.mem_singleton.mp hnew)
      rw [World.find?_exec_saveOrder, if_pos rfl]
      exact Option.some_ne_none row
  refine ⟨ledger_turn hw.ledger hturn, hsaved, fun orderId hbacked => ?_⟩
  rcases backed_turn hw.ledger hturn hbacked with hold | ⟨proc, dto, -, rfl, hrow, -⟩
  · exact row_stays orderId (hw.announced orderId hold)
  · exact hsaved a _ (List.mem_append_left _ (hturn.recorded _ hrow).trace)

theorem Placed.again (hw : Placed w) (hr : r ∈ w.log) : Placed { w with log := w.log ++ [r] } :=
  ⟨ledger_again hw.ledger hr, hw.saved,
    fun orderId hbacked => hw.announced orderId (backed_again hr hbacked)⟩

theorem placed_empty : Placed World.empty := by
  refine ⟨.nil, fun _ _ hmem => absurd hmem List.not_mem_nil, fun orderId hbacked => ?_⟩
  obtain ⟨r, hr, -⟩ := hbacked
  exact absurd hr List.not_mem_nil

variable {ι : Type} [DecidableEq ι] {ls : List (PoolAct ι Author Op JsThrow)}
  {s : Pool ι (World Author) Author Op Op.Resp JsThrow JsVal}
  {cond : Pool ι (World Author) Author Op Op.Resp JsThrow JsVal → PoolAct ι Author Op JsThrow → Prop}

theorem placed_of_run
    (hrun : RunWhere (Pool.Step eventFlow) cond (Pool.idle World.empty) ls s) : Placed s.world := by
  have hany : ∀ s i a, cond s (.start i a) → True := fun _ _ _ _ => trivial
  exact run_invariant hany (fun _ _ hw hr => hw.again hr)
    (fun _ _ _ _ hw _ hturn => placed_turn hw hturn) placed_empty hrun

/-- What goes back to an order that has been announced is about an order with a row. -/
theorem Placed.row (hw : Placed w) {t : EventType} (ht : EventType.orderCreated ∈ leadsTo t)
    (hbacked : Backed w.log t orderId) : ∃ row, w.orders.find? orderId = some row :=
  Option.ne_none_iff_exists'.mp (hw.announced orderId (hw.ledger.preceded hbacked ht))

end Rows

section Deliveries

variable {ι : Type} [DecidableEq ι]

/-- One slot takes one message after another, each in a process of its own choice, and nothing
goes wrong in it. -/
inductive Delivering (procs : RetriedHandler → Process) (i : ι) : PoolAct ι Author Op JsThrow → Prop
  | start {h headers payload} :
      Delivering procs i (.start i (.service (.consume h (procs h) headers payload)))
  | settled {op} : Delivering procs i (.settled i op)
  | finish : Delivering procs i (.finish i)

/-- Deliveries alone can take an order on, through just these events, to this status; no other
order changes. -/
def Settles (procs : RetriedHandler → Process) (i : ι)
    (s : Pool ι (World Author) Author Op Op.Resp JsThrow JsVal) (orderId : String)
    (ts : List EventType) (status : OrderStatus) : Prop :=
  ∃ ms w, RunWhere (Pool.Step eventFlow) (fun _ => Delivering procs i) s ms { s with world := w } ∧
    eventsOf w.log = eventsOf s.world.log ++ ts.map (fun t => (orderId, t)) ∧
    ∀ id, w.orders.find? id = if id = orderId
      then (s.world.orders.find? id).map fun row => { row with status := status }
      else s.world.orders.find? id

variable {procs : RetriedHandler → Process} {i : ι}
  {s : Pool ι (World Author) Author Op Op.Resp JsThrow JsVal} {h : RetriedHandler}
  {r : KafkaRecord} {v ack : JsVal} {writes : List Op} {orderId : String} {ts l : List EventType}
  {status : OrderStatus}

/-- A free slot takes a message to its end. -/
theorem deliver_run (hi : s.jobs i = none) (hr : r ∈ s.world.log) (htopic : r.topic = h.topic)
    (hread : h.read r.value = .ok (.accepted v))
    (haccepted : Ends (Author.service (.consume h (procs h) r.headers r.value))
      (accepted h (procs h) r.headers v) s.world ack writes) :
    ∃ ms w, RunWhere (Pool.Step eventFlow) (fun _ => Delivering procs i) s ms
        { s with world := w } ∧
      w.log = s.world.log ++ writes.filterMap World.emitted ∧
      w.orders = (s.world.after (Author.service (.consume h (procs h) r.headers r.value))
        writes).orders := by
  let a : Author := .service (.consume h (procs h) r.headers r.value)
  obtain ⟨ops, hrun, hwrites⟩ := ends_method hread haccepted
  have hready : eventFlow.ready s.world a := ⟨r, hr, htopic, rfl, rfl⟩
  have hcall : ∃ ms, RunWhere (Pool.Step eventFlow) (fun _ => Delivering procs i) s ms
      { s with world := ((eventFlow.body a).run (eventFlow.settle a fun _ => none) s.world).2 } :=
    Pool.call_run eventFlow i (fun _ => none) (fun _ _ => nofun) (fun _ _ _ _ _ => .settled)
      (fun _ _ _ => nofun) (fun _ => .finish) hi hready .start
  obtain ⟨ms, hms⟩ := hcall
  have hend : ((eventFlow.body a).run (eventFlow.settle a fun _ => none) s.world).2 =
      s.world.after a ops := congrArg Prod.snd hrun
  rw [hend] at hms
  refine ⟨ms, _, hms, ?_, ?_⟩
  · rw [World.after_log, ← hwrites, emitted_writes]
  · rw [← hwrites]
    exact orders_after rfl ops

theorem eventsOf_append {log rs : List KafkaRecord}
    (hrs : List.Forall₂ (fun t r => Routed t orderId r) ts rs) :
    eventsOf (log ++ rs) = eventsOf log ++ ts.map fun t => (orderId, t) := by
  rw [eventsOf, List.filterMap_append]
  congr 1
  induction hrs with
  | nil => rfl
  | cons hr _ ih => rw [List.filterMap_cons_some (eventOf_routed hr), ih, List.map_cons]

/-- A delivery that only makes events, and what can be done after it. -/
theorem Settles.react (hi : s.jobs i = none) (hr : r ∈ s.world.log) (htopic : r.topic = h.topic)
    (hread : h.read r.value = .ok (.accepted v))
    (haccepted : ∃ ack, Ends (Author.service (.consume h (procs h) r.headers r.value))
      (accepted h (procs h) r.headers v) s.world ack writes)
    (horders : (s.world.after (Author.service (.consume h (procs h) r.headers r.value))
      writes).orders = s.world.orders)
    (hevents : List.Forall₂ (fun t r => Routed t orderId r) l (writes.filterMap World.emitted))
    (hnext : ∀ w : World Author, w.log = s.world.log ++ writes.filterMap World.emitted →
      w.orders = s.world.orders → Settles procs i { s with world := w } orderId ts status) :
    Settles procs i s orderId (l ++ ts) status := by
  obtain ⟨ack, haccepted⟩ := haccepted
  obtain ⟨ms, w, hrun, hlog, hrows⟩ := deliver_run hi hr htopic hread haccepted
  obtain ⟨ms', w', hrun', hlog', hrows'⟩ := hnext w hlog (hrows.trans horders)
  refine ⟨ms ++ ms', w', hrun.trans hrun', ?_, fun id => ?_⟩
  · rw [hlog']
    show eventsOf w.log ++ _ = _
    rw [hlog, eventsOf_append hevents, List.map_append, List.append_assoc]
  · rw [hrows' id]
    show (if id = orderId then Option.map _ (w.orders.find? id) else w.orders.find? id) = _
    rw [hrows.trans horders]

/-- The field that a projection logs besides the order's id. -/
def loggedField : RetriedHandler → String
  | .orderNotificationSent => "channel"
  | _ => "reason"

/-- order-service projects an event that it can read. -/
theorem Settles.project (hi : s.jobs i = none) (hr : r ∈ s.world.log) (htopic : r.topic = h.topic)
    (hread : h.read r.value = .ok (.accepted v)) (hstatus : projectedStatus h = some status)
    (horder : (v.get "payload").get "orderId" = .str orderId)
    (hrow : s.world.orders.find? orderId = some row)
    (hlogged : ((v.get "payload").get (loggedField h)).printable = true) :
    Settles procs i s orderId [] status := by
  let c : Author := .service (.consume h (procs h) r.headers r.value)
  have hproject : ∀ ops, (∀ op ∈ ops, quiet op = true) →
      Ends c (Orders.projectStatus (procs h) status (loggedField h) v) (s.world.after c ops) ()
        [.updateOrder (byId orderId) status] := by
    intro ops hops
    have hsame : (s.world.after c ops).orders = s.world.orders := (World.unchanged_after hops).2.1
    exact ends_projectStatus horder (by rw [hsame]; exact hrow) hlogged
  have haccepted : ∃ ack, Ends c (accepted h (procs h) r.headers v) s.world ack
      [.updateOrder (byId orderId) status] := by
    cases h with
    | orderPaymentEvents | orderStockReleased | orderStockFailed | orderNotificationSent =>
      cases hstatus
      exact ends_accepted nofun nofun hproject
    | _ => cases hstatus
  obtain ⟨ack, haccepted⟩ := haccepted
  obtain ⟨ms, w, hrun, hlog, hrows⟩ := deliver_run hi hr htopic hread haccepted
  refine ⟨ms, w, hrun, ?_, fun id => ?_⟩
  · have hnone : [Op.updateOrder (byId orderId) status].filterMap World.emitted = [] := rfl
    rw [hlog, hnone, List.append_nil, List.map_nil, List.append_nil]
  · rw [hrows]
    by_cases hid : id = orderId
    · subst hid
      rw [if_pos rfl]
      exact (World.find?_exec_updateOrder_byId c s.world id status id).trans (if_pos rfl)
    · rw [if_neg hid]
      exact (World.find?_exec_updateOrder_byId c s.world orderId status id).trans (if_neg hid)

end Deliveries

section Stages

variable {ι : Type} [DecidableEq ι] {procs : RetriedHandler → Process} {i : ι}
  {s : Pool ι (World Author) Author Op Op.Resp JsThrow JsVal} {r : KafkaRecord} {v : JsVal}
  {orderId : String} {row : OrderEntity} {proc : Process}

/-- A sent notification completes its order. -/
theorem settles_sent (hi : s.jobs i = none) (hrow : s.world.orders.find? orderId = some row)
    (horder : (v.get "payload").get "orderId" = .str orderId)
    (hr : domainRecord .notificationSent orderId (announcedSent proc v) [] ∈ s.world.log) :
    Settles procs i s orderId [] .completed := by
  let event : JsVal := announcedSent proc v
  have hsealed : Sealed (domainRecord .notificationSent orderId event []) :=
    sealed_createEventEnvelope _ _ _ _
  have hid : (event.wire.get "payload").get "orderId" = .str orderId := JsVal.get_get_wire_str horder
  have hchannel : (event.wire.get "payload").get "channel" = .str "email" := JsVal.get_get_wire_str rfl
  have hlogged : ((event.wire.get "payload").get "channel").printable = true := by
    rw [hchannel]
    rfl
  exact Settles.project (h := .orderNotificationSent) hi hr rfl (read_extracted hsealed) rfl hid
    hrow hlogged

/-- Reserved stock is notified. -/
theorem settles_reserved (hi : s.jobs i = none) (hrow : s.world.orders.find? orderId = some row)
    (hne : orderId ≠ "") (hr : r ∈ s.world.log) (hrouted : Routed .stockReserved orderId r)
    (hsealed : Sealed r) :
    Settles procs i s orderId [.notificationSend, .notificationSent] .completed := by
  have htopic : r.topic = RetriedHandler.notificationStockReserved.topic := hrouted.topic
  let p : Process := procs .notificationStockReserved
  let v : JsVal := envelopeOf r
  have hsend : resolvePartitionKey (announcedSend p v) = .ok orderId :=
    getPartitionKey_eq_ok.mpr ⟨hrouted.order, hne⟩
  have hsent : resolvePartitionKey (announcedSent p v) = .ok orderId :=
    getPartitionKey_eq_ok.mpr ⟨hrouted.order, hne⟩
  have hposted : Posted [.emit (domainRecord .notificationSend orderId (announcedSend p v) [])]
      .notificationSend (announcedSend p v) := ⟨orderId, hsend, List.mem_cons_self⟩
  have hann : Announced p v [] .notificationStockReserved .notificationSend (announcedSend p v) := .send
  refine Settles.react (h := .notificationStockReserved) hi hr htopic
    (read_extracted hsealed)
    (ends_accepted nofun nofun fun _ _ => ends_notificationStockReserved hrouted.order hne) rfl
    (.cons (routed_announced hann hrouted.order hsend)
      (.cons (routed_announced (.sent hposted) hrouted.order hsent) .nil)) fun w hlog horders => ?_
  have hlast : domainRecord .notificationSent orderId (announcedSent p v) [] ∈ w.log := by
    rw [hlog]
    exact List.mem_append_right _ (List.mem_cons_of_mem _ List.mem_cons_self)
  exact settles_sent hi (by rw [horders]; exact hrow) hrouted.order hlast

/-- A payment that has gone through leads to the end. -/
theorem settles_processed (hi : s.jobs i = none) (hrow : s.world.orders.find? orderId = some row)
    (hne : orderId ≠ "") (hr : r ∈ s.world.log) (hrouted : Routed .paymentProcessed orderId r)
    (hlegible : Legible r) :
    Settles procs i s orderId [.stockReserved, .notificationSend, .notificationSent] .completed := by
  have htopic : r.topic = RetriedHandler.stockPaymentEvents.topic := hrouted.topic
  let p : Process := procs .stockPaymentEvents
  let event : JsVal := reserved p (envelopeOf r)
  have hkey : resolvePartitionKey event = .ok orderId := getPartitionKey_eq_ok.mpr ⟨hrouted.order, hne⟩
  have hann : Announced p (envelopeOf r) [] .stockPaymentEvents .stockReserved event := .reserved
  have hto : Routed .stockReserved orderId (domainRecord .stockReserved orderId event []) :=
    routed_announced hann hrouted.order hkey
  refine Settles.react (h := .stockPaymentEvents) (l := [.stockReserved]) hi hr htopic
    (hlegible _ htopic hrouted.eventType)
    (ends_accepted nofun nofun fun _ _ => ends_stockPaymentEvents hrouted.order hne) rfl
    (.cons hto .nil) fun w hlog horders => ?_
  have hlast : domainRecord .stockReserved orderId event [] ∈ w.log := by
    rw [hlog]
    exact List.mem_append_right _ List.mem_cons_self
  exact settles_reserved hi (by rw [horders]; exact hrow) hne hlast hto
    (sealed_createEventEnvelope _ _ _ _)

/-- A payment that has failed fails its order. -/
theorem settles_failed (hi : s.jobs i = none) (hrow : s.world.orders.find? orderId = some row)
    (hr : r ∈ s.world.log) (hrouted : Routed .paymentFailed orderId r) (hlegible : Legible r) :
    Settles procs i s orderId [] .failed := by
  have htopic : r.topic = RetriedHandler.orderPaymentEvents.topic := hrouted.topic
  have hread : parsePaymentFailedMessage r.value = .ok (.accepted (envelopeOf r)) :=
    hlegible .orderPaymentEvents htopic hrouted.eventType
  obtain ⟨-, -, hpayload, -⟩ := parseMessage_eq_accepted.mp hread
  have hreason := (validateFields_eq_ok.mp hpayload).2 "reason" (by simp)
  obtain ⟨reason, hreason, -⟩ := isNonEmptyString_iff.mp hreason
  have hlogged : (((envelopeOf r).get "payload").get "reason").printable = true := by
    rw [hreason]
    rfl
  exact Settles.project (h := .orderPaymentEvents) hi hr htopic hread rfl hrouted.order hrow
    hlogged

/-- An order that payment-service has not seen is decided by its rules and its gateway. -/
theorem settles_created {event : OrderCreatedEvent} (hi : s.jobs i = none)
    (hrow : s.world.orders.find? orderId = some row) (hne : orderId ≠ "") (hr : r ∈ s.world.log)
    (hrouted : Routed .orderCreated orderId r) (hvalue : r.value = .value v)
    (hread : parseOrderEventsMessage r.value = .ok (.accepted v)) (hevent : event = .ofJs v)
    (hnew : s.world.processed.find? event.eventId = none)
    (hopen : s.world.processed.findOne (fun row => row.orderId = event.payload.orderId ∧
      row.outcome = .approved) = none) :
    (Approves (procs .paymentOrderEvents) event → Settles procs i s orderId [.paymentRequested,
      .paymentProcessed, .stockReserved, .notificationSend, .notificationSent] .completed) ∧
    (¬ Approves (procs .paymentOrderEvents) event → Settles procs i s orderId [.paymentRequested,
      .paymentFailed] .failed) := by
  subst hevent
  let p : Process := procs .paymentOrderEvents
  let event : OrderCreatedEvent := .ofJs v
  let requested : JsVal := requestedEnvelope p event (p.uuid 0).val
  have htopic : r.topic = RetriedHandler.paymentOrderEvents.topic := hrouted.topic
  have horder : (v.get "payload").get "orderId" = .str orderId := by
    rw [← envelopeOf_value hvalue]
    exact hrouted.order
  have hname : event.payload.orderId = orderId := JsVal.asStr_of_eq horder
  have hne' : event.payload.orderId ≠ "" := by rwa [hname]
  have hasked : Announced p v [] .paymentOrderEvents .paymentRequested requested := .requested
  have hrequested : Routed .paymentRequested orderId
      (domainRecord .paymentRequested event.payload.orderId requested []) :=
    routed_announced hasked horder (getPartitionKey_eq_ok.mpr ⟨rfl, hne'⟩)
  have hposted : Posted [.emit (domainRecord .paymentRequested event.payload.orderId requested [])]
      .paymentRequested requested :=
    ⟨_, getPartitionKey_eq_ok.mpr ⟨rfl, hne'⟩, List.mem_cons_self⟩
  constructor
  · intro hyes
    have hann : Announced p v _ .paymentOrderEvents .paymentProcessed (charged p event) :=
      .processed hposted hyes
    have hto : Routed .paymentProcessed orderId
        (domainRecord .paymentProcessed event.payload.orderId (charged p event) []) :=
      routed_announced hann horder (getPartitionKey_eq_ok.mpr ⟨rfl, hne'⟩)
    refine Settles.react (l := [.paymentRequested, .paymentProcessed]) hi hr htopic hread
      (ends_accepted_order rfl hnew hopen fun _ _ => (Payments.ends_processPayment hne').1 hyes) rfl
      (.cons hrequested (.cons hto .nil)) fun w hlog horders => ?_
    have hlast : domainRecord .paymentProcessed event.payload.orderId (charged p event) [] ∈ w.log := by
      rw [hlog]
      exact List.mem_append_right _ (List.mem_cons_of_mem _ List.mem_cons_self)
    exact settles_processed hi (by rw [horders]; exact hrow) hne hlast hto
      (legible_announced hann hread)
  · intro hno
    let failed : JsVal := declined p event (declineReason p event)
    have hann : Announced p v _ .paymentOrderEvents .paymentFailed failed := .failed hposted hno
    have hto : Routed .paymentFailed orderId
        (domainRecord .paymentFailed event.payload.orderId failed []) :=
      routed_announced hann horder (getPartitionKey_eq_ok.mpr ⟨rfl, hne'⟩)
    refine Settles.react (l := [.paymentRequested, .paymentFailed]) hi hr htopic hread
      (ends_accepted_order rfl hnew hopen fun _ _ => (Payments.ends_processPayment hne').2 hno) rfl
      (.cons hrequested (.cons hto .nil)) fun w hlog horders => ?_
    have hlast : domainRecord .paymentFailed event.payload.orderId failed [] ∈ w.log := by
      rw [hlog]
      exact List.mem_append_right _ (List.mem_cons_of_mem _ List.mem_cons_self)
    exact settles_failed hi (by rw [horders]; exact hrow) hlast hto (legible_announced hann hread)

/-- Cancelled stock is released, and its order cancelled. -/
theorem settles_cancelled (hi : s.jobs i = none) (hrow : s.world.orders.find? orderId = some row)
    (hne : orderId ≠ "") (hr : r ∈ s.world.log) (hrouted : Routed .orderCancelled orderId r)
    (hsealed : Sealed r)
    (hreason : (((envelopeOf r).get "payload").get "reason").printable = true) :
    Settles procs i s orderId [.stockReleased] .cancelled := by
  have htopic : r.topic = RetriedHandler.stockOrderCancelled.topic := hrouted.topic
  let p : Process := procs .stockOrderCancelled
  let event : JsVal := released p (envelopeOf r)
  have hkey : resolvePartitionKey event = .ok orderId := getPartitionKey_eq_ok.mpr ⟨hrouted.order, hne⟩
  have hann : Announced p (envelopeOf r) [] .stockOrderCancelled .stockReleased event := .released
  have hto : Routed .stockReleased orderId (domainRecord .stockReleased orderId event []) :=
    routed_announced hann hrouted.order hkey
  refine Settles.react (h := .stockOrderCancelled) (l := [.stockReleased]) hi hr htopic
    (read_extracted hsealed)
    (ends_accepted nofun nofun fun _ _ => ends_stockOrderCancelled hrouted.order hne) rfl
    (.cons hto .nil) fun w hlog horders => ?_
  have hlast : domainRecord .stockReleased orderId event [] ∈ w.log := by
    rw [hlog]
    exact List.mem_append_right _ List.mem_cons_self
  have hsealed' : Sealed (domainRecord .stockReleased orderId event []) :=
    sealed_createEventEnvelope _ _ _ _
  have hid : (event.wire.get "payload").get "orderId" = .str orderId :=
    JsVal.get_get_wire_str hrouted.order
  have hnd : (event.get "payload").keys.Nodup := by
    change ["reservationId", "orderId", "reason", "releasedAt"].Nodup
    decide
  have hpayload : event.wire.get "payload" = (event.get "payload").wire :=
    JsVal.get_wire_of_eq rfl nofun
  have hlogged : ((event.wire.get "payload").get "reason").printable = true := by
    rw [hpayload]
    exact JsVal.printable_get_wire hnd hreason
  exact Settles.project (h := .orderStockReleased) hi hlast rfl (read_extracted hsealed') rfl hid
    (by rw [horders]; exact hrow) hlogged

end Stages

section Runs

variable {ι : Type} [DecidableEq ι] {ls : List (PoolAct ι Author Op JsThrow)}
  {s : Pool ι (World Author) Author Op Op.Resp JsThrow JsVal}
  {cond : Pool ι (World Author) Author Op Op.Resp JsThrow JsVal → PoolAct ι Author Op JsThrow → Prop}
  {procs : RetriedHandler → Process} {i : ι} {r : KafkaRecord} {v : JsVal} {w : World Author}

/-- The id of a stored order has been drawn. -/
theorem id_ne_empty (hw : Explained w) {orderId : String} {row : OrderEntity}
    (hrow : w.orders.find? orderId = some row) : orderId ≠ "" := by
  obtain ⟨saved, hsaved, heq⟩ := (hw.orders orderId row hrow).stored
  obtain ⟨proc, dto, -, hid⟩ := hsaved.by_request
  obtain ⟨-, hname⟩ := Table.find?_eq_some.mp hrow
  have hsame : row.id = saved.id := by rw [heq]
  rw [← hname, hsame, hid]
  exact Uuid.ne_empty _

/-- In every reachable state, however calls have crashed and failed before, an order that
payment-service accepts and has not decided yet can be settled by deliveries alone: completed
when the rules and the gateway of its next handling let the payment through, failed otherwise. -/
theorem open_orders_settle
    (hrun : RunWhere (Pool.Step eventFlow) cond (Pool.idle World.empty) ls s) (hi : s.jobs i = none)
    (hr : r ∈ s.world.log) (htopic : r.topic = orderEventsTopic)
    (hread : parseOrderEventsMessage r.value = .ok (.accepted v))
    (hnew : s.world.processed.find? (OrderCreatedEvent.ofJs v).eventId = none)
    (hopen : ∀ row ∈ s.world.processed.rows,
      row.orderId = (OrderCreatedEvent.ofJs v).payload.orderId → row.outcome ≠ .approved) :
    (Approves (procs .paymentOrderEvents) (.ofJs v) → Settles procs i s
      (OrderCreatedEvent.ofJs v).payload.orderId [.paymentRequested, .paymentProcessed,
        .stockReserved, .notificationSend, .notificationSent] .completed) ∧
    (¬ Approves (procs .paymentOrderEvents) (.ofJs v) → Settles procs i s
      (OrderCreatedEvent.ofJs v).payload.orderId [.paymentRequested, .paymentFailed] .failed) := by
  have hlog : Ledger s.world.log := ledger_of_run hrun
  obtain ⟨orderId, hrouted, hvalue, -⟩ :=
    hlog.received (h := .paymentOrderEvents) hr htopic hread
  have horder := hrouted.order
  rw [envelopeOf_value hvalue] at horder
  have hname : (OrderCreatedEvent.ofJs v).payload.orderId = orderId := JsVal.asStr_of_eq horder
  obtain ⟨row, hrow⟩ := (placed_of_run hrun).row (t := .orderCreated) (by decide) ⟨r, hr, hrouted⟩
  have hnone : s.world.processed.findOne (fun row => row.orderId =
      (OrderCreatedEvent.ofJs v).payload.orderId ∧ row.outcome = .approved) = none := by
    refine Table.findOne_eq_none.mpr fun row hmem => decide_eq_false ?_
    rintro ⟨heq, houtcome⟩
    exact hopen row hmem heq houtcome
  rw [hname]
  exact settles_created hi hrow (id_ne_empty (explained_of_run hrun) hrow) hr hrouted hvalue hread
    rfl hnew hnone

/-- A payment that is in the table can always be brought to its end, whatever has been lost
since: an approved one completes its order, and a failed one fails it. -/
theorem paid_orders_settle
    (hrun : RunWhere (Pool.Step eventFlow) cond (Pool.idle World.empty) ls s) (hi : s.jobs i = none) :
    ∀ id row, s.world.processed.find? id = some row →
      (row.outcome = .approved → Settles procs i s row.orderId
        [.stockReserved, .notificationSend, .notificationSent] .completed) ∧
      (row.outcome = .failed → Settles procs i s row.orderId [] .failed) := by
  intro id row hrow
  have hexplained : Explained s.world := explained_of_run hrun
  have hlegible := legible_reactions hrun
  have hpaid := hexplained.processed id row hrow
  constructor
  · intro houtcome
    obtain ⟨r, hr, hrouted, -⟩ := hpaid.approved houtcome
    have hother : r.topic ≠ orderEventsTopic := by
      rw [hrouted.topic]
      decide
    obtain ⟨order, horder⟩ :=
      (placed_of_run hrun).row (t := .paymentProcessed) (by decide) ⟨r, hr, hrouted⟩
    exact settles_processed hi horder (id_ne_empty hexplained horder) hr hrouted
      (hlegible r hr hother)
  · intro houtcome
    obtain ⟨r, hr, hrouted, -⟩ := hpaid.failed houtcome
    have hother : r.topic ≠ orderEventsTopic := by
      rw [hrouted.topic]
      decide
    obtain ⟨order, horder⟩ :=
      (placed_of_run hrun).row (t := .paymentFailed) (by decide) ⟨r, hr, hrouted⟩
    exact settles_failed hi horder hr hrouted (hlegible r hr hother)

/-- A stored order whose cancellation is on the log, with a reason that can be printed or with
none, can be cancelled, in whatever state it is. -/
theorem cancellations_settle
    (hrun : RunWhere (Pool.Step eventFlow) cond (Pool.idle World.empty) ls s) (hi : s.jobs i = none)
    (hr : r ∈ s.world.log) (htopic : r.topic = EventType.orderCancelled.value) {orderId : String}
    (horder : ((envelopeOf r).get "payload").get "orderId" = .str orderId)
    (hreason : (((envelopeOf r).get "payload").get "reason").printable = true)
    (hstored : s.world.orders.find? orderId ≠ none) :
    Settles procs i s orderId [.stockReleased] .cancelled := by
  have hlog : Ledger s.world.log := ledger_of_run hrun
  have hsealed : Sealed r := hlog.sealed r hr
  obtain ⟨row, hrow⟩ := Option.ne_none_iff_exists'.mp hstored
  obtain ⟨o, hrouted, -, -⟩ := hlog.received (h := .stockOrderCancelled) hr htopic
    (read_extracted hsealed)
  obtain rfl := JsVal.str.inj (hrouted.order.symm.trans horder)
  exact settles_cancelled hi hrow (id_ne_empty (explained_of_run hrun) hrow) hr hrouted hsealed
    hreason

theorem sampleOrder_any : ∃ ls, RunWhere (Pool.Step eventFlow) (Starting fun _ => True)
    (Pool.idle World.empty : Pool Unit (World Author) Author Op Op.Resp JsThrow JsVal) ls
    (Pool.idle (eventFlow.called sampleOrder World.empty)) := flowed_starting trivial trivial

/-- A new order, before anybody has read it. -/
theorem open_orders_settle_sample : Settles (fun _ => drawing "b") ()
    (Pool.idle (eventFlow.called sampleOrder World.empty)) (hexUuid "a" 0).val [.paymentRequested,
      .paymentProcessed, .stockReserved, .notificationSend, .notificationSent] .completed := by
  let w : World Author := eventFlow.called sampleOrder World.empty
  have hrecord : ∃ r ∈ w.log, r.topic = orderEventsTopic ∧
      parseOrderEventsMessage r.value = .ok (.accepted (envelopeOf r)) ∧
      (OrderCreatedEvent.ofJs (envelopeOf r)).payload.orderId = (hexUuid "a" 0).val ∧
      (Payment.evaluatePaymentRules (OrderCreatedEvent.ofJs (envelopeOf r)).payload
        (Payment.resolvePaymentBusinessRules (drawing "b").env)).isEmpty = true := by decide +kernel
  have hgateway : (Payment.simulatePaymentGateway (drawing "b")
      { paymentId := some ((drawing "b").uuid 0).val }).outcome = .approved := by decide +kernel
  have hrows : w.processed.rows = [] := by decide +kernel
  obtain ⟨r, hr, htopic, hread, horder, hrules⟩ := hrecord
  obtain ⟨ls, hrun⟩ := sampleOrder_any
  have hnew : w.processed.find? (OrderCreatedEvent.ofJs (envelopeOf r)).eventId = none := by
    rw [Table.find?_eq_none, hrows]
    exact fun row hrow => absurd hrow List.not_mem_nil
  have hopen : ∀ row ∈ w.processed.rows,
      row.orderId = (OrderCreatedEvent.ofJs (envelopeOf r)).payload.orderId →
        row.outcome ≠ .approved := by
    rw [hrows]
    exact fun row hrow => absurd hrow List.not_mem_nil
  rw [← horder]
  exact (open_orders_settle hrun rfl hr htopic hread hnew hopen).1
    ⟨List.isEmpty_iff.mp hrules, hgateway⟩

/-- A payment that nobody has read when everything stops. -/
theorem paid_orders_settle_sample :
    Settles (fun _ => drawing "c") () (Pool.idle (story sampleOrder [(.paymentOrderEvents, "b")]))
      (hexUuid "a" 0).val [.stockReserved, .notificationSend, .notificationSent] .completed := by
  let w : World Author := story sampleOrder [(.paymentOrderEvents, "b")]
  have hrow : (w.processed.find? (hexUuid "a" 1).val).map (fun row => (row.orderId, row.outcome)) =
      some ((hexUuid "a" 0).val, .approved) := by decide +kernel
  obtain ⟨row, hfound, hpaid⟩ := Option.map_eq_some_iff.mp hrow
  obtain ⟨horder, houtcome⟩ := Prod.mk.inj hpaid
  have hrun : ∃ ls, RunWhere (Pool.Step eventFlow) (Starting fun _ => True)
      (Pool.idle World.empty : Pool Unit (World Author) Author Op Op.Resp JsThrow JsVal) ls
      (Pool.idle w) :=
    story_run (a := sampleOrder) trivial trivial (fun _ _ _ _ _ _ => trivial) _
  obtain ⟨ls, hrun⟩ := hrun
  rw [← horder]
  exact (paid_orders_settle hrun rfl _ row hfound).1 houtcome

/-- The cancellation of the order of a sample. -/
def sampleRegret : Author := .cancel (hexUuid "a" 0).val (.obj [
  ("eventId", .str Uuid.second.val),
  ("eventType", .str EventType.orderCancelled.value),
  ("correlationId", .str (hexUuid "a" 0).val),
  ("payload", .obj [("orderId", .str (hexUuid "a" 0).val), ("reason", .str "late")])])

theorem cancellations_settle_sample : Settles (fun _ => drawing "b") ()
    (Pool.idle (eventFlow.called sampleRegret (eventFlow.called sampleOrder World.empty)))
    (hexUuid "a" 0).val
    [.stockReleased] .cancelled := by
  let w : World Author := eventFlow.called sampleRegret (eventFlow.called sampleOrder World.empty)
  have hrecord : ∃ r ∈ w.log, r.topic = EventType.orderCancelled.value ∧
      ((envelopeOf r).get "payload").get "orderId" = .str (hexUuid "a" 0).val ∧
      (((envelopeOf r).get "payload").get "reason").printable = true := by decide +kernel
  have hstored : (w.orders.find? (hexUuid "a" 0).val).isSome = true := by decide +kernel
  obtain ⟨r, hr, htopic, horder, hreason⟩ := hrecord
  obtain ⟨ls, hordered⟩ := sampleOrder_any
  have hready : eventFlow.ready (eventFlow.called sampleOrder World.empty) sampleRegret :=
    ⟨⟨_, rfl⟩, rfl, rfl, rfl⟩
  have hregretted : ∃ ms, RunWhere (Pool.Step eventFlow) (Starting fun _ => True)
      (Pool.idle (eventFlow.called sampleOrder World.empty) :
        Pool Unit (World Author) Author Op Op.Resp JsThrow JsVal) ms (Pool.idle w) :=
    flowed_starting hready trivial
  obtain ⟨ms, hregretted⟩ := hregretted
  exact cancellations_settle (hordered.trans hregretted) rfl hr htopic horder hreason
    (Option.isSome_iff_ne_none.mp hstored)

end Runs

end EventFlow.Saga
