import EventFlow.Saga.Routing
import EventFlow.Shared.Grammar

namespace EventFlow.Saga

open Js Shared Services Async Retry
open Orders (announcedOrder pendingOrder)
open Choreography (historyOf mem_historyOf)

section Choreography

/-- The saga of one order as the documentation of the events has it: what begins it, and
which event each service makes of which. -/
def choreography : Choreography EventType where
  begins t := t = .orderCreated ∨ t = .orderCancelled
  reacts t u := reactsTo t = some u

/-- The event that a record of a domain topic is about, and its order. -/
def eventOf (r : KafkaRecord) : Option (String × EventType) :=
  match EventType.allEventTypes.find? fun t =>
      r.topic = resolveKafkaTopic t ∧ (envelopeOf r).get "eventType" = .str t.value,
    ((envelopeOf r).get "payload").get "orderId" with
  | some t, .str orderId => some (orderId, t)
  | _, _ => none

/-- The events of a log, in their order. -/
def eventsOf (log : List KafkaRecord) : List (String × EventType) := log.filterMap eventOf

/-- What has to come before an event, and the event. -/
def leadsTo : EventType → List EventType
  | .orderCreated => [.orderCreated]
  | .paymentRequested => [.orderCreated, .paymentRequested]
  | .paymentProcessed => [.orderCreated, .paymentRequested, .paymentProcessed]
  | .paymentFailed => [.orderCreated, .paymentRequested, .paymentFailed]
  | .stockReserved => [.orderCreated, .paymentRequested, .paymentProcessed, .stockReserved]
  | .notificationSend =>
    [.orderCreated, .paymentRequested, .paymentProcessed, .stockReserved, .notificationSend]
  | .notificationSent => [.orderCreated, .paymentRequested, .paymentProcessed, .stockReserved,
      .notificationSend, .notificationSent]
  | .orderCancelled => [.orderCancelled]
  | .stockReleased => [.orderCancelled, .stockReleased]
  | .stockFailed => [.stockFailed]
  | .notificationFailed => [.notificationFailed]

variable {log : List KafkaRecord} {r r₀ : KafkaRecord} {t u : EventType} {orderId : String}

theorem eventOf_routed (hr : Routed t orderId r) : eventOf r = some (orderId, t) := by
  have hfound : EventType.allEventTypes.find? (fun t =>
      r.topic = resolveKafkaTopic t ∧ (envelopeOf r).get "eventType" = .str t.value) = some t := by
    cases hcase : EventType.allEventTypes.find? (fun t =>
        r.topic = resolveKafkaTopic t ∧ (envelopeOf r).get "eventType" = .str t.value) with
    | none =>
      have hnot := List.find?_eq_none.mp hcase t (EventType.mem_allEventTypes t)
      simp [hr.topic, hr.eventType] at hnot
    | some u =>
      have hu := List.find?_some hcase
      simp only [decide_eq_true_eq] at hu
      have hvalue := JsVal.str.inj (hr.eventType.symm.trans hu.2)
      rw [EventType.value_injective hvalue]
  rw [eventOf, hfound, hr.order]

/-- A failure record is no event. -/
theorem eventOf_wraps {h : RetriedHandler} (hr₀ : Routed h.eventType orderId r₀)
    (hwraps : Wraps h r₀ r) : eventOf r = none := by
  have hnone : EventType.allEventTypes.find? (fun t =>
      r.topic = resolveKafkaTopic t ∧ (envelopeOf r).get "eventType" = .str t.value) = none := by
    apply List.find?_eq_none.mpr
    intro t _ htrue
    simp only [decide_eq_true_eq] at htrue
    have hdlq : resolveKafkaTopic t = toDlqTopic (resolveKafkaTopic h.eventType) := by
      rw [← htrue.1, hwraps.topic, hr₀.topic]
    exact resolveKafkaTopic_ne_dlq _ _ hdlq
  rw [eventOf, hnone]

theorem mem_eventsOf (hr : Routed t orderId r) (hmem : r ∈ log) : (orderId, t) ∈ eventsOf log :=
  List.mem_filterMap.mpr ⟨r, hmem, eventOf_routed hr⟩

theorem eventsOf_snoc (hr : Routed t orderId r) :
    eventsOf (log ++ [r]) = eventsOf log ++ [(orderId, t)] := by
  simp [eventsOf, eventOf_routed hr]

theorem eventsOf_snoc_none (hr : eventOf r = none) : eventsOf (log ++ [r]) = eventsOf log := by
  simp [eventsOf, hr]

/-- A ledger spells a run of the choreography. -/
theorem Ledger.choreographed (hlog : Ledger log) :
    Run choreography.Step (fun _ => []) (eventsOf log) (historyOf (eventsOf log)) := by
  induction hlog with
  | nil => exact .nil
  | @snoc log r hlog _ hsource ih =>
    have hadd : ∀ {t orderId}, Routed t orderId r →
        choreography.Enabled (historyOf (eventsOf log) orderId) t →
        Run choreography.Step (fun _ => []) (eventsOf (log ++ [r]))
          (historyOf (eventsOf (log ++ [r]))) := by
      intro t orderId hr hen
      rw [eventsOf_snoc hr]
      exact Choreography.run_snoc ih hen
    have hskip : eventOf r = none → Run choreography.Step (fun _ => []) (eventsOf (log ++ [r]))
        (historyOf (eventsOf (log ++ [r]))) := by
      intro hnone
      rwa [eventsOf_snoc_none hnone]
    cases hsource with
    | begun hbegins hr => exact hadd hr (.inl hbegins)
    | reacted hreacts hmem hr₀ hr =>
      exact hadd hr (.inr ⟨_, mem_historyOf.mpr (mem_eventsOf hr₀ hmem), hreacts⟩)
    | failed hmem hr₀ _ hwraps => exact hskip (eventOf_wraps hr₀ hwraps)
    | copied hmem htopic hkey hvalue =>
      obtain ⟨pre, post, hsplit⟩ := List.append_of_mem hmem
      rcases hlog.routed_or_wraps hsplit with ⟨t, orderId, hr₀⟩ | ⟨h, orderId, x, -, hx, -, hwraps⟩
      · have hold := mem_historyOf.mpr (mem_eventsOf hr₀ hmem)
        have hpast := Choreography.history_of_run ih orderId
        exact hadd (hr₀.copy htopic hkey hvalue) (hpast.again hold)
      · exact hskip (eventOf_wraps hx (hwraps.copy htopic hkey hvalue))

theorem leadsTo_chain (t : EventType) :
    ∃ chain, leadsTo t = chain ++ [t] ∧ List.IsChain choreography.Only (chain ++ [t]) := by
  have honly : ∀ {u t : EventType}, reactsTo t = some u → t ≠ .orderCreated → t ≠ .orderCancelled →
      choreography.Only u t := by
    intro u t hreacts hcreated hcancelled
    refine ⟨fun hbegins => hbegins.elim hcreated hcancelled, fun v hv => ?_⟩
    exact (Option.some.inj (hreacts.symm.trans hv)).symm
  have hrequested : choreography.Only .orderCreated .paymentRequested := honly rfl nofun nofun
  have hprocessed : choreography.Only .paymentRequested .paymentProcessed := honly rfl nofun nofun
  have hfailed : choreography.Only .paymentRequested .paymentFailed := honly rfl nofun nofun
  have hreserved : choreography.Only .paymentProcessed .stockReserved := honly rfl nofun nofun
  have hreleased : choreography.Only .orderCancelled .stockReleased := honly rfl nofun nofun
  have hsend : choreography.Only .stockReserved .notificationSend := honly rfl nofun nofun
  have hsent : choreography.Only .notificationSend .notificationSent := honly rfl nofun nofun
  refine ⟨(leadsTo t).dropLast, ?_, ?_⟩
  · cases t <;> rfl
  · cases t <;> simp [leadsTo, *]

theorem not_possible_failures : ¬ choreography.Possible .stockFailed ∧
    ¬ choreography.Possible .notificationFailed := by
  constructor <;> intro hpossible <;> cases hpossible with
  | begin hbegins => rcases hbegins with h | h <;> cases h
  | react hreacts _ => cases hreacts

/-- The log holds no event that the choreography cannot come to. -/
theorem Ledger.possible (hlog : Ledger log) (hmem : r ∈ log) (hr : Routed t orderId r) :
    choreography.Possible t :=
  (Choreography.history_of_run hlog.choreographed orderId).possible t
    (mem_historyOf.mpr (mem_eventsOf hr hmem))

/-- A record of the event is on the log. -/
def Backed (log : List KafkaRecord) (t : EventType) (orderId : String) : Prop :=
  ∃ r ∈ log, Routed t orderId r

theorem Backed.mono {log' : List KafkaRecord} (hb : Backed log t orderId) (hle : log <+: log') :
    Backed log' t orderId := by
  obtain ⟨r, hr, hrouted⟩ := hb
  exact ⟨r, hle.subset hr, hrouted⟩

/-- A record that is stored again backs nothing new. -/
theorem backed_again (hr : r ∈ log) (hb : Backed (log ++ [r]) t orderId) :
    Backed log t orderId := by
  obtain ⟨x, hx, hrouted⟩ := hb
  rcases List.mem_append.mp hx with hold | hnew
  · exact ⟨x, hold, hrouted⟩
  · rw [List.mem_singleton.mp hnew] at hrouted
    exact ⟨r, hr, hrouted⟩

/-- The events of an order are those with a record. -/
theorem Ledger.backed_iff (hlog : Ledger log) :
    t ∈ historyOf (eventsOf log) orderId ↔ Backed log t orderId := by
  constructor
  · intro ht
    obtain ⟨r, hr, hevent⟩ := List.mem_filterMap.mp (mem_historyOf.mp ht)
    obtain ⟨pre, post, hsplit⟩ := List.append_of_mem hr
    rcases hlog.routed_or_wraps hsplit with ⟨u, o, hrouted⟩ | ⟨h, o, r₀, -, hr₀, -, hwraps⟩
    · rw [eventOf_routed hrouted] at hevent
      obtain ⟨rfl, rfl⟩ := Prod.mk.inj (Option.some.inj hevent)
      exact ⟨r, hr, hrouted⟩
    · rw [eventOf_wraps hr₀ hwraps] at hevent
      cases hevent
  · rintro ⟨r, hr, hrouted⟩
    exact mem_historyOf.mpr (mem_eventsOf hrouted hr)

/-- All that leads to an event is in front of it. -/
theorem Ledger.leads (hlog : Ledger log) (ht : t ∈ historyOf (eventsOf log) orderId) :
    (leadsTo t).Sublist (historyOf (eventsOf log) orderId) := by
  have hhistory := Choreography.history_of_run hlog.choreographed orderId
  obtain ⟨chain, hpath, hchain⟩ := leadsTo_chain t
  rw [hpath]
  exact hhistory.chain_sublist hchain ht

theorem Ledger.preceded (hlog : Ledger log) (ht : Backed log t orderId) (hu : u ∈ leadsTo t) :
    Backed log u orderId :=
  hlog.backed_iff.mp ((hlog.leads (hlog.backed_iff.mpr ht)).subset hu)

variable {ι : Type} [DecidableEq ι] {ls : List (PoolAct ι Author Op JsThrow)}
  {s : Pool ι (World Author) Author Op Op.Resp JsThrow JsVal}
  {cond : Pool ι (World Author) Author Op Op.Resp JsThrow JsVal → PoolAct ι Author Op JsThrow → Prop}

/-- The services refine the choreography: in every run the events that they have put on the
log are, in that order, the steps of a run of the choreography. -/
theorem services_refine_choreography
    (hrun : RunWhere (Pool.Step eventFlow) cond (Pool.idle World.empty) ls s) :
    Run choreography.Step (fun _ => []) (eventsOf s.world.log)
      (historyOf (eventsOf s.world.log)) :=
  (ledger_of_run hrun).choreographed

/-- Whatever happens to an order happens after all that leads to it, in the order of the
event flow; and neither stock nor notification ever reports a failure. -/
theorem events_in_order
    (hrun : RunWhere (Pool.Step eventFlow) cond (Pool.idle World.empty) ls s) :
    ∀ orderId t, t ∈ historyOf (eventsOf s.world.log) orderId →
      (leadsTo t).Sublist (historyOf (eventsOf s.world.log) orderId) ∧
      (t = .notificationSent →
        coreEventFlow.Sublist (historyOf (eventsOf s.world.log) orderId)) ∧
      t ≠ .stockFailed ∧ t ≠ .notificationFailed := by
  intro orderId t ht
  have hhistory := Choreography.history_of_run (ledger_of_run hrun).choreographed orderId
  have hpossible := hhistory.possible t ht
  have hsub := (ledger_of_run hrun).leads ht
  refine ⟨hsub, fun hsent => ?_, ?_, ?_⟩
  · have hcore : coreEventFlow.Sublist (leadsTo .notificationSent) := by decide
    subst hsent
    exact hcore.trans hsub
  · rintro rfl
    exact not_possible_failures.1 hpossible
  · rintro rfl
    exact not_possible_failures.2 hpossible

/-- The six events of a completed order are a run of the choreography. -/
theorem services_refine_choreography_completed : ∃ ls,
    ∃ s : Pool Unit (World Author) Author Op Op.Resp JsThrow JsVal,
      RunWhere (Pool.Step eventFlow) (Starting fun _ => True) (Pool.idle World.empty) ls s ∧
      (eventsOf s.world.log).map Prod.snd = leadsTo .notificationSent ∧
      Run choreography.Step (fun _ => []) (eventsOf s.world.log)
        (historyOf (eventsOf s.world.log)) := by
  have hevents : (eventsOf completedStory.log).map Prod.snd = leadsTo .notificationSent := by
    decide +kernel
  obtain ⟨ls, hrun⟩ := completedStory_any
  exact ⟨ls, _, hrun, hevents, services_refine_choreography hrun⟩

theorem events_in_order_completed : ∃ ls,
    ∃ s : Pool Unit (World Author) Author Op Op.Resp JsThrow JsVal,
      RunWhere (Pool.Step eventFlow) (Starting fun _ => True) (Pool.idle World.empty) ls s ∧
      s.world.log.length = 6 ∧ ∀ orderId t, t ∈ historyOf (eventsOf s.world.log) orderId →
        (leadsTo t).Sublist (historyOf (eventsOf s.world.log) orderId) ∧
        (t = .notificationSent →
          coreEventFlow.Sublist (historyOf (eventsOf s.world.log) orderId)) ∧
        t ≠ .stockFailed ∧ t ≠ .notificationFailed := by
  obtain ⟨ls, hrun⟩ := completedStory_any
  exact ⟨ls, _, hrun, completedStory_length, events_in_order hrun⟩

end Choreography

section Tables

/-- A row that some request has stored. -/
structure FromRequest (trace : List (Author × Op)) (row : OrderEntity) : Prop where
  by_request : ∃ proc dto, (Author.service (.createOrder proc dto), Op.saveOrder row) ∈ trace ∧
    row.id = (proc.uuid 0).val

/-- What the status of an order stands for. -/
structure OrderExplained (w : World Author) (row : OrderEntity) : Prop where
  stored : ∃ saved, FromRequest w.trace saved ∧ row = { saved with status := row.status }
  completed : row.status = .completed → Backed w.log .notificationSent row.id
  cancelled : row.status = .cancelled → Backed w.log .stockReleased row.id
  failed : row.status = .failed → Backed w.log .paymentFailed row.id ∨
    ∃ saved, FromRequest w.trace saved ∧ saved.id = row.id ∧ saved.status = .failed

/-- The record of an outcome: it names the payment of the row. -/
def Settled (log : List KafkaRecord) (t : EventType) (row : ProcessedEventEntity) : Prop :=
  ∃ r ∈ log, Routed t row.orderId r ∧ ∃ paymentId, row.paymentId = some paymentId ∧
    ((envelopeOf r).get "payload").get "paymentId" = .str paymentId

/-- What the row of a processed event stands for. -/
structure PaymentExplained (w : World Author) (row : ProcessedEventEntity) : Prop where
  inbound : ∃ r ∈ w.log, Routed .orderCreated row.orderId r ∧
    (envelopeOf r).get "eventId" = .str row.inboundEventId
  approved : row.outcome = .approved → Settled w.log .paymentProcessed row
  failed : row.outcome = .failed → Settled w.log .paymentFailed row

structure Explained (w : World Author) : Prop where
  ledger : Ledger w.log
  orders : ∀ id row, w.orders.find? id = some row → OrderExplained w row
  processed : ∀ id row, w.processed.find? id = some row → PaymentExplained w row

variable {w w' : World Author} {a : Author} {done : List Op} {op : Op} {row : OrderEntity}
  {log log' : List KafkaRecord} {t : EventType} {orderId : String}

theorem FromRequest.mono {trace trace' : List (Author × Op)} (hrow : FromRequest trace row)
    (hle : trace <+: trace') : FromRequest trace' row := by
  obtain ⟨proc, dto, hmem, hid⟩ := hrow.by_request
  exact ⟨proc, dto, hle.subset hmem, hid⟩

theorem OrderExplained.mono (h : OrderExplained w row) (hle : Longer w w') :
    OrderExplained w' row := by
  refine ⟨?_, fun hs => (h.completed hs).mono hle.log, fun hs => (h.cancelled hs).mono hle.log, ?_⟩
  · obtain ⟨saved, hsaved, heq⟩ := h.stored
    exact ⟨saved, hsaved.mono hle.trace, heq⟩
  · intro hs
    rcases h.failed hs with hb | ⟨saved, hsaved, hid, hstatus⟩
    · exact .inl (hb.mono hle.log)
    · exact .inr ⟨saved, hsaved.mono hle.trace, hid, hstatus⟩

theorem PaymentExplained.mono {row : ProcessedEventEntity} (h : PaymentExplained w row)
    (hle : Longer w w') : PaymentExplained w' row := by
  have hsettled : ∀ {t}, Settled w.log t row → Settled w'.log t row := by
    intro t hs
    obtain ⟨r, hr, hrest⟩ := hs
    exact ⟨r, hle.log.subset hr, hrest⟩
  obtain ⟨r, hr, hrest⟩ := h.inbound
  exact ⟨⟨r, hle.log.subset hr, hrest⟩, fun ho => hsettled (h.approved ho),
    fun ho => hsettled (h.failed ho)⟩

/-- Only a request stores orders: its own, in three states. -/
theorem request_of_turn (hturn : Turn w a done (.saveOrder row)) :
    ∃ proc dto, a = .service (.createOrder proc dto) ∧ row ∈ [pendingOrder (proc.uuid 0).val dto,
      announcedOrder proc dto, { announcedOrder proc dto with status := .failed }] := by
  have hwrote := hturn.wrote
  cases a with
  | cancel _ _ => cases hwrote
  | service c =>
    cases hwrote with
    | wait hquiet => cases hquiet
    | enact _ hop =>
      cases hop with
      | wait hquiet => cases hquiet
    | save hrow _ => exact ⟨_, _, rfl, hrow⟩

/-- A request stores rows under its own id, pending or failed. -/
theorem saved_of_turn (hturn : Turn w a done (.saveOrder row)) :
    FromRequest (w.exec a (.saveOrder row)).2.trace row ∧
      (row.status = .pending ∨ row.status = .failed) := by
  have hmem : (a, Op.saveOrder row) ∈ (w.exec a (.saveOrder row)).2.trace :=
    List.mem_append_right _ List.mem_cons_self
  obtain ⟨proc, dto, rfl, hrow⟩ := request_of_turn hturn
  simp only [List.mem_cons, List.not_mem_nil, or_false] at hrow
  rcases hrow with rfl | rfl | rfl
  · exact ⟨⟨proc, dto, hmem, rfl⟩, .inl rfl⟩
  · exact ⟨⟨proc, dto, hmem, rfl⟩, .inl rfl⟩
  · exact ⟨⟨proc, dto, hmem, rfl⟩, .inr rfl⟩

/-- A consumer projects the event that it has received. -/
theorem projected_of_turn {criterion : Criterion} {status : OrderStatus} (hlog : Ledger w.log)
    (hturn : Turn w a done (.updateOrder criterion status)) : ∃ orderId, criterion = byId orderId ∧
      (status = .completed ∧ Backed w.log .notificationSent orderId ∨
        status = .cancelled ∧ Backed w.log .stockReleased orderId ∨
        status = .failed ∧ Backed w.log .paymentFailed orderId) := by
  obtain ⟨hready, hrecorded, hwrote⟩ := hturn
  cases a with
  | cancel _ _ => cases hwrote
  | service c =>
    cases hwrote with
    | wait hquiet => cases hquiet
    | @enact h proc headers payload v _ _ hread hop =>
      obtain ⟨r₀, hr₀, htopic, rfl, -⟩ := hready
      obtain ⟨orderId, hrouted, hvalue, -⟩ := hlog.received hr₀ htopic hread
      have horder := hrouted.order
      rw [envelopeOf_value hvalue] at horder
      have hpossible := hlog.possible hr₀ hrouted
      have hbacked : Backed w.log h.eventType orderId := ⟨r₀, hr₀, hrouted⟩
      cases hop with
      | wait hquiet => cases hquiet
      | project hstatus hcriterion =>
        refine ⟨orderId, Drivers.eq_byId hcriterion horder, ?_⟩
        cases h with
        | orderPaymentEvents =>
          cases hstatus
          exact .inr (.inr ⟨rfl, hbacked⟩)
        | orderStockReleased =>
          cases hstatus
          exact .inr (.inl ⟨rfl, hbacked⟩)
        | orderNotificationSent =>
          cases hstatus
          exact .inl ⟨rfl, hbacked⟩
        | orderStockFailed => exact absurd hpossible not_possible_failures.1
        | _ => cases hstatus

/-- What payment-service takes for an order is an order, under the id that it goes by. -/
theorem inbound_of_read {proc : Process} {headers : List (String × RawHeader)} {payload : KafkaValue}
    {v : JsVal} (hlog : Ledger w.log)
    (hready : eventFlow.ready w (.service (.consume .paymentOrderEvents proc headers payload)))
    (hread : parseOrderEventsMessage payload = .ok (.accepted v)) : ∃ r ∈ w.log,
      Routed .orderCreated (Payment.OrderCreatedEvent.ofJs v).payload.orderId r ∧
      (envelopeOf r).get "eventId" = .str (Payment.OrderCreatedEvent.ofJs v).eventId := by
  obtain ⟨r, hr, htopic, rfl, -⟩ := hready
  obtain ⟨orderId, hrouted, hvalue, -⟩ := hlog.received hr htopic hread
  have horder := hrouted.order
  rw [envelopeOf_value hvalue] at horder
  have hvalid := (parseMessage_eq_accepted.mp hread).2.1
  obtain ⟨id, hid, -⟩ := isUuid_iff.mp hvalid.eventId
  have hname : (Payment.OrderCreatedEvent.ofJs v).payload.orderId = orderId :=
    JsVal.asStr_of_eq horder
  have hevent : (Payment.OrderCreatedEvent.ofJs v).eventId = id := JsVal.asStr_of_eq hid
  rw [hname, hevent]
  refine ⟨r, hr, hrouted, ?_⟩
  rw [envelopeOf_value hvalue, hid]

/-- payment-service records what it has announced. -/
theorem recorded_of_turn {row : ProcessedEventEntity} (hlog : Ledger w.log)
    (hturn : Turn w a done (.saveProcessed row)) : PaymentExplained w row := by
  obtain ⟨hready, hrecorded, hwrote⟩ := hturn
  have hsettled : ∀ {t event v outcome} {proc : Process}, Posted done t event →
      event.get "eventType" = .str t.value →
      event.get "correlationId" = .str (Payment.OrderCreatedEvent.ofJs v).payload.orderId →
      (event.get "payload").get "orderId" =
        .str (Payment.OrderCreatedEvent.ofJs v).payload.orderId →
      (∃ entry, getCatalogEntry t = some entry ∧
        event.get "source" = .str entry.producer.value) →
      (event.get "payload").get "paymentId" = .str (proc.uuid 0).val →
      Settled w.log t (Payment.outcomeRow (.ofJs v) (proc.uuid 0).val outcome) := by
    intro t event v outcome proc hposted htype hcorr horder hsource hpayment
    obtain ⟨key, hkey, hmem⟩ := hposted
    obtain rfl := JsVal.str.inj ((getPartitionKey_eq_ok.mp hkey).1.symm.trans horder)
    exact ⟨_, (hrecorded _ hmem).log _ rfl, routed_domainRecord htype hcorr horder fun _ => hsource,
      _, rfl, JsVal.get_get_wire_str hpayment⟩
  cases a with
  | cancel _ _ => cases hwrote
  | service c =>
    cases hwrote with
    | wait hquiet => cases hquiet
    | skip hread => exact ⟨inbound_of_read hlog hready hread, nofun, nofun⟩
    | enact hread hop =>
      cases hop with
      | wait hquiet => cases hquiet
      | approve hh hposted =>
        subst hh
        refine ⟨inbound_of_read hlog hready hread, fun _ => ?_, nofun⟩
        exact hsettled hposted rfl rfl rfl ⟨_, rfl, rfl⟩ rfl
      | decline hh hposted =>
        subst hh
        refine ⟨inbound_of_read hlog hready hread, nofun, fun _ => ?_⟩
        exact hsettled hposted rfl rfl rfl ⟨_, rfl, rfl⟩ rfl

/-- Every turn leaves the tables explained. -/
theorem explained_turn (hw : Explained w) (hturn : Turn w a done op) : Explained (w.exec a op).2 := by
  have hle : Longer w (w.exec a op).2 := longer_exec
  have hledger : Ledger (w.exec a op).2.log := ledger_turn hw.ledger hturn
  refine ⟨hledger, fun id row hrow => ?_, fun id row hrow => ?_⟩
  · by_cases hsave : ∃ saved, op = .saveOrder saved
    · obtain ⟨saved, rfl⟩ := hsave
      rw [World.find?_exec_saveOrder] at hrow
      split_ifs at hrow with hid
      · obtain rfl := Option.some.inj hrow
        obtain ⟨hstored, hstatus⟩ := saved_of_turn hturn
        refine ⟨⟨saved, hstored, rfl⟩, fun hs => ?_, fun hs => ?_, fun hs => ?_⟩
        · rcases hstatus with h | h <;> rw [h] at hs <;> cases hs
        · rcases hstatus with h | h <;> rw [h] at hs <;> cases hs
        · exact .inr ⟨saved, hstored, rfl, hs⟩
      · exact (hw.orders id row hrow).mono hle
    by_cases hupdate : ∃ criterion status, op = .updateOrder criterion status
    · obtain ⟨criterion, status, rfl⟩ := hupdate
      obtain ⟨orderId, rfl, hstatus⟩ := projected_of_turn hw.ledger hturn
      rw [World.find?_exec_updateOrder_byId] at hrow
      split_ifs at hrow with hid
      · subst hid
        obtain ⟨old, hold, rfl⟩ := Option.map_eq_some_iff.mp hrow
        have hexplained := (hw.orders id old hold).mono hle
        obtain ⟨-, hname⟩ := Table.find?_eq_some.mp hold
        obtain ⟨saved, hsaved, heq⟩ := hexplained.stored
        subst hname
        refine ⟨⟨saved, hsaved, ?_⟩, fun hs => ?_, fun hs => ?_, fun hs => ?_⟩
        · rw [heq]
        · rcases hstatus with ⟨-, hb⟩ | ⟨h, -⟩ | ⟨h, -⟩
          · exact hb.mono hle.log
          · cases h.symm.trans hs
          · cases h.symm.trans hs
        · rcases hstatus with ⟨h, -⟩ | ⟨-, hb⟩ | ⟨h, -⟩
          · cases h.symm.trans hs
          · exact hb.mono hle.log
          · cases h.symm.trans hs
        · rcases hstatus with ⟨h, -⟩ | ⟨h, -⟩ | ⟨-, hb⟩
          · cases h.symm.trans hs
          · cases h.symm.trans hs
          · exact .inl (hb.mono hle.log)
      · exact (hw.orders id row hrow).mono hle
    · have hsame : (w.exec a op).2.orders = w.orders :=
        World.exec_orders a w (fun saved heq => hsave ⟨saved, heq⟩)
          fun criterion status heq => hupdate ⟨criterion, status, heq⟩
      rw [hsame] at hrow
      exact (hw.orders id row hrow).mono hle
  · by_cases hsave : ∃ saved, op = .saveProcessed saved
    · obtain ⟨saved, rfl⟩ := hsave
      rw [World.exec_saveProcessed] at hrow
      rw [Table.find?_save] at hrow
      split_ifs at hrow with hid
      · obtain rfl := Option.some.inj hrow
        exact (recorded_of_turn hw.ledger hturn).mono hle
      · exact (hw.processed id row hrow).mono hle
    · have hsame : (w.exec a op).2.processed = w.processed :=
        World.exec_processed a w fun saved heq => hsave ⟨saved, heq⟩
      rw [hsame] at hrow
      exact (hw.processed id row hrow).mono hle

theorem explained_again {r : KafkaRecord} (hw : Explained w) (hr : r ∈ w.log) :
    Explained { w with log := w.log ++ [r] } := by
  have hle : Longer w { w with log := w.log ++ [r] } := ⟨List.prefix_append _ _, List.prefix_rfl⟩
  exact ⟨ledger_again hw.ledger hr, fun id row hrow => (hw.orders id row hrow).mono hle,
    fun id row hrow => (hw.processed id row hrow).mono hle⟩

variable {ι : Type} [DecidableEq ι] {ls : List (PoolAct ι Author Op JsThrow)}
  {s : Pool ι (World Author) Author Op Op.Resp JsThrow JsVal}
  {cond : Pool ι (World Author) Author Op Op.Resp JsThrow JsVal → PoolAct ι Author Op JsThrow → Prop}

theorem explained_of_run
    (hrun : RunWhere (Pool.Step eventFlow) cond (Pool.idle World.empty) ls s) :
    Explained s.world := by
  have hany : ∀ s i a, cond s (.start i a) → True := fun _ _ _ _ => trivial
  have hempty : Explained World.empty := ⟨.nil, fun _ _ => nofun, fun _ _ => nofun⟩
  exact run_invariant hany (fun _ _ hw hr => explained_again hw hr)
    (fun _ _ _ _ hw _ hturn => explained_turn hw hturn) hempty hrun

/-- Nothing is in the tables of order-service that a request has not stored, and every
status it shows has its event on the log: a failed order its `payment.failed`, unless the
request itself could not announce it. -/
theorem orders_explained
    (hrun : RunWhere (Pool.Step eventFlow) cond (Pool.idle World.empty) ls s) :
    ∀ id row, s.world.orders.find? id = some row → OrderExplained s.world row :=
  (explained_of_run hrun).orders

/-- Every row of payment-service has its order on the log, and the outcome that it names
under the payment that it names. -/
theorem payments_explained
    (hrun : RunWhere (Pool.Step eventFlow) cond (Pool.idle World.empty) ls s) :
    ∀ id row, s.world.processed.find? id = some row → PaymentExplained s.world row :=
  (explained_of_run hrun).processed

/-- The row of a completed order, and that of its payment. -/
theorem completedStory_rows :
    (completedStory.orders.find? (hexUuid "a" 0).val).map OrderEntity.status = some .completed ∧
    (completedStory.processed.find? (hexUuid "a" 1).val).map ProcessedEventEntity.outcome =
      some .approved := by
  constructor <;> decide +kernel

theorem orders_explained_completed : ∃ ls,
    ∃ s : Pool Unit (World Author) Author Op Op.Resp JsThrow JsVal,
      RunWhere (Pool.Step eventFlow) (Starting fun _ => True) (Pool.idle World.empty) ls s ∧
      (∃ id row, s.world.orders.find? id = some row ∧ row.status = .completed) ∧
      ∀ id row, s.world.orders.find? id = some row → OrderExplained s.world row := by
  obtain ⟨row, hrow, hstatus⟩ := Option.map_eq_some_iff.mp completedStory_rows.1
  obtain ⟨ls, hrun⟩ := completedStory_any
  exact ⟨ls, _, hrun, ⟨_, row, hrow, hstatus⟩, orders_explained hrun⟩

theorem payments_explained_completed : ∃ ls,
    ∃ s : Pool Unit (World Author) Author Op Op.Resp JsThrow JsVal,
      RunWhere (Pool.Step eventFlow) (Starting fun _ => True) (Pool.idle World.empty) ls s ∧
      (∃ id row, s.world.processed.find? id = some row ∧ row.outcome = .approved) ∧
      ∀ id row, s.world.processed.find? id = some row → PaymentExplained s.world row := by
  obtain ⟨row, hrow, houtcome⟩ := Option.map_eq_some_iff.mp completedStory_rows.2
  obtain ⟨ls, hrun⟩ := completedStory_any
  exact ⟨ls, _, hrun, ⟨_, row, hrow, houtcome⟩, payments_explained hrun⟩

end Tables

end EventFlow.Saga
