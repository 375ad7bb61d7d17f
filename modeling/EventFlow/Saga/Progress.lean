import EventFlow.Payments.Outcomes
import EventFlow.Retry.Chain
import EventFlow.Saga.Milestones

namespace EventFlow.Saga

open Js Shared Services Async Retry
open Payment (OrderCreatedEvent)
open Payments (paymentWrites)

section Handlers

variable {C : Type} {c : C} {w : World C} {proc : Process} {v : JsVal} {orderId : String}

theorem ends_logOrderId (horder : (v.get "payload").get "orderId" = .str orderId) :
    Ends c (Notification.logOrderId v) w () [] := by
  have hne : (v.get "payload").get "orderId" ≠ .undefined := by
    rw [horder]
    exact nofun
  have hread : (v.get "payload").prop "orderId" = .ok (.str orderId) :=
    JsVal.prop_eq_ok.mpr ⟨JsVal.isNullish_of_get hne, horder⟩
  exact .ofExcept_bind hread (.logLine (by simp))

/-- A reaction goes out, and a log line. -/
theorem ends_announce {t : EventType} {event : JsVal}
    (hid : (event.get "payload").get "orderId" = .str orderId) (hne : orderId ≠ "") :
    Ends c ((eventPublisher.publish t event []).bind fun _ =>
        Async.ofExcept (JsVal.logLine [.str orderId])) w ()
      [.emit (domainRecord t orderId event [])] :=
  (Ends.publish hid hne).bind fun _ _ => .logLine (by simp)

theorem ends_stockPaymentEvents (horder : (v.get "payload").get "orderId" = .str orderId)
    (hne : orderId ≠ "") : Ends c (RetriedHandler.stockPaymentEvents.handler proc v) w ()
      [.emit (domainRecord .stockReserved orderId (reserved proc v) [])] := by
  have hread : (v.get "payload").destructure "orderId" "event.payload" = .ok (.str orderId) := by
    have hpayload := (keyed_iff.mpr ⟨orderId, horder, hne⟩ : Keyed v).readable.1
    exact JsVal.destructure_eq_ok.mpr ⟨hpayload, horder⟩
  have hevent : Ends c (Stock.handlePaymentProcessed proc v) w ()
      [.emit (domainRecord .stockReserved orderId (reserved proc v) [])] := by
    refine .ofExcept_bind hread ?_
    rw [reserved, horder]
    exact ends_announce rfl hne
  have hlog : JsVal.logLine [(v.get "payload").get "orderId"] = .ok () := by
    rw [horder]
    rfl
  exact .ofExcept_bind hlog hevent

theorem ends_stockOrderCancelled (horder : (v.get "payload").get "orderId" = .str orderId)
    (hne : orderId ≠ "") : Ends c (RetriedHandler.stockOrderCancelled.handler proc v) w ()
      [.emit (domainRecord .stockReleased orderId (released proc v) [])] := by
  have hread : (v.get "payload").destructure "orderId" "event.payload" = .ok (.str orderId) := by
    have hpayload := (keyed_iff.mpr ⟨orderId, horder, hne⟩ : Keyed v).readable.1
    exact JsVal.destructure_eq_ok.mpr ⟨hpayload, horder⟩
  refine .ofExcept_bind hread ?_
  rw [released, horder]
  exact ends_announce rfl hne

theorem ends_notificationStockReserved (horder : (v.get "payload").get "orderId" = .str orderId)
    (hne : orderId ≠ "") : Ends c (RetriedHandler.notificationStockReserved.handler proc v) w ()
      [.emit (domainRecord .notificationSend orderId (announcedSend proc v) []),
        .emit (domainRecord .notificationSent orderId (announcedSent proc v) [])] := by
  have hread : (v.get "payload").destructure "orderId" "event.payload" = .ok (.str orderId) := by
    have hpayload := (keyed_iff.mpr ⟨orderId, horder, hne⟩ : Keyed v).readable.1
    exact JsVal.destructure_eq_ok.mpr ⟨hpayload, horder⟩
  refine (ends_logOrderId horder).bind fun _ _ => .ofExcept_bind hread ?_
  rw [announcedSent, announcedSend, horder]
  exact (Ends.publish rfl hne).bind fun _ _ => ends_announce rfl hne

/-- The projection of an event onto the row of its order. -/
theorem ends_projectStatus {status : OrderStatus} {logged : String} {row : OrderEntity}
    (horder : (v.get "payload").get "orderId" = .str orderId)
    (hrow : w.orders.find? orderId = some row)
    (hlogged : ((v.get "payload").get logged).printable = true) :
    Ends c (Orders.projectStatus proc status logged v) w () [.updateOrder (byId orderId) status] := by
  have hne : (v.get "payload").get "orderId" ≠ .undefined := by
    rw [horder]
    exact nofun
  have hread : (v.get "payload").prop "orderId" = .ok (.str orderId) :=
    JsVal.prop_eq_ok.mpr ⟨JsVal.isNullish_of_get hne, horder⟩
  have haffected : (w.exec c (.updateOrder (byId orderId) status)).1 ≠ (0 : ℕ) :=
    (World.affected_updateOrder c w _ status rfl).mpr ⟨orderId, row, byId_eq_true.mpr rfl, hrow⟩
  have hupdate : Ends c (Orders.updateOrderStatus proc (.str orderId) status) w ()
      [.updateOrder (byId orderId) status] := by
    have hrest : ∀ affected : ℕ, affected ≠ 0 → ∀ w' : World C, Ends c (if affected = 0 then (do
          let text ← Async.ofExcept (JsVal.str orderId).toText
          .reject (.error "NotFoundException" ("Order " ++ text ++ " not found")))
        else .resolve ()) w' () [] := by
      intro affected hfound w'
      rw [if_neg hfound]
      exact .resolve ()
    have hop : Ends c (Orders.updateOrder proc (.str orderId) status) w
        (w.exec c (.updateOrder (byId orderId) status)).1 [.updateOrder (byId orderId) status] :=
      .ofExcept_bind (proc.drivers.criterion_str orderId) (.perform rfl)
    exact hop.bind fun _ _ => hrest _ haffected _
  refine .ofExcept_bind hread (hupdate.bind fun _ _ => .logLine ?_)
  simpa using hlogged

end Handlers

section Methods

variable {C : Type} {c : C} {w : World C} {h : RetriedHandler} {proc : Process} {v : JsVal}
  {writes : List Op} {headers : List (String × RawHeader)} {payload : KafkaValue}

/-- The executor adds nothing to a handler that gets to its end. -/
theorem ends_execute {handler : Promise Unit} {headers : List (String × String)}
    (hhandler : ∀ ops, (∀ op ∈ ops, quiet op = true) → Ends c handler (w.after c ops) () writes) :
    Ends c (h.execute proc v headers handler) w .success writes := by
  let waits : List Op := KafkaRetryExecutor.waitOps proc headers
  have hquiet : ∀ op ∈ waits, quiet op = true := (KafkaRetryExecutor.waits_waitOps proc headers).quiet
  obtain ⟨ops, hrun, hwrites⟩ := hhandler waits hquiet
  have hran : (h.execute proc v headers handler).run (World.settle c noFailure) w =
      (.ok .success, (w.after c waits).after c ops) :=
    KafkaRetryExecutor.run_execute_ok _ proc _ (fun _ => rfl) hrun
  refine ⟨waits ++ ops, ?_, ?_⟩
  · rw [World.after_append]
    exact hran
  · have hnone : waits.filter (fun op => !quiet op) = [] :=
      List.filter_eq_nil_iff.mpr fun op hop => by simp [hquiet op hop]
    rw [List.filter_append, hnone, hwrites, List.nil_append]

/-- Most methods run their executor, and acknowledge. -/
theorem ends_accepted (hne : h ≠ .paymentOrderEvents) (hne' : h ≠ .paymentOrderCancelled)
    (hhandler : ∀ ops, (∀ op ∈ ops, quiet op = true) →
      Ends c (h.handler proc v) (w.after c ops) () writes) :
    ∃ ack, Ends c (accepted h proc headers v) w ack writes := by
  have hran : Ends c (h.execute proc v (parseKafkaHeaders proc.drivers headers)
      (h.handler proc v)) w .success
      writes := ends_execute hhandler
  cases h with
  | paymentOrderEvents => exact absurd rfl hne
  | paymentOrderCancelled => exact absurd rfl hne'
  | orderNotificationSent => exact ⟨_, hran.map Orders.ackCompleted⟩
  | _ => exact ⟨_, hran.map fun o : RetryOutcome => ackOutcome o.value⟩

/-- payment-service handles an order that it has no row of. -/
theorem ends_accepted_order {event : OrderCreatedEvent} (hevent : event = .ofJs v)
    (hnew : w.processed.find? event.eventId = none)
    (hopen : w.processed.findOne (fun row => row.orderId = event.payload.orderId ∧
      row.outcome = .approved) = none)
    (hhandler : ∀ ops, (∀ op ∈ ops, quiet op = true) →
      Ends c (Payment.handleOrderCreated proc event) (w.after c ops) () writes) :
    ∃ ack, Ends c (accepted .paymentOrderEvents proc headers v) w ack writes := by
  subst hevent
  let event : OrderCreatedEvent := .ofJs v
  let finds : List Op := [.findByEvent event.eventId, .findApproved event.payload.orderId]
  have hcheck : Ends c (Payment.checkOrderCreated event.eventId event.payload.orderId) w .new [] := by
    refine ⟨finds, ?_, rfl⟩
    have hevent : (Payment.checkOrderCreated event.eventId event.payload.orderId).run
        (World.settle c noFailure) w = (Payment.decideByEvent event.payload.orderId
          (w.processed.find? event.eventId)).run (World.settle c noFailure)
            (w.after c [.findByEvent event.eventId]) := rfl
    have horder : (Payment.decideByEvent event.payload.orderId none).run (World.settle c noFailure)
        (w.after c [.findByEvent event.eventId]) = (Payment.decideByOrder (w.processed.findOne
          fun row => row.orderId = event.payload.orderId ∧ row.outcome = .approved)).run
            (World.settle c noFailure) (w.after c finds) := rfl
    rw [hevent, hnew, horder, hopen]
    rfl
  have hran : ∀ ops, ops.filter (fun op => !quiet op) = [] →
      Ends c (Payment.handleChecked proc headers v event .new) (w.after c ops)
        (ackOutcome "success") writes := by
    intro ops hops
    have hquiet : ∀ op ∈ ops, quiet op = true := by
      intro op hop
      simpa using List.filter_eq_nil_iff.mp hops op hop
    have hexecuted : Ends c (RetriedHandler.paymentOrderEvents.execute proc v
        (parseKafkaHeaders proc.drivers headers) (Payment.handleOrderCreated proc event)) (w.after c ops)
        .success writes := by
      refine ends_execute fun waits hwaits => ?_
      rw [← World.after_append]
      refine hhandler _ fun op hop => ?_
      rcases List.mem_append.mp hop with h | h
      · exact hquiet op h
      · exact hwaits op h
    exact hexecuted.map fun o => ackOutcome o.value
  exact ⟨_, hcheck.bind hran⟩

/-- A method that takes a message does what it does with its envelope. -/
theorem ends_method {ack : JsVal} (hread : h.read payload = .ok (.accepted v))
    (haccepted : Ends c (accepted h proc headers v) w ack writes) :
    Ends c (h.method proc headers payload) w ack writes := by
  obtain ⟨invalid, skipped, -, -, hmethod⟩ := method_eq h proc headers payload
  rw [hmethod, hread]
  exact haccepted

end Methods

end EventFlow.Saga
