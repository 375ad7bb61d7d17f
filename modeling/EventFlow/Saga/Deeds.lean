import EventFlow.Framework.History
import EventFlow.Orders.Creation
import EventFlow.Payments.Handling
import EventFlow.Saga.Calls
import EventFlow.Saga.Validated

namespace EventFlow.Saga

open Js Shared Services Async Retry
open Payment (OrderCreatedEvent evaluatePaymentRules resolvePaymentBusinessRules
  simulatePaymentGateway formatRuleViolations requestedEnvelope)
open Orders (CreateOrderDto pendingOrder announcedOrder orderCreatedRecord)

section Statement

/-- The status that a consumer of order-service projects onto the order. -/
def projectedStatus : RetriedHandler → Option OrderStatus
  | .orderPaymentEvents | .orderStockFailed => some .failed
  | .orderStockReleased => some .cancelled
  | .orderNotificationSent => some .completed
  | _ => none

/-- A record of the event has gone out, under its key. -/
def Posted (done : List Op) (t : EventType) (event : JsVal) : Prop :=
  ∃ key, resolvePartitionKey event = .ok key ∧ Op.emit (domainRecord t key event []) ∈ done

/-- The events that a handler makes of an envelope, each after the one it follows. -/
inductive Announced (proc : Process) (envelope : JsVal) (done : List Op) :
    RetriedHandler → EventType → JsVal → Prop
  | requested : Announced proc envelope done .paymentOrderEvents .paymentRequested
      (requestedEnvelope proc (.ofJs envelope) (proc.uuid 0).val)
  | processed : Posted done .paymentRequested
        (requestedEnvelope proc (.ofJs envelope) (proc.uuid 0).val) →
      Approves proc (.ofJs envelope) → Announced proc envelope done .paymentOrderEvents
        .paymentProcessed (charged proc (.ofJs envelope))
  | failed : Posted done .paymentRequested
        (requestedEnvelope proc (.ofJs envelope) (proc.uuid 0).val) →
      ¬ Approves proc (.ofJs envelope) → Announced proc envelope done .paymentOrderEvents
        .paymentFailed (declined proc (.ofJs envelope) (declineReason proc (.ofJs envelope)))
  | reserved : Announced proc envelope done .stockPaymentEvents .stockReserved
      (reserved proc envelope)
  | released : Announced proc envelope done .stockOrderCancelled .stockReleased
      (released proc envelope)
  | send : Announced proc envelope done .notificationStockReserved .notificationSend
      (announcedSend proc envelope)
  | sent : Posted done .notificationSend (announcedSend proc envelope) →
      Announced proc envelope done .notificationStockReserved .notificationSent
        (announcedSent proc envelope)

/-- What a handler may do with an envelope, after some of its operations have settled well. -/
inductive Enacts (h : RetriedHandler) (proc : Process) (envelope : JsVal) (done : List Op) :
    Op → Prop
  | wait {op} : quiet op = true → Enacts h proc envelope done op
  | project {criterion status} : projectedStatus h = some status →
      proc.drivers.criterion ((envelope.get "payload").get "orderId") = .ok criterion →
      Enacts h proc envelope done (.updateOrder criterion status)
  | announce {t event key} : Announced proc envelope done h t event →
      resolvePartitionKey event = .ok key →
      Enacts h proc envelope done (.emit (domainRecord t key event []))
  | approve : h = .paymentOrderEvents →
      Posted done .paymentProcessed (charged proc (.ofJs envelope)) →
      Enacts h proc envelope done
        (.saveProcessed (Payment.outcomeRow (.ofJs envelope) (proc.uuid 0).val .approved))
  | decline : h = .paymentOrderEvents →
      Posted done .paymentFailed
        (declined proc (.ofJs envelope) (declineReason proc (.ofJs envelope))) →
      Enacts h proc envelope done
        (.saveProcessed (Payment.outcomeRow (.ofJs envelope) (proc.uuid 0).val .failed))

/-- No failure record has gone out. -/
def Unburied (done : List Op) : Prop := ∀ t failure, Op.emit (dlqRecord t failure) ∉ done

/-- What the failure record of a message is made of. -/
structure Buries (h : RetriedHandler) (envelope : JsVal) (failed : CreateFailureEnvelopeParams) :
    Prop where
  original : failed.original = envelope
  originalTopic : failed.originalTopic = h.topic
  service : failed.service = h.service

/-- The events of which a handler has announced one when it is through. -/
def finalEvents : RetriedHandler → List EventType
  | .paymentOrderEvents => [.paymentProcessed, .paymentFailed]
  | .stockPaymentEvents => [.stockReserved]
  | .stockOrderCancelled => [.stockReleased]
  | .notificationStockReserved => [.notificationSent]
  | _ => []

/-- What a handler has done when it is through. -/
structure Achieves (h : RetriedHandler) (proc : Process) (envelope : JsVal) (done : List Op) :
    Prop where
  projected : ∀ status, projectedStatus h = some status → ∃ criterion,
    proc.drivers.criterion ((envelope.get "payload").get "orderId") = .ok criterion ∧
      Op.updateOrder criterion status ∈ done
  announced : finalEvents h ≠ [] → ∃ t ∈ finalEvents h, ∃ d event,
    Announced proc envelope d h t event ∧ Posted done t event

/-- The three ways in which the executor is through with a message. -/
inductive Concludes (h : RetriedHandler) (proc : Process) (envelope : JsVal) (done : List Op) : Prop
  | achieved : Achieves h proc envelope done → Concludes h proc envelope done
  | retried {key n} : resolvePartitionKey envelope = .ok key →
      Op.emit (domainRecord h.eventType key envelope (h.retryHeaders proc envelope n)) ∈ done →
      Concludes h proc envelope done
  | buried {failed failure} : Buries h envelope failed →
      createFailureEnvelope proc failed = .ok failure →
      Op.emit (dlqRecord h.eventType failure) ∈ done → Concludes h proc envelope done

/-- What the executor may do with an envelope: run its handler, and write one record more. -/
inductive Executes (h : RetriedHandler) (proc : Process) (envelope : JsVal) (done : List Op) :
    Op → Prop
  | enact {op} : Enacts h proc envelope done op → Executes h proc envelope done op
  | retry {key n} : resolvePartitionKey envelope = .ok key → Executes h proc envelope done
      (.emit (domainRecord h.eventType key envelope (h.retryHeaders proc envelope n)))
  | bury {failed failure} : Buries h envelope failed →
      createFailureEnvelope proc failed = .ok failure → Unburied done →
      Executes h proc envelope done (.emit (dlqRecord h.eventType failure))

/-- What a call may do: all that the services ever do to the log and the tables. -/
inductive Undertakes : Call → List Op → Op → Prop
  | wait {c done op} : quiet op = true → Undertakes c done op
  | save {proc dto done row} : row ∈ [pendingOrder (proc.uuid 0).val dto, announcedOrder proc dto,
        { announcedOrder proc dto with status := .failed }] →
      (row.status = .pending → ∀ r, Op.emit r ∉ done) →
      Undertakes (.createOrder proc dto) done (.saveOrder row)
  | order {proc dto done} : Op.saveOrder (announcedOrder proc dto) ∈ done →
      Undertakes (.createOrder proc dto) done (.emit (orderCreatedRecord proc dto))
  | enact {h proc headers payload envelope done op} :
      h.read payload = .ok (.accepted envelope) → Enacts h proc envelope done op →
      Undertakes (.consume h proc headers payload) done op
  | skip {proc headers payload envelope done record} :
      parseOrderEventsMessage payload = .ok (.accepted envelope) →
      Undertakes (.consume .paymentOrderEvents proc headers payload) done
        (.saveProcessed (Payments.skippedRow (.ofJs envelope) record))
  | retry {h proc headers payload envelope done key n} :
      h.read payload = .ok (.accepted envelope) → resolvePartitionKey envelope = .ok key →
      Undertakes (.consume h proc headers payload) done
        (.emit (domainRecord h.eventType key envelope (h.retryHeaders proc envelope n)))
  | bury {h proc headers payload envelope done failed failure} :
      h.read payload = .ok (.accepted envelope) → Buries h envelope failed →
      createFailureEnvelope proc failed = .ok failure → Unburied done →
      Undertakes (.consume h proc headers payload) done (.emit (dlqRecord h.eventType failure))

end Statement

section Handlers

variable {proc : Process} {envelope : JsVal} {done : List Op}

theorem Posted.mono {d d' : List Op} {t : EventType} {event : JsVal} (h : Posted d t event)
    (hle : d <+: d') : Posted d' t event := by
  obtain ⟨key, hkey, hmem⟩ := h
  exact ⟨key, hkey, hle.subset hmem⟩

/-- A publish call of a consumer's service sends one record, or throws. -/
theorem follows_eventPublish {S : List Op → Op → Prop} {t : EventType} {event : JsVal}
    (hemit : ∀ key, resolvePartitionKey event = .ok key →
      S done (.emit (domainRecord t key event []))) :
    (eventPublisher.publish t event []).Follows S
      (fun d x => done <+: d ∧ ∀ a, x = .ok a → Posted d t event) done := by
  refine follows_ofExcept_bind (fun key hkey => ?_) fun e _ => ⟨List.prefix_rfl, fun _ => nofun⟩
  refine follows_perform (hemit key hkey) (fun r => ?_) fun e => ⟨List.prefix_rfl, fun _ => nofun⟩
  exact ⟨List.prefix_append _ _, fun _ _ => ⟨key, hkey, List.mem_append_right _ List.mem_cons_self⟩⟩

/-- A function whose operations a handler may do at any time. -/
theorem follows_of_performs {α : Type} {p : Promise α} {h : RetriedHandler}
    (hp : p.Performs fun op => ∀ d, Enacts h proc envelope d op) :
    p.Follows (Enacts h proc envelope) (fun d _ => done <+: d) done :=
  hp.follows fun d _ _ hop => hop d

/-- The end of a payment: its outcome is announced, then recorded. -/
theorem follows_outcome {t : EventType} {event : JsVal} {row : ProcessedEventEntity}
    (hannounce : Announced proc envelope done .paymentOrderEvents t event)
    (hrecord : ∀ d, Posted d t event →
      Enacts .paymentOrderEvents proc envelope d (.saveProcessed row)) :
    ((eventPublisher.publish t event []).bind fun _ => Payment.recordProcessed row).Follows
      (Enacts .paymentOrderEvents proc envelope) (fun d x => ∀ a, x = .ok a → Posted d t event)
      done := by
  refine (follows_eventPublish fun key hkey => .announce hannounce hkey).bind (fun d a hd => ?_)
    fun _ _ _ _ => nofun
  have hposted : Posted d t event := hd.2 a rfl
  exact follows_perform (hrecord d hposted)
    (fun _ _ _ => hposted.mono (List.prefix_append _ _)) fun _ _ => nofun

theorem follows_simulateDelay (result : Payment.PaymentSimulationResult) :
    (Payment.simulateDelay result).Follows (Enacts .paymentOrderEvents proc envelope)
      (fun d _ => done <+: d) done := by
  refine follows_of_performs ?_
  unfold Payment.simulateDelay
  cases result.simulateDelayMs with
  | none => trivial
  | some ms =>
    dsimp only
    split_ifs
    · exact (performs_sleep _).mpr fun d => .wait rfl
    · trivial

/-- The handler of `order.events` asks for the payment before it settles it. -/
theorem follows_processPayment : (Payment.processPayment proc (.ofJs envelope)).Follows
    (Enacts .paymentOrderEvents proc envelope)
    (fun d x => ∀ a, x = .ok a → Achieves .paymentOrderEvents proc envelope d) done := by
  let event : OrderCreatedEvent := .ofJs envelope
  let requested : JsVal := requestedEnvelope proc event (proc.uuid 0).val
  let Q (d : List Op) (x : Except JsThrow Unit) : Prop :=
    ∀ a, x = .ok a → Achieves .paymentOrderEvents proc envelope d
  have hfail : ∀ d, Posted d .paymentRequested requested → ¬ Approves proc event →
      (Payment.failPayment proc event (proc.uuid 0).val (declineReason proc event)
        (requested.get "eventId")).Follows (Enacts .paymentOrderEvents proc envelope) Q d := by
    intro d hposted hno
    have hann : Announced proc envelope d .paymentOrderEvents .paymentFailed
        (declined proc event (declineReason proc event)) := .failed hposted hno
    exact (follows_outcome hann fun _ hout => .decline rfl hout).imp (fun _ _ hop => hop)
      fun d' x hx a ha => ⟨nofun, fun _ => ⟨_, by simp [finalEvents], d, _, hann, hx a ha⟩⟩
  have happrove : ∀ d, Posted d .paymentRequested requested → Approves proc event →
      (Payment.approvePayment proc event (proc.uuid 0).val (requested.get "eventId")).Follows
        (Enacts .paymentOrderEvents proc envelope) Q d := by
    intro d hposted hyes
    have hann : Announced proc envelope d .paymentOrderEvents .paymentProcessed
        (charged proc event) := .processed hposted hyes
    exact (follows_outcome hann fun _ hout => .approve rfl hout).imp (fun _ _ hop => hop)
      fun d' x hx a ha => ⟨nofun, fun _ => ⟨_, by simp [finalEvents], d, _, hann, hx a ha⟩⟩
  have hrequest : (Payment.publishPaymentRequested proc event (proc.uuid 0).val).Follows
      (Enacts .paymentOrderEvents proc envelope)
      (fun d x => ∀ a, x = .ok a → a = requested ∧ Posted d .paymentRequested requested) done := by
    refine (follows_eventPublish fun key hkey => .announce .requested hkey).bind (fun d a hd => ?_)
      fun _ _ _ => fun _ => nofun
    intro a' ha'
    exact ⟨(Except.ok.inj ha').symm, hd.2 a rfl⟩
  refine hrequest.bind (fun d a hd => ?_) fun _ _ _ _ => nofun
  obtain ⟨rfl, hposted⟩ := hd a rfl
  dsimp only
  split_ifs with hempty
  · have hrules := List.isEmpty_iff.mp hempty
    refine (follows_simulateDelay _).bind (fun d' _ hd' => ?_) fun _ _ _ _ => nofun
    have hposted' := hposted.mono hd'
    cases houtcome : (simulatePaymentGateway proc { paymentId := some (proc.uuid 0).val }).outcome with
    | approved => exact happrove d' hposted' ⟨hrules, houtcome⟩
    | failed =>
      have hno : ¬ Approves proc event := by
        rintro ⟨-, hyes⟩
        rw [houtcome] at hyes
        cases hyes
      have hreason : declineReason proc event = (simulatePaymentGateway proc
          { paymentId := some (proc.uuid 0).val }).failureReason.getD "Payment gateway error" :=
        if_pos hempty
      rw [← hreason]
      exact hfail d' hposted' hno
  · have hno : ¬ Approves proc event := fun hyes => hempty (List.isEmpty_iff.mpr hyes.1)
    have hreason : declineReason proc event = "business_rule: " ++ formatRuleViolations
        (evaluatePaymentRules event.payload (resolvePaymentBusinessRules proc.env)) := if_neg hempty
    rw [← hreason]
    exact hfail d hposted hno

/-- A projection is through once the row has been updated. -/
theorem follows_projectStatus {h : RetriedHandler} {status : OrderStatus} {logged : String}
    (hstatus : projectedStatus h = some status) (hfinal : finalEvents h = []) :
    (Orders.projectStatus proc status logged envelope).Follows (Enacts h proc envelope)
      (fun d x => ∀ a, x = .ok a → Achieves h proc envelope d) done := by
  refine follows_ofExcept_bind (fun id hid => ?_) fun _ _ _ => nofun
  obtain rfl : id = (envelope.get "payload").get "orderId" := JsVal.get_of_prop hid
  let Updated (d : List Op) : Prop := ∃ criterion,
    proc.drivers.criterion ((envelope.get "payload").get "orderId") = .ok criterion ∧
      Op.updateOrder criterion status ∈ d
  have hupdate : (Orders.updateOrderStatus proc ((envelope.get "payload").get "orderId")
      status).Follows (Enacts h proc envelope) (fun d x => ∀ a, x = .ok a → Updated d) done := by
    have hop : (Orders.updateOrder proc ((envelope.get "payload").get "orderId") status).Follows
        (Enacts h proc envelope) (fun d x => ∀ a, x = .ok a → Updated d) done :=
      follows_ofExcept_bind (fun criterion hcriterion => follows_perform (.project hstatus hcriterion)
        (fun _ _ _ => ⟨criterion, hcriterion, List.mem_append_right _ List.mem_cons_self⟩)
        fun _ _ => nofun) fun _ _ _ => nofun
    refine hop.bind (fun d n hd => ?_) fun _ _ _ _ => nofun
    split_ifs
    · exact follows_ofExcept_bind (fun _ _ _ => nofun) fun _ _ _ => nofun
    · exact fun _ _ => hd n rfl
  refine hupdate.bind (fun d a hd => ?_) fun _ _ _ _ => nofun
  refine follows_ofExcept fun _ _ => ⟨fun status' hstatus' => ?_, fun hne => absurd hfinal hne⟩
  obtain rfl := Option.some.inj (hstatus.symm.trans hstatus')
  exact hd a rfl

/-- A handler of one event is through once it has gone out. -/
theorem follows_announce {h : RetriedHandler} {t : EventType} {event : JsVal}
    {x : Except JsThrow Unit} (hstatus : projectedStatus h = none)
    (hann : ∀ d, Announced proc envelope d h t event)
    (hfinal : t ∈ finalEvents h) :
    ((eventPublisher.publish t event []).bind fun _ => Async.ofExcept x).Follows
      (Enacts h proc envelope) (fun d x => ∀ a, x = .ok a → Achieves h proc envelope d) done := by
  refine (follows_eventPublish fun key hkey => .announce (hann _) hkey).bind (fun d a hd => ?_)
    fun _ _ _ _ => nofun
  refine follows_ofExcept fun _ _ => ⟨fun status hsome => ?_, fun _ =>
    ⟨t, hfinal, done, event, hann _, hd.2 a rfl⟩⟩
  rw [hstatus] at hsome
  cases hsome

/-- notification-service sends first, and then tells that it has. -/
theorem follows_handleStockReserved : (Notification.handleStockReserved proc envelope).Follows
    (Enacts .notificationStockReserved proc envelope)
    (fun d x => ∀ a, x = .ok a → Achieves .notificationStockReserved proc envelope d) done := by
  refine follows_ofExcept_bind (fun id hid => ?_) fun _ _ _ => nofun
  obtain rfl : id = (envelope.get "payload").get "orderId" := JsVal.get_of_destructure hid
  refine (follows_eventPublish fun key hkey => .announce .send hkey).bind (fun d a hd => ?_)
    fun _ _ _ _ => nofun
  have hann : Announced proc envelope d .notificationStockReserved .notificationSent
      (announcedSent proc envelope) := .sent (hd.2 a rfl)
  refine (follows_eventPublish fun key hkey => .announce hann hkey).bind (fun d' a' hd' => ?_)
    fun _ _ _ _ => nofun
  exact follows_ofExcept fun _ _ =>
    ⟨nofun, fun _ => ⟨_, by simp [finalEvents], d, _, hann, hd'.2 a' rfl⟩⟩

/-- What each handler does, and has done when it is through. -/
theorem follows_handler (h : RetriedHandler) : (h.handler proc envelope).Follows
    (Enacts h proc envelope) (fun d x => ∀ a, x = .ok a → Achieves h proc envelope d) done := by
  have hquiet : ∀ {p : Promise Unit}, projectedStatus h = none → finalEvents h = [] →
      p.Performs (fun op => ∀ d, Enacts h proc envelope d op) →
      p.Follows (Enacts h proc envelope) (fun d x => ∀ a, x = .ok a → Achieves h proc envelope d)
        done := by
    intro p hstatus hfinal hp
    refine (follows_of_performs hp).imp (fun _ _ hop => hop) fun d x _ a _ =>
      ⟨fun status hsome => ?_, fun hne => absurd hfinal hne⟩
    rw [hstatus] at hsome
    cases hsome
  cases h with
  | orderPaymentEvents | orderStockReleased | orderStockFailed | orderNotificationSent =>
    exact follows_projectStatus rfl rfl
  | paymentOrderEvents => exact follows_processPayment
  | paymentOrderCancelled => exact hquiet rfl rfl (performs_paymentOrderCancelled envelope)
  | stockPaymentEvents =>
    refine follows_ofExcept_bind (fun _ _ => ?_) fun _ _ _ => nofun
    refine follows_ofExcept_bind (fun id hid => ?_) fun _ _ _ => nofun
    obtain rfl : id = (envelope.get "payload").get "orderId" := JsVal.get_of_destructure hid
    exact follows_announce rfl (fun _ => .reserved) (by simp [finalEvents])
  | stockOrderCancelled =>
    refine follows_ofExcept_bind (fun id hid => ?_) fun _ _ _ => nofun
    obtain rfl : id = (envelope.get "payload").get "orderId" := JsVal.get_of_destructure hid
    exact follows_announce rfl (fun _ => .released) (by simp [finalEvents])
  | notificationStockReserved =>
    have hlog : (Notification.logOrderId envelope).Performs
        fun op => ∀ d, Enacts .notificationStockReserved proc envelope d op :=
      performs_logOrderId envelope
    exact (follows_of_performs hlog).bind (fun d _ _ => follows_handleStockReserved)
      fun _ _ _ _ => nofun
  | notificationPaymentEvents | notificationOrderCancelled =>
    exact hquiet rfl rfl (performs_logOrderId envelope)

end Handlers

section Executor

variable {h : RetriedHandler} {proc : Process} {envelope : JsVal} {done : List Op}

theorem Unburied.snoc {op : Op} (hd : Unburied done)
    (hop : ∀ t failure, op ≠ .emit (dlqRecord t failure)) : Unburied (done ++ [op]) := by
  intro t failure hmem
  rcases List.mem_append.mp hmem with hold | hnew
  · exact hd t failure hold
  · exact hop t failure (List.mem_singleton.mp hnew).symm

theorem domainRecord_ne_dlqRecord {t u : EventType} {key : String} {event failure : JsVal}
    {hs : List (String × JsVal)} : domainRecord t key event hs ≠ dlqRecord u failure := by
  intro heq
  have htopic : resolveKafkaTopic t = toDlqTopic (resolveKafkaTopic u) :=
    congrArg KafkaRecord.topic heq
  exact resolveKafkaTopic_ne_dlq t u htopic

/-- No handler writes a failure record. -/
theorem unburied_enacts {op : Op} (hd : Unburied done) (hop : Enacts h proc envelope done op) :
    Unburied (done ++ [op]) := by
  refine hd.snoc fun t failure heq => ?_
  cases hop with
  | wait hquiet =>
    rw [heq] at hquiet
    cases hquiet
  | announce _ _ => exact domainRecord_ne_dlqRecord (Op.emit.inj heq)
  | _ => cases heq

/-- The attempts of order-service send one record, and then no more. -/
theorem follows_publishAttempts {S : List Op → Op → Prop} {I : List Op → Prop}
    {policy : RetryPolicyConfig} {publish : Promise Unit}
    {onRetry : ℕ → Number → JsThrow → Except JsThrow Unit} {record : KafkaRecord}
    (hpublish : publish = perform (Op.emit record)) (hemit : ∀ d, I d → S d (.emit record))
    (hsleep : ∀ d ms, I d → S d (.sleep ms) ∧ I (d ++ [.sleep ms])) (fuel attempt : ℕ)
    (lastError : JsThrow) (hI : I done) :
    (publishAttempts policy publish onRetry fuel attempt lastError).Follows S
      (fun d x => ∀ a, x = .ok a → Op.emit record ∈ d) done := by
  have hsent : Op.emit record ∈ done ++ [.emit record] :=
    List.mem_append_right _ List.mem_cons_self
  induction fuel generalizing attempt lastError done with
  | zero => exact fun _ => nofun
  | succ fuel ih =>
    rw [publishAttempts, hpublish]
    split_ifs
    · exact ⟨hemit _ hI, fun _ _ _ => hsent, fun _ _ => nofun⟩
    · refine ⟨hemit _ hI, fun _ _ _ => hsent, fun e => ?_⟩
      refine follows_ofExcept_bind (fun _ _ => ?_) fun _ _ _ => nofun
      obtain ⟨hwait, hI'⟩ := hsleep _ _ hI
      have hrest := ih (attempt + 1) e hI' (List.mem_append_right _ List.mem_cons_self)
      rw [hpublish] at hrest
      exact ⟨hwait, fun _ => hrest, fun _ _ => nofun⟩
    · exact fun _ => nofun

/-- A publish call that gets through has sent its record. -/
theorem follows_publish {S : List Op → Op → Prop} {I : List Op → Prop} {service : ServiceName}
    {env : String → Option String} {t : EventType} {event : JsVal} {hs : List (String × JsVal)}
    (hemit : ∀ d key, I d → resolvePartitionKey event = .ok key →
      S d (.emit (domainRecord t key event hs)))
    (hsleep : ∀ d ms, I d → S d (.sleep ms) ∧ I (d ++ [.sleep ms])) (hI : I done) :
    ((transportOf service env).publish t event hs).Follows S (fun d x => ∀ a, x = .ok a →
      ∃ key, resolvePartitionKey event = .ok key ∧ Op.emit (domainRecord t key event hs) ∈ d)
      done := by
  have hsimple : (eventPublisher.publish t event hs).Follows S (fun d x => ∀ a, x = .ok a →
      ∃ key, resolvePartitionKey event = .ok key ∧ Op.emit (domainRecord t key event hs) ∈ d)
      done := by
    refine follows_ofExcept_bind (fun key hkey => ?_) fun _ _ _ => nofun
    exact follows_perform (hemit _ key hI hkey)
      (fun _ _ _ => ⟨key, hkey, List.mem_append_right _ List.mem_cons_self⟩) fun _ _ => nofun
  cases service with
  | orderService =>
    refine follows_ofExcept_bind (fun key hkey => ?_) fun _ _ _ => nofun
    refine follows_ofExcept_bind (fun _ _ => ?_) fun _ _ _ => nofun
    refine Follows.tryCatch
      (Q := fun d x => ∀ a, x = .ok a → Op.emit (domainRecord t key event hs) ∈ d) ?_
      (fun d a hd _ _ => ⟨key, hkey, hd a rfl⟩) fun d e _ => ?_
    · have hattempts : ∀ policy onRetry, (publishWithProducerRetry policy
          (perform (Op.emit (domainRecord t key event hs))) onRetry).Follows S
          (fun d x => ∀ a, x = .ok a → Op.emit (domainRecord t key event hs) ∈ d) done :=
        fun policy onRetry =>
          follows_publishAttempts rfl (fun d hd => hemit d key hd hkey) hsleep _ _ _ hI
      exact (hattempts _ _).bind (fun d a hd => follows_ofExcept fun _ _ => hd a rfl)
        fun _ _ _ _ => nofun
    · refine follows_ofExcept_bind (fun _ _ => ?_) fun _ _ _ => nofun
      exact follows_ofExcept_bind (fun _ _ _ => nofun) fun _ _ _ => nofun
  | _ => exact hsimple

/-- The failure record goes out at most once. -/
theorem follows_sendToDlq (error : JsThrow)
    (attempt : Number) (hd : Unburied done) :
    ((KafkaRetryExecutor.runner h.service proc.env).sendToDlq proc h.eventType envelope error
      attempt).Follows (Executes h proc envelope)
      (fun d x => ∀ a, x = .ok a → Concludes h proc envelope d) done := by
  refine follows_ofExcept_bind (fun failure hfailure => ?_) fun _ _ _ => nofun
  have hburies : Buries h envelope {
      original := envelope
      originalTopic := resolveKafkaTopic h.eventType
      service := h.service
      error := error
      attempt := attempt
      policy := resolveConsumerRetryPolicy proc.env } := ⟨rfl, h.resolveKafkaTopic_eventType, rfl⟩
  have hemit : ∀ d, Unburied d → Executes h proc envelope d
      (.emit (dlqRecord h.eventType failure)) :=
    fun d hd => .bury hburies hfailure hd
  have hsleep : ∀ d ms, Unburied d → Executes h proc envelope d (.sleep ms) ∧
      Unburied (d ++ [.sleep ms]) :=
    fun d ms hd => ⟨.enact (.wait rfl), hd.snoc fun _ _ => nofun⟩
  have hsend : (perform (Op.emit (dlqRecord h.eventType failure)) : Promise Unit).Follows
      (Executes h proc envelope)
      (fun d x => ∀ a, x = .ok a → Concludes h proc envelope d) done :=
    follows_perform (hemit _ hd) (fun _ _ _ => .buried hburies hfailure
      (List.mem_append_right _ List.mem_cons_self)) fun _ _ => nofun
  change ((transportOf h.service proc.env).publishToDlq h.eventType failure []).Follows _ _ done
  cases h.service with
  | orderService =>
    exact (follows_publishAttempts rfl hemit hsleep _ _ _ hd).imp (fun _ _ hop => hop)
      fun d x hx a ha => .buried hburies hfailure (hx a ha)
  | _ => exact hsend

/-- The copy goes out under the same terms. -/
theorem follows_scheduleRetry (attempt : Number) :
    ((KafkaRetryExecutor.runner h.service proc.env).scheduleRetry proc h.eventType envelope
      attempt).Follows (Executes h proc envelope)
      (fun d x => ∀ a, x = .ok a → Concludes h proc envelope d) done := by
  have hwait : (Shared.sleep (calculateBackoffMs attempt
      (KafkaRetryExecutor.runner h.service proc.env).policy)).Follows
      (Executes h proc envelope) (fun _ _ => True) done :=
    follows_perform (.enact (.wait rfl)) (fun _ => trivial) fun _ => trivial
  refine hwait.bind (fun d _ _ => ?_) fun _ _ _ _ => nofun
  refine (follows_publish (I := fun _ => True) (fun d key _ hkey => .retry hkey)
    (fun d ms _ => ⟨.enact (.wait rfl), trivial⟩) trivial).imp (fun _ _ hop => hop)
      fun d x hx a ha => ?_
  obtain ⟨key, hkey, hmem⟩ := hx a ha
  exact .retried hkey hmem

/-- The catch block of the executor writes one record at most, and has when it is through. -/
theorem follows_onFailure (params : ExecuteWithRetryParams) (htype : params.eventType = h.eventType)
    (henvelope : params.envelope = envelope) (error : JsThrow) (hd : Unburied done) :
    ((KafkaRetryExecutor.runner h.service proc.env).onFailure proc params error).Follows
      (Executes h proc envelope)
      (fun d x => ∀ a, x = .ok a → Concludes h proc envelope d) done := by
  have hdlq : ∀ {outcome : RetryOutcome} (error : JsThrow) (attempt : Number),
      (((KafkaRetryExecutor.runner h.service proc.env).sendToDlq proc params.eventType
        params.envelope error attempt).bind fun _ => .resolve outcome).Follows
        (Executes h proc envelope)
        (fun d x => ∀ a, x = .ok a → Concludes h proc envelope d) done := by
    intro outcome error attempt
    rw [htype, henvelope]
    exact (follows_sendToDlq error attempt hd).bind (fun _ a hd _ _ => hd a rfl)
      fun _ _ _ _ => nofun
  have hretry : ∀ {outcome : RetryOutcome} (attempt : Number),
      (((KafkaRetryExecutor.runner h.service proc.env).scheduleRetry proc params.eventType
        params.envelope attempt).bind fun _ => .resolve outcome).Follows
        (Executes h proc envelope)
        (fun d x => ∀ a, x = .ok a → Concludes h proc envelope d) done := by
    intro outcome attempt
    rw [htype, henvelope]
    exact (follows_scheduleRetry attempt).bind (fun _ a hd _ _ => hd a rfl)
      fun _ _ _ _ => nofun
  refine follows_ofExcept_bind (fun _ _ => ?_) fun _ _ _ => nofun
  split_ifs
  · exact follows_ofExcept_bind (fun _ _ => hdlq _ _) fun _ _ _ => nofun
  · exact follows_ofExcept_bind (fun _ _ => hretry _) fun _ _ _ => nofun
  · exact hdlq _ _

/-- What the executor adds to the handler that it runs. -/
theorem follows_execute {headers : List (String × String)} (hd : Unburied done) :
    (h.execute proc envelope headers (h.handler proc envelope)).Follows
      (Executes h proc envelope)
      (fun d x => ∀ a, x = .ok a → Concludes h proc envelope d) done := by
  have hwait : (KafkaRetryExecutor.awaitRetryAt proc headers).Performs
      fun op => ∀ d, Enacts h proc envelope d op :=
    KafkaRetryExecutor.performs_awaitRetryAt fun ms d => .wait rfl
  have henact : ∀ d op, Enacts h proc envelope d op →
      Executes h proc envelope d op := fun d op hop => .enact hop
  have hstep : ∀ d op, Unburied d → Enacts h proc envelope d op → Unburied (d ++ [op]) :=
    fun d op hd hop => unburied_enacts hd hop
  have hslept := ((follows_of_performs hwait).keeps hstep hd).imp henact fun _ _ hq => hq
  refine hslept.bind (fun d _ hq => ?_) fun _ _ _ _ => nofun
  have hran := ((follows_handler h).keeps hstep hq.2).imp henact fun _ _ hq => hq
  let Q (d : List Op) (x : Except JsThrow RetryOutcome) : Prop :=
    (∀ a, x = .ok a → Concludes h proc envelope d) ∧ Unburied d
  have hsuccess : ((h.handler proc envelope).bind fun _ => .resolve RetryOutcome.success).Follows
      (Executes h proc envelope) Q d :=
    hran.bind (fun _ a hq => ⟨fun _ _ => .achieved (hq.1 a rfl), hq.2⟩)
      fun _ _ hq => ⟨fun _ => nofun, hq.2⟩
  let params : ExecuteWithRetryParams := {
    eventType := h.eventType
    envelope := envelope
    headers := headers
    handler := h.handler proc envelope }
  exact hsuccess.tryCatch (fun _ a hq _ _ => hq.1 a rfl) fun d' e hq' =>
    follows_onFailure params rfl rfl e hq'.2

end Executor

section Calls

variable {proc : Process} {dto : CreateOrderDto}

/-- A request stores its order, announces it, and stores it as failed if it must. -/
theorem follows_createOrder : (Orders.createOrder proc dto).Follows
    (Undertakes (.createOrder proc dto)) (fun _ _ => True) [] := by
  let S : List Op → Op → Prop := Undertakes (.createOrder proc dto)
  have hsave : ∀ {row} (d : List Op), row ∈ [pendingOrder (proc.uuid 0).val dto,
      announcedOrder proc dto, { announcedOrder proc dto with status := .failed }] →
      (row.status = .pending → ∀ r, Op.emit r ∉ d) →
      (Orders.saveOrder row).Follows S
        (fun d' x => ∀ a, x = .ok a → d' = d ++ [.saveOrder row]) d :=
    fun d hrow hquiet => follows_perform (.save hrow hquiet) (fun _ _ _ => rfl) fun _ _ => nofun
  have hsend : ∀ d, Op.saveOrder (announcedOrder proc dto) ∈ d →
      ((orderEventPublisher proc.env).publish .orderCreated
        (Orders.orderCreatedEnvelope proc (proc.uuid 0).val dto) []).Follows S
        (fun d' _ => d <+: d') d := by
    intro d hsaved
    have hperforms : ((orderEventPublisher proc.env).publish .orderCreated
        (Orders.orderCreatedEnvelope proc (proc.uuid 0).val dto) []).Performs
          fun op => ∀ d', d <+: d' → S d' op := by
      refine performs_orderPublish (fun ms d' _ => .wait rfl) fun key hkey _ d' hd' => ?_
      have hnamed : JsVal.str (proc.uuid 0).val = .str key := (getPartitionKey_eq_ok.mp hkey).1
      obtain rfl := JsVal.str.inj hnamed
      exact .order (hd'.subset hsaved)
    exact hperforms.follows fun d' op hd' hop => hop d' hd'
  have hcatch : ∀ error (failure : JsThrow) (d : List Op),
      ((Orders.saveOrder { announcedOrder proc dto with status := .failed }).bind fun _ =>
        (Async.ofExcept (errorText error)).bind fun _ => (.reject failure : Promise Unit)).Follows S
        (fun _ _ => True) d := by
    intro error failure d
    refine (hsave d (by simp) fun hpending => by cases hpending).bind (fun _ _ _ => ?_)
      fun _ _ _ => trivial
    exact follows_ofExcept_bind (fun _ _ => trivial) fun _ _ => trivial
  rw [Orders.createOrder_eq]
  refine (hsave [] (by simp) (by simp)).bind (fun d a hfirst => ?_) fun _ _ _ => trivial
  obtain rfl := hfirst a rfl
  rw [Orders.publishOrderCreated_eq]
  refine (hsave _ (by simp) (by simp)).bind (fun d' a' hsecond => ?_) fun _ _ _ => trivial
  have hsaved : Op.saveOrder (announcedOrder proc dto) ∈ d' := by
    rw [hsecond a' rfl]
    exact List.mem_append_right _ List.mem_cons_self
  have hsent : (((orderEventPublisher proc.env).publish .orderCreated
      (Orders.orderCreatedEnvelope proc (proc.uuid 0).val dto) []).tryCatch fun error =>
        (Orders.saveOrder { announcedOrder proc dto with status := .failed }).bind fun _ =>
          (Async.ofExcept (errorText error)).bind fun _ => .reject (.error
            "InternalServerErrorException" "Order saved but event could not be published")).Follows S
      (fun _ _ => True) d' :=
    (hsend d' hsaved).tryCatch (fun _ _ _ => trivial) fun d'' error _ => hcatch error _ d''
  exact hsent.bind (fun _ _ _ => trivial) fun _ _ _ => trivial

variable {h : RetriedHandler} {headers : List (String × RawHeader)} {payload : KafkaValue}

theorem Executes.undertakes {envelope : JsVal} {done : List Op} {op : Op}
    (hop : Executes h proc envelope done op) (hread : h.read payload = .ok (.accepted envelope)) :
    Undertakes (.consume h proc headers payload) done op := by
  cases hop with
  | enact hop => exact .enact hread hop
  | retry hkey => exact .retry hread hkey
  | bury hburies hfailure hnone => exact .bury hread hburies hfailure hnone

/-- The executor on behalf of a consumer that answers what became of the message. -/
theorem follows_acked {envelope : JsVal} {done : List Op} {answer : RetryOutcome → JsVal}
    (hd : Unburied done) :
    ((h.execute proc envelope (parseKafkaHeaders proc.drivers headers) (h.handler proc envelope)).bind
      fun outcome => .resolve (answer outcome)).Follows (Executes h proc envelope)
      (fun d x => ∀ a, x = .ok a → Concludes h proc envelope d) done :=
  (follows_execute hd).bind (fun _ o hq _ _ => hq o rfl) fun _ _ _ _ => nofun

/-- What a consumer does with an envelope that it takes, payment-service with orders apart. -/
theorem follows_taken {envelope : JsVal} (hother : h ≠ .paymentOrderEvents) :
    (accepted h proc headers envelope).Follows (Executes h proc envelope)
      (fun d x => ∀ a, x = .ok a → Concludes h proc envelope d) [] := by
  have hnone : Unburied [] := fun _ _ => List.not_mem_nil
  cases h with
  | paymentOrderEvents => exact absurd rfl hother
  | paymentOrderCancelled =>
    refine follows_ofExcept_bind (fun _ _ => ?_) fun _ _ _ => nofun
    exact follows_ofExcept_bind (fun _ _ => follows_acked hnone) fun _ _ _ => nofun
  | _ => exact follows_acked hnone

/-- payment-service looks its orders up first. -/
theorem follows_accepted {envelope : JsVal} (hread : h.read payload = .ok (.accepted envelope)) :
    (accepted h proc headers envelope).Follows (Undertakes (.consume h proc headers payload))
      (fun _ _ => True) [] := by
  have hnone : Unburied [] := fun _ _ => List.not_mem_nil
  by_cases hpayment : h = .paymentOrderEvents
  · subst hpayment
    let c : Call := .consume .paymentOrderEvents proc headers payload
    let event : OrderCreatedEvent := .ofJs envelope
    have hcheck : (Payment.checkOrderCreated event.eventId event.payload.orderId).Performs
        fun op => quiet op = true := Payment.performs_checkOrderCreated rfl rfl
    have hchecked : (Payment.checkOrderCreated event.eventId event.payload.orderId).Follows
        (Undertakes c) (fun d _ => Unburied d) [] := by
      have hfollows : (Payment.checkOrderCreated event.eventId event.payload.orderId).Follows
          (fun _ op => quiet op = true) (fun d _ => [] <+: d) [] :=
        hcheck.follows fun _ _ _ hop => hop
      refine (hfollows.keeps (fun d op hd hop => hd.snoc fun t failure heq => ?_) hnone).imp
        (fun d op hop => .wait hop) fun _ _ hq => hq.2
      rw [heq] at hop
      cases hop
    refine hchecked.bind (fun d check hd => ?_) fun _ _ _ => trivial
    cases check with
    | new =>
      exact (follows_acked hd).imp (fun _ _ hop => hop.undertakes hread) fun _ _ _ => trivial
    | duplicateEvent record => trivial
    | duplicateOrder record =>
      have hskip : (Payment.recordProcessed (Payments.skippedRow event record)).Follows
          (Undertakes c) (fun _ _ => True) d :=
        follows_perform (.skip hread) (fun _ => trivial) fun _ => trivial
      exact hskip.bind (fun _ _ _ => trivial) fun _ _ _ => trivial
  · exact (follows_taken hpayment).imp (fun _ _ hop => hop.undertakes hread) fun _ _ _ => trivial

/-- Whatever it is called with, and however its operations settle, a call does nothing but
what it may. -/
theorem follows_call (c : Call) : c.body.Follows (Undertakes c) (fun _ _ => True) [] := by
  cases c with
  | createOrder proc dto => exact follows_createOrder
  | consume h proc headers payload =>
    obtain ⟨invalid, skipped, -, -, hmethod⟩ := method_eq h proc headers payload
    show (h.method proc headers payload).Follows _ _ []
    rw [hmethod]
    unfold consumeParsed
    split
    · trivial
    · trivial
    · trivial
    · next envelope hread => exact follows_accepted hread

end Calls

end EventFlow.Saga
