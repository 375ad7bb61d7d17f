import EventFlow.Framework.Choreography
import EventFlow.Saga.Causation
import EventFlow.Saga.Deeds
import EventFlow.Shared.Catalog

namespace EventFlow.Saga

open Js Shared Services Async Retry
open Orders (announcedOrder orderCreatedRecord)

section Authors

/-- What an author may do, after some of its operations have settled well. -/
def Wrote : Author → List Op → Op → Prop
  | .service c => Undertakes c
  | .cancel orderId envelope =>
    fun _ op => op = .emit (domainRecord .orderCancelled orderId envelope [])

theorem follows_author (a : Author) : a.body.Follows (Wrote a) (fun _ _ => True) [] := by
  cases a with
  | service c => exact follows_call c
  | cancel orderId envelope =>
    have hsend : (perform (Op.emit (domainRecord .orderCancelled orderId envelope [])) :
        Promise Unit).Follows (Wrote (.cancel orderId envelope)) (fun _ _ => True) [] :=
      follows_perform rfl (fun _ => trivial) fun _ => trivial
    exact hsend.bind (fun _ _ _ => trivial) fun _ _ _ => trivial

/-- An operation that has settled well stays on the trace, and its record on the log. -/
structure Recorded (w : World Author) (a : Author) (op : Op) : Prop where
  trace : (a, op) ∈ w.trace
  log : ∀ r, op = .emit r → r ∈ w.log

/-- One operation of a call that could start, with those it has done before. -/
structure Turn (w : World Author) (a : Author) (done : List Op) (op : Op) : Prop where
  ready : eventFlow.ready w a
  recorded : ∀ op' ∈ done, Recorded w a op'
  wrote : Wrote a done op

/-- The log and the trace only get longer. -/
structure Longer (w w' : World Author) : Prop where
  log : w.log <+: w'.log
  trace : w.trace <+: w'.trace

variable {w w' : World Author} {a : Author} {op : Op}

theorem Longer.refl (w : World Author) : Longer w w := ⟨List.prefix_rfl, List.prefix_rfl⟩

theorem Longer.trans (w w' w'' : World Author) (h : Longer w w') (h' : Longer w' w'') :
    Longer w w'' := ⟨h.log.trans h'.log, h.trace.trans h'.trace⟩

theorem longer_exec : Longer w (w.exec a op).2 := by
  refine ⟨?_, List.prefix_append _ _⟩
  by_cases hemit : ∃ r, op = .emit r
  · obtain ⟨r, rfl⟩ := hemit
    exact List.prefix_append _ _
  · have hsame : (w.exec a op).2.log = w.log := World.exec_log a w fun r heq => hemit ⟨r, heq⟩
    exact ⟨[], (List.append_nil _).trans hsame.symm⟩

theorem ready_mono (h : eventFlow.ready w a) (hle : Longer w w') : eventFlow.ready w' a := by
  cases a with
  | cancel orderId envelope => exact h
  | service c =>
    cases c with
    | createOrder proc dto => exact h
    | consume _ _ _ _ =>
      obtain ⟨r, hr, hsame⟩ := h
      exact ⟨r, hle.log.subset hr, hsame⟩

theorem Recorded.mono (h : Recorded w a op) (hle : Longer w w') : Recorded w' a op :=
  ⟨hle.trace.subset h.trace, fun r heq => hle.log.subset (h.log r heq)⟩

theorem recorded_exec : Recorded (w.exec a op).2 a op := by
  refine ⟨List.mem_append_right _ List.mem_cons_self, fun r heq => ?_⟩
  subst heq
  exact List.mem_append_right _ List.mem_cons_self

variable {I : World Author → Prop} {may : Author → Prop}

/-- What every turn of an author keeps grows as the runs do. -/
def growing (hagain : ∀ w r, I w → r ∈ w.log → I { w with log := w.log ++ [r] })
    (hturn : ∀ w a done op, I w → may a → Turn w a done op → I (w.exec a op).2) :
    Pool.Growth eventFlow may where
  le := Longer
  safe := I
  allowed w a done op := eventFlow.ready w a ∧ may a ∧ Wrote a done op
  left a op w := Recorded w a op
  le_refl := Longer.refl
  le_trans := Longer.trans
  left_le _ _ _ _ h hle := h.mono hle
  env w w' hw henv := by
    obtain ⟨r, hr, rfl⟩ := henv
    exact ⟨⟨List.prefix_append _ _, List.prefix_rfl⟩, hagain w r hw hr⟩
  start w a hmay _ hready :=
    (follows_author a).imp (fun _ _ hop => ⟨hready, hmay, hop⟩) fun _ _ h => h
  exec w₀ w a done op hw hle hdone hop := by
    obtain ⟨hready, hmay, hwrote⟩ := hop
    have hnext : I (w.exec a op).2 := hturn w a done op hw hmay ⟨ready_mono hready hle, hdone, hwrote⟩
    exact ⟨longer_exec, hnext, recorded_exec⟩

variable {ι : Type} [DecidableEq ι] {ls : List (PoolAct ι Author Op JsThrow)}
  {s : Pool ι (World Author) Author Op Op.Resp JsThrow JsVal}
  {cond : Pool ι (World Author) Author Op Op.Resp JsThrow JsVal → PoolAct ι Author Op JsThrow → Prop}

/-- The invariant rule for the system: every turn keeps it, and so does the broker when it
stores a record again. -/
theorem run_invariant (hcond : ∀ s i a, cond s (.start i a) → may a)
    (hagain : ∀ w r, I w → r ∈ w.log → I { w with log := w.log ++ [r] })
    (hturn : ∀ w a done op, I w → may a → Turn w a done op → I (w.exec a op).2) (hw : I w)
    (hrun : RunWhere (Pool.Step eventFlow) cond (Pool.idle w) ls s) : I s.world :=
  (growing hagain hturn).safe_of_run hcond hrun hw

end Authors

section Records

/-- The event that each event reacts to. Nothing makes a `stock.failed` or a
`notification.failed`. -/
def reactsTo : EventType → Option EventType
  | .paymentRequested => some .orderCreated
  | .paymentProcessed | .paymentFailed => some .paymentRequested
  | .stockReserved => some .paymentProcessed
  | .stockReleased => some .orderCancelled
  | .notificationSend => some .stockReserved
  | .notificationSent => some .notificationSend
  | .orderCreated | .orderCancelled | .stockFailed | .notificationFailed => none

/-- A record of an event, under its order and where the catalog puts it. -/
structure Routed (t : EventType) (orderId : String) (r : KafkaRecord) : Prop where
  topic : r.topic = resolveKafkaTopic t
  key : r.key = .str orderId
  eventType : (envelopeOf r).get "eventType" = .str t.value
  correlationId : (envelopeOf r).get "correlationId" = .str orderId
  order : ((envelopeOf r).get "payload").get "orderId" = .str orderId
  source : t ≠ .orderCancelled → ∃ entry, getCatalogEntry t = some entry ∧
    (envelopeOf r).get "source" = .str entry.producer.value

/-- A failure record of a consumer, around a record that it has received. -/
structure Wraps (h : RetriedHandler) (r₀ r : KafkaRecord) : Prop where
  topic : r.topic = toDlqTopic r₀.topic
  key : r.key = (envelopeOf r₀).get "correlationId"
  eventType : (envelopeOf r).get "eventType" = (envelopeOf r₀).get "eventType"
  correlationId : (envelopeOf r).get "correlationId" = (envelopeOf r₀).get "correlationId"
  source : (envelopeOf r).get "source" = .str h.service.value
  kind : ((envelopeOf r).get "payload").get "kind" = .str "event.failure"
  failedBy : ((envelopeOf r).get "payload").get "failedBy" = .str h.service.value
  originalTopic : ((envelopeOf r).get "payload").get "originalTopic" = .str r₀.topic
  originalEnvelope : ((envelopeOf r).get "payload").get "originalEnvelope" = envelopeOf r₀

/-- Where a record comes from that is written after those of `log`. -/
inductive Source (log : List KafkaRecord) (r : KafkaRecord) : Prop
  | begun {t orderId} : t = .orderCreated ∨ t = .orderCancelled → Routed t orderId r → Source log r
  | reacted {t u orderId r₀} : reactsTo t = some u → r₀ ∈ log → Routed u orderId r₀ →
      Routed t orderId r → Source log r
  | copied {r₀} : r₀ ∈ log → r.topic = r₀.topic → r.key = r₀.key → r.value = r₀.value →
      Source log r
  | failed {h : RetriedHandler} {orderId r₀} : r₀ ∈ log → Routed h.eventType orderId r₀ →
      h.read r₀.value = .ok (.accepted (envelopeOf r₀)) → Wraps h r₀ r → Source log r

/-- A log in which each record comes from those in front of it. -/
inductive Ledger : List KafkaRecord → Prop
  | nil : Ledger []
  | snoc {log r} : Ledger log → Sealed r → Source log r → Ledger (log ++ [r])

variable {log pre post : List KafkaRecord} {r r₀ : KafkaRecord} {h : RetriedHandler} {t u : EventType}
  {orderId : String} {proc : Process} {v event : JsVal} {done : List Op} {key : String}

theorem envelopeOf_congr (hvalue : r.value = r₀.value) : envelopeOf r = envelopeOf r₀ := by
  rw [envelopeOf, envelopeOf, hvalue]

theorem envelopeOf_value (hvalue : r.value = .value v) : envelopeOf r = v := by
  rw [envelopeOf, hvalue]

theorem Routed.copy (hr : Routed t orderId r₀) (htopic : r.topic = r₀.topic) (hkey : r.key = r₀.key)
    (hvalue : r.value = r₀.value) : Routed t orderId r := by
  have henvelope := envelopeOf_congr hvalue
  refine ⟨htopic.trans hr.topic, hkey.trans hr.key, ?_, ?_, ?_, ?_⟩ <;> rw [henvelope]
  exacts [hr.eventType, hr.correlationId, hr.order, hr.source]

theorem Wraps.copy {x : KafkaRecord} (hr : Wraps h x r₀) (htopic : r.topic = r₀.topic)
    (hkey : r.key = r₀.key) (hvalue : r.value = r₀.value) : Wraps h x r := by
  have henvelope := envelopeOf_congr hvalue
  refine ⟨htopic.trans hr.topic, hkey.trans hr.key, ?_, ?_, ?_, ?_, ?_, ?_, ?_⟩ <;> rw [henvelope]
  exacts [hr.eventType, hr.correlationId, hr.source, hr.kind, hr.failedBy, hr.originalTopic,
    hr.originalEnvelope]

/-- A record is of one event, of one order. -/
theorem Routed.unique {orderId' : String} (hr : Routed t orderId r) (hr' : Routed u orderId' r) :
    t = u ∧ orderId = orderId' := by
  have htype := JsVal.str.inj (hr.eventType.symm.trans hr'.eventType)
  have horder := JsVal.str.inj (hr.order.symm.trans hr'.order)
  exact ⟨EventType.value_injective htype, horder⟩

namespace Ledger

theorem sealed (hlog : Ledger log) : ∀ r ∈ log, Sealed r := by
  induction hlog with
  | nil => exact fun r hr => absurd hr List.not_mem_nil
  | snoc _ hsealed _ ih =>
    intro x hx
    rcases List.mem_append.mp hx with hold | hnew
    · exact ih x hold
    · rw [List.mem_singleton.mp hnew]
      exact hsealed

/-- Every record is one of an event, or a failure record around an earlier one. -/
theorem routed_or_wraps (hlog : Ledger log) (hsplit : log = pre ++ r :: post) :
    (∃ t orderId, Routed t orderId r) ∨
      ∃ h orderId, ∃ r₀ ∈ pre, Routed h.eventType orderId r₀ ∧
        h.read r₀.value = .ok (.accepted (envelopeOf r₀)) ∧ Wraps h r₀ r := by
  induction hlog generalizing pre r post with
  | nil => cases pre <;> cases hsplit
  | @snoc log x _ _ hsource ih =>
    rcases split_snoc hsplit with ⟨rfl, rfl⟩ | ⟨post', hpre⟩
    · cases hsource with
      | begun _ hr => exact .inl ⟨_, _, hr⟩
      | reacted _ _ _ hr => exact .inl ⟨_, _, hr⟩
      | failed hmem hrouted hread hwraps => exact .inr ⟨_, _, _, hmem, hrouted, hread, hwraps⟩
      | copied hmem htopic hkey hvalue =>
        obtain ⟨before, after, hcut⟩ := List.append_of_mem hmem
        rcases ih hcut with ⟨t, orderId, hr⟩ | ⟨h, orderId, x, hx, hrouted, hread, hwraps⟩
        · exact .inl ⟨t, orderId, hr.copy htopic hkey hvalue⟩
        · refine .inr ⟨h, orderId, x, ?_, hrouted, hread, hwraps.copy htopic hkey hvalue⟩
          rw [hcut]
          exact List.mem_append_left _ hx
    · exact ih hpre

/-- What a consumer takes from its topic is a record of its own event. -/
theorem received (hlog : Ledger log) (hr : r ∈ log) (htopic : r.topic = h.topic)
    (hread : h.read r.value = .ok (.accepted v)) :
    ∃ orderId, Routed h.eventType orderId r ∧ r.value = .value v ∧ v.isJson = true := by
  obtain ⟨x, hvalue, hjson, hhas⟩ := hlog.sealed r hr
  rw [hvalue] at hread
  obtain rfl := read_sealed hhas hread
  have henvelope : envelopeOf r = v := envelopeOf_value hvalue
  obtain ⟨pre, post, hsplit⟩ := List.append_of_mem hr
  rcases hlog.routed_or_wraps hsplit with
    ⟨t, orderId, hrouted⟩ | ⟨h', orderId, r₀, -, hr₀, -, hwraps⟩
  · have hsame : resolveKafkaTopic t = h.topic := hrouted.topic.symm.trans htopic
    have hparsed : ∀ {t' : EventType} {validate : JsVal → Except JsThrow Unit},
        parseMessage t' validate (.value v) = .ok (.accepted v) → t = t' := by
      intro t' validate hp
      have htype := (parseMessage_eq_accepted.mp hp).2.1.eventType
      rw [← henvelope, hrouted.eventType] at htype
      exact EventType.value_injective (JsVal.str.inj htype)
    have htype : t = h.eventType := by
      cases h with
      | orderPaymentEvents | notificationPaymentEvents | stockPaymentEvents => exact hparsed hread
      | _ =>
        revert hsame
        cases t <;> decide
    exact ⟨orderId, htype ▸ hrouted, hvalue, hjson⟩
  · have hdlq : resolveKafkaTopic h.eventType = toDlqTopic (resolveKafkaTopic h'.eventType) := by
      rw [h.resolveKafkaTopic_eventType, ← htopic, hwraps.topic, hr₀.topic]
    exact absurd hdlq (resolveKafkaTopic_ne_dlq _ _)

end Ledger

/-- A record of an envelope that says what it should. -/
theorem routed_domainRecord (htype : event.get "eventType" = .str t.value)
    (hcorr : event.get "correlationId" = .str orderId)
    (horder : (event.get "payload").get "orderId" = .str orderId)
    (hsource : t ≠ .orderCancelled → ∃ entry, getCatalogEntry t = some entry ∧
      event.get "source" = .str entry.producer.value) :
    Routed t orderId (domainRecord t orderId event []) where
  topic := rfl
  key := rfl
  eventType := JsVal.get_wire_str htype
  correlationId := JsVal.get_wire_str hcorr
  order := JsVal.get_get_wire_str horder
  source hne := by
    obtain ⟨entry, hentry, hfrom⟩ := hsource hne
    exact ⟨entry, hentry, JsVal.get_wire_str hfrom⟩

/-- So is the record of an event that a handler announces for its message. -/
theorem routed_announced (hann : Announced proc v done h t event)
    (horder : (v.get "payload").get "orderId" = .str orderId)
    (hkey : resolvePartitionKey event = .ok key) : Routed t orderId (domainRecord t key event []) := by
  have hnamed : JsVal.str (Payment.OrderCreatedEvent.ofJs v).payload.orderId = .str orderId :=
    congrArg JsVal.str (JsVal.asStr_of_eq horder)
  have hid : (event.get "payload").get "orderId" = .str key := (getPartitionKey_eq_ok.mp hkey).1
  have hall : event.get "eventType" = .str t.value ∧ event.get "correlationId" = .str orderId ∧
      (event.get "payload").get "orderId" = .str orderId ∧
      ∃ entry, getCatalogEntry t = some entry ∧ event.get "source" = .str entry.producer.value := by
    cases hann with
    | requested | processed _ _ | failed _ _ => exact ⟨rfl, hnamed, hnamed, _, rfl, rfl⟩
    | reserved | released | send | sent _ => exact ⟨rfl, horder, horder, _, rfl, rfl⟩
  obtain ⟨htype, hcorr, hpayload, hsource⟩ := hall
  obtain rfl := JsVal.str.inj (hid.symm.trans hpayload)
  exact routed_domainRecord htype hcorr hpayload fun _ => hsource

theorem sealed_announced (hann : Announced proc v done h t event) :
    Sealed (domainRecord t key event []) := by
  cases hann <;> exact sealed_createEventEnvelope _ _ _ _

/-- A failure record names what it wraps in all its places. -/
theorem wraps_dlqRecord {failed : CreateFailureEnvelopeParams} {failure : JsVal}
    (hr : Routed h.eventType orderId r₀) (hvalue : r₀.value = .value v) (hjson : v.isJson = true)
    (hburies : Buries h v failed) (hfailure : createFailureEnvelope proc failed = .ok failure) :
    Wraps h r₀ (dlqRecord h.eventType failure) := by
  obtain ⟨rfl, htopic, hservice⟩ := hburies
  obtain ⟨details, rfl⟩ := eq_of_createFailureEnvelope hfailure
  have henvelope : envelopeOf r₀ = failed.original := envelopeOf_value hvalue
  have htype := hr.eventType
  have hcorr := hr.correlationId
  rw [henvelope] at htype hcorr
  let payload : JsVal := failurePayload details (proc.iso 11) failed
  let envelope : JsVal := createEventEnvelope (proc.uuid 10) (proc.iso 12) {
    eventType := failed.original.get "eventType"
    source := failed.service.value
    correlationId := failed.original.get "correlationId"
    causationId := failed.original.get "eventId"
    payload := payload }
  have hpayload : envelope.wire.get "payload" = payload.wire :=
    JsVal.get_wire_of_eq (u := payload) rfl nofun
  have hservice' : payload.wire.get "failedBy" = .str h.service.value := by
    rw [← hservice]
    exact JsVal.get_wire_str rfl
  have htopic' : payload.wire.get "originalTopic" = .str r₀.topic := by
    rw [hr.topic, h.resolveKafkaTopic_eventType, ← htopic]
    exact JsVal.get_wire_str rfl
  have horiginal : payload.wire.get "originalEnvelope" = failed.original := by
    have hne : failed.original ≠ .undefined := by
      intro hnone
      rw [hnone] at htype
      cases htype
    rw [JsVal.get_wire_of_eq (u := failed.original) rfl hne, JsVal.wire_of_isJson _ hjson]
  refine ⟨?_, ?_, ?_, ?_, ?_, ?_, ?_, ?_, ?_⟩
  · show toDlqTopic (resolveKafkaTopic h.eventType) = _
    rw [hr.topic]
  · show JsVal.wire (failed.original.get "correlationId") = _
    rw [henvelope, hcorr]
    rfl
  · rw [henvelope]
    have htype' : envelope.get "eventType" = .str h.eventType.value := htype
    exact (JsVal.get_wire_str htype').trans htype.symm
  · rw [henvelope]
    have hcorr' : envelope.get "correlationId" = .str orderId := hcorr
    exact (JsVal.get_wire_str hcorr').trans hcorr.symm
  · rw [← hservice]
    exact JsVal.get_wire_str rfl
  · show (envelope.wire.get "payload").get "kind" = _
    rw [hpayload]
    exact JsVal.get_wire_str rfl
  · show (envelope.wire.get "payload").get "failedBy" = _
    rw [hpayload, hservice']
  · show (envelope.wire.get "payload").get "originalTopic" = _
    rw [hpayload, htopic']
  · show (envelope.wire.get "payload").get "originalEnvelope" = _
    rw [hpayload, horiginal, henvelope]

end Records

section Turns

variable {w : World Author} {a : Author} {done : List Op} {r r₀ : KafkaRecord} {h : RetriedHandler}
  {proc : Process} {v : JsVal} {orderId key : String} {t : EventType} {event : JsVal}

theorem sealed_domainRecord {id : String} (hid : event.get "eventId" = .str id) :
    Sealed (domainRecord t key event []) :=
  ⟨event.wire, rfl, JsVal.isJson_wire _, has_of_get (JsVal.get_wire_str hid)⟩

/-- An event that a handler announces reacts to its message, or to the event before it. -/
theorem source_announced (hrouted : Routed h.eventType orderId r₀) (hr₀ : r₀ ∈ w.log)
    (hvalue : r₀.value = .value v) (hrecorded : ∀ op' ∈ done, Recorded w a op')
    (hann : Announced proc v done h t event) (hkey : resolvePartitionKey event = .ok key) :
    Source w.log (domainRecord t key event []) := by
  have horder : (v.get "payload").get "orderId" = .str orderId := by
    have hin := hrouted.order
    rwa [envelopeOf_value hvalue] at hin
  have hto : Routed t orderId (domainRecord t key event []) := routed_announced hann horder hkey
  have hposted : ∀ {u event'}, Posted done u event' → Announced proc v done h u event' →
      ∃ r' ∈ w.log, Routed u orderId r' := by
    intro u event' hposted hann'
    obtain ⟨key', hkey', hmem⟩ := hposted
    exact ⟨_, (hrecorded _ hmem).log _ rfl, routed_announced hann' horder hkey'⟩
  cases hann with
  | requested => exact .reacted rfl hr₀ hrouted hto
  | processed hp _ =>
    obtain ⟨r', hr', hfrom⟩ := hposted hp .requested
    exact .reacted rfl hr' hfrom hto
  | failed hp _ =>
    obtain ⟨r', hr', hfrom⟩ := hposted hp .requested
    exact .reacted rfl hr' hfrom hto
  | reserved => exact .reacted rfl hr₀ hrouted hto
  | released => exact .reacted rfl hr₀ hrouted hto
  | send => exact .reacted rfl hr₀ hrouted hto
  | sent hp =>
    obtain ⟨r', hr', hfrom⟩ := hposted hp .send
    exact .reacted rfl hr' hfrom hto

/-- A copy that goes back to the topic is the record it has been made of. -/
theorem copied_domainRecord {hs : List (String × JsVal)} (hrouted : Routed h.eventType orderId r₀)
    (hvalue : r₀.value = .value v) (hjson : v.isJson = true) (hkey : resolvePartitionKey v = .ok key) :
    (domainRecord h.eventType key v hs).topic = r₀.topic ∧
    (domainRecord h.eventType key v hs).key = r₀.key ∧
    (domainRecord h.eventType key v hs).value = r₀.value := by
  have horder := hrouted.order
  rw [envelopeOf_value hvalue] at horder
  obtain rfl : key = orderId :=
    JsVal.str.inj ((getPartitionKey_eq_ok.mp hkey).1.symm.trans horder)
  refine ⟨hrouted.topic.symm, hrouted.key.symm, ?_⟩
  rw [hvalue]
  exact congrArg KafkaValue.value (JsVal.wire_of_isJson v hjson)

/-- A record that a consumer has accepted. -/
structure Taken (w : World Author) (h : RetriedHandler) (r₀ : KafkaRecord) (orderId : String)
    (v : JsVal) : Prop where
  mem : r₀ ∈ w.log
  topic : r₀.topic = h.topic
  read : h.read r₀.value = .ok (.accepted v)
  routed : Routed h.eventType orderId r₀
  value : r₀.value = .value v
  json : v.isJson = true

/-- Its envelope names the order of the record. -/
theorem Taken.named (htaken : Taken w h r₀ orderId v) :
    (v.get "payload").get "orderId" = .str orderId := by
  have horder := htaken.routed.order
  rwa [envelopeOf_value htaken.value] at horder

/-- The ways in which a turn comes to write a record. -/
inductive Origin (w : World Author) (done : List Op) (r : KafkaRecord) : Author → Prop
  | ordered {proc dto} : Op.saveOrder (announcedOrder proc dto) ∈ done →
      r = orderCreatedRecord proc dto → Origin w done r (.service (.createOrder proc dto))
  | cancelled {orderId envelope} : Cancellation orderId envelope →
      r = domainRecord .orderCancelled orderId envelope [] →
      Origin w done r (.cancel orderId envelope)
  | announced {h proc headers r₀ orderId v t event key} : Taken w h r₀ orderId v →
      Announced proc v done h t event → resolvePartitionKey event = .ok key →
      r = domainRecord t key event [] →
      Origin w done r (.service (.consume h proc headers r₀.value))
  | copied {h proc headers r₀ orderId v} : Taken w h r₀ orderId v → r.topic = r₀.topic →
      r.key = r₀.key → r.value = r₀.value →
      Origin w done r (.service (.consume h proc headers r₀.value))
  | buried {h proc headers r₀ orderId v failed failure} : Taken w h r₀ orderId v →
      Buries h v failed → createFailureEnvelope proc failed = .ok failure → Unburied done →
      r = dlqRecord h.eventType failure →
      Origin w done r (.service (.consume h proc headers r₀.value))

theorem origin_of_turn (hlog : Ledger w.log) (hturn : Turn w a done (.emit r)) : Origin w done r a := by
  obtain ⟨hready, hrecorded, hwrote⟩ := hturn
  cases a with
  | cancel orderId envelope => exact .cancelled hready (Op.emit.inj hwrote)
  | service c =>
    cases c with
    | createOrder proc dto =>
      cases hwrote with
      | wait hquiet => cases hquiet
      | order hsaved => exact .ordered hsaved rfl
    | consume h proc headers payload =>
      obtain ⟨r₀, hr₀, htopic, rfl, -⟩ := hready
      have htaken : ∀ {v}, h.read r₀.value = .ok (.accepted v) → ∃ orderId, Taken w h r₀ orderId v := by
        intro v hread
        obtain ⟨orderId, hrouted, hvalue, hjson⟩ := hlog.received hr₀ htopic hread
        exact ⟨orderId, hr₀, htopic, hread, hrouted, hvalue, hjson⟩
      cases hwrote with
      | wait hquiet => cases hquiet
      | enact hread hop =>
        obtain ⟨orderId, htaken⟩ := htaken hread
        cases hop with
        | wait hquiet => cases hquiet
        | announce hann hkey => exact .announced htaken hann hkey rfl
      | retry hread hkey =>
        obtain ⟨orderId, htaken⟩ := htaken hread
        obtain ⟨htopic', hkey', hvalue'⟩ :=
          copied_domainRecord htaken.routed htaken.value htaken.json hkey
        exact .copied htaken htopic' hkey' hvalue'
      | bury hread hburies hfailure hnone =>
        obtain ⟨orderId, htaken⟩ := htaken hread
        exact .buried htaken hburies hfailure hnone rfl

/-- A reaction is announced by a consumer that has taken its cause, or stored once more. -/
theorem announced_of_turn (hlog : Ledger w.log) (hturn : Turn w a done (.emit r))
    (hrouted : Routed t orderId r) (hordered : t ≠ .orderCreated) (hcancelled : t ≠ .orderCancelled) :
    (∃ h proc headers r₀ v event key, a = .service (.consume h proc headers r₀.value) ∧
      Taken w h r₀ orderId v ∧ Announced proc v done h t event ∧ r = domainRecord t key event []) ∨
    ∃ r₀ ∈ w.log, Routed t orderId r₀ ∧ envelopeOf r = envelopeOf r₀ := by
  have htype : ∀ {u o}, Routed u o r → u = t ∧ o = orderId := fun hr => hr.unique hrouted
  cases origin_of_turn hlog hturn with
  | @ordered proc dto _ heq =>
    have hr : Routed .orderCreated (proc.uuid 0).val (orderCreatedRecord proc dto) :=
      routed_domainRecord rfl rfl rfl fun _ => ⟨_, rfl, rfl⟩
    exact absurd (htype (heq ▸ hr)).1.symm hordered
  | @cancelled o envelope hcancel heq =>
    have hr : Routed .orderCancelled o (domainRecord .orderCancelled o envelope []) :=
      routed_domainRecord hcancel.eventType hcancel.correlationId hcancel.orderId
        fun hne => absurd rfl hne
    exact absurd (htype (heq ▸ hr)).1.symm hcancelled
  | announced htaken hann hkey heq =>
    subst heq
    obtain ⟨rfl, rfl⟩ := htype (routed_announced hann htaken.named hkey)
    exact .inl ⟨_, _, _, _, _, _, _, rfl, htaken, hann, rfl⟩
  | copied htaken htopic hkey hvalue =>
    exact .inr ⟨_, htaken.mem, hrouted.copy htopic.symm hkey.symm hvalue.symm,
      envelopeOf_congr hvalue⟩
  | buried _ _ _ _ heq =>
    subst heq
    exact absurd hrouted.topic.symm (resolveKafkaTopic_ne_dlq _ _)

/-- Whatever an author writes has a source in the log. -/
theorem source_of_turn (hlog : Ledger w.log) (hturn : Turn w a done (.emit r)) :
    Sealed r ∧ Source w.log r := by
  cases origin_of_turn hlog hturn with
  | ordered _ heq =>
    subst heq
    exact ⟨sealed_createEventEnvelope _ _ _ _,
      .begun (.inl rfl) (routed_domainRecord rfl rfl rfl fun _ => ⟨_, rfl, rfl⟩)⟩
  | cancelled hcancel heq =>
    subst heq
    obtain ⟨⟨id, hid⟩, htype, hcorr, horder⟩ := hcancel
    exact ⟨sealed_domainRecord hid,
      .begun (.inr rfl) (routed_domainRecord htype hcorr horder fun hne => absurd rfl hne)⟩
  | announced htaken hann hkey heq =>
    subst heq
    exact ⟨sealed_announced hann,
      source_announced htaken.routed htaken.mem htaken.value hturn.recorded hann hkey⟩
  | copied htaken htopic hkey hvalue =>
    obtain ⟨x, hx, hjson, hid⟩ := hlog.sealed _ htaken.mem
    exact ⟨⟨x, hvalue.trans hx, hjson, hid⟩, .copied htaken.mem htopic hkey hvalue⟩
  | buried htaken hburies hfailure _ heq =>
    subst heq
    have hwraps := wraps_dlqRecord htaken.routed htaken.value htaken.json hburies hfailure
    obtain ⟨details, rfl⟩ := eq_of_createFailureEnvelope hfailure
    refine ⟨⟨_, rfl, JsVal.isJson_wire _, rfl⟩, .failed htaken.mem htaken.routed ?_ hwraps⟩
    rw [envelopeOf_value htaken.value]
    exact htaken.read

theorem ledger_turn {op : Op} (hlog : Ledger w.log) (hturn : Turn w a done op) :
    Ledger (w.exec a op).2.log := by
  by_cases hemit : ∃ r, op = .emit r
  · obtain ⟨r, rfl⟩ := hemit
    obtain ⟨hsealed, hsource⟩ := source_of_turn hlog hturn
    exact hlog.snoc hsealed hsource
  · rw [World.exec_log a w fun r heq => hemit ⟨r, heq⟩]
    exact hlog

theorem ledger_again (hlog : Ledger w.log) (hr : r ∈ w.log) : Ledger (w.log ++ [r]) :=
  hlog.snoc (hlog.sealed r hr) (.copied hr rfl rfl rfl)

variable {ι : Type} [DecidableEq ι] {ls : List (PoolAct ι Author Op JsThrow)}
  {s : Pool ι (World Author) Author Op Op.Resp JsThrow JsVal}
  {cond : Pool ι (World Author) Author Op Op.Resp JsThrow JsVal → PoolAct ι Author Op JsThrow → Prop}

/-- The log of every run is a ledger. -/
theorem ledger_of_run
    (hrun : RunWhere (Pool.Step eventFlow) cond (Pool.idle World.empty) ls s) :
    Ledger s.world.log := by
  let I (w : World Author) : Prop := Ledger w.log
  have hany : ∀ s i a, cond s (.start i a) → True := fun _ _ _ _ => trivial
  have hall : I s.world := run_invariant hany (fun _ _ hlog hr => ledger_again hlog hr)
    (fun _ _ _ _ hlog _ hturn => ledger_turn hlog hturn) Ledger.nil hrun
  exact hall

variable {may : Author → Prop}

/-- The rule for what each record owes to those in front of it: every turn that writes one
establishes it, and more records in front of it keep it. -/
theorem log_history {P : List KafkaRecord → KafkaRecord → Prop}
    (hcond : ∀ s i a, cond s (.start i a) → may a)
    (hmono : ∀ log log' r, log <+: log' → P log r → P log' r)
    (hturn : ∀ w a done r, Ledger w.log → (∀ pre x post, w.log = pre ++ x :: post → P pre x) →
      may a → Turn w a done (.emit r) → P w.log r)
    (hrun : RunWhere (Pool.Step eventFlow) cond (Pool.idle World.empty) ls s) :
    ∀ pre r post, s.world.log = pre ++ r :: post → P pre r := by
  let I (w : World Author) : Prop :=
    Ledger w.log ∧ ∀ pre r post, w.log = pre ++ r :: post → P pre r
  have hsnoc : ∀ {log r}, (∀ pre x post, log = pre ++ x :: post → P pre x) → P log r →
      ∀ pre x post, log ++ [r] = pre ++ x :: post → P pre x := by
    intro log r hall hr pre x post hsplit
    rcases split_snoc hsplit with ⟨rfl, rfl⟩ | ⟨post', hpre⟩
    · exact hr
    · exact hall pre x post' hpre
  have hagain : ∀ w r, I w → r ∈ w.log → I { w with log := w.log ++ [r] } := by
    intro w r hw hr
    obtain ⟨pre, post, hsplit⟩ := List.append_of_mem hr
    have hle : pre <+: w.log := ⟨r :: post, hsplit.symm⟩
    exact ⟨ledger_again hw.1 hr, hsnoc hw.2 (hmono _ _ _ hle (hw.2 pre r post hsplit))⟩
  have hkept : ∀ w a done op, I w → may a → Turn w a done op → I (w.exec a op).2 := by
    intro w a done op hw hmay hop
    refine ⟨ledger_turn hw.1 hop, ?_⟩
    by_cases hemit : ∃ r, op = .emit r
    · obtain ⟨r, rfl⟩ := hemit
      exact hsnoc hw.2 (hturn w a done r hw.1 hw.2 hmay hop)
    · rw [World.exec_log a w fun r heq => hemit ⟨r, heq⟩]
      exact hw.2
  have hempty : I World.empty := by
    refine ⟨.nil, fun pre r post hsplit => ?_⟩
    cases pre <;> cases hsplit
  have hall : I s.world := run_invariant hcond hagain hkept hempty hrun
  exact hall.2

/-- The rule for what holds of each record: every turn that writes one establishes it, and a
longer log keeps it. -/
theorem log_invariant {P : List KafkaRecord → KafkaRecord → Prop}
    (hcond : ∀ s i a, cond s (.start i a) → may a)
    (hmono : ∀ log log' r, log <+: log' → P log r → P log' r)
    (hturn : ∀ w a done r, Ledger w.log → (∀ x ∈ w.log, P w.log x) → may a →
      Turn w a done (.emit r) → P w.log r)
    (hrun : RunWhere (Pool.Step eventFlow) cond (Pool.idle World.empty) ls s) :
    ∀ r ∈ s.world.log, P s.world.log r := by
  have hwhole : ∀ log : List KafkaRecord, (∀ pre x post, log = pre ++ x :: post → P pre x) →
      ∀ x ∈ log, P log x := by
    intro log hall x hx
    obtain ⟨pre, post, hsplit⟩ := List.append_of_mem hx
    exact hmono pre log x ⟨x :: post, hsplit.symm⟩ (hall pre x post hsplit)
  exact hwhole s.world.log (log_history hcond hmono
    (fun w a done r hlog hall hmay hop => hturn w a done r hlog (hwhole w.log hall) hmay hop) hrun)

end Turns

section Catalog

variable {ι : Type} [DecidableEq ι] {ls : List (PoolAct ι Author Op JsThrow)}
  {s : Pool ι (World Author) Author Op Op.Resp JsThrow JsVal}
  {cond : Pool ι (World Author) Author Op Op.Resp JsThrow JsVal → PoolAct ι Author Op JsThrow → Prop}
  {r : KafkaRecord} {pre post : List KafkaRecord}

/-- The service that a call runs in. -/
def callService : Call → ServiceName
  | .createOrder _ _ => .orderService
  | .consume h _ _ _ => h.service

theorem consumer_listed (h : RetriedHandler) : ∃ entry, getCatalogEntry h.eventType = some entry ∧
    entry.topic = h.topic ∧ entry.dlqTopic = toDlqTopic h.topic ∧ h.service ∈ entry.consumers := by
  cases h <;> exact ⟨_, rfl, rfl, rfl, by decide⟩

/-- The record of an event where its row of the catalog puts it, from the producer that the row
names. A cancellation comes from outside, so its source may be anything. -/
structure Published (entry : EventCatalogEntry) (r : KafkaRecord) : Prop where
  topic : r.topic = entry.topic
  eventType : (envelopeOf r).get "eventType" = .str entry.eventType.value
  key : r.key = ((envelopeOf r).get "payload").get entry.partitionKey
  source : entry.eventType = .orderCancelled ∨
    (envelopeOf r).get "source" = .str entry.producer.value

/-- The failure record of a service that the row names as a consumer. -/
structure Rejected (entry : EventCatalogEntry) (r : KafkaRecord) : Prop where
  topic : r.topic = entry.dlqTopic
  eventType : (envelopeOf r).get "eventType" = .str entry.eventType.value
  source : ∃ service ∈ entry.consumers, (envelopeOf r).get "source" = .str service.value

theorem published_of_routed {t : EventType} {orderId : String} {entry : EventCatalogEntry}
    (hr : Routed t orderId r) (hentry : getCatalogEntry t = some entry) : Published entry r := by
  have hmem : entry ∈ eventCatalog := List.mem_of_find?_eq_some hentry
  have hfound := List.find?_some hentry
  obtain rfl : entry.eventType = t := of_decide_eq_true hfound
  have hrow : ∀ entry ∈ eventCatalog, entry.topic = resolveKafkaTopic entry.eventType ∧
      entry.partitionKey = "orderId" := by decide
  obtain ⟨htopic, hkey⟩ := hrow entry hmem
  refine ⟨hr.topic.trans htopic.symm, hr.eventType, ?_, ?_⟩
  · rw [hkey, hr.key, hr.order]
  · by_cases hcancel : entry.eventType = .orderCancelled
    · exact .inl hcancel
    · obtain ⟨entry', hentry', hsource⟩ := hr.source hcancel
      rw [hentry] at hentry'
      exact .inr (Option.some.inj hentry' ▸ hsource)

/-- Every record is on the topic of its event, from the producer that the catalog names, or
on the companion topic, from one of the consumers that it names; and the topic exists. -/
theorem routed_by_catalog
    (hrun : RunWhere (Pool.Step eventFlow) cond (Pool.idle World.empty) ls s) :
    ∀ r ∈ s.world.log, r.topic ∈ withDlq createdTopics ∧
      ∃ entry ∈ eventCatalog, Published entry r ∨ Rejected entry r := by
  intro r hr
  have hlog : Ledger s.world.log := ledger_of_run hrun
  obtain ⟨pre, post, hsplit⟩ := List.append_of_mem hr
  have hcreated : ∀ t, r.topic = resolveKafkaTopic t ∨ r.topic = toDlqTopic (resolveKafkaTopic t) →
      r.topic ∈ withDlq createdTopics :=
    fun t ht => mem_withDlq.mpr ⟨_, resolveKafkaTopic_mem_created t, ht⟩
  rcases hlog.routed_or_wraps hsplit with ⟨t, orderId, hrouted⟩ | ⟨h, orderId, r₀, -, hr₀, -, hwraps⟩
  · obtain ⟨entry, hentry, -⟩ := getCatalogEntry_spec t
    exact ⟨hcreated _ (.inl hrouted.topic), entry, List.mem_of_find?_eq_some hentry,
      .inl (published_of_routed hrouted hentry)⟩
  · obtain ⟨entry, hentry, htopic, hdlq, hconsumer⟩ := consumer_listed h
    have hmem : entry ∈ eventCatalog := List.mem_of_find?_eq_some hentry
    have htype : entry.eventType = h.eventType := by
      have hfound := List.find?_some hentry
      exact of_decide_eq_true hfound
    have hsame : toDlqTopic r₀.topic = toDlqTopic (resolveKafkaTopic h.eventType) := by rw [hr₀.topic]
    refine ⟨hcreated h.eventType (.inr (hwraps.topic.trans hsame)), entry, hmem,
      .inr ⟨?_, ?_, h.service, hconsumer, hwraps.source⟩⟩
    · rw [hwraps.topic, hsame, hdlq, h.resolveKafkaTopic_eventType]
    · rw [hwraps.eventType, hr₀.eventType, htype]

/-- What a service may do once the log has come to `log`: write to its own table, publish
the events that the catalog gives it, and return what it has received, to its topic as it
was or to the companion. -/
inductive Entitled (log : List KafkaRecord) (service : ServiceName) : Op → Prop
  | wait {op} : quiet op = true → Entitled log service op
  | save {row} : service = .orderService → Entitled log service (.saveOrder row)
  | project {id status} : service = .orderService → Entitled log service (.updateOrder id status)
  | record {row} : service = .paymentService → Entitled log service (.saveProcessed row)
  | publish {entry r} : entry ∈ getEventsByProducer service → Published entry r →
      Entitled log service (.emit r)
  | requeue {entry r r₀} : entry ∈ getEventsByConsumer service → r₀ ∈ log → r₀.topic = entry.topic →
      r.topic = r₀.topic → r.key = r₀.key → r.value = r₀.value → Entitled log service (.emit r)
  | reject {entry h r r₀} : entry ∈ getEventsByConsumer service → r₀ ∈ log →
      r₀.topic = entry.topic → r.topic = entry.dlqTopic → h.service = service → Wraps h r₀ r →
      Entitled log service (.emit r)

variable {w : World Author} {a : Author} {c : Call} {done : List Op} {op : Op} {t : EventType}
  {h : RetriedHandler} {proc : Process} {v event : JsVal} {orderId : String}

theorem Entitled.mono {log log' : List KafkaRecord} {service : ServiceName}
    (hop : Entitled log service op) (hle : log <+: log') : Entitled log' service op := by
  cases hop with
  | wait hquiet => exact .wait hquiet
  | save hservice => exact .save hservice
  | project hservice => exact .project hservice
  | record hservice => exact .record hservice
  | publish hentry hr => exact .publish hentry hr
  | requeue hentry hr₀ hof htopic hkey hvalue =>
    exact .requeue hentry (hle.subset hr₀) hof htopic hkey hvalue
  | reject hentry hr₀ hof htopic hservice hwraps =>
    exact .reject hentry (hle.subset hr₀) hof htopic hservice hwraps

/-- A handler announces events of its own service. -/
theorem announced_listed (hann : Announced proc v done h t event) :
    ∃ entry, getCatalogEntry t = some entry ∧ entry.producer = h.service := by
  cases hann <;> exact ⟨_, rfl, rfl⟩

theorem entitled_turn (hlog : Ledger w.log) (hturn : Turn w (.service c) done op) :
    Entitled w.log (callService c) op := by
  obtain ⟨hready, hrecorded, hwrote⟩ := hturn
  cases c with
  | createOrder proc dto =>
    cases hwrote with
    | wait hquiet => exact .wait hquiet
    | save _ _ => exact .save rfl
    | order _ =>
      have hrouted : Routed .orderCreated (proc.uuid 0).val (orderCreatedRecord proc dto) :=
        routed_domainRecord rfl rfl rfl fun _ => ⟨_, rfl, rfl⟩
      exact .publish (mem_getEventsByProducer (t := .orderCreated) rfl rfl)
        (published_of_routed hrouted rfl)
  | consume h proc headers payload =>
    obtain ⟨r₀, hr₀, htopic, rfl, -⟩ := hready
    obtain ⟨entry, hentry, hof, hdlq, hconsumer⟩ := consumer_listed h
    have hlisted : entry ∈ getEventsByConsumer h.service := mem_getEventsByConsumer hentry hconsumer
    have hof₀ : r₀.topic = entry.topic := htopic.trans hof.symm
    cases hwrote with
    | wait hquiet => exact .wait hquiet
    | enact hread hop =>
      obtain ⟨orderId, hrouted, hvalue, -⟩ := hlog.received hr₀ htopic hread
      have horder := hrouted.order
      rw [envelopeOf_value hvalue] at horder
      cases hop with
      | wait hquiet => exact .wait hquiet
      | project hstatus =>
        refine .project ?_
        revert hstatus
        cases h <;> first | exact fun _ => rfl | exact nofun
      | announce hann hkey =>
        obtain ⟨entry', hentry', hproducer⟩ := announced_listed hann
        exact .publish (mem_getEventsByProducer hentry' hproducer)
          (published_of_routed (routed_announced hann horder hkey) hentry')
      | approve hh _ => exact .record (congrArg RetriedHandler.service hh)
      | decline hh _ => exact .record (congrArg RetriedHandler.service hh)
    | skip _ => exact .record rfl
    | retry hread hkey =>
      obtain ⟨orderId, hrouted, hvalue, hjson⟩ := hlog.received hr₀ htopic hread
      obtain ⟨htopic', hkey', hvalue'⟩ := copied_domainRecord hrouted hvalue hjson hkey
      exact .requeue hlisted hr₀ hof₀ htopic' hkey' hvalue'
    | bury hread hburies hfailure _ =>
      obtain ⟨orderId, hrouted, hvalue, hjson⟩ := hlog.received hr₀ htopic hread
      have hwraps := wraps_dlqRecord hrouted hvalue hjson hburies hfailure
      refine .reject hlisted hr₀ hof₀ ?_ rfl hwraps
      rw [hwraps.topic, htopic, hdlq]

/-- In every run each service keeps to its own tables and to the topics that the catalog
gives it as a producer or a consumer. -/
theorem services_keep_apart
    (hrun : RunWhere (Pool.Step eventFlow) cond (Pool.idle World.empty) ls s) :
    ∀ c op, (Author.service c, op) ∈ s.world.trace → Entitled s.world.log (callService c) op := by
  let I (w : World Author) : Prop := Ledger w.log ∧
    ∀ c op, (Author.service c, op) ∈ w.trace → Entitled w.log (callService c) op
  have hagain : ∀ w r, I w → r ∈ w.log → I { w with log := w.log ++ [r] } := fun w r hw hr =>
    ⟨ledger_again hw.1 hr, fun c op hmem => (hw.2 c op hmem).mono (List.prefix_append _ _)⟩
  have hturn : ∀ w a done op, I w → True → Turn w a done op → I (w.exec a op).2 := by
    intro w a done op hw _ hturn
    refine ⟨ledger_turn hw.1 hturn, fun c op' hmem => ?_⟩
    have hle : w.log <+: (w.exec a op).2.log := longer_exec.log
    rcases List.mem_append.mp hmem with hold | hnew
    · exact (hw.2 c op' hold).mono hle
    · obtain ⟨rfl, rfl⟩ := Prod.mk.inj (List.mem_singleton.mp hnew)
      exact (entitled_turn hw.1 hturn).mono hle
  have hany : ∀ s i a, cond s (.start i a) → True := fun _ _ _ _ => trivial
  have hall : I s.world :=
    run_invariant hany hagain hturn ⟨.nil, fun _ _ hmem => absurd hmem List.not_mem_nil⟩ hrun
  exact hall.2

/-- A failure record gives back the message that a consumer could not handle: an earlier
record of its topic, which the consumer had accepted, and which is published again just as
it was under the key of the failure record. -/
theorem dead_letters_restore
    (hrun : RunWhere (Pool.Step eventFlow) cond (Pool.idle World.empty) ls s)
    (hsplit : s.world.log = pre ++ r :: post) (hdlq : ∀ t, r.topic ≠ resolveKafkaTopic t) :
    ∃ h : RetriedHandler, ∃ original orderId, ∃ r₀ ∈ pre,
      ((envelopeOf r).get "payload").get "originalEnvelope" = original ∧
      ((envelopeOf r).get "payload").get "originalTopic" = .str h.topic ∧
      ((envelopeOf r).get "payload").get "failedBy" = .str h.service.value ∧
      r.key = .str orderId ∧ h.read r₀.value = .ok (.accepted original) ∧
      (domainRecord h.eventType orderId original []).topic = r₀.topic ∧
      (domainRecord h.eventType orderId original []).key = r₀.key ∧
      (domainRecord h.eventType orderId original []).value = r₀.value := by
  have hlog : Ledger s.world.log := ledger_of_run hrun
  rcases hlog.routed_or_wraps hsplit with
    ⟨t, orderId, hrouted⟩ | ⟨h, orderId, r₀, hr₀, hrouted, hread, hwraps⟩
  · exact absurd hrouted.topic (hdlq t)
  · have hmem : r₀ ∈ s.world.log := by
      rw [hsplit]
      exact List.mem_append_left _ hr₀
    have htopic : r₀.topic = h.topic := hrouted.topic.trans h.resolveKafkaTopic_eventType
    obtain ⟨-, -, hvalue, hjson⟩ := hlog.received hmem htopic hread
    have hkey : r.key = .str orderId := by rw [hwraps.key, hrouted.correlationId]
    refine ⟨h, envelopeOf r₀, orderId, r₀, hr₀, hwraps.originalEnvelope, ?_, hwraps.failedBy, hkey,
      hread, hrouted.topic.symm, hrouted.key.symm, ?_⟩
    · rw [hwraps.originalTopic, htopic]
    · rw [hvalue, envelopeOf_value hvalue]
      exact congrArg KafkaValue.value (JsVal.wire_of_isJson _ hjson)

end Catalog

section Samples

/-- Runs that start only such calls. -/
def Starting {ι : Type} (may : Author → Prop)
    (_ : Pool ι (World Author) Author Op Op.Resp JsThrow JsVal)
    (l : PoolAct ι Author Op JsThrow) : Prop := ∀ i a, l = .start i a → may a

/-- A client cancels an order that nobody knows. -/
def sampleCancel : Author := .cancel "o-1" (.obj [
  ("eventId", .str Uuid.second.val),
  ("eventType", .str EventType.orderCancelled.value),
  ("correlationId", .str "o-1"),
  ("payload", .obj [("orderId", .str "o-1"), ("reason", .str "late")])])

/-- The latest record on the topic of a consumer reaches it. -/
def delivered (w : World Author) (d : RetriedHandler × String) : World Author :=
  match w.log.reverse.find? fun r => r.topic = d.1.topic with
  | some r => eventFlow.called (.service (.consume d.1 (drawing d.2) r.headers r.value)) w
  | none => w

/-- The state after one call and some deliveries. -/
def story (a : Author) (deliveries : List (RetriedHandler × String)) : World Author :=
  deliveries.foldl delivered (eventFlow.called a World.empty)

/-- An order that is paid, reserved, notified and completed. -/
def completedStory : World Author := story sampleOrder [(.paymentOrderEvents, "b"),
  (.stockPaymentEvents, "c"), (.notificationStockReserved, "d"), (.orderNotificationSent, "e")]

/-- A cancellation that order-service cannot project onto any order. -/
def buriedStory : World Author := story sampleCancel [(.stockOrderCancelled, "b"),
  (.orderStockReleased, "c"), (.orderStockReleased, "d"), (.orderStockReleased, "e")]

variable {may : Author → Prop} {a : Author} {w : World Author}

theorem flowed_starting (hready : eventFlow.ready w a) (hmay : may a) : ∃ ls,
    RunWhere (Pool.Step eventFlow) (Starting may)
      (Pool.idle w : Pool Unit (World Author) Author Op Op.Resp JsThrow JsVal) ls
      (Pool.idle (eventFlow.called a w)) := by
  refine Pool.called_run eventFlow () hready (fun i a' heq => ?_) (fun _ _ _ _ => nofun)
    fun _ _ _ => nofun
  cases heq
  exact hmay

theorem delivered_run (hmay : ∀ c h proc headers payload, c = .consume h proc headers payload →
    may (.service c)) (w : World Author) (d : RetriedHandler × String) : ∃ ls,
    RunWhere (Pool.Step eventFlow) (Starting may)
      (Pool.idle w : Pool Unit (World Author) Author Op Op.Resp JsThrow JsVal) ls
      (Pool.idle (delivered w d)) := by
  unfold delivered
  cases hfound : w.log.reverse.find? fun r => r.topic = d.1.topic with
  | none => exact ⟨[], .nil⟩
  | some r =>
    have hmem : r ∈ w.log := List.mem_reverse.mp (List.mem_of_find?_eq_some hfound)
    have hpred := List.find?_some hfound
    have htopic : r.topic = d.1.topic := of_decide_eq_true hpred
    exact flowed_starting ⟨r, hmem, htopic, rfl, rfl⟩ (hmay _ _ _ _ _ rfl)

theorem story_run (hready : eventFlow.ready World.empty a) (hstart : may a)
    (hmay : ∀ c h proc headers payload, c = .consume h proc headers payload → may (.service c))
    (deliveries : List (RetriedHandler × String)) : ∃ ls,
    RunWhere (Pool.Step eventFlow) (Starting may)
      (Pool.idle World.empty : Pool Unit (World Author) Author Op Op.Resp JsThrow JsVal) ls
      (Pool.idle (story a deliveries)) := by
  have hmore : ∀ w, ∃ ls, RunWhere (Pool.Step eventFlow) (Starting may)
      (Pool.idle w : Pool Unit (World Author) Author Op Op.Resp JsThrow JsVal) ls
      (Pool.idle (deliveries.foldl delivered w)) := by
    induction deliveries with
    | nil => exact fun w => ⟨[], .nil⟩
    | cons d deliveries ih =>
      intro w
      obtain ⟨ls, hfirst⟩ := delivered_run hmay w d
      obtain ⟨ms, hrest⟩ := ih (delivered w d)
      exact ⟨ls ++ ms, hfirst.trans hrest⟩
  obtain ⟨ls, hfirst⟩ := flowed_starting hready hstart
  obtain ⟨ms, hrest⟩ := hmore (eventFlow.called a World.empty)
  exact ⟨ls ++ ms, hfirst.trans hrest⟩

theorem ready_sampleCancel : eventFlow.ready World.empty sampleCancel := ⟨⟨_, rfl⟩, rfl, rfl, rfl⟩

theorem completedStory_run (hstart : may sampleOrder)
    (hmay : ∀ c h proc headers payload, c = .consume h proc headers payload → may (.service c)) :
    ∃ ls, RunWhere (Pool.Step eventFlow) (Starting may)
      (Pool.idle World.empty : Pool Unit (World Author) Author Op Op.Resp JsThrow JsVal) ls
      (Pool.idle completedStory) :=
  story_run (a := sampleOrder) trivial hstart hmay _

theorem completedStory_any : ∃ ls, RunWhere (Pool.Step eventFlow) (Starting fun _ => True)
    (Pool.idle World.empty : Pool Unit (World Author) Author Op Op.Resp JsThrow JsVal) ls
    (Pool.idle completedStory) :=
  completedStory_run trivial fun _ _ _ _ _ _ => trivial

theorem buriedStory_any : ∃ ls, RunWhere (Pool.Step eventFlow) (Starting fun _ => True)
    (Pool.idle World.empty : Pool Unit (World Author) Author Op Op.Resp JsThrow JsVal) ls
    (Pool.idle buriedStory) :=
  story_run ready_sampleCancel trivial (fun _ _ _ _ _ _ => trivial) _

theorem completedStory_topics : completedStory.log.map KafkaRecord.topic = ["order.events",
    "payment.requested", "payment.events", "stock.reserved", "notification.send",
    "notification.sent"] := by decide +kernel

theorem buriedStory_topics : buriedStory.log.map KafkaRecord.topic = ["order.cancelled",
    "stock.released", "stock.released", "stock.released", "stock.released.dlq"] := by
  decide +kernel

theorem completedStory_length : completedStory.log.length = 6 := by
  have htopics := congrArg List.length completedStory_topics
  rwa [List.length_map] at htopics

/-- All of a completed order is where the catalog puts it. -/
theorem routed_by_catalog_completed : ∃ ls,
    ∃ s : Pool Unit (World Author) Author Op Op.Resp JsThrow JsVal,
      RunWhere (Pool.Step eventFlow) (Starting fun _ => True) (Pool.idle World.empty) ls s ∧
      s.world.log.length = 6 ∧ ∀ r ∈ s.world.log, r.topic ∈ withDlq createdTopics ∧
        ∃ entry ∈ eventCatalog, Published entry r ∨ Rejected entry r := by
  obtain ⟨ls, hrun⟩ := completedStory_any
  exact ⟨ls, _, hrun, completedStory_length, routed_by_catalog hrun⟩

theorem services_keep_apart_completed : ∃ ls,
    ∃ s : Pool Unit (World Author) Author Op Op.Resp JsThrow JsVal,
      RunWhere (Pool.Step eventFlow) (Starting fun _ => True) (Pool.idle World.empty) ls s ∧
      s.world.log.length = 6 ∧ ∀ c op, (Author.service c, op) ∈ s.world.trace →
        Entitled s.world.log (callService c) op := by
  obtain ⟨ls, hrun⟩ := completedStory_any
  exact ⟨ls, _, hrun, completedStory_length, services_keep_apart hrun⟩

/-- The failure record of a cancellation gives the `stock.released` back. -/
theorem dead_letters_restore_buried : ∃ pre r post, buriedStory.log = pre ++ r :: post ∧
    r.topic = "stock.released.dlq" ∧ ∃ h : RetriedHandler, ∃ original orderId, ∃ r₀ ∈ pre,
      ((envelopeOf r).get "payload").get "originalEnvelope" = original ∧
      ((envelopeOf r).get "payload").get "originalTopic" = .str h.topic ∧
      ((envelopeOf r).get "payload").get "failedBy" = .str h.service.value ∧
      r.key = .str orderId ∧ h.read r₀.value = .ok (.accepted original) ∧
      (domainRecord h.eventType orderId original []).topic = r₀.topic ∧
      (domainRecord h.eventType orderId original []).key = r₀.key ∧
      (domainRecord h.eventType orderId original []).value = r₀.value := by
  have hmem : "stock.released.dlq" ∈ buriedStory.log.map KafkaRecord.topic := by
    rw [buriedStory_topics]
    decide
  obtain ⟨r, hr, htopic⟩ := List.mem_map.mp hmem
  obtain ⟨pre, post, hsplit⟩ := List.append_of_mem hr
  have hdlq : ∀ t, r.topic ≠ resolveKafkaTopic t := by
    rw [htopic]
    intro t
    cases t <;> decide
  obtain ⟨ls, hrun⟩ := buriedStory_any
  exact ⟨pre, r, post, hsplit, htopic, dead_letters_restore hrun hsplit hdlq⟩

end Samples

end EventFlow.Saga
