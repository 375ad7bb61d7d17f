import EventFlow.Saga.Calls

namespace EventFlow.Saga

open Js Shared Services Retry

section Calls

variable {C : Type}

/-- The operations of a call settle with their effect, or reject without any; which of
them reject is open, and may change from one try to the next. -/
def settleBy (c : C) (fails : ℕ → Op → Option JsThrow) (s : World C × ℕ) (op : Op) :
    Except JsThrow op.Resp × World C × ℕ :=
  match fails s.2 op with
  | some e => (.error e, s.1, s.2 + 1)
  | none => (.ok (s.1.exec c op).1, (s.1.exec c op).2, s.2 + 1)

/-- What the libraries refuse rejects at every try. -/
def refusing (drivers : Drivers) (fails : ℕ → Op → Option JsThrow) (n : ℕ) :
    Op → Option JsThrow := drivers.refusing (fails n)

/-- The state a call leaves. -/
def handled {α : Type} (c : C) (fails : ℕ → Op → Option JsThrow) (p : Promise α) (w : World C) :
    World C := (p.run (settleBy c fails) (w, 0)).2.1

/-- The operations that went through between two states. -/
def took (w w' : World C) : List Op := (w'.trace.drop w.trace.length).map Prod.snd

/-- Only such operations have gone through since a state. -/
def Since (w : World C) (S : Op → Prop) (w' : World C) : Prop :=
  ∃ calls, w'.trace = w.trace ++ calls ∧ ∀ call ∈ calls, S call.2

/-- A call that nothing interferes with: all may reject, and what is refused does. -/
def alone (c : C) (drivers : Drivers) : Async.Contract (World C) Op Op.Resp where
  exec w op := w.exec c op
  rely w w' := w' = w
  settles op := drivers.refusal op = none
  rejects _ := True
  guar _ _ := True

variable {c : C} {w : World C} {drivers : Drivers} {S : Op → Prop} {α : Type} {p : Promise α}

theorem since_refl : Since w S w := ⟨[], (List.append_nil _).symm, by simp⟩

theorem kept_since {op : Op} (h : S op) : Async.Kept (alone c drivers) (Since w S) op := by
  intro w' hw'
  obtain ⟨calls, htrace, hcalls⟩ := hw'
  refine ⟨trivial, calls ++ [(c, op)], ?_, ?_⟩
  · rw [← List.append_assoc, ← htrace]
    rfl
  · intro call hcall
    rcases List.mem_append.mp hcall with hcall | hcall
    · exact hcalls call hcall
    · rw [List.mem_singleton.mp hcall]
      exact h

theorem since_stable (w₁ w₂ : World C) (h : Since w S w₁) (hr : (alone c drivers).rely w₁ w₂) :
    Since w S w₂ := by
  obtain rfl : w₂ = w₁ := hr
  exact h

/-- What a call keeps to has gone through, and nothing else. -/
theorem Keeps.took (hp : p.Keeps (alone c drivers) (Since w S))
    (fails : ℕ → Op → Option JsThrow) :
    ∀ op ∈ took w (handled c (refusing drivers fails) p w), S op := by
  have hend : Since w S (handled c (refusing drivers fails) p w) := by
    refine Async.Along.run (T := alone c drivers) (Q := fun _ w' => Since w S w')
      (s := (w, 0)) (fun _ => rfl) (fun s op => ?_) (hp w since_refl)
    unfold settleBy refusing Drivers.refusing
    cases hrefused : drivers.refusal op with
    | some e => exact .inr ⟨trivial, ⟨e, rfl⟩, rfl⟩
    | none =>
      cases hfails : fails s.2 op with
      | some e => exact .inr ⟨trivial, ⟨e, by simp⟩, by simp⟩
      | none => exact .inl ⟨hrefused, by simp [alone], by simp [alone]⟩
  obtain ⟨calls, htrace, hcalls⟩ := hend
  intro op hop
  rw [Saga.took, htrace, List.drop_left] at hop
  obtain ⟨x, hx, rfl⟩ := List.mem_map.mp hop
  exact hcalls x hx

/-- A call only adds to the record of operations. -/
theorem trace_settleBy (fails : ℕ → Op → Option JsThrow) (p : Promise α) (s : World C × ℕ) :
    ∃ calls, (p.run (settleBy c fails) s).2.1.trace = s.1.trace ++ calls := by
  induction p generalizing s with
  | resolve a => exact ⟨[], (List.append_nil _).symm⟩
  | reject e => exact ⟨[], (List.append_nil _).symm⟩
  | await op k ih =>
    rw [Async.run_await]
    obtain ⟨calls, hcalls⟩ := ih (settleBy c fails s op).1 (settleBy c fails s op).2
    rw [hcalls, settleBy]
    cases fails s.2 op with
    | some e => exact ⟨calls, rfl⟩
    | none => exact ⟨(c, op) :: calls, List.append_assoc s.1.trace [(c, op)] calls⟩

/-- What a call reaches while only the libraries refuse has then gone through, unless they
refuse it. -/
theorem Reaches.took {op : Op} (h : p.Reaches (World.settle c drivers.refusal) op w)
    (hop : drivers.refusal op = none) :
    op ∈ took w (handled c (refusing drivers fun _ _ => none) p w) := by
  have hcall : ∀ n, ∃ calls, (p.run (settleBy c (refusing drivers fun _ _ => none)) (w, n)).2.1.trace =
      w.trace ++ calls ∧ (c, op) ∈ calls := by
    induction p generalizing w with
    | resolve a => exact absurd h id
    | reject e => exact absurd h id
    | await op' k ih =>
      intro n
      cases hrefused : drivers.refusal op' with
      | some e =>
        have hrun : (Async.await op' k).run (settleBy c (refusing drivers fun _ _ => none)) (w, n) =
            (k (.error e)).run (settleBy c (refusing drivers fun _ _ => none)) (w, n + 1) := by
          simp [Async.run_await, settleBy, refusing, Drivers.refusing, hrefused]
        rcases h with rfl | hrest
        · rw [hop] at hrefused
          cases hrefused
        · rw [World.settle, hrefused] at hrest
          rw [hrun]
          exact ih _ hrest (n + 1)
      | none =>
        let w₁ : World C := (w.exec c op').2
        have hrun : (Async.await op' k).run (settleBy c (refusing drivers fun _ _ => none)) (w, n) =
            (k (.ok (w.exec c op').1)).run (settleBy c (refusing drivers fun _ _ => none))
              (w₁, n + 1) := by
          simp [Async.run_await, settleBy, refusing, Drivers.refusing, hrefused, w₁]
        have hfirst : w₁.trace = w.trace ++ [(c, op')] := rfl
        rw [hrun]
        rcases h with rfl | hrest
        · obtain ⟨calls, hcalls⟩ := trace_settleBy (c := c) (refusing drivers fun _ _ => none)
            (k (.ok (w.exec c op').1)) (w₁, n + 1)
          refine ⟨(c, op') :: calls, ?_, List.mem_cons_self⟩
          rw [hcalls, hfirst, List.append_assoc]
          rfl
        · rw [World.settle, hrefused] at hrest
          obtain ⟨calls, hcalls, hmem⟩ := ih _ hrest (n + 1)
          refine ⟨(c, op') :: calls, ?_, List.mem_cons_of_mem _ hmem⟩
          exact hcalls.trans (List.append_assoc w.trace [(c, op')] calls)
  obtain ⟨calls, htrace, hmem⟩ := hcall 0
  rw [Saga.took, handled, htrace, List.drop_left]
  exact List.mem_map_of_mem hmem

end Calls

section Effects

/-- What counts as taking effect: a write to the row of an order (an update of a row also
sets its time), a row of processed events, and a domain event other than the copy
that goes back to the topic of the message. -/
inductive Effect (h : RetriedHandler) (orders : OrdersTable) : Op → Prop
  | stored (row : OrderEntity) : Effect h orders (.saveOrder row)
  | updated {criterion : Criterion} {id : String} {row : OrderEntity} (status : OrderStatus)
      (hselected : criterion id = true) (hrow : orders.find? id = some row) :
      Effect h orders (.updateOrder criterion status)
  | processed (row : ProcessedEventEntity) : Effect h orders (.saveProcessed row)
  | published {record : KafkaRecord} (t : EventType) (htopic : record.topic = resolveKafkaTopic t)
      (hnew : record.topic ≠ h.topic) : Effect h orders (.emit record)

/-- Passed by the validator for the event type the method names, and filed under its order. -/
structure Validated (h : RetriedHandler) (envelope : JsVal) : Prop where
  valid : validateEventEnvelope envelope (some h.eventType) = .ok ()
  correlated : envelope.get "correlationId" = (envelope.get "payload").get "orderId"

/-- Whatever fails on the way, a message with an effect has been validated. -/
def OnlyValidated {C : Type} (c : C) (h : RetriedHandler) (proc : Process)
    (headers : List (String × RawHeader)) (payload : KafkaValue) (w : World C) : Prop :=
  ∀ fails, (∃ op ∈ took w (handled c (refusing proc.drivers fails) (h.method proc headers payload)
    w), Effect h w.orders op) → ∃ envelope, h.read payload = .ok (.accepted envelope) ∧
      Validated h envelope

/-- What the handler behind a bare topic needs to act on a message: a row that an update by
the order id finds, or an event that can be announced. -/
def Acts (h : RetriedHandler) (drivers : Drivers) (orders : OrdersTable) (envelope : JsVal) :
    Prop :=
  match h with
  | .orderStockReleased | .orderStockFailed | .orderNotificationSent =>
    (envelope.get "payload").isNullish = false ∧
      Selects drivers orders ((envelope.get "payload").get "orderId")
  | .stockOrderCancelled | .notificationStockReserved => Retry.Announces drivers envelope
  | _ => False

variable {C : Type} {c : C} {w : World C} {h : RetriedHandler} {drivers : Drivers} {proc : Process}
  {headers : List (String × RawHeader)} {payload : KafkaValue} {envelope : JsVal}

/-- The parsers in front of the shared topics validate. -/
theorem validated_of_parsed {validatePayload : JsVal → Except JsThrow Unit}
    (hread : parseMessage h.eventType validatePayload payload = .ok (.accepted envelope)) :
    Validated h envelope := by
  obtain ⟨-, hvalid, -, -⟩ := parseMessage_eq_accepted.mp hread
  obtain ⟨orderId, horder, hcorr, -⟩ := orderId_of_accepted hread
  exact ⟨validateEventEnvelope_eq_ok.mpr hvalid, hcorr.trans horder.symm⟩

theorem not_effect_of_quiet {orders : OrdersTable} {op : Op} (hq : quiet op = true) :
    ¬ Effect h orders op := by
  intro heffect
  cases heffect <;> cases hq

theorem not_effect_copy {orders : OrdersTable} (key : String) (envelope : JsVal)
    (hs : List (String × JsVal)) :
    ¬ Effect h orders (.emit (domainRecord h.eventType key envelope hs)) := by
  intro heffect
  cases heffect with
  | published t htopic hnew => exact hnew h.resolveKafkaTopic_eventType

/-- No companion topic carries domain events. -/
theorem resolveKafkaTopic_ne_dlq (t u : EventType) :
    resolveKafkaTopic t ≠ toDlqTopic (resolveKafkaTopic u) := by
  cases t <;> cases u <;> decide

theorem not_effect_dlq {orders : OrdersTable} (failure : JsVal) :
    ¬ Effect h orders (.emit (dlqRecord h.eventType failure)) := by
  intro heffect
  cases heffect with
  | published t htopic hnew => exact resolveKafkaTopic_ne_dlq t h.eventType htopic.symm

/-- The client refuses an announcement of the message exactly if it cannot encode its id. -/
theorem refusal_announced {t : EventType} {key : String} {drawnId : Uuid}
    {drawnTime : IsoTimestamp} {params : CreateEventEnvelopeParams}
    (htype : ∃ text, params.eventType = .str text) (hcorr : params.correlationId = .str key) :
    drivers.refusal (.emit (domainRecord t key (createEventEnvelope drawnId drawnTime params) [])) =
      none ↔ (params.causationId.truthy = true →
        (drivers.header params.causationId).isOk = true) := by
  have hheaders : drivers.refusal (.emit (domainRecord t key
      (createEventEnvelope drawnId drawnTime params) [])) = drivers.refusedHeader
        (encodeHeaders (envelopeToKafkaHeaders (createEventEnvelope drawnId drawnTime params))) :=
    rfl
  rw [hheaders, refusedHeader_eq_none_iff, encodes_created htype, hcorr, drivers.header_str]
  exact and_iff_right rfl

/-- Without a key and an id to cite, notification-service does not get to its first event. -/
theorem keeps_stockReserved {T : Async.Contract (World C) Op Op.Resp} {I : World C → Prop}
    (hrely : ∀ w w', I w → T.rely w w' → I w')
    (hnone : ∀ key, resolvePartitionKey (announcedSend proc envelope) = .ok key →
      ¬ T.settles (.emit (domainRecord .notificationSend key (announcedSend proc envelope) []))) :
    (RetriedHandler.notificationStockReserved.handler proc envelope).Keeps T I := by
  refine ((performs_logOrderId envelope).keeps hrely).bind fun _ => ?_
  refine Async.keeps_ofExcept_bind fun id hid => ?_
  obtain rfl : id = (envelope.get "payload").get "orderId" := JsVal.get_of_destructure hid
  have hassoc : ∀ f : Unit → Promise Unit,
      (eventPublisher.publish .notificationSend (announcedSend proc envelope) []).bind f =
        (Async.ofExcept (resolvePartitionKey (announcedSend proc envelope))).bind fun key =>
          (Async.perform (Op.emit (domainRecord .notificationSend key (announcedSend proc envelope)
            []))).bind f := fun f => Async.bind_assoc _ _ _
  have hrefused : ∀ f : Unit → Promise Unit, ((eventPublisher.publish .notificationSend
      (announcedSend proc envelope) []).bind f).Keeps T I := by
    intro f
    rw [hassoc]
    refine Async.keeps_ofExcept_bind fun key hkey => ?_
    intro w hw w' hr
    exact ⟨fun hs => absurd hs (hnone key hkey), fun _ e => hrely w w' hw hr⟩
  exact hrefused _

/-- The handler of a bare topic has no effect unless it has something to act on. -/
theorem keeps_idle_handler (hread : h.read payload = .ok (.accepted envelope))
    (hvalid : ¬ Validated h envelope) (hacts : ¬ Acts h proc.drivers w.orders envelope) :
    (h.handler proc envelope).Keeps (alone c proc.drivers)
      (Since w fun op => ¬ Effect h w.orders op) := by
  have hproject : ∀ status logged, ¬ ((envelope.get "payload").isNullish = false ∧
      Selects proc.drivers w.orders ((envelope.get "payload").get "orderId")) →
      (Orders.projectStatus proc status logged envelope).Keeps (alone c proc.drivers)
        (Since w fun op => ¬ Effect h w.orders op) := by
    intro status logged hnone
    refine Async.keeps_ofExcept_bind fun id hid => ?_
    obtain ⟨hpayload, rfl⟩ := JsVal.prop_eq_ok.mp hid
    have hprojected : (Orders.projectStatus proc status logged envelope).Performs
        (Async.Kept (alone c proc.drivers) (Since w fun op => ¬ Effect h w.orders op)) := by
      refine performs_projectStatus fun criterion hcriterion => kept_since fun heffect => ?_
      cases heffect with
      | updated status hselected hrow =>
        exact hnone ⟨hpayload, criterion, hcriterion, _, _, hselected, hrow⟩
    have hread : Orders.projectStatus proc status logged envelope =
        (Async.ofExcept ((envelope.get "payload").prop "orderId")).bind _ := rfl
    rw [hread, hid] at hprojected
    exact hprojected.keeps since_stable
  have hannounced : ∀ {t : EventType} {key : String} {drawnId drawnTime}
      {params : CreateEventEnvelopeParams}, (∃ text, params.eventType = .str text) →
      params.payload.get "orderId" = (envelope.get "payload").get "orderId" →
      params.correlationId = (envelope.get "payload").get "orderId" →
      params.causationId = envelope.get "eventId" → ¬ Retry.Announces proc.drivers envelope →
      resolvePartitionKey (createEventEnvelope drawnId drawnTime params) = .ok key →
      ¬ (alone c proc.drivers).settles (.emit (domainRecord t key
        (createEventEnvelope drawnId drawnTime params) [])) := by
    intro t key drawnId drawnTime params htype horder hcorr hcause hnot hkey hsettles
    obtain ⟨hid, hne⟩ := getPartitionKey_eq_ok.mp hkey
    have hid' : (envelope.get "payload").get "orderId" = .str key := horder.symm.trans hid
    refine hnot ⟨keyed_iff.mpr ⟨key, hid', hne⟩, ?_⟩
    rw [← hcause]
    exact (refusal_announced htype (hcorr.trans hid')).mp hsettles
  cases h with
  | orderPaymentEvents | paymentOrderEvents | stockPaymentEvents | notificationPaymentEvents =>
    refine absurd ?_ hvalid
    exact validated_of_parsed hread
  | orderStockReleased | orderStockFailed | orderNotificationSent => exact hproject _ _ hacts
  | paymentOrderCancelled => exact (performs_paymentOrderCancelled envelope).keeps since_stable
  | notificationOrderCancelled => exact (performs_logOrderId envelope).keeps since_stable
  | stockOrderCancelled =>
    refine Async.Performs.keeps_settled since_stable ?_
    exact performs_stockOrderCancelled fun key hkey hsettles =>
      absurd hsettles (hannounced ⟨_, rfl⟩ rfl rfl rfl hacts hkey)
  | notificationStockReserved =>
    exact keeps_stockReserved since_stable fun key hkey =>
      hannounced ⟨_, rfl⟩ rfl rfl rfl hacts hkey

/-- And the executor around it adds none. -/
theorem keeps_idle (hread : h.read payload = .ok (.accepted envelope))
    (hvalid : ¬ Validated h envelope) (hacts : ¬ Acts h proc.drivers w.orders envelope) :
    (accepted h proc headers envelope).Keeps (alone c proc.drivers)
      (Since w fun op => ¬ Effect h w.orders op) := by
  have hhandles : Handles (alone c proc.drivers) (Since w fun op => ¬ Effect h w.orders op) h proc
      envelope := {
    handler := keeps_idle_handler hread hvalid hacts
    copy := fun key _ _ => kept_since (not_effect_copy key _ _)
    failure := fun _ failure _ _ => kept_since (not_effect_dlq failure) }
  have hran : (h.execute proc envelope (parseKafkaHeaders proc.drivers headers)
      (h.handler proc envelope)).Keeps (alone c proc.drivers)
        (Since w fun op => ¬ Effect h w.orders op) :=
    keeps_execute since_stable (fun _ hq => kept_since (not_effect_of_quiet hq)) hhandles
  have hacked : ∀ f : RetryOutcome → JsVal, ((h.execute proc envelope
      (parseKafkaHeaders proc.drivers headers) (h.handler proc envelope)).bind fun o =>
        .resolve (f o)).Keeps (alone c proc.drivers) (Since w fun op => ¬ Effect h w.orders op) :=
    fun f => hran.bind fun o => Async.keeps_resolve (f o)
  cases h with
  | paymentOrderEvents =>
    refine absurd ?_ hvalid
    exact validated_of_parsed hread
  | paymentOrderCancelled =>
    exact Async.keeps_ofExcept_bind fun _ _ => Async.keeps_ofExcept_bind fun _ _ => hacked _
  | _ => exact hacked _

theorem reaches_publish {t : EventType} {event : JsVal} {key : String}
    (hkey : resolvePartitionKey event = .ok key) (w' : World C) :
    (eventPublisher.publish t event []).Reaches (World.settle c drivers.refusal)
      (.emit (domainRecord t key event [])) w' :=
  Async.reaches_ofExcept_bind hkey (Async.reaches_perform (Op.emit (domainRecord t key event [])) w')

/-- With something to act on, the handler gets to an effect when nothing fails. -/
theorem reaches_handler (hacts : Acts h proc.drivers w.orders envelope) :
    ∃ op, Effect h w.orders op ∧ proc.drivers.refusal op = none ∧ ∀ w' : World C,
      (h.handler proc envelope).Reaches (World.settle c proc.drivers.refusal) op w' := by
  have hproject : ∀ status logged, ((envelope.get "payload").isNullish = false ∧
      Selects proc.drivers w.orders ((envelope.get "payload").get "orderId")) →
      ∃ op, Effect h w.orders op ∧ proc.drivers.refusal op = none ∧ ∀ w' : World C,
        (Orders.projectStatus proc status logged envelope).Reaches
          (World.settle c proc.drivers.refusal) op w' := by
    intro status logged hfound
    obtain ⟨hpayload, criterion, hcriterion, id, row, hselected, hrow⟩ := hfound
    have hprop : (envelope.get "payload").prop "orderId" =
        .ok ((envelope.get "payload").get "orderId") := JsVal.prop_eq_ok.mpr ⟨hpayload, rfl⟩
    refine ⟨.updateOrder criterion status, .updated status hselected hrow, rfl, fun w' => ?_⟩
    refine Async.reaches_ofExcept_bind hprop (Async.Reaches.bind _ (Async.Reaches.bind _ ?_))
    exact Async.reaches_ofExcept_bind hcriterion (Async.reaches_perform _ w')
  have hdestructure : ∀ key, (envelope.get "payload").get "orderId" = .str key →
      (envelope.get "payload").destructure "orderId" "event.payload" = .ok (.str key) := by
    intro key hid
    have hne : (envelope.get "payload").get "orderId" ≠ .undefined := by
      rw [hid]
      exact JsVal.noConfusion
    exact JsVal.destructure_eq_ok.mpr ⟨JsVal.isNullish_of_get hne, hid⟩
  have hreleased : resolveKafkaTopic .stockReleased ≠ RetriedHandler.stockOrderCancelled.topic := by
    decide
  have hsend : resolveKafkaTopic .notificationSend ≠
      RetriedHandler.notificationStockReserved.topic := by decide
  cases h with
  | orderStockReleased | orderStockFailed | orderNotificationSent => exact hproject _ _ hacts
  | stockOrderCancelled =>
    obtain ⟨hkeyed, hcites⟩ := id hacts
    obtain ⟨key, hid, hne⟩ := keyed_iff.mp hkeyed
    refine ⟨_, .published .stockReleased rfl hreleased, (refusal_announced ⟨_, rfl⟩ rfl).mpr hcites,
      fun w' => Async.reaches_ofExcept_bind (hdestructure key hid)
        (Async.Reaches.bind _ (reaches_publish (getPartitionKey_eq_ok.mpr ⟨rfl, hne⟩) w'))⟩
  | notificationStockReserved =>
    obtain ⟨hkeyed, hcites⟩ := id hacts
    obtain ⟨key, hid, hne⟩ := keyed_iff.mp hkeyed
    let send : JsVal := Notification.sendEnvelope proc (.str key) (envelope.get "eventId")
    refine ⟨.emit (domainRecord .notificationSend key send []),
      .published .notificationSend rfl hsend, (refusal_announced ⟨_, rfl⟩ rfl).mpr hcites,
      fun w' => ?_⟩
    obtain ⟨u, w₁, hlog⟩ := (resolves_logOrderId (c := c) (w := w')).mpr hkeyed.readable
    refine Async.reaches_bind_of_run hlog (Async.reaches_ofExcept_bind (hdestructure key hid) ?_)
    exact Async.Reaches.bind _ (reaches_publish (getPartitionKey_eq_ok.mpr ⟨rfl, hne⟩) w₁)
  | _ => exact absurd hacts id

/-- And so does the method. -/
theorem reaches_accepted (hacts : Acts h proc.drivers w.orders envelope) :
    ∃ op, Effect h w.orders op ∧ proc.drivers.refusal op = none ∧
      (accepted h proc headers envelope).Reaches (World.settle c proc.drivers.refusal) op w := by
  obtain ⟨op, heffect, hop, hreach⟩ := reaches_handler (c := c) hacts
  have hran : (h.execute proc envelope (parseKafkaHeaders proc.drivers headers)
      (h.handler proc envelope)).Reaches (World.settle c proc.drivers.refusal) op w :=
    Async.reaches_bind_of_run (KafkaRetryExecutor.run_awaitRetryAt proc
      (refusal_sleep proc.drivers) _) (Async.Reaches.tryCatch _ (Async.Reaches.bind _ (hreach _)))
  refine ⟨op, heffect, hop, ?_⟩
  cases h with
  | orderStockReleased | orderStockFailed | orderNotificationSent | stockOrderCancelled
  | notificationStockReserved => exact Async.Reaches.bind _ hran
  | _ => exact absurd hacts id

/-- A message that its method does not take leaves no trace. -/
theorem took_nil_or_accepted (fails : ℕ → Op → Option JsThrow) :
    took w (handled c fails (h.method proc headers payload) w) = [] ∨
      ∃ envelope, h.read payload = .ok (.accepted envelope) ∧
        h.method proc headers payload = accepted h proc headers envelope := by
  obtain ⟨invalid, skipped, -, -, hmethod⟩ := method_eq h proc headers payload
  have hstill : took w w = [] := by rw [took, List.drop_length, List.map_nil]
  rw [hmethod]
  cases hread : h.read payload with
  | error e => cases e <;> exact .inl hstill
  | ok parsed =>
    cases parsed with
    | skipped reason eventType => exact .inl hstill
    | accepted envelope => exact .inr ⟨envelope, rfl, rfl⟩

theorem method_of_accepted (hread : h.read payload = .ok (.accepted envelope)) :
    h.method proc headers payload = accepted h proc headers envelope := by
  obtain ⟨invalid, skipped, -, -, hmethod⟩ := method_eq h proc headers payload
  rw [hmethod, hread]
  rfl

/-- A message that can be acted on takes effect in the run where nothing else fails. -/
theorem OnlyValidated.of_acts (honly : OnlyValidated c h proc headers payload w)
    (hread : h.read payload = .ok (.accepted envelope))
    (hacts : Acts h proc.drivers w.orders envelope) : Validated h envelope := by
  obtain ⟨op, heffect, hop, hreach⟩ := reaches_accepted (c := c) (w := w) hacts
  rw [← method_of_accepted hread] at hreach
  obtain ⟨envelope', hread', hvalid⟩ := honly _ ⟨op, Reaches.took hreach hop, heffect⟩
  rw [hread] at hread'
  cases hread'
  exact hvalid

/-- What takes effect has been validated, exactly when the bare topics bring no message
that their handlers could act on and the validator would refuse. -/
theorem only_validated_iff : OnlyValidated c h proc headers payload w ↔
    ∀ envelope, h.read payload = .ok (.accepted envelope) →
      Acts h proc.drivers w.orders envelope → Validated h envelope := by
  constructor
  · intro honly envelope hread hacts
    exact honly.of_acts hread hacts
  · intro hguard fails heffects
    obtain ⟨op, hop, heffect⟩ := heffects
    rcases took_nil_or_accepted (c := c) (w := w) (refusing proc.drivers fails) with
      hnil | ⟨envelope, hread, hmethod⟩
    · rw [hnil] at hop
      exact absurd hop List.not_mem_nil
    · by_cases hvalid : Validated h envelope
      · exact ⟨envelope, hread, hvalid⟩
      · have hidle : ¬ Acts h proc.drivers w.orders envelope :=
          fun hacts => hvalid (hguard envelope hread hacts)
        rw [hmethod] at hop
        exact absurd heffect (Keeps.took (keeps_idle hread hvalid hidle) fails op hop)

/-- An envelope with nothing but an id and an order. -/
def bareEnvelope : JsVal :=
  .obj [("eventId", .str "e-1"), ("payload", .obj [("orderId", .str "o-1")])]

/-- As a cancellation it releases stock, though no validator would pass it. -/
theorem unvalidated_takes_effect : ¬ OnlyValidated () .stockOrderCancelled (.still .first .half) []
    (.value bareEnvelope) World.empty := by
  intro honly
  have hread : RetriedHandler.stockOrderCancelled.read (.value bareEnvelope) =
      .ok (.accepted bareEnvelope) := by decide +kernel
  have hkeyed : Keyed bareEnvelope := ⟨"o-1", by decide +kernel⟩
  have hrefused : validateEventEnvelope bareEnvelope (some .orderCancelled) ≠ .ok () := by
    decide +kernel
  have hcites : (bareEnvelope.get "eventId").truthy = true →
      (Drivers.documented.header (bareEnvelope.get "eventId")).isOk = true := fun _ => rfl
  have hvalid : Validated .stockOrderCancelled bareEnvelope :=
    honly.of_acts hread ⟨hkeyed, hcites⟩
  exact hrefused hvalid.valid

end Effects

end EventFlow.Saga
