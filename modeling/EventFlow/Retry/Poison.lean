import EventFlow.Retry.Chain
import EventFlow.Retry.Handlers

namespace EventFlow.Retry

open Js Shared Services KafkaRetryExecutor

/-- What the catch block of `execute` needs of a message that its handler has failed on. -/
structure Recoverable (h : RetriedHandler) (env : String → Option String) (drivers : Drivers)
    (headers : List (String × String)) (envelope : JsVal) : Prop where
  answerable : (Group.runner h env drivers).Answerable envelope (getRetryCount headers).succ
  keyed : shouldRetry (getRetryCount headers).succ (resolveConsumerRetryPolicy env) = true →
    Keyed envelope

section Execute

variable {C : Type} {c : C} {w : World C} {proc : Process} {h : RetriedHandler} {envelope : JsVal}
  {headers : List (String × String)} {handler : Promise Unit}

/-- The answer of the catch block to the failed round. -/
def answerOf (h : RetriedHandler) (proc : Process) (envelope : JsVal)
    (headers : List (String × String)) : Except JsThrow RetryOutcome :=
  (Group.runner h proc.env proc.drivers).answer envelope (getRetryCount headers).succ

theorem recoverable_iff : Recoverable h proc.env proc.drivers headers envelope ↔
    ∃ o, answerOf h proc envelope headers = .ok o := by
  rw [answerOf, answer_isOk_iff]
  exact ⟨fun hrec => ⟨hrec.answerable, hrec.keyed⟩, fun hrec => ⟨hrec.1, hrec.2⟩⟩

/-- Everything `execute` can do when each operation settles well. -/
inductive Executed (c : C) (h : RetriedHandler) (proc : Process) (envelope : JsVal)
    (headers : List (String × String)) (handler : Promise Unit) (w : World C) :
    Except JsThrow RetryOutcome × World C → Prop
  | success {w'}
      (hrun : handler.run (World.settle c proc.drivers.refusal)
        (w.after c (waitOps proc headers)) = (.ok (), w')) :
      Executed c h proc envelope headers handler w (.ok .success, w')
  | failed {e w₁ x ops}
      (hrun : handler.run (World.settle c proc.drivers.refusal)
        (w.after c (waitOps proc headers)) = (.error e, w₁))
      (hanswer : answerOf h proc envelope headers = x)
      (hfollows : Follows (Group.runner h proc.env proc.drivers) proc envelope
        (getRetryCount headers).succ x ops) :
      Executed c h proc envelope headers handler w (x, w₁.after c ops)

theorem executed (hthrows : handler.Throws Textual) :
    Executed c h proc envelope headers handler w
      ((h.execute proc envelope headers handler).run (World.settle c proc.drivers.refusal) w) := by
  let params : ExecuteWithRetryParams := {
    eventType := h.eventType
    envelope := envelope
    headers := headers
    handler := handler }
  have hsleep : ∀ ms, proc.drivers.refusal (.sleep ms) = none := refusal_sleep proc.drivers
  cases hrun : handler.run (World.settle c proc.drivers.refusal)
      (w.after c (waitOps proc headers)) with
  | mk x w₁ =>
    cases x with
    | ok u =>
      have hex := run_execute_ok (runner h.service proc.env) proc params hsleep hrun
      rw [RetriedHandler.execute, hex]
      exact .success hrun
    | error e =>
      have hex := run_execute_error (runner h.service proc.env) proc params hsleep hrun
      have hsettle : ∀ (w : World C) op e, (World.settle c proc.drivers.refusal w op).1 = .error e →
          Textual e := by
        intro w op e he
        rw [World.settle] at he
        cases hop : proc.drivers.refusal op with
        | none => simp [hop] at he
        | some e' =>
          simp only [hop, Except.error.injEq] at he
          obtain rfl := he
          exact textual_refusal hop
      obtain ⟨text, htext⟩ := hthrows.run hsettle hrun
      have hnan : nextAttempt params ≠ .nan := Number.succ_ne_nan (isCount_getRetryCount headers)
      obtain ⟨ops, hfollows, hfailed⟩ := run_onFailure (g := Group.runner h proc.env proc.drivers)
        proc c rfl hnan (isFinite_resolveConsumer proc.env) htext
      have hend : (KafkaRetryExecutor.onFailure (runner h.service proc.env) proc params e).run
          (World.settle c proc.drivers.refusal) w₁ =
            (answerOf h proc envelope headers, w₁.after c ops) := hfailed w₁
      rw [RetriedHandler.execute, hex, hend]
      exact .failed hrun rfl hfollows

/-- A message that its handler cannot take is let go by the catch block or not at all. -/
theorem resolves_execute : (h.execute proc envelope headers (h.handler proc envelope)).Resolves
    (World.settle c proc.drivers.refusal) w ↔
      Completes h proc.drivers w.orders envelope ∨
        Recoverable h proc.env proc.drivers headers envelope := by
  have horders : (w.after c (waitOps proc headers)).orders = w.orders :=
    (World.unchanged_after (waits_waitOps proc headers).quiet).2.1
  have hhandler : (h.handler proc envelope).Resolves (World.settle c proc.drivers.refusal)
      (w.after c (waitOps proc headers)) ↔ Completes h proc.drivers w.orders envelope := by
    rw [resolves_handler, horders]
  have hx : Executed c h proc envelope headers (h.handler proc envelope) w
      ((h.execute proc envelope headers (h.handler proc envelope)).run
        (World.settle c proc.drivers.refusal) w) := executed (throws_handler h proc envelope)
  unfold Async.Resolves
  generalize (h.execute proc envelope headers (h.handler proc envelope)).run
    (World.settle c proc.drivers.refusal) w = x at hx ⊢
  rw [recoverable_iff]
  cases hx with
  | success hrun => exact iff_of_true ⟨_, _, rfl⟩ (.inl (hhandler.mp ⟨_, _, hrun⟩))
  | failed hrun hanswer hfollows =>
    have hnot : ¬ Completes h proc.drivers w.orders envelope :=
      fun hdone => Async.not_resolves hrun (hhandler.mpr hdone)
    rw [or_iff_right hnot, hanswer]
    constructor
    · intro hok
      obtain ⟨o, w', hend⟩ := hok
      exact ⟨o, (Prod.mk.inj hend).1⟩
    · intro hok
      obtain ⟨o, ho⟩ := hok
      exact ⟨o, _, congrArg (·, _) ho⟩

end Execute

section Methods

variable {C : Type} {c : C} {w : World C} {proc : Process} {h : RetriedHandler} {envelope : JsVal}
  {headers : List (String × RawHeader)} {payload : KafkaValue}

/-- What a method does with an envelope that it takes. -/
def accepted (h : RetriedHandler) (proc : Process) (headers : List (String × RawHeader))
    (envelope : JsVal) : Promise JsVal :=
  let ran := h.execute proc envelope (parseKafkaHeaders proc.drivers headers) (h.handler proc envelope)
  match h with
  | .paymentOrderEvents => Payment.handleOrderCreatedEnvelope proc headers envelope
  | .paymentOrderCancelled => do
    let orderId ← Async.ofExcept ((envelope.get "payload").prop "orderId")
    Async.ofExcept (JsVal.logLine [envelope.get "eventType", envelope.get "eventId", orderId])
    ackExecuted ran
  | .orderNotificationSent => do
    let outcome ← ran
    .resolve (Orders.ackCompleted outcome)
  | _ => ackExecuted ran

/-- A bare topic has no parser in front: what cannot be read is thrown. -/
theorem consumeExtracted_eq (invalid : List String → JsVal) (skipped : String → JsVal → JsVal)
    (taken : JsVal → Promise JsVal) : consumeExtracted payload taken =
      consumeParsed ((extractEnvelope payload).map .accepted) invalid skipped taken := by
  unfold consumeExtracted consumeParsed
  cases hx : extractEnvelope payload with
  | ok envelope => rfl
  | error e =>
    obtain ⟨name, message, rfl⟩ := error_of_extract hx
    rfl

/-- Every method reads, and then either acknowledges or takes the envelope. -/
theorem method_eq (h : RetriedHandler) (proc : Process) (headers : List (String × RawHeader))
    (payload : KafkaValue) : ∃ invalid skipped,
    (∀ details, (invalid details).get "outcome" = .str "invalid") ∧
      (∀ reason eventType, (skipped reason eventType).get "skipped" = .bool true) ∧
      h.method proc headers payload =
        consumeParsed (h.read payload) invalid skipped (accepted h proc headers) := by
  cases h with
  | orderPaymentEvents | stockPaymentEvents | notificationPaymentEvents =>
    exact ⟨fun _ => ackOutcome "invalid", fun _ eventType => ackSkippedType eventType,
      fun _ => rfl, fun _ _ => rfl, rfl⟩
  | paymentOrderEvents =>
    exact ⟨ackInvalidDetails, fun reason _ => ackSkippedReason reason, fun _ => rfl,
      fun _ _ => rfl, rfl⟩
  | orderStockReleased | orderStockFailed | orderNotificationSent | paymentOrderCancelled
  | stockOrderCancelled | notificationStockReserved | notificationOrderCancelled =>
    exact ⟨fun _ => ackOutcome "invalid", fun _ eventType => ackSkippedType eventType,
      fun _ => rfl, fun _ _ => rfl, consumeExtracted_eq _ _ _⟩

/-- The lines a method runs between reading its envelope and the executor. -/
def Enters (h : RetriedHandler) (envelope : JsVal) : Prop :=
  h = .paymentOrderCancelled → Readable ["orderId"] envelope ∧ Loggable envelope

/-- When a message does not block the partition of its group. -/
def Digestible (h : RetriedHandler) (env : String → Option String) (drivers : Drivers)
    (orders : OrdersTable) (headers : List (String × RawHeader)) (payload : KafkaValue) : Prop :=
  match h.read payload with
  | .error (.validation _ _) | .ok (.skipped _ _) => True
  | .error _ => False
  | .ok (.accepted envelope) => Enters h envelope ∧
    (Completes h drivers orders envelope ∨
      Recoverable h env drivers (parseKafkaHeaders drivers headers) envelope)

theorem keyed_of_accepted {t : EventType} {validatePayload : JsVal → Except JsThrow Unit}
    (hread : parseMessage t validatePayload payload = .ok (.accepted envelope)) :
    Keyed envelope := by
  obtain ⟨orderId, hid, -, hne⟩ := orderId_of_accepted hread
  exact keyed_iff.mpr ⟨orderId, hid, hne⟩

/-- What an idempotency check says about the rows it was made on. -/
def Found (rows : ProcessedEventsTable) (eventId orderId : String) :
    Payment.IdempotencyCheckResult → Prop
  | .new => True
  | .duplicateEvent r => rows.find? eventId = some r
  | .duplicateOrder r => r ∈ rows.rows ∧ r.orderId = orderId ∧ r.outcome = .approved

/-- The two lookups of payment-service. -/
theorem run_checkOrderCreated (drivers : Drivers) (w : World C) (eventId orderId : String) :
    ∃ ops check, (∀ op ∈ ops, quiet op = true) ∧
      (Payment.checkOrderCreated eventId orderId).run (World.settle c drivers.refusal) w =
        (.ok check, w.after c ops) ∧ Found w.processed eventId orderId check := by
  let w₁ : World C := w.after c [.findByEvent eventId]
  have hevent : (Payment.checkOrderCreated eventId orderId).run (World.settle c drivers.refusal) w =
      (Payment.decideByEvent orderId (w.processed.find? eventId)).run
        (World.settle c drivers.refusal) w₁ := rfl
  rw [hevent]
  cases hfind : w.processed.find? eventId with
  | some r => exact ⟨[.findByEvent eventId], .duplicateEvent r, by simp [quiet], rfl, hfind⟩
  | none =>
    have horder : (Payment.decideByEvent orderId none).run (World.settle c drivers.refusal) w₁ =
        (Payment.decideByOrder (w.processed.findOne fun r =>
          r.orderId = orderId ∧ r.outcome = .approved)).run
            (World.settle c drivers.refusal) (w₁.after c [.findApproved orderId]) := rfl
    have hquiet : ∀ op ∈ [Op.findByEvent eventId, .findApproved orderId], quiet op = true := by
      simp [quiet]
    rw [horder]
    cases hone : w.processed.findOne fun r => r.orderId = orderId ∧ r.outcome = .approved with
    | some r =>
      obtain ⟨hmem, hr⟩ := Table.findOne_spec hone
      exact ⟨_, .duplicateOrder r, hquiet, rfl, hmem, by simpa using hr⟩
    | none => exact ⟨_, .new, hquiet, rfl, trivial⟩

/-- What a delivery adds to the topic of its method and to the companion. -/
def Sent (h : RetriedHandler) (w w' : World C) (own dead : List KafkaRecord) : Prop :=
  onTopic h.topic w' = onTopic h.topic w ++ own ∧
    onTopic (toDlqTopic h.topic) w' = onTopic (toDlqTopic h.topic) w ++ dead

/-- What became of a message whose method resolved: acknowledged unread, known
already, handled to its end, republished once, or sent to the companion once. -/
inductive Disposed (c : C) (h : RetriedHandler) (proc : Process) (payload : KafkaValue)
    (w : World C) : JsVal → World C → Prop
  | invalid {ack message details} (hread : h.read payload = .error (.validation message details))
      (hack : ack.get "outcome" = .str "invalid") : Disposed c h proc payload w ack w
  | skipped {ack reason eventType} (hread : h.read payload = .ok (.skipped reason eventType))
      (hack : ack.get "skipped" = .bool true) : Disposed c h proc payload w ack w
  | duplicate {ack envelope check w'} (hread : h.read payload = .ok (.accepted envelope))
      (hfound : Found w.processed (Payment.OrderCreatedEvent.ofJs envelope).eventId
        (Payment.OrderCreatedEvent.ofJs envelope).payload.orderId check)
      (hack : ack.get "outcome" = .str "duplicate" ∨ ack.get "outcome" = .str "duplicate_order")
      (hlog : w'.log = w.log) : Disposed c h proc payload w ack w'
  | success {ack envelope ops w'} (hread : h.read payload = .ok (.accepted envelope))
      (hquiet : ∀ op ∈ ops, quiet op = true)
      (hrun : (h.handler proc envelope).run (World.settle c proc.drivers.refusal) (w.after c ops) =
        (.ok (), w'))
      (hack : ack.get "outcome" = .str "success") (hsent : Sent h w w' [] []) :
      Disposed c h proc payload w ack w'
  | retry {ack envelope e ops w₁ w'} (key : String) (hs : List (String × JsVal))
      (hread : h.read payload = .ok (.accepted envelope)) (hquiet : ∀ op ∈ ops, quiet op = true)
      (hrun : (h.handler proc envelope).run (World.settle c proc.drivers.refusal) (w.after c ops) =
        (.error e, w₁))
      (hack : ack.get "outcome" = .str "retry")
      (hsent : Sent h w w' [domainRecord h.eventType key envelope hs] []) :
      Disposed c h proc payload w ack w'
  | dlq {ack envelope e ops w₁ w' attempt r}
      (hread : h.read payload = .ok (.accepted envelope)) (hquiet : ∀ op ∈ ops, quiet op = true)
      (hrun : (h.handler proc envelope).run (World.settle c proc.drivers.refusal) (w.after c ops) =
        (.error e, w₁))
      (hack : ack.get "outcome" = .str "dlq")
      (hr : FailureRecord (Group.runner h proc.env proc.drivers) envelope attempt r)
      (hsent : Sent h w w' [] [r]) :
      Disposed c h proc payload w ack w'

theorem topic_ne_dlq (h : RetriedHandler) : h.topic ≠ toDlqTopic h.topic := by
  cases h <;> decide

/-- A handler adds nothing to either topic. -/
theorem sent_handler {ops : List Op} {x : Except JsThrow Unit} {w₁ : World C}
    (hquiet : ∀ op ∈ ops, quiet op = true)
    (hrun : (h.handler proc envelope).run (World.settle c proc.drivers.refusal) (w.after c ops) =
      (x, w₁)) :
    Sent h w w₁ [] [] := by
  have hkeep : ∀ topic, topic = h.topic ∨ topic = toDlqTopic h.topic →
      onTopic topic w₁ = onTopic topic w ++ [] := by
    intro topic htopic
    have hhandler : onTopic topic ((h.handler proc envelope).run
        (World.settle c proc.drivers.refusal) (w.after c ops)).2 = onTopic topic (w.after c ops) :=
      onTopic_run (spares_handler h proc envelope htopic)
    rw [hrun] at hhandler
    have hwait : onTopic topic (w.after c ops) = onTopic topic w :=
      onTopic_after fun op hop => spares_of_not_emit (not_write_of_quiet (hquiet op hop)).1
    rw [List.append_nil, hhandler, hwait]
  exact ⟨hkeep _ (.inl rfl), hkeep _ (.inr rfl)⟩

/-- One more record after that. -/
theorem sent_emit {w₁ : World C} (r : KafkaRecord) (hsent : Sent h w w₁ [] []) :
    Sent h w (w₁.after c [.emit r]) (if r.topic = h.topic then [r] else [])
      (if r.topic = toDlqTopic h.topic then [r] else []) := by
  obtain ⟨hown, hdead⟩ := hsent
  rw [List.append_nil] at hown hdead
  exact ⟨by rw [onTopic_emit, hown], by rw [onTopic_emit, hdead]⟩

theorem disposed_of_executed {ops : List Op} {o : RetryOutcome} {ack : JsVal} {w' : World C}
    {hs : List (String × String)} (hread : h.read payload = .ok (.accepted envelope))
    (hquiet : ∀ op ∈ ops, quiet op = true)
    (hx : Executed c h proc envelope hs (h.handler proc envelope) (w.after c ops) (.ok o, w'))
    (hack : ack.get "outcome" = .str o.value) : Disposed c h proc payload w ack w' := by
  have hall : ∀ op ∈ ops ++ waitOps proc hs, quiet op = true := by
    intro op hop
    rcases List.mem_append.mp hop with hop | hop
    · exact hquiet op hop
    · exact (waits_waitOps proc hs).quiet op hop
  have hne : h.topic ≠ toDlqTopic h.topic := topic_ne_dlq h
  cases hx with
  | success hrun =>
    rw [← World.after_append] at hrun
    exact .success hread hall hrun hack (sent_handler hall hrun)
  | @failed e w₁ x rest hrun hanswer hfollows =>
    rw [← World.after_append] at hrun
    have hfailed : Sent h w w₁ [] [] := sent_handler hall hrun
    cases hfollows with
    | success => exact absurd hanswer answer_ne_success
    | @retry key hkey =>
      refine .retry key ((runner h.service proc.env).retryHeaders proc h.eventType envelope
        (getRetryCount hs).succ) hread hall hrun hack ?_
      have hslept : Sent h w (w₁.after c [.sleep (calculateBackoffMs (getRetryCount hs).succ
        (Group.runner h proc.env proc.drivers).policy)]) [] [] := hfailed
      have hsent := sent_emit (c := c) ((Group.runner h proc.env proc.drivers).retryRecord proc key
        envelope (getRetryCount hs).succ) hslept
      have htopic : ((Group.runner h proc.env proc.drivers).retryRecord proc key envelope
          (getRetryCount hs).succ).topic = h.topic := h.resolveKafkaTopic_eventType
      rwa [htopic, if_pos rfl, if_neg hne, ← World.after_append] at hsent
    | @dlq r hr =>
      refine .dlq hread hall hrun hack hr ?_
      have hsent := sent_emit (c := c) r hfailed
      have htopic : r.topic = toDlqTopic h.topic :=
        hr.topic.trans (congrArg toDlqTopic h.resolveKafkaTopic_eventType)
      rwa [htopic, if_pos rfl, if_neg hne.symm] at hsent

/-- The method acknowledges the end of its executor. -/
theorem disposed_ran {ops : List Op} {f : RetryOutcome → JsVal} {ack : JsVal} {w' : World C}
    (hread : h.read payload = .ok (.accepted envelope)) (hquiet : ∀ op ∈ ops, quiet op = true)
    (hf : ∀ o, (f o).get "outcome" = .str o.value)
    (hrun : ((h.execute proc envelope (parseKafkaHeaders proc.drivers headers)
      (h.handler proc envelope)).bind fun o => .resolve (f o)).run (World.settle c proc.drivers.refusal)
        (w.after c ops) = (.ok ack, w')) : Disposed c h proc payload w ack w' := by
  have hx : Executed c h proc envelope (parseKafkaHeaders proc.drivers headers) (h.handler proc envelope)
      (w.after c ops) ((h.execute proc envelope (parseKafkaHeaders proc.drivers headers)
        (h.handler proc envelope)).run (World.settle c proc.drivers.refusal) (w.after c ops)) :=
    executed (throws_handler h proc envelope)
  rw [Async.run_bind] at hrun
  generalize (h.execute proc envelope (parseKafkaHeaders proc.drivers headers)
    (h.handler proc envelope)).run (World.settle c proc.drivers.refusal) (w.after c ops) = x
    at hx hrun
  obtain ⟨e | o, w₁⟩ := x
  · cases hrun
  · cases hrun
    exact disposed_of_executed hread hquiet hx (hf o)

theorem resolves_ran {f : RetryOutcome → JsVal} :
    ((h.execute proc envelope (parseKafkaHeaders proc.drivers headers)
      (h.handler proc envelope)).bind fun o => .resolve (f o)).Resolves
        (World.settle c proc.drivers.refusal) w ↔
      Completes h proc.drivers w.orders envelope ∨
        Recoverable h proc.env proc.drivers (parseKafkaHeaders proc.drivers headers) envelope := by
  rw [← resolves_execute (c := c) (w := w), Async.resolves_bind]
  simp only [Async.resolves_resolve, and_true]
  exact Iff.rfl

/-- What the accepted branch of a method has to do with a message. -/
def Takes (c : C) (w : World C) (h : RetriedHandler) (proc : Process)
    (headers : List (String × RawHeader)) (payload : KafkaValue) (envelope : JsVal) : Prop :=
  ((accepted h proc headers envelope).Resolves (World.settle c proc.drivers.refusal) w ↔
    Enters h envelope ∧ (Completes h proc.drivers w.orders envelope ∨
      Recoverable h proc.env proc.drivers (parseKafkaHeaders proc.drivers headers) envelope)) ∧
  ∀ ack w', (accepted h proc headers envelope).run (World.settle c proc.drivers.refusal) w =
    (.ok ack, w') → Disposed c h proc payload w ack w'

theorem ackOutcome_outcome (o : RetryOutcome) :
    (ackOutcome o.value).get "outcome" = .str o.value := rfl

theorem quiet_nil : ∀ op ∈ ([] : List Op), quiet op = true := by simp

/-- `order.created`: an accepted event has a key, so its handler cannot fail, and a
known one is acknowledged at once. -/
theorem takes_orderEvents
    (hread : RetriedHandler.paymentOrderEvents.read payload = .ok (.accepted envelope)) :
    Takes c w .paymentOrderEvents proc headers payload envelope := by
  have hkeyed : Completes .paymentOrderEvents proc.drivers w.orders envelope := keyed_of_accepted hread
  obtain ⟨ops, check, hquiet, hcheck, hfound⟩ := run_checkOrderCreated (c := c) proc.drivers w
    (Payment.OrderCreatedEvent.ofJs envelope).eventId
    (Payment.OrderCreatedEvent.ofJs envelope).payload.orderId
  have hrun : (accepted .paymentOrderEvents proc headers envelope).run
      (World.settle c proc.drivers.refusal) w =
      (Payment.handleChecked proc headers envelope (.ofJs envelope) check).run
        (World.settle c proc.drivers.refusal) (w.after c ops) := run_bind_ok hcheck
  have hright : Enters .paymentOrderEvents envelope ∧
      (Completes .paymentOrderEvents proc.drivers w.orders envelope ∨
        Recoverable .paymentOrderEvents proc.env proc.drivers
          (parseKafkaHeaders proc.drivers headers) envelope) :=
    ⟨nofun, .inl hkeyed⟩
  unfold Takes Async.Resolves
  rw [hrun]
  obtain ⟨hlog, horders, -⟩ := World.unchanged_after (c := c) (w := w) hquiet
  cases check with
  | duplicateEvent r =>
    refine ⟨iff_of_true ⟨_, _, rfl⟩ hright, fun ack w' hend => ?_⟩
    cases hend
    exact .duplicate hread hfound (.inl rfl) hlog
  | duplicateOrder r =>
    refine ⟨iff_of_true ⟨_, _, rfl⟩ hright, fun ack w' hend => ?_⟩
    cases hend
    exact .duplicate hread hfound (.inr rfl) hlog
  | new =>
    refine ⟨iff_of_true ?_ hright, fun ack w' hend => ?_⟩
    · refine (resolves_ran (c := c) (h := .paymentOrderEvents)).mpr (.inl ?_)
      rwa [horders]
    · exact disposed_ran hread hquiet ackOutcome_outcome hend

/-- `order.cancelled` in payment-service: a log line before the executor. -/
theorem takes_cancelled
    (hread : RetriedHandler.paymentOrderCancelled.read payload = .ok (.accepted envelope)) :
    Takes c w .paymentOrderCancelled proc headers payload envelope := by
  let ran : Promise JsVal := ackExecuted (RetriedHandler.paymentOrderCancelled.execute proc envelope
    (parseKafkaHeaders proc.drivers headers)
    (RetriedHandler.paymentOrderCancelled.handler proc envelope))
  have hentered : accepted .paymentOrderCancelled proc headers envelope =
      (Async.ofExcept ((envelope.get "payload").prop "orderId")).bind fun orderId =>
        (Async.ofExcept (JsVal.logLine [envelope.get "eventType", envelope.get "eventId",
          orderId])).bind fun _ => ran := rfl
  have hran : ran.Resolves (World.settle c proc.drivers.refusal) w ↔
      Completes .paymentOrderCancelled proc.drivers w.orders envelope ∨
        Recoverable .paymentOrderCancelled proc.env proc.drivers
          (parseKafkaHeaders proc.drivers headers) envelope :=
    resolves_ran
  unfold Takes
  rw [hentered]
  constructor
  · rw [Async.resolves_ofExcept_bind]
    simp only [resolves_logLine_bind, hran, JsVal.prop_eq_ok, Enters, Readable, Loggable,
      List.mem_cons, List.not_mem_nil, or_false, forall_eq_or_imp, forall_eq, true_imp_iff]
    constructor
    · rintro ⟨orderId, ⟨hpayload, rfl⟩, ⟨htype, hid, horder⟩, hend⟩
      exact ⟨⟨⟨hpayload, horder⟩, hid, htype⟩, hend⟩
    · rintro ⟨⟨⟨hpayload, horder⟩, hid, htype⟩, hend⟩
      exact ⟨_, ⟨hpayload, rfl⟩, ⟨htype, hid, horder⟩, hend⟩
  · intro ack w' hrun
    obtain ⟨orderId, -, hrun⟩ := Async.ok_of_run_ofExcept_bind hrun
    obtain ⟨u, -, hrun⟩ := Async.ok_of_run_ofExcept_bind hrun
    exact disposed_ran hread quiet_nil ackOutcome_outcome hrun

/-- What the accepted branch does with a message, for each shape of it. -/
theorem takes_accepted (hread : h.read payload = .ok (.accepted envelope)) :
    Takes c w h proc headers payload envelope := by
  by_cases hevents : h = .paymentOrderEvents
  · subst hevents
    exact takes_orderEvents hread
  by_cases hcancelled : h = .paymentOrderCancelled
  · subst hcancelled
    exact takes_cancelled hread
  have henters : Enters h envelope := fun heq => absurd heq hcancelled
  obtain ⟨f, hf, hshape⟩ : ∃ f : RetryOutcome → JsVal, (∀ o, (f o).get "outcome" = .str o.value) ∧
      accepted h proc headers envelope = (h.execute proc envelope (parseKafkaHeaders proc.drivers headers)
        (h.handler proc envelope)).bind fun o => .resolve (f o) := by
    cases h with
    | paymentOrderEvents => exact absurd rfl hevents
    | paymentOrderCancelled => exact absurd rfl hcancelled
    | orderNotificationSent => exact ⟨Orders.ackCompleted, fun _ => rfl, rfl⟩
    | _ => exact ⟨fun o => ackOutcome o.value, ackOutcome_outcome, rfl⟩
  unfold Takes
  rw [hshape]
  refine ⟨?_, fun ack w' hrun => disposed_ran hread quiet_nil hf hrun⟩
  rw [resolves_ran, and_iff_right henters]

/-- A method resolves exactly on the messages it can digest. -/
theorem resolves_method :
    (h.method proc headers payload).Resolves (World.settle c proc.drivers.refusal) w ↔
    Digestible h proc.env proc.drivers w.orders headers payload := by
  obtain ⟨invalid, skipped, -, -, hmethod⟩ := method_eq h proc headers payload
  rw [hmethod]
  unfold consumeParsed Digestible
  cases hread : h.read payload with
  | error e => cases e <;> simp
  | ok parsed =>
    cases parsed with
    | skipped reason eventType => simp
    | accepted envelope => exact (takes_accepted hread).1

/-- And then the message is done with. -/
theorem disposed_method {ack : JsVal} {w' : World C}
    (hrun : (h.method proc headers payload).run (World.settle c proc.drivers.refusal) w =
      (.ok ack, w')) :
    Disposed c h proc payload w ack w' := by
  obtain ⟨invalid, skipped, hinvalid, hskipped, hmethod⟩ := method_eq h proc headers payload
  rw [hmethod] at hrun
  unfold consumeParsed at hrun
  cases hread : h.read payload with
  | error e =>
    rw [hread] at hrun
    cases e with
    | validation message details =>
      cases hrun
      exact .invalid hread (hinvalid details)
    | _ => cases hrun
  | ok parsed =>
    rw [hread] at hrun
    cases parsed with
    | skipped reason eventType =>
      cases hrun
      exact .skipped hread (hskipped reason eventType)
    | accepted envelope => exact (takes_accepted hread).2 ack w' hrun

end Methods

section Subscriptions

/-- The `@EventPattern` methods of the five services. -/
inductive Subscription where
  | retried (h : RetriedHandler)
  | dlq (t : EventType)
  | notificationFailed

namespace Subscription

def topic : Subscription → String
  | retried h => h.topic
  | dlq t => toDlqTopic t.value
  | notificationFailed => EventType.notificationFailed.value

def method (s : Subscription) (proc : Process) (headers : List (String × RawHeader))
    (payload : KafkaValue) : Promise JsVal :=
  match s with
  | retried h => h.method proc headers payload
  | dlq t => Dlq.handleDlqTopic t payload
  | notificationFailed => Dlq.handleNotificationFailed payload

/-- What became of a message whose method resolved; dlq-service only logs. -/
def Settled {C : Type} (c : C) (s : Subscription) (proc : Process) (payload : KafkaValue)
    (w : World C) (ack : JsVal) (w' : World C) : Prop :=
  match s with
  | retried h => Disposed c h proc payload w ack w'
  | dlq _ | notificationFailed => ack.get "acknowledged" = .bool true ∧ w' = w

/-- When a message does not block the partition of the group. -/
def Digests (s : Subscription) (env : String → Option String) (drivers : Drivers)
    (orders : OrdersTable) (headers : List (String × RawHeader)) (payload : KafkaValue) : Prop :=
  match s with
  | retried h => Digestible h env drivers orders headers payload
  | dlq _ => True
  | notificationFailed => ∃ envelope, extractEnvelope payload = .ok envelope ∧
    Readable ["notificationId", "orderId", "reason"] envelope

end Subscription

variable {C : Type} {c : C} {w : World C} {payload : KafkaValue}

theorem ack_handleDlqMessage (topic : String) (payload : KafkaValue) :
    (Dlq.handleDlqMessage topic payload).get "acknowledged" = .bool true := by
  unfold Dlq.handleDlqMessage
  cases hread : Dlq.readDlqMessage topic payload with
  | error e => rfl
  | ok ack =>
    unfold Dlq.readDlqMessage at hread
    cases hx : extractEnvelope payload with
    | error e =>
      rw [hx] at hread
      cases hread
    | ok event =>
      simp only [hx, bind, Except.bind] at hread
      split_ifs at hread
      · cases hlog : Dlq.logFailure (event.get "payload") with
        | error e =>
          rw [hlog] at hread
          cases hread
        | ok u =>
          rw [hlog] at hread
          cases hread
          rfl
      · cases hlog : JsVal.logLine [event.get "eventId", event.get "eventType",
            event.get "correlationId"] with
        | error e =>
          rw [hlog] at hread
          cases hread
        | ok u =>
          rw [hlog] at hread
          cases hread
          rfl

theorem notificationFailed_spec (drivers : Drivers) (c : C) (w : World C) (payload : KafkaValue) :
    ((Dlq.handleNotificationFailed payload).Resolves (World.settle c drivers.refusal) w ↔
      ∃ envelope, extractEnvelope payload = .ok envelope ∧
        Readable ["notificationId", "orderId", "reason"] envelope) ∧
    ∀ ack w', (Dlq.handleNotificationFailed payload).run (World.settle c drivers.refusal) w =
      (.ok ack, w') → ack.get "acknowledged" = .bool true ∧ w' = w := by
  constructor
  · refine Async.resolves_ofExcept_bind.trans (exists_congr fun envelope => ?_)
    refine and_congr_right fun _ => ?_
    simp only [Async.bind_eq, Async.resolves_ofExcept_bind, JsVal.exists_logLine_eq_ok,
      JsVal.prop_eq_ok, Readable, Async.resolves_resolve, and_true]
    constructor
    · rintro ⟨_, ⟨hpayload, rfl⟩, _, ⟨-, rfl⟩, _, ⟨-, rfl⟩, hlog⟩
      exact ⟨hpayload, by simpa using hlog⟩
    · rintro ⟨hpayload, hlog⟩
      exact ⟨_, ⟨hpayload, rfl⟩, _, ⟨hpayload, rfl⟩, _, ⟨hpayload, rfl⟩, by simpa using hlog⟩
  · intro ack w' hrun
    obtain ⟨envelope, -, hrun⟩ := Async.ok_of_run_ofExcept_bind hrun
    obtain ⟨notificationId, -, hrun⟩ := Async.ok_of_run_ofExcept_bind hrun
    obtain ⟨orderId, -, hrun⟩ := Async.ok_of_run_ofExcept_bind hrun
    obtain ⟨reason, -, hrun⟩ := Async.ok_of_run_ofExcept_bind hrun
    obtain ⟨u, -, hrun⟩ := Async.ok_of_run_ofExcept_bind hrun
    cases hrun
    exact ⟨rfl, rfl⟩

end Subscriptions

end EventFlow.Retry
