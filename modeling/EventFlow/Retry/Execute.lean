import EventFlow.Shared.Executor

namespace EventFlow.Shared

open Js

namespace World

variable {C : Type}

/-- The state after a caller's operations have all settled well. -/
def after (c : C) (w : World C) (ops : List Op) : World C :=
  ops.foldl (fun w op => (w.exec c op).2) w

variable (c : C) (w : World C)

@[simp] theorem after_nil : w.after c [] = w := rfl

theorem after_append (ops ops' : List Op) :
    w.after c (ops ++ ops') = (w.after c ops).after c ops' := List.foldl_append

theorem after_singleton (op : Op) : w.after c [op] = (w.exec c op).2 := rfl

theorem after_trace (ops : List Op) :
    (w.after c ops).trace = w.trace ++ ops.map fun op => (c, op) := by
  induction ops generalizing w with
  | nil => simp
  | cons op ops ih =>
    have h := ih (w.exec c op).2
    rw [exec_trace, List.append_assoc] at h
    simpa [after] using h

/-- The record an operation puts on a topic. -/
def emitted : Op → Option KafkaRecord
  | .emit r => some r
  | _ => none

theorem emitted_eq_some {op : Op} {r : KafkaRecord} : emitted op = some r ↔ op = .emit r := by
  cases op <;> simp [emitted]

theorem after_log (ops : List Op) : (w.after c ops).log = w.log ++ ops.filterMap emitted := by
  induction ops generalizing w with
  | nil => simp
  | cons op ops ih =>
    have h := ih (w.exec c op).2
    have hstep : w.after c (op :: ops) = (w.exec c op).2.after c ops := rfl
    rw [hstep, h]
    cases hop : emitted op with
    | some r =>
      obtain rfl := emitted_eq_some.mp hop
      simp [emitted]
    | none =>
      have hlog : (w.exec c op).2.log = w.log := exec_log c w fun r hr => by
        rw [hr] at hop
        cases hop
      rw [hlog, List.filterMap_cons_none hop]

variable {c w}

/-- Waits and lookups leave the tables and the log as they are. -/
theorem unchanged_after {ops : List Op} (h : ∀ op ∈ ops, quiet op = true) :
    (w.after c ops).log = w.log ∧ (w.after c ops).orders = w.orders ∧
      (w.after c ops).processed = w.processed := by
  induction ops generalizing w with
  | nil => exact ⟨rfl, rfl, rfl⟩
  | cons op ops ih =>
    obtain ⟨hemit, hrow, horder, hupdate⟩ := not_write_of_quiet (h op List.mem_cons_self)
    obtain ⟨hlog, horders, hprocessed⟩ :=
      ih (w := (w.exec c op).2) fun op' hop' => h op' (List.mem_cons_of_mem _ hop')
    have hstep : w.after c (op :: ops) = (w.exec c op).2.after c ops := rfl
    rw [hstep, hlog, horders, hprocessed]
    exact ⟨exec_log c w hemit, exec_orders c w horder hupdate, exec_processed c w hrow⟩

end World

section Run

variable {C : Type} {c : C} {fails : Op → Option JsThrow} {w : World C} {α β : Type}

theorem run_perform_ok {op : Op} (hop : fails op = none) :
    (Async.perform op : Promise op.Resp).run (World.settle c fails) w =
      (.ok (w.exec c op).1, w.after c [op]) := by
  rw [Async.run_perform, World.settle, hop]
  rfl

theorem run_perform_error {op : Op} {e : JsThrow} (hop : fails op = some e) :
    (Async.perform op : Promise op.Resp).run (World.settle c fails) w = (.error e, w) := by
  rw [Async.run_perform, World.settle, hop]

theorem run_bind_ok {p : Promise α} {f : α → Promise β} {a : α} {w' : World C}
    (h : p.run (World.settle c fails) w = (.ok a, w')) :
    (p.bind f).run (World.settle c fails) w = (f a).run (World.settle c fails) w' := by
  rw [Async.run_bind, h]

theorem run_bind_error {p : Promise α} {f : α → Promise β} {e : JsThrow} {w' : World C}
    (h : p.run (World.settle c fails) w = (.error e, w')) :
    (p.bind f).run (World.settle c fails) w = (.error e, w') := by
  rw [Async.run_bind, h]

theorem run_tryCatch_ok {p : Promise α} {f : JsThrow → Promise α} {a : α} {w' : World C}
    (h : p.run (World.settle c fails) w = (.ok a, w')) :
    (p.tryCatch f).run (World.settle c fails) w = (.ok a, w') := by
  rw [Async.run_tryCatch, h]

theorem run_tryCatch_error {p : Promise α} {f : JsThrow → Promise α} {e : JsThrow} {w' : World C}
    (h : p.run (World.settle c fails) w = (.error e, w')) :
    (p.tryCatch f).run (World.settle c fails) w = (f e).run (World.settle c fails) w' := by
  rw [Async.run_tryCatch, h]

theorem run_sleep {ms : Number} (h : fails (.sleep ms) = none) :
    (sleep ms).run (World.settle c fails) w = (.ok (), w.after c [.sleep ms]) :=
  run_perform_ok h

end Run

/-- Every operation settles well. -/
def noFailure : Op → Option JsThrow := fun _ => none

def domainRecord (eventType : EventType) (key : String) (envelope : JsVal)
    (headers : List (String × JsVal)) : KafkaRecord where
  topic := resolveKafkaTopic eventType
  key := .str key
  value := .value envelope.wire
  headers := encodeHeaders (spread (envelopeToKafkaHeaders envelope) headers)

/-- The envelope around the failure of another one. -/
def failureEnvelope (proc : Process) (details : JsVal) (params : CreateFailureEnvelopeParams) :
    JsVal :=
  createEventEnvelope (proc.uuid 10) (proc.iso 12) {
    eventType := params.original.get "eventType"
    source := params.service.value
    correlationId := params.original.get "correlationId"
    causationId := params.original.get "eventId"
    payload := failurePayload details (proc.iso 11) params }

def dlqRecord (eventType : EventType) (envelope : JsVal) : KafkaRecord where
  topic := toDlqTopic (resolveKafkaTopic eventType)
  key := ((envelope.get "payload").get "correlationId").wire
  value := .value envelope.wire
  headers := encodeHeaders (spread (envelopeToKafkaHeaders envelope) [])

/-- Operations that only wait. -/
def Waits (ops : List Op) : Prop := ∀ op ∈ ops, ∃ ms, op = .sleep ms

theorem waits_nil : Waits [] := fun _ hop => absurd hop List.not_mem_nil

theorem waits_singleton (ms : Number) : Waits [.sleep ms] :=
  fun _ hop => ⟨ms, List.mem_singleton.mp hop⟩

theorem waits_cons (ms : Number) {ops : List Op} (h : Waits ops) : Waits (.sleep ms :: ops) := by
  intro op hop
  rcases List.mem_cons.mp hop with rfl | hop
  · exact ⟨ms, rfl⟩
  · exact h op hop

theorem Waits.quiet {ops : List Op} (h : Waits ops) : ∀ op ∈ ops, quiet op = true := by
  intro op hop
  obtain ⟨ms, rfl⟩ := h op hop
  rfl

theorem emitted_of_waits {ops : List Op} (h : Waits ops) : ops.filterMap World.emitted = [] := by
  refine List.filterMap_eq_nil_iff.mpr fun op hop => ?_
  obtain ⟨ms, rfl⟩ := h op hop
  rfl

section Attempts

variable {C : Type} {c : C} {fails : Op → Option JsThrow} {policy : RetryPolicyConfig}
  {publish : Promise Unit} {onRetry : ℕ → Number → JsThrow → Except JsThrow Unit} {e : JsThrow}

theorem run_emit {w : World C} {topic : String} {key value : JsVal}
    {headers : List (String × JsVal)} (h : fails (.emit {
      topic := topic
      key := key.wire
      value := .value value.wire
      headers := encodeHeaders headers }) = none) :
    (emitKafkaEvent topic key value headers).run (World.settle c fails) w =
      (.ok (), w.after c [.emit {
        topic := topic
        key := key.wire
        value := .value value.wire
        headers := encodeHeaders headers }]) :=
  run_perform_ok h

/-- With at least one attempt the first one goes through. -/
theorem run_publishWithProducerRetry {w w' : World C}
    (hmax : policy.maxAttempts.isFinite = true) (hone : Number.le 1 policy.maxAttempts = true)
    (h : publish.run (World.settle c fails) w = (.ok (), w')) :
    (publishWithProducerRetry policy publish onRetry).run (World.settle c fails) w =
      (.ok (), w') := by
  obtain ⟨q, hq, hfin⟩ := Number.isFinite_iff.mp hmax
  rw [publishWithProducerRetry, hfin, passesUpTo, publishAttempts]
  have hone' : Number.le (.ofNat 1) policy.maxAttempts = true := hone
  rw [if_pos hone', run_tryCatch_ok h]

/-- With none at all the call rejects with `undefined`. -/
theorem run_publishWithProducerRetry_none {w : World C}
    (hone : Number.le 1 policy.maxAttempts = false) :
    (publishWithProducerRetry policy publish onRetry).run (World.settle c fails) w =
      (.error (.value .undefined), w) := by
  rw [publishWithProducerRetry]
  cases hpass : passesUpTo policy.maxAttempts with
  | zero => rw [publishAttempts, Async.run_reject]
  | succ fuel =>
    have hone' : ¬ Number.le (.ofNat 1) policy.maxAttempts = true := by
      rw [Bool.not_eq_true]
      exact hone
    rw [publishAttempts, if_neg hone', Async.run_reject]

variable (hsleep : ∀ ms, fails (.sleep ms) = none)
  (hrefused : ∀ w : World C, publish.run (World.settle c fails) w = (.error e, w))
  (hon : ∀ attempt ms, onRetry attempt ms e = .ok ())

include hsleep hrefused hon

/-- The attempts that are left wait and fail as the ones before. -/
theorem run_publishAttempts_refused (fuel attempt : ℕ) : ∃ waits, Waits waits ∧
    ∀ w : World C, (publishAttempts policy publish onRetry fuel attempt e).run
      (World.settle c fails) w = (.error e, w.after c waits) := by
  induction fuel generalizing attempt with
  | zero => exact ⟨[], waits_nil, fun w => rfl⟩
  | succ fuel ih =>
    obtain ⟨waits, hwaits, hrest⟩ := ih (attempt + 1)
    simp only [publishAttempts]
    split_ifs with hleft hlast
    · exact ⟨[], waits_nil, fun w => by rw [run_tryCatch_error (hrefused w)]; rfl⟩
    · refine ⟨_, waits_cons (calculateBackoffMs (.ofNat attempt) policy) hwaits, fun w => ?_⟩
      rw [run_tryCatch_error (hrefused w), hon]
      simp only [Async.ofExcept_ok, Async.bind_eq, Async.resolve_bind]
      rw [run_bind_ok (run_sleep (hsleep _)), hrest, ← World.after_append]
      rfl
    · exact ⟨[], waits_nil, fun w => rfl⟩

/-- What fails at every attempt fails for good. -/
theorem run_publishWithProducerRetry_refused (hmax : policy.maxAttempts.isFinite = true)
    (hone : Number.le 1 policy.maxAttempts = true) : ∃ waits, Waits waits ∧
    ∀ w : World C, (publishWithProducerRetry policy publish onRetry).run
      (World.settle c fails) w = (.error e, w.after c waits) := by
  obtain ⟨q, hq, hfin⟩ := Number.isFinite_iff.mp hmax
  -- the error to start with is never thrown, as there is a first attempt
  have hfirst : ∀ fuel lastError lastError', publishAttempts policy publish onRetry (fuel + 1) 1
      lastError = publishAttempts policy publish onRetry (fuel + 1) 1 lastError' := by
    intro fuel lastError lastError'
    have hone' : Number.le (.ofNat 1) policy.maxAttempts = true := hone
    rw [publishAttempts, publishAttempts, if_pos hone', if_pos hone']
  rw [publishWithProducerRetry, hfin, passesUpTo, hfirst _ _ e]
  exact run_publishAttempts_refused hsleep hrefused hon _ 1

end Attempts

/-- A transport that makes an attempt: the record is sent, or what refuses it is thrown. -/
structure Sends (t : KafkaEventTransport) : Prop where
  publish : ∀ {C : Type} (c : C) (fails : Op → Option JsThrow) (w : World C) eventType envelope
    headers key, resolvePartitionKey envelope = .ok key →
    (envelope.get "eventId").printable = true →
    fails (.emit (domainRecord eventType key envelope headers)) = none →
    (t.publish eventType envelope headers).run (World.settle c fails) w =
      (.ok (), w.after c [.emit (domainRecord eventType key envelope headers)])
  publish_refused : ∀ {C : Type} (c : C) (fails : Op → Option JsThrow) eventType envelope
    headers key e text, resolvePartitionKey envelope = .ok key →
    (envelope.get "eventId").printable = true → (∀ ms, fails (.sleep ms) = none) →
    errorText e = .ok text →
    fails (.emit (domainRecord eventType key envelope headers)) = some e →
    ∃ waits, Waits waits ∧ ∀ w : World C, (t.publish eventType envelope headers).run
      (World.settle c fails) w = (.error e, w.after c waits)
  publishToDlq : ∀ {C : Type} (c : C) (fails : Op → Option JsThrow) (w : World C) eventType
    envelope, fails (.emit (dlqRecord eventType envelope)) = none →
    (t.publishToDlq eventType envelope []).run (World.settle c fails) w =
      (.ok (), w.after c [.emit (dlqRecord eventType envelope)])
  publishToDlq_refused : ∀ {C : Type} (c : C) (fails : Op → Option JsThrow) eventType envelope e,
    (∀ ms, fails (.sleep ms) = none) → fails (.emit (dlqRecord eventType envelope)) = some e →
    ∃ waits, Waits waits ∧ ∀ w : World C, (t.publishToDlq eventType envelope []).run
      (World.settle c fails) w = (.error e, w.after c waits)

section Transports

variable {C : Type} {c : C} {fails : Op → Option JsThrow} {w : World C}

theorem eventPublisher_sends : Sends eventPublisher where
  publish c fails w eventType envelope headers key hkey _ hsent := by
    change (Async.bind (Async.ofExcept (resolvePartitionKey envelope)) _).run _ w = _
    rw [hkey, Async.ofExcept_ok, Async.resolve_bind]
    exact run_emit hsent
  publish_refused c fails eventType envelope headers key e text hkey _ _ _ hrefused := by
    refine ⟨[], waits_nil, fun w => ?_⟩
    change (Async.bind (Async.ofExcept (resolvePartitionKey envelope)) _).run _ w = _
    rw [hkey, Async.ofExcept_ok, Async.resolve_bind]
    exact run_perform_error hrefused
  publishToDlq c fails w eventType envelope hsent := run_emit hsent
  publishToDlq_refused c fails eventType envelope e _ hrefused :=
    ⟨[], waits_nil, fun _ => run_perform_error hrefused⟩

theorem orderEventPublisher_sends {env : String → Option String}
    (hone : Number.le 1 (resolveProducerRetryPolicy env).maxAttempts = true) :
    Sends (orderEventPublisher env) where
  publish c fails w eventType envelope headers key hkey hid hsent := by
    have hlog : JsVal.logLine [envelope.get "eventId"] = .ok () :=
      JsVal.logLine_eq_ok.mpr (by simpa using hid)
    change (Async.bind (Async.ofExcept (resolvePartitionKey envelope)) _).run _ w = _
    rw [hkey, Async.ofExcept_ok, Async.resolve_bind]
    simp only [Async.bind_eq, hlog, Async.ofExcept_ok, Async.resolve_bind]
    refine run_tryCatch_ok ?_
    rw [run_bind_ok (run_publishWithProducerRetry (isFinite_resolveProducer env) hone
      (run_emit hsent)), Async.run_resolve]
    rfl
  publish_refused c fails eventType envelope headers key e text hkey hid hsleep htext hrefused := by
    have hlog : JsVal.logLine [envelope.get "eventId"] = .ok () :=
      JsVal.logLine_eq_ok.mpr (by simpa using hid)
    let attempt : Promise Unit := emitKafkaEvent (resolveKafkaTopic eventType) (.str key) envelope
      (spread (envelopeToKafkaHeaders envelope) headers)
    let onRetry : ℕ → Number → JsThrow → Except JsThrow Unit := fun _ _ error => do
      let _ ← errorText error
      .ok ()
    have hattempt : ∀ w : World _, attempt.run (World.settle c fails) w = (.error e, w) :=
      fun w => run_perform_error hrefused
    have hon : ∀ n ms, onRetry n ms e = .ok () := fun _ _ => by
      simp only [onRetry, htext, bind, Except.bind]
    obtain ⟨waits, hwaits, hrun⟩ := run_publishWithProducerRetry_refused hsleep hattempt hon
      (isFinite_resolveProducer env) hone
    refine ⟨waits, hwaits, fun w => ?_⟩
    change (Async.bind (Async.ofExcept (resolvePartitionKey envelope)) _).run _ w = _
    rw [hkey, Async.ofExcept_ok, Async.resolve_bind]
    simp only [Async.bind_eq, hlog, Async.ofExcept_ok, Async.resolve_bind]
    rw [run_tryCatch_error (run_bind_error (hrun w)), htext]
    rfl
  publishToDlq c fails w eventType envelope hsent :=
    run_publishWithProducerRetry (isFinite_resolveProducer env) hone (run_emit hsent)
  publishToDlq_refused c fails eventType envelope e hsleep hrefused :=
    run_publishWithProducerRetry_refused hsleep (fun _ => run_perform_error hrefused)
      (fun _ _ => rfl) (isFinite_resolveProducer env) hone

/-- Whether a service's publisher gets as far as its first attempt. -/
def producerAllowed (service : ServiceName) (env : String → Option String) : Bool :=
  service ≠ .orderService || Number.le 1 (resolveProducerRetryPolicy env).maxAttempts

theorem transportOf_sends {service : ServiceName} {env : String → Option String}
    (h : producerAllowed service env = true) : Sends (transportOf service env) := by
  cases service with
  | orderService => exact orderEventPublisher_sends (by simpa [producerAllowed] using h)
  | _ => exact eventPublisher_sends

/-- No service publishes an envelope without a key. -/
theorem run_publish_keyless {service : ServiceName} {env : String → Option String}
    {eventType : EventType} {envelope : JsVal} {headers : List (String × JsVal)} {e : JsThrow}
    (he : resolvePartitionKey envelope = .error e) :
    ((transportOf service env).publish eventType envelope headers).run (World.settle c fails) w =
      (.error e, w) := by
  have hreject : ∀ f : String → Promise Unit,
      (Async.bind (Async.ofExcept (resolvePartitionKey envelope)) f).run (World.settle c fails) w =
        (.error e, w) := by
    intro f
    rw [he, Async.ofExcept_error, Async.reject_bind, Async.run_reject]
  cases service <;> exact hreject _

/-- A transport whose calls all reject before anything is sent. -/
structure Blocked (t : KafkaEventTransport) : Prop where
  publish : ∀ {C : Type} (c : C) (fails : Op → Option JsThrow) (w : World C) eventType envelope
    headers key, resolvePartitionKey envelope = .ok key →
    (envelope.get "eventId").printable = true →
    (t.publish eventType envelope headers).run (World.settle c fails) w =
      (.error (.value .undefined), w)
  publishToDlq : ∀ {C : Type} (c : C) (fails : Op → Option JsThrow) (w : World C) eventType
    envelope, (t.publishToDlq eventType envelope []).run (World.settle c fails) w =
      (.error (.value .undefined), w)

theorem transportOf_blocked {service : ServiceName} {env : String → Option String}
    (h : producerAllowed service env = false) : Blocked (transportOf service env) := by
  cases service with
  | orderService =>
    have hnone : Number.le 1 (resolveProducerRetryPolicy env).maxAttempts = false := by
      simpa [producerAllowed] using h
    refine ⟨fun c fails w eventType envelope headers key hkey hid => ?_,
      fun c fails w eventType envelope => run_publishWithProducerRetry_none hnone⟩
    have hlog : JsVal.logLine [envelope.get "eventId"] = .ok () :=
      JsVal.logLine_eq_ok.mpr (by simpa using hid)
    change (Async.bind (Async.ofExcept (resolvePartitionKey envelope)) _).run _ w = _
    rw [hkey, Async.ofExcept_ok, Async.resolve_bind]
    simp only [Async.bind_eq, hlog, Async.ofExcept_ok, Async.resolve_bind]
    rw [run_tryCatch_error (run_bind_error (run_publishWithProducerRetry_none hnone))]
    rfl
  | _ => simp [producerAllowed] at h

end Transports

namespace KafkaRetryExecutor

variable {C : Type} {c : C} {fails : Op → Option JsThrow} {w : World C}
  (ex : KafkaRetryExecutor) (proc : Process) (params : ExecuteWithRetryParams)

/-- The wait before the handler, if a retry time is set and ahead. -/
def waitOps (headers : List (String × String)) : List Op :=
  match getRetryAt headers with
  | none => []
  | some retryAt =>
    if (JsVal.num retryAt).truthy && Number.lt (.ofNat (proc.now 0)) retryAt then
      [.sleep (retryAt.sub (.ofNat (proc.now 1)))]
    else []

theorem waits_waitOps (headers : List (String × String)) : Waits (waitOps proc headers) := by
  intro op h
  unfold waitOps at h
  split at h
  · cases h
  · split_ifs at h
    · exact ⟨_, List.mem_singleton.mp h⟩
    · cases h

theorem run_awaitRetryAt (hsleep : ∀ ms, fails (.sleep ms) = none) (headers : List (String × String)) :
    (awaitRetryAt proc headers).run (World.settle c fails) w =
      (.ok (), w.after c (waitOps proc headers)) := by
  unfold awaitRetryAt waitOps
  cases getRetryAt headers with
  | none => rfl
  | some retryAt =>
    simp only
    split_ifs
    · exact run_sleep (hsleep _)
    · rfl

/-- The handler runs once, after the wait; its end decides what follows. -/
theorem run_execute (hsleep : ∀ ms, fails (.sleep ms) = none) :
    (ex.execute proc params).run (World.settle c fails) w =
      match params.handler.run (World.settle c fails) (w.after c (waitOps proc params.headers)) with
      | (.ok (), w') => (.ok .success, w')
      | (.error e, w') => (ex.onFailure proc params e).run (World.settle c fails) w' := by
  rw [execute, Async.bind_eq, run_bind_ok (run_awaitRetryAt proc hsleep params.headers)]
  simp only [Async.bind_eq]
  rw [Async.run_tryCatch, Async.run_bind]
  cases params.handler.run (World.settle c fails) (w.after c (waitOps proc params.headers)) with
  | mk x w' => cases x <;> rfl

theorem run_execute_ok (hsleep : ∀ ms, fails (.sleep ms) = none) {w' : World C}
    (h : params.handler.run (World.settle c fails) (w.after c (waitOps proc params.headers)) =
      (.ok (), w')) :
    (ex.execute proc params).run (World.settle c fails) w = (.ok .success, w') := by
  rw [run_execute ex proc params hsleep, h]

theorem run_execute_error (hsleep : ∀ ms, fails (.sleep ms) = none) {w' : World C} {e : JsThrow}
    (h : params.handler.run (World.settle c fails) (w.after c (waitOps proc params.headers)) =
      (.error e, w')) :
    (ex.execute proc params).run (World.settle c fails) w =
      (ex.onFailure proc params e).run (World.settle c fails) w' := by
  rw [run_execute ex proc params hsleep, h]

/-- The failed round this message is in. -/
def nextAttempt : Number := (getRetryCount params.headers).succ

/-- What a republished envelope carries besides itself. -/
def retryHeaders (eventType : EventType) (envelope : JsVal) (nextAttempt : Number) :
    List (String × JsVal) :=
  buildRetryHeaders {
    retryCount := nextAttempt
    maxAttempts := ex.policy.maxAttempts
    retryAt := (Number.ofNat (proc.now 2)).add (calculateBackoffMs nextAttempt ex.policy)
    originalTopic := resolveKafkaTopic eventType
    envelopeHeaders := envelopeToKafkaHeaders envelope }

/-- What is wrapped into a failure record. -/
def failureParams (eventType : EventType) (envelope : JsVal) (attempt : Number) (error : JsThrow) :
    CreateFailureEnvelopeParams where
  original := envelope
  originalTopic := resolveKafkaTopic eventType
  service := ex.service
  error := error
  attempt := attempt
  policy := ex.policy

variable {ex proc params} {e : JsThrow}

/-- The identifiers in the executor's log lines can be printed. -/
def Loggable (envelope : JsVal) : Prop :=
  (envelope.get "eventId").printable = true ∧ (envelope.get "eventType").printable = true

theorem logLine_of_loggable {envelope : JsVal} (h : Loggable envelope) :
    JsVal.logLine [envelope.get "eventId", envelope.get "eventType"] = .ok () :=
  JsVal.logLine_eq_ok.mpr (by simpa [Loggable] using h)

/-- A failed handler with attempts left ends as the republishing does. -/
theorem run_onFailure_scheduled {text : String} (htext : errorText e = .ok text)
    (hlog : Loggable params.envelope)
    (hretry : shouldRetry (nextAttempt params) ex.policy = true)
    (hdlq : shouldSendToDlq (nextAttempt params) ex.policy = false) {x : Except JsThrow Unit}
    {w' : World C} (h : (ex.scheduleRetry proc params.eventType params.envelope
      (nextAttempt params)).run (World.settle c fails) w = (x, w')) :
    (ex.onFailure proc params e).run (World.settle c fails) w =
      (x.map fun _ => .retry, w') := by
  rw [nextAttempt] at hretry hdlq h
  simp only [onFailure, Async.bind_eq, htext, Async.ofExcept_ok, Async.resolve_bind, hdlq, hretry,
    Bool.false_eq_true, if_false, if_true, logLine_of_loggable hlog]
  rw [Async.run_bind, h]
  cases x <;> rfl

/-- One with none left ends as the sending of its failure record does. -/
theorem run_onFailure_exhausted {text : String} (htext : errorText e = .ok text)
    (hlog : Loggable params.envelope)
    (hdlq : shouldSendToDlq (nextAttempt params) ex.policy = true) {x : Except JsThrow Unit}
    {w' : World C} (h : (ex.sendToDlq proc params.eventType params.envelope e
      (nextAttempt params)).run (World.settle c fails) w = (x, w')) :
    (ex.onFailure proc params e).run (World.settle c fails) w =
      (x.map fun _ => .dlq, w') := by
  rw [nextAttempt] at hdlq h
  simp only [onFailure, Async.bind_eq, htext, Async.ofExcept_ok, Async.resolve_bind, hdlq,
    if_true, logLine_of_loggable hlog]
  rw [Async.run_bind, h]
  cases x <;> rfl

/-- Without its log line a failed handler leaves nothing behind. -/
theorem run_onFailure_unloggable {text : String} {e' : JsThrow} (htext : errorText e = .ok text)
    (hlog : JsVal.logLine [params.envelope.get "eventId", params.envelope.get "eventType"] =
      .error e')
    (hor : shouldRetry (nextAttempt params) ex.policy = false →
      shouldSendToDlq (nextAttempt params) ex.policy = true) :
    (ex.onFailure proc params e).run (World.settle c fails) w = (.error e', w) := by
  rw [nextAttempt] at hor
  simp only [onFailure, Async.bind_eq, htext, Async.ofExcept_ok, Async.resolve_bind, hlog,
    Async.ofExcept_error, Async.reject_bind]
  split_ifs with hdlq hretry
  · rfl
  · rfl
  · rw [Bool.not_eq_true] at hretry
    exact absurd (hor hretry) hdlq

/-- A value that can be printed can be wrapped into a failure envelope. -/
theorem createFailureEnvelope_ok (proc : Process) (p : CreateFailureEnvelopeParams) {text : String}
    (htext : errorText p.error = .ok text) : ∃ details,
      createFailureEnvelope proc p = .ok (failureEnvelope proc details p) ∧
      details.get "message" = .str text := by
  cases herr : p.error with
  | error name message =>
    rw [herr] at htext
    obtain rfl := Except.ok.inj htext
    exact ⟨_, by rw [createFailureEnvelope, herr]; rfl, rfl⟩
  | validation message details =>
    rw [herr] at htext
    obtain rfl := Except.ok.inj htext
    exact ⟨_, by rw [createFailureEnvelope, herr]; rfl, rfl⟩
  | value v =>
    rw [herr] at htext
    have hv : v.toText = .ok text := htext
    exact ⟨_, by rw [createFailureEnvelope, herr, normalizeError, hv]; rfl, rfl⟩

end KafkaRetryExecutor

section Performs

variable {S : Op → Prop} {eventType : EventType} {envelope : JsVal}
  {headers : List (String × JsVal)}

/-- What a function publishes is added to the log. -/
theorem log_of_performs {C α : Type} {c : C} {fails : Op → Option JsThrow} {w : World C}
    {p : Promise α} {P : KafkaRecord → Prop} (hp : p.Performs fun op => ∀ r, op = .emit r → P r) :
    ∃ rest, (p.run (World.settle c fails) w).2.log = w.log ++ rest ∧ ∀ r ∈ rest, P r := by
  refine hp.adds (fun w op hop => ?_) w
  rw [World.settle]
  cases fails op with
  | some e => exact ⟨[], (List.append_nil _).symm, by simp⟩
  | none =>
    cases hemit : World.emitted op with
    | none =>
      have hkeep : (w.exec c op).2.log = w.log := World.exec_log c w fun r hr => by
        rw [hr] at hemit
        cases hemit
      exact ⟨[], by rw [hkeep, List.append_nil], by simp⟩
    | some r =>
      obtain rfl := World.emitted_eq_some.mp hemit
      refine ⟨[r], rfl, ?_⟩
      intro r' hr'
      rw [List.mem_singleton.mp hr']
      exact hop r rfl

/-- What goes through is what the function performs. -/
theorem trace_of_performs {C α : Type} {c : C} {fails : Op → Option JsThrow} {w : World C}
    {p : Promise α} {S : Op → Prop} (hp : p.Performs S) :
    ∃ calls, (p.run (World.settle c fails) w).2.trace = w.trace ++ calls ∧
      ∀ call ∈ calls, S call.2 := by
  refine hp.adds (fun w op hop => ?_) w
  rw [World.settle]
  cases fails op with
  | some e => exact ⟨[], (List.append_nil _).symm, by simp⟩
  | none =>
    refine ⟨[(c, op)], rfl, ?_⟩
    intro call hcall
    rw [List.mem_singleton.mp hcall]
    exact hop

theorem performs_sleep (ms : Number) : (sleep ms).Performs S ↔ S (.sleep ms) :=
  Async.performs_perform _

/-- The attempts are those of the call; without any nothing is performed. -/
theorem performs_publishWithProducerRetry {policy : RetryPolicyConfig} {publish : Promise Unit}
    {onRetry : ℕ → Number → JsThrow → Except JsThrow Unit}
    (hp : Number.le 1 policy.maxAttempts = true → publish.Performs S)
    (hsleep : ∀ ms, S (.sleep ms)) : (publishWithProducerRetry policy publish onRetry).Performs S := by
  have hloop : ∀ fuel attempt lastError, publish.Performs S →
      (publishAttempts policy publish onRetry fuel attempt lastError).Performs S := by
    intro fuel
    induction fuel with
    | zero => exact fun _ _ _ => trivial
    | succ fuel ih =>
      intro attempt lastError hp
      rw [publishAttempts]
      split_ifs
      · exact hp.tryCatch fun _ => trivial
      · refine hp.tryCatch fun error => Async.Performs.bind Async.performs_ofExcept fun _ => ?_
        exact Async.Performs.bind ((performs_sleep _).mpr (hsleep _)) fun _ => ih _ _ hp
      · trivial
  by_cases hone : Number.le 1 policy.maxAttempts = true
  · exact hloop _ _ _ (hp hone)
  · rw [publishWithProducerRetry]
    cases passesUpTo policy.maxAttempts with
    | zero => trivial
    | succ fuel =>
      have hstop : ¬ Number.le (.ofNat 1) policy.maxAttempts = true := hone
      rw [publishAttempts, if_neg hstop]
      trivial

theorem performs_orderPublish {env : String → Option String} (hsleep : ∀ ms, S (.sleep ms))
    (hemit : ∀ key, resolvePartitionKey envelope = .ok key →
      Number.le 1 (resolveProducerRetryPolicy env).maxAttempts = true →
      S (.emit (domainRecord eventType key envelope headers))) :
    ((orderEventPublisher env).publish eventType envelope headers).Performs S := by
  refine Async.performs_ofExcept_bind fun key hkey => ?_
  have hattempt : Number.le 1 (resolveProducerRetryPolicy env).maxAttempts = true →
      (emitKafkaEvent (resolveKafkaTopic eventType) (.str key) envelope
        (spread (envelopeToKafkaHeaders envelope) headers)).Performs S :=
    fun hone => (Async.performs_perform _).mpr (hemit key hkey hone)
  refine Async.Performs.bind Async.performs_ofExcept fun _ => ?_
  refine Async.Performs.tryCatch ?_ fun error => ?_
  · exact (performs_publishWithProducerRetry hattempt hsleep).bind fun _ => Async.performs_ofExcept
  · refine Async.Performs.bind Async.performs_ofExcept fun _ => ?_
    exact Async.Performs.bind Async.performs_ofExcept fun _ => trivial

theorem performs_eventPublish
    (hemit : ∀ key, resolvePartitionKey envelope = .ok key →
      S (.emit (domainRecord eventType key envelope headers))) :
    (eventPublisher.publish eventType envelope headers).Performs S :=
  Async.performs_ofExcept_bind fun key hkey => (Async.performs_perform _).mpr (hemit key hkey)

/-- A publish call sends the one record its envelope and key make. -/
theorem performs_publish {service : ServiceName} {env : String → Option String}
    (hsleep : ∀ ms, S (.sleep ms))
    (hemit : ∀ key, resolvePartitionKey envelope = .ok key →
      S (.emit (domainRecord eventType key envelope headers))) :
    ((transportOf service env).publish eventType envelope headers).Performs S := by
  cases service with
  | orderService => exact performs_orderPublish hsleep fun key hkey _ => hemit key hkey
  | _ => exact performs_eventPublish hemit

theorem performs_publishToDlq {service : ServiceName} {env : String → Option String}
    (hsleep : ∀ ms, S (.sleep ms)) (hemit : S (.emit (dlqRecord eventType envelope))) :
    ((transportOf service env).publishToDlq eventType envelope []).Performs S := by
  have hattempt : (emitKafkaEvent (toDlqTopic (resolveKafkaTopic eventType))
      ((envelope.get "payload").get "correlationId") envelope
      (spread (envelopeToKafkaHeaders envelope) [])).Performs S :=
    (Async.performs_perform _).mpr hemit
  cases service with
  | orderService => exact performs_publishWithProducerRetry (fun _ => hattempt) hsleep
  | _ => exact hattempt

namespace KafkaRetryExecutor

variable {ex : KafkaRetryExecutor} {proc : Process} {params : ExecuteWithRetryParams}
  {service : ServiceName} {env : String → Option String}

theorem performs_awaitRetryAt {headers : List (String × String)} (hsleep : ∀ ms, S (.sleep ms)) :
    (awaitRetryAt proc headers).Performs S := by
  unfold awaitRetryAt
  cases getRetryAt headers with
  | none => trivial
  | some retryAt =>
    dsimp only
    split_ifs
    · exact (performs_sleep _).mpr (hsleep _)
    · trivial

theorem performs_sendToDlq (ht : ex.transport = transportOf service env)
    (hsleep : ∀ ms, S (.sleep ms))
    (hdlq : ∀ failed failure, failed.original = envelope →
      createFailureEnvelope proc failed = .ok failure → S (.emit (dlqRecord eventType failure)))
    (error : JsThrow) (attempt : Number) :
    (ex.sendToDlq proc eventType envelope error attempt).Performs S := by
  refine Async.performs_ofExcept_bind fun failure hfailure => ?_
  rw [ht]
  exact performs_publishToDlq hsleep (hdlq _ failure rfl hfailure)

/-- The catch block sends one copy of the envelope or a failure record. -/
theorem performs_onFailure (ht : ex.transport = transportOf service env)
    (hsleep : ∀ ms, S (.sleep ms))
    (hcopy : ∀ key n, resolvePartitionKey params.envelope = .ok key →
      S (.emit (domainRecord params.eventType key params.envelope
        (ex.retryHeaders proc params.eventType params.envelope n))))
    (hdlq : ∀ failed failure, failed.original = params.envelope →
      createFailureEnvelope proc failed = .ok failure →
      S (.emit (dlqRecord params.eventType failure)))
    (e : JsThrow) : (ex.onFailure proc params e).Performs S := by
  have hsend : ∀ error attempt,
      (ex.sendToDlq proc params.eventType params.envelope error attempt).Performs S :=
    performs_sendToDlq ht hsleep hdlq
  have hretry : ∀ attempt,
      (ex.scheduleRetry proc params.eventType params.envelope attempt).Performs S := by
    intro attempt
    refine Async.Performs.bind ((performs_sleep _).mpr (hsleep _)) fun _ => ?_
    rw [ht]
    exact performs_publish hsleep fun key hkey => hcopy key _ hkey
  refine Async.performs_ofExcept_bind fun _ _ => ?_
  split_ifs
  · exact Async.performs_ofExcept_bind fun _ _ => (hsend _ _).bind fun _ => trivial
  · exact Async.performs_ofExcept_bind fun _ _ => (hretry _).bind fun _ => trivial
  · exact (hsend _ _).bind fun _ => trivial

/-- The executor adds waits, one copy of the envelope, and failure records. -/
theorem performs_execute (ht : ex.transport = transportOf service env)
    (hsleep : ∀ ms, S (.sleep ms))
    (hcopy : ∀ key n, resolvePartitionKey params.envelope = .ok key →
      S (.emit (domainRecord params.eventType key params.envelope
        (ex.retryHeaders proc params.eventType params.envelope n))))
    (hdlq : ∀ failed failure, failed.original = params.envelope →
      createFailureEnvelope proc failed = .ok failure →
      S (.emit (dlqRecord params.eventType failure)))
    (hhandler : params.handler.Performs S) : (ex.execute proc params).Performs S := by
  refine (performs_awaitRetryAt hsleep).bind fun _ => ?_
  refine Async.Performs.tryCatch (hhandler.bind fun _ => trivial) fun e => ?_
  exact performs_onFailure ht hsleep hcopy hdlq e

end KafkaRetryExecutor

end Performs

end EventFlow.Shared
