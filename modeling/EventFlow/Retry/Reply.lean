import EventFlow.Js.Decimal
import EventFlow.Retry.Execute
import EventFlow.Services.Consumer

namespace EventFlow.Retry

open Js Shared Services KafkaRetryExecutor

section Headers

variable {drivers : Drivers} {envelope : JsVal} {key : String}

/-- The headers of a failure record that come from the failed envelope. -/
def failureHeaders (envelope : JsVal) : List (String × JsVal) :=
  [(headerEventType, envelope.get "eventType"),
    (headerCorrelationId, envelope.get "correlationId")] ++
  if (envelope.get "eventId").truthy then [(headerCausationId, envelope.get "eventId")] else []

theorem encodes_failure_iff : drivers.Encodes (failureHeaders envelope) ↔
    (drivers.header (envelope.get "eventType")).isOk = true ∧
      (drivers.header (envelope.get "correlationId")).isOk = true ∧
        ((envelope.get "eventId").truthy = true →
          (drivers.header (envelope.get "eventId")).isOk = true) := by
  unfold Drivers.Encodes failureHeaders
  split_ifs with htruthy <;> simp [htruthy]

/-- What can be republished can be wrapped into a failure record. -/
theorem encodes_failure (h : drivers.Encodes (envelopeToKafkaHeaders envelope)) :
    drivers.Encodes (failureHeaders envelope) := by
  obtain ⟨hfields, -⟩ := encodes_envelope_iff.mp h
  exact encodes_failure_iff.mpr ⟨hfields _ (by simp [sentFields]), hfields _ (by simp [sentFields]),
    fun _ => hfields _ (by simp [sentFields])⟩

/-- The headers of a failure record are refused as those of the failed envelope. -/
theorem refused_failure (proc : Process) (details : JsVal) (params : CreateFailureEnvelopeParams) :
    drivers.refusedHeader (encodeHeaders
      (spread (envelopeToKafkaHeaders (failureEnvelope proc details params)) [])) =
        drivers.refusedHeader (encodeHeaders (failureHeaders params.original)) := by
  have hcause : (failureEnvelope proc details params).get "causationId" =
      params.original.get "eventId" := rfl
  change drivers.refusedHeader (encodeHeaders (envelopeToKafkaHeaders _)) = _
  unfold envelopeToKafkaHeaders failureHeaders
  rw [hcause]
  split_ifs <;> rfl

/-- The headers of a copy are refused as those of its envelope. -/
theorem refused_copy {params : BuildRetryHeadersParams}
    (h : params.envelopeHeaders = envelopeToKafkaHeaders envelope) :
    drivers.refusedHeader (encodeHeaders
      (spread (envelopeToKafkaHeaders envelope) (buildRetryHeaders params))) =
        drivers.refusedHeader (encodeHeaders (envelopeToKafkaHeaders envelope)) := by
  rw [spread_buildRetryHeaders envelope h, encodeHeaders, List.map_append, refusedHeader_append]
  exact Option.or_none

end Headers

section Wire

variable {drivers : Drivers} {envelope : JsVal} {key : String}

/-- An envelope as JSON gives it: each field has one value, and the id has one. -/
structure Parsed (envelope : JsVal) : Prop where
  keys : envelope.keys.Nodup
  eventId : envelope.get "eventId" ≠ .undefined

theorem Parsed.ne_undefined (h : Parsed envelope) : envelope ≠ .undefined := by
  intro hu
  rw [hu] at h
  exact h.eventId rfl

theorem Parsed.wire (h : Parsed envelope) : Parsed envelope.wire where
  keys := JsVal.nodup_keys_wire h.keys
  eventId := by
    rw [JsVal.get_wire h.eventId]
    exact JsVal.wire_ne_undefined _

theorem Parsed.loggable_wire (h : Parsed envelope) (hlog : Loggable envelope) :
    Loggable envelope.wire :=
  ⟨JsVal.printable_get_wire h.keys hlog.1, JsVal.printable_get_wire h.keys hlog.2⟩

theorem Parsed.isOk_header_wire (h : Parsed envelope) {field : String}
    (hok : (drivers.header (envelope.get field)).isOk = true) :
    (drivers.header (envelope.wire.get field)).isOk = true := by
  by_cases hundefined : envelope.get field = .undefined
  · rwa [JsVal.get_wire_undefined h.keys hundefined, ← hundefined]
  · rw [JsVal.get_wire hundefined]
    exact drivers.header_wire _ hok

/-- Headers that can be encoded can be encoded after the trip. -/
theorem Parsed.encodes_wire (h : Parsed envelope)
    (hok : drivers.Encodes (envelopeToKafkaHeaders envelope)) :
    drivers.Encodes (envelopeToKafkaHeaders envelope.wire) := by
  obtain ⟨hfields, hcause⟩ := encodes_envelope_iff.mp hok
  refine encodes_envelope_iff.mpr ⟨fun field hfield => h.isOk_header_wire (hfields field hfield),
    fun htruthy => h.isOk_header_wire (hcause ?_)⟩
  by_cases hundefined : envelope.get "causationId" = .undefined
  · rw [JsVal.get_wire_undefined h.keys hundefined] at htruthy
    cases htruthy
  · rw [JsVal.get_wire hundefined] at htruthy
    exact JsVal.truthy_of_wire htruthy

/-- The key travels with the envelope. -/
theorem resolvePartitionKey_wire (hkey : resolvePartitionKey envelope = .ok key) :
    resolvePartitionKey envelope.wire = .ok key := by
  obtain ⟨horder, hne⟩ := getPartitionKey_eq_ok.mp hkey
  exact getPartitionKey_eq_ok.mpr ⟨JsVal.get_get_wire_str horder, hne⟩

/-- An envelope with an id is sent bare. -/
theorem extract_wire (hid : envelope.get "eventId" ≠ .undefined) :
    extractEnvelope (.value envelope.wire) = .ok envelope.wire := by
  have hsent : envelope.wire.get "eventId" ≠ .undefined := by
    rw [JsVal.get_wire hid]
    exact JsVal.wire_ne_undefined _
  cases hw : envelope.wire with
  | obj fields =>
    rw [hw] at hsent
    refine extractEnvelope_obj ?_
    cases hl : fields.lookup "eventId" with
    | none => simp [JsVal.get, hl] at hsent
    | some v => simp [JsVal.has, hl]
  | _ =>
    rw [hw] at hsent
    exact absurd rfl hsent

/-- What a method has read it reads again when it comes back. -/
theorem Parsed.read_wire {h : RetriedHandler} {raw : KafkaValue} (hp : Parsed envelope)
    (hread : h.read raw = .ok (.accepted envelope)) :
    h.read (.value envelope.wire) = .ok (.accepted envelope.wire) := by
  have hbare : (extractEnvelope (.value envelope.wire)).map ParseResult.accepted =
      .ok (.accepted envelope.wire) := by
    rw [extract_wire hp.eventId]
    rfl
  cases h with
  | paymentOrderEvents => exact parseMessage_wire stable_validateOrderCreated hp.keys hread
  | stockPaymentEvents => exact parseMessage_wire (stable_validateFields _ _) hp.keys hread
  | orderPaymentEvents => exact parseMessage_wire (stable_validateFields _ _) hp.keys hread
  | notificationPaymentEvents => exact parseMessage_wire (stable_validateFields _ _) hp.keys hread
  | _ => exact hbare

/-- The envelope of a message that has been republished so many times. -/
def trips (envelope : JsVal) : ℕ → JsVal
  | 0 => envelope
  | _ + 1 => envelope.wire

theorem trips_wire (envelope : JsVal) (n : ℕ) : (trips envelope n).wire = trips envelope (n + 1) := by
  cases n with
  | zero => rfl
  | succ n => exact JsVal.wire_of_isJson _ (JsVal.isJson_wire envelope)

theorem wire_trips (envelope : JsVal) (n : ℕ) : (trips envelope n).wire = envelope.wire := by
  rw [trips_wire]
  rfl

variable {n : ℕ}

theorem Parsed.trips (h : Parsed envelope) (n : ℕ) : Parsed (trips envelope n) := by
  cases n with
  | zero => exact h
  | succ n => exact h.wire

theorem Parsed.loggable_trips (h : Parsed envelope) (hlog : Loggable envelope) (n : ℕ) :
    Loggable (Retry.trips envelope n) := by
  cases n with
  | zero => exact hlog
  | succ n => exact h.loggable_wire hlog

theorem Parsed.encodes_trips (h : Parsed envelope)
    (hok : drivers.Encodes (envelopeToKafkaHeaders envelope)) (n : ℕ) :
    drivers.Encodes (envelopeToKafkaHeaders (Retry.trips envelope n)) := by
  cases n with
  | zero => exact hok
  | succ n => exact h.encodes_wire hok

theorem resolvePartitionKey_trips (hkey : resolvePartitionKey envelope = .ok key) (n : ℕ) :
    resolvePartitionKey (trips envelope n) = .ok key := by
  cases n with
  | zero => exact hkey
  | succ n => exact resolvePartitionKey_wire hkey

end Wire

/-- A consumer group: a method that retries its handler, with the environment, the policy and
the libraries that its service runs with. -/
structure Group where
  handler : RetriedHandler
  env : String → Option String
  policy : RetryPolicyConfig
  drivers : Drivers

namespace Group

variable (g : Group)

abbrev eventType : EventType := g.handler.eventType

def executor : KafkaRetryExecutor where
  transport := transportOf g.handler.service g.env
  service := g.handler.service
  policy := g.policy

/-- The group of a method under the policy its service reads from the environment. -/
def runner (h : RetriedHandler) (env : String → Option String) (drivers : Drivers) : Group where
  handler := h
  env := env
  policy := resolveConsumerRetryPolicy env
  drivers := drivers

/-- Whether the service's publisher gets headers on their way: it has to make an attempt, and
the client has to encode them. -/
def sends (headers : List (String × JsVal)) : Except JsThrow Unit :=
  if producerAllowed g.handler.service g.env then
    match g.drivers.refusedHeader (encodeHeaders headers) with
    | some e => .error e
    | none => .ok ()
  else .error (.value .undefined)

/-- How the executor ends on an envelope whose handler has failed. -/
def answer (envelope : JsVal) (attempt : Number) : Except JsThrow RetryOutcome := do
  JsVal.logLine [envelope.get "eventId", envelope.get "eventType"]
  if shouldRetry attempt g.policy then do
    let _ ← resolvePartitionKey envelope
    g.sends (envelopeToKafkaHeaders envelope)
    .ok .retry
  else do
    g.sends (failureHeaders envelope)
    .ok .dlq

/-- What the answer needs of an envelope: a log line that can be printed, a publisher that makes
an attempt, and headers that can be encoded, those of a copy or those of a failure record. -/
structure Answerable (envelope : JsVal) (attempt : Number) : Prop where
  loggable : Loggable envelope
  allowed : producerAllowed g.handler.service g.env = true
  encodes : g.drivers.Encodes (if shouldRetry attempt g.policy then envelopeToKafkaHeaders envelope
    else failureHeaders envelope)

/-- The record that a failed round puts back on the topic. -/
def retryRecord (proc : Process) (key : String) (envelope : JsVal) (n : Number) : KafkaRecord :=
  domainRecord g.eventType key envelope (g.executor.retryHeaders proc g.eventType envelope n)

end Group

section Answer

variable {g : Group} {envelope : JsVal} {attempt : Number} {key : String}
  {headers : List (String × JsVal)}

theorem sends_eq_ok : g.sends headers = .ok () ↔
    producerAllowed g.handler.service g.env = true ∧ g.drivers.Encodes headers := by
  rw [Group.sends, ← refusedHeader_eq_none_iff]
  cases producerAllowed g.handler.service g.env <;>
    cases g.drivers.refusedHeader (encodeHeaders headers) <;> simp

theorem loggable_iff : Loggable envelope ↔
    JsVal.logLine [envelope.get "eventId", envelope.get "eventType"] = .ok () := by
  rw [JsVal.logLine_eq_ok]
  simp [Loggable]

theorem answerable_iff : g.Answerable envelope attempt ↔ Loggable envelope ∧
    g.sends (if shouldRetry attempt g.policy then envelopeToKafkaHeaders envelope
      else failureHeaders envelope) = .ok () := by
  rw [sends_eq_ok]
  exact ⟨fun h => ⟨h.loggable, h.allowed, h.encodes⟩, fun h => ⟨h.1, h.2.1, h.2.2⟩⟩

theorem answer_retry_iff : g.answer envelope attempt = .ok .retry ↔
    shouldRetry attempt g.policy = true ∧ (∃ key, resolvePartitionKey envelope = .ok key) ∧
      g.Answerable envelope attempt := by
  rw [answerable_iff, Group.answer, loggable_iff]
  cases JsVal.logLine [envelope.get "eventId", envelope.get "eventType"] with
  | error e => simp [bind, Except.bind]
  | ok u =>
    cases shouldRetry attempt g.policy with
    | false => cases hs : g.sends (failureHeaders envelope) <;> simp [bind, Except.bind, hs]
    | true =>
      cases hkey : resolvePartitionKey envelope <;>
        cases hs : g.sends (envelopeToKafkaHeaders envelope) <;>
          simp [bind, Except.bind, hs]

theorem answer_dlq_iff : g.answer envelope attempt = .ok .dlq ↔
    shouldRetry attempt g.policy = false ∧ g.Answerable envelope attempt := by
  rw [answerable_iff, Group.answer, loggable_iff]
  cases JsVal.logLine [envelope.get "eventId", envelope.get "eventType"] with
  | error e => simp [bind, Except.bind]
  | ok u =>
    cases shouldRetry attempt g.policy with
    | false => cases hs : g.sends (failureHeaders envelope) <;> simp [bind, Except.bind, hs]
    | true =>
      cases hkey : resolvePartitionKey envelope <;>
        cases hs : g.sends (envelopeToKafkaHeaders envelope) <;>
          simp [bind, Except.bind, hs]

theorem answer_ne_success : g.answer envelope attempt ≠ .ok .success := by
  rw [Group.answer]
  cases JsVal.logLine [envelope.get "eventId", envelope.get "eventType"] with
  | error e => simp [bind, Except.bind]
  | ok u =>
    cases shouldRetry attempt g.policy with
    | false => cases g.sends (failureHeaders envelope) <;> simp [bind, Except.bind]
    | true =>
      cases resolvePartitionKey envelope <;> cases g.sends (envelopeToKafkaHeaders envelope) <;>
        simp [bind, Except.bind]

/-- The catch block gets to its end exactly on what is answerable, with a key for a copy. -/
theorem answer_isOk_iff : (∃ o, g.answer envelope attempt = .ok o) ↔
    g.Answerable envelope attempt ∧ (shouldRetry attempt g.policy = true →
      ∃ key, resolvePartitionKey envelope = .ok key) := by
  constructor
  · intro h
    obtain ⟨o, ho⟩ := h
    cases o with
    | success => exact absurd ho answer_ne_success
    | retry =>
      obtain ⟨-, hkey, hable⟩ := answer_retry_iff.mp ho
      exact ⟨hable, fun _ => hkey⟩
    | dlq =>
      obtain ⟨hretry, hable⟩ := answer_dlq_iff.mp ho
      rw [hretry]
      exact ⟨hable, fun h => by cases h⟩
  · intro h
    obtain ⟨hable, hkey⟩ := h
    cases hretry : shouldRetry attempt g.policy with
    | true => exact ⟨_, answer_retry_iff.mpr ⟨hretry, hkey hretry, hable⟩⟩
    | false => exact ⟨_, answer_dlq_iff.mpr ⟨hretry, hable⟩⟩

end Answer

/-- The failure record of a group's last attempt. -/
structure FailureRecord (g : Group) (envelope : JsVal) (attempt : Number) (r : KafkaRecord) :
    Prop where
  failure : ∃ proc : Process, ∃ e : JsThrow, ∃ text details, errorText e = .ok text ∧
    details.get "message" = .str text ∧ r = dlqRecord g.eventType
      (failureEnvelope proc details (g.executor.failureParams g.eventType envelope attempt e))

section FailureEnvelope

variable {proc : Process} {details v : JsVal} {params : CreateFailureEnvelopeParams}
  {field : String}

/-- What a failure record says about the attempts. -/
def retryState (params : CreateFailureEnvelopeParams) : JsVal :=
  .obj [("attempt", .num params.attempt), ("maxAttempts", .num params.policy.maxAttempts),
    ("exhausted", .bool (Number.le params.policy.maxAttempts params.attempt)),
    ("nextRetryAt", JsVal.stringOrUndefined params.nextRetryAt)]

theorem payload_failureEnvelope : (failureEnvelope proc details params).wire.get "payload" =
    (failurePayload details (proc.iso 11) params).wire :=
  JsVal.get_wire_of_eq rfl JsVal.noConfusion

/-- A field of the failure, as the far side reads it. -/
theorem get_failure (h : (failurePayload details (proc.iso 11) params).get field = v)
    (hne : v ≠ .undefined) :
    ((failureEnvelope proc details params).wire.get "payload").get field = v.wire := by
  rw [payload_failureEnvelope]
  exact JsVal.get_wire_of_eq h hne

theorem get_failure_str {s : String}
    (h : (failurePayload details (proc.iso 11) params).get field = .str s) :
    ((failureEnvelope proc details params).wire.get "payload").get field = .str s :=
  get_failure h JsVal.noConfusion

theorem get_failure_retry :
    ((failureEnvelope proc details params).wire.get "payload").get "retry" =
      (retryState params).wire := get_failure rfl JsVal.noConfusion

theorem get_retryState_num {n : Number} (h : (retryState params).get field = .num n) :
    (retryState params).wire.get field = (JsVal.num n).wire :=
  JsVal.get_wire_of_eq h JsVal.noConfusion

theorem get_retryState_bool {b : Bool} (h : (retryState params).get field = .bool b) :
    (retryState params).wire.get field = .bool b :=
  JsVal.get_wire_of_eq h JsVal.noConfusion

/-- The retry state that the far side reads in a failure record. -/
theorem FailureRecord.retryState {g : Group} {envelope : JsVal} {attempt : Number} {r : KafkaRecord}
    (h : FailureRecord g envelope attempt r) : ∃ failure, r.value = .value failure ∧
      ((failure.get "payload").get "retry").get "attempt" = (JsVal.num attempt).wire ∧
      ((failure.get "payload").get "retry").get "exhausted" =
        .bool (Number.le g.policy.maxAttempts attempt) := by
  obtain ⟨proc, e, text, details, -, -, rfl⟩ := h.failure
  refine ⟨_, rfl, ?_, ?_⟩
  · rw [get_failure_retry]
    exact get_retryState_num rfl
  · rw [get_failure_retry]
    exact get_retryState_bool rfl

end FailureEnvelope

/-- What the executor does after the handler, as its end says. -/
inductive Follows (g : Group) (proc : Process) (envelope : JsVal) (attempt : Number) :
    Except JsThrow RetryOutcome → List Op → Prop
  | success : Follows g proc envelope attempt (.ok .success) []
  | retry {key} (hkey : resolvePartitionKey envelope = .ok key) :
      Follows g proc envelope attempt (.ok .retry)
        [.sleep (calculateBackoffMs attempt g.policy),
          .emit (g.retryRecord proc key envelope attempt)]
  | dlq {r} (hr : FailureRecord g envelope attempt r) :
      Follows g proc envelope attempt (.ok .dlq) [.emit r]
  | rejected {e ops} (hwaits : Waits ops) : Follows g proc envelope attempt (.error e) ops

section Failure

variable {g : Group} {envelope : JsVal} {attempt : Number} {key : String} {C : Type} {c : C}
  {proc : Process} {e : JsThrow} {text : String}

theorem FailureRecord.topic {r : KafkaRecord} (h : FailureRecord g envelope attempt r) :
    r.topic = toDlqTopic (resolveKafkaTopic g.eventType) := by
  obtain ⟨proc, e, text, details, -, -, rfl⟩ := h.failure
  rfl

theorem refusal_sleep (drivers : Drivers) (ms : Number) : drivers.refusal (.sleep ms) = none := rfl

/-- The client refuses a copy as it refuses the headers of its envelope. -/
theorem refusal_retryRecord : g.drivers.refusal (.emit (g.retryRecord proc key envelope attempt)) =
    g.drivers.refusedHeader (encodeHeaders (envelopeToKafkaHeaders envelope)) :=
  refused_copy rfl

theorem refusal_failure (details : JsVal) (params : CreateFailureEnvelopeParams) :
    g.drivers.refusal (.emit (dlqRecord g.eventType (failureEnvelope proc details params))) =
      g.drivers.refusedHeader (encodeHeaders (failureHeaders params.original)) :=
  refused_failure proc details params

theorem text_of_refusedHeader {drivers : Drivers} {headers : List (String × RawHeader)}
    (h : drivers.refusedHeader headers = some e) : ∃ text, errorText e = .ok text := by
  obtain ⟨name, message, rfl⟩ := error_of_refusedHeader h
  exact ⟨message, rfl⟩

/-- The republishing ends as the sending of the copy does. -/
theorem run_scheduleRetry (hlog : Loggable envelope) (hkey : resolvePartitionKey envelope = .ok key) :
    (g.sends (envelopeToKafkaHeaders envelope) = .ok () ∧ ∀ w : World C,
      (g.executor.scheduleRetry proc g.eventType envelope attempt).run
        (World.settle c g.drivers.refusal) w =
          (.ok (), w.after c [.sleep (calculateBackoffMs attempt g.policy),
            .emit (g.retryRecord proc key envelope attempt)])) ∨
    ∃ e' waits, g.sends (envelopeToKafkaHeaders envelope) = .error e' ∧ Waits waits ∧
      ∀ w : World C, (g.executor.scheduleRetry proc g.eventType envelope attempt).run
        (World.settle c g.drivers.refusal) w = (.error e', w.after c waits) := by
  have hslept : ∀ w : World C, (g.executor.scheduleRetry proc g.eventType envelope attempt).run
      (World.settle c g.drivers.refusal) w = (g.executor.transport.publish g.eventType envelope
        (g.executor.retryHeaders proc g.eventType envelope attempt)).run
          (World.settle c g.drivers.refusal)
            (w.after c [.sleep (calculateBackoffMs attempt g.policy)]) := fun w =>
    run_bind_ok (run_sleep (refusal_sleep g.drivers _))
  cases hallowed : producerAllowed g.handler.service g.env with
  | true =>
    have hs : Sends g.executor.transport := transportOf_sends hallowed
    cases hrefused : g.drivers.refusedHeader (encodeHeaders (envelopeToKafkaHeaders envelope)) with
    | none =>
      refine .inl ⟨by rw [Group.sends, hallowed, hrefused]; rfl, fun w => ?_⟩
      have hsent : g.drivers.refusal (.emit (g.retryRecord proc key envelope attempt)) = none := by
        rw [refusal_retryRecord, hrefused]
      rw [hslept, hs.publish c _ _ g.eventType envelope _ key hkey hlog.1 hsent, ← World.after_append]
      rfl
    | some e' =>
      obtain ⟨text, htext⟩ := text_of_refusedHeader hrefused
      have hsent : g.drivers.refusal (.emit (g.retryRecord proc key envelope attempt)) =
          some e' := by rw [refusal_retryRecord, hrefused]
      obtain ⟨waits, hwaits, hrun⟩ := hs.publish_refused c _ g.eventType envelope _ key e' text
        hkey hlog.1 (refusal_sleep g.drivers) htext hsent
      refine .inr ⟨e', _, by rw [Group.sends, hallowed, hrefused]; rfl,
        waits_cons (calculateBackoffMs attempt g.policy) hwaits, fun w => ?_⟩
      rw [hslept, hrun, ← World.after_append]
      rfl
  | false =>
    have hb : Blocked g.executor.transport := transportOf_blocked hallowed
    refine .inr ⟨.value .undefined, _, by rw [Group.sends, hallowed]; rfl,
      waits_singleton (calculateBackoffMs attempt g.policy), fun w => ?_⟩
    rw [hslept]
    exact hb.publish c _ _ g.eventType envelope _ key hkey hlog.1

/-- The burial ends as the sending of the failure record does. -/
theorem run_sendToDlq (htext : errorText e = .ok text) :
    (g.sends (failureHeaders envelope) = .ok () ∧ ∃ r, FailureRecord g envelope attempt r ∧
      ∀ w : World C, (g.executor.sendToDlq proc g.eventType envelope e attempt).run
        (World.settle c g.drivers.refusal) w = (.ok (), w.after c [.emit r])) ∨
    ∃ e' waits, g.sends (failureHeaders envelope) = .error e' ∧ Waits waits ∧
      ∀ w : World C, (g.executor.sendToDlq proc g.eventType envelope e attempt).run
        (World.settle c g.drivers.refusal) w = (.error e', w.after c waits) := by
  let params : CreateFailureEnvelopeParams :=
    g.executor.failureParams g.eventType envelope attempt e
  obtain ⟨details, hfailure, hmessage⟩ := createFailureEnvelope_ok proc params htext
  have hcreated : ∀ (w : World C), (g.executor.sendToDlq proc g.eventType envelope e attempt).run
      (World.settle c g.drivers.refusal) w =
        (g.executor.transport.publishToDlq g.eventType (failureEnvelope proc details params) []).run
          (World.settle c g.drivers.refusal) w := by
    intro w
    change (Async.bind (Async.ofExcept (createFailureEnvelope proc params)) _).run _ w = _
    rw [hfailure, Async.ofExcept_ok, Async.resolve_bind]
  have hrefusal : g.drivers.refusal (.emit (dlqRecord g.eventType
      (failureEnvelope proc details params))) =
        g.drivers.refusedHeader (encodeHeaders (failureHeaders envelope)) :=
    refusal_failure details params
  cases hallowed : producerAllowed g.handler.service g.env with
  | true =>
    have hs : Sends g.executor.transport := transportOf_sends hallowed
    cases hrefused : g.drivers.refusedHeader (encodeHeaders (failureHeaders envelope)) with
    | none =>
      rw [hrefused] at hrefusal
      refine .inl ⟨by rw [Group.sends, hallowed, hrefused]; rfl, _,
        ⟨proc, e, text, details, htext, hmessage, rfl⟩, fun w => ?_⟩
      rw [hcreated, hs.publishToDlq c _ w g.eventType _ hrefusal]
    | some e' =>
      rw [hrefused] at hrefusal
      obtain ⟨waits, hwaits, hrun⟩ := hs.publishToDlq_refused c _ g.eventType _ e'
        (refusal_sleep g.drivers) hrefusal
      exact .inr ⟨e', waits, by rw [Group.sends, hallowed, hrefused]; rfl, hwaits, fun w => by
        rw [hcreated, hrun]⟩
  | false =>
    have hb : Blocked g.executor.transport := transportOf_blocked hallowed
    refine .inr ⟨.value .undefined, [], by rw [Group.sends, hallowed]; rfl, waits_nil, fun w => ?_⟩
    rw [hcreated]
    exact hb.publishToDlq c _ w g.eventType _

/-- The catch block ends as its answer says, and does what belongs to it. -/
theorem run_onFailure (proc : Process) (c : C) {params : ExecuteWithRetryParams}
    (htype : params.eventType = g.eventType) (hnan : nextAttempt params ≠ .nan)
    (hfin : g.policy.maxAttempts.isFinite = true) (htext : errorText e = .ok text) :
    ∃ ops, Follows g proc params.envelope (nextAttempt params)
        (g.answer params.envelope (nextAttempt params)) ops ∧
      ∀ w : World C, (g.executor.onFailure proc params e).run (World.settle c g.drivers.refusal) w =
        (g.answer params.envelope (nextAttempt params), w.after c ops) := by
  have hor : shouldSendToDlq (nextAttempt params) g.policy =
      !shouldRetry (nextAttempt params) g.policy := shouldSendToDlq_eq_not_shouldRetry hnan hfin
  cases hlogged : JsVal.logLine [params.envelope.get "eventId", params.envelope.get "eventType"] with
  | error e' =>
    have hanswer : g.answer params.envelope (nextAttempt params) = .error e' := by
      rw [Group.answer, hlogged]
      rfl
    rw [hanswer]
    refine ⟨[], .rejected waits_nil, fun w => ?_⟩
    apply run_onFailure_unloggable htext hlogged
    intro hretry
    change shouldSendToDlq _ g.policy = true
    change shouldRetry _ g.policy = false at hretry
    rw [hor, hretry]
    rfl
  | ok u =>
    have hlog : Loggable params.envelope := loggable_iff.mpr hlogged
    cases hretry : shouldRetry (nextAttempt params) g.policy with
    | true =>
      rw [hretry] at hor
      cases hkey : resolvePartitionKey params.envelope with
      | error e' =>
        have hanswer : g.answer params.envelope (nextAttempt params) = .error e' := by
          rw [Group.answer, hlogged, hretry, hkey]
          rfl
        rw [hanswer]
        refine ⟨_, .rejected (waits_singleton
          (calculateBackoffMs (nextAttempt params) g.policy)), fun w => ?_⟩
        have hrun : (g.executor.scheduleRetry proc params.eventType params.envelope
            (nextAttempt params)).run (World.settle c g.drivers.refusal) w = (.error e',
              w.after c [.sleep (calculateBackoffMs (nextAttempt params) g.policy)]) := by
          rw [scheduleRetry, Async.bind_eq, run_bind_ok (run_sleep (refusal_sleep g.drivers _))]
          exact run_publish_keyless hkey
        exact run_onFailure_scheduled htext hlog hretry hor hrun
      | ok key =>
        have hanswer : g.answer params.envelope (nextAttempt params) =
            (g.sends (envelopeToKafkaHeaders params.envelope)).map fun _ => .retry := by
          rw [Group.answer, hlogged, hretry, hkey]
          cases g.sends (envelopeToKafkaHeaders params.envelope) <;> rfl
        rw [hanswer]
        rcases run_scheduleRetry (c := c) hlog hkey
          with ⟨hsent, hrun⟩ | ⟨e', waits, hsent, hwaits, hrun⟩
        · rw [← htype] at hrun
          rw [hsent]
          exact ⟨_, .retry hkey, fun w => run_onFailure_scheduled htext hlog hretry hor (hrun w)⟩
        · rw [← htype] at hrun
          rw [hsent]
          exact ⟨_, .rejected hwaits, fun w =>
            run_onFailure_scheduled htext hlog hretry hor (hrun w)⟩
    | false =>
      rw [hretry] at hor
      have hanswer : g.answer params.envelope (nextAttempt params) =
          (g.sends (failureHeaders params.envelope)).map fun _ => .dlq := by
        rw [Group.answer, hlogged, hretry]
        cases g.sends (failureHeaders params.envelope) <;> rfl
      rw [hanswer]
      rcases run_sendToDlq (g := g) (c := c)
        htext
        with ⟨hsent, r, hr, hrun⟩ | ⟨e', waits, hsent, hwaits, hrun⟩
      · rw [← htype] at hrun
        rw [hsent]
        exact ⟨_, .dlq hr, fun w => run_onFailure_exhausted htext hlog hor (hrun w)⟩
      · rw [← htype] at hrun
        rw [hsent]
        exact ⟨_, .rejected hwaits, fun w => run_onFailure_exhausted htext hlog hor (hrun w)⟩

end Failure

end EventFlow.Retry
