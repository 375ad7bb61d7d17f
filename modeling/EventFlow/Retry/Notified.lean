import EventFlow.Retry.Untrusted
import EventFlow.Services.System

namespace EventFlow.Retry

open Js Shared Services KafkaRetryExecutor

/-- An envelope of its declared type. -/
structure Typed (envelope : JsVal) : Prop where
  keys : envelope.keys.Nodup
  eventId : ∃ s, envelope.get "eventId" = .str s
  eventType : ∃ s, envelope.get "eventType" = .str s

theorem Typed.parsed {envelope : JsVal} (h : Typed envelope) : Parsed envelope := by
  obtain ⟨s, hs⟩ := h.eventId
  refine ⟨h.keys, ?_⟩
  rw [hs]
  exact JsVal.noConfusion

theorem Typed.loggable {envelope : JsVal} (h : Typed envelope) : Loggable envelope := by
  obtain ⟨s, hs⟩ := h.eventId
  obtain ⟨t, ht⟩ := h.eventType
  exact ⟨printable_of_eq_str hs, printable_of_eq_str ht⟩

/-- It is still one after a trip over the wire. -/
theorem Typed.wire {envelope : JsVal} (h : Typed envelope) : Typed envelope.wire := by
  obtain ⟨s, hs⟩ := h.eventId
  obtain ⟨t, ht⟩ := h.eventType
  exact ⟨JsVal.nodup_keys_wire h.keys, ⟨s, JsVal.get_wire_str hs⟩, ⟨t, JsVal.get_wire_str ht⟩⟩

/-- A broker that refuses records by topic: a round publishes to each topic once at most. -/
def refusing (refuses : String → Option JsThrow) : Op → Option JsThrow
  | .emit record => refuses record.topic
  | _ => none

/-- What one delivery of a `stock.reserved` record publishes. -/
def publishedBy (proc : Process) (refuses : String → Option JsThrow) (record : KafkaRecord) :
    List KafkaRecord :=
  ((RetriedHandler.notificationStockReserved.method proc record.headers record.value).run
    (World.settle () (refusing refuses)) World.empty).2.log

def sentOn (topic : String) (log : List KafkaRecord) : List KafkaRecord :=
  log.filter fun r => r.topic = topic

/-- Everything published over the retry rounds: what comes back on the topic is
delivered once, in order. -/
def retryRounds (procs : ℕ → Process) (refuses : ℕ → String → Option JsThrow) :
    ℕ → ℕ → List KafkaRecord → List KafkaRecord
  | 0, _, _ | _, _, [] => []
  | fuel + 1, n, record :: pending =>
    let sent := publishedBy (procs n) (refuses n) record
    sent ++ retryRounds procs refuses fuel (n + 1)
      (pending ++ sentOn RetriedHandler.notificationStockReserved.topic sent)

/-- The second record reports on the first: the same notification, caused by it. -/
def Reports (r s : KafkaRecord) : Prop :=
  ∃ send sent, extractEnvelope r.value = .ok send ∧ extractEnvelope s.value = .ok sent ∧
    (sent.get "payload").get "notificationId" = (send.get "payload").get "notificationId" ∧
    sent.get "causationId" = send.get "eventId"

def sendTopic : String := EventType.notificationSend.value

def sentTopic : String := EventType.notificationSent.value

structure NotifiesOnce (log : List KafkaRecord) : Prop where
  send : (sentOn sendTopic log).length ≤ 1
  sent : (sentOn sentTopic log).length ≤ 1
  reports : ∀ s ∈ sentOn sentTopic log, ∃ r, sentOn sendTopic log = [r] ∧ Reports r s

/-- How the handler fails, if one of its two records is refused. -/
def refusal (refuses : String → Option JsThrow) : Option JsThrow :=
  (refuses sendTopic).or (refuses sentTopic)

/-- A round after which another follows: the handler fails with attempts left, and the
copy is taken. -/
structure Retried (refuses : String → Option JsThrow) (policy : RetryPolicyConfig)
    (attempt : Number) : Prop where
  fails : ∃ e text, refusal refuses = some e ∧ errorText e = .ok text
  left : shouldRetry attempt policy = true
  copied : refuses RetriedHandler.notificationStockReserved.topic = none

section Handler

variable {C : Type} {c : C} {w : World C} {refuses : String → Option JsThrow} {proc : Process}
  {t : EventType} {envelope env : JsVal} {headers : List (String × JsVal)} {key id : String}

theorem refusing_sleep (refuses : String → Option JsThrow) (ms : Number) :
    refusing refuses (.sleep ms) = none := rfl

theorem run_publish_taken (hkey : resolvePartitionKey envelope = .ok key)
    (htaken : refuses (resolveKafkaTopic t) = none) :
    (eventPublisher.publish t envelope headers).run (World.settle c (refusing refuses)) w =
      (.ok (), w.after c [.emit (domainRecord t key envelope headers)]) := by
  change (Async.bind (Async.ofExcept (resolvePartitionKey envelope)) _).run _ w = _
  rw [hkey, Async.ofExcept_ok, Async.resolve_bind]
  exact run_perform_ok htaken

theorem run_publish_refused {e : JsThrow} (hkey : resolvePartitionKey envelope = .ok key)
    (hrefused : refuses (resolveKafkaTopic t) = some e) :
    (eventPublisher.publish t envelope headers).run (World.settle c (refusing refuses)) w =
      (.error e, w) := by
  let record : KafkaRecord := domainRecord t key envelope headers
  have hfails : refusing refuses (.emit record) = some e := hrefused
  change (Async.bind (Async.ofExcept (resolvePartitionKey envelope)) _).run _ w = _
  rw [hkey, Async.ofExcept_ok, Async.resolve_bind]
  exact run_perform_error hfails

/-- The two records of one run of the handler. -/
def sendRecord (proc : Process) (key id : String) : KafkaRecord :=
  domainRecord .notificationSend key (Notification.sendEnvelope proc (.str key) (.str id)) []

def sentRecord (proc : Process) (key id : String) : KafkaRecord :=
  domainRecord .notificationSent key (Notification.sentEnvelope proc (.str key)
    ((Notification.sendEnvelope proc (.str key) (.str id)).get "eventId")) []

/-- Those that are taken. -/
def notes (proc : Process) (refuses : String → Option JsThrow) (key id : String) :
    List KafkaRecord :=
  match refuses sendTopic, refuses sentTopic with
  | some _, _ => []
  | none, some _ => [sendRecord proc key id]
  | none, none => [sendRecord proc key id, sentRecord proc key id]

/-- The handler publishes up to the first record that is refused. -/
theorem run_notify (hkey : resolvePartitionKey env = .ok key) (hid : env.get "eventId" = .str id) :
    (RetriedHandler.notificationStockReserved.handler proc env).run
        (World.settle c (refusing refuses)) w =
      ((refusal refuses).elim (.ok ()) .error,
        w.after c ((notes proc refuses key id).map Op.emit)) := by
  obtain ⟨horder, hne⟩ := getPartitionKey_eq_ok.mp hkey
  have hprop : (env.get "payload").prop "orderId" = .ok (.str key) := by
    have hset : (env.get "payload").get "orderId" ≠ .undefined := by
      rw [horder]
      exact JsVal.noConfusion
    exact JsVal.prop_eq_ok.mpr ⟨JsVal.isNullish_of_get hset, horder⟩
  have hdestructure : (env.get "payload").destructure "orderId" "event.payload" =
      .ok (.str key) := JsVal.destructure_eq_ok.mpr (JsVal.prop_eq_ok.mp hprop)
  have hlog : JsVal.logLine [.str key] = .ok () := rfl
  have hsend : resolvePartitionKey (Notification.sendEnvelope proc (.str key) (.str id)) =
      .ok key := getPartitionKey_eq_ok.mpr ⟨rfl, hne⟩
  have hsent : resolvePartitionKey (Notification.sentEnvelope proc (.str key)
      ((Notification.sendEnvelope proc (.str key) (.str id)).get "eventId")) = .ok key :=
    getPartitionKey_eq_ok.mpr ⟨rfl, hne⟩
  unfold RetriedHandler.handler Notification.logOrderId Notification.handleStockReserved
  simp only [Async.bind_eq, hprop, hdestructure, hid, hlog, Async.ofExcept_ok, Async.resolve_bind]
  unfold notes refusal
  cases h₁ : refuses sendTopic with
  | some e => exact run_bind_error (run_publish_refused hsend h₁)
  | none =>
    rw [run_bind_ok (run_publish_taken hsend h₁)]
    cases h₂ : refuses sentTopic with
    | some e => exact run_bind_error (run_publish_refused hsent h₂)
    | none =>
      rw [run_bind_ok (run_publish_taken hsent h₂), ← World.after_append]
      rfl

end Handler

section Round

variable {refuses : String → Option JsThrow} {proc : Process} {g : Group} {record : KafkaRecord}
  {env : JsVal} {key id : String}

/-- The companion of the topic, where a round that gives up publishes. -/
def deadTopic : String := toDlqTopic RetriedHandler.notificationStockReserved.topic

/-- What a method publishes is what its executor publishes. -/
theorem publishedBy_eq (hx : extractEnvelope record.value = .ok env) :
    publishedBy proc refuses record =
      ((RetriedHandler.notificationStockReserved.execute proc env
        (parseKafkaHeaders proc.drivers record.headers)
        (RetriedHandler.notificationStockReserved.handler proc env)).run
          (World.settle () (refusing refuses)) World.empty).2.log := by
  let executed : Promise RetryOutcome := RetriedHandler.notificationStockReserved.execute proc env
    (parseKafkaHeaders proc.drivers record.headers)
    (RetriedHandler.notificationStockReserved.handler proc env)
  have hmethod : RetriedHandler.notificationStockReserved.method proc record.headers record.value =
      ackExecuted executed := by
    change Async.bind (Async.ofExcept (extractEnvelope record.value)) _ = _
    rw [hx, Async.ofExcept_ok, Async.resolve_bind]
    rfl
  rw [publishedBy, hmethod, ackExecuted, Async.bind_eq, Async.run_bind]
  cases executed.run (World.settle () (refusing refuses)) World.empty with
  | mk x w => cases x <;> rfl

/-- What the executor is called with. -/
def notifyParams (proc : Process) (record : KafkaRecord) (env : JsVal) : ExecuteWithRetryParams where
  eventType := .stockReserved
  envelope := env
  headers := parseKafkaHeaders proc.drivers record.headers
  handler := RetriedHandler.notificationStockReserved.handler proc env

/-- The state in which the handler ends. -/
def notified (proc : Process) (refuses : String → Option JsThrow) (record : KafkaRecord)
    (key id : String) : World Unit :=
  (World.empty.after () (waitOps proc (parseKafkaHeaders proc.drivers record.headers))).after ()
    ((notes proc refuses key id).map Op.emit)

theorem log_notified : (notified proc refuses record key id).log = notes proc refuses key id := by
  have hwaits :
      (waitOps proc (parseKafkaHeaders proc.drivers record.headers)).filterMap World.emitted = [] :=
    emitted_of_waits (waits_waitOps proc _)
  have hemit : ((notes proc refuses key id).map Op.emit).filterMap World.emitted =
      notes proc refuses key id := by
    rw [List.filterMap_map]
    exact List.filterMap_some
  rw [notified, World.after_log, World.after_log, hwaits, hemit]
  rfl

theorem publishedBy_run (hx : extractEnvelope record.value = .ok env)
    (hkey : resolvePartitionKey env = .ok key) (hid : env.get "eventId" = .str id) :
    publishedBy proc refuses record =
      match refusal refuses with
      | none => notes proc refuses key id
      | some e => (((runner .notificationService proc.env).onFailure proc
          (notifyParams proc record env) e).run (World.settle () (refusing refuses))
            (notified proc refuses record key id)).2.log := by
  rw [publishedBy_eq hx]
  change (((runner .notificationService proc.env).execute proc (notifyParams proc record env)).run
    (World.settle () (refusing refuses)) World.empty).2.log = _
  have hhandler : (notifyParams proc record env).handler.run (World.settle () (refusing refuses))
      (World.empty.after () (waitOps proc (notifyParams proc record env).headers)) =
        ((refusal refuses).elim (.ok ()) .error, notified proc refuses record key id) :=
    run_notify hkey hid
  cases hfails : refusal refuses with
  | none =>
    rw [hfails] at hhandler
    rw [run_execute_ok _ _ _ (refusing_sleep refuses) hhandler]
    exact log_notified
  | some e =>
    rw [hfails] at hhandler
    rw [run_execute_error _ _ _ (refusing_sleep refuses) hhandler]

/-- notification-service, as the group that reads the topic. -/
def notifier (proc : Process) : Group := .runner .notificationStockReserved proc.env proc.drivers

/-- The copy that a failed round puts back. -/
def backRecord (proc : Process) (record : KafkaRecord) (key : String) (env : JsVal) : KafkaRecord :=
  (notifier proc).retryRecord proc key env (attemptOf proc.drivers record)

theorem run_scheduleRetry_taken {w : World Unit} {n : Number}
    (hkey : resolvePartitionKey env = .ok key)
    (hback : refuses RetriedHandler.notificationStockReserved.topic = none) :
    ((runner .notificationService proc.env).scheduleRetry proc .stockReserved env n).run
        (World.settle () (refusing refuses)) w =
      (.ok (), w.after () [.sleep (calculateBackoffMs n (resolveConsumerRetryPolicy proc.env)),
        .emit ((notifier proc).retryRecord proc key env n)]) := by
  rw [scheduleRetry, Async.bind_eq, run_bind_ok (run_sleep (refusing_sleep refuses _))]
  refine (run_publish_taken hkey hback).trans ?_
  rw [← World.after_append]
  rfl

theorem run_scheduleRetry_refused {w : World Unit} {n : Number} {e : JsThrow}
    (hkey : resolvePartitionKey env = .ok key)
    (hback : refuses RetriedHandler.notificationStockReserved.topic = some e) :
    ((runner .notificationService proc.env).scheduleRetry proc .stockReserved env n).run
        (World.settle () (refusing refuses)) w =
      (.error e, w.after () [.sleep (calculateBackoffMs n (resolveConsumerRetryPolicy proc.env))]) := by
  rw [scheduleRetry, Async.bind_eq, run_bind_ok (run_sleep (refusing_sleep refuses _))]
  exact run_publish_refused hkey hback

theorem shouldSendToDlq_attemptOf (proc : Process) (record : KafkaRecord) :
    shouldSendToDlq (attemptOf proc.drivers record) (resolveConsumerRetryPolicy proc.env) =
      !shouldRetry (attemptOf proc.drivers record) (resolveConsumerRetryPolicy proc.env) :=
  shouldSendToDlq_eq_not_shouldRetry (attemptOf_ne_nan _ _) (isFinite_resolveConsumer proc.env)

/-- With attempts left the catch block ends as the republishing does. -/
theorem run_onFailure_left {e : JsThrow} {text : String} {x : Except JsThrow Unit}
    {w w' : World Unit} (htext : errorText e = .ok text) (hlog : Loggable env)
    (hleft : shouldRetry (attemptOf proc.drivers record) (resolveConsumerRetryPolicy proc.env) = true)
    (h : ((runner .notificationService proc.env).scheduleRetry proc .stockReserved env
      (attemptOf proc.drivers record)).run (World.settle () (refusing refuses)) w = (x, w')) :
    ((runner .notificationService proc.env).onFailure proc (notifyParams proc record env) e).run
        (World.settle () (refusing refuses)) w = (x.map fun _ => .retry, w') := by
  let params : ExecuteWithRetryParams := notifyParams proc record env
  have hleft' : shouldRetry (nextAttempt params)
      (runner .notificationService proc.env).policy = true := hleft
  have hdlq : shouldSendToDlq (nextAttempt params)
      (runner .notificationService proc.env).policy = false := by
    have hor := shouldSendToDlq_attemptOf proc record
    rwa [hleft] at hor
  exact run_onFailure_scheduled htext hlog hleft' hdlq h

/-- What the catch block publishes when no attempt is left. -/
theorem performs_gaveUp (env : JsVal) (e : JsThrow)
    (hleft : shouldRetry (attemptOf proc.drivers record) (resolveConsumerRetryPolicy proc.env) = false) :
    ((runner .notificationService proc.env).onFailure proc (notifyParams proc record env) e).Performs
      fun op => ∀ r, op = .emit r → r.topic = deadTopic := by
  have hdlq : shouldSendToDlq (getRetryCount (notifyParams proc record env).headers).succ
      (runner .notificationService proc.env).policy = true := by
    have hor := shouldSendToDlq_attemptOf proc record
    rwa [hleft] at hor
  have hsent : ∀ attempt, ((runner .notificationService proc.env).sendToDlq proc .stockReserved env
      e attempt).Performs fun op => ∀ r, op = .emit r → r.topic = deadTopic := by
    intro attempt
    have htransport : (runner .notificationService proc.env).transport =
        transportOf .notificationService proc.env := rfl
    refine performs_sendToDlq htransport (fun ms r hr => by cases hr) ?_ e attempt
    intro failed failure _ _ r hr
    obtain rfl := Op.emit.inj hr
    rfl
  unfold onFailure
  refine Async.performs_ofExcept_bind fun _ _ => ?_
  rw [if_pos hdlq]
  exact Async.performs_ofExcept_bind fun _ _ => (hsent _).bind fun _ => trivial

variable (hx : extractEnvelope record.value = .ok env) (htyped : Typed env)
  (hkey : resolvePartitionKey env = .ok key) (hid : env.get "eventId" = .str id)

include hx htyped hkey hid

/-- A round that is retried leaves the copy behind. -/
theorem publishedBy_retried
    (h : Retried refuses (resolveConsumerRetryPolicy proc.env) (attemptOf proc.drivers record)) :
    publishedBy proc refuses record =
      notes proc refuses key id ++ [backRecord proc record key env] := by
  obtain ⟨e, text, hfails, htext⟩ := h.fails
  have hran := run_onFailure_left htext htyped.loggable h.left
    (run_scheduleRetry_taken (w := notified proc refuses record key id) hkey h.copied)
  rw [publishedBy_run hx hkey hid, hfails]
  simp only
  rw [hran, World.after_log, log_notified]
  rfl

/-- Any other publishes nothing else but to the companion topic. -/
theorem publishedBy_ended
    (h : ¬ Retried refuses (resolveConsumerRetryPolicy proc.env) (attemptOf proc.drivers record)) :
    ∃ rest, publishedBy proc refuses record = notes proc refuses key id ++ rest ∧
      ∀ r ∈ rest, r.topic = deadTopic := by
  have hnothing : ∀ log, log = notes proc refuses key id → ∃ rest,
      log = notes proc refuses key id ++ rest ∧ ∀ r ∈ rest, r.topic = deadTopic := by
    intro log hlog
    exact ⟨[], by rw [hlog, List.append_nil], fun r hr => absurd hr List.not_mem_nil⟩
  rw [publishedBy_run hx hkey hid]
  cases hfails : refusal refuses with
  | none => exact hnothing _ rfl
  | some e =>
    simp only
    cases hleft : shouldRetry (attemptOf proc.drivers record) (resolveConsumerRetryPolicy proc.env) with
    | false =>
      have hdead := performs_gaveUp env e hleft
      have hrest : ∃ rest, (Async.run (World.settle () (refusing refuses)) _
          (notified proc refuses record key id)).2.log = _ ∧ _ := log_of_performs hdead
      rwa [log_notified] at hrest
    | true =>
      apply hnothing
      cases htext : errorText e with
      | error e' =>
        simp only [onFailure, Async.bind_eq, htext, Async.ofExcept_error, Async.reject_bind,
          Async.run_reject]
        exact log_notified
      | ok text =>
        cases hback : refuses RetriedHandler.notificationStockReserved.topic with
        | none => exact absurd ⟨⟨e, text, hfails, htext⟩, hleft, hback⟩ h
        | some e' =>
          have hran := run_onFailure_left htext htyped.loggable hleft
            (run_scheduleRetry_refused (w := notified proc refuses record key id) hkey hback)
          rw [hran, World.after_log, log_notified]
          exact List.append_nil _

end Round

section Log

variable {a b : List KafkaRecord} {topic : String} {refuses : String → Option JsThrow}
  {proc : Process} {key id : String}

theorem sentOn_append : sentOn topic (a ++ b) = sentOn topic a ++ sentOn topic b :=
  List.filter_append a b

theorem sentOn_eq_nil (h : ∀ r ∈ a, r.topic ≠ topic) : sentOn topic a = [] := by
  refine List.filter_eq_nil_iff.mpr fun r hr => ?_
  simpa using h r hr

/-- A log without a word to the customer. -/
structure Silent (log : List KafkaRecord) : Prop where
  send : sentOn sendTopic log = []
  sent : sentOn sentTopic log = []

theorem silent_of_topics (h : ∀ r ∈ a, r.topic ≠ sendTopic ∧ r.topic ≠ sentTopic) : Silent a :=
  ⟨sentOn_eq_nil fun r hr => (h r hr).1, sentOn_eq_nil fun r hr => (h r hr).2⟩

theorem silent_nil : Silent [] := ⟨rfl, rfl⟩

theorem Silent.append (ha : Silent a) (hb : Silent b) : Silent (a ++ b) :=
  ⟨by rw [sentOn_append, ha.send, hb.send]; rfl, by rw [sentOn_append, ha.sent, hb.sent]; rfl⟩

theorem Silent.once (h : Silent a) : NotifiesOnce a where
  send := by rw [h.send]; exact Nat.zero_le 1
  sent := by rw [h.sent]; exact Nat.zero_le 1
  reports := by
    intro s hs
    rw [h.sent] at hs
    exact absurd hs List.not_mem_nil

theorem NotifiesOnce.congr (h : NotifiesOnce b) (hsend : sentOn sendTopic a = sentOn sendTopic b)
    (hsent : sentOn sentTopic a = sentOn sentTopic b) : NotifiesOnce a where
  send := by rw [hsend]; exact h.send
  sent := by rw [hsent]; exact h.sent
  reports := by rw [hsend, hsent]; exact h.reports

/-- What is silent makes no difference. -/
theorem NotifiesOnce.append_silent (ha : NotifiesOnce a) (hb : Silent b) :
    NotifiesOnce (a ++ b) := by
  have hsend : sentOn sendTopic (a ++ b) = sentOn sendTopic a := by
    rw [sentOn_append, hb.send, List.append_nil]
  have hsent : sentOn sentTopic (a ++ b) = sentOn sentTopic a := by
    rw [sentOn_append, hb.sent, List.append_nil]
  exact ha.congr hsend hsent

theorem NotifiesOnce.silent_append (hb : NotifiesOnce b) (ha : Silent a) :
    NotifiesOnce (a ++ b) := by
  have hsend : sentOn sendTopic (a ++ b) = sentOn sendTopic b := by
    rw [sentOn_append, ha.send, List.nil_append]
  have hsent : sentOn sentTopic (a ++ b) = sentOn sentTopic b := by
    rw [sentOn_append, ha.sent, List.nil_append]
  exact hb.congr hsend hsent

theorem topic_of_notes : ∀ r ∈ notes proc refuses key id,
    r.topic = sendTopic ∨ r.topic = sentTopic := by
  unfold notes
  split <;> simp [sendRecord, sentRecord, domainRecord, sendTopic, sentTopic, resolveKafkaTopic,
    eventToKafkaTopic]

theorem notes_refused (h : refuses sendTopic ≠ none) : notes proc refuses key id = [] := by
  unfold notes
  split
  · rfl
  · next hnone _ => exact absurd hnone h
  · next hnone _ => exact absurd hnone h

theorem sendTopic_ne_sentTopic : sendTopic ≠ sentTopic := by decide

theorem topic_sendRecord (proc : Process) (key id : String) :
    (sendRecord proc key id).topic = sendTopic := rfl

theorem topic_sentRecord (proc : Process) (key id : String) :
    (sentRecord proc key id).topic = sentTopic := rfl

theorem sends_notes (h : refuses sendTopic = none) :
    sentOn sendTopic (notes proc refuses key id) = [sendRecord proc key id] := by
  unfold notes
  rw [h]
  cases refuses sentTopic <;>
    simp [sentOn, topic_sendRecord, topic_sentRecord, sendTopic_ne_sentTopic.symm]

/-- The second record of a run reports on the first. -/
theorem reports_notes : Reports (sendRecord proc key id) (sentRecord proc key id) := by
  let send : JsVal := Notification.sendEnvelope proc (.str key) (.str id)
  let sent : JsVal := Notification.sentEnvelope proc (.str key) (send.get "eventId")
  have hread : extractEnvelope (.value send.wire) = .ok send.wire := extractEnvelope_obj rfl
  have hread' : extractEnvelope (.value sent.wire) = .ok sent.wire := extractEnvelope_obj rfl
  refine ⟨send.wire, sent.wire, hread, hread', ?_, ?_⟩
  · have hid : (send.get "payload").get "notificationId" = .str (proc.uuid 0).val := rfl
    have hid' : (sent.get "payload").get "notificationId" = .str (proc.uuid 0).val := rfl
    rw [JsVal.get_get_wire_str hid, JsVal.get_get_wire_str hid']
  · have hcause : send.get "eventId" = .str (proc.uuid 1).val := rfl
    have hcause' : sent.get "causationId" = .str (proc.uuid 1).val := rfl
    rw [JsVal.get_wire_str hcause, JsVal.get_wire_str hcause']

/-- One run of the handler notifies once. -/
theorem once_notes : NotifiesOnce (notes proc refuses key id) := by
  have hsend := topic_sendRecord proc key id
  have hsent := topic_sentRecord proc key id
  unfold notes
  split
  · exact silent_nil.once
  · have hnone : sentOn sentTopic [sendRecord proc key id] = [] := by
      simp [sentOn, hsend, sendTopic_ne_sentTopic]
    refine ⟨?_, ?_, ?_⟩
    · simp [sentOn, hsend]
    · simp [hnone]
    · simp [hnone]
  · have hone : sentOn sendTopic [sendRecord proc key id, sentRecord proc key id] =
        [sendRecord proc key id] := by
      simp [sentOn, hsend, hsent, sendTopic_ne_sentTopic.symm]
    have hone' : sentOn sentTopic [sendRecord proc key id, sentRecord proc key id] =
        [sentRecord proc key id] := by
      simp [sentOn, hsend, hsent, sendTopic_ne_sentTopic]
    refine ⟨?_, ?_, ?_⟩
    · simp [hone]
    · simp [hone']
    · intro s hs
      rw [hone', List.mem_singleton] at hs
      rw [hs]
      exact ⟨_, hone, reports_notes⟩

end Log

section Rounds

variable {procs : ℕ → Process} {refuses : ℕ → String → Option JsThrow} {record : KafkaRecord}
  {env : JsVal} {key id : String} {x : Number} {n : ℕ}

/-- The `n`-th round of a message that was first read with a count is retried. -/
def RetriedAt (procs : ℕ → Process) (refuses : ℕ → String → Option JsThrow) (x : Number) (n : ℕ) :
    Prop :=
  Retried (refuses n) (resolveConsumerRetryPolicy (procs n).env) (Number.succ^[n + 1] x)

theorem extract_of_read {value : KafkaValue}
    (h : RetriedHandler.notificationStockReserved.read value = .ok (.accepted env)) :
    extractEnvelope value = .ok env := by
  change (extractEnvelope value).map ParseResult.accepted = _ at h
  cases hx : extractEnvelope value with
  | error e =>
    rw [hx] at h
    cases h
  | ok v =>
    rw [hx] at h
    cases h
    rfl

/-- A copy of the event, to be read with a count. -/
structure Due (proc : Process) (env : JsVal) (key id : String) (record : KafkaRecord) (x : Number) :
    Prop extends Carries (notifier proc) record env x where
  typed : Typed env
  key : resolvePartitionKey env = .ok key
  eventId : env.get "eventId" = .str id

/-- The copy of a round is due in the next one. -/
theorem Due.next {proc : Process} (h : Due proc env key id record x) (next : Process)
    (hcount : x.succ.IsCount) : Due next env.wire key id (backRecord proc record key env) x.succ := by
  have hback : backRecord proc record key env = (notifier proc).retryRecord proc key env x.succ := by
    rw [← h.attempt]
    rfl
  have hc : Carries (notifier next) (backRecord proc record key env) env.wire x.succ := by
    rw [hback]
    exact ⟨h.typed.parsed.read_wire h.read, getRetryCount_of_lookup hcount lookup_retryHeaders⟩
  exact ⟨hc, h.typed.wire, resolvePartitionKey_wire h.key, JsVal.get_wire_str h.eventId⟩

variable (hdue : Due (procs n) env key id record (Number.succ^[n] x))

include hdue

theorem retriedAt_iff : RetriedAt procs refuses x n ↔ Retried (refuses n)
    (resolveConsumerRetryPolicy (procs n).env) (attemptOf (procs n).drivers record) := by
  have hattempt : attemptOf (procs n).drivers record = (Number.succ^[n] x).succ := hdue.attempt
  rw [RetriedAt, hattempt, Function.iterate_succ_apply']

/-- A retried round is followed by the next one. -/
theorem rounds_retried (h : RetriedAt procs refuses x n) :
    ∃ next, Due (procs (n + 1)) env.wire key id next (Number.succ^[n + 1] x) ∧ Silent [next] ∧
      ∀ fuel, retryRounds procs refuses (fuel + 1) n [record] =
        notes (procs n) (refuses n) key id ++
          ([next] ++ retryRounds procs refuses fuel (n + 1) [next]) := by
  let next : KafkaRecord := backRecord (procs n) record key env
  have hround := (retriedAt_iff hdue).mp h
  have hnext : Due (procs (n + 1)) env.wire key id next (Number.succ^[n + 1] x) := by
    have hleft := h.left
    rw [Function.iterate_succ_apply'] at hleft ⊢
    exact hdue.next _ (Number.isCount_succ hdue.isCount hleft)
  have hsent : publishedBy (procs n) (refuses n) record =
      notes (procs n) (refuses n) key id ++ [next] :=
    publishedBy_retried (extract_of_read hdue.read) hdue.typed hdue.key hdue.eventId hround
  have hback : next.topic = RetriedHandler.notificationStockReserved.topic := rfl
  have hpending : sentOn RetriedHandler.notificationStockReserved.topic
      (notes (procs n) (refuses n) key id ++ [next]) = [next] := by
    rw [sentOn_append, sentOn_eq_nil]
    · simp [sentOn, hback]
    · intro r hr
      rcases topic_of_notes r hr with htopic | htopic <;> rw [htopic] <;> decide
  refine ⟨next, hnext, silent_of_topics ?_, ?_⟩
  · intro r hr
    rw [List.mem_singleton.mp hr, hback]
    decide
  · intro fuel
    rw [retryRounds, hsent, hpending, List.nil_append, List.append_assoc]

/-- Any other round is the last. -/
theorem rounds_ended (h : ¬ RetriedAt procs refuses x n) :
    ∃ rest, Silent rest ∧ ∀ fuel, retryRounds procs refuses (fuel + 1) n [record] =
      notes (procs n) (refuses n) key id ++ rest := by
  obtain ⟨rest, hsent, hdead⟩ := publishedBy_ended (extract_of_read hdue.read) hdue.typed hdue.key
    hdue.eventId fun hround => h ((retriedAt_iff hdue).mpr hround)
  have hpending : sentOn RetriedHandler.notificationStockReserved.topic
      (notes (procs n) (refuses n) key id ++ rest) = [] := by
    refine sentOn_eq_nil fun r hr => ?_
    rcases List.mem_append.mp hr with hnote | hrest
    · rcases topic_of_notes r hnote with htopic | htopic <;> rw [htopic] <;> decide
    · rw [hdead r hrest]
      decide
  refine ⟨rest, silent_of_topics fun r hr => ?_, fun fuel => ?_⟩
  · rw [hdead r hr]
    decide
  · rw [retryRounds, hsent, hpending]
    cases fuel <;> simp [retryRounds]

/-- Rounds in which the first record is refused each time are silent. -/
theorem silent_rounds (fuel : ℕ) (hrefused : ∀ j, n ≤ j →
      (∀ m, n ≤ m → m < j → RetriedAt procs refuses x m) → refuses j sendTopic ≠ none) :
    Silent (retryRounds procs refuses fuel n [record]) := by
  induction fuel generalizing n record env with
  | zero => exact silent_nil
  | succ fuel ih =>
    have hnow : refuses n sendTopic ≠ none := by
      refine hrefused n le_rfl ?_
      intro m hm hlt
      omega
    by_cases hretried : RetriedAt procs refuses x n
    · obtain ⟨next, hnext, hsilent, hrounds⟩ := rounds_retried hdue hretried
      rw [hrounds, notes_refused hnow, List.nil_append]
      refine hsilent.append (ih hnext ?_)
      intro j hj hall
      refine hrefused j (by omega) ?_
      intro m hm hlt
      rcases Nat.eq_or_lt_of_le hm with rfl | hlater
      · exact hretried
      · exact hall m hlater hlt
    · obtain ⟨rest, hsilent, hrounds⟩ := rounds_ended hdue hretried
      rw [hrounds, notes_refused hnow, List.nil_append]
      exact hsilent

/-- With no second round to notify in, all the rounds notify once. -/
theorem once_rounds (fuel : ℕ) (honce : ∀ i j, n ≤ i → i < j →
      (∀ m, n ≤ m → m < j → RetriedAt procs refuses x m) → refuses i sendTopic = none →
      refuses j sendTopic ≠ none) :
    NotifiesOnce (retryRounds procs refuses fuel n [record]) := by
  induction fuel generalizing n record env with
  | zero => exact silent_nil.once
  | succ fuel ih =>
    by_cases hretried : RetriedAt procs refuses x n
    · obtain ⟨next, hnext, hsilent, hrounds⟩ := rounds_retried hdue hretried
      have hall : ∀ j, (∀ m, n + 1 ≤ m → m < j → RetriedAt procs refuses x m) →
          ∀ m, n ≤ m → m < j → RetriedAt procs refuses x m := by
        intro j hlater m hm hlt
        rcases Nat.eq_or_lt_of_le hm with rfl | hgt
        · exact hretried
        · exact hlater m hgt hlt
      rw [hrounds]
      by_cases hsend : refuses n sendTopic = none
      · -- this round notifies, so none of the later ones does
        refine once_notes.append_silent (hsilent.append (silent_rounds hnext fuel ?_))
        intro j hj hlater
        exact honce n j le_rfl (by omega) (hall j hlater) hsend
      · have hrest : NotifiesOnce (retryRounds procs refuses fuel (n + 1) [next]) := by
          refine ih hnext ?_
          intro i j hi hij hlater
          exact honce i j (by omega) hij (hall j hlater)
        rw [notes_refused hsend, List.nil_append]
        exact hrest.silent_append hsilent
    · obtain ⟨rest, hsilent, hrounds⟩ := rounds_ended hdue hretried
      rw [hrounds]
      exact once_notes.append_silent hsilent

/-- A reached round with its first record taken sends it. -/
theorem one_le_sends {j fuel : ℕ} (hj : n ≤ j)
    (hreached : ∀ m, n ≤ m → m < j → RetriedAt procs refuses x m)
    (hsend : refuses j sendTopic = none) (hfuel : j < n + fuel) :
    1 ≤ (sentOn sendTopic (retryRounds procs refuses fuel n [record])).length := by
  induction fuel generalizing n record env with
  | zero => omega
  | succ fuel ih =>
    rcases Nat.eq_or_lt_of_le hj with rfl | hlt
    · by_cases hretried : RetriedAt procs refuses x n
      · obtain ⟨next, -, -, hrounds⟩ := rounds_retried hdue hretried
        rw [hrounds, sentOn_append, sends_notes hsend, List.length_append]
        exact Nat.le_add_right 1 _
      · obtain ⟨rest, -, hrounds⟩ := rounds_ended hdue hretried
        rw [hrounds, sentOn_append, sends_notes hsend, List.length_append]
        exact Nat.le_add_right 1 _
    · obtain ⟨next, hnext, hsilent, hrounds⟩ :=
        rounds_retried hdue (hreached n le_rfl hlt)
      have hrest := ih hnext hlt (fun m hm => hreached m (by omega)) (by omega)
      rw [hrounds, sentOn_append, sentOn_append, List.length_append, List.length_append]
      omega

/-- Two such rounds send two. -/
theorem two_le_sends {i j fuel : ℕ} (hi : n ≤ i) (hij : i < j)
    (hreached : ∀ m, n ≤ m → m < j → RetriedAt procs refuses x m)
    (hfirst : refuses i sendTopic = none) (hsecond : refuses j sendTopic = none)
    (hfuel : j < n + fuel) :
    2 ≤ (sentOn sendTopic (retryRounds procs refuses fuel n [record])).length := by
  induction fuel generalizing n record env with
  | zero => omega
  | succ fuel ih =>
    obtain ⟨next, hnext, hsilent, hrounds⟩ :=
      rounds_retried hdue (hreached n le_rfl (by omega))
    have hlater : ∀ m, n + 1 ≤ m → m < j → RetriedAt procs refuses x m :=
      fun m hm => hreached m (by omega)
    rw [hrounds, sentOn_append, sentOn_append, List.length_append, List.length_append]
    rcases Nat.eq_or_lt_of_le hi with rfl | hlt
    · have hrest := one_le_sends hnext (by omega) hlater hsecond (by omega : j < n + 1 + fuel)
      rw [sends_notes hfirst, List.length_singleton]
      omega
    · have hrest := ih hnext hlt hlater (by omega)
      omega

/-- The other way round, two rounds that notify show up in the log. -/
theorem not_once_of_twice {i j : ℕ} (hi : n ≤ i) (hij : i < j)
    (hreached : ∀ m, n ≤ m → m < j → RetriedAt procs refuses x m)
    (hfirst : refuses i sendTopic = none) (hsecond : refuses j sendTopic = none) :
    ¬ ∀ fuel, NotifiesOnce (retryRounds procs refuses fuel n [record]) := by
  intro honce
  have htwo := two_le_sends hdue hi hij hreached hfirst hsecond
    (by omega : j < n + (j + 1))
  have hone := (honce (j + 1)).send
  omega

end Rounds

section Keyless

variable {procs : ℕ → Process} {refuses : ℕ → String → Option JsThrow} {record : KafkaRecord}
  {envelope : JsVal} {n : ℕ}

/-- An event without a key is not announced, and not put back either. -/
theorem publishedBy_keyless (proc : Process) (refused : String → Option JsThrow)
    (hx : extractEnvelope record.value = .ok envelope)
    (hkey : ¬ ∃ key, resolvePartitionKey envelope = .ok key) :
    ∀ r ∈ publishedBy proc refused record, r.topic = deadTopic := by
  let S : Op → Prop := fun op => ∀ r, op = .emit r → r.topic = deadTopic
  have hkeyless : ∀ v : JsVal, (v.get "payload").get "orderId" =
      (envelope.get "payload").get "orderId" → ∀ key, resolvePartitionKey v ≠ .ok key := by
    intro v horder key hresolved
    obtain ⟨hstr, hne⟩ := getPartitionKey_eq_ok.mp hresolved
    rw [horder] at hstr
    exact hkey ⟨key, getPartitionKey_eq_ok.mpr ⟨hstr, hne⟩⟩
  have hhandler : (RetriedHandler.notificationStockReserved.handler proc envelope).Performs S := by
    apply performs_notificationStockReserved
    · exact fun key hsend => absurd hsend (hkeyless (announcedSend proc envelope) rfl key)
    · exact fun key hsent => absurd hsent (hkeyless (announcedSent proc envelope) rfl key)
  have hexecuted : (RetriedHandler.notificationStockReserved.execute proc envelope
      (parseKafkaHeaders proc.drivers record.headers)
      (RetriedHandler.notificationStockReserved.handler proc envelope)).Performs S := by
    refine performs_execute (fun ms r hr => by cases hr) ?_ ?_ hhandler
    · intro key m hcopy
      exact absurd hcopy (hkeyless _ rfl key)
    · intro failed failure _ _ r hr
      obtain rfl := Op.emit.inj hr
      rfl
  obtain ⟨rest, hlog, hrest⟩ := log_of_performs (c := ()) (w := World.empty) hexecuted
  rw [publishedBy_eq hx, hlog]
  exact hrest

theorem silent_keyless (fuel : ℕ) (hx : extractEnvelope record.value = .ok envelope)
    (hkey : ¬ ∃ key, resolvePartitionKey envelope = .ok key) :
    Silent (retryRounds procs refuses fuel n [record]) := by
  cases fuel with
  | zero => exact silent_nil
  | succ fuel =>
    have hdead := publishedBy_keyless (procs n) (refuses n) hx hkey
    have hpending : sentOn RetriedHandler.notificationStockReserved.topic
        (publishedBy (procs n) (refuses n) record) = [] := by
      refine sentOn_eq_nil fun r hr => ?_
      rw [hdead r hr]
      decide
    have hrounds : retryRounds procs refuses (fuel + 1) n [record] =
        publishedBy (procs n) (refuses n) record := by
      rw [retryRounds, hpending]
      cases fuel <;> simp [retryRounds]
    rw [hrounds]
    refine silent_of_topics fun r hr => ?_
    rw [hdead r hr]
    decide

end Keyless

section Once

variable {procs : ℕ → Process} {refuses : ℕ → String → Option JsThrow} {record : KafkaRecord}
  {envelope : JsVal}

/-- The count that a message starts with. -/
def firstCount (proc : Process) (record : KafkaRecord) : Number :=
  getRetryCount (parseKafkaHeaders proc.drivers record.headers)

/-- Two rounds are reached in which `notification.send` is taken. -/
def NotifiedTwice (procs : ℕ → Process) (refuses : ℕ → String → Option JsThrow) (x : Number) : Prop :=
  ∃ i j, i < j ∧ (∀ n < j, RetriedAt procs refuses x n) ∧
    refuses i sendTopic = none ∧ refuses j sendTopic = none

theorem due_first {key id : String} (proc : Process)
    (hx : extractEnvelope record.value = .ok envelope) (ht : Typed envelope)
    (hkey : resolvePartitionKey envelope = .ok key) (hid : envelope.get "eventId" = .str id) :
    Due proc envelope key id record (firstCount proc record) := by
  have hread : RetriedHandler.notificationStockReserved.read record.value =
      .ok (.accepted envelope) := congrArg (Except.map ParseResult.accepted) hx
  exact ⟨carries_any hread, ht, hkey, hid⟩

/-- Retrying an event notifies once exactly when no two of its rounds get their first
record through, each after the other has failed. -/
theorem notifies_once_iff (hx : extractEnvelope record.value = .ok envelope)
    (ht : Typed envelope) :
    (∀ fuel, NotifiesOnce (retryRounds procs refuses fuel 0 [record])) ↔
      ((∃ key, resolvePartitionKey envelope = .ok key) →
        ¬ NotifiedTwice procs refuses (firstCount (procs 0) record)) := by
  obtain ⟨id, hid⟩ := ht.eventId
  by_cases hkeyed : ∃ key, resolvePartitionKey envelope = .ok key
  · obtain ⟨key, hkey⟩ := hkeyed
    have hdue : Due (procs 0) envelope key id record
        (Number.succ^[0] (firstCount (procs 0) record)) := due_first (procs 0) hx ht hkey hid
    constructor
    · intro honce _ htwice
      obtain ⟨i, j, hij, hreached, hfirst, hsecond⟩ := htwice
      exact not_once_of_twice hdue (Nat.zero_le i) hij (fun m _ => hreached m) hfirst hsecond honce
    · intro hnot fuel
      refine once_rounds hdue fuel ?_
      intro i j _ hij hreached hfirst hsecond
      exact hnot ⟨key, hkey⟩
        ⟨i, j, hij, fun m hm => hreached m (Nat.zero_le m) hm, hfirst, hsecond⟩
  · constructor
    · intro _ hkey
      exact absurd hkey hkeyed
    · intro _ fuel
      exact (silent_keyless fuel hx hkeyed).once

/-- A reservation as stock-service announces it. -/
def reservedEnvelope : JsVal :=
  .obj [("eventId", .str "e-1"), ("eventType", .str EventType.stockReserved.value),
    ("correlationId", .str "o-1"), ("payload", .obj [("orderId", .str "o-1")])]

def reservedRecord : KafkaRecord where
  topic := EventType.stockReserved.value
  key := .str "o-1"
  value := .value reservedEnvelope
  headers := []

theorem typed_reservedEnvelope : Typed reservedEnvelope := ⟨by decide, ⟨_, rfl⟩, ⟨_, rfl⟩⟩

def brokerDown : JsThrow := .error "KafkaJSConnectionError" "broker down"

/-- The broker refuses one topic in the first round, and nothing after that. -/
def refusesFirst (topic : String) (n : ℕ) (t : String) : Option JsThrow :=
  if n = 0 ∧ t = topic then some brokerDown else none

theorem refusal_refusesFirst {topic : String} {n : ℕ} (h : n ≠ 0) :
    refusal (refusesFirst topic n) = none := by
  simp [refusal, refusesFirst, h]

/-- A reservation whose `notification.send` is refused once. -/
theorem notifies_once_sendRefused : NotifiesOnce
    (retryRounds (fun _ => .still .first .half) (refusesFirst sendTopic) 3 0
      [reservedRecord]) := by
  refine (notifies_once_iff rfl typed_reservedEnvelope).mpr ?_ 3
  intro _ htwice
  obtain ⟨i, j, hij, hreached, hfirst, -⟩ := htwice
  have hi : i ≠ 0 := by
    intro hzero
    rw [hzero] at hfirst
    cases hfirst
  obtain ⟨e, text, hfails, -⟩ := (hreached i hij).fails
  rw [refusal_refusesFirst hi] at hfails
  cases hfails

/-- When `notification.sent` is refused, the next round sends again. -/
theorem resent_after_refused : ¬ ∀ fuel, NotifiesOnce
    (retryRounds (fun _ => .still .first .half) (refusesFirst sentTopic) fuel 0
      [reservedRecord]) := by
  let procs : ℕ → Process := fun _ => .still .first .half
  have hdue : Due (procs 0) reservedEnvelope "o-1" "e-1" reservedRecord
      (Number.succ^[0] (firstCount (procs 0) reservedRecord)) :=
    due_first (procs 0) rfl typed_reservedEnvelope rfl rfl
  have hretried : RetriedAt procs (refusesFirst sentTopic) (firstCount (procs 0) reservedRecord) 0 :=
    ⟨⟨brokerDown, "broker down", rfl, rfl⟩, by decide +kernel, rfl⟩
  refine not_once_of_twice hdue le_rfl Nat.zero_lt_one ?_ rfl rfl
  intro m _ hm
  obtain rfl : m = 0 := by omega
  exact hretried

end Once

end EventFlow.Retry
