import EventFlow.Retry.Reply

namespace EventFlow.Retry

open Js Shared Services KafkaRetryExecutor

/-- What a handler throws: an `Error`, or a value that `String` accepts. -/
def HandlerError := { e : JsThrow // ∃ text, errorText e = .ok text }

/-- A handler that is entered and ends as scripted. -/
def scriptedHandler (result : Option HandlerError) : Promise Unit := do
  Async.perform Op.handler
  match result with
  | some e => .reject e.1
  | none => .resolve ()

/-- What `execute` is called with on a delivery. -/
def Group.params (g : Group) (result : Option HandlerError) (record : KafkaRecord)
    (envelope : JsVal) : ExecuteWithRetryParams where
  eventType := g.eventType
  envelope := envelope
  headers := parseKafkaHeaders g.drivers record.headers
  handler := scriptedHandler result

/-- Read the message, then run the handler inside the executor. -/
def Group.consume (g : Group) (proc : Process) (result : Option HandlerError)
    (record : KafkaRecord) : Promise JsVal :=
  consumeParsed (g.handler.read record.value) ackInvalidDetails
    (fun reason _ => ackSkippedReason reason) fun envelope =>
      ackExecuted (g.executor.execute proc (g.params result record envelope))

/-- One delivery of a record: the count it was read with, what was done, the end. -/
structure Delivery where
  count : Number
  ops : List Op
  result : Except JsThrow JsVal

/-- Every operation of a delivery settles well but what the libraries refuse. -/
def Group.deliver (g : Group) (proc : Process) (result : Option HandlerError)
    (record : KafkaRecord) : Delivery :=
  let ran := (g.consume proc result record).run (World.settle () g.drivers.refusal) World.empty
  { count := getRetryCount (parseKafkaHeaders g.drivers record.headers)
    ops := ran.2.trace.map Prod.snd
    result := ran.1 }

/-- The records a delivery puts on a topic. -/
def Delivery.sent (d : Delivery) (topic : String) : List KafkaRecord :=
  (d.ops.filterMap World.emitted).filter fun r => r.topic = topic

/-- Every record that comes back on the topic is delivered once, in order. -/
def Group.chain (g : Group) (procs : ℕ → Process) (script : ℕ → Option HandlerError) :
    ℕ → ℕ → List KafkaRecord → List Delivery
  | 0, _, _ | _, _, [] => []
  | fuel + 1, n, record :: pending =>
    let d := g.deliver (procs n) (script n) record
    d :: g.chain procs script fuel (n + 1) (pending ++ d.sent (resolveKafkaTopic g.eventType))

def isHandler : Op → Bool
  | .handler => true
  | _ => false

def handlerRuns (ds : List Delivery) : ℕ := (ds.map fun d => d.ops.countP isHandler).sum

def recordsOn (topic : String) (ds : List Delivery) : List KafkaRecord :=
  (ds.map fun d => d.sent topic).flatten

/-- How the executor ends on an envelope, for each end of its handler. -/
def Group.reply (g : Group) (envelope : JsVal) (attempt : Number) :
    Option HandlerError → Except JsThrow RetryOutcome
  | none => .ok .success
  | some _ => g.answer envelope attempt

/-- The acknowledgement of a reply, or its rejection. -/
def ack (x : Except JsThrow RetryOutcome) : Except JsThrow JsVal := x.map fun o => ackOutcome o.value

/-- Which attempt a delivery of the record is. -/
def attemptOf (drivers : Drivers) (record : KafkaRecord) : Number :=
  (getRetryCount (parseKafkaHeaders drivers record.headers)).succ

section Counts

variable {drivers : Drivers} {headers : List (String × JsVal)} {x : Number}

/-- Whatever the headers say, the count is a finite double. -/
theorem isCount_getRetryCount (headers : List (String × String)) :
    (getRetryCount headers).IsCount := by
  have hzero : (0 : Number).IsCount := Number.isCount_ofNat (n := 0) (by decide)
  unfold getRetryCount numericHeader
  split
  · exact hzero
  · split_ifs with hempty hfin
    · exact hzero
    · rw [Number.isFinite_rounded] at hfin
      exact Number.isCount_rounded hfin
    · exact hzero

theorem attemptOf_ne_nan (drivers : Drivers) (record : KafkaRecord) :
    attemptOf drivers record ≠ .nan := Number.succ_ne_nan (isCount_getRetryCount _)

/-- The count header of a republished record reads back as it was set. -/
theorem getRetryCount_of_lookup (hx : x.IsCount)
    (hlookup : headers.lookup headerRetryCount = some (.str x.toText)) :
    getRetryCount (parseKafkaHeaders drivers (encodeHeaders headers)) = x := by
  obtain ⟨q, hq, rfl, hdouble⟩ := hx
  have hread : (Number.ofText (Number.toText (.fin q hq))).rounded = .fin q hq := by
    rw [ofText_toText hq (isDecimal_of_isFloat hdouble), Number.rounded_of_isDouble hq hdouble]
  rw [getRetryCount, numericHeader, lookup_parse_encode hlookup]
  simp only [if_neg (toText_ne_empty hq), hread, Number.isFinite_fin, if_true, Option.getD_some]

theorem lookup_retryHeaders {ex : KafkaRetryExecutor} {proc : Process} {t : EventType}
    {envelope : JsVal} {n : Number} :
    (spread (envelopeToKafkaHeaders envelope) (ex.retryHeaders proc t envelope n)).lookup
      headerRetryCount = some (.str n.toText) := by
  have hnd : ((ex.retryHeaders proc t envelope n).map Prod.fst).Nodup :=
    nodup_buildRetryHeaders (nodup_envelopeToKafkaHeaders envelope)
  rw [lookup_spread _ _ _ hnd, retryHeaders, lookup_buildRetryHeaders_count]
  rfl

end Counts

/-- A record whose envelope the group can handle, read with a count. -/
structure Carries (g : Group) (record : KafkaRecord) (envelope : JsVal) (x : Number) : Prop where
  read : g.handler.read record.value = .ok (.accepted envelope)
  count : getRetryCount (parseKafkaHeaders g.drivers record.headers) = x

section Delivery

variable {g : Group} {record : KafkaRecord} {envelope : JsVal} {key : String} {x : Number}
  {proc : Process} {script : Option HandlerError}

/-- Any record that can be read carries its envelope, with some count. -/
theorem carries_any (hread : g.handler.read record.value = .ok (.accepted envelope)) :
    Carries g record envelope (getRetryCount (parseKafkaHeaders g.drivers record.headers)) :=
  ⟨hread, rfl⟩

theorem Carries.isCount (hc : Carries g record envelope x) : x.IsCount := by
  rw [← hc.count]
  exact isCount_getRetryCount _

theorem Carries.attempt (hc : Carries g record envelope x) :
    attemptOf g.drivers record = x.succ := by
  rw [attemptOf, hc.count]

/-- A record that comes back carries the same envelope, with the next count. -/
theorem carries_retryRecord {g' : Group} (hc : Carries g' record envelope x)
    (hp : Parsed envelope) {n : Number} (hn : n.IsCount) :
    Carries g' (g.retryRecord proc key envelope n) envelope.wire n :=
  ⟨hp.read_wire hc.read, getRetryCount_of_lookup hn lookup_retryHeaders⟩

theorem run_scriptedHandler_ok {drivers : Drivers} {w : World Unit} :
    (scriptedHandler none).run (World.settle () drivers.refusal) w =
      (.ok (), w.after () [.handler]) :=
  run_bind_ok (run_perform_ok rfl)

theorem run_scriptedHandler_error {drivers : Drivers} {w : World Unit} {e : HandlerError} :
    (scriptedHandler (some e)).run (World.settle () drivers.refusal) w =
      (.error e.1, w.after () [.handler]) :=
  run_bind_ok (run_perform_ok rfl)

/-- The executor runs the handler after its wait, and does what follows from its end. -/
theorem run_execute_reply (hc : Carries g record envelope x) (proc : Process)
    (script : Option HandlerError) (hfin : g.policy.maxAttempts.isFinite = true) :
    ∃ ops, Follows g proc envelope x.succ (g.reply envelope x.succ script) ops ∧
      (g.executor.execute proc (g.params script record envelope)).run
        (World.settle () g.drivers.refusal) World.empty = (g.reply envelope x.succ script,
          World.empty.after () (waitOps proc (parseKafkaHeaders g.drivers record.headers) ++
            .handler :: ops)) := by
  have hsleep := refusal_sleep g.drivers
  cases script with
  | none =>
    refine ⟨[], .success, ?_⟩
    rw [World.after_append]
    exact run_execute_ok _ _ _ hsleep run_scriptedHandler_ok
  | some e =>
    obtain ⟨text, htext⟩ := e.2
    have hnext : nextAttempt (g.params (some e) record envelope) = x.succ := hc.attempt
    have hnan : nextAttempt (g.params (some e) record envelope) ≠ .nan := attemptOf_ne_nan _ _
    obtain ⟨ops, hops, hrun⟩ := run_onFailure proc () rfl hnan hfin htext
    rw [hnext] at hops hrun
    refine ⟨ops, hops, ?_⟩
    rw [run_execute_error _ _ _ hsleep run_scriptedHandler_error, hrun, World.after_append,
      ← World.after_append]
    rfl

/-- What a delivery does, and how it ends. -/
theorem Group.deliver_reply (hc : Carries g record envelope x) (proc : Process)
    (script : Option HandlerError) (hfin : g.policy.maxAttempts.isFinite = true) :
    ∃ ops, Follows g proc envelope x.succ (g.reply envelope x.succ script) ops ∧
      g.deliver proc script record =
        { count := x
          ops := waitOps proc (parseKafkaHeaders g.drivers record.headers) ++ .handler :: ops
          result := ack (g.reply envelope x.succ script) } := by
  obtain ⟨ops, hops, hrun⟩ := run_execute_reply hc proc script hfin
  refine ⟨ops, hops, ?_⟩
  have hconsume : (g.consume proc script record).run (World.settle () g.drivers.refusal)
      World.empty = (ack (g.reply envelope x.succ script), World.empty.after ()
        (waitOps proc (parseKafkaHeaders g.drivers record.headers) ++ .handler :: ops)) := by
    rw [Group.consume, hc.read, consumeParsed, ackExecuted, Async.bind_eq, Async.run_bind, hrun]
    cases g.reply envelope x.succ script <;> rfl
  rw [Group.deliver, hconsume]
  simp only [World.after_trace, World.empty, List.nil_append, List.map_map, Delivery.mk.injEq,
    hc.count, true_and, and_true]
  exact List.map_id _

end Delivery

theorem resolve_ne_toDlq (t : EventType) :
    resolveKafkaTopic t ≠ toDlqTopic (resolveKafkaTopic t) := by
  cases t <;> decide

/-- On the counts of a message an attempt is left below the limit. -/
theorem shouldRetry_counted {policy : RetryPolicyConfig}
    (hfin : policy.maxAttempts.isFinite = true) (n : ℕ) :
    shouldRetry (.counted (n + 1)) policy =
      decide (Nat.min (n + 1) (2 ^ 53) < attemptLimit policy) := by
  apply shouldRetry_eq hfin
  exact Nat.le_min.mpr ⟨Nat.succ_pos n, by decide⟩

theorem shouldRetry_counted_of_lt {policy : RetryPolicyConfig}
    (hfin : policy.maxAttempts.isFinite = true) {n : ℕ} (h : n + 1 < attemptLimit policy) :
    shouldRetry (.counted (n + 1)) policy = true := by
  rw [shouldRetry_counted hfin]
  exact decide_eq_true ((Nat.min_le_left _ _).trans_lt h)

section Sent

variable {waits ops : List Op} {count : Number} {topic : String} {r : KafkaRecord}
  {out : Except JsThrow JsVal}

theorem countP_waits (hw : Waits waits) :
    (waits ++ ops).countP isHandler = ops.countP isHandler := by
  have hzero : waits.countP isHandler = 0 := by
    refine List.countP_eq_zero.mpr fun op hop => ?_
    obtain ⟨ms, rfl⟩ := hw op hop
    exact Bool.false_ne_true
  rw [List.countP_append, hzero, Nat.zero_add]

theorem filterMap_of_waits (hw : Waits waits) :
    (waits ++ ops).filterMap World.emitted = ops.filterMap World.emitted := by
  rw [List.filterMap_append, emitted_of_waits hw, List.nil_append]

/-- What a delivery with one record leaves on a topic. -/
theorem sent_of_emitted (h : ops.filterMap World.emitted = [r]) :
    Delivery.sent ⟨count, ops, out⟩ topic = if r.topic = topic then [r] else [] := by
  rw [Delivery.sent, h, List.filter_singleton]
  by_cases ht : r.topic = topic <;> simp [ht]

end Sent

/-- What a delivery does, as its reply says. -/
structure Answers (g : Group) (proc : Process) (envelope : JsVal) (x : Number)
    (script : Option HandlerError) (d : Delivery) : Prop where
  count : d.count = x
  runs : d.ops.countP isHandler = 1
  result : d.result = ack (g.reply envelope x.succ script)
  retried : g.reply envelope x.succ script = .ok .retry → ∃ key waits,
    resolvePartitionKey envelope = .ok key ∧ Waits waits ∧ d.ops = waits ++ [.handler,
      .sleep (calculateBackoffMs x.succ g.policy), .emit (g.retryRecord proc key envelope x.succ)]
  buried : g.reply envelope x.succ script = .ok .dlq → ∃ r waits,
    FailureRecord g envelope x.succ r ∧ Waits waits ∧ d.ops = waits ++ [.handler, .emit r]
  silent : g.reply envelope x.succ script ≠ .ok .retry →
    g.reply envelope x.succ script ≠ .ok .dlq → d.ops.filterMap World.emitted = []

section Answers

variable {g : Group} {record : KafkaRecord} {envelope : JsVal} {x : Number} {proc : Process}
  {script : Option HandlerError} {d : Delivery}

theorem deliver_answers (hc : Carries g record envelope x) (proc : Process)
    (script : Option HandlerError) (hfin : g.policy.maxAttempts.isFinite = true) :
    Answers g proc envelope x script (g.deliver proc script record) := by
  have hw := waits_waitOps proc (parseKafkaHeaders g.drivers record.headers)
  obtain ⟨ops, hops, hd⟩ := Group.deliver_reply hc proc script hfin
  rw [hd]
  generalize hreply : g.reply envelope x.succ script = end_ at hops
  constructor
  · rfl
  · rw [countP_waits hw]
    cases hops with
    | success => rfl
    | retry hkey => rfl
    | dlq hr => rfl
    | rejected hwaits =>
      have hzero : (ops ++ []).countP isHandler = 0 := countP_waits hwaits
      rw [List.append_nil] at hzero
      rw [List.countP_cons, hzero]
      rfl
  · rw [hreply]
  · intro hretry
    obtain rfl := hreply.symm.trans hretry
    cases hops with
    | retry hkey => exact ⟨_, _, hkey, hw, rfl⟩
  · intro hdlq
    obtain rfl := hreply.symm.trans hdlq
    cases hops with
    | dlq hr => exact ⟨_, _, hr, hw, rfl⟩
  · intro hretry hdlq
    rw [hreply] at hretry hdlq
    rw [filterMap_of_waits hw]
    cases hops with
    | success => rfl
    | retry hkey => exact absurd rfl hretry
    | dlq hr => exact absurd rfl hdlq
    | @rejected e ops hwaits =>
      change ops.filterMap World.emitted = []
      exact emitted_of_waits hwaits

/-- A failed run with a copy. -/
theorem Answers.sent_retry (h : Answers g proc envelope x script d)
    (hreply : g.reply envelope x.succ script = .ok .retry) :
    ∃ key, resolvePartitionKey envelope = .ok key ∧
      d.sent (resolveKafkaTopic g.eventType) = [g.retryRecord proc key envelope x.succ] ∧
      d.sent (toDlqTopic (resolveKafkaTopic g.eventType)) = [] := by
  obtain ⟨key, waits, hkey, hw, hops⟩ := h.retried hreply
  obtain ⟨count, ops, result⟩ := d
  change ops = _ at hops
  subst hops
  have hone : (waits ++ [Op.handler, .sleep (calculateBackoffMs x.succ g.policy),
      .emit (g.retryRecord proc key envelope x.succ)]).filterMap World.emitted =
        [g.retryRecord proc key envelope x.succ] := filterMap_of_waits hw
  refine ⟨key, hkey, ?_, ?_⟩
  · rw [sent_of_emitted hone]
    exact if_pos rfl
  · rw [sent_of_emitted hone]
    exact if_neg (resolve_ne_toDlq _)

/-- A failed run with a failure record. -/
theorem Answers.sent_dlq (h : Answers g proc envelope x script d)
    (hreply : g.reply envelope x.succ script = .ok .dlq) :
    ∃ r, FailureRecord g envelope x.succ r ∧ d.sent (resolveKafkaTopic g.eventType) = [] ∧
      d.sent (toDlqTopic (resolveKafkaTopic g.eventType)) = [r] ∧
      d.ops.getLast? = some (.emit r) := by
  obtain ⟨r, waits, hr, hw, hops⟩ := h.buried hreply
  obtain ⟨count, ops, result⟩ := d
  change ops = _ at hops
  subst hops
  have hone : (waits ++ [Op.handler, .emit r]).filterMap World.emitted = [r] := filterMap_of_waits hw
  refine ⟨r, hr, ?_, ?_, by simp⟩
  · rw [sent_of_emitted hone, hr.topic]
    exact if_neg (resolve_ne_toDlq _).symm
  · rw [sent_of_emitted hone, if_pos hr.topic]

/-- Any other run sends nothing. -/
theorem Answers.sent_nil (h : Answers g proc envelope x script d)
    (hretry : g.reply envelope x.succ script ≠ .ok .retry)
    (hdlq : g.reply envelope x.succ script ≠ .ok .dlq) (topic : String) : d.sent topic = [] := by
  rw [Delivery.sent, h.silent hretry hdlq, List.filter_nil]

theorem Answers.sent_own (h : Answers g proc envelope x script d)
    (hretry : g.reply envelope x.succ script ≠ .ok .retry) :
    d.sent (resolveKafkaTopic g.eventType) = [] := by
  by_cases hdlq : g.reply envelope x.succ script = .ok .dlq
  · obtain ⟨r, -, hown, -⟩ := h.sent_dlq hdlq
    exact hown
  · exact h.sent_nil hretry hdlq _

/-- Another attempt is a failed run with attempts left. -/
theorem reply_retry_iff : g.reply envelope x script = .ok .retry ↔ script.isSome = true ∧
    shouldRetry x g.policy = true ∧ (∃ key, resolvePartitionKey envelope = .ok key) ∧
      g.Answerable envelope x := by
  cases script with
  | none => simp [Group.reply]
  | some e => simp [Group.reply, answer_retry_iff]

theorem reply_dlq_iff : g.reply envelope x script = .ok .dlq ↔ script.isSome = true ∧
    shouldRetry x g.policy = false ∧ g.Answerable envelope x := by
  cases script with
  | none => simp [Group.reply]
  | some e => simp [Group.reply, answer_dlq_iff]

/-- The count of the next round can be sent and read. -/
theorem isCount_of_retry (hx : x.IsCount) (h : g.reply envelope x.succ script = .ok .retry) :
    x.succ.IsCount := Number.isCount_succ hx (reply_retry_iff.mp h).2.1

end Answers

section Chain

variable {g : Group} {procs : ℕ → Process} {script : ℕ → Option HandlerError} {record : KafkaRecord}
  {envelope : JsVal} {x : Number} {fuel n : ℕ}

theorem handlerRuns_cons (d : Delivery) (ds : List Delivery) :
    handlerRuns (d :: ds) = d.ops.countP isHandler + handlerRuns ds := by
  rw [handlerRuns, handlerRuns, List.map_cons, List.sum_cons]

theorem recordsOn_cons (topic : String) (d : Delivery) (ds : List Delivery) :
    recordsOn topic (d :: ds) = d.sent topic ++ recordsOn topic ds := by
  rw [recordsOn, recordsOn, List.map_cons, List.flatten_cons]

theorem chain_nil (g : Group) (procs : ℕ → Process) (script : ℕ → Option HandlerError)
    (fuel n : ℕ) : g.chain procs script fuel n [] = [] := by
  cases fuel <;> rfl

/-- After a round that is retried its copy is delivered. -/
theorem chain_retry (hc : Carries g record envelope x) (hp : Parsed envelope)
    (hfin : g.policy.maxAttempts.isFinite = true)
    (hreply : g.reply envelope x.succ (script n) = .ok .retry) :
    ∃ copy, Carries g copy envelope.wire x.succ ∧
      g.chain procs script (fuel + 1) n [record] =
        g.deliver (procs n) (script n) record :: g.chain procs script fuel (n + 1) [copy] := by
  obtain ⟨key, -, hsent, -⟩ := (deliver_answers hc (procs n) (script n) hfin).sent_retry hreply
  refine ⟨g.retryRecord (procs n) key envelope x.succ,
    carries_retryRecord hc hp (isCount_of_retry hc.isCount hreply), ?_⟩
  rw [Group.chain, hsent, List.nil_append]

/-- Any other round is the last. -/
theorem chain_last (hc : Carries g record envelope x)
    (hfin : g.policy.maxAttempts.isFinite = true)
    (hreply : g.reply envelope x.succ (script n) ≠ .ok .retry) :
    g.chain procs script (fuel + 1) n [record] = [g.deliver (procs n) (script n) record] := by
  have hsent := (deliver_answers hc (procs n) (script n) hfin).sent_own hreply
  rw [Group.chain, hsent, List.nil_append, chain_nil]

end Chain

/-- A message that no retry round has touched. -/
def Fresh (record : KafkaRecord) : Prop := headerRetryCount ∉ record.headers.map Prod.fst

theorem carries_fresh {g : Group} {record : KafkaRecord} {envelope : JsVal}
    (hread : g.handler.read record.value = .ok (.accepted envelope)) (hfresh : Fresh record) :
    Carries g record envelope 0 := by
  refine ⟨hread, ?_⟩
  have hnone : (parseKafkaHeaders g.drivers record.headers).lookup headerRetryCount = none := by
    apply lookup_eq_none_of_notMem
    intro hmem
    obtain ⟨entry, hentry, hname⟩ := List.mem_map.mp hmem
    obtain ⟨header, hheader, htext⟩ := List.mem_filterMap.mp hentry
    obtain ⟨text, -, rfl⟩ := Option.map_eq_some_iff.mp htext
    exact hfresh (List.mem_map.mpr ⟨header, hheader, hname⟩)
  rw [getRetryCount, numericHeader, hnone, Option.getD_none]

end EventFlow.Retry
