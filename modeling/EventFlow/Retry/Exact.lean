import EventFlow.Retry.Chain
import EventFlow.Shared.RetryEnvironment

namespace EventFlow.Retry

open Js Shared Services KafkaRetryExecutor

/-- A failed round that was read with a count: its copy follows the backoff of the next one. -/
structure RetryRound (g : Group) (x : Number) (d : Delivery) : Prop where
  count : d.count = x
  runs : d.ops.countP isHandler = 1
  sent : ∃ r waits, d.sent (resolveKafkaTopic g.eventType) = [r] ∧ Waits waits ∧
    d.ops = waits ++ [.handler, .sleep (calculateBackoffMs x.succ g.policy), .emit r]
  quiet : d.sent (toDlqTopic (resolveKafkaTopic g.eventType)) = []

theorem Answers.retryRound {g : Group} {proc : Process} {envelope : JsVal} {x : Number}
    {script : Option HandlerError} {d : Delivery} (h : Answers g proc envelope x script d)
    (hreply : g.reply envelope x.succ script = .ok .retry) : RetryRound g x d := by
  obtain ⟨key, waits, hkey, hw, hops⟩ := h.retried hreply
  obtain ⟨key', hkey', hown, hdlq⟩ := h.sent_retry hreply
  obtain rfl : key = key' := Except.ok.inj (hkey.symm.trans hkey')
  exact ⟨h.count, h.runs, ⟨_, waits, hown, hw, hops⟩, hdlq⟩

/-- So many failed rounds from a count on, and one last delivery. -/
inductive Rounds (g : Group) (last : Delivery) : ℕ → Number → List Delivery → Prop
  | final {x} : Rounds g last 0 x [last]
  | round {m x d ds} : RetryRound g x d → Rounds g last m x.succ ds →
      Rounds g last (m + 1) x (d :: ds)

section Rounds

variable {g : Group} {last : Delivery} {m : ℕ} {x : Number} {ds : List Delivery}

theorem Rounds.length (h : Rounds g last m x ds) : ds.length = m + 1 := by
  induction h with
  | final => rfl
  | round _ _ ih => rw [List.length_cons, ih]

/-- Every delivery runs the handler once. -/
theorem Rounds.handlerRuns_eq (h : Rounds g last m x ds)
    (hlast : last.ops.countP isHandler = 1) : handlerRuns ds = m + 1 := by
  induction h with
  | final => rw [handlerRuns_cons, hlast]; rfl
  | round hr _ ih =>
    rw [handlerRuns_cons, hr.runs, ih]
    omega

/-- Every failed round republishes once, and the last one does not. -/
theorem Rounds.republishes (h : Rounds g last m x ds)
    (hlast : last.sent (resolveKafkaTopic g.eventType) = []) :
    (recordsOn (resolveKafkaTopic g.eventType) ds).length = m := by
  induction h with
  | final => rw [recordsOn_cons, hlast]; rfl
  | round hr _ ih =>
    obtain ⟨r, -, hsent, -⟩ := hr.sent
    rw [recordsOn_cons, hsent, List.length_append, ih, List.length_singleton]
    omega

/-- Only the last delivery can leave a failure record. -/
theorem Rounds.buried (h : Rounds g last m x ds) :
    recordsOn (toDlqTopic (resolveKafkaTopic g.eventType)) ds =
      last.sent (toDlqTopic (resolveKafkaTopic g.eventType)) := by
  induction h with
  | final => rw [recordsOn_cons]; exact List.append_nil _
  | round hr _ ih => rw [recordsOn_cons, hr.quiet, ih, List.nil_append]

theorem Rounds.getLast (h : Rounds g last m x ds) : ds.getLast? = some last := by
  induction h with
  | final => rfl
  | round _ _ ih =>
    rw [List.getLast?_cons, ih]
    rfl

/-- A delivery is read with the count of the rounds before it. -/
theorem Rounds.count (h : Rounds g last m x ds) (hlast : last.count = Number.succ^[m] x) {i : ℕ}
    {d : Delivery} (hd : ds[i]? = some d) : d.count = Number.succ^[i] x := by
  induction h generalizing i with
  | final =>
    cases i with
    | zero =>
      obtain rfl := Option.some.inj hd
      exact hlast
    | succ i => cases hd
  | round hr _ ih =>
    cases i with
    | zero =>
      obtain rfl := Option.some.inj hd
      exact hr.count
    | succ i => exact ih hlast hd

/-- The `i`-th republish ends the `i`-th delivery, right after its backoff. -/
theorem Rounds.backoff (h : Rounds g last m x ds)
    (hlast : last.sent (resolveKafkaTopic g.eventType) = []) {i : ℕ} {r : KafkaRecord}
    (hr : (recordsOn (resolveKafkaTopic g.eventType) ds)[i]? = some r) :
    ∃ d waits, ds[i]? = some d ∧ Waits waits ∧ i < m ∧ d.ops = waits ++ [.handler,
      .sleep (calculateBackoffMs (Number.succ^[i + 1] x) g.policy), .emit r] := by
  induction h generalizing i with
  | final =>
    rw [recordsOn_cons, hlast] at hr
    cases hr
  | round hround _ ih =>
    obtain ⟨r₀, waits, hsent, hw, hops⟩ := hround.sent
    rw [recordsOn_cons, hsent] at hr
    cases i with
    | zero =>
      obtain rfl := Option.some.inj hr
      exact ⟨_, waits, rfl, hw, Nat.succ_pos _, hops⟩
    | succ i =>
      obtain ⟨d, waits, hd, hw, hlt, hops⟩ := ih hr
      exact ⟨d, waits, hd, hw, Nat.succ_lt_succ hlt, hops⟩

end Rounds

section Chain

variable {g : Group} {procs : ℕ → Process} {script : ℕ → Option HandlerError} {record : KafkaRecord}
  {envelope : JsVal} {x : Number} {fuel m n : ℕ}

/-- The copy of a retried message is a trip further. -/
theorem chain_retry_trips (hc : Carries g record (trips envelope n) x) (hp : Parsed envelope)
    (hfin : g.policy.maxAttempts.isFinite = true)
    (hreply : g.reply (trips envelope n) x.succ (script n) = .ok .retry) :
    ∃ copy, Carries g copy (trips envelope (n + 1)) x.succ ∧
      g.chain procs script (fuel + 1) n [record] =
        g.deliver (procs n) (script n) record :: g.chain procs script fuel (n + 1) [copy] := by
  rw [← trips_wire]
  exact chain_retry hc (hp.trips n) hfin hreply

/-- The chain of deliveries, round by round, up to one that is not retried. -/
theorem chain_rounds (hp : Parsed envelope) (hfin : g.policy.maxAttempts.isFinite = true)
    (hc : Carries g record (trips envelope n) x)
    (hretry : ∀ j < m, g.reply (trips envelope (n + j)) (Number.succ^[j + 1] x)
      (script (n + j)) = .ok .retry)
    (hlast : g.reply (trips envelope (n + m)) (Number.succ^[m + 1] x) (script (n + m)) ≠ .ok .retry)
    (hfuel : m < fuel) :
    ∃ last, Rounds g last m x (g.chain procs script fuel n [record]) ∧
      Answers g (procs (n + m)) (trips envelope (n + m)) (Number.succ^[m] x) (script (n + m)) last
    := by
  induction m generalizing fuel n record x with
  | zero =>
    obtain ⟨fuel, rfl⟩ : ∃ fuel', fuel = fuel' + 1 := ⟨fuel - 1, by omega⟩
    have hchain : g.chain procs script (fuel + 1) n [record] =
        [g.deliver (procs n) (script n) record] := chain_last hc hfin hlast
    rw [hchain]
    exact ⟨_, .final, deliver_answers hc _ _ hfin⟩
  | succ m ih =>
    obtain ⟨fuel, rfl⟩ : ∃ fuel', fuel = fuel' + 1 := ⟨fuel - 1, by omega⟩
    have hfirst := hretry 0 (Nat.succ_pos m)
    obtain ⟨copy, hcopy, hchain⟩ := chain_retry_trips hc hp hfin
      hfirst
    have hindex : ∀ j, n + (j + 1) = n + 1 + j := by
      intro j
      omega
    obtain ⟨last, hrounds, hanswers⟩ := ih hcopy
      (fun j hj => by
        have hnext := hretry (j + 1) (Nat.succ_lt_succ hj)
        rwa [hindex] at hnext)
      (by rwa [← hindex]) (Nat.lt_of_succ_lt_succ hfuel)
    rw [hindex, hchain]
    exact ⟨last, .round ((deliver_answers hc _ _ hfin).retryRound hfirst) hrounds, hanswers⟩

/-- As long as no round is answered by a failure record, there is none. -/
theorem chain_open (hp : Parsed envelope) (hfin : g.policy.maxAttempts.isFinite = true)
    (hc : Carries g record (trips envelope n) x)
    (hopen : ∀ j < fuel, g.reply (trips envelope (n + j)) (Number.succ^[j + 1] x)
      (script (n + j)) ≠ .ok .dlq) :
    recordsOn (toDlqTopic (resolveKafkaTopic g.eventType))
      (g.chain procs script fuel n [record]) = [] := by
  induction fuel generalizing n record x with
  | zero => rfl
  | succ fuel ih =>
    have hfirst := hopen 0 (Nat.succ_pos fuel)
    have hanswers := deliver_answers hc (procs n) (script n) hfin
    by_cases hretry : g.reply (trips envelope n) x.succ (script n) = .ok .retry
    · obtain ⟨copy, hcopy, hchain⟩ := chain_retry_trips hc hp hfin
        hretry
      rw [hchain, recordsOn_cons, (hanswers.retryRound hretry).quiet, List.nil_append]
      apply ih hcopy
      intro j hj
      have hnext := hopen (j + 1) (Nat.succ_lt_succ hj)
      rwa [show n + (j + 1) = n + 1 + j by omega] at hnext
    · rw [chain_last hc hfin hretry, recordsOn_cons, hanswers.sent_nil hretry hfirst]
      rfl

/-- What can be retried once can be answered at every later attempt. -/
theorem Group.Answerable.trips {attempt : Number} (hp : Parsed envelope)
    (h : g.Answerable envelope attempt) (hretry : shouldRetry attempt g.policy = true) (n : ℕ)
    (attempt' : Number) : g.Answerable (trips envelope n) attempt' := by
  have hencodes := h.encodes
  rw [hretry] at hencodes
  refine ⟨hp.loggable_trips h.loggable n, h.allowed, ?_⟩
  cases shouldRetry attempt' g.policy with
  | true => exact hp.encodes_trips hencodes n
  | false => exact encodes_failure (hp.encodes_trips hencodes n)

/-- How a failed round ends, when those before it were retried. -/
theorem reply_trips {key : String} {j : ℕ} (hp : Parsed envelope)
    (hkey : resolvePartitionKey envelope = .ok key) (hable : g.Answerable envelope x.succ)
    (hbefore : ∀ i < j, shouldRetry (Number.succ^[i + 1] x) g.policy = true)
    (hscript : (script j).isSome = true) :
    g.reply (Retry.trips envelope j) (Number.succ^[j + 1] x) (script j) =
      .ok (if shouldRetry (Number.succ^[j + 1] x) g.policy then .retry else .dlq) := by
  have hable' : g.Answerable (Retry.trips envelope j) (Number.succ^[j + 1] x) := by
    cases j with
    | zero => exact hable
    | succ j => exact hable.trips hp (hbefore 0 (Nat.succ_pos j)) _ _
  cases hretry : shouldRetry (Number.succ^[j + 1] x) g.policy with
  | true => exact reply_retry_iff.mpr ⟨hscript, hretry, ⟨key, resolvePartitionKey_trips hkey j⟩, hable'⟩
  | false => exact reply_dlq_iff.mpr ⟨hscript, hretry, hable'⟩

/-- Without an answer to the first failure there is no failure record. -/
theorem chain_unanswered (hfin : g.policy.maxAttempts.isFinite = true)
    (hc : Carries g record envelope x) (hnot : ¬ g.Answerable envelope x.succ) :
    g.chain procs script (fuel + 1) 0 [record] = [g.deliver (procs 0) (script 0) record] ∧
      (g.deliver (procs 0) (script 0) record).sent
        (toDlqTopic (resolveKafkaTopic g.eventType)) = [] := by
  have hretry : g.reply envelope x.succ (script 0) ≠ .ok .retry :=
    fun h => hnot (reply_retry_iff.mp h).2.2.2
  have hdlq : g.reply envelope x.succ (script 0) ≠ .ok .dlq :=
    fun h => hnot (reply_dlq_iff.mp h).2.2
  exact ⟨chain_last hc hfin hretry, (deliver_answers hc _ _ hfin).sent_nil hretry hdlq _⟩

end Chain

/-- The handler fails on its first `k` deliveries. -/
def failsFirst (k : ℕ) (errors : ℕ → HandlerError) (n : ℕ) : Option HandlerError :=
  if n < k then some (errors n) else none

/-- The deliveries of one message whose handler fails on the first `k`, under a
limit of `M` attempts. -/
structure ExactChain (policy : RetryPolicyConfig) (topic : String) (M k : ℕ)
    (ds : List Delivery) : Prop where
  succeeds : k < M → handlerRuns ds = k + 1 ∧
    (recordsOn topic ds).length = k ∧
    recordsOn (toDlqTopic topic) ds = []
  exhausts : M ≤ k → handlerRuns ds = M ∧
    (recordsOn topic ds).length = M - 1 ∧
    ∃ r last, recordsOn (toDlqTopic topic) ds = [r] ∧
      ds.getLast? = some last ∧ last.ops.getLast? = some (.emit r) ∧
      ∃ failure, r.value = .value failure ∧
        ((failure.get "payload").get "retry").get "attempt" = .num (.ofNat M) ∧
        ((failure.get "payload").get "retry").get "exhausted" = .bool true
  count : ∀ i (d : Delivery), ds[i]? = some d → d.count = .ofNat i
  backoff : ∀ (i : ℕ) r, (recordsOn topic ds)[i]? = some r →
    ∃ (d : Delivery) (waits : List Op) (ms : Number), ds[i]? = some d ∧ Waits waits ∧
      (getRetryBackoffSchedule policy)[i]? = some ms ∧
      d.ops = waits ++ [.handler, .sleep ms, .emit r]

theorem iterate_succ (n : ℕ) : Number.succ^[n] 0 = .counted n := by
  induction n with
  | zero => rfl
  | succ n ih => rw [Function.iterate_succ_apply', ih, Number.succ_counted]

theorem succ_zero : (0 : Number).succ = 1 := Number.succ_ofNat (by decide)

section Exact

variable {h : RetriedHandler} {env : String → Option String} {policy : RetryPolicyConfig}
  {drivers : Drivers} {g : Group} {M k m fuel : ℕ} {hM : Representable (M : ℚ)} {record : KafkaRecord}
  {envelope : JsVal} {key : String} {procs : ℕ → Process} {errors : ℕ → HandlerError}
  {last : Delivery} {ds : List Delivery}

theorem failsFirst_of_lt {i : ℕ} (h : i < k) : failsFirst k errors i = some (errors i) :=
  if_pos h

theorem failsFirst_self : failsFirst k errors k = none := if_neg (Nat.lt_irrefl k)

theorem attemptLimit_eq (hmax : policy.maxAttempts = .fin M hM) (hone : 1 ≤ M) :
    attemptLimit policy = M := by
  rw [attemptLimit, hmax]
  change max 1 ⌈(M : ℚ)⌉₊ = M
  rw [Nat.ceil_natCast]
  exact max_eq_right hone

theorem isFinite_of_limit (hmax : policy.maxAttempts = .fin M hM) :
    policy.maxAttempts.isFinite = true := by
  rw [hmax]
  rfl

theorem shouldRetry_iterate (hmax : policy.maxAttempts = .fin M hM) (hone : 1 ≤ M) (n : ℕ) :
    shouldRetry (Number.succ^[n + 1] 0) policy = decide (Nat.min (n + 1) (2 ^ 53) < M) := by
  rw [iterate_succ, shouldRetry_counted (isFinite_of_limit hmax), attemptLimit_eq hmax hone]

theorem getElem?_schedule (hmax : policy.maxAttempts = .fin M hM) {i : ℕ} (hi : i + 1 < M) :
    (getRetryBackoffSchedule policy)[i]? = some (calculateBackoffMs (.ofNat (i + 1)) policy) := by
  have hlt : i < M - 1 := by omega
  rw [getRetryBackoffSchedule_eq hmax, List.getElem?_map, List.getElem?_range' hlt]
  simp [Nat.add_comm]

/-- What every chain shows, however it ends: a delivery reads how many failed
before it, and the `i`-th republish follows the `i`-th delay of the schedule. -/
theorem Rounds.schedule (hrounds : Rounds g last m 0 ds)
    (hmax : g.policy.maxAttempts = .fin M hM) (hm : m < M) (hsmall : m ≤ 2 ^ 53)
    (hcount : last.count = Number.succ^[m] 0)
    (hquiet : last.sent (resolveKafkaTopic g.eventType) = []) :
    (∀ i (d : Delivery), ds[i]? = some d → d.count = .ofNat i) ∧
      ∀ (i : ℕ) r, (recordsOn (resolveKafkaTopic g.eventType) ds)[i]? = some r →
        ∃ (d : Delivery) (waits : List Op) (ms : Number), ds[i]? = some d ∧ Waits waits ∧
          (getRetryBackoffSchedule g.policy)[i]? = some ms ∧
          d.ops = waits ++ [.handler, .sleep ms, .emit r] := by
  constructor
  · intro i d hd
    have hi : i < ds.length := (List.getElem?_eq_some_iff.mp hd).1
    rw [hrounds.length] at hi
    rw [hrounds.count hcount hd, iterate_succ, Number.counted_of_le (by omega)]
  · intro i r hr
    obtain ⟨d, waits, hd, hw, hlt, hops⟩ := hrounds.backoff hquiet hr
    rw [iterate_succ, Number.counted_of_le (by omega)] at hops
    exact ⟨d, waits, _, hd, hw, getElem?_schedule hmax (by omega), hops⟩

/-- Fewer failures than attempts: the rounds go up to the one that succeeds. -/
theorem rounds_of_lt (hmax : g.policy.maxAttempts = .fin M hM) (hlt : k < M)
    (hp : Parsed envelope) (hkey : resolvePartitionKey envelope = .ok key)
    (hable : 0 < k → g.Answerable envelope 1) (hc : Carries g record envelope 0)
    (hfuel : k < fuel) :
    ∃ last, Rounds g last k 0 (g.chain procs (failsFirst k errors) fuel 0 [record]) ∧
      last.count = Number.succ^[k] 0 ∧ last.ops.countP isHandler = 1 ∧
      ∀ topic, last.sent topic = [] := by
  have hfin := isFinite_of_limit hmax
  have hone : 1 ≤ M := by omega
  have hretry : ∀ j < k, shouldRetry (Number.succ^[j + 1] 0) g.policy = true := by
    intro j hj
    rw [shouldRetry_iterate hmax hone]
    exact decide_eq_true ((Nat.min_le_left _ _).trans_lt (by omega))
  have hreplies : ∀ j < k, g.reply (trips envelope (0 + j)) (Number.succ^[j + 1] 0)
      (failsFirst k errors (0 + j)) = .ok .retry := by
    intro j hj
    have hable' : g.Answerable envelope (0 : Number).succ := by
      rw [succ_zero]
      exact hable (by omega)
    rw [Nat.zero_add, reply_trips hp hkey hable' (fun i hi => hretry i (by omega))
      (by rw [failsFirst_of_lt hj]; rfl), hretry j hj]
    rfl
  have hlast : g.reply (trips envelope (0 + k)) (Number.succ^[k + 1] 0)
      (failsFirst k errors (0 + k)) = .ok .success := by
    rw [Nat.zero_add, failsFirst_self]
    rfl
  obtain ⟨last, hrounds, hanswers⟩ := chain_rounds hp hfin hc hreplies
    (by rw [hlast]; intro h; cases h) hfuel
  rw [Function.iterate_succ_apply'] at hlast
  exact ⟨last, hrounds, hanswers.count, hanswers.runs, hanswers.sent_nil
    (by rw [hlast]; intro h; cases h) (by rw [hlast]; intro h; cases h)⟩

theorem exact_of_lt (hmax : g.policy.maxAttempts = .fin M hM) (hlt : k < M) (hsmall : k ≤ 2 ^ 53)
    (hp : Parsed envelope) (hkey : resolvePartitionKey envelope = .ok key)
    (hable : 0 < k → g.Answerable envelope 1) (hc : Carries g record envelope 0)
    (hfuel : k < fuel) :
    ExactChain g.policy (resolveKafkaTopic g.eventType) M k
      (g.chain procs (failsFirst k errors) fuel 0 [record]) := by
  obtain ⟨last, hrounds, hread, hruns, hquiet⟩ :=
    rounds_of_lt hmax hlt hp hkey hable hc hfuel
  obtain ⟨hcount, hbackoff⟩ := hrounds.schedule hmax hlt hsmall hread (hquiet _)
  refine ⟨fun _ => ⟨?_, ?_, ?_⟩, fun hge => absurd hlt (Nat.not_lt.mpr hge), hcount, hbackoff⟩
  · exact hrounds.handlerRuns_eq hruns
  · exact hrounds.republishes (hquiet _)
  · rw [hrounds.buried]
    exact hquiet _

/-- As many failures as attempts: the last round leaves the failure record. -/
theorem exact_of_ge (hmax : g.policy.maxAttempts = .fin M hM) (hone : 1 ≤ M) (hge : M ≤ k)
    (hsmall : M ≤ 2 ^ 53) (hp : Parsed envelope) (hkey : resolvePartitionKey envelope = .ok key)
    (hable : g.Answerable envelope 1) (hc : Carries g record envelope 0) (hfuel : M ≤ fuel) :
    ExactChain g.policy (resolveKafkaTopic g.eventType) M k
      (g.chain procs (failsFirst k errors) fuel 0 [record]) := by
  obtain ⟨m, rfl⟩ : ∃ m, M = m + 1 := ⟨M - 1, by omega⟩
  have hfin := isFinite_of_limit hmax
  have hable' : g.Answerable envelope (0 : Number).succ := by rwa [succ_zero]
  have hretry : ∀ j < m, shouldRetry (Number.succ^[j + 1] 0) g.policy = true := by
    intro j hj
    rw [shouldRetry_iterate hmax hone]
    exact decide_eq_true ((Nat.min_le_left _ _).trans_lt (by omega))
  have hend : shouldRetry (Number.succ^[m + 1] 0) g.policy = false := by
    have hmin : Nat.min (m + 1) (2 ^ 53) = m + 1 := Nat.min_eq_left hsmall
    rw [shouldRetry_iterate hmax hone, hmin]
    exact decide_eq_false (Nat.lt_irrefl _)
  have hreply : ∀ j ≤ m, g.reply (trips envelope (0 + j)) (Number.succ^[j + 1] 0)
      (failsFirst k errors (0 + j)) =
        .ok (if shouldRetry (Number.succ^[j + 1] 0) g.policy then .retry else .dlq) := by
    intro j hj
    rw [Nat.zero_add]
    exact reply_trips hp hkey hable' (fun i hi => hretry i (by omega))
      (by rw [failsFirst_of_lt (by omega)]; rfl)
  have hlast := hreply m le_rfl
  rw [hend] at hlast
  obtain ⟨last, hrounds, hanswers⟩ := chain_rounds hp hfin hc
    (fun j hj => by rw [hreply j hj.le, hretry j hj]; rfl)
    (by rw [hlast]; intro h; cases h) hfuel
  rw [Function.iterate_succ_apply'] at hlast
  obtain ⟨r, hfail, hown, hsent, hemit⟩ := hanswers.sent_dlq hlast
  obtain ⟨hcount, hbackoff⟩ := hrounds.schedule hmax (Nat.lt_succ_self m) (by omega)
    hanswers.count hown
  refine ⟨fun hlt => absurd hlt (Nat.not_lt.mpr hge), fun _ => ⟨?_, ?_, r, last, ?_,
    hrounds.getLast, hemit, ?_⟩, hcount, hbackoff⟩
  · exact hrounds.handlerRuns_eq hanswers.runs
  · exact hrounds.republishes hown
  · rw [hrounds.buried, hsent]
  · obtain ⟨failure, hvalue, hattempt, hexhausted⟩ := hfail.retryState
    have hnum : Number.succ (Number.succ^[m] 0) = .fin (m + 1 : ℕ) hM := by
      rw [iterate_succ, Number.succ_counted, Number.counted_of_le hsmall,
        Number.ofNat_of_representable hM]
    rw [hnum] at hattempt hexhausted
    refine ⟨failure, hvalue, ?_, ?_⟩
    · rw [hattempt, Number.ofNat_of_representable hM]
      rfl
    · rw [hexhausted, hmax, Number.le_fin]
      simp

/-- A first failure without an answer ends the chain. -/
theorem not_exact_of_unanswered {topic : String} (htopic : topic = resolveKafkaTopic g.eventType)
    (hfin : g.policy.maxAttempts.isFinite = true) (hpos : 0 < k) (hfuel : 0 < fuel)
    (hnot : ¬ g.Answerable envelope 1) (hc : Carries g record envelope 0) :
    ¬ ExactChain g.policy topic M k (g.chain procs (failsFirst k errors) fuel 0 [record]) := by
  subst htopic
  obtain ⟨fuel, rfl⟩ : ∃ fuel', fuel = fuel' + 1 := ⟨fuel - 1, by omega⟩
  rw [← succ_zero] at hnot
  obtain ⟨hchain, hnone⟩ := chain_unanswered hfin hc hnot
  intro hexact
  rw [hchain] at hexact
  rcases Nat.lt_or_ge k M with hlt | hge
  · have hruns := (hexact.succeeds hlt).1
    rw [handlerRuns_cons, (deliver_answers hc _ _ hfin).runs] at hruns
    change 1 + 0 = k + 1 at hruns
    omega
  · obtain ⟨-, -, r, last, hdlq, -⟩ := hexact.exhausts hge
    rw [recordsOn_cons, hnone] at hdlq
    cases hdlq

/-- Beyond `2 ^ 53` the count does not tell the rounds apart. -/
theorem not_exact_of_large (hmax : g.policy.maxAttempts = .fin M hM) (hlarge : 2 ^ 53 < min k M)
    (hp : Parsed envelope) (hkey : resolvePartitionKey envelope = .ok key)
    (hable : g.Answerable envelope 1) (hc : Carries g record envelope 0)
    (hfuel : min (k + 1) M ≤ fuel) :
    ¬ ExactChain g.policy (resolveKafkaTopic g.eventType) M k
      (g.chain procs (failsFirst k errors) fuel 0 [record]) := by
  intro hexact
  rcases Nat.lt_or_ge k M with hlt | hge
  · obtain ⟨last, hrounds, hread, -, -⟩ : ∃ last, Rounds g last k 0
        (g.chain procs (failsFirst k errors) fuel 0 [record]) ∧ last.count = Number.succ^[k] 0 ∧
          last.ops.countP isHandler = 1 ∧ ∀ topic, last.sent topic = [] :=
      rounds_of_lt hmax hlt hp hkey (fun _ => hable) hc (by omega)
    have hlen := hrounds.length
    have hi : 2 ^ 53 + 1 < (g.chain procs (failsFirst k errors) fuel 0 [record]).length := by omega
    have hsome := List.getElem?_eq_getElem hi
    have hcount := (hexact.count _ _ hsome).symm.trans (hrounds.count hread hsome)
    rw [iterate_succ, Number.counted_of_ge (Nat.le_succ _)] at hcount
    revert hcount
    decide +kernel
  · have hone : 1 ≤ M := by omega
    obtain ⟨-, -, r, last, hdlq, -⟩ := hexact.exhausts hge
    have hnone : recordsOn (toDlqTopic (resolveKafkaTopic g.eventType))
        (g.chain procs (failsFirst k errors) fuel 0 [record]) = [] := by
      apply chain_open hp (isFinite_of_limit hmax) hc
      intro j hj hreply
      have hretry := (reply_dlq_iff.mp hreply).2.1
      rw [shouldRetry_iterate hmax hone] at hretry
      exact of_decide_eq_false hretry ((Nat.min_le_right _ _).trans_lt (by omega))
    rw [hnone] at hdlq
    cases hdlq

end Exact

/-- An `order.cancelled` envelope and its message, as order-service would send it. -/
def cancelledEnvelope : JsVal :=
  .obj [("eventId", .str "e-1"), ("eventType", .str EventType.orderCancelled.value),
    ("correlationId", .str "o-1"),
    ("payload", .obj [("orderId", .str "o-1"), ("reason", .str "changed my mind")])]

def cancelledRecord : KafkaRecord where
  topic := EventType.orderCancelled.value
  key := .str "o-1"
  value := .value cancelledEnvelope
  headers := []

theorem parsed_cancelledEnvelope : Parsed cancelledEnvelope := ⟨by decide, by decide⟩

theorem key_cancelledEnvelope : resolvePartitionKey cancelledEnvelope = .ok "o-1" := rfl

theorem loggable_cancelledEnvelope : Loggable cancelledEnvelope := ⟨rfl, rfl⟩

theorem fresh_cancelledRecord : Fresh cancelledRecord := List.not_mem_nil

theorem encodes_cancelledEnvelope :
    Drivers.documented.Encodes (envelopeToKafkaHeaders cancelledEnvelope) :=
  encodes_envelope_iff.mpr ⟨by decide, by decide⟩

/-- stock-service can always answer the failure of a cancellation. -/
theorem answerable_cancelledEnvelope (env : String → Option String) (policy : RetryPolicyConfig)
    (attempt : Number) :
    Group.Answerable ⟨.stockOrderCancelled, env, policy, .documented⟩ cancelledEnvelope attempt := by
  refine ⟨loggable_cancelledEnvelope, rfl, ?_⟩
  split_ifs
  · exact encodes_cancelledEnvelope
  · exact encodes_failure encodes_cancelledEnvelope

def gatewayDown : HandlerError := ⟨.error "Error" "gateway down", _, rfl⟩

theorem default_maxAttempts :
    defaultRetryPolicy.maxAttempts = .fin (3 : ℕ) (Number.representable_natCast (by decide)) :=
  Number.ofNat_of_representable _

/-- A `stock.released` message, as stock-service would send it. -/
def releasedEnvelope : JsVal :=
  .obj [("eventId", .str "e-2"), ("eventType", .str EventType.stockReleased.value),
    ("correlationId", .str "o-1"),
    ("payload", .obj [("orderId", .str "o-1"), ("reason", .str "changed my mind")])]

def releasedRecord : KafkaRecord where
  topic := EventType.stockReleased.value
  key := .str "o-1"
  value := .value releasedEnvelope
  headers := []

end EventFlow.Retry
