import EventFlow.Retry.DeadLetter

namespace EventFlow.Retry

open Js Shared Services KafkaRetryExecutor

/-- The deliveries of a message end in its failure record, after so many runs of
the handler at most. -/
structure EndsWithin (g : Group) (envelope : JsVal) (limit : ℕ) (ds : List Delivery) : Prop where
  runs : handlerRuns ds ≤ limit
  record : ∃ r n attempt last, FailureRecord g (trips envelope n) attempt r ∧
    recordsOn (toDlqTopic (resolveKafkaTopic g.eventType)) ds = [r] ∧
    ds.getLast? = some last ∧ last.ops.getLast? = some (.emit r)

/-- Counting up by ones, a number gets to where no attempt is left within so many steps. -/
def Reaches (policy : RetryPolicyConfig) (limit : ℕ) (x : Number) : Prop :=
  ∃ j < limit, shouldRetry (Number.succ^[j + 1] x) policy = false

instance (policy : RetryPolicyConfig) (limit : ℕ) (x : Number) :
    Decidable (Reaches policy limit x) := inferInstanceAs (Decidable (∃ j < limit, _))

section Count

variable {policy : RetryPolicyConfig} {limit : ℕ} {hlimit : Representable (limit : ℚ)} {x : Number}

/-- On the way to the limit the count keeps up with the number of steps. -/
theorem le_iterate_succ (hx : x.IsCount) (hle : Number.le (.ofNat 0) x = true) {n : ℕ}
    (hn : n ≤ 2 ^ 53) (hretry : ∀ j < n, shouldRetry (Number.succ^[j + 1] x) policy = true) :
    (Number.succ^[n] x).IsCount ∧ Number.le (.ofNat n) (Number.succ^[n] x) = true := by
  induction n with
  | zero => exact ⟨hx, hle⟩
  | succ n ih =>
    obtain ⟨hcount, hreached⟩ := ih (by omega) fun j hj => hretry j (by omega)
    have hnext := hretry n (Nat.lt_succ_self n)
    rw [Function.iterate_succ_apply'] at hnext ⊢
    exact ⟨Number.isCount_succ hcount hnext, Number.succ_reaches hcount hn hreached⟩

/-- A count that is not negative reaches every limit that a double can count to. -/
theorem reaches_of_nonneg (hx : x.IsCount) (hle : Number.le (.ofNat 0) x = true)
    (hmax : policy.maxAttempts = .fin limit hlimit) (hone : 1 ≤ limit) (hsmall : limit ≤ 2 ^ 53) :
    Reaches policy limit x := by
  by_contra hopen
  have hretry : ∀ j < limit, shouldRetry (Number.succ^[j + 1] x) policy = true := by
    intro j hj
    by_contra hstop
    exact hopen ⟨j, hj, Bool.not_eq_true _ ▸ hstop⟩
  obtain ⟨hcount, hreached⟩ := le_iterate_succ hx hle hsmall hretry
  obtain ⟨m, rfl⟩ : ∃ m, limit = m + 1 := ⟨limit - 1, by omega⟩
  have hlast := hretry m (Nat.lt_succ_self m)
  rw [shouldRetry, hmax] at hlast
  obtain ⟨q, hq, hval, -⟩ := hcount
  rw [hval] at hlast hreached
  rw [Number.ofNat_of_representable hlimit, Number.le_fin, decide_eq_true_eq] at hreached
  rw [Number.lt_fin, decide_eq_true_eq] at hlast
  exact absurd hlast (not_lt.mpr hreached)

end Count

section Bounded

variable {g : Group} {limit fuel : ℕ} {hlimit : Representable (limit : ℚ)} {record : KafkaRecord}
  {envelope : JsVal} {key : String} {procs : ℕ → Process} {errors : ℕ → HandlerError}

/-- A count that reaches the limit ends the chain there. -/
theorem endsWithin_of_reaches {x : Number} (hp : Parsed envelope)
    (hkey : resolvePartitionKey envelope = .ok key) (hfin : g.policy.maxAttempts.isFinite = true)
    (hable : g.Answerable envelope x.succ) (hreaches : Reaches g.policy limit x)
    (hc : Carries g record envelope x) (hfuel : limit ≤ fuel) :
    EndsWithin g envelope limit (g.chain procs (alwaysFails errors) fuel 0 [record]) := by
  -- the first step at which no attempt is left
  obtain ⟨m, ⟨hm, hend⟩, hleast⟩ : ∃ m, (m < limit ∧
      shouldRetry (Number.succ^[m + 1] x) g.policy = false) ∧
        ∀ j < m, shouldRetry (Number.succ^[j + 1] x) g.policy = true := by
    refine ⟨Nat.find hreaches, Nat.find_spec hreaches, fun j hj => ?_⟩
    have hbefore := Nat.find_min hreaches hj
    have hlt := hj.trans (Nat.find_spec hreaches).1
    by_contra hstop
    exact hbefore ⟨hlt, Bool.not_eq_true _ ▸ hstop⟩
  have hreply : ∀ j ≤ m, g.reply (trips envelope (0 + j)) (Number.succ^[j + 1] x)
      (alwaysFails errors (0 + j)) =
        .ok (if shouldRetry (Number.succ^[j + 1] x) g.policy then .retry else .dlq) := by
    intro j hj
    rw [Nat.zero_add]
    exact reply_trips hp hkey hable (fun i hi => hleast i (by omega)) rfl
  have hlast := hreply m le_rfl
  rw [hend] at hlast
  obtain ⟨last, hrounds, hanswers⟩ := chain_rounds hp hfin hc
    (fun j hj => by rw [hreply j hj.le, hleast j hj]; rfl)
    (by rw [hlast]; intro h; cases h) (hm.trans_le hfuel)
  rw [Function.iterate_succ_apply'] at hlast
  obtain ⟨r, hfail, -, hsent, hemit⟩ := hanswers.sent_dlq hlast
  constructor
  · rw [hrounds.handlerRuns_eq hanswers.runs]
    exact hm
  · exact ⟨r, _, _, last, hfail, by rw [hrounds.buried, hsent], hrounds.getLast, hemit⟩

/-- A cancellation whose headers claim a count. -/
def countedRecord (count : String) : KafkaRecord :=
  { cancelledRecord with headers := [("x-retry-count", .buffer count)] }

/-- stock-service under the default policy of three attempts. -/
def stockGroup : Group := ⟨.stockOrderCancelled, noEnv, defaultRetryPolicy, .documented⟩

theorem read_countedRecord (count : String) :
    stockGroup.handler.read (countedRecord count).value = .ok (.accepted cancelledEnvelope) := rfl

end Bounded

end EventFlow.Retry
