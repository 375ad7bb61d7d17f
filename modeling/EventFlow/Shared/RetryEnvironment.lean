import EventFlow.Framework.Capped
import EventFlow.Shared.ProducerRetry
import EventFlow.Shared.RetrySettings

namespace EventFlow.Shared

open Js

section Exact

/-- How many delays a limit leaves: the attempts from 1 on that are below it. -/
def delaysBelow (limit : ℚ) : ℕ := ⌈limit⌉₊ - 1

/-- `calculateBackoffMs` in exact arithmetic. -/
def exactBackoffMs (attempt : ℕ) (policy : RetryPolicyConfig) : ℚ :=
  if attempt ≤ 0 then 0
  else
    let delay := policy.baseDelayMs.toRat * policy.backoffMultiplier.toRat ^ (attempt - 1)
    min delay policy.maxDelayMs.toRat

/-- `getRetryBackoffSchedule` in exact arithmetic. -/
def exactBackoffSchedule (policy : RetryPolicyConfig) : List ℚ :=
  (List.range' 1 (delaysBelow policy.maxAttempts.toRat)).map fun attempt =>
    exactBackoffMs attempt policy

variable {policy : RetryPolicyConfig}

/-- The code computes the exact delay, as long as the power does not overflow. -/
theorem calculateBackoffMs_exact (hfin : ∀ f, (policy.get f).isFinite = true) {attempt : ℕ}
    (hpos : 1 ≤ attempt) (hrep : Representable (attempt : ℚ))
    (hpow : Representable (policy.backoffMultiplier.toRat ^ (attempt - 1))) :
    calculateBackoffMs (.ofNat attempt) policy = .ofRat (exactBackoffMs attempt policy) := by
  obtain ⟨base, hbase, hb⟩ := Number.isFinite_iff.mp (hfin .baseDelayMs)
  obtain ⟨cap, hcap, hc⟩ := Number.isFinite_iff.mp (hfin .maxDelayMs)
  obtain ⟨ratio, hratio, hr⟩ := Number.isFinite_iff.mp (hfin .backoffMultiplier)
  have hpred : Representable ((attempt - 1 : ℕ) : ℚ) :=
    Number.representable_natCast_of_le hrep (Nat.cast_le.mpr (Nat.sub_le attempt 1))
  have hle : Number.le (.ofNat attempt) 0 = false := by
    rw [Number.ofNat_of_representable hrep, Number.zero_eq, Number.le_fin]
    have hlt : (0 : ℚ) < attempt := Nat.cast_pos.mpr hpos
    exact decide_eq_false (not_le.mpr hlt)
  change policy.baseDelayMs = _ at hb
  change policy.maxDelayMs = _ at hc
  change policy.backoffMultiplier = _ at hr
  rw [hr, Number.toRat_fin] at hpow
  rw [calculateBackoffMs, exactBackoffMs, hle, if_neg Bool.false_ne_true, if_neg (by omega),
    Number.ofNat_sub_one hpos hrep, hb, hc, hr]
  simp only [Number.ofNat_of_representable hpred, Number.pow_natCast, Number.toRat_fin,
    Number.ofRat_of_representable hpow, Number.mul_fin, Number.min_ofRat]

/-- The schedule of the code is the exact one, as long as no power overflows. -/
theorem getRetryBackoffSchedule_exact (hfin : ∀ f, (policy.get f).isFinite = true)
    (hpow : ∀ k < delaysBelow policy.maxAttempts.toRat,
      Representable (policy.backoffMultiplier.toRat ^ k)) :
    getRetryBackoffSchedule policy = (exactBackoffSchedule policy).map .ofRat := by
  obtain ⟨q, hq, hmax⟩ := Number.isFinite_iff.mp (hfin .maxAttempts)
  change policy.maxAttempts = _ at hmax
  rw [hmax, Number.toRat_fin] at hpow
  rw [getRetryBackoffSchedule_fin hmax, exactBackoffSchedule, hmax, Number.toRat_fin, delaysBelow,
    List.map_map]
  apply List.map_congr_left
  intro attempt hattempt
  rw [List.mem_range'_1] at hattempt
  have hlt : (attempt : ℚ) < q := Nat.lt_ceil.mp (by omega)
  exact calculateBackoffMs_exact hfin hattempt.1 (Number.representable_natCast_of_le hq hlt.le)
    (hpow (attempt - 1) (by rw [delaysBelow]; omega))

/-- Every delay lies between 0 and the cap, and the delays do not fall. -/
def Steady (policy : RetryPolicyConfig) : Prop :=
  (∀ delay ∈ exactBackoffSchedule policy, 0 ≤ delay ∧ delay ≤ policy.maxDelayMs.toRat) ∧
    (exactBackoffSchedule policy).Pairwise (· ≤ ·)

theorem exactBackoffSchedule_eq (policy : RetryPolicyConfig) :
    exactBackoffSchedule policy =
      (List.range (delaysBelow policy.maxAttempts.toRat)).map
        (capped policy.baseDelayMs.toRat policy.backoffMultiplier.toRat policy.maxDelayMs.toRat) := by
  rw [exactBackoffSchedule, List.range'_eq_map_range, List.map_map]
  apply List.map_congr_left
  intro k _
  have hk : ¬ 1 + k ≤ 0 := by omega
  have hsub : 1 + k - 1 = k := by omega
  simp only [Function.comp_apply, exactBackoffMs, if_neg hk, hsub, capped]

theorem steady_iff (policy : RetryPolicyConfig) :
    Steady policy ↔ RisingParameters (delaysBelow policy.maxAttempts.toRat)
      policy.baseDelayMs.toRat policy.backoffMultiplier.toRat policy.maxDelayMs.toRat := by
  rw [← rising_capped_iff, Steady, exactBackoffSchedule_eq]
  constructor
  · intro h
    constructor
    · intro k hk
      exact (h.1 _ (List.mem_map_of_mem (List.mem_range.mpr hk))).1
    · intro i j hij hj
      rcases hij.eq_or_lt with heq | hlt
      · rw [heq]
      · have hpair := List.pairwise_iff_getElem.mp h.2 i j (by simpa using hlt.trans hj)
          (by simpa using hj) hlt
        simpa using hpair
  · intro h
    constructor
    · intro delay hdelay
      obtain ⟨k, hk, rfl⟩ := List.mem_map.mp hdelay
      exact ⟨h.1 k (List.mem_range.mp hk), capped_le⟩
    · apply List.pairwise_iff_getElem.mpr
      intro i j hi hj hij
      simpa using h.2 i j hij.le (by simpa using hj)

end Exact

section Publishes

open ProducerCall

variable {policy : RetryPolicyConfig} {notify : Bool}
  {reply : List ProducerCall → ProducerCall → Except JsThrow Unit}

/-- Whatever the thunk, the callback and the timer do, short of rejecting with
undefined themselves: a call that rejects has published before, and does not
reject with undefined. -/
def PublishesFirst (policy : RetryPolicyConfig) : Prop :=
  ∀ notify reply, (∀ trace call, reply trace call ≠ .error (.value .undefined)) →
    ∀ error trace, (ProducerCall.publishWithProducerRetry policy notify).run (answer reply) [] =
        (.error error, trace) →
      publish ∈ trace ∧ error ≠ .value .undefined

theorem mem_run_answer {call : ProducerCall} (p : Script) {trace : List ProducerCall}
    (h : call ∈ trace) : call ∈ (p.run (answer reply) trace).2 := by
  induction p generalizing trace with
  | resolve a => exact h
  | reject e => exact h
  | await op k ih => exact ih _ (List.mem_append_left [op] h)

/-- The callback and the delay between two attempts do not either. -/
theorem run_retry_ne_undefined
    (hreply : ∀ trace call, reply trace call ≠ .error (.value .undefined))
    {callback delay : ProducerCall} {next : Script}
    (hnext : ∀ trace, (next.run (answer reply) trace).1 ≠ .error (.value .undefined))
    {trace : List ProducerCall} :
    (((if notify then Async.perform callback else .resolve () : Script).bind fun _ =>
      (Async.perform delay : Script).bind fun _ => next).run (answer reply) trace).1 ≠
      .error (.value .undefined) := by
  have hdelay : ∀ trace, (((Async.perform delay : Script).bind fun _ => next).run
      (answer reply) trace).1 ≠ .error (.value .undefined) := by
    intro trace
    rw [Async.run_bind, Async.run_perform, answer]
    cases hd : reply trace delay with
    | ok u => exact hnext _
    | error error => simpa [hd] using hreply trace delay
  rw [Async.run_bind]
  cases notify with
  | false => exact hdelay trace
  | true =>
    rw [if_pos rfl, Async.run_perform, answer]
    cases hc : reply trace callback with
    | ok u => exact hdelay _
    | error error => simpa [hc] using hreply trace callback

/-- A loop that has an error to throw, or an attempt to make, does not reject
with undefined. -/
theorem run_attempts_ne_undefined
    (hreply : ∀ trace call, reply trace call ≠ .error (.value .undefined)) (fuel attempt : ℕ)
    (lastError : JsThrow) (trace : List ProducerCall)
    (h : lastError ≠ .value .undefined ∨
      0 < fuel ∧ Number.le (.ofNat attempt) policy.maxAttempts = true) :
    ((attempts policy notify fuel attempt lastError).run (answer reply) trace).1 ≠
      .error (.value .undefined) := by
  induction fuel generalizing attempt lastError trace with
  | zero =>
    have hlast : lastError ≠ .value .undefined := by simpa using h
    simpa [attempts] using hlast
  | succ fuel ih =>
    rw [attempts]
    by_cases hrun : Number.le (.ofNat attempt) policy.maxAttempts = true
    · rw [if_pos hrun, Async.run_tryCatch, Async.run_perform, answer]
      cases hpublish : reply trace publish with
      | ok u => simp
      | error error =>
        have herror : error ≠ .value .undefined := fun heq =>
          hreply trace publish (heq ▸ hpublish)
        by_cases hlast : Number.le policy.maxAttempts (.ofNat attempt) = true
        · simpa [hlast] using herror
        · simp only [if_neg hlast]
          exact run_retry_ne_undefined hreply (fun trace' => ih _ _ trace' (.inl herror))
    · rw [if_neg hrun]
      have hlast : lastError ≠ .value .undefined := by simpa [hrun] using h
      simpa using hlast

/-- Below 1 the limit admits no attempt: nothing is published, and the error
thrown is the one that was never set. -/
theorem run_publish_below_one {q : ℚ} {hq : Representable q} (hmax : policy.maxAttempts = .fin q hq)
    (hlt : q < 1) (trace : List ProducerCall) :
    (ProducerCall.publishWithProducerRetry policy notify).run (answer reply) trace =
      (.error (.value .undefined), trace) := by
  have hle : Number.le (.ofNat 1) policy.maxAttempts = false := by
    have hone : Number.ofNat 1 = .fin 1 Number.representable_one := Number.one_eq
    rw [hmax, hone, Number.le_fin]
    exact decide_eq_false (not_le.mpr hlt)
  have hpasses : passesUpTo policy.maxAttempts = ⌈q⌉₊ + 1 := by rw [hmax, passesUpTo]
  rw [ProducerCall.publishWithProducerRetry, hpasses, attempts, hle, if_neg Bool.false_ne_true,
    Async.run_reject]

theorem publishesFirst_iff {q : ℚ} {hq : Representable q} (hmax : policy.maxAttempts = .fin q hq) :
    PublishesFirst policy ↔ 1 ≤ q := by
  constructor
  · intro h
    by_contra hlt
    have hrun : (ProducerCall.publishWithProducerRetry policy false).run
        (answer fun _ _ => .ok ()) [] = (.error (.value .undefined), []) :=
      run_publish_below_one hmax (not_le.mp hlt) []
    have hnone := (h false (fun _ _ => .ok ()) (by simp) _ _ hrun).2
    exact hnone rfl
  · intro hone notify reply hreply error trace hrun
    have hle : Number.le (.ofNat 1) policy.maxAttempts = true := by
      have hval : Number.ofNat 1 = .fin 1 Number.representable_one := Number.one_eq
      rw [hmax, hval, Number.le_fin]
      exact decide_eq_true hone
    have hpasses : passesUpTo policy.maxAttempts = ⌈q⌉₊ + 1 := by rw [hmax, passesUpTo]
    have hne : ((ProducerCall.publishWithProducerRetry policy notify).run (answer reply) []).1 ≠
        .error (.value .undefined) :=
      run_attempts_ne_undefined hreply _ _ _ _ (.inr ⟨by omega, hle⟩)
    constructor
    · have hfirst : ∀ k : Except JsThrow Unit → Script,
          publish ∈ ((Async.await publish k : Script).run (answer reply) []).2 := by
        intro k
        rw [Async.run_await]
        exact mem_run_answer _ (List.mem_singleton_self publish)
      have hmem : publish ∈ ((ProducerCall.publishWithProducerRetry policy notify).run
          (answer reply) []).2 := by
        rw [ProducerCall.publishWithProducerRetry, hpasses, attempts, if_pos hle]
        exact hfirst _
      rw [hrun] at hmem
      exact hmem
    · intro herror
      rw [hrun, herror] at hne
      exact hne rfl

end Publishes

section Environment

/-- The setting of a field in force: the first usable variable, else the default. -/
def inForce (env : String → Option String) (own : RetryField → String) (f : RetryField) : ℚ :=
  (firstUsable [env (own f), env f.sharedVariable] (defaultRetryPolicy.get f)).toRat

/-- Settings whose delays keep within their bounds and do not fall. -/
def SteadySettings (setting : RetryField → ℚ) : Prop :=
  RisingParameters (delaysBelow (setting .maxAttempts)) (setting .baseDelayMs)
    (setting .backoffMultiplier) (setting .maxDelayMs)

theorem toRat_consumer (env : String → Option String) (f : RetryField) :
    ((resolveConsumerRetryPolicy env).get f).toRat = inForce env RetryField.consumerVariable f := by
  rw [consumer_firstUsable, inForce]

theorem toRat_producer (env : String → Option String) (f : RetryField) :
    ((resolveProducerRetryPolicy env).get f).toRat = inForce env RetryField.producerVariable f := by
  rw [producer_firstUsable, inForce]

theorem steady_of_settings {policy : RetryPolicyConfig} {setting : RetryField → ℚ}
    (h : ∀ f, (policy.get f).toRat = setting f) : Steady policy ↔ SteadySettings setting := by
  have hmax := h .maxAttempts
  have hbase := h .baseDelayMs
  have hcap := h .maxDelayMs
  have hratio := h .backoffMultiplier
  simp only [RetryPolicyConfig.get] at hmax hbase hcap hratio
  rw [steady_iff, SteadySettings, hmax, hbase, hcap, hratio]

/-- An environment yields usable policies exactly when the producer's limit is at
least 1 and the delays of both roles are steady. -/
theorem usable_policies_iff (env : String → Option String) :
    PublishesFirst (resolveProducerRetryPolicy env) ∧ Steady (resolveProducerRetryPolicy env) ∧
        Steady (resolveConsumerRetryPolicy env) ↔
      1 ≤ inForce env RetryField.producerVariable .maxAttempts ∧
        SteadySettings (inForce env RetryField.producerVariable) ∧
        SteadySettings (inForce env RetryField.consumerVariable) := by
  obtain ⟨q, hq, hmax⟩ := Number.isFinite_iff.mp (isFinite_resolveProducer env)
  have hval : inForce env RetryField.producerVariable .maxAttempts = q := by
    rw [← toRat_producer, RetryPolicyConfig.get, hmax, Number.toRat_fin]
  rw [publishesFirst_iff hmax, steady_of_settings (toRat_producer env),
    steady_of_settings (toRat_consumer env), hval]

/-- `KAFKA_PRODUCER_RETRY_MAX_ATTEMPTS=0`, nothing else set. -/
def noAttempts (name : String) : Option String :=
  if name = "KAFKA_PRODUCER_RETRY_MAX_ATTEMPTS" then some "0" else none

theorem noAttempts_unusable :
    ¬ (PublishesFirst (resolveProducerRetryPolicy noAttempts) ∧
      Steady (resolveProducerRetryPolicy noAttempts) ∧
      Steady (resolveConsumerRetryPolicy noAttempts)) := by
  have hmax : (resolveProducerRetryPolicy noAttempts).maxAttempts =
      .fin 0 Number.representable_zero := by decide +kernel
  intro h
  have hone := (publishesFirst_iff hmax).mp h.1
  exact absurd hone (by decide)

end Environment

end EventFlow.Shared
