import EventFlow.Shared.Platform
import Mathlib.Algebra.Order.Floor.Semiring

namespace EventFlow.Shared

open Js

structure RetryPolicyConfig where
  maxAttempts : Number
  baseDelayMs : Number
  maxDelayMs : Number
  backoffMultiplier : Number
  deriving DecidableEq

/-- `Partial<RetryPolicyConfig>`. -/
structure RetryPolicyOverrides where
  maxAttempts : Option Number := none
  baseDelayMs : Option Number := none
  maxDelayMs : Option Number := none
  backoffMultiplier : Option Number := none

/-- `{ ...policy, ...overrides }`. -/
def RetryPolicyConfig.override (p : RetryPolicyConfig) (o : RetryPolicyOverrides) :
    RetryPolicyConfig where
  maxAttempts := o.maxAttempts.getD p.maxAttempts
  baseDelayMs := o.baseDelayMs.getD p.baseDelayMs
  maxDelayMs := o.maxDelayMs.getD p.maxDelayMs
  backoffMultiplier := o.backoffMultiplier.getD p.backoffMultiplier

def defaultRetryPolicy : RetryPolicyConfig where
  maxAttempts := 3
  baseDelayMs := 1000
  maxDelayMs := 30000
  backoffMultiplier := 2

def resolveRetryNumber (raw : Option String) (fallback : Number) : Number :=
  match raw with
  | none => fallback
  | some text =>
    if trim text = "" then fallback
    else if (Number.ofText text).isFinite then Number.ofText text else fallback

def resolveRetryPolicy (env : String → Option String) (overrides : RetryPolicyOverrides := {}) :
    RetryPolicyConfig :=
  RetryPolicyConfig.override {
    maxAttempts := resolveRetryNumber (env "KAFKA_RETRY_MAX_ATTEMPTS")
      defaultRetryPolicy.maxAttempts
    baseDelayMs := resolveRetryNumber (env "KAFKA_RETRY_BASE_DELAY_MS")
      defaultRetryPolicy.baseDelayMs
    maxDelayMs := resolveRetryNumber (env "KAFKA_RETRY_MAX_DELAY_MS")
      defaultRetryPolicy.maxDelayMs
    backoffMultiplier := resolveRetryNumber (env "KAFKA_RETRY_BACKOFF_MULTIPLIER")
      defaultRetryPolicy.backoffMultiplier } overrides

/-- The consumer and the producer policy: own variables, then the shared ones. -/
def resolveScopedRetryPolicy (scope : String) (env : String → Option String)
    (overrides : RetryPolicyOverrides) : RetryPolicyConfig :=
  let fallback := resolveRetryPolicy env
  let envOf (name : String) : Option String :=
    (env ("KAFKA_" ++ scope ++ "_RETRY_" ++ name)).or (env ("KAFKA_RETRY_" ++ name))
  RetryPolicyConfig.override {
    maxAttempts := resolveRetryNumber (envOf "MAX_ATTEMPTS") fallback.maxAttempts
    baseDelayMs := resolveRetryNumber (envOf "BASE_DELAY_MS") fallback.baseDelayMs
    maxDelayMs := resolveRetryNumber (envOf "MAX_DELAY_MS") fallback.maxDelayMs
    backoffMultiplier := resolveRetryNumber (envOf "BACKOFF_MULTIPLIER")
      fallback.backoffMultiplier } overrides

def resolveConsumerRetryPolicy (env : String → Option String)
    (overrides : RetryPolicyOverrides := {}) : RetryPolicyConfig :=
  resolveScopedRetryPolicy "CONSUMER" env overrides

def resolveProducerRetryPolicy (env : String → Option String)
    (overrides : RetryPolicyOverrides := {}) : RetryPolicyConfig :=
  resolveScopedRetryPolicy "PRODUCER" env overrides

def calculateBackoffMs (attempt : Number) (config : RetryPolicyConfig := defaultRetryPolicy) :
    Number :=
  if Number.le attempt 0 then 0
  else
    let delay := config.baseDelayMs.mul (config.backoffMultiplier.pow (attempt.sub 1))
    delay.min config.maxDelayMs

def shouldRetry (nextAttempt : Number) (config : RetryPolicyConfig := defaultRetryPolicy) : Bool :=
  Number.lt nextAttempt config.maxAttempts

def shouldSendToDlq (nextAttempt : Number) (config : RetryPolicyConfig := defaultRetryPolicy) :
    Bool :=
  Number.le config.maxAttempts nextAttempt

/-- Enough passes for a loop that counts up to a finite bound. -/
def passesUpTo : Number → ℕ
  | .fin q _ => ⌈q⌉₊ + 1
  | _ => 0

/-- `for (let attempt = ...; attempt < policy.maxAttempts; attempt++)`. -/
def backoffScheduleFrom (policy : RetryPolicyConfig) : ℕ → ℕ → List Number
  | 0, _ => []
  | fuel + 1, attempt =>
    if Number.lt (.ofNat attempt) policy.maxAttempts then
      calculateBackoffMs (.ofNat attempt) policy :: backoffScheduleFrom policy fuel (attempt + 1)
    else []

def getRetryBackoffSchedule (policy : RetryPolicyConfig) : List Number :=
  backoffScheduleFrom policy (passesUpTo policy.maxAttempts) 1

section Lemmas

theorem isFinite_resolveRetryNumber {raw : Option String} {fallback : Number}
    (h : fallback.isFinite = true) : (resolveRetryNumber raw fallback).isFinite = true := by
  unfold resolveRetryNumber
  cases raw with
  | none => exact h
  | some text =>
    simp only
    split_ifs with h₁ h₂
    · exact h
    · exact h₂
    · exact h

theorem isFinite_ofNat {n : ℕ} (h : n ≤ 2 ^ 53) : (Number.ofNat n).isFinite = true := by
  rw [Number.ofNat_of_representable (Number.representable_natCast h)]
  rfl

/-- An attempt limit read from the environment is never NaN or infinite. -/
theorem isFinite_resolveScoped (scope : String) (env : String → Option String) :
    (resolveScopedRetryPolicy scope env {}).maxAttempts.isFinite = true :=
  isFinite_resolveRetryNumber (isFinite_resolveRetryNumber (isFinite_ofNat (by decide)))

theorem isFinite_resolveConsumer (env : String → Option String) :
    (resolveConsumerRetryPolicy env).maxAttempts.isFinite = true :=
  isFinite_resolveScoped "CONSUMER" env

theorem isFinite_resolveProducer (env : String → Option String) :
    (resolveProducerRetryPolicy env).maxAttempts.isFinite = true :=
  isFinite_resolveScoped "PRODUCER" env

theorem shouldSendToDlq_eq_not_shouldRetry {n : Number} {config : RetryPolicyConfig}
    (hn : n ≠ .nan) (hmax : config.maxAttempts.isFinite = true) :
    shouldSendToDlq n config = !shouldRetry n config := by
  have hnan : config.maxAttempts ≠ .nan := by
    rintro h
    simp [h, Number.isFinite] at hmax
  exact Number.le_eq_not_lt hn hnan

theorem lt_ofNat_fin {n : ℕ} {q : ℚ} (hq : Representable q) :
    Number.lt (.ofNat n) (.fin q hq) = decide ((n : ℚ) < q) := Number.lt_ofRat hq

/-- How many deliveries a limit leaves to a handler that always fails. -/
def attemptLimit (policy : RetryPolicyConfig) : ℕ :=
  match policy.maxAttempts with
  | .fin q _ => max 1 ⌈q⌉₊
  | _ => 1

theorem one_le_attemptLimit (policy : RetryPolicyConfig) : 1 ≤ attemptLimit policy := by
  unfold attemptLimit
  split
  · exact le_max_left _ _
  · exact le_rfl

theorem shouldRetry_eq {policy : RetryPolicyConfig} (hfin : policy.maxAttempts.isFinite = true)
    {n : ℕ} (hn : 1 ≤ n) :
    shouldRetry (.ofNat n) policy = decide (n < attemptLimit policy) := by
  obtain ⟨q, hq, hmax⟩ := Number.isFinite_iff.mp hfin
  have hceil : (n : ℚ) < q ↔ n < max 1 ⌈q⌉₊ := by
    rw [lt_max_iff, Nat.lt_ceil]
    constructor
    · exact Or.inr
    · intro h
      rcases h with hlt | hlt
      · omega
      · exact hlt
  rw [shouldRetry, attemptLimit, hmax, lt_ofNat_fin]
  exact decide_eq_decide.mpr hceil

theorem attemptLimit_noEnv : attemptLimit (resolveConsumerRetryPolicy noEnv) = 3 := by
  decide +kernel

theorem one_le_producer_noEnv : Number.le 1 (resolveProducerRetryPolicy noEnv).maxAttempts = true := by
  decide +kernel

theorem backoffScheduleFrom_eq {policy : RetryPolicyConfig} {q : ℚ} {hq : Representable q}
    (hmax : policy.maxAttempts = .fin q hq) (fuel attempt : ℕ) (hfuel : ⌈q⌉₊ ≤ attempt + fuel) :
    backoffScheduleFrom policy fuel attempt =
      (List.range' attempt (⌈q⌉₊ - attempt)).map fun i => calculateBackoffMs (.ofNat i) policy := by
  induction fuel generalizing attempt with
  | zero =>
    have hz : ⌈q⌉₊ - attempt = 0 := by omega
    rw [hz]
    rfl
  | succ fuel ih =>
    rw [backoffScheduleFrom, hmax, lt_ofNat_fin]
    by_cases hlt : attempt < ⌈q⌉₊
    · have hs : ⌈q⌉₊ - attempt = (⌈q⌉₊ - (attempt + 1)) + 1 := by omega
      rw [if_pos (decide_eq_true (Nat.lt_ceil.mp hlt)), ih (attempt + 1) (by omega), hs,
        List.range'_succ, List.map_cons]
    · have hz : ⌈q⌉₊ - attempt = 0 := by omega
      have hge : ¬ (attempt : ℚ) < q := fun h => hlt (Nat.lt_ceil.mpr h)
      rw [if_neg (by simpa using hge), hz]
      rfl

/-- The schedule holds one delay for each attempt below the limit. -/
theorem getRetryBackoffSchedule_fin {policy : RetryPolicyConfig} {q : ℚ} {hq : Representable q}
    (hmax : policy.maxAttempts = .fin q hq) :
    getRetryBackoffSchedule policy =
      (List.range' 1 (⌈q⌉₊ - 1)).map fun i => calculateBackoffMs (.ofNat i) policy := by
  have hfuel : ⌈q⌉₊ ≤ 1 + passesUpTo policy.maxAttempts := by
    rw [hmax, passesUpTo]
    omega
  exact backoffScheduleFrom_eq hmax _ _ hfuel

/-- With an integer limit the schedule holds one delay for each retry. -/
theorem getRetryBackoffSchedule_eq {policy : RetryPolicyConfig} {m : ℕ} {hm : Representable (m : ℚ)}
    (hmax : policy.maxAttempts = .fin m hm) :
    getRetryBackoffSchedule policy =
      (List.range' 1 (m - 1)).map fun i => calculateBackoffMs (.ofNat i) policy := by
  rw [getRetryBackoffSchedule_fin hmax, Nat.ceil_natCast]

end Lemmas

end EventFlow.Shared
