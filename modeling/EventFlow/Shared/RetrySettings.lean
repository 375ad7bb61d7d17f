import EventFlow.Shared.RetryPolicy

namespace EventFlow.Shared

open Js

/-- The fields of a retry policy. -/
inductive RetryField where
  | maxAttempts
  | baseDelayMs
  | maxDelayMs
  | backoffMultiplier
  deriving DecidableEq, Repr

def RetryPolicyConfig.get (policy : RetryPolicyConfig) : RetryField → Number
  | .maxAttempts => policy.maxAttempts
  | .baseDelayMs => policy.baseDelayMs
  | .maxDelayMs => policy.maxDelayMs
  | .backoffMultiplier => policy.backoffMultiplier

namespace RetryField

def sharedVariable : RetryField → String
  | .maxAttempts => "KAFKA_RETRY_MAX_ATTEMPTS"
  | .baseDelayMs => "KAFKA_RETRY_BASE_DELAY_MS"
  | .maxDelayMs => "KAFKA_RETRY_MAX_DELAY_MS"
  | .backoffMultiplier => "KAFKA_RETRY_BACKOFF_MULTIPLIER"

def consumerVariable : RetryField → String
  | .maxAttempts => "KAFKA_CONSUMER_RETRY_MAX_ATTEMPTS"
  | .baseDelayMs => "KAFKA_CONSUMER_RETRY_BASE_DELAY_MS"
  | .maxDelayMs => "KAFKA_CONSUMER_RETRY_MAX_DELAY_MS"
  | .backoffMultiplier => "KAFKA_CONSUMER_RETRY_BACKOFF_MULTIPLIER"

def producerVariable : RetryField → String
  | .maxAttempts => "KAFKA_PRODUCER_RETRY_MAX_ATTEMPTS"
  | .baseDelayMs => "KAFKA_PRODUCER_RETRY_BASE_DELAY_MS"
  | .maxDelayMs => "KAFKA_PRODUCER_RETRY_MAX_DELAY_MS"
  | .backoffMultiplier => "KAFKA_PRODUCER_RETRY_BACKOFF_MULTIPLIER"

end RetryField

/-- Every field of the policy in force without variables is finite. -/
theorem isFinite_defaultRetryPolicy (f : RetryField) :
    (defaultRetryPolicy.get f).isFinite = true := by
  cases f <;> exact isFinite_ofNat (by decide)

/-- What a variable contributes: nothing when it is unset, blank or no finite number. -/
def usable (raw : Option String) : Option Number :=
  raw.bind fun text =>
    if nonBlank text && (Number.ofText text).isFinite then some (Number.ofText text) else none

theorem trim_eq_empty_iff {text : String} : trim text = "" ↔ nonBlank text = false := by
  have h : trim text = "" ↔ trimChars text.toList = [] := by
    rw [trim, ← String.toList_inj, String.toList_ofList]
    simp
  rw [h, nonBlank, Bool.not_eq_false', List.isEmpty_iff]

theorem usable_eq_some_iff {raw : Option String} {n : Number} :
    usable raw = some n ↔
      ∃ text, raw = some text ∧ nonBlank text = true ∧ Number.ofText text = n ∧
        n.isFinite = true := by
  cases raw with
  | none => simp [usable]
  | some text =>
    simp only [usable, Option.bind_some, Option.ite_none_right_eq_some, Bool.and_eq_true,
      Option.some.injEq]
    constructor
    · intro h
      obtain ⟨⟨hblank, hfin⟩, hval⟩ := h
      exact ⟨text, rfl, hblank, hval, hval ▸ hfin⟩
    · intro h
      obtain ⟨t, ht, hblank, hval, hfin⟩ := h
      subst ht
      exact ⟨⟨hblank, hval ▸ hfin⟩, hval⟩

/-- One level of the fallback: a usable variable, else what stands below it. -/
theorem resolveRetryNumber_eq (raw : Option String) (fallback : Number) :
    resolveRetryNumber raw fallback = (usable raw).getD fallback := by
  cases raw with
  | none => rfl
  | some text =>
    simp only [resolveRetryNumber, usable, Option.bind_some, trim_eq_empty_iff]
    cases nonBlank text <;> cases (Number.ofText text).isFinite <;> rfl

/-- Two levels: the nullish fallback on the raw strings hides the shared
variable behind a role variable that is set but not usable, and the policy of
the shared variables brings it back. -/
theorem resolveRetryNumber_or (role shared : Option String) (fallback : Number) :
    resolveRetryNumber (role.or shared) (resolveRetryNumber shared fallback) =
      ([role, shared].findSome? usable).getD fallback := by
  simp only [resolveRetryNumber_eq, List.findSome?_cons, List.findSome?_nil]
  cases role with
  | none =>
    have hnone : usable none = none := rfl
    rw [hnone, Option.none_or]
    cases usable shared <;> rfl
  | some text =>
    rw [Option.some_or]
    cases usable (some text) <;> cases usable shared <;> rfl

/-- `resolveProducerRetryNumber` of `producer-retry-policy.ts`. -/
def resolveProducerRetryNumber (producerEnv sharedEnv : Option String) (fallback : Number) :
    Number :=
  resolveRetryNumber (producerEnv.or sharedEnv) fallback

theorem resolveRetryPolicy_get (env : String → Option String) (f : RetryField) :
    (resolveRetryPolicy env).get f =
      resolveRetryNumber (env f.sharedVariable) (defaultRetryPolicy.get f) := by
  cases f <;> rfl

theorem resolveProducerRetryPolicy_get (env : String → Option String) (f : RetryField) :
    (resolveProducerRetryPolicy env).get f =
      resolveProducerRetryNumber (env f.producerVariable) (env f.sharedVariable)
        ((resolveRetryPolicy env).get f) := by
  cases f <;> rfl

theorem resolveConsumerRetryPolicy_get (env : String → Option String) (f : RetryField) :
    (resolveConsumerRetryPolicy env).get f =
      resolveRetryNumber ((env f.consumerVariable).or (env f.sharedVariable))
        ((resolveRetryPolicy env).get f) := by
  cases f <;> rfl

/-- The first usable setting in the order of precedence. -/
def firstUsable (candidates : List (Option String)) (fallback : Number) : Number :=
  (candidates.findSome? usable).getD fallback

theorem isFinite_firstUsable {candidates : List (Option String)} {fallback : Number}
    (h : fallback.isFinite = true) : (firstUsable candidates fallback).isFinite = true := by
  unfold firstUsable
  cases hf : candidates.findSome? usable with
  | none => exact h
  | some n =>
    obtain ⟨raw, -, hraw⟩ := List.exists_of_findSome?_eq_some hf
    obtain ⟨text, -, -, -, hfin⟩ := usable_eq_some_iff.mp hraw
    exact hfin

theorem consumer_firstUsable (env : String → Option String) (f : RetryField) :
    (resolveConsumerRetryPolicy env).get f =
      firstUsable [env f.consumerVariable, env f.sharedVariable] (defaultRetryPolicy.get f) := by
  rw [resolveConsumerRetryPolicy_get, resolveRetryPolicy_get, resolveRetryNumber_or, firstUsable]

theorem producer_firstUsable (env : String → Option String) (f : RetryField) :
    (resolveProducerRetryPolicy env).get f =
      firstUsable [env f.producerVariable, env f.sharedVariable] (defaultRetryPolicy.get f) := by
  rw [resolveProducerRetryPolicy_get, resolveProducerRetryNumber, resolveRetryPolicy_get,
    resolveRetryNumber_or, firstUsable]

/-- Retry settings resolve by strict precedence: own variable, shared variable,
default. No field is ever NaN or infinite, and the resolvers agree on a field
whose role variables agree. -/
theorem settings_by_precedence (env : String → Option String) (f : RetryField) :
    (resolveConsumerRetryPolicy env).get f =
        firstUsable [env f.consumerVariable, env f.sharedVariable] (defaultRetryPolicy.get f) ∧
      (resolveProducerRetryPolicy env).get f =
        firstUsable [env f.producerVariable, env f.sharedVariable] (defaultRetryPolicy.get f) ∧
      ((resolveConsumerRetryPolicy env).get f).isFinite = true ∧
      ((resolveProducerRetryPolicy env).get f).isFinite = true ∧
      (env f.consumerVariable = env f.producerVariable →
        (resolveConsumerRetryPolicy env).get f = (resolveProducerRetryPolicy env).get f) := by
  have hc := consumer_firstUsable env f
  have hp := producer_firstUsable env f
  have hfin := isFinite_defaultRetryPolicy f
  refine ⟨hc, hp, ?_, ?_, ?_⟩
  · rw [hc]
    exact isFinite_firstUsable hfin
  · rw [hp]
    exact isFinite_firstUsable hfin
  · intro hagree
    rw [hc, hp, hagree]

end EventFlow.Shared
