import EventFlow.Shared.Executor

namespace EventFlow.Shared

open Js

/-- What `publishWithProducerRetry` calls out to: the publish thunk, the
`onRetry` callback and the timer. -/
inductive ProducerCall where
  | publish
  | onRetry (attempt : ℕ) (delayMs : Number) (error : JsThrow)
  | sleep (ms : Number)
  deriving DecidableEq

namespace ProducerCall

abbrev Script := Async ProducerCall (fun _ => Unit) JsThrow Unit

/-- The loop of `publishWithProducerRetry`, its calls in sight; `notify` tells
whether a callback was passed. -/
def attempts (policy : RetryPolicyConfig) (notify : Bool) : ℕ → ℕ → JsThrow → Script
  | 0, _, lastError => .reject lastError
  | fuel + 1, attempt, lastError =>
    if Number.le (.ofNat attempt) policy.maxAttempts then
      (Async.perform publish).tryCatch fun error =>
        if Number.le policy.maxAttempts (.ofNat attempt) then .reject error
        else
          let delayMs := calculateBackoffMs (.ofNat attempt) policy
          (if notify then Async.perform (onRetry (attempt + 1) delayMs error)
            else .resolve ()).bind fun _ =>
          (Async.perform (sleep delayMs)).bind fun _ =>
          attempts policy notify fuel (attempt + 1) error
    else .reject lastError

def publishWithProducerRetry (policy : RetryPolicyConfig) (notify : Bool) : Script :=
  attempts policy notify (passesUpTo policy.maxAttempts) 1 (.value .undefined)

section Instance

/-- The calls carried out by a thunk of the services and a callback of theirs. -/
def carriedOut (thunk : Promise Unit) (callback : ℕ → Number → JsThrow → Except JsThrow Unit) :
    ProducerCall → Promise Unit
  | .publish => thunk
  | .onRetry attempt delayMs error => Async.ofExcept (callback attempt delayMs error)
  | .sleep ms => Shared.sleep ms

variable (policy : RetryPolicyConfig) (thunk : Promise Unit)
  (callback : ℕ → Number → JsThrow → Except JsThrow Unit)

theorem interp_attempts (fuel attempt : ℕ) (lastError : JsThrow) :
    (attempts policy true fuel attempt lastError).interp (carriedOut thunk callback) =
      publishAttempts policy thunk callback fuel attempt lastError := by
  induction fuel generalizing attempt lastError with
  | zero => rfl
  | succ fuel ih =>
    rw [attempts, publishAttempts]
    by_cases hrun : Number.le (.ofNat attempt) policy.maxAttempts = true
    · have hpublish : (Async.perform publish : Script).interp (carriedOut thunk callback) = thunk :=
        Async.interp_perform _ _
      rw [if_pos hrun, if_pos hrun, Async.interp_tryCatch, hpublish]
      congr 1
      funext error
      by_cases hlast : Number.le policy.maxAttempts (.ofNat attempt) = true
      · rw [if_pos hlast, if_pos hlast, Async.interp_reject]
      · simp only [if_neg hlast, if_true, Async.interp_bind, Async.interp_perform, ih]
        rfl
    · rw [if_neg hrun, if_neg hrun, Async.interp_reject]

/-- What the services run is this loop, with their thunk and callback. -/
theorem interp_publishWithProducerRetry :
    (publishWithProducerRetry policy true).interp (carriedOut thunk callback) =
      Shared.publishWithProducerRetry policy thunk callback :=
  interp_attempts policy thunk callback _ _ _

end Instance

section Runs

/-- A run against any replies, with the list of calls made so far. -/
def answer (reply : List ProducerCall → ProducerCall → Except JsThrow Unit)
    (trace : List ProducerCall) (call : ProducerCall) : Except JsThrow Unit × List ProducerCall :=
  (reply trace call, trace ++ [call])

/-- The `i`-th publish settles with `results i`; callback and timer do not fail. -/
def resultsOf (results : ℕ → Except JsThrow Unit) (trace : List ProducerCall) :
    ProducerCall → Except JsThrow Unit
  | .publish => results (trace.count .publish + 1)
  | _ => .ok ()

/-- One failed attempt: the arguments of its callback. -/
structure Retry where
  attempt : ℕ
  delayMs : Number
  error : JsThrow

/-- The calls of a failed attempt that is tried again. -/
def Retry.calls (retry : Retry) : List ProducerCall :=
  [publish, onRetry retry.attempt retry.delayMs retry.error, sleep retry.delayMs]

/-- All calls of a run: its failed attempts, then the last publish. -/
def callsOf (retries : List Retry) : List ProducerCall := retries.flatMap Retry.calls ++ [publish]

theorem Retry.count_calls (retry : Retry) : retry.calls.count publish = 1 := by
  simp [Retry.calls]

theorem count_publish_callsOf (retries : List Retry) :
    (callsOf retries).count publish = retries.length + 1 := by
  induction retries with
  | nil => rfl
  | cons retry rest ih =>
    have hcalls : callsOf (retry :: rest) = retry.calls ++ callsOf rest := by
      simp [callsOf]
    rw [hcalls, List.count_append, retry.count_calls, ih, List.length_cons]
    omega

variable {policy : RetryPolicyConfig} {limit : ℕ} {hlimit : Representable (limit : ℚ)}
  (results : ℕ → Except JsThrow Unit)

/-- The retries of a run that starts at an attempt: numbered from there, each
with its delay and the error of its attempt. -/
def Numbered (policy : RetryPolicyConfig) (results : ℕ → Except JsThrow Unit) (attempt : ℕ)
    (retries : List Retry) : Prop :=
  ∀ i retry, retries[i]? = some retry → retry.attempt = attempt + i + 1 ∧
    retry.delayMs = calculateBackoffMs (.ofNat (attempt + i)) policy ∧
    results (attempt + i) = .error retry.error

theorem Numbered.cons {attempt : ℕ} {error : JsThrow} {retries : List Retry}
    (herror : results attempt = .error error)
    (h : Numbered policy results (attempt + 1) retries) :
    Numbered policy results attempt
      (⟨attempt + 1, calculateBackoffMs (.ofNat attempt) policy, error⟩ :: retries) := by
  intro i retry hi
  cases i with
  | zero =>
    rw [List.getElem?_cons_zero, Option.some.injEq] at hi
    subst hi
    exact ⟨rfl, rfl, herror⟩
  | succ i =>
    rw [List.getElem?_cons_succ] at hi
    have hshift : attempt + (i + 1) = attempt + 1 + i := by omega
    rw [hshift]
    exact h i retry hi

/-- The attempts of the retries have failed. -/
theorem Numbered.failed {attempt i : ℕ} {retries : List Retry}
    (h : Numbered policy results attempt retries) (hle : attempt ≤ i)
    (hlt : i < retries.length + attempt) : results i ≠ .ok () := by
  have hget : i - attempt < retries.length := by omega
  obtain ⟨-, -, herror⟩ := h (i - attempt) _ (List.getElem?_eq_getElem hget)
  have hi : attempt + (i - attempt) = i := by omega
  rw [hi] at herror
  rw [herror]
  simp

theorem le_limit (hmax : policy.maxAttempts = .fin limit hlimit) {attempt : ℕ}
    (hle : attempt ≤ limit) : Number.le (.ofNat attempt) policy.maxAttempts = true := by
  have hq : (attempt : ℚ) ≤ limit := Nat.cast_le.mpr hle
  rw [hmax, Number.ofNat_of_representable (Number.representable_natCast_of_le hlimit hq),
    Number.le_fin]
  exact decide_eq_true hq

theorem limit_le (hmax : policy.maxAttempts = .fin limit hlimit) {attempt : ℕ}
    (hle : attempt ≤ limit) :
    Number.le policy.maxAttempts (.ofNat attempt) = decide (limit ≤ attempt) := by
  have hq : (attempt : ℚ) ≤ limit := Nat.cast_le.mpr hle
  rw [hmax, Number.ofNat_of_representable (Number.representable_natCast_of_le hlimit hq),
    Number.le_fin]
  exact decide_eq_decide.mpr Nat.cast_le

section Attempt

variable (hmax : policy.maxAttempts = .fin limit hlimit) {attempt : ℕ} (hle : attempt ≤ limit)
  {trace : List ProducerCall} (hcount : trace.count publish + 1 = attempt) (fuel : ℕ)
  (lastError : JsThrow)

include hmax hle hcount

/-- An attempt that goes through ends the loop. -/
theorem run_attempt_ok (hok : results attempt = .ok ()) :
    (attempts policy true (fuel + 1) attempt lastError).run (answer (resultsOf results)) trace =
      (.ok (), trace ++ [publish]) := by
  have hreply : answer (resultsOf results) trace publish = (.ok (), trace ++ [publish]) := by
    simp only [answer, resultsOf, hcount, hok]
  rw [attempts, if_pos (le_limit hmax hle), Async.run_tryCatch, Async.run_perform, hreply]

/-- So does a failure of the last one, with its error. -/
theorem run_attempt_last {error : JsThrow} (herror : results attempt = .error error)
    (hlast : limit ≤ attempt) :
    (attempts policy true (fuel + 1) attempt lastError).run (answer (resultsOf results)) trace =
      (.error error, trace ++ [publish]) := by
  have hreply : answer (resultsOf results) trace publish = (.error error, trace ++ [publish]) := by
    simp only [answer, resultsOf, hcount, herror]
  have hbreak : Number.le policy.maxAttempts (.ofNat attempt) = true := by
    rw [limit_le hmax hle]
    exact decide_eq_true hlast
  rw [attempts, if_pos (le_limit hmax hle), Async.run_tryCatch, Async.run_perform, hreply]
  simp only [hbreak, if_true, Async.run_reject]

/-- After any other failure the callback is told, the delay is waited out and the
loop goes on. -/
theorem run_attempt_retry {error : JsThrow} (herror : results attempt = .error error)
    (hlt : attempt < limit) :
    (attempts policy true (fuel + 1) attempt lastError).run (answer (resultsOf results)) trace =
      (attempts policy true fuel (attempt + 1) error).run (answer (resultsOf results))
        (trace ++ Retry.calls
          ⟨attempt + 1, calculateBackoffMs (.ofNat attempt) policy, error⟩) := by
  have hreply : answer (resultsOf results) trace publish = (.error error, trace ++ [publish]) := by
    simp only [answer, resultsOf, hcount, herror]
  have hnext : Number.le policy.maxAttempts (.ofNat attempt) = false := by
    rw [limit_le hmax hle]
    exact decide_eq_false (by omega)
  rw [attempts, if_pos (le_limit hmax hle), Async.run_tryCatch, Async.run_perform, hreply]
  simp only [hnext, Bool.false_eq_true, if_false, if_true, Async.run_bind, Async.run_perform]
  simp only [answer, resultsOf, Retry.calls, List.append_assoc, List.cons_append, List.nil_append]

end Attempt

/-- The loop from an attempt within the limit: it ends at the first success, or
at the limit with the error of its last attempt. -/
theorem run_attempts (hmax : policy.maxAttempts = .fin limit hlimit) (fuel : ℕ) {attempt : ℕ}
    {trace : List ProducerCall} (hcount : trace.count publish + 1 = attempt)
    (hle : attempt ≤ limit) (hfuel : limit < attempt + fuel) (lastError : JsThrow) :
    ∃ n retries, n ≤ limit ∧ (n < limit → results n = .ok ()) ∧
      retries.length + attempt = n ∧ Numbered policy results attempt retries ∧
      (attempts policy true fuel attempt lastError).run (answer (resultsOf results)) trace =
        (results n, trace ++ callsOf retries) := by
  induction fuel generalizing attempt trace lastError with
  | zero => omega
  | succ fuel ih =>
    cases hres : results attempt with
    | ok u =>
      have hrun := run_attempt_ok results hmax hle hcount fuel lastError hres
      exact ⟨attempt, [], hle, fun _ => hres, by simp, fun i retry hi => by simp at hi,
        by rw [hrun, hres]; rfl⟩
    | error error =>
      by_cases hlt : attempt < limit
      · have hstep := run_attempt_retry results hmax hle hcount fuel lastError hres hlt
        have hcalls : (trace ++ Retry.calls ⟨attempt + 1,
            calculateBackoffMs (.ofNat attempt) policy, error⟩).count publish = attempt := by
          rw [List.count_append, Retry.count_calls, hcount]
        obtain ⟨n, retries, hn, hok, hlen, hnum, hrun⟩ :=
          ih (congrArg (· + 1) hcalls) hlt (by omega) error
        refine ⟨n, _ :: retries, hn, hok, ?_, hnum.cons results hres, ?_⟩
        · rw [List.length_cons]
          omega
        · rw [hstep, hrun]
          simp [callsOf]
      · have hrun := run_attempt_last results hmax hle hcount fuel lastError hres (by omega)
        exact ⟨attempt, [], hle, fun h => absurd h hlt, by simp, fun i retry hi => by simp at hi,
          by rw [hrun, hres]; rfl⟩

def fourAttempts : RetryPolicyConfig where
  maxAttempts := 4
  baseDelayMs := 10
  maxDelayMs := 25
  backoffMultiplier := 2

/-- The broker is down for two attempts. -/
def downTwice (i : ℕ) : Except JsThrow Unit :=
  if i ≤ 2 then .error (.error "Error" "broker down") else .ok ()

end Runs

end ProducerCall

end EventFlow.Shared
