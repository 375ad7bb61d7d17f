import EventFlow.Framework.Transition
import EventFlow.Retry.Exact
import Mathlib.Algebra.BigOperators.Fin
import Mathlib.Data.Fintype.BigOperators

namespace EventFlow.Retry

open Js Shared Services KafkaRetryExecutor

/-- A consumer group of a method, in the environment and with the libraries of its service. -/
structure Subscriber where
  method : RetriedHandler
  env : String → Option String
  drivers : Drivers

/-- Whether a reply is a given outcome. -/
def isOutcome (o : RetryOutcome) : Except JsThrow RetryOutcome → Bool
  | .ok o' => o' = o
  | .error _ => false

theorem isOutcome_iff {o : RetryOutcome} {x : Except JsThrow RetryOutcome} :
    isOutcome o x = true ↔ x = .ok o := by
  cases x with
  | ok o' => simp [isOutcome]
  | error e => simp [isOutcome]

theorem isOutcome_eq_false {o : RetryOutcome} {x : Except JsThrow RetryOutcome} (h : x ≠ .ok o) :
    isOutcome o x = false := by
  rw [← Bool.not_eq_true, isOutcome_iff]
  exact h

namespace Subscriber

def group (m : Subscriber) : Group := .runner m.method m.env m.drivers

def policy (m : Subscriber) : RetryPolicyConfig := resolveConsumerRetryPolicy m.env

def topic (m : Subscriber) : String := resolveKafkaTopic m.method.eventType

/-- How the executor ends on a message that has been republished so many times. -/
def reply (m : Subscriber) (envelope : JsVal) (count : ℕ) (result : Option HandlerError) :
    Except JsThrow RetryOutcome :=
  m.group.reply (trips envelope count) (.counted (count + 1)) result

variable {m : Subscriber} {envelope : JsVal} {count : ℕ} {result : Option HandlerError}

theorem isFinite_policy (m : Subscriber) : m.group.policy.maxAttempts.isFinite = true :=
  isFinite_resolveConsumer m.env

/-- What can be answered leaves a copy or a failure record when it fails, never both. -/
theorem outcomes_of_answerable
    (hable : m.group.Answerable (trips envelope count) (.counted (count + 1)))
    (hkey : ∃ key, resolvePartitionKey (trips envelope count) = .ok key) :
    (isOutcome .retry (m.reply envelope count result)).toNat +
      (isOutcome .dlq (m.reply envelope count result)).toNat = result.isSome.toNat := by
  cases result with
  | none => rfl
  | some e =>
    cases hretry : shouldRetry (.counted (count + 1)) m.group.policy with
    | true => rw [reply, reply_retry_iff.mpr ⟨rfl, hretry, hkey, hable⟩]; rfl
    | false => rw [reply, reply_dlq_iff.mpr ⟨rfl, hretry, hable⟩]; rfl

end Subscriber

section Outcomes

variable {g : Group} {proc : Process} {envelope : JsVal} {x : Number} {script : Option HandlerError}
  {d : Delivery}

/-- A delivery leaves a copy exactly when its reply is another attempt. -/
theorem Answers.copies (h : Answers g proc envelope x script d) :
    (d.sent (resolveKafkaTopic g.eventType)).length =
      (isOutcome .retry (g.reply envelope x.succ script)).toNat := by
  by_cases hretry : g.reply envelope x.succ script = .ok .retry
  · obtain ⟨key, -, hsent, -⟩ := h.sent_retry hretry
    rw [hsent, isOutcome_iff.mpr hretry]
    rfl
  · rw [h.sent_own hretry, isOutcome_eq_false hretry]
    rfl

theorem Answers.copy (h : Answers g proc envelope x script d) {r : KafkaRecord}
    (hr : r ∈ d.sent (resolveKafkaTopic g.eventType)) :
    g.reply envelope x.succ script = .ok .retry ∧ ∃ key, resolvePartitionKey envelope = .ok key ∧
      r = g.retryRecord proc key envelope x.succ := by
  by_cases hretry : g.reply envelope x.succ script = .ok .retry
  · obtain ⟨key, hkey, hsent, -⟩ := h.sent_retry hretry
    rw [hsent] at hr
    exact ⟨hretry, key, hkey, List.mem_singleton.mp hr⟩
  · rw [h.sent_own hretry] at hr
    cases hr

/-- It leaves a failure record exactly when its reply is that it gave up. -/
theorem Answers.dead (h : Answers g proc envelope x script d) :
    (d.sent (toDlqTopic (resolveKafkaTopic g.eventType))).length =
      (isOutcome .dlq (g.reply envelope x.succ script)).toNat := by
  by_cases hdlq : g.reply envelope x.succ script = .ok .dlq
  · obtain ⟨r, -, -, hsent, -⟩ := h.sent_dlq hdlq
    rw [hsent, isOutcome_iff.mpr hdlq]
    rfl
  · rw [isOutcome_eq_false hdlq]
    by_cases hretry : g.reply envelope x.succ script = .ok .retry
    · rw [(h.retryRound hretry).quiet]
      rfl
    · rw [h.sent_nil hretry hdlq]
      rfl

end Outcomes

/-- The consumer groups that handle one event type, all on its topic. -/
structure Audience (ι : Type) where
  eventType : EventType
  member : ι → Subscriber
  same : ∀ i, (member i).method.eventType = eventType

/-- The topic, its companion, and what every group has done with which offset. -/
structure TopicState (ι : Type) where
  records : List KafkaRecord
  dead : List KafkaRecord
  deliveries : ι → List (ℕ × Delivery)

namespace TopicState

variable {ι : Type} [DecidableEq ι]

def init (record : KafkaRecord) : TopicState ι := ⟨[record], [], fun _ => []⟩

/-- A delivery leaves its records behind for everyone. -/
def deliver (s : TopicState ι) (topic : String) (i : ι) (offset : ℕ) (d : Delivery) :
    TopicState ι where
  records := s.records ++ d.sent topic
  dead := s.dead ++ d.sent (toDlqTopic topic)
  deliveries := Function.update s.deliveries i (s.deliveries i ++ [(offset, d)])

/-- How many times a group has been handed the message. -/
def attempts (s : TopicState ι) (i : ι) : ℕ := (s.deliveries i).length

def offsets (s : TopicState ι) (i : ι) : List ℕ := (s.deliveries i).map Prod.fst

def runs (s : TopicState ι) (i : ι) : ℕ := handlerRuns ((s.deliveries i).map Prod.snd)

/-- Every record has reached every group. -/
def Complete (s : TopicState ι) : Prop := ∀ i j, j < s.records.length → j ∈ s.offsets i

end TopicState

open TopicState

/-- One group takes one record it has not had yet; `script` says how its next attempt
ends. -/
inductive TopicStep {ι : Type} [DecidableEq ι] (a : Audience ι)
    (script : ι → ℕ → Option HandlerError) :
    TopicState ι → ι × ℕ × Process → TopicState ι → Prop
  | deliver {s : TopicState ι} {i : ι} {j : ℕ} {proc : Process} {record : KafkaRecord} :
      s.records[j]? = some record → j ∉ s.offsets i →
      TopicStep a script s (i, j, proc)
        (s.deliver (resolveKafkaTopic a.eventType) i j
          ((a.member i).group.deliver proc (script i (s.attempts i)) record))

section Solo

variable {m : Subscriber} {envelope : JsVal} {record : KafkaRecord} {procs : ℕ → Process}
  {script : ℕ → Option HandlerError} {fuel n : ℕ}

/-- The `k`-th attempt that a group makes, on its own, of a message. -/
theorem iterate_reply (m : Subscriber) (envelope : JsVal) (script : ℕ → Option HandlerError)
    (j : ℕ) : m.group.reply (trips envelope (0 + j)) (Number.succ^[j + 1] 0) (script (0 + j)) =
      m.reply envelope j (script j) := by
  rw [Nat.zero_add, iterate_succ]
  rfl

/-- A group on its own fails and retries up to some round, and ends with its reply. -/
theorem solo_chain (procs : ℕ → Process) (fuel : ℕ) (hp : Parsed envelope)
    (hc : Carries m.group record envelope 0)
    (hretry : ∀ j < n, m.reply envelope j (script j) = .ok .retry)
    (hend : m.reply envelope n (script n) ≠ .ok .retry) (hfuel : n < fuel) :
    (m.group.chain procs script fuel 0 [record]).length = n + 1 ∧
      handlerRuns (m.group.chain procs script fuel 0 [record]) = n + 1 ∧
      (m.group.chain procs script fuel 0 [record]).getLast?.map Delivery.result =
        some (ack (m.reply envelope n (script n))) := by
  obtain ⟨last, hrounds, hanswers⟩ := chain_rounds hp m.isFinite_policy hc
    (fun j hj => by rw [iterate_reply]; exact hretry j hj) (by rwa [iterate_reply]) hfuel
  have hresult := hanswers.result
  rw [← Function.iterate_succ_apply' Number.succ, iterate_reply] at hresult
  rw [hrounds.handlerRuns_eq hanswers.runs, hrounds.getLast, ← hresult]
  exact ⟨hrounds.length, rfl, rfl⟩

/-- A chain that has not used up its deliveries has come to its end. -/
theorem chain_stable {g : Group} {pending : List KafkaRecord}
    (h : (g.chain procs script fuel n pending).length < fuel) {more : ℕ} (hle : fuel ≤ more) :
    g.chain procs script more n pending = g.chain procs script fuel n pending := by
  induction fuel generalizing n pending more with
  | zero => omega
  | succ fuel ih =>
    obtain ⟨more, rfl⟩ : ∃ more', more = more' + 1 := ⟨more - 1, by omega⟩
    cases pending with
    | nil => rfl
    | cons record pending =>
      rw [Group.chain, List.length_cons] at h
      rw [Group.chain, Group.chain, ih (by omega) (by omega)]

end Solo

end EventFlow.Retry
