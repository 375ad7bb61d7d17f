import EventFlow.Payments.Rules
import EventFlow.Saga.Lineage

namespace EventFlow.Saga

open Js Shared Services Async Retry
open Payment (OrderCreatedEvent evaluatePaymentRules resolvePaymentBusinessRules
  simulatePaymentGateway formatRuleViolations resolvePaymentFailureRate pickSimulatedFailure
  isPaymentForceFailureEnabled paymentFailureScenarios PaymentRuleViolation envNumber unitToNumber)

section Gateway

/-- `PAYMENT_FAILURE_RATE` as a Number, before it is clamped. -/
def givenRate (env : String → Option String) : Number :=
  envNumber env "PAYMENT_FAILURE_RATE" (.ofRat (1 / 5))

/-- Failure is forced, or its rate is the whole. -/
def Refusing (env : String → Option String) : Prop :=
  isPaymentForceFailureEnabled env = true ∨ Number.le 1 (givenRate env) = true

/-- Failure is not forced, and its rate is nothing. -/
def Reliable (env : String → Option String) : Prop :=
  isPaymentForceFailureEnabled env = false ∧ Number.le (givenRate env) 0 = true

/-- Whatever is drawn, the gateway declines. -/
def AlwaysDeclines (env : String → Option String) : Prop :=
  ∀ proc : Process, proc.env = env → ∀ paymentId,
    (simulatePaymentGateway proc { paymentId := paymentId }).outcome = .failed

/-- Whatever is drawn, it approves. -/
def NeverDeclines (env : String → Option String) : Prop :=
  ∀ proc : Process, proc.env = env → ∀ paymentId,
    (simulatePaymentGateway proc { paymentId := paymentId }).outcome = .approved

variable {env : String → Option String} {proc : Process} {paymentId : Option String}

/-- The rate in force is a fraction, and the ends of the scale are those of the variable. -/
theorem resolvePaymentFailureRate_spec (env : String → Option String) : ∃ q h,
    resolvePaymentFailureRate env = .fin q h ∧ 0 ≤ q ∧ q ≤ 1 ∧
      (q = 0 ↔ Number.le (givenRate env) 0 = true) ∧
      (q = 1 ↔ Number.le 1 (givenRate env) = true) := by
  have hfifth : Representable (1 / 5) :=
    Number.representable_between Number.representable_zero Number.representable_one
      (by norm_num) (by norm_num)
  have hunfold : resolvePaymentFailureRate env = if (givenRate env).isNaN then .ofRat (1 / 5)
      else Number.min 1 (Number.max 0 (givenRate env)) := rfl
  rw [hunfold, Number.zero_eq, Number.one_eq]
  cases givenRate env with
  | nan =>
    refine ⟨1 / 5, hfifth, Number.ofRat_of_representable hfifth, by norm_num, by norm_num, ?_, ?_⟩
    · norm_num [Number.le]
    · norm_num [Number.le]
  | posInf =>
    refine ⟨1, Number.representable_one, rfl, by norm_num, by norm_num, ?_, ?_⟩
    · norm_num [Number.le]
    · norm_num [Number.le]
  | negInf =>
    refine ⟨0, Number.representable_zero, ?_, by norm_num, by norm_num, ?_, ?_⟩
    · simp [Number.isNaN, Number.max, Number.min, Number.lt]
    · norm_num [Number.le]
    · norm_num [Number.le]
  | fin q h =>
    rcases le_or_gt q 0 with hlow | hpos
    · refine ⟨0, Number.representable_zero, ?_, by norm_num, by norm_num, ?_, ?_⟩
      · have hnot : ¬ 0 < q := not_lt.mpr hlow
        simp [Number.isNaN, Number.max, Number.min, Number.lt, hnot]
      · simp [hlow]
      · have hone : ¬ 1 ≤ q := by linarith
        simp [hone]
    have hzero : ¬ q ≤ 0 := not_le.mpr hpos
    rcases le_or_gt 1 q with hhigh | hlt
    · refine ⟨1, Number.representable_one, ?_, by norm_num, by norm_num, ?_, ?_⟩
      · have hnot : ¬ q < 1 := not_lt.mpr hhigh
        simp [Number.isNaN, Number.max, Number.min, Number.lt, hpos, hnot]
      · simp [hzero]
      · simp [hhigh]
    · refine ⟨q, h, ?_, hpos.le, hlt.le, ?_, ?_⟩
      · simp [Number.isNaN, Number.max, Number.min, Number.lt, hpos, hlt]
      · simp [hzero, hpos.ne']
      · simp [not_le.mpr hlt, hlt.ne]

/-- The gateway approves when failure is not forced and the draw is not below the rate. -/
theorem outcome_eq_approved_iff : (simulatePaymentGateway proc { paymentId := paymentId }).outcome =
      .approved ↔ isPaymentForceFailureEnabled proc.env = false ∧
        Number.lt (unitToNumber (proc.random 0)) (resolvePaymentFailureRate proc.env) = false := by
  simp only [simulatePaymentGateway, Option.getD_none, Bool.not_eq_true']
  cases isPaymentForceFailureEnabled proc.env <;>
    cases Number.lt (unitToNumber (proc.random 0)) (resolvePaymentFailureRate proc.env) <;> simp

theorem outcome_eq_failed_iff : (simulatePaymentGateway proc { paymentId := paymentId }).outcome =
      .failed ↔ isPaymentForceFailureEnabled proc.env = true ∨
        Number.lt (unitToNumber (proc.random 0)) (resolvePaymentFailureRate proc.env) = true := by
  have hother : (simulatePaymentGateway proc { paymentId := paymentId }).outcome = .failed ↔
      ¬ (simulatePaymentGateway proc { paymentId := paymentId }).outcome = .approved := by
    cases (simulatePaymentGateway proc { paymentId := paymentId }).outcome <;> simp
  rw [hother, outcome_eq_approved_iff, not_and_or, Bool.not_eq_false, Bool.not_eq_false]

/-- A process that draws this first. -/
def drawingFirst (env : String → Option String) (r : UnitFraction) : Process :=
  { Process.still .first r with env := env }

theorem lt_resolvePaymentFailureRate {q : ℚ} {h : Representable q}
    (hrate : resolvePaymentFailureRate env = .fin q h) (r : UnitFraction) :
    Number.lt (unitToNumber r) (resolvePaymentFailureRate env) = decide (r.val < q) := by
  rw [hrate]
  rfl

theorem alwaysDeclines_iff (env : String → Option String) : AlwaysDeclines env ↔ Refusing env := by
  obtain ⟨q, hq, hrate, hlow, hhigh, -, hone⟩ := resolvePaymentFailureRate_spec env
  have hdraw := lt_resolvePaymentFailureRate hrate
  rw [Refusing, ← hone]
  constructor
  · intro hall
    by_contra hnot
    obtain ⟨hforce, hne⟩ := not_or.mp hnot
    -- a draw at the rate itself goes through
    let r : UnitFraction := ⟨q, hlow, lt_of_le_of_ne hhigh hne⟩
    rcases outcome_eq_failed_iff.mp (hall (drawingFirst env r) rfl none) with h | h
    · exact hforce h
    · have hlt : decide (q < q) = true := (hdraw r).symm.trans h
      simp at hlt
  · intro hcond proc hproc paymentId
    rw [outcome_eq_failed_iff, hproc]
    rcases hcond with hforce | hq1
    · exact .inl hforce
    · refine .inr ?_
      rw [hdraw, hq1]
      exact decide_eq_true (proc.random 0).2.2

theorem neverDeclines_iff (env : String → Option String) : NeverDeclines env ↔ Reliable env := by
  obtain ⟨q, hq, hrate, hlow, hhigh, hzero, -⟩ := resolvePaymentFailureRate_spec env
  have hdraw := lt_resolvePaymentFailureRate hrate
  rw [Reliable, ← hzero]
  constructor
  · intro hall
    let r : UnitFraction := ⟨0, le_refl _, by norm_num⟩
    obtain ⟨hforce, h⟩ := outcome_eq_approved_iff.mp (hall (drawingFirst env r) rfl none)
    have hlt : decide (0 < q) = false := (hdraw r).symm.trans h
    exact ⟨hforce, le_antisymm (not_lt.mp (of_decide_eq_false hlt)) hlow⟩
  · intro hcond proc hproc paymentId
    obtain ⟨hforce, hq0⟩ := hcond
    rw [outcome_eq_approved_iff, hproc]
    refine ⟨hforce, ?_⟩
    rw [hdraw, hq0]
    exact decide_eq_false (not_lt.mpr (proc.random 0).2.1)

/-- The environment alone decides the gateway exactly in two cases: it declines for certain when
failure is forced or the given rate is at least 1, and approves for certain when failure is not
forced and the given rate is at most 0. A rate that is no number decides nothing. -/
theorem gateway_decided_by_env (env : String → Option String) :
    (AlwaysDeclines env ↔ isPaymentForceFailureEnabled env = true ∨
      Number.le 1 (givenRate env) = true) ∧
    (NeverDeclines env ↔ isPaymentForceFailureEnabled env = false ∧
      Number.le (givenRate env) 0 = true) :=
  ⟨alwaysDeclines_iff env, neverDeclines_iff env⟩

end Gateway

section Statement

/-- payment-service handles orders only in such environments. -/
def Paying (envs : (String → Option String) → Prop) (a : Author) : Prop :=
  ∀ proc headers payload,
    a = .service (.consume .paymentOrderEvents proc headers payload) → envs proc.env

/-- The rules that the order of a record breaks. -/
def violationsOf (env : String → Option String) (r : KafkaRecord) : List PaymentRuleViolation :=
  evaluatePaymentRules (OrderCreatedEvent.ofJs (envelopeOf r)).payload
    (resolvePaymentBusinessRules env)

/-- The reason for which an order is not paid: the rules that it breaks, or a failure of the
gateway when it breaks none. -/
inductive Refusal (envs : (String → Option String) → Prop) (created : KafkaRecord)
    (reason : JsVal) : Prop
  | rule {env} : envs env → violationsOf env created ≠ [] →
      reason = .str ("business_rule: " ++ formatRuleViolations (violationsOf env created)) →
      Refusal envs created reason
  | gateway {env scenario} : envs env → violationsOf env created = [] → ¬ Reliable env →
      scenario ∈ paymentFailureScenarios → reason = .str scenario.message →
      Refusal envs created reason

def reasonOf (r : KafkaRecord) : JsVal := ((envelopeOf r).get "payload").get "reason"

/-- A failed payment names the request it answers, the request names the order it is for, and
the reason is that order's. -/
structure Reasoned (envs : (String → Option String) → Prop) (orderId : String)
    (created requested failed : KafkaRecord) : Prop where
  ordered : Routed .orderCreated orderId created
  asked : Routed .paymentRequested orderId requested
  request : Carries .paymentRequested created requested
  answer : Carries .paymentFailed requested failed
  reason : Refusal envs created (reasonOf failed)

end Statement

section Turns

variable {envs : (String → Option String) → Prop} {w : World Author} {a : Author} {done : List Op}
  {op : Op} {r r₀ : KafkaRecord} {orderId key : String} {proc : Process} {v reason : JsVal}

/-- A failure of the gateway is one of the catalogue, and not of a reliable one. -/
theorem failureReason_listed {paymentId : Option String}
    (hfailed : (simulatePaymentGateway proc { paymentId := paymentId }).outcome = .failed) :
    ¬ Reliable proc.env ∧ ∃ scenario ∈ paymentFailureScenarios, (simulatePaymentGateway proc
      { paymentId := paymentId }).failureReason = some scenario.message := by
  constructor
  · intro hreliable
    rw [(neverDeclines_iff proc.env).mpr hreliable proc rfl paymentId] at hfailed
    cases hfailed
  · refine ⟨pickSimulatedFailure (proc.random 1), List.get_mem _ _, ?_⟩
    unfold simulatePaymentGateway at hfailed ⊢
    dsimp only at hfailed ⊢
    split_ifs at hfailed ⊢ <;> rfl

/-- What payment-service declines, it gives the reason of. -/
theorem refusal_declined (henv : envs proc.env) (htaken : Taken w .paymentOrderEvents r₀ orderId v)
    (hno : ¬ Approves proc (.ofJs v)) : Refusal envs r₀ (.str (declineReason proc (.ofJs v))) := by
  have hviolations : violationsOf proc.env r₀ = evaluatePaymentRules
      (OrderCreatedEvent.ofJs v).payload (resolvePaymentBusinessRules proc.env) := by
    rw [violationsOf, envelopeOf_value htaken.value]
  by_cases hnone : violationsOf proc.env r₀ = []
  · have hkept := hviolations.symm.trans hnone
    have hempty := List.isEmpty_iff.mpr hkept
    have hfailed : (simulatePaymentGateway proc { paymentId := some (proc.uuid 0).val }).outcome =
        .failed := by
      cases houtcome : (simulatePaymentGateway proc
          { paymentId := some (proc.uuid 0).val }).outcome with
      | failed => rfl
      | approved => exact absurd ⟨hkept, houtcome⟩ hno
    obtain ⟨hunreliable, scenario, hscenario, hmessage⟩ := failureReason_listed hfailed
    refine .gateway henv hnone hunreliable hscenario ?_
    rw [declineReason, if_pos hempty, hmessage]
    rfl
  · have hsome : ¬ (evaluatePaymentRules (OrderCreatedEvent.ofJs v).payload
        (resolvePaymentBusinessRules proc.env)).isEmpty = true := by
      rw [← hviolations]
      exact fun hempty => hnone (List.isEmpty_iff.mp hempty)
    refine .rule henv hnone ?_
    rw [hviolations, declineReason, if_neg hsome]

theorem reasoned_turn (hlog : Ledger w.log)
    (hall : ∀ pre x post, w.log = pre ++ x :: post → ∀ o, Routed .paymentFailed o x →
      ∃ created ∈ pre, ∃ requested ∈ pre, Reasoned envs o created requested x)
    (hpaying : Paying envs a) (hturn : Turn w a done (.emit r))
    (hrouted : Routed .paymentFailed orderId r) :
    ∃ created ∈ w.log, ∃ requested ∈ w.log, Reasoned envs orderId created requested r := by
  rcases announced_of_turn hlog hturn hrouted nofun nofun with
    ⟨h, proc, headers, r₀, v, event, key, rfl, htaken, hann, rfl⟩ | ⟨x, hx, hrouted', henvelope⟩
  · cases hann with
    | failed hp hno =>
      obtain ⟨requested, hmem, hasked, hrequest, hanswer⟩ :=
        asked_of_announced key htaken hturn.recorded (.failed hp hno) nofun
      refine ⟨r₀, htaken.mem, requested, hmem, htaken.routed, hasked, hrequest, hanswer, ?_⟩
      have hreason : reasonOf (domainRecord .paymentFailed key (declined proc (.ofJs v)
          (declineReason proc (.ofJs v))) []) = .str (declineReason proc (.ofJs v)) :=
        JsVal.get_get_wire_str rfl
      rw [hreason]
      exact refusal_declined (hpaying _ _ _ rfl) htaken hno
  · -- a copy is as well founded as what it copies
    obtain ⟨pre, post, hsplit⟩ := List.append_of_mem hx
    obtain ⟨created, hcreated, requested, hrequested, hreasoned⟩ :=
      hall pre x post hsplit orderId hrouted'
    have hle : pre <+: w.log := ⟨x :: post, hsplit.symm⟩
    refine ⟨created, hle.subset hcreated, requested, hle.subset hrequested, hreasoned.ordered,
      hreasoned.asked, hreasoned.request, hreasoned.answer.congr henvelope, ?_⟩
    rw [reasonOf, henvelope]
    exact hreasoned.reason

/-- Where every gateway declines, no payment is announced as made. -/
theorem unpaid_turn (hlog : Ledger w.log)
    (hall : ∀ r ∈ w.log, ∀ o, ¬ Routed .paymentProcessed o r)
    (hpaying : Paying Refusing a) (hturn : Turn w a done (.emit r)) :
    ¬ Routed .paymentProcessed orderId r := by
  intro hrouted
  rcases announced_of_turn hlog hturn hrouted nofun nofun with
    ⟨h, proc, headers, r₀, v, event, key, rfl, htaken, hann, rfl⟩ | ⟨r₀, hr₀, hrouted₀, -⟩
  · cases hann with
    | processed _ hyes =>
      have hfailed := (alwaysDeclines_iff proc.env).mpr (hpaying _ _ _ rfl) proc rfl
        (some (proc.uuid 0).val)
      rw [hyes.2] at hfailed
      cases hfailed
  · exact hall r₀ hr₀ orderId hrouted₀

end Turns

section Runs

variable {envs : (String → Option String) → Prop} {ι : Type} [DecidableEq ι]
  {ls : List (PoolAct ι Author Op JsThrow)}
  {s : Pool ι (World Author) Author Op Op.Resp JsThrow JsVal}

omit [DecidableEq ι] in
theorem starting_paying (s : Pool ι (World Author) Author Op Op.Resp JsThrow JsVal) (i : ι)
    (a : Author) (hstart : Starting (Paying envs) s (.start i a)) : Paying envs a := hstart i a rfl

/-- A `payment.failed` always says why: it comes after its own `order.created`, and names the
rules that this breaks in the environment of a payment process of the run, all of them, or, when
none is broken and the gateway of that environment may fail at all, one failure of the catalogue. -/
theorem failures_say_why
    (hrun : RunWhere (Pool.Step eventFlow) (Starting (Paying envs)) (Pool.idle World.empty) ls s) :
    ∀ pre r post, s.world.log = pre ++ r :: post → ∀ orderId, Routed .paymentFailed orderId r →
      ∃ created ∈ pre, ∃ requested ∈ pre, Reasoned envs orderId created requested r := by
  refine log_history starting_paying (fun _ _ _ hle h orderId hrouted => ?_)
    (fun w a done r hlog hall hpaying hturn orderId hrouted =>
      reasoned_turn hlog hall hpaying hturn hrouted) hrun
  obtain ⟨created, hcreated, requested, hrequested, hreasoned⟩ := h orderId hrouted
  exact ⟨created, hle.subset hcreated, requested, hle.subset hrequested, hreasoned⟩

theorem unpaid_of_run
    (hrun : RunWhere (Pool.Step eventFlow) (Starting (Paying Refusing)) (Pool.idle World.empty) ls s) :
    ∀ orderId, ¬ Backed s.world.log .paymentProcessed orderId := by
  have hall := log_invariant (P := fun _ r => ∀ orderId, ¬ Routed .paymentProcessed orderId r)
    starting_paying (fun _ _ _ _ h => h) (fun w a done r hlog hall hpaying hturn orderId =>
      unpaid_turn hlog hall hpaying hturn) hrun
  intro orderId hbacked
  obtain ⟨r, hr, hrouted⟩ := hbacked
  exact hall r hr orderId hrouted

/-- Where failure is forced or has the whole rate in every payment process, nothing is ever paid:
the log holds only orders, cancellations, requested and failed payments and released stock; no
order is completed, and no payment approved. -/
theorem refused_payments_stop
    (hrun : RunWhere (Pool.Step eventFlow) (Starting (Paying Refusing)) (Pool.idle World.empty) ls s) :
    (∀ r ∈ s.world.log, ∀ t orderId, Routed t orderId r → t ∈ [EventType.orderCreated,
      .orderCancelled, .paymentRequested, .paymentFailed, .stockReleased]) ∧
    (∀ id row, s.world.orders.find? id = some row → row.status ≠ .completed) ∧
    ∀ id row, s.world.processed.find? id = some row → row.outcome ≠ .approved := by
  have hunpaid := unpaid_of_run hrun
  have hexplained : Explained s.world := explained_of_run hrun
  have hlog : Ledger s.world.log := hexplained.ledger
  have hnot : ∀ {t orderId}, Backed s.world.log t orderId → EventType.paymentProcessed ∉ leadsTo t :=
    fun hbacked hmem => hunpaid _ (hlog.preceded hbacked hmem)
  refine ⟨fun r hr t orderId hrouted => ?_, fun id row hrow hstatus => ?_,
    fun id row hrow houtcome => ?_⟩
  · have hbefore := hnot ⟨r, hr, hrouted⟩
    have hpossible := hlog.possible hr hrouted
    cases t with
    | stockFailed => exact absurd hpossible not_possible_failures.1
    | notificationFailed => exact absurd hpossible not_possible_failures.2
    | paymentProcessed | stockReserved | notificationSend | notificationSent =>
      exact absurd (by decide) hbefore
    | _ => decide
  · have hbefore := hnot ((hexplained.orders id row hrow).completed hstatus)
    exact absurd (by decide) hbefore
  · obtain ⟨r, hr, hrouted, -⟩ := (hexplained.processed id row hrow).approved houtcome
    exact hunpaid _ ⟨r, hr, hrouted⟩

/-- A process of the demo in which every payment fails. -/
def forcedProcess : Process :=
  { drawing "b" with env := fun name => if name = "PAYMENT_FORCE_FAILURE" then some "true" else none }

/-- An order whose payment fails. -/
theorem refusedStory_run : ∃ ls, ∃ w : World Author,
    RunWhere (Pool.Step eventFlow) (Starting (Paying Refusing))
      (Pool.idle World.empty : Pool Unit (World Author) Author Op Op.Resp JsThrow JsVal) ls
      (Pool.idle w) ∧
    ∃ r ∈ w.log, (envelopeOf r).get "eventType" = .str EventType.paymentFailed.value := by
  let w : World Author := eventFlow.called sampleOrder World.empty
  have hrecord : ∃ r ∈ w.log, r.topic = orderEventsTopic ∧
      ∃ x ∈ (eventFlow.called
          (.service (.consume .paymentOrderEvents forcedProcess r.headers r.value)) w).log,
        (envelopeOf x).get "eventType" = .str EventType.paymentFailed.value := by decide +kernel
  obtain ⟨r, hr, htopic, hfailed⟩ := hrecord
  have hordered : ∃ ls, RunWhere (Pool.Step eventFlow) (Starting (Paying Refusing))
      (Pool.idle World.empty : Pool Unit (World Author) Author Op Op.Resp JsThrow JsVal) ls
      (Pool.idle w) := flowed_starting trivial nofun
  have hforced : Refusing forcedProcess.env := .inl (by decide)
  have hpaid : ∃ ms, RunWhere (Pool.Step eventFlow) (Starting (Paying Refusing))
      (Pool.idle w : Pool Unit (World Author) Author Op Op.Resp JsThrow JsVal) ms
      (Pool.idle (eventFlow.called (.service (.consume .paymentOrderEvents forcedProcess r.headers
        r.value)) w)) := by
    refine flowed_starting ⟨r, hr, htopic, rfl, rfl⟩ fun proc headers payload heq => ?_
    cases heq
    exact hforced
  obtain ⟨ls, hordered⟩ := hordered
  obtain ⟨ms, hpaid⟩ := hpaid
  exact ⟨ls ++ ms, _, hordered.trans hpaid, hfailed⟩

theorem failures_say_why_forced : ∃ ls,
    ∃ s : Pool Unit (World Author) Author Op Op.Resp JsThrow JsVal,
      RunWhere (Pool.Step eventFlow) (Starting (Paying Refusing)) (Pool.idle World.empty) ls s ∧
      (∃ r ∈ s.world.log, (envelopeOf r).get "eventType" = .str EventType.paymentFailed.value) ∧
      ∀ pre r post, s.world.log = pre ++ r :: post → ∀ orderId, Routed .paymentFailed orderId r →
        ∃ created ∈ pre, ∃ requested ∈ pre, Reasoned Refusing orderId created requested r := by
  obtain ⟨ls, w, hrun, hfailed⟩ := refusedStory_run
  exact ⟨ls, _, hrun, hfailed, failures_say_why hrun⟩

theorem refused_payments_stop_forced : ∃ ls,
    ∃ s : Pool Unit (World Author) Author Op Op.Resp JsThrow JsVal,
      RunWhere (Pool.Step eventFlow) (Starting (Paying Refusing)) (Pool.idle World.empty) ls s ∧
      (∃ r ∈ s.world.log, (envelopeOf r).get "eventType" = .str EventType.paymentFailed.value) ∧
      (∀ r ∈ s.world.log, ∀ t orderId, Routed t orderId r → t ∈ [EventType.orderCreated,
        .orderCancelled, .paymentRequested, .paymentFailed, .stockReleased]) ∧
      (∀ id row, s.world.orders.find? id = some row → row.status ≠ .completed) ∧
      ∀ id row, s.world.processed.find? id = some row → row.outcome ≠ .approved := by
  obtain ⟨ls, w, hrun, hfailed⟩ := refusedStory_run
  exact ⟨ls, _, hrun, hfailed, refused_payments_stop hrun⟩

end Runs

end EventFlow.Saga
