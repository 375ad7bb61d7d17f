import EventFlow.Retry.Handlers
import EventFlow.Orders.Wire

namespace EventFlow.Services.Orders

open Js Shared Retry

/-- Which saves and which publish attempts of a call fail, in their order. -/
structure FailurePattern where
  save : ℕ → Option JsThrow
  publish : ℕ → Option JsThrow

/-- The state, and how many saves and attempts the call has made. -/
structure Attempted (C : Type) where
  world : World C
  saves : ℕ
  emits : ℕ

def Attempted.start {C : Type} (w : World C) : Attempted C := ⟨w, 0, 0⟩

/-- What fails has no effect; timers and lookups do not fail. -/
def FailurePattern.settle {C : Type} (p : FailurePattern) (c : C) (s : Attempted C) (op : Op) :
    Except JsThrow op.Resp × Attempted C :=
  match op with
  | .saveOrder row => match p.save s.saves with
    | some e => (.error e, { s with saves := s.saves + 1 })
    | none => (.ok (), { s with world := (s.world.exec c (.saveOrder row)).2, saves := s.saves + 1 })
  | .emit record => match p.publish s.emits with
    | some e => (.error e, { s with emits := s.emits + 1 })
    | none => (.ok (), { s with world := (s.world.exec c (.emit record)).2, emits := s.emits + 1 })
  | op => (.ok (s.world.exec c op).1, { s with world := (s.world.exec c op).2 })

section Attempts

/-- How many publish attempts a policy allows. -/
def attemptsAllowed (policy : RetryPolicyConfig) : ℕ :=
  match policy.maxAttempts with
  | .fin q _ => ⌊q⌋₊
  | _ => 0

theorem le_ofNat_fin {n : ℕ} {q : ℚ} (hq : Representable q) :
    Number.le (.ofNat n) (.fin q hq) = decide ((n : ℚ) ≤ q) := by
  by_cases hn : Representable (n : ℚ)
  · rw [Number.ofNat_of_representable hn, Number.le_fin]
  · have hle : ¬ (n : ℚ) ≤ q := fun hle => hn (Number.representable_natCast_of_le hq hle)
    have hpos : (0 : ℚ) < n := by
      rcases Nat.eq_zero_or_pos n with rfl | h
      · exact absurd (by simpa using Number.representable_zero) hn
      · exact Nat.cast_pos.mpr h
    have hinf : Number.ofNat n = .posInf := by
      rw [Number.ofNat, Number.ofRat, dif_neg hn, if_pos hpos]
    rw [hinf]
    simp [Number.le, hle]

theorem attempt_allowed {policy : RetryPolicyConfig} (hfin : policy.maxAttempts.isFinite = true)
    {n : ℕ} (hn : 1 ≤ n) :
    Number.le (.ofNat n) policy.maxAttempts = decide (n ≤ attemptsAllowed policy) := by
  obtain ⟨q, hq, hmax⟩ := Number.isFinite_iff.mp hfin
  rw [attemptsAllowed, hmax, le_ofNat_fin]
  exact decide_eq_decide.mpr (Nat.le_floor_iff' (by omega)).symm

/-- After the last attempt none is allowed. -/
theorem attemptsAllowed_le {policy : RetryPolicyConfig} (hfin : policy.maxAttempts.isFinite = true)
    {n : ℕ} (h : Number.le policy.maxAttempts (.ofNat n) = true) : attemptsAllowed policy ≤ n := by
  obtain ⟨q, hq, hmax⟩ := Number.isFinite_iff.mp hfin
  have hnat : Number.ofNat n ≠ .nan := Number.ofRat_ne_nan _
  have hbound : Number.fin q hq ≠ .nan := nofun
  rw [hmax, Number.le_eq_not_lt hnat hbound, lt_ofNat_fin] at h
  have hle : q ≤ n := by simpa using h
  rw [attemptsAllowed, hmax]
  exact Nat.floor_le_of_le hle

/-- An attempt from the first on goes through, and what came before it could be logged. -/
def Published (p : FailurePattern) (limit first : ℕ) : Prop :=
  ∃ i, first ≤ i ∧ i < limit ∧ p.publish i = none ∧
    ∀ j, first ≤ j → j < i → ∀ e, p.publish j = some e → Textual e

variable {p : FailurePattern} {limit k : ℕ}

theorem published_of_none (hk : k < limit) (h : p.publish k = none) : Published p limit k :=
  ⟨k, le_rfl, hk, h, fun j hj hlt => absurd hj (by omega)⟩

theorem not_published_of_limit (h : limit ≤ k) : ¬ Published p limit k := by
  rintro ⟨i, hi, hlt, -⟩
  omega

/-- A failed attempt leaves it to the next ones, if its error can be logged. -/
theorem published_succ {e : JsThrow} (h : p.publish k = some e) :
    Published p limit k ↔ Textual e ∧ Published p limit (k + 1) := by
  constructor
  · rintro ⟨i, hi, hlt, hnone, hbefore⟩
    have hne : i ≠ k := by
      rintro rfl
      rw [h] at hnone
      cases hnone
    exact ⟨hbefore k le_rfl (by omega) e h,
      i, by omega, hlt, hnone, fun j hj => hbefore j (by omega)⟩
  · rintro ⟨htext, i, hi, hlt, hnone, hbefore⟩
    refine ⟨i, by omega, hlt, hnone, fun j hj hji e' he' => ?_⟩
    rcases Nat.eq_or_lt_of_le hj with rfl | hkj
    · rw [h] at he'
      obtain rfl := Option.some.inj he'
      exact htext
    · exact hbefore j hkj hji e' he'

end Attempts

section Publish

variable {C : Type} {c : C} {p : FailurePattern} {s : Attempted C} {policy : RetryPolicyConfig}

/-- How a publish call ends: with the record sent last, or with nothing sent. -/
def PublishEnds (c : C) (p : FailurePattern) (policy : RetryPolicyConfig) (record : KafkaRecord)
    (s : Attempted C) (x : Except JsThrow Unit × Attempted C) : Prop :=
  x.2.saves = s.saves ∧ ∃ ops, Waits ops ∧
    (Published p (attemptsAllowed policy) s.emits ∧ x.1 = .ok () ∧
        x.2.world = s.world.after c (ops ++ [.emit record]) ∨
      ¬ Published p (attemptsAllowed policy) s.emits ∧ (∃ e, x.1 = .error e) ∧
        x.2.world = s.world.after c ops)

/-- The loop of attempts, from any of them on. -/
theorem run_publishAttempts {record : KafkaRecord} (eventId : String) {publish : Promise Unit}
    (hpublish : ∀ s, publish.run (p.settle c) s = p.settle c s (.emit record))
    (hfin : policy.maxAttempts.isFinite = true) (fuel : ℕ)
    (hfuel : attemptsAllowed policy ≤ s.emits + fuel) (lastError : JsThrow) :
    PublishEnds c p policy record s
      ((publishAttempts policy publish
        (fun _ _ error => do
          let _ ← errorText error
          JsVal.logLine [.str eventId]) fuel (s.emits + 1) lastError).run (p.settle c) s) := by
  induction fuel generalizing s lastError with
  | zero =>
    have hnot : ¬ Published p (attemptsAllowed policy) s.emits := not_published_of_limit hfuel
    exact ⟨rfl, [], waits_nil, .inr ⟨hnot, ⟨lastError, rfl⟩, rfl⟩⟩
  | succ fuel ih =>
    rw [publishAttempts]
    by_cases hallowed : Number.le (.ofNat (s.emits + 1)) policy.maxAttempts = true
    · rw [if_pos hallowed, Async.run_tryCatch, hpublish]
      rw [attempt_allowed hfin (by omega), decide_eq_true_eq] at hallowed
      cases hstep : p.publish s.emits with
      | none =>
        have hsettle : p.settle c s (.emit record) = (.ok (), { s with
            world := (s.world.exec c (.emit record)).2, emits := s.emits + 1 }) := by
          simp only [FailurePattern.settle, hstep]
        rw [hsettle]
        exact ⟨rfl, [], waits_nil, .inl ⟨published_of_none (by omega) hstep, rfl, rfl⟩⟩
      | some e =>
        have hsettle : p.settle c s (.emit record) = (.error e, { s with emits := s.emits + 1 }) := by
          simp only [FailurePattern.settle, hstep]
        rw [hsettle]
        dsimp only
        split_ifs with hlast
        · have hnot : ¬ Published p (attemptsAllowed policy) s.emits := by
            rw [published_succ hstep]
            rintro ⟨-, h⟩
            exact not_published_of_limit (attemptsAllowed_le hfin hlast) h
          exact ⟨rfl, [], waits_nil, .inr ⟨hnot, ⟨e, rfl⟩, rfl⟩⟩
        · cases htext : errorText e with
          | error e' =>
            have hnot : ¬ Published p (attemptsAllowed policy) s.emits := by
              rw [published_succ hstep]
              rintro ⟨⟨text, h⟩, -⟩
              rw [htext] at h
              cases h
            exact ⟨rfl, [], waits_nil, .inr ⟨hnot, ⟨e', rfl⟩, rfl⟩⟩
          | ok text =>
            -- one more wait, then the attempts after this one
            let delayMs := calculateBackoffMs (.ofNat (s.emits + 1)) policy
            let next : Attempted C :=
              ⟨(s.world.exec c (.sleep delayMs)).2, s.saves, s.emits + 1⟩
            have hnext : attemptsAllowed policy ≤ next.emits + fuel := by
              show attemptsAllowed policy ≤ s.emits + 1 + fuel
              omega
            obtain ⟨hsaves, ops, hwaits, hends⟩ := ih (s := next) hnext e
            have hiff : Published p (attemptsAllowed policy) s.emits ↔
                Published p (attemptsAllowed policy) next.emits :=
              (published_succ hstep).trans (and_iff_right ⟨text, htext⟩)
            refine ⟨hsaves, .sleep delayMs :: ops, waits_cons delayMs hwaits, ?_⟩
            rcases hends with ⟨hpub, hok, hworld⟩ | ⟨hnot, herr, hworld⟩
            · exact .inl ⟨hiff.mpr hpub, hok, hworld⟩
            · exact .inr ⟨fun h => hnot (hiff.mp h), herr, hworld⟩
    · rw [if_neg hallowed]
      have hnot : ¬ Published p (attemptsAllowed policy) s.emits := by
        rw [attempt_allowed hfin (by omega), decide_eq_true_eq] at hallowed
        exact not_published_of_limit (by omega)
      exact ⟨rfl, [], waits_nil, .inr ⟨hnot, ⟨lastError, rfl⟩, rfl⟩⟩

/-- The log lines around the attempts change nothing, and a failure stays one. -/
theorem PublishEnds.reported {record : KafkaRecord} {attempts log : Promise Unit}
    {report : JsThrow → Promise Unit}
    (h : PublishEnds c p policy record s (attempts.run (p.settle c) s))
    (hlog : log = .resolve ()) (hreport : ∀ e, ∃ e', report e = .reject e') :
    PublishEnds c p policy record s
      (((attempts.bind fun _ => log).tryCatch report).run (p.settle c) s) := by
  rw [Async.run_tryCatch, Async.run_bind]
  obtain ⟨hsaves, ops, hwaits, hends⟩ := h
  generalize attempts.run (p.settle c) s = y at hsaves hends ⊢
  obtain ⟨x, s'⟩ := y
  rcases hends with ⟨hpub, hok, hworld⟩ | ⟨hnot, ⟨e, herr⟩, hworld⟩
  · obtain rfl : x = .ok () := hok
    rw [hlog]
    exact ⟨hsaves, ops, hwaits, .inl ⟨hpub, rfl, hworld⟩⟩
  · obtain rfl : x = .error e := herr
    obtain ⟨e', he'⟩ := hreport e
    dsimp only
    rw [he']
    exact ⟨hsaves, ops, hwaits, .inr ⟨hnot, ⟨e', rfl⟩, hworld⟩⟩

/-- The publisher of order-service, on the record that announces an order. -/
theorem run_publishOrderCreated (proc : Process) (dto : CreateOrderDto) (hstart : s.emits = 0) :
    PublishEnds c p (resolveProducerRetryPolicy proc.env) (orderCreatedRecord proc dto) s
      (((orderEventPublisher proc.env).publish .orderCreated
        (orderCreatedEnvelope proc (proc.uuid 0).val dto) []).run (p.settle c) s) := by
  obtain ⟨q, hq, hmax⟩ := Number.isFinite_iff.mp (isFinite_resolveProducer proc.env)
  have hfuel : attemptsAllowed (resolveProducerRetryPolicy proc.env) ≤
      s.emits + passesUpTo (resolveProducerRetryPolicy proc.env).maxAttempts := by
    rw [attemptsAllowed, hmax, passesUpTo, hstart]
    have hle : ⌊q⌋₊ ≤ ⌈q⌉₊ := Nat.floor_le_ceil q
    show ⌊q⌋₊ ≤ 0 + (⌈q⌉₊ + 1)
    omega
  have hemit : ∀ s, (emitKafkaEvent (resolveKafkaTopic .orderCreated) (.str (proc.uuid 0).val)
      (orderCreatedEnvelope proc (proc.uuid 0).val dto) (spread (envelopeToKafkaHeaders
        (orderCreatedEnvelope proc (proc.uuid 0).val dto)) [])).run (p.settle c) s =
      p.settle c s (.emit (orderCreatedRecord proc dto)) := fun s => Async.run_perform _ _ s
  have hkey : resolvePartitionKey (orderCreatedEnvelope proc (proc.uuid 0).val dto) =
      .ok (proc.uuid 0).val := resolvePartitionKey_orderCreated (proc.uuid 0).ne_empty
  have hlog : JsVal.logLine [(orderCreatedEnvelope proc (proc.uuid 0).val dto).get "eventId"] =
      .ok () := rfl
  have hloop := run_publishAttempts (proc.uuid 1).val hemit (isFinite_resolveProducer proc.env) _
    hfuel (.value .undefined)
  rw [hstart] at hloop
  change PublishEnds c p _ _ s
    ((Async.bind (Async.ofExcept (resolvePartitionKey _)) _).run (p.settle c) s)
  rw [hkey, Async.ofExcept_ok, Async.resolve_bind]
  change PublishEnds c p _ _ s ((Async.bind (Async.ofExcept _) _).run (p.settle c) s)
  rw [hlog, Async.ofExcept_ok, Async.resolve_bind]
  refine hloop.reported rfl fun e => ?_
  cases htext : errorText e with
  | ok text => exact ⟨e, rfl⟩
  | error e' => exact ⟨e', rfl⟩

end Publish

section Create

variable {C : Type} {c : C} {p : FailurePattern} {s : Attempted C} {w : World C} {proc : Process}
  {dto : CreateOrderDto}

/-- The rows of an order that a call has stored between two states. -/
def storedRows (id : String) (w w' : World C) : List OrderEntity :=
  (w'.trace.drop w.trace.length).filterMap fun entry => match entry.2 with
    | .saveOrder row => if row.id = id then some row else none
    | _ => none

/-- Whether a record that names the event went out under the key of the order. -/
def Announced (id eventId : String) (w w' : World C) : Prop :=
  ∃ record ∈ w'.log.drop w.log.length, record.topic = orderEventsTopic ∧ record.key = .str id ∧
    ∃ envelope, extractEnvelope record.value = .ok envelope ∧
      envelope.get "eventId" = .str eventId

/-- A call that rejects leaves no row or a failed one, and a call that resolves leaves a
pending one whose event is out. -/
def NoHalfCreated (id : String) (w : World C) (x : Except JsThrow JsVal × Attempted C) : Prop :=
  match x.1 with
  | .error _ => storedRows id w x.2.world = [] ∨
      ∃ row, x.2.world.orders.find? id = some row ∧ row.status = .failed
  | .ok _ => ∃ row eventId, x.2.world.orders.find? id = some row ∧ row.status = .pending ∧
      row.eventId = some eventId ∧ Announced id eventId w x.2.world

/-- The row once its event id is known. -/
def announcedOrder (proc : Process) (dto : CreateOrderDto) : OrderEntity :=
  { pendingOrder (proc.uuid 0).val dto with eventId := some (proc.uuid 1).val }

theorem storedRows_ne_nil {ops : List Op} (row : OrderEntity) (h : Op.saveOrder row ∈ ops) :
    storedRows row.id w (w.after c ops) ≠ [] := by
  have hmem : (c, Op.saveOrder row) ∈ ops.map fun op => (c, op) := List.mem_map_of_mem h
  rw [storedRows, World.after_trace, List.drop_left]
  exact List.ne_nil_of_mem (List.mem_filterMap.mpr ⟨_, hmem, if_pos rfl⟩)

theorem settle_saveOrder_ok {row : OrderEntity} (h : p.save s.saves = none) :
    p.settle c s (.saveOrder row) =
      (.ok (), ⟨s.world.after c [.saveOrder row], s.saves + 1, s.emits⟩) := by
  simp only [FailurePattern.settle, h]
  rfl

theorem settle_saveOrder_error {row : OrderEntity} {e : JsThrow} (h : p.save s.saves = some e) :
    p.settle c s (.saveOrder row) = (.error e, { s with saves := s.saves + 1 }) := by
  simp only [FailurePattern.settle, h]

theorem run_saveOrder_settle (row : OrderEntity) :
    (saveOrder row).run (p.settle c) s = p.settle c s (.saveOrder row) := Async.run_perform _ _ s

theorem announced_orderCreated {ops : List Op} :
    Announced (proc.uuid 0).val (proc.uuid 1).val w
      (w.after c (ops ++ [.emit (orderCreatedRecord proc dto)])) := by
  refine ⟨orderCreatedRecord proc dto, ?_, rfl, rfl, _, rfl, rfl⟩
  rw [World.after_log, List.drop_left, List.filterMap_append]
  exact List.mem_append_right _ List.mem_cons_self

theorem find?_saveOrder (row : OrderEntity) :
    (w.after c [.saveOrder row]).orders.find? row.id = some row := by
  rw [World.after_singleton, World.find?_exec_saveOrder, if_pos rfl]

/-- The catch block rejects, whether its save goes through or not. -/
theorem run_catch (row : OrderEntity) (error failure : JsThrow) :
    ∃ e, ((saveOrder row).bind fun _ => (Async.ofExcept (errorText error)).bind fun _ =>
      (.reject failure : Promise Unit)).run (p.settle c) s =
        (.error e, (p.settle c s (.saveOrder row)).2) := by
  rw [Async.run_bind, run_saveOrder_settle]
  cases hsave : p.save s.saves with
  | some e =>
    rw [settle_saveOrder_error hsave]
    exact ⟨e, rfl⟩
  | none =>
    rw [settle_saveOrder_ok hsave]
    cases htext : errorText error with
    | ok text => exact ⟨failure, rfl⟩
    | error e => exact ⟨e, rfl⟩

/-- With the event id stored, all is left to the publish and the catch block. -/
theorem noHalfCreated_announce {policy : RetryPolicyConfig} {publish : Promise Unit}
    {ops : List Op} {failure : JsThrow} {response : JsVal} (hsaves : s.saves = 2)
    (hemits : s.emits = 0)
    (hworld : s.world = w.after c (ops ++ [.saveOrder (announcedOrder proc dto)]))
    (hends : PublishEnds c p policy (orderCreatedRecord proc dto) s (publish.run (p.settle c) s)) :
    NoHalfCreated (proc.uuid 0).val w (((publish.tryCatch fun error =>
      (saveOrder { announcedOrder proc dto with status := .failed }).bind fun _ =>
        (Async.ofExcept (errorText error)).bind fun _ => .reject failure).bind fun _ =>
          .resolve response).run (p.settle c) s) ↔
      Published p (attemptsAllowed policy) 0 ∨ p.save 2 = none := by
  have hrow : s.world.orders.find? (proc.uuid 0).val = some (announcedOrder proc dto) := by
    rw [hworld, World.after_append]
    exact find?_saveOrder (announcedOrder proc dto)
  rw [Async.run_bind, Async.run_tryCatch]
  obtain ⟨hcount, waits, hwaits, hends⟩ := hends
  have hkept : (s.world.after c waits).orders = s.world.orders :=
    (World.unchanged_after hwaits.quiet).2.1
  have hall : s.world.after c waits =
      w.after c (ops ++ [.saveOrder (announcedOrder proc dto)] ++ waits) := by
    rw [World.after_append, ← hworld]
  rw [hemits] at hends
  generalize publish.run (p.settle c) s = y at hcount hends ⊢
  obtain ⟨x, s'⟩ := y
  rcases hends with ⟨hpub, hok, hsent⟩ | ⟨hnot, ⟨e, herr⟩, hquiet⟩
  · obtain rfl : x = .ok () := hok
    change s'.world = _ at hsent
    refine iff_of_true ⟨announcedOrder proc dto, (proc.uuid 1).val, ?_, rfl, rfl, ?_⟩ (.inl hpub)
    · show s'.world.orders.find? _ = _
      rw [hsent, World.after_append, World.after_singleton, World.exec_orders_emit, hkept, hrow]
    · show Announced _ _ w s'.world
      rw [hsent, World.after_append, hall, ← World.after_append]
      exact announced_orderCreated
  · obtain rfl : x = .error e := herr
    change s'.saves = _ at hcount
    change s'.world = _ at hquiet
    let failed : OrderEntity := { announcedOrder proc dto with status := .failed }
    obtain ⟨e', hcatch⟩ := run_catch (c := c) (p := p) (s := s') failed e failure
    dsimp only
    rw [hcatch]
    cases hthird : p.save 2 with
    | some e₃ =>
      have hsave : p.save s'.saves = some e₃ := by rw [hcount, hsaves, hthird]
      rw [settle_saveOrder_error hsave]
      refine iff_of_false ?_ (not_or.mpr ⟨hnot, nofun⟩)
      rintro (hnil | ⟨row, hfind, hfailed⟩)
      · change storedRows _ w s'.world = [] at hnil
        rw [hquiet, hall] at hnil
        have hmem : Op.saveOrder (announcedOrder proc dto) ∈
            ops ++ [.saveOrder (announcedOrder proc dto)] ++ waits := by simp
        exact storedRows_ne_nil (announcedOrder proc dto) hmem hnil
      · change s'.world.orders.find? _ = _ at hfind
        rw [hquiet, hkept, hrow] at hfind
        obtain rfl := Option.some.inj hfind
        cases hfailed
    | none =>
      have hsave : p.save s'.saves = none := by rw [hcount, hsaves, hthird]
      rw [settle_saveOrder_ok hsave]
      exact iff_of_true (.inr ⟨failed, find?_saveOrder failed, rfl⟩) (.inr rfl)

/-- What follows the first save: the event id, the record, and the catch block. -/
theorem publishOrderCreated_eq :
    publishOrderCreated proc dto (pendingOrder (proc.uuid 0).val dto) =
      (saveOrder (announcedOrder proc dto)).bind fun _ =>
        (((orderEventPublisher proc.env).publish .orderCreated
          (orderCreatedEnvelope proc (proc.uuid 0).val dto) []).tryCatch fun error =>
            (saveOrder { announcedOrder proc dto with status := .failed }).bind fun _ =>
              (Async.ofExcept (errorText error)).bind fun _ =>
                .reject (.error "InternalServerErrorException"
                  "Order saved but event could not be published")).bind fun _ =>
          .resolve (toCreateOrderResponse (announcedOrder proc dto) (some (proc.uuid 1).val)) := rfl

/-- From the first save on. -/
theorem noHalfCreated_publish : NoHalfCreated (proc.uuid 0).val w
    ((publishOrderCreated proc dto (pendingOrder (proc.uuid 0).val dto)).run (p.settle c)
      ⟨w.after c [.saveOrder (pendingOrder (proc.uuid 0).val dto)], 1, 0⟩) ↔
    p.save 1 = none ∧ (Published p (attemptsAllowed (resolveProducerRetryPolicy proc.env)) 0 ∨
      p.save 2 = none) := by
  let order : OrderEntity := pendingOrder (proc.uuid 0).val dto
  rw [publishOrderCreated_eq, Async.run_bind, run_saveOrder_settle]
  cases hsecond : p.save 1 with
  | some e =>
    rw [settle_saveOrder_error hsecond]
    refine iff_of_false ?_ fun h => nomatch h.1
    rintro (hnil | ⟨row, hfind, hfailed⟩)
    · exact storedRows_ne_nil order List.mem_cons_self hnil
    · have hrow : (w.after c [.saveOrder order]).orders.find? order.id = some order :=
        find?_saveOrder order
      have hpending : order = row := Option.some.inj (hrow.symm.trans hfind)
      rw [← hpending] at hfailed
      cases hfailed
  | none =>
    rw [settle_saveOrder_ok hsecond, and_iff_right rfl]
    exact noHalfCreated_announce rfl rfl (World.after_append c w _ _).symm
      (run_publishOrderCreated proc dto rfl)

/-- A new row has no event id, so the call always goes on to publish. -/
theorem createOrder_eq : createOrder proc dto = (saveOrder (pendingOrder (proc.uuid 0).val dto)).bind
    fun _ => publishOrderCreated proc dto (pendingOrder (proc.uuid 0).val dto) := rfl

/-- A call whose first save goes through. -/
theorem noHalfCreated_stored (hfirst : p.save 0 = none) :
    NoHalfCreated (proc.uuid 0).val w ((createOrder proc dto).run (p.settle c) (.start w)) ↔
      p.save 1 = none ∧ (Published p (attemptsAllowed (resolveProducerRetryPolicy proc.env)) 0 ∨
        p.save 2 = none) := by
  rw [createOrder_eq, Async.run_bind, run_saveOrder_settle, settle_saveOrder_ok hfirst]
  exact noHalfCreated_publish

/-- Exactly these failures leave no half-created order behind: of the first save, or of
the publish while the catch block can still save. -/
theorem createOrder_whole_iff :
    NoHalfCreated (proc.uuid 0).val w ((createOrder proc dto).run (p.settle c) (.start w)) ↔
      p.save 0 ≠ none ∨ p.save 1 = none ∧
        (Published p (attemptsAllowed (resolveProducerRetryPolicy proc.env)) 0 ∨
          p.save 2 = none) := by
  cases hfirst : p.save 0 with
  | none => exact (noHalfCreated_stored hfirst).trans (or_iff_right fun h => h rfl).symm
  | some e =>
    have hnone : storedRows (proc.uuid 0).val w w = [] := by
      rw [storedRows, List.drop_length, List.filterMap_nil]
    rw [createOrder_eq, Async.run_bind, run_saveOrder_settle, settle_saveOrder_error hfirst]
    exact iff_of_true (.inl hnone) (.inl nofun)

/-- A process that draws one id for the order and another for its event. -/
def twoIds : Process :=
  { Process.still .first .half with uuid := fun n => if n = 0 then .first else .second }

/-- Only the save of the event id fails. -/
def secondSaveFails : FailurePattern where
  save n :=
    if n = 1 then some (.error "QueryFailedError" "SQLITE_BUSY: database is locked") else none
  publish _ := none

/-- A valid request then leaves a pending row behind its rejection. -/
theorem createOrder_half_created : acceptsCreateOrderDto (sampleBody "c-1") = true ∧
    ¬ NoHalfCreated Uuid.first.val World.empty
      ((createOrder twoIds (.ofJs (sampleBody "c-1"))).run (secondSaveFails.settle ())
        (.start World.empty)) := by
  refine ⟨acceptsCreateOrderDto_sampleBody (by decide), fun h => ?_⟩
  change NoHalfCreated (twoIds.uuid 0).val _ _ at h
  have hsecond : secondSaveFails.save 1 = none := ((noHalfCreated_stored rfl).mp h).1
  cases hsecond

end Create

end EventFlow.Services.Orders
