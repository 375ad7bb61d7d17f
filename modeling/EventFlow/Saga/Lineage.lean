import EventFlow.Saga.Recovery

namespace EventFlow.Saga

open Js Shared Services Async Retry
open Orders (CreateOrderDto calculateTotalAmount)
open Payment (OrderCreatedEvent requestedEnvelope)

section Statement

/-- The fields that an event takes over from the event it reacts to, with their names there. -/
def carriedFields : EventType → List (String × String)
  | .paymentRequested => [("amount", "totalAmount"), ("currency", "currency")]
  | .paymentProcessed | .paymentFailed => [("paymentId", "paymentId")]
  | .stockReleased => [("reason", "reason")]
  | .notificationSent => [("notificationId", "notificationId"), ("channel", "channel")]
  | _ => []

/-- A record names its cause, and has from it what it carries on; a payment is asked for an
amount that is a number, and not below zero. -/
structure Carries (t : EventType) (r₀ r : KafkaRecord) : Prop where
  causation : (envelopeOf r).get "causationId" = (envelopeOf r₀).get "eventId"
  fields : ∀ f ∈ carriedFields t,
    ((envelopeOf r).get "payload").get f.1 = ((envelopeOf r₀).get "payload").get f.2
  amount : t = .paymentRequested →
    isPositiveNumber (((envelopeOf r).get "payload").get "amount") = true

/-- The request that each order id stands for. -/
def Requesting (requests : String → CreateOrderDto) (a : Author) : Prop :=
  ∀ proc dto, a = .service (.createOrder proc dto) → dto = requests (proc.uuid 0).val

/-- A payment that has gone through, and what was asked for it. -/
structure Charge (row : OrderEntity) (requested processed : KafkaRecord) : Prop where
  routed : Routed .paymentRequested row.id requested
  causation : (envelopeOf processed).get "causationId" = (envelopeOf requested).get "eventId"
  paymentId : ((envelopeOf processed).get "payload").get "paymentId" =
    ((envelopeOf requested).get "payload").get "paymentId"
  amount : ((envelopeOf requested).get "payload").get "amount" = .num row.totalAmount
  currency : ((envelopeOf requested).get "payload").get "currency" = .str row.currency

end Statement

section Fields

/-- A field of a JSON value is there with a JSON value, or it is not there. -/
theorem isJson_get {v : JsVal} (key : String) (h : v.isJson = true) :
    v.get key = .undefined ∨ (v.get key).isJson = true := by
  cases v with
  | obj fields =>
    induction fields with
    | nil => exact .inl rfl
    | cons entry rest ih =>
      obtain ⟨name, u⟩ := entry
      simp only [JsVal.isJson, JsVal.areJsonFields, Bool.and_eq_true] at h ih
      simp only [JsVal.get, lookup_cons_ite] at ih ⊢
      split_ifs
      · exact .inr h.1
      · exact ih h.2
  | _ => exact .inl rfl

/-- What JSON can carry, and what is not there, arrives as it was sent. -/
theorem get_wire_field {v : JsVal} {key : String} (hnd : v.keys.Nodup)
    (h : v.get key = .undefined ∨ (v.get key).isJson = true) : v.wire.get key = v.get key := by
  rcases h with hnone | hjson
  · rw [hnone]
    exact JsVal.get_wire_undefined hnd hnone
  · exact JsVal.get_wire_of_isJson hjson

theorem num_of_isPositiveNumber {v : JsVal} (h : isPositiveNumber v = true) :
    ∃ n : Number, v = .num n := by
  cases v with
  | num n => exact ⟨n, rfl⟩
  | _ => cases h

/-- A number that arrives as one was sent as it is. -/
theorem wire_of_isPositiveNumber {n : Number}
    (h : isPositiveNumber (JsVal.num n).wire = true) : (JsVal.num n).wire = .num n := by
  rw [JsVal.wire] at h ⊢
  split_ifs at h ⊢
  · rfl
  · cases h

theorem str_of_isCurrency {v : JsVal} (h : isCurrency v = true) : ∃ s, v = .str s := by
  cases v <;> first | exact ⟨_, rfl⟩ | cases h

variable {event x : JsVal} {fields : List (String × JsVal)} {t : EventType} {key name : String}

theorem get_payload_domainRecord (hpayload : event.get "payload" = .obj fields)
    (hnd : (fields.map Prod.fst).Nodup) (hget : (event.get "payload").get name = x)
    (hx : x = .undefined ∨ x.isJson = true) :
    ((envelopeOf (domainRecord t key event [])).get "payload").get name = x := by
  have hsent : event.wire.get "payload" = (event.get "payload").wire :=
    JsVal.get_wire_of_eq rfl (by rw [hpayload]; exact nofun)
  have hnd' : (event.get "payload").keys.Nodup := by
    rw [hpayload]
    exact hnd
  subst hget
  show (event.wire.get "payload").get name = _
  rw [hsent]
  exact get_wire_field hnd' hx

end Fields

section Turns

variable {w : World Author} {a : Author} {done : List Op} {r r₀ r' : KafkaRecord}
  {h : RetriedHandler} {proc : Process} {v event : JsVal} {orderId key : String} {t u : EventType}

theorem Carries.congr (hc : Carries t r₀ r') (heq : envelopeOf r = envelopeOf r') :
    Carries t r₀ r := by
  refine ⟨?_, ?_, ?_⟩ <;> rw [heq]
  exacts [hc.causation, hc.fields, hc.amount]

/-- payment-service asks for the total of the order that it has accepted. -/
theorem carries_requested (hvalue : r₀.value = .value v)
    (hread : parseOrderEventsMessage (.value v) = .ok (.accepted v)) :
    Carries .paymentRequested r₀ (domainRecord .paymentRequested key
      (requestedEnvelope proc (.ofJs v) (proc.uuid 0).val) []) := by
  let event : JsVal := requestedEnvelope proc (.ofJs v) (proc.uuid 0).val
  obtain ⟨-, hvalid, hpayload, -⟩ := parseMessage_eq_accepted.mp hread
  have hcreated := validateOrderCreatedPayload_eq_ok.mp hpayload
  have hcause : event.get "causationId" = v.get "eventId" := by
    obtain ⟨id, hid, -⟩ := isUuid_iff.mp hvalid.eventId
    exact (congrArg JsVal.str (JsVal.asStr_of_eq hid)).trans hid.symm
  have hamount : (event.get "payload").get "amount" = (v.get "payload").get "totalAmount" := by
    obtain ⟨n, hn⟩ := num_of_isPositiveNumber hcreated.totalAmount
    exact (congrArg (fun x => JsVal.num x.asNum) hn).trans hn.symm
  have hcurrency : (event.get "payload").get "currency" = (v.get "payload").get "currency" := by
    obtain ⟨c, hc⟩ := str_of_isCurrency hcreated.currency
    exact (congrArg JsVal.str (JsVal.asStr_of_eq hc)).trans hc.symm
  have hsent : ((envelopeOf (domainRecord .paymentRequested key event [])).get "payload").get
      "amount" = (v.get "payload").get "totalAmount" := by
    exact get_payload_domainRecord rfl (by simp) hamount
      (.inr (isJson_of_isPositiveNumber hcreated.totalAmount))
  refine ⟨?_, ?_, fun _ => ?_⟩
  · rw [envelopeOf_value hvalue, ← hcause]
    exact get_wire_field (nodup_keys_createEventEnvelope _ _ _)
      (.inr (hcause ▸ isJson_of_isUuid hvalid.eventId))
  · rw [envelopeOf_value hvalue]
    intro f hf
    simp only [carriedFields, List.mem_cons, List.not_mem_nil, or_false] at hf
    rcases hf with rfl | rfl
    · exact hsent
    · exact get_payload_domainRecord rfl (by simp) hcurrency
        (.inr (isJson_of_isCurrency hcreated.currency))
  · rw [hsent]
    exact hcreated.totalAmount

/-- An event of a call that follows another of the call names it. -/
theorem carries_posted {first : JsVal} {id : String} {key' : String}
    (hid : first.get "eventId" = .str id) (hcause : event.get "causationId" = .str id)
    (hfields : ∀ f ∈ carriedFields t, ∃ x, (event.get "payload").get f.1 = .str x ∧
      (first.get "payload").get f.2 = .str x) (hne : t ≠ .paymentRequested) :
    Carries t (domainRecord u key' first []) (domainRecord t key event []) := by
  refine ⟨?_, fun f hf => ?_, fun heq => absurd heq hne⟩
  · exact (JsVal.get_wire_str hcause).trans (JsVal.get_wire_str hid).symm
  · obtain ⟨x, hx, hx'⟩ := hfields f hf
    exact (JsVal.get_get_wire_str hx).trans (JsVal.get_get_wire_str hx').symm

/-- The record of an event that a call has announced stays on the log. -/
theorem Taken.posted {first : JsVal} (htaken : Taken w h r₀ orderId v)
    (hrecorded : ∀ op' ∈ done, Recorded w a op') (hposted : Posted done u first)
    (hann : Announced proc v done h u first) :
    ∃ key', domainRecord u key' first [] ∈ w.log ∧
      Routed u orderId (domainRecord u key' first []) := by
  obtain ⟨key', hkey', hmem⟩ := hposted
  exact ⟨key', (hrecorded _ hmem).log _ rfl, routed_announced hann htaken.named hkey'⟩

/-- The outcome of a payment names the request of its call, and the request names the order. -/
theorem asked_of_announced (key : String) (htaken : Taken w .paymentOrderEvents r₀ orderId v)
    (hrecorded : ∀ op' ∈ done, Recorded w a op')
    (hann : Announced proc v done .paymentOrderEvents t event) (ht : t ≠ .paymentRequested) :
    ∃ requested ∈ w.log, Routed .paymentRequested orderId requested ∧
      Carries .paymentRequested r₀ requested ∧
      Carries t requested (domainRecord t key event []) := by
  have hread := htaken.read
  rw [htaken.value] at hread
  cases hann with
  | requested => exact absurd rfl ht
  | processed hp _ | failed hp _ =>
    obtain ⟨key', hmem, hfrom⟩ := htaken.posted hrecorded hp .requested
    refine ⟨_, hmem, hfrom, carries_requested htaken.value hread,
      carries_posted rfl rfl (fun f hf => ?_) nofun⟩
    rw [List.mem_singleton.mp hf]
    exact ⟨_, rfl, rfl⟩

/-- Each event that a handler announces carries on what it reacts to. -/
theorem carries_of_announced (htaken : Taken w h r₀ orderId v)
    (hrecorded : ∀ op' ∈ done, Recorded w a op') (hann : Announced proc v done h t event) :
    ∃ u, reactsTo t = some u ∧ ∃ r' ∈ w.log, Routed u orderId r' ∧
      Carries t r' (domainRecord t key event []) := by
  have hvalue := envelopeOf_value htaken.value
  have hid : v.get "eventId" = .undefined ∨ (v.get "eventId").isJson = true :=
    isJson_get "eventId" htaken.json
  have hcaused : event.get "causationId" = v.get "eventId" → event.keys.Nodup →
      (envelopeOf (domainRecord t key event [])).get "causationId" =
        (envelopeOf r₀).get "eventId" := by
    intro hcause hnd
    rw [hvalue, ← hcause]
    exact get_wire_field hnd (hcause ▸ hid)
  cases hann with
  | requested =>
    have hread := htaken.read
    rw [htaken.value] at hread
    exact ⟨_, rfl, r₀, htaken.mem, htaken.routed, carries_requested htaken.value hread⟩
  | processed hp hyes =>
    obtain ⟨requested, hmem, hfrom, -, hcarries⟩ :=
      asked_of_announced key htaken hrecorded (.processed hp hyes) nofun
    exact ⟨_, rfl, requested, hmem, hfrom, hcarries⟩
  | failed hp hno =>
    obtain ⟨requested, hmem, hfrom, -, hcarries⟩ :=
      asked_of_announced key htaken hrecorded (.failed hp hno) nofun
    exact ⟨_, rfl, requested, hmem, hfrom, hcarries⟩
  | sent hp =>
    obtain ⟨key', hmem, hfrom⟩ := htaken.posted hrecorded hp .send
    refine ⟨_, rfl, _, hmem, hfrom, carries_posted rfl rfl (fun f hf => ?_) nofun⟩
    simp only [carriedFields, List.mem_cons, List.not_mem_nil, or_false] at hf
    rcases hf with rfl | rfl <;> exact ⟨_, rfl, rfl⟩
  | reserved | send =>
    exact ⟨_, rfl, r₀, htaken.mem, htaken.routed,
      hcaused rfl (nodup_keys_createEventEnvelope _ _ _), nofun, nofun⟩
  | released =>
    refine ⟨_, rfl, r₀, htaken.mem, htaken.routed,
      hcaused rfl (nodup_keys_createEventEnvelope _ _ _), fun f hf => ?_, nofun⟩
    rw [List.mem_singleton.mp hf, hvalue]
    have hreason : ((v.get "payload").get "reason") = .undefined ∨
        ((v.get "payload").get "reason").isJson = true := by
      rcases isJson_get "payload" htaken.json with hnone | hjson
      · exact .inl (by rw [hnone]; rfl)
      · exact isJson_get "reason" hjson
    exact get_payload_domainRecord rfl (by simp) rfl hreason

/-- What the record of a turn reacts to is on the log. -/
theorem carries_of_turn (hlog : Ledger w.log)
    (hall : ∀ pre x post, w.log = pre ++ x :: post → ∀ t u orderId, Routed t orderId x →
      reactsTo t = some u → ∃ r₀ ∈ pre, Routed u orderId r₀ ∧ Carries t r₀ x)
    (hturn : Turn w a done (.emit r)) (hr : Routed t orderId r) (hu : reactsTo t = some u) :
    ∃ r₀ ∈ w.log, Routed u orderId r₀ ∧ Carries t r₀ r := by
  have hordered : t ≠ .orderCreated := by
    rintro rfl
    cases hu
  have hcancelled : t ≠ .orderCancelled := by
    rintro rfl
    cases hu
  rcases announced_of_turn hlog hturn hr hordered hcancelled with
    ⟨h, proc, headers, r₀, v, event, key, -, htaken, hann, rfl⟩ | ⟨x, hx, hrouted, heq⟩
  · obtain ⟨u', hu', r', hr', hrouted, hcarries⟩ := carries_of_announced htaken hturn.recorded hann
    obtain rfl := Option.some.inj (hu'.symm.trans hu)
    exact ⟨r', hr', hrouted, hcarries⟩
  · obtain ⟨pre, post, hsplit⟩ := List.append_of_mem hx
    obtain ⟨r', hr', hfrom, hcarries⟩ := hall pre x post hsplit t u orderId hrouted hu
    refine ⟨r', ?_, hfrom, hcarries.congr heq⟩
    rw [hsplit]
    exact List.mem_append_left _ hr'

end Turns

section Runs

variable {ι : Type} [DecidableEq ι] {ls : List (PoolAct ι Author Op JsThrow)}
  {s : Pool ι (World Author) Author Op Op.Resp JsThrow JsVal}
  {cond : Pool ι (World Author) Author Op Op.Resp JsThrow JsVal → PoolAct ι Author Op JsThrow → Prop}
  {requests : String → CreateOrderDto} {r : KafkaRecord} {orderId : String} {t u : EventType}

theorem carried_of_run
    (hrun : RunWhere (Pool.Step eventFlow) cond (Pool.idle World.empty) ls s) :
    ∀ pre r post, s.world.log = pre ++ r :: post → ∀ t u orderId, Routed t orderId r →
      reactsTo t = some u → ∃ r₀ ∈ pre, Routed u orderId r₀ ∧ Carries t r₀ r := by
  have hany : ∀ s i a, cond s (.start i a) → True := fun _ _ _ _ => trivial
  refine log_history hany (fun _ _ _ hle h t u orderId hr hu => ?_)
    (fun w a done r hlog hall _ hturn t u orderId hr hu => carries_of_turn hlog hall hturn hr hu) hrun
  obtain ⟨r₀, hr₀, hrest⟩ := h t u orderId hr hu
  exact ⟨r₀, hle.subset hr₀, hrest⟩

/-- So does each record of the log. -/
theorem cause_of_run
    (hrun : RunWhere (Pool.Step eventFlow) cond (Pool.idle World.empty) ls s)
    (hmem : r ∈ s.world.log) (hr : Routed t orderId r) (hu : reactsTo t = some u) :
    ∃ r₀ ∈ s.world.log, Routed u orderId r₀ ∧ Carries t r₀ r := by
  obtain ⟨pre, post, hsplit⟩ := List.append_of_mem hmem
  obtain ⟨r₀, hr₀, hrest⟩ := carried_of_run hrun pre r post hsplit t u orderId hr hu
  refine ⟨r₀, ?_, hrest⟩
  rw [hsplit]
  exact List.mem_append_left _ hr₀

/-- An order is announced with the total and the currency of its request. -/
theorem ordered_of_run
    (hrun : RunWhere (Pool.Step eventFlow) (Starting (Requesting requests)) (Pool.idle World.empty)
      ls s) : ∀ r ∈ s.world.log, ∀ orderId, Routed .orderCreated orderId r →
      ((envelopeOf r).get "payload").get "totalAmount" =
          (JsVal.num (calculateTotalAmount (requests orderId))).wire ∧
        ((envelopeOf r).get "payload").get "currency" =
          .str ((requests orderId).currency.getD "BRL") := by
  refine log_invariant (P := fun _ r => ∀ orderId, Routed .orderCreated orderId r →
    ((envelopeOf r).get "payload").get "totalAmount" =
        (JsVal.num (calculateTotalAmount (requests orderId))).wire ∧
      ((envelopeOf r).get "payload").get "currency" =
        .str ((requests orderId).currency.getD "BRL"))
    (fun _ i a hstart => hstart i a rfl) (fun _ _ _ _ h => h)
    (fun w a done r hlog hall hmay hturn orderId hr => ?_) hrun
  rcases order_of_turn hlog hturn hr with ⟨proc, dto, rfl, -, rfl⟩ | ⟨r₀, hr₀, hrouted, heq⟩
  · obtain rfl : (proc.uuid 0).val = orderId := JsVal.str.inj hr.key
    rw [← hmay proc dto rfl]
    exact ⟨JsVal.get_wire_of_eq (v := Orders.orderCreatedPayload _ dto) rfl nofun, rfl⟩
  · rw [heq]
    exact hall r₀ hr₀ orderId hrouted

/-- And stored with these. -/
theorem saved_of_run
    (hrun : RunWhere (Pool.Step eventFlow) (Starting (Requesting requests)) (Pool.idle World.empty)
      ls s) : ∀ a row, (a, Op.saveOrder row) ∈ s.world.trace →
      row.totalAmount = calculateTotalAmount (requests row.id) ∧
        row.currency = (requests row.id).currency.getD "BRL" := by
  let I (w : World Author) : Prop := ∀ a row, (a, Op.saveOrder row) ∈ w.trace →
    row.totalAmount = calculateTotalAmount (requests row.id) ∧
      row.currency = (requests row.id).currency.getD "BRL"
  have hturn : ∀ w a done op, I w → Requesting requests a → Turn w a done op →
      I (w.exec a op).2 := by
    intro w a done op hw hmay hturn a' row hmem
    rcases List.mem_append.mp hmem with hold | hnew
    · exact hw a' row hold
    · obtain ⟨rfl, rfl⟩ := Prod.mk.inj (List.mem_singleton.mp hnew)
      obtain ⟨proc, dto, rfl, hrow⟩ := request_of_turn hturn
      have hdto := hmay proc dto rfl
      simp only [List.mem_cons, List.not_mem_nil, or_false] at hrow
      rcases hrow with rfl | rfl | rfl <;> exact ⟨congrArg calculateTotalAmount hdto,
        congrArg (fun dto => dto.currency.getD "BRL") hdto⟩
  have hempty : I World.empty := fun _ _ hmem => absurd hmem List.not_mem_nil
  exact run_invariant (fun _ i a hstart => hstart i a rfl) (fun _ _ hw _ => hw) hturn hempty hrun

/-- In every run each event names an event before it that it reacts to, by its id, and has from
it what it carries on: a requested payment the total and the currency of its order, an outcome
its payment, a release its reason, a sent notification its id and channel. -/
theorem events_carry_over
    (hrun : RunWhere (Pool.Step eventFlow) cond (Pool.idle World.empty) ls s) :
    ∀ pre r post, s.world.log = pre ++ r :: post → ∀ t orderId, Routed t orderId r →
      t = .orderCreated ∨ t = .orderCancelled ∨ ∃ u, reactsTo t = some u ∧
        ∃ r₀ ∈ pre, Routed u orderId r₀ ∧ Carries t r₀ r := by
  intro pre r post hsplit t orderId hr
  have hmem : r ∈ s.world.log := by
    rw [hsplit]
    exact List.mem_append_right _ List.mem_cons_self
  have hpossible := (ledger_of_run hrun).possible hmem hr
  cases hu : reactsTo t with
  | some u => exact .inr (.inr ⟨u, rfl, carried_of_run hrun pre r post hsplit t u orderId hr hu⟩)
  | none =>
    cases t with
    | orderCreated => exact .inl rfl
    | orderCancelled => exact .inr (.inl rfl)
    | stockFailed => exact absurd hpossible not_possible_failures.1
    | notificationFailed => exact absurd hpossible not_possible_failures.2
    | _ => cases hu

/-- The causes of a completed order. -/
theorem events_carry_over_completed : ∃ ls,
    ∃ s : Pool Unit (World Author) Author Op Op.Resp JsThrow JsVal,
      RunWhere (Pool.Step eventFlow) (Starting fun _ => True) (Pool.idle World.empty) ls s ∧
      s.world.log.length = 6 ∧ ∀ pre r post, s.world.log = pre ++ r :: post →
        ∀ t orderId, Routed t orderId r → t = .orderCreated ∨ t = .orderCancelled ∨
          ∃ u, reactsTo t = some u ∧ ∃ r₀ ∈ pre, Routed u orderId r₀ ∧ Carries t r₀ r := by
  obtain ⟨ls, hrun⟩ := completedStory_any
  exact ⟨ls, _, hrun, completedStory_length, events_carry_over hrun⟩

/-- With order ids that stand for one request each, every payment of a stored order that has
gone through was asked for before, and for just the stored total in the stored currency, those
of its request; and a completed order has such a payment. -/
theorem orders_charged_as_stored
    (hrun : RunWhere (Pool.Step eventFlow) (Starting (Requesting requests)) (Pool.idle World.empty)
      ls s) :
    ∀ orderId row, s.world.orders.find? orderId = some row →
      row.totalAmount = calculateTotalAmount (requests orderId) ∧
      row.currency = (requests orderId).currency.getD "BRL" ∧
      (∀ pre processed post, s.world.log = pre ++ processed :: post →
        Routed .paymentProcessed orderId processed →
          ∃ requested ∈ pre, Charge row requested processed) ∧
      (row.status = .completed → ∃ pre processed post, s.world.log = pre ++ processed :: post ∧
        Routed .paymentProcessed orderId processed ∧
          ∃ requested ∈ pre, Charge row requested processed) := by
  intro orderId row hrow
  have hexplained : Explained s.world := explained_of_run hrun
  obtain ⟨-, rfl⟩ := Table.find?_eq_some.mp hrow
  have hstored := (hexplained.orders _ row hrow).stored
  obtain ⟨saved, hsaved, heq⟩ := hstored
  obtain ⟨proc, dto, hmem, -⟩ := hsaved.by_request
  obtain ⟨htotal, hcurrency⟩ : row.totalAmount = calculateTotalAmount (requests row.id) ∧
      row.currency = (requests row.id).currency.getD "BRL" := by
    rw [heq]
    exact saved_of_run hrun _ saved hmem
  have hcharge : ∀ pre processed post, s.world.log = pre ++ processed :: post →
      Routed .paymentProcessed row.id processed →
        ∃ requested ∈ pre, Charge row requested processed := by
    intro pre processed post hsplit hr
    obtain ⟨requested, hrequested, hr', hcarries⟩ :=
      carried_of_run hrun pre processed post hsplit _ _ _ hr rfl
    have hlogged : requested ∈ s.world.log := by
      rw [hsplit]
      exact List.mem_append_left _ hrequested
    obtain ⟨created, hcreated, hr'', hasked⟩ := cause_of_run hrun hlogged hr' rfl
    obtain ⟨htotal', hcurrency'⟩ := ordered_of_run hrun created hcreated row.id hr''
    have hamount := hasked.fields ("amount", "totalAmount") List.mem_cons_self
    have hpositive := hasked.amount rfl
    rw [hamount, htotal', ← htotal] at hpositive
    refine ⟨requested, hrequested, hr', hcarries.causation,
      hcarries.fields _ List.mem_cons_self, ?_, ?_⟩
    · rw [hamount, htotal', ← htotal]
      exact wire_of_isPositiveNumber hpositive
    · rw [hasked.fields ("currency", "currency") (by simp [carriedFields]), hcurrency', hcurrency]
  refine ⟨htotal, hcurrency, hcharge, fun hstatus => ?_⟩
  have hsent := (hexplained.orders _ row hrow).completed hstatus
  obtain ⟨processed, hprocessed, hr⟩ :=
    hexplained.ledger.preceded (u := .paymentProcessed) hsent (by decide)
  obtain ⟨pre, post, hsplit⟩ := List.append_of_mem hprocessed
  exact ⟨pre, processed, post, hsplit, hr, hcharge pre processed post hsplit hr⟩

/-- The completed order was paid as it is stored. -/
theorem orders_charged_as_stored_completed : ∃ row,
    completedStory.orders.find? (hexUuid "a" 0).val = some row ∧ row.status = .completed ∧
      ∃ pre processed post, completedStory.log = pre ++ processed :: post ∧
        Routed .paymentProcessed (hexUuid "a" 0).val processed ∧
          ∃ requested ∈ pre, Charge row requested processed := by
  have hfound : (completedStory.orders.find? (hexUuid "a" 0).val).map OrderEntity.status =
      some .completed := by decide +kernel
  obtain ⟨row, hrow, hstatus⟩ := Option.map_eq_some_iff.mp hfound
  have hrequest : ∃ dto, sampleOrder = .service (.createOrder (drawing "a") dto) := ⟨_, rfl⟩
  obtain ⟨dto, hrequest⟩ := hrequest
  have hstart : Requesting (fun _ => dto) sampleOrder := by
    intro proc dto' heq
    rw [hrequest] at heq
    cases heq
    rfl
  have hrun : ∃ ls, RunWhere (Pool.Step eventFlow) (Starting (Requesting fun _ => dto))
      (Pool.idle World.empty : Pool Unit (World Author) Author Op Op.Resp JsThrow JsVal) ls
      (Pool.idle completedStory) := by
    refine completedStory_run hstart fun c h proc headers payload hc proc' dto' heq => ?_
    subst hc
    cases heq
  obtain ⟨ls, hrun⟩ := hrun
  exact ⟨row, hrow, hstatus, (orders_charged_as_stored hrun _ row hrow).2.2.2 hstatus⟩

end Runs

end EventFlow.Saga
