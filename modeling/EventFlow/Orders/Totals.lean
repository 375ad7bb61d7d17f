import EventFlow.Orders.Wire
import EventFlow.Payments.Rules

namespace EventFlow.Services.Orders

open Js Shared
open Payment (PaymentRule PaymentBusinessRulesConfig evaluatePaymentRules NumericOrder
  NumericSettings Refused Vetted resolvePaymentBusinessRules)

section Accepted

variable {payload : JsVal} {config : PaymentBusinessRulesConfig}

/-- The items of a validated payload, as the rules read them. -/
structure ShapedItem (item : OrderItem) : Prop where
  quantity : ∃ q h, item.quantity = .fin q h ∧ 0 < q
  unitPrice : ∃ q h, item.unitPrice = .fin q h ∧ 0 ≤ q

theorem fin_of_isPositiveNumber {v : JsVal} (h : isPositiveNumber v = true) :
    ∃ q hq, v = .num (.fin q hq) ∧ 0 ≤ q := by
  cases v with
  | num n =>
    rw [isPositiveNumber, Bool.and_eq_true] at h
    obtain ⟨q, hq, hn⟩ := Number.isFinite_iff.mp h.1
    have hnonneg := h.2
    rw [hn, Number.zero_eq, Number.le_fin, decide_eq_true_eq] at hnonneg
    exact ⟨q, hq, congrArg JsVal.num hn, hnonneg⟩
  | _ => cases h

theorem shapedItem_of_valid {item : JsVal} (h : ValidOrderItem item) :
    ShapedItem (.ofJs item) := by
  obtain ⟨a, ha, hquantity, -⟩ := fin_of_isPositiveNumber h.quantity
  obtain ⟨b, hb, hprice, hb0⟩ := fin_of_isPositiveNumber h.unitPrice
  have hpos := h.quantity_pos
  rw [hquantity, JsVal.asNum, Number.zero_eq, Number.le_fin, decide_eq_false_iff_not, not_le] at hpos
  refine ⟨⟨a, ha, ?_, hpos⟩, b, hb, ?_, hb0⟩
  · rw [OrderItem.ofJs, hquantity, JsVal.asNum]
  · rw [OrderItem.ofJs, hprice, JsVal.asNum]

theorem shapedItems_of_valid (h : ValidOrderCreated payload) :
    (OrderCreatedPayload.ofJs payload).items ≠ [] ∧
      ∀ item ∈ (OrderCreatedPayload.ofJs payload).items, ShapedItem item := by
  obtain ⟨xs, hxs, hne, hall⟩ := h.items
  have hitems : (OrderCreatedPayload.ofJs payload).items = xs.map OrderItem.ofJs := by
    rw [OrderCreatedPayload.ofJs, hxs]
    rfl
  rw [hitems]
  constructor
  · simpa using hne
  · intro item hmem
    obtain ⟨x, hx, hitem⟩ := List.mem_map.mp hmem
    subst hitem
    exact shapedItem_of_valid (hall x hx)

/-- The rules on the shape of an order hold of all that the consumer accepts. -/
theorem not_broken_of_valid (h : ValidOrderCreated payload) {rule : PaymentRule}
    (hrule : rule ∈ [PaymentRule.nonEmptyItems, .positiveQuantity, .nonNegativePrice]) :
    rule.broken (.ofJs payload) config = false := by
  obtain ⟨hne, hall⟩ := shapedItems_of_valid h
  have hzero := Number.zero_eq
  simp only [List.mem_cons, List.not_mem_nil, or_false] at hrule
  rcases hrule with rfl | rfl | rfl
  · simpa [PaymentRule.broken] using hne
  · rw [PaymentRule.broken, List.any_eq_false]
    intro item hmem
    obtain ⟨q, hq, hval, hpos⟩ := (hall item hmem).quantity
    rw [hval, hzero, Number.le_fin]
    simpa using hpos
  · rw [PaymentRule.broken, List.any_eq_false]
    intro item hmem
    obtain ⟨q, hq, hval, hnonneg⟩ := (hall item hmem).unitPrice
    rw [hval, hzero, Number.lt_fin]
    simpa using hnonneg

/-- A validated payload holds no NaN that a rule could meet. -/
theorem numericOrder_of_valid (h : ValidOrderCreated payload) :
    NumericOrder (.ofJs payload) := by
  obtain ⟨-, hall⟩ := shapedItems_of_valid h
  obtain ⟨t, ht, htotal, -⟩ := fin_of_isPositiveNumber h.totalAmount
  have hamount : (OrderCreatedPayload.ofJs payload).totalAmount = .fin t ht := by
    rw [OrderCreatedPayload.ofJs, htotal, JsVal.asNum]
  have hsum : Number.le 0 (sumLineItems (OrderCreatedPayload.ofJs payload).items) = true := by
    apply zero_le_sum
    intro item hmem
    obtain ⟨⟨a, ha, hqa, hpos⟩, b, hb, hqb, hnonneg⟩ := hall item hmem
    exact zero_le_line hqa hqb hpos.le hnonneg
  constructor
  · simp [hamount]
  · rw [hamount]
    exact Number.abs_ne_nan (Number.sub_fin_ne_nan (Number.right_ne_nan_of_le hsum) ht)
  · intro item hmem
    obtain ⟨q, hq, hval, -⟩ := (hall item hmem).quantity
    simp [hval]
  · intro item hmem
    obtain ⟨q, hq, hval, -⟩ := (hall item hmem).unitPrice
    simp [hval]

/-- For what the consumer accepts, only a malformed variable can silence a rule. -/
theorem vetted_of_accepted_iff (env : String → Option String) (h : ValidOrderCreated payload) :
    (evaluatePaymentRules (.ofJs payload) (resolvePaymentBusinessRules env) = [] →
        Vetted (.ofJs payload) (resolvePaymentBusinessRules env)) ↔
      Refused env (.ofJs payload) ∨ NumericSettings env := by
  rw [Payment.vetted_iff_comparable, Payment.refused_iff, Payment.comparable_iff]
  simp only [numericOrder_of_valid h, and_true]

end Accepted

section Agreement

variable {proc : Process} {dto : CreateOrderDto} {body : JsVal} {r : KafkaRecord}
  {envelope : JsVal} {config : PaymentBusinessRulesConfig}

/-- What the consumer reads of a published order: its items and their sum. -/
theorem read_orderCreatedRecord (hdto : AcceptedDto dto)
    (hread : parseOrderEventsMessage (orderCreatedRecord proc dto).value =
      .ok (.accepted envelope)) :
    (OrderCreatedPayload.ofJs (envelope.get "payload")).items = dto.items ∧
      ∃ q hq, sumLineItems dto.items = .fin q hq ∧
        (OrderCreatedPayload.ofJs (envelope.get "payload")).totalAmount = .fin q hq := by
  let sent : JsVal := orderCreatedEnvelope proc (proc.uuid 0).val dto
  let payload : JsVal := orderCreatedPayload (proc.uuid 0).val dto
  have hfinite : (calculateTotalAmount dto).isFinite = true :=
    total_of_validWire (validWire_of_parsed hread)
  have henvelope : envelope = sent.wire := by
    have hbare : deserializeAndExtract (.value sent.wire) = .ok sent.wire :=
      deserializeAndExtract_obj rfl
    exact Except.ok.inj ((parseMessage_eq_accepted.mp hread).1.symm.trans hbare)
  have hpayload : envelope.get "payload" = payload.wire := by
    rw [henvelope]
    exact JsVal.get_wire_of_eq rfl JsVal.noConfusion
  have hitems : payload.wire.get "items" = .arr (dto.items.map OrderItem.toJs) :=
    (JsVal.get_wire_of_eq rfl JsVal.noConfusion).trans
      (JsVal.wire_of_isJson _ (isJson_items hdto.items))
  obtain ⟨q, hq, hsum⟩ := Number.isFinite_iff.mp hfinite
  have htotal : payload.wire.get "totalAmount" = .num (.fin q hq) := by
    have hfield : payload.get "totalAmount" = .num (.fin q hq) := congrArg JsVal.num hsum
    rw [JsVal.get_wire_of_eq hfield JsVal.noConfusion]
    exact JsVal.wire_of_isJson _ rfl
  refine ⟨?_, q, hq, hsum, ?_⟩
  · rw [OrderCreatedPayload.ofJs, hpayload, hitems, JsVal.asArr, List.map_map]
    exact List.map_id _
  · rw [OrderCreatedPayload.ofJs, hpayload, htotal, JsVal.asNum]

/-- The sum of the items is the total they were published with. -/
theorem amount_matches (hdto : AcceptedDto dto)
    (hread : parseOrderEventsMessage (orderCreatedRecord proc dto).value =
      .ok (.accepted envelope))
    (htol : Number.le 0 config.amountTolerance = true) :
    PaymentRule.amountMatchesItems.broken (.ofJs (envelope.get "payload")) config = false := by
  obtain ⟨hitems, q, hq, hsum, htotal⟩ := read_orderCreatedRecord hdto hread
  have hdrift : PaymentRule.drift (.ofJs (envelope.get "payload")) = 0 := by
    rw [PaymentRule.drift, hitems, hsum, htotal, Number.sub_self_fin]
    decide +kernel
  rw [PaymentRule.broken, hdrift]
  exact (Number.le_iff_not_lt.mp htol).1

/-- The rules that remain for a validated payload. -/
theorem amount_rule_of_reported (hvalid : ValidOrderCreated (envelope.get "payload"))
    {rule : PaymentRule}
    (hrule : rule.broken (.ofJs (envelope.get "payload")) config = true) :
    rule.name ∉ ["NON_EMPTY_ITEMS", "POSITIVE_QUANTITY", "NON_NEGATIVE_PRICE"] := by
  cases rule with
  | nonEmptyItems | positiveQuantity | nonNegativePrice =>
    rw [not_broken_of_valid hvalid (by simp)] at hrule
    cases hrule
  | _ => decide

/-- The order total agrees on both sides of the topic. Of an order that the pipe
let through and `createOrder` published, the rules report nothing but its amount and the
number of its items; one with names that are not blank is published, and read, when nothing
fails; of no accepted payload, whoever sent it, do they report its shape. -/
theorem totals_agree :
    (∀ (proc : Process) (body : JsVal) (fails : Op → Option JsThrow) (r : KafkaRecord)
        (envelope : JsVal) (config : PaymentBusinessRulesConfig),
      acceptsCreateOrderDto body = true →
      r ∈ ((createOrder proc (.ofJs body)).run (World.settle () fails) World.empty).2.log →
      parseOrderEventsMessage r.value = .ok (.accepted envelope) →
      Number.le 0 config.amountTolerance = true →
      ∀ v ∈ evaluatePaymentRules (.ofJs (envelope.get "payload")) config,
        v.rule ∈ ["MIN_AMOUNT", "MAX_AMOUNT", "MAX_ITEMS"]) ∧
    (∀ (proc : Process) (body : JsVal), acceptsCreateOrderDto body = true →
      CleanDto (.ofJs body) → Stored proc (.ofJs body) →
      Number.le 1 (resolveProducerRetryPolicy proc.env).maxAttempts = true →
      ∃ r ∈ ((createOrder proc (.ofJs body)).run (World.settle () proc.drivers.refusal)
          World.empty).2.log,
        ∃ envelope, parseOrderEventsMessage r.value = .ok (.accepted envelope)) ∧
    ∀ (raw : KafkaValue) (envelope : JsVal) (config : PaymentBusinessRulesConfig),
      parseOrderEventsMessage raw = .ok (.accepted envelope) →
      ∀ v ∈ evaluatePaymentRules (.ofJs (envelope.get "payload")) config,
        v.rule ∉ ["NON_EMPTY_ITEMS", "POSITIVE_QUANTITY", "NON_NEGATIVE_PRICE"] := by
  have hvalid : ∀ {raw envelope}, parseOrderEventsMessage raw = .ok (.accepted envelope) →
      ValidOrderCreated (envelope.get "payload") := fun hread =>
    validateOrderCreatedPayload_eq_ok.mp (parseMessage_eq_accepted.mp hread).2.2.1
  refine ⟨?_, ?_, ?_⟩
  · intro proc body fails r envelope config hbody hr hread htol v hv
    obtain ⟨rfl, -⟩ := mem_log_createOrder hr
    obtain ⟨rule, hbroken, hname⟩ := PaymentRule.reported_of_mem hv
    rw [hname]
    cases rule with
    | nonEmptyItems | positiveQuantity | nonNegativePrice =>
      exact absurd (by decide) (amount_rule_of_reported (hvalid hread) hbroken)
    | amountMatchesItems =>
      rw [amount_matches (acceptsCreateOrderDto_spec hbody) hread htol] at hbroken
      cases hbroken
    | _ => decide
  · intro proc body hbody hclean hstored hone
    exact ⟨_, createOrder_sends hstored hone,
      (parse_orderCreatedRecord (acceptsCreateOrderDto_spec hbody) hstored.total).mpr hclean⟩
  · intro raw envelope config hread v hv
    obtain ⟨rule, hbroken, hname⟩ := PaymentRule.reported_of_mem hv
    rw [hname]
    exact amount_rule_of_reported (hvalid hread) hbroken

/-- A small order, with no variable set. -/
theorem totals_agree_sample : ∃ envelope,
    parseOrderEventsMessage (orderCreatedRecord (.still .first .half)
      (.ofJs (sampleBody "c-1"))).value = .ok (.accepted envelope) ∧
    ∀ v ∈ evaluatePaymentRules (.ofJs (envelope.get "payload")) (resolvePaymentBusinessRules noEnv),
      v.rule ∈ ["MIN_AMOUNT", "MAX_AMOUNT", "MAX_ITEMS"] := by
  let dto : CreateOrderDto := .ofJs (sampleBody "c-1")
  let proc : Process := .still .first .half
  have hbody : acceptsCreateOrderDto (sampleBody "c-1") = true :=
    acceptsCreateOrderDto_sampleBody (by decide)
  have hclean : CleanDto dto := ⟨by decide +kernel, by decide +kernel⟩
  have hstored : Stored proc dto := by
    constructor <;> decide +kernel
  have hparsed : ∃ envelope, parseOrderEventsMessage (orderCreatedRecord proc dto).value =
      .ok (.accepted envelope) :=
    (parse_orderCreatedRecord (acceptsCreateOrderDto_spec hbody) hstored.total).mpr hclean
  have hsent : orderCreatedRecord proc dto ∈
      ((createOrder proc dto).run (World.settle () proc.drivers.refusal) World.empty).2.log :=
    createOrder_sends hstored one_le_producer_noEnv
  obtain ⟨envelope, hread⟩ := hparsed
  exact ⟨envelope, hread, totals_agree.1 _ _ _ _ _ _ hbody hsent hread (by decide +kernel)⟩

end Agreement

end EventFlow.Services.Orders
