import EventFlow.Services.Orders
import EventFlow.Retry.Execute

namespace EventFlow.Services.Orders

open Js Shared

section Total

/-- What the pipe asks of an item, under its declared types. -/
structure PricedItem (item : OrderItem) : Prop where
  quantity : ∃ q h, item.quantity = .fin q h ∧ 1 ≤ q
  unitPrice : ∃ q h, item.unitPrice = .fin q h ∧ 0 < q

/-- A sum of lines that are not negative is not negative, and no NaN; it may overflow. -/
theorem zero_le_sum {items : List OrderItem}
    (h : ∀ item ∈ items, Number.le 0 (item.quantity.mul item.unitPrice) = true) :
    Number.le 0 (sumLineItems items) = true := by
  have hfold : ∀ (items : List OrderItem) (sum : Number),
      (∀ item ∈ items, Number.le 0 (item.quantity.mul item.unitPrice) = true) →
      Number.le 0 sum = true →
      Number.le 0 (items.foldl (fun sum item => sum.add (item.quantity.mul item.unitPrice)) sum) =
        true := by
    intro items
    induction items with
    | nil => exact fun _ _ hsum => hsum
    | cons item rest ih =>
      intro sum hitems hsum
      have hline := hitems item List.mem_cons_self
      exact ih _ (fun i hi => hitems i (List.mem_cons_of_mem _ hi)) (Number.zero_le_add hsum hline)
  have hzero : Number.le 0 0 = true := by
    rw [Number.zero_eq, Number.le_fin]
    exact decide_eq_true le_rfl
  exact hfold items 0 h hzero

theorem zero_le_line {item : OrderItem} {a b : ℚ} {ha : Representable a} {hb : Representable b}
    (hq : item.quantity = .fin a ha) (hp : item.unitPrice = .fin b hb) (ha0 : 0 ≤ a)
    (hb0 : 0 ≤ b) : Number.le 0 (item.quantity.mul item.unitPrice) = true := by
  rw [hq, hp, Number.mul_fin]
  exact Number.zero_le_ofRat (mul_nonneg ha0 hb0)

theorem zero_le_sumLineItems {items : List OrderItem} (h : ∀ item ∈ items, PricedItem item) :
    Number.le 0 (sumLineItems items) = true := by
  apply zero_le_sum
  intro item hitem
  obtain ⟨⟨a, ha, hqa, hpos⟩, ⟨b, hb, hqb, hpos'⟩⟩ := h item hitem
  exact zero_le_line hqa hqb (zero_le_one.trans hpos) hpos'.le

theorem isJson_items {items : List OrderItem} (h : ∀ item ∈ items, PricedItem item) :
    (JsVal.arr (items.map OrderItem.toJs)).isJson = true := by
  induction items with
  | nil => rfl
  | cons item rest ih =>
    obtain ⟨⟨a, ha, hqa, -⟩, b, hb, hqb, -⟩ := h item List.mem_cons_self
    have hrest := ih fun i hi => h i (List.mem_cons_of_mem _ hi)
    have hitem : item.toJs.isJson = true := by
      simp [OrderItem.toJs, JsVal.isJson, JsVal.areJsonFields, hqa, hqb]
    rw [JsVal.isJson] at hrest ⊢
    rw [List.map_cons, JsVal.areJson, hitem, hrest]
    rfl

end Total

section Dto

theorem isString1_iff {v : JsVal} : isString1 v = true ↔ ∃ s, v = .str s ∧ s ≠ "" := by
  cases v <;> simp [isString1]

/-- What an accepted item looks like. -/
theorem acceptsOrderItem_spec {item : JsVal} (h : acceptsOrderItem item = true) :
    PricedItem (.ofJs item) := by
  simp only [acceptsOrderItem, Bool.and_eq_true] at h
  obtain ⟨⟨-, hquantity⟩, hprice⟩ := h
  constructor
  · cases hq : item.get "quantity" with
    | num n =>
      cases n with
      | fin q hrep =>
        simp only [hq, isIntMin1, Bool.and_eq_true, decide_eq_true_eq] at hquantity
        exact ⟨q, hrep, by rw [OrderItem.ofJs, hq]; rfl, hquantity.2⟩
      | _ => simp [hq, isIntMin1] at hquantity
    | _ => simp [hq, isIntMin1] at hquantity
  · cases hq : item.get "unitPrice" with
    | num n =>
      cases n with
      | fin q hrep =>
        simp only [hq, isPositive2, Bool.and_eq_true, decide_eq_true_eq] at hprice
        exact ⟨q, hrep, by rw [OrderItem.ofJs, hq]; rfl, hprice.2⟩
      | _ => simp [hq, isPositive2] at hprice
    | _ => simp [hq, isPositive2] at hprice

/-- What an accepted body looks like. -/
structure AcceptedDto (dto : CreateOrderDto) : Prop where
  items_ne : dto.items ≠ []
  items : ∀ item ∈ dto.items, PricedItem item
  currency : dto.currency.getD "BRL" ∈ currencies

theorem acceptsCreateOrderDto_spec {body : JsVal} (h : acceptsCreateOrderDto body = true) :
    AcceptedDto (.ofJs body) := by
  simp only [acceptsCreateOrderDto, Bool.and_eq_true] at h
  obtain ⟨⟨-, hitems⟩, hcurrency⟩ := h
  refine ⟨?_, ?_, ?_⟩
  · cases hi : body.get "items" with
    | arr xs =>
      cases xs with
      | nil => simp [hi, acceptsItems] at hitems
      | cons x xs =>
        rw [CreateOrderDto.ofJs, hi]
        exact List.cons_ne_nil _ _
    | _ => simp [hi, acceptsItems] at hitems
  · cases hi : body.get "items" with
    | arr xs =>
      simp only [hi, acceptsItems, Bool.and_eq_true, List.all_eq_true] at hitems
      intro item hmem
      rw [CreateOrderDto.ofJs, hi] at hmem
      obtain ⟨x, hx, rfl⟩ := List.mem_map.mp hmem
      exact acceptsOrderItem_spec (hitems.2 x hx)
    | _ => simp [hi, acceptsItems] at hitems
  · rw [CreateOrderDto.ofJs]
    rw [isOptionalCurrency, Bool.or_eq_true] at hcurrency
    by_cases hnull : (body.get "currency").isNullish = true
    · rw [if_pos hnull]
      change "BRL" ∈ currencies
      decide
    · rw [if_neg hnull]
      rcases hcurrency with h | h
      · exact absurd h hnull
      · cases hc : body.get "currency" with
        | str s =>
          rw [hc, isCurrency] at h
          exact List.contains_iff_mem.mp h
        | _ => simp [hc, isCurrency] at h

end Dto

section Published

variable {proc : Process} {dto : CreateOrderDto} {orderId : String}

/-- The record that announces an order. -/
def orderCreatedRecord (proc : Process) (dto : CreateOrderDto) : KafkaRecord :=
  domainRecord .orderCreated (proc.uuid 0).val (orderCreatedEnvelope proc (proc.uuid 0).val dto) []

theorem resolvePartitionKey_orderCreated (hne : orderId ≠ "") :
    resolvePartitionKey (orderCreatedEnvelope proc orderId dto) = .ok orderId :=
  getPartitionKey_eq_ok.mpr ⟨rfl, hne⟩

/-- Whatever fails on the way, `createOrder` sends this record or none, and none when
the producer makes no attempt. -/
theorem createOrder_performs : (createOrder proc dto).Performs fun op => ∀ r, op = .emit r →
    r = orderCreatedRecord proc dto ∧
      Number.le 1 (resolveProducerRetryPolicy proc.env).maxAttempts = true := by
  refine Async.Performs.bind ((Async.performs_perform _).mpr fun _ h => by cases h) fun _ => ?_
  change Async.Performs _ (publishOrderCreated proc dto (pendingOrder (proc.uuid 0).val dto))
  refine Async.Performs.bind ((Async.performs_perform _).mpr fun _ h => by cases h) fun _ => ?_
  refine Async.Performs.bind (Async.Performs.tryCatch ?_ fun error => ?_) fun _ => trivial
  · refine performs_orderPublish (fun _ _ h => by cases h) fun key hkey hone r hr => ⟨?_, hone⟩
    have hkey' : Except.ok (pendingOrder (proc.uuid 0).val dto).id = .ok key :=
      (resolvePartitionKey_orderCreated (proc.uuid 0).ne_empty).symm.trans hkey
    obtain rfl := Except.ok.inj hkey'
    exact (Op.emit.inj hr).symm
  · refine Async.Performs.bind ((Async.performs_perform _).mpr fun _ h => by cases h) fun _ => ?_
    exact Async.Performs.bind Async.performs_ofExcept fun _ => trivial

/-- So that is all a run can leave in the log. -/
theorem mem_log_createOrder {fails : Op → Option JsThrow} {r : KafkaRecord}
    (hr : r ∈ ((createOrder proc dto).run (World.settle () fails) World.empty).2.log) :
    r = orderCreatedRecord proc dto ∧
      Number.le 1 (resolveProducerRetryPolicy proc.env).maxAttempts = true := by
  obtain ⟨rest, hlog, hall⟩ := log_of_performs (c := ()) (w := World.empty)
    createOrder_performs
  rw [hlog] at hr
  exact hall r hr

/-- The store takes the row of the order, without its event id and with it. -/
def Stored (proc : Process) (dto : CreateOrderDto) : Prop :=
  proc.drivers.refuses (pendingOrder (proc.uuid 0).val dto) = none ∧
    proc.drivers.refuses { pendingOrder (proc.uuid 0).val dto with
      eventId := some (proc.uuid 1).val } = none

/-- No store takes a total that has overflowed. -/
theorem Stored.total (h : Stored proc dto) : (calculateTotalAmount dto).isFinite = true := by
  by_contra hinf
  rw [Bool.not_eq_true] at hinf
  have hrefused := proc.drivers.refuses_infinite (pendingOrder (proc.uuid 0).val dto) hinf
  rw [h.1] at hrefused
  cases hrefused

theorem run_saveOrder {fails : Op → Option JsThrow} {w : World Unit} (row : OrderEntity)
    (h : fails (.saveOrder row) = none) :
    (saveOrder row).run (World.settle () fails) w = (.ok (), w.after () [.saveOrder row]) :=
  run_perform_ok h

/-- A row that is refused ends the request before it announces anything. -/
theorem log_of_not_stored {fails : Op → Option JsThrow} (h : ¬ Stored proc dto) :
    ((createOrder proc dto).run (World.settle () (proc.drivers.refusing fails)) World.empty).2.log =
      [] := by
  let order : OrderEntity := pendingOrder (proc.uuid 0).val dto
  let published : OrderEntity := { order with eventId := some (proc.uuid 1).val }
  have hrefuses : ∀ row e, proc.drivers.refuses row = some e →
      proc.drivers.refusing fails (.saveOrder row) = some e := by
    intro row e he
    change (proc.drivers.refuses row).or _ = some e
    rw [he, Option.some_or]
  cases hfirst : proc.drivers.refusing fails (.saveOrder order) with
  | some e =>
    have hrun : (createOrder proc dto).run (World.settle () (proc.drivers.refusing fails))
        (World.empty : World Unit) = (.error e, World.empty) :=
      run_bind_error (run_perform_error hfirst)
    rw [hrun]
    rfl
  | none =>
    have hpending : proc.drivers.refuses order = none := by
      cases hp : proc.drivers.refuses order with
      | none => rfl
      | some e =>
        rw [hrefuses _ _ hp] at hfirst
        cases hfirst
    obtain ⟨e, he⟩ : ∃ e, proc.drivers.refuses published = some e := by
      cases hp : proc.drivers.refuses published with
      | none => exact absurd ⟨hpending, hp⟩ h
      | some e => exact ⟨e, rfl⟩
    have hrest : (publishOrderCreated proc dto order).run
        (World.settle () (proc.drivers.refusing fails))
        ((World.empty : World Unit).after () [.saveOrder order]) =
          (.error e, World.empty.after () [.saveOrder order]) :=
      run_bind_error (run_perform_error (hrefuses _ _ he))
    have hrun : (createOrder proc dto).run (World.settle () (proc.drivers.refusing fails))
        (World.empty : World Unit) = (.error e, World.empty.after () [.saveOrder order]) :=
      (run_bind_ok (run_saveOrder order hfirst)).trans hrest
    rw [hrun]
    rfl

theorem stored_of_mem_log {fails : Op → Option JsThrow} {r : KafkaRecord}
    (hr : r ∈ ((createOrder proc dto).run (World.settle () (proc.drivers.refusing fails))
      World.empty).2.log) : Stored proc dto := by
  by_contra hnot
  rw [log_of_not_stored hnot] at hr
  cases hr

/-- The client can encode the headers of an order's event, which are all texts. -/
theorem encodes_orderCreated :
    proc.drivers.Encodes (envelopeToKafkaHeaders (orderCreatedEnvelope proc orderId dto)) := by
  refine (encodes_created ⟨_, rfl⟩).mpr ⟨?_, fun htruthy => by cases htruthy⟩
  rw [proc.drivers.header_str]
  rfl

/-- With a producer attempt to spend, rows that can be stored and no fault, it is sent. -/
theorem createOrder_sends {w : World Unit} (hstored : Stored proc dto)
    (hone : Number.le 1 (resolveProducerRetryPolicy proc.env).maxAttempts = true) :
    orderCreatedRecord proc dto ∈
      ((createOrder proc dto).run (World.settle () proc.drivers.refusal) w).2.log := by
  let order : OrderEntity := pendingOrder (proc.uuid 0).val dto
  let published : OrderEntity := { order with eventId := some (proc.uuid 1).val }
  have hsent : proc.drivers.refusal (.emit (orderCreatedRecord proc dto)) = none :=
    refusedHeader_eq_none_iff.mpr encodes_orderCreated
  have hpublish : ((orderEventPublisher proc.env).publish .orderCreated
      (orderCreatedEnvelope proc order.id dto) []).run (World.settle () proc.drivers.refusal)
        (w.after () [.saveOrder order, .saveOrder published]) =
      (.ok (), (w.after () [.saveOrder order, .saveOrder published]).after ()
        [.emit (orderCreatedRecord proc dto)]) :=
    (orderEventPublisher_sends hone).publish () _ _ _ _ _ _
      (resolvePartitionKey_orderCreated (proc.uuid 0).ne_empty) rfl hsent
  have hrun : (createOrder proc dto).run (World.settle () proc.drivers.refusal) w =
      (.ok (toCreateOrderResponse published (some (proc.uuid 1).val)),
        (w.after () [.saveOrder order, .saveOrder published]).after ()
          [.emit (orderCreatedRecord proc dto)]) := by
    have hrest : (publishOrderCreated proc dto order).run (World.settle () proc.drivers.refusal)
        (w.after () [.saveOrder order]) =
        (.ok (toCreateOrderResponse published (some (proc.uuid 1).val)),
          (w.after () [.saveOrder order, .saveOrder published]).after ()
            [.emit (orderCreatedRecord proc dto)]) :=
      (run_bind_ok (run_saveOrder published hstored.2)).trans
        ((run_bind_ok (run_tryCatch_ok hpublish)).trans rfl)
    exact (run_bind_ok (run_saveOrder order hstored.1)).trans hrest
  rw [hrun, World.after_log]
  exact List.mem_append_right _ List.mem_cons_self

/-- What the consumer asks beyond the pipe: names that are not blank. -/
structure CleanDto (dto : CreateOrderDto) : Prop where
  customerId : nonBlank dto.customerId = true
  productId : ∀ item ∈ dto.items, nonBlank item.productId = true

theorem validOrderItem_toJs {item : OrderItem} (hpriced : PricedItem item)
    (hname : nonBlank item.productId = true) : ValidOrderItem item.toJs := by
  obtain ⟨⟨a, ha, hqa, hone⟩, ⟨b, hb, hqb, hpos⟩⟩ := hpriced
  have hquantity : item.toJs.get "quantity" = .num (.fin a ha) := congrArg JsVal.num hqa
  have hprice : item.toJs.get "unitPrice" = .num (.fin b hb) := congrArg JsVal.num hqb
  have hapos : (0 : ℚ) < a := zero_lt_one.trans_le hone
  refine ⟨rfl, hname, ?_, ?_, ?_⟩
  · rw [hquantity, isPositiveNumber, Number.zero_eq]
    simpa using hapos.le
  · rw [hquantity, JsVal.asNum, Number.zero_eq]
    simpa using hapos
  · rw [hprice, isPositiveNumber, Number.zero_eq]
    simpa using hpos.le

theorem validOrderCreated_payload (hdto : AcceptedDto dto) (hclean : CleanDto dto)
    (htotal : (calculateTotalAmount dto).isFinite = true) (hid : nonBlank orderId = true) :
    ValidOrderCreated (orderCreatedPayload orderId dto) := by
  refine ⟨rfl, hid, hclean.customerId, ⟨_, rfl, ?_, ?_⟩, ?_, ?_⟩
  · intro hnil
    exact hdto.items_ne (List.map_eq_nil_iff.mp hnil)
  · intro x hx
    obtain ⟨item, hmem, rfl⟩ := List.mem_map.mp hx
    exact validOrderItem_toJs (hdto.items item hmem) (hclean.productId item hmem)
  · have hnonneg : Number.le 0 (calculateTotalAmount dto) = true := zero_le_sumLineItems hdto.items
    change ((calculateTotalAmount dto).isFinite && Number.le 0 (calculateTotalAmount dto)) = true
    rw [htotal, hnonneg]
    rfl
  · exact List.contains_iff_mem.mpr hdto.currency

/-- The envelope of an order, before it travels. -/
theorem validEnvelope_orderCreated (hid : nonBlank orderId = true) :
    ValidEnvelope (orderCreatedEnvelope proc orderId dto) .orderCreated where
  object := rfl
  eventId := isUuid_uuid _
  eventType := rfl
  version := rfl
  timestamp := isIsoTimestamp_timestamp _
  correlationId := hid
  source := show isNonEmptyString (.str "order-service") = true by decide
  causationId := .inl rfl
  payload := rfl

/-- A valid payload at the far side was a clean one. -/
theorem clean_of_validWire (h : ValidOrderCreated (orderCreatedPayload orderId dto).wire) :
    CleanDto dto := by
  refine ⟨?_, fun item hmem => ?_⟩
  · have hcustomer := h.customerId
    rwa [JsVal.get_wire_str (v := orderCreatedPayload orderId dto) rfl] at hcustomer
  · obtain ⟨xs, hxs, -, hall⟩ := h.items
    have hitems : (orderCreatedPayload orderId dto).wire.get "items" =
        (JsVal.arr (dto.items.map OrderItem.toJs)).wire :=
      JsVal.get_wire_of_eq rfl JsVal.noConfusion
    rw [hitems, JsVal.wire, JsVal.wireList_eq_map] at hxs
    obtain rfl := JsVal.arr.inj hxs
    have hname := (hall item.toJs.wire (List.mem_map_of_mem (List.mem_map_of_mem hmem))).productId
    rwa [JsVal.get_wire_str (v := item.toJs) rfl] at hname

/-- And its total was finite: an overflown one is sent as null. -/
theorem total_of_validWire (h : ValidOrderCreated (orderCreatedPayload orderId dto).wire) :
    (calculateTotalAmount dto).isFinite = true := by
  have htotal := h.totalAmount
  have hwire : (orderCreatedPayload orderId dto).wire.get "totalAmount" =
      (JsVal.num (calculateTotalAmount dto)).wire :=
    JsVal.get_wire_of_eq rfl JsVal.noConfusion
  rw [hwire, JsVal.wire] at htotal
  by_contra hinf
  rw [if_neg hinf] at htotal
  cases htotal

/-- What the consumer takes of an order was valid as it arrived. -/
theorem validWire_of_parsed {env : JsVal}
    (h : parseOrderEventsMessage (orderCreatedRecord proc dto).value = .ok (.accepted env)) :
    ValidOrderCreated (orderCreatedPayload (proc.uuid 0).val dto).wire := by
  let envelope : JsVal := orderCreatedEnvelope proc (proc.uuid 0).val dto
  have hpayload : envelope.wire.get "payload" = (orderCreatedPayload (proc.uuid 0).val dto).wire :=
    JsVal.get_wire_of_eq rfl JsVal.noConfusion
  obtain ⟨hread, -, hvalid, -⟩ := parseMessage_eq_accepted.mp h
  have hbare : deserializeAndExtract (.value envelope.wire) = .ok envelope.wire :=
    deserializeAndExtract_obj rfl
  obtain rfl := Except.ok.inj (hbare.symm.trans hread)
  rw [hpayload] at hvalid
  exact validateOrderCreatedPayload_eq_ok.mp hvalid

/-- The consumer takes the record of a stored body exactly when it is clean. -/
theorem parse_orderCreatedRecord (hdto : AcceptedDto dto)
    (htotal : (calculateTotalAmount dto).isFinite = true) :
    (∃ env, parseOrderEventsMessage (orderCreatedRecord proc dto).value = .ok (.accepted env)) ↔
      CleanDto dto := by
  let envelope : JsVal := orderCreatedEnvelope proc (proc.uuid 0).val dto
  have hid : nonBlank (proc.uuid 0).val = true := nonBlank_of_matchesUuid (proc.uuid 0).2
  constructor
  · intro hparsed
    obtain ⟨env, henv⟩ := hparsed
    exact clean_of_validWire (validWire_of_parsed henv)
  · intro hclean
    have hvalid : validateOrderCreatedPayload (envelope.get "payload") = .ok () :=
      validateOrderCreatedPayload_eq_ok.mpr (validOrderCreated_payload hdto hclean htotal hid)
    have hraw : parseOrderEventsMessage (.value envelope) = .ok (.accepted envelope) := by
      refine parseMessage_eq_accepted.mpr ⟨deserializeAndExtract_obj rfl,
        validEnvelope_orderCreated hid, hvalid, ?_⟩
      exact strictEq_str.mpr rfl
    have hkeys : envelope.keys.Nodup := nodup_keys_createEventEnvelope _ _ _
    exact ⟨_, parseMessage_wire stable_validateOrderCreated hkeys hraw⟩

/-- Every record that an accepted body makes `createOrder` publish, in runs with any
faults, is accepted by the consumer: exactly when its names are not blank, if the store takes
its rows and the producer makes an attempt. -/
theorem order_created_accepted_iff {body : JsVal} (hbody : acceptsCreateOrderDto body = true) :
    (∀ fails : Op → Option JsThrow, ∀ r ∈ ((createOrder proc (.ofJs body)).run
        (World.settle () (proc.drivers.refusing fails)) World.empty).2.log,
      ∃ env, parseOrderEventsMessage r.value = .ok (.accepted env)) ↔
      (Number.le 1 (resolveProducerRetryPolicy proc.env).maxAttempts = true →
        Stored proc (.ofJs body) → CleanDto (.ofJs body)) := by
  have hdto : AcceptedDto (.ofJs body) := acceptsCreateOrderDto_spec hbody
  constructor
  · intro hall hone hstored
    have hsent := createOrder_sends (w := World.empty) hstored hone
    rw [← refusing_none] at hsent
    exact (parse_orderCreatedRecord hdto hstored.total).mp (hall _ _ hsent)
  · intro hclean fails r hr
    have hstored : Stored proc (.ofJs body) := stored_of_mem_log hr
    obtain ⟨rfl, hone⟩ := mem_log_createOrder hr
    exact (parse_orderCreatedRecord hdto hstored.total).mpr (hclean hone hstored)

end Published

/-- A body as a client may send it, under any customer. -/
def sampleBody (customerId : String) : JsVal :=
  .obj [("customerId", .str customerId),
    ("items", .arr [.obj [("productId", .str "sku-1"), ("quantity", .num 2),
      ("unitPrice", .num 5)]])]

theorem acceptsCreateOrderDto_sampleBody {customerId : String} (h : customerId ≠ "") :
    acceptsCreateOrderDto (sampleBody customerId) = true := by
  have hkeys : onlyKeys ["customerId", "items", "currency"] (sampleBody customerId) = true := rfl
  have hcustomer : isString1 ((sampleBody customerId).get "customerId") = true :=
    isString1_iff.mpr ⟨customerId, rfl, h⟩
  have hitems : acceptsItems (.arr [.obj [("productId", .str "sku-1"), ("quantity", .num 2),
      ("unitPrice", .num 5)]]) = true := by decide +kernel
  have hcurrency : isOptionalCurrency ((sampleBody customerId).get "currency") = true := rfl
  have hitems' : acceptsItems ((sampleBody customerId).get "items") = true := hitems
  rw [acceptsCreateOrderDto, hkeys, hcustomer, hcurrency, hitems']
  rfl

/-- For a named customer both sides hold. -/
theorem order_created_accepted_named :
    (∀ fails : Op → Option JsThrow, ∀ r ∈ ((createOrder (.still .first .half)
        (.ofJs (sampleBody "c-1"))).run (World.settle ()
          ((Process.still .first .half).drivers.refusing fails)) World.empty).2.log,
      ∃ env, parseOrderEventsMessage r.value = .ok (.accepted env)) ↔
      (Number.le 1 (resolveProducerRetryPolicy noEnv).maxAttempts = true →
        Stored (.still .first .half) (.ofJs (sampleBody "c-1")) →
          CleanDto (.ofJs (sampleBody "c-1"))) :=
  order_created_accepted_iff (acceptsCreateOrderDto_sampleBody (by decide))

/-- A customer whose name is one space passes the pipe and fails the consumer. -/
theorem order_created_blank_rejected :
    acceptsCreateOrderDto (sampleBody " ") = true ∧
      ¬ ∀ fails : Op → Option JsThrow, ∀ r ∈ ((createOrder (.still .first .half)
          (.ofJs (sampleBody " "))).run (World.settle ()
            ((Process.still .first .half).drivers.refusing fails)) World.empty).2.log,
        ∃ env, parseOrderEventsMessage r.value = .ok (.accepted env) := by
  have hbody : acceptsCreateOrderDto (sampleBody " ") = true :=
    acceptsCreateOrderDto_sampleBody (by decide)
  have hstored : Stored (.still .first .half) (.ofJs (sampleBody " ")) := by
    constructor <;> decide +kernel
  refine ⟨hbody, fun hall => ?_⟩
  have hrecord := createOrder_sends (w := World.empty) hstored one_le_producer_noEnv
  rw [← refusing_none] at hrecord
  have hsent := hall _ _ hrecord
  have hclean := (parse_orderCreatedRecord (acceptsCreateOrderDto_spec hbody) hstored.total).mp hsent
  have hblank : nonBlank " " = true := hclean.customerId
  exact absurd hblank (by decide)

end EventFlow.Services.Orders
