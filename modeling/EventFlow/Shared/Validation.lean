import EventFlow.Shared.Message

namespace EventFlow.Shared

open Js

/-- `new EventValidationError(message, details)`. -/
def eventValidationError (message : String) (details : List String) : JsThrow :=
  .validation (if details.isEmpty then message else message ++ ": " ++ "; ".intercalate details)
    details

/-- `if (!ok) errors.push(message)`. -/
def check (ok : Bool) (message : String) : List String := if ok then [] else [message]

@[simp] theorem check_eq_nil {ok : Bool} {message : String} :
    check ok message = [] ↔ ok = true := by
  cases ok <;> simp [check]

/-- `if (errors.length > 0) throw new EventValidationError(message, errors)`. -/
def throwIfAny (message : String) (errors : List String) : Except JsThrow Unit :=
  if errors.isEmpty then .ok () else .error (eventValidationError message errors)

@[simp] theorem throwIfAny_eq_ok {message : String} {errors : List String} :
    throwIfAny message errors = .ok () ↔ errors = [] := by
  cases errors <;> simp [throwIfAny]

theorem error_of_throwIfAny {message : String} {errors : List String} {e : JsThrow}
    (h : throwIfAny message errors = .error e) : ∃ m d, e = .validation m d := by
  unfold throwIfAny at h
  split_ifs at h
  exact ⟨_, _, (Except.error.inj h).symm⟩

def isNonEmptyString : JsVal → Bool
  | .str s => nonBlank s
  | _ => false

def isUuid : JsVal → Bool
  | .str s => nonBlank s && matchesUuid s
  | _ => false

def isIsoTimestamp : JsVal → Bool
  | .str s => nonBlank s && matchesIsoTimestamp s
  | _ => false

theorem isNonEmptyString_iff {v : JsVal} :
    isNonEmptyString v = true ↔ ∃ s, v = .str s ∧ nonBlank s = true := by
  cases v <;> simp [isNonEmptyString]

/-- A string that passes is never the empty one. -/
theorem ne_empty_of_isNonEmptyString {v : JsVal} (h : isNonEmptyString v = true) :
    ∃ s, v = .str s ∧ s ≠ "" := by
  obtain ⟨s, rfl, hs⟩ := isNonEmptyString_iff.mp h
  exact ⟨s, rfl, nonBlank_ne_empty hs⟩

@[simp] theorem isUuid_uuid (u : Uuid) : isUuid (.str u.val) = true := by
  simp [isUuid, nonBlank_of_matchesUuid u.2, u.2]

@[simp] theorem isIsoTimestamp_timestamp (t : IsoTimestamp) :
    isIsoTimestamp (.str t.val) = true := by
  simp [isIsoTimestamp, nonBlank_of_matchesIsoTimestamp t.2, t.2]

section Envelope

/-- The two errors `eventType` can give. -/
def eventTypeErrors (eventType : JsVal) (expected : Option EventType) : List String :=
  if !isNonEmptyString eventType then ["eventType is required"]
  else match expected with
    | some t => check (eventType.strictEq (.str t.value)) ("eventType must be " ++ t.value)
    | none => []

/-- The envelope's own shape; `expected` asks for one event type. -/
def validateEventEnvelope (value : JsVal) (expected : Option EventType) : Except JsThrow Unit :=
  if !value.isObject then .error (eventValidationError "Envelope must be an object" [])
  else throwIfAny "Invalid event envelope" (
    check (isUuid (value.get "eventId")) "eventId must be a UUID" ++
    eventTypeErrors (value.get "eventType") expected ++
    check ((value.get "version").strictEq (.str eventSchemaVersion))
      ("version must be " ++ eventSchemaVersion) ++
    check (isIsoTimestamp (value.get "timestamp")) "timestamp must be ISO-8601 UTC" ++
    check (isNonEmptyString (value.get "correlationId")) "correlationId is required" ++
    check (isNonEmptyString (value.get "source")) "source is required" ++
    check ((value.get "causationId").strictEq .undefined || isUuid (value.get "causationId"))
      "causationId must be a UUID when present" ++
    check (value.get "payload").isObject "payload must be an object")

/-- What a valid envelope of an expected type looks like. -/
structure ValidEnvelope (value : JsVal) (t : EventType) : Prop where
  object : value.isObject = true
  eventId : isUuid (value.get "eventId") = true
  eventType : value.get "eventType" = .str t.value
  version : value.get "version" = .str eventSchemaVersion
  timestamp : isIsoTimestamp (value.get "timestamp") = true
  correlationId : isNonEmptyString (value.get "correlationId") = true
  source : isNonEmptyString (value.get "source") = true
  causationId : value.get "causationId" = .undefined ∨ isUuid (value.get "causationId") = true
  payload : (value.get "payload").isObject = true

theorem strictEq_str {v : JsVal} {s : String} : v.strictEq (.str s) = true ↔ v = .str s := by
  cases v <;> simp [JsVal.strictEq]

theorem strictEq_undefined {v : JsVal} : v.strictEq .undefined = true ↔ v = .undefined := by
  cases v <;> simp [JsVal.strictEq]

theorem EventType.nonBlank_value (t : EventType) : nonBlank t.value = true := by
  cases t <;> decide

theorem eventTypeErrors_eq_nil {v : JsVal} {t : EventType} :
    eventTypeErrors v (some t) = [] ↔ v = .str t.value := by
  unfold eventTypeErrors
  constructor
  · intro h
    split_ifs at h with hne
    exact strictEq_str.mp (check_eq_nil.mp h)
  · rintro rfl
    simp [isNonEmptyString, t.nonBlank_value, JsVal.strictEq]

theorem validateEventEnvelope_eq_ok {value : JsVal} {t : EventType} :
    validateEventEnvelope value (some t) = .ok () ↔ ValidEnvelope value t := by
  unfold validateEventEnvelope
  by_cases ho : value.isObject = true
  · simp only [ho, Bool.not_true, Bool.false_eq_true, if_false, throwIfAny_eq_ok,
      List.append_eq_nil_iff, check_eq_nil, eventTypeErrors_eq_nil, strictEq_str,
      Bool.or_eq_true, strictEq_undefined, and_assoc]
    constructor
    · rintro ⟨h₁, h₂, h₃, h₄, h₅, h₆, h₇, h₈⟩
      exact ⟨ho, h₁, h₂, h₃, h₄, h₅, h₆, h₇, h₈⟩
    · rintro ⟨-, h₁, h₂, h₃, h₄, h₅, h₆, h₇, h₈⟩
      exact ⟨h₁, h₂, h₃, h₄, h₅, h₆, h₇, h₈⟩
  · simp only [ho, Bool.not_false, if_true, reduceCtorEq, false_iff]
    exact fun h => ho h.object

theorem isJson_of_isNonEmptyString {v : JsVal} (h : isNonEmptyString v = true) :
    v.isJson = true := by
  obtain ⟨s, rfl, -⟩ := isNonEmptyString_iff.mp h
  rfl

theorem isJson_of_isUuid {v : JsVal} (h : isUuid v = true) : v.isJson = true := by
  cases v <;> first | rfl | simp [isUuid] at h

theorem isJson_of_isIsoTimestamp {v : JsVal} (h : isIsoTimestamp v = true) : v.isJson = true := by
  cases v <;> first | rfl | simp [isIsoTimestamp] at h

/-- A valid envelope is one after a trip over the wire. -/
theorem ValidEnvelope.wire {value : JsVal} {t : EventType} (h : ValidEnvelope value t)
    (hkeys : value.keys.Nodup) : ValidEnvelope value.wire t where
  object := by rw [JsVal.isObject_wire, h.object]
  eventId := by rw [JsVal.get_wire_of_isJson (isJson_of_isUuid h.eventId), h.eventId]
  eventType := JsVal.get_wire_str h.eventType
  version := JsVal.get_wire_str h.version
  timestamp := by
    rw [JsVal.get_wire_of_isJson (isJson_of_isIsoTimestamp h.timestamp), h.timestamp]
  correlationId := by
    rw [JsVal.get_wire_of_isJson (isJson_of_isNonEmptyString h.correlationId), h.correlationId]
  source := by rw [JsVal.get_wire_of_isJson (isJson_of_isNonEmptyString h.source), h.source]
  causationId := by
    rcases h.causationId with habsent | huuid
    · exact .inl (JsVal.get_wire_undefined hkeys habsent)
    · right
      rw [JsVal.get_wire_of_isJson (isJson_of_isUuid huuid), huuid]
  payload := by
    have hne : value.get "payload" ≠ .undefined := by
      intro hu
      have hobj := h.payload
      rw [hu] at hobj
      cases hobj
    rw [JsVal.get_wire hne, JsVal.isObject_wire, h.payload]

theorem error_of_validateEventEnvelope {value : JsVal} {expected : Option EventType} {e : JsThrow}
    (h : validateEventEnvelope value expected = .error e) : ∃ m d, e = .validation m d := by
  unfold validateEventEnvelope at h
  split_ifs at h
  · exact ⟨_, _, (Except.error.inj h).symm⟩
  · exact error_of_throwIfAny h

end Envelope

section OrderCreated

def currencies : List String := ["BRL", "USD", "EUR"]

/-- `typeof value === 'number' && Number.isFinite(value) && value >= 0`. -/
def isPositiveNumber : JsVal → Bool
  | .num n => n.isFinite && Number.le 0 n
  | _ => false

/-- `typeof value === 'string' && value.trim()`. -/
def isFilledString : JsVal → Bool := isNonEmptyString

def validateOrderItem (item : JsVal) (index : ℕ) : List String :=
  let path := "items[" ++ index.repr ++ "]"
  if !item.isObject then [path ++ " must be an object"]
  else
    check (isFilledString (item.get "productId")) (path ++ ".productId is required") ++
    check (isPositiveNumber (item.get "quantity") && !Number.le (item.get "quantity").asNum 0)
      (path ++ ".quantity must be a positive number") ++
    check (isPositiveNumber (item.get "unitPrice"))
      (path ++ ".unitPrice must be a non-negative number")

def itemsErrors : JsVal → List String
  | .arr (item :: items) => ((item :: items).zipIdx.map fun p => validateOrderItem p.1 p.2).flatten
  | _ => ["payload.items must be a non-empty array"]

def isCurrency : JsVal → Bool
  | .str s => currencies.contains s
  | _ => false

def validateOrderCreatedPayload (payload : JsVal) : Except JsThrow Unit :=
  if !payload.isObject then
    .error (eventValidationError "order.created payload must be an object" [])
  else throwIfAny "Invalid order.created payload" (
    check (isFilledString (payload.get "orderId")) "payload.orderId is required" ++
    check (isFilledString (payload.get "customerId")) "payload.customerId is required" ++
    itemsErrors (payload.get "items") ++
    check (isPositiveNumber (payload.get "totalAmount"))
      "payload.totalAmount must be a non-negative number" ++
    check (isCurrency (payload.get "currency"))
      ("payload.currency must be one of: " ++ ", ".intercalate currencies))

structure ValidOrderItem (item : JsVal) : Prop where
  object : item.isObject = true
  productId : isNonEmptyString (item.get "productId") = true
  quantity : isPositiveNumber (item.get "quantity") = true
  quantity_pos : Number.le (item.get "quantity").asNum 0 = false
  unitPrice : isPositiveNumber (item.get "unitPrice") = true

structure ValidOrderCreated (payload : JsVal) : Prop where
  object : payload.isObject = true
  orderId : isNonEmptyString (payload.get "orderId") = true
  customerId : isNonEmptyString (payload.get "customerId") = true
  items : ∃ xs, payload.get "items" = .arr xs ∧ xs ≠ [] ∧ ∀ x ∈ xs, ValidOrderItem x
  totalAmount : isPositiveNumber (payload.get "totalAmount") = true
  currency : isCurrency (payload.get "currency") = true

theorem validateOrderItem_eq_nil {item : JsVal} {index : ℕ} :
    validateOrderItem item index = [] ↔ ValidOrderItem item := by
  unfold validateOrderItem
  by_cases ho : item.isObject = true
  · simp only [ho, Bool.not_true, Bool.false_eq_true, if_false, List.append_eq_nil_iff,
      check_eq_nil, Bool.and_eq_true, Bool.not_eq_true', isFilledString, and_assoc]
    constructor
    · rintro ⟨h₁, h₂, h₃, h₄⟩
      exact ⟨ho, h₁, h₂, h₃, h₄⟩
    · rintro ⟨-, h₁, h₂, h₃, h₄⟩
      exact ⟨h₁, h₂, h₃, h₄⟩
  · simp only [ho, Bool.not_false, if_true, List.cons_ne_nil, false_iff]
    exact fun h => ho h.object

theorem itemsErrors_eq_nil {v : JsVal} :
    itemsErrors v = [] ↔ ∃ xs, v = .arr xs ∧ xs ≠ [] ∧ ∀ x ∈ xs, ValidOrderItem x := by
  unfold itemsErrors
  split
  · next item items =>
    rw [List.flatten_eq_nil_iff]
    constructor
    · intro h
      refine ⟨_, rfl, List.cons_ne_nil _ _, fun x hx => ?_⟩
      obtain ⟨i, hi⟩ := List.mem_iff_getElem?.mp hx
      have hmem : (x, i) ∈ (item :: items).zipIdx := List.mem_zipIdx_iff_getElem?.mpr hi
      exact validateOrderItem_eq_nil.mp (h _ (List.mem_map_of_mem hmem))
    · rintro ⟨xs, hxs, -, hall⟩
      obtain rfl := JsVal.arr.inj hxs
      intro l hl
      obtain ⟨p, hp, rfl⟩ := List.mem_map.mp hl
      exact validateOrderItem_eq_nil.mpr (hall _ (List.fst_mem_of_mem_zipIdx hp))
  · next hne =>
    simp only [List.cons_ne_nil, false_iff]
    rintro ⟨xs, rfl, hxs, -⟩
    cases xs with
    | nil => exact hxs rfl
    | cons x xs => exact hne x xs rfl

theorem validateOrderCreatedPayload_eq_ok {payload : JsVal} :
    validateOrderCreatedPayload payload = .ok () ↔ ValidOrderCreated payload := by
  unfold validateOrderCreatedPayload
  by_cases ho : payload.isObject = true
  · simp only [ho, Bool.not_true, Bool.false_eq_true, if_false, throwIfAny_eq_ok,
      List.append_eq_nil_iff, check_eq_nil, itemsErrors_eq_nil, isFilledString, and_assoc]
    constructor
    · rintro ⟨h₁, h₂, h₃, h₄, h₅⟩
      exact ⟨ho, h₁, h₂, h₃, h₄, h₅⟩
    · rintro ⟨-, h₁, h₂, h₃, h₄, h₅⟩
      exact ⟨h₁, h₂, h₃, h₄, h₅⟩
  · simp only [ho, Bool.not_false, if_true, reduceCtorEq, false_iff]
    exact fun h => ho h.object

theorem isJson_of_isPositiveNumber {v : JsVal} (h : isPositiveNumber v = true) :
    v.isJson = true := by
  cases v with
  | num n =>
    rw [isPositiveNumber, Bool.and_eq_true] at h
    exact h.1
  | _ => cases h

theorem isJson_of_isCurrency {v : JsVal} (h : isCurrency v = true) : v.isJson = true := by
  cases v <;> first | rfl | cases h

theorem ValidOrderItem.wire {item : JsVal} (h : ValidOrderItem item) : ValidOrderItem item.wire := by
  have hquantity : item.wire.get "quantity" = item.get "quantity" :=
    JsVal.get_wire_of_isJson (isJson_of_isPositiveNumber h.quantity)
  have hprice : item.wire.get "unitPrice" = item.get "unitPrice" :=
    JsVal.get_wire_of_isJson (isJson_of_isPositiveNumber h.unitPrice)
  refine ⟨by rw [JsVal.isObject_wire, h.object], ?_, ?_, ?_, ?_⟩
  · rw [JsVal.get_wire_of_isJson (isJson_of_isNonEmptyString h.productId), h.productId]
  · rw [hquantity, h.quantity]
  · rw [hquantity, h.quantity_pos]
  · rw [hprice, h.unitPrice]

theorem ValidOrderCreated.wire {payload : JsVal} (h : ValidOrderCreated payload) :
    ValidOrderCreated payload.wire := by
  refine ⟨by rw [JsVal.isObject_wire, h.object], ?_, ?_, ?_, ?_, ?_⟩
  · rw [JsVal.get_wire_of_isJson (isJson_of_isNonEmptyString h.orderId), h.orderId]
  · rw [JsVal.get_wire_of_isJson (isJson_of_isNonEmptyString h.customerId), h.customerId]
  · obtain ⟨xs, hxs, hne, hall⟩ := h.items
    refine ⟨xs.map JsVal.wire, ?_, by simpa using hne, ?_⟩
    · rw [JsVal.get_wire_of_eq hxs JsVal.noConfusion, JsVal.wire, JsVal.wireList_eq_map]
    · intro x hx
      obtain ⟨y, hy, rfl⟩ := List.mem_map.mp hx
      exact (hall y hy).wire
  · rw [JsVal.get_wire_of_isJson (isJson_of_isPositiveNumber h.totalAmount), h.totalAmount]
  · rw [JsVal.get_wire_of_isJson (isJson_of_isCurrency h.currency), h.currency]

theorem error_of_validateOrderCreated {payload : JsVal} {e : JsThrow}
    (h : validateOrderCreatedPayload payload = .error e) : ∃ m d, e = .validation m d := by
  unfold validateOrderCreatedPayload at h
  split_ifs at h
  · exact ⟨_, _, (Except.error.inj h).symm⟩
  · exact error_of_throwIfAny h

end OrderCreated

section PaymentEvents

/-- The shape both payment validators share: an object with filled string fields. -/
def validateFields (eventType : EventType) (fields : List String) (payload : JsVal) :
    Except JsThrow Unit :=
  if !payload.isObject then
    .error (eventValidationError (eventType.value ++ " payload must be an object") [])
  else throwIfAny ("Invalid " ++ eventType.value ++ " payload")
    (fields.map fun field =>
      check (isNonEmptyString (payload.get field)) ("payload." ++ field ++ " is required")).flatten

def validatePaymentProcessedPayload : JsVal → Except JsThrow Unit :=
  validateFields .paymentProcessed ["paymentId", "orderId", "transactionId", "processedAt"]

def validatePaymentFailedPayload : JsVal → Except JsThrow Unit :=
  validateFields .paymentFailed ["paymentId", "orderId", "reason", "failedAt"]

theorem validateFields_eq_ok {t : EventType} {fields : List String} {payload : JsVal} :
    validateFields t fields payload = .ok () ↔
      payload.isObject = true ∧ ∀ field ∈ fields, isNonEmptyString (payload.get field) = true := by
  unfold validateFields
  by_cases ho : payload.isObject = true
  · simp [ho, List.flatten_eq_nil_iff]
  · simp [ho]

theorem validateFields_wire {t : EventType} {fields : List String} {payload : JsVal}
    (h : validateFields t fields payload = .ok ()) : validateFields t fields payload.wire = .ok () := by
  obtain ⟨hobj, hfields⟩ := validateFields_eq_ok.mp h
  refine validateFields_eq_ok.mpr ⟨by rw [JsVal.isObject_wire, hobj], fun field hmem => ?_⟩
  have hfield := hfields field hmem
  rw [JsVal.get_wire_of_isJson (isJson_of_isNonEmptyString hfield), hfield]

end PaymentEvents

end EventFlow.Shared
