import EventFlow.Shared.Parsing

namespace EventFlow.Shared

open Js

section Decoding

/-- What JSON text says, with the white space around it dropped. -/
def textValue (text : String) : Option JsVal :=
  match Json.parse (trim text) with
  | .ok v => some v
  | .error _ => none

/-- The value a message carries: text is read, and once more when it spells a string. -/
def decoded : KafkaValue → Option JsVal
  | .value (.str text) | .buffer text =>
    match textValue text with
    | some (.str inner) => textValue inner
    | v => v
  | .value v => some v

/-- The object with an `eventId`, bare or under `data`. -/
def envelopeIn (v : JsVal) : Option JsVal :=
  if v.has "eventId" then some v
  else if (v.get "data").has "eventId" then some (v.get "data")
  else none

def envelopeOf (raw : KafkaValue) : Option JsVal := (decoded raw).bind envelopeIn

theorem isObject_of_has {v : JsVal} {key : String} (h : v.has key = true) : v.isObject = true := by
  cases v with
  | obj fields => rfl
  | _ => cases h

theorem has_of_get_has {v : JsVal} {key key' : String} (h : (v.get key).has key' = true) :
    v.has key = true := by
  cases v with
  | obj fields =>
    cases hl : fields.lookup key with
    | none =>
      rw [JsVal.get, hl] at h
      cases h
    | some u => rw [JsVal.has, hl, Option.isSome_some]
  | _ => cases h

/-- Text without content is no JSON. -/
theorem textValue_blank {text : String} (h : trim text = "") : textValue text = none := by
  rw [textValue, h]
  rfl

theorem deserialize_text {text : String} {v : JsVal} :
    deserializeKafkaPayload (.value (.str text)) = .ok v ↔ textValue text = some v := by
  by_cases hblank : trim text = ""
  · rw [deserializeKafkaPayload, if_pos hblank, textValue_blank hblank]
    simp
  · rw [deserializeKafkaPayload, if_neg hblank, textValue]
    cases Json.parse (trim text) <;> simp

theorem deserialize_bytes {text : String} {v : JsVal} :
    deserializeKafkaPayload (.buffer text) = .ok v ↔ textValue text = some v := by
  by_cases hblank : trim text = ""
  · rw [deserializeKafkaPayload, if_pos hblank, textValue_blank hblank]
    simp
  · rw [deserializeKafkaPayload, if_neg hblank, textValue]
    cases Json.parse (trim text) <;> simp

theorem extractEnvelope_eq_ok {raw : KafkaValue} {e : JsVal} : extractEnvelope raw = .ok e ↔
    ∃ v, deserializeKafkaPayload raw = .ok v ∧ envelopeIn v = some e := by
  unfold extractEnvelope
  cases deserializeKafkaPayload raw with
  | error err => simp
  | ok v =>
    have hobj : ∀ u : JsVal, (u.isObject && u.has "eventId") = u.has "eventId" := by
      intro u
      cases hu : u.has "eventId" with
      | true => rw [isObject_of_has hu]; rfl
      | false => rw [Bool.and_false]
    have hdata : (v.isObject && v.has "data" && (v.get "data").isObject &&
        (v.get "data").has "eventId") = (v.get "data").has "eventId" := by
      cases hu : (v.get "data").has "eventId" with
      | true =>
        have hv : v.has "data" = true := has_of_get_has hu
        rw [isObject_of_has hv, hv, isObject_of_has hu]
        rfl
      | false => rw [Bool.and_false]
    simp only [hobj, hdata, envelopeIn, Except.ok.injEq, exists_eq_left']
    split_ifs <;> simp

/-- The second reading only matters for a string. -/
theorem extract_value {v e : JsVal} : extractEnvelope (.value v) = .ok e ↔
    (match v with
      | .str inner => textValue inner
      | v => some v).bind envelopeIn = some e := by
  rw [extractEnvelope_eq_ok]
  cases v with
  | str inner =>
    simp only [deserialize_text]
    exact Option.bind_eq_some_iff.symm
  | undefined | null => simp [deserializeKafkaPayload, envelopeIn, JsVal.has, JsVal.get]
  | _ => simp [deserializeKafkaPayload]

/-- The envelope that the pipelines work on. -/
theorem deserializeAndExtract_eq_ok {raw : KafkaValue} {e : JsVal} :
    deserializeAndExtract raw = .ok e ↔ envelopeOf raw = some e := by
  have hstages : deserializeAndExtract raw = .ok e ↔
      ∃ v, deserializeKafkaPayload raw = .ok v ∧ extractEnvelope (.value v) = .ok e := by
    unfold deserializeAndExtract
    cases deserializeKafkaPayload raw with
    | error err => simp
    | ok v => cases hx : extractEnvelope (.value v) <;> simp [hx]
  have htext : ∀ raw text, (∀ {v}, deserializeKafkaPayload raw = .ok v ↔ textValue text = some v) →
      ((∃ v, deserializeKafkaPayload raw = .ok v ∧ extractEnvelope (.value v) = .ok e) ↔
        envelopeOf (.buffer text) = some e) := by
    intro raw text hread
    simp only [hread, extract_value, envelopeOf, decoded]
    cases textValue text with
    | none => simp
    | some v => cases v <;> simp
  rw [hstages]
  cases raw with
  | buffer text => exact htext _ text deserialize_bytes
  | value v =>
    cases v with
    | str text => exact htext _ text deserialize_text
    | undefined | null => simp [deserializeKafkaPayload, envelopeOf, decoded, envelopeIn, JsVal.has,
        JsVal.get]
    | _ => simp [deserializeKafkaPayload, extract_value, envelopeOf, decoded]

end Decoding

/-- What skipping means. -/
theorem parseMessage_eq_skipped {t : EventType} {validatePayload : JsVal → Except JsThrow Unit}
    {raw : KafkaValue} {reason : String} {eventType : JsVal} :
    parseMessage t validatePayload raw = .ok (.skipped reason eventType) ↔
      ∃ e, deserializeAndExtract raw = .ok e ∧ e.get "eventType" ≠ .str t.value ∧
        reason = "unsupported-event-type" ∧ eventType = e.get "eventType" := by
  unfold parseMessage
  cases hx : deserializeAndExtract raw with
  | error err => simp [bind, Except.bind]
  | ok e =>
    simp only [bind, Except.bind, Except.ok.injEq, exists_eq_left']
    by_cases htype : e.get "eventType" = .str t.value
    · have hstrict : (e.get "eventType").strictEq (.str t.value) = true := strictEq_str.mpr htype
      simp only [hstrict, Bool.not_true, Bool.false_eq_true, if_false]
      refine iff_of_false (fun h => ?_) fun h => h.1 htype
      cases hv : validateEventEnvelope e (some t) with
      | error err =>
        rw [hv] at h
        cases h
      | ok u =>
        cases hp : validatePayload (e.get "payload") with
        | error err =>
          rw [hv, hp] at h
          cases h
        | ok u' =>
          simp only [hv, hp] at h
          split_ifs at h
          cases h
    · have hstrict : (e.get "eventType").strictEq (.str t.value) = false := by
        rw [← Bool.not_eq_true, strictEq_str]
        exact htype
      simp only [hstrict, Bool.not_false, if_true, Except.ok.injEq, ParseResult.skipped.injEq,
        ne_eq, htype, not_false_eq_true, true_and]
      exact and_congr eq_comm eq_comm

section OrderCreated

/-- The lines of an order as the grammar of `order.created` wants them. -/
structure ItemGrammar (item : JsVal) : Prop where
  productId : ∃ s, item.get "productId" = .str s ∧ nonBlank s = true
  quantity : ∃ q h, item.get "quantity" = .num (.fin q h) ∧ 0 < q
  unitPrice : ∃ q h, item.get "unitPrice" = .num (.fin q h) ∧ 0 ≤ q

/-- The messages that payment-service handles. -/
structure OrderCreatedGrammar (e : JsVal) : Prop where
  eventType : e.get "eventType" = .str EventType.orderCreated.value
  eventId : ∃ s, e.get "eventId" = .str s ∧ matchesUuid s = true
  causationId : e.get "causationId" ≠ .undefined →
    ∃ s, e.get "causationId" = .str s ∧ matchesUuid s = true
  version : e.get "version" = .str "1.0"
  timestamp : ∃ s, e.get "timestamp" = .str s ∧ matchesIsoTimestamp s = true
  correlationId : ∃ s, e.get "correlationId" = .str s ∧ nonBlank s = true
  source : ∃ s, e.get "source" = .str s ∧ nonBlank s = true
  orderId : ∃ s, (e.get "payload").get "orderId" = .str s ∧ nonBlank s = true
  customerId : ∃ s, (e.get "payload").get "customerId" = .str s ∧ nonBlank s = true
  items : ∃ xs, (e.get "payload").get "items" = .arr xs ∧ xs ≠ [] ∧ ∀ x ∈ xs, ItemGrammar x
  totalAmount : ∃ q h, (e.get "payload").get "totalAmount" = .num (.fin q h) ∧ 0 ≤ q
  currency : ∃ s ∈ ["BRL", "USD", "EUR"], (e.get "payload").get "currency" = .str s
  correlated : e.get "correlationId" = (e.get "payload").get "orderId"

theorem isUuid_iff {v : JsVal} : isUuid v = true ↔ ∃ s, v = .str s ∧ matchesUuid s = true := by
  cases v with
  | str s =>
    rw [isUuid, Bool.and_eq_true, and_iff_right_of_imp nonBlank_of_matchesUuid]
    simp
  | _ => simp [isUuid]

theorem isIsoTimestamp_iff {v : JsVal} :
    isIsoTimestamp v = true ↔ ∃ s, v = .str s ∧ matchesIsoTimestamp s = true := by
  cases v with
  | str s =>
    rw [isIsoTimestamp, Bool.and_eq_true, and_iff_right_of_imp nonBlank_of_matchesIsoTimestamp]
    simp
  | _ => simp [isIsoTimestamp]

theorem isPositiveNumber_iff {v : JsVal} :
    isPositiveNumber v = true ↔ ∃ q h, v = .num (.fin q h) ∧ 0 ≤ q := by
  cases v with
  | num n =>
    rw [isPositiveNumber, Bool.and_eq_true, Number.isFinite_iff]
    constructor
    · rintro ⟨⟨q, h, rfl⟩, hle⟩
      rw [Number.zero_eq, Number.le_fin, decide_eq_true_eq] at hle
      exact ⟨q, h, rfl, hle⟩
    · rintro ⟨q, h, hn, hle⟩
      obtain rfl := JsVal.num.inj hn
      refine ⟨⟨q, h, rfl⟩, ?_⟩
      rw [Number.zero_eq, Number.le_fin, decide_eq_true_eq]
      exact hle
  | _ => simp [isPositiveNumber]

theorem isPositiveQuantity_iff {v : JsVal} :
    isPositiveNumber v = true ∧ Number.le v.asNum 0 = false ↔
      ∃ q h, v = .num (.fin q h) ∧ 0 < q := by
  rw [isPositiveNumber_iff]
  constructor
  · rintro ⟨⟨q, h, rfl, -⟩, hle⟩
    rw [JsVal.asNum, Number.zero_eq, Number.le_fin, decide_eq_false_iff_not, not_le] at hle
    exact ⟨q, h, rfl, hle⟩
  · rintro ⟨q, h, rfl, hlt⟩
    refine ⟨⟨q, h, rfl, hlt.le⟩, ?_⟩
    rw [JsVal.asNum, Number.zero_eq, Number.le_fin, decide_eq_false_iff_not, not_le]
    exact hlt

theorem isCurrency_iff {v : JsVal} :
    isCurrency v = true ↔ ∃ s ∈ ["BRL", "USD", "EUR"], v = .str s := by
  cases v <;> simp [isCurrency, currencies]

theorem isObject_of_get {v : JsVal} {key s : String} (h : v.get key = .str s) :
    v.isObject = true := by
  cases v with
  | obj fields => rfl
  | _ => cases h

theorem itemGrammar_iff {item : JsVal} : ValidOrderItem item ↔ ItemGrammar item := by
  constructor
  · rintro ⟨hobj, hproduct, hquantity, hpos, hprice⟩
    exact ⟨isNonEmptyString_iff.mp hproduct, isPositiveQuantity_iff.mp ⟨hquantity, hpos⟩,
      isPositiveNumber_iff.mp hprice⟩
  · rintro ⟨hproduct, hquantity, hprice⟩
    obtain ⟨hquantity, hpos⟩ := isPositiveQuantity_iff.mpr hquantity
    refine ⟨?_, isNonEmptyString_iff.mpr hproduct, hquantity, hpos, isPositiveNumber_iff.mpr hprice⟩
    obtain ⟨s, hs, -⟩ := hproduct
    exact isObject_of_get hs

theorem orderCreatedGrammar_iff {e : JsVal} :
    (ValidEnvelope e .orderCreated ∧ ValidOrderCreated (e.get "payload") ∧
      (e.get "correlationId").strictEq ((e.get "payload").get "orderId") = true) ↔
    OrderCreatedGrammar e := by
  constructor
  · rintro ⟨henv, hpay, hcorr⟩
    obtain ⟨xs, hxs, hne, hall⟩ := hpay.items
    obtain ⟨s, hs, hblank⟩ := isNonEmptyString_iff.mp hpay.orderId
    have hcorr : e.get "correlationId" = (e.get "payload").get "orderId" := by
      rw [hs] at hcorr ⊢
      exact strictEq_str.mp hcorr
    exact {
      eventType := henv.eventType
      eventId := isUuid_iff.mp henv.eventId
      causationId := fun hne => isUuid_iff.mp (henv.causationId.resolve_left hne)
      version := henv.version
      timestamp := isIsoTimestamp_iff.mp henv.timestamp
      correlationId := isNonEmptyString_iff.mp henv.correlationId
      source := isNonEmptyString_iff.mp henv.source
      orderId := ⟨s, hs, hblank⟩
      customerId := isNonEmptyString_iff.mp hpay.customerId
      items := ⟨xs, hxs, hne, fun x hx => itemGrammar_iff.mp (hall x hx)⟩
      totalAmount := isPositiveNumber_iff.mp hpay.totalAmount
      currency := isCurrency_iff.mp hpay.currency
      correlated := hcorr }
  · intro h
    obtain ⟨xs, hxs, hne, hall⟩ := h.items
    obtain ⟨s, hs, hblank⟩ := h.orderId
    have hpayload : (e.get "payload").isObject = true := isObject_of_get hs
    have henvelope : e.isObject = true := isObject_of_get h.eventType
    refine ⟨?_, ?_, ?_⟩
    · exact {
        object := henvelope
        eventId := isUuid_iff.mpr h.eventId
        eventType := h.eventType
        version := h.version
        timestamp := isIsoTimestamp_iff.mpr h.timestamp
        correlationId := isNonEmptyString_iff.mpr h.correlationId
        source := isNonEmptyString_iff.mpr h.source
        causationId := or_iff_not_imp_left.mpr fun hne => isUuid_iff.mpr (h.causationId hne)
        payload := hpayload }
    · exact {
        object := hpayload
        orderId := isNonEmptyString_iff.mpr h.orderId
        customerId := isNonEmptyString_iff.mpr h.customerId
        items := ⟨xs, hxs, hne, fun x hx => itemGrammar_iff.mpr (hall x hx)⟩
        totalAmount := isPositiveNumber_iff.mpr h.totalAmount
        currency := isCurrency_iff.mpr h.currency }
    · rw [h.correlated, hs]
      exact strictEq_str.mpr rfl

theorem parseOrderEvents_eq_accepted {raw : KafkaValue} {e : JsVal} :
    parseOrderEventsMessage raw = .ok (.accepted e) ↔
      envelopeOf raw = some e ∧ OrderCreatedGrammar e := by
  rw [parseOrderEventsMessage, parseMessage_eq_accepted, deserializeAndExtract_eq_ok,
    validateOrderCreatedPayload_eq_ok, orderCreatedGrammar_iff]

theorem parseOrderEvents_eq_skipped {raw : KafkaValue} :
    (∃ reason eventType, parseOrderEventsMessage raw = .ok (.skipped reason eventType)) ↔
      ∃ e, envelopeOf raw = some e ∧ e.get "eventType" ≠ .str "order.created" := by
  simp only [parseOrderEventsMessage, parseMessage_eq_skipped, deserializeAndExtract_eq_ok]
  constructor
  · rintro ⟨-, -, e, he, hne, -, -⟩
    exact ⟨e, he, hne⟩
  · rintro ⟨e, he, hne⟩
    exact ⟨_, _, e, he, hne, rfl, rfl⟩

/-- The pipeline reads `order.created` exactly as its grammar has it, skips every other
event type, and throws an `EventValidationError` in every other case. -/
theorem parseOrderEvents_grammar (raw : KafkaValue) :
    (∀ e, parseOrderEventsMessage raw = .ok (.accepted e) ↔
      envelopeOf raw = some e ∧ OrderCreatedGrammar e) ∧
    ((∃ reason eventType, parseOrderEventsMessage raw = .ok (.skipped reason eventType)) ↔
      ∃ e, envelopeOf raw = some e ∧ e.get "eventType" ≠ .str "order.created") ∧
    ((∃ message details, parseOrderEventsMessage raw = .error (.validation message details)) ↔
      ¬ ∃ e, envelopeOf raw = some e ∧
        (OrderCreatedGrammar e ∨ e.get "eventType" ≠ .str "order.created")) := by
  refine ⟨fun e => parseOrderEvents_eq_accepted, parseOrderEvents_eq_skipped, ?_⟩
  constructor
  · rintro ⟨message, details, herror⟩ ⟨e, he, hgrammar | hother⟩
    · rw [parseOrderEvents_eq_accepted.mpr ⟨he, hgrammar⟩] at herror
      cases herror
    · obtain ⟨reason, eventType, hskip⟩ := parseOrderEvents_eq_skipped.mpr ⟨e, he, hother⟩
      rw [hskip] at herror
      cases herror
  · intro hnone
    cases hparse : parseOrderEventsMessage raw with
    | ok result =>
      cases result with
      | accepted e =>
        obtain ⟨he, hgrammar⟩ := parseOrderEvents_eq_accepted.mp hparse
        exact absurd ⟨e, he, .inl hgrammar⟩ hnone
      | skipped reason eventType =>
        obtain ⟨e, he, hother⟩ := parseOrderEvents_eq_skipped.mp ⟨reason, eventType, hparse⟩
        exact absurd ⟨e, he, .inr hother⟩ hnone
    | error err =>
      obtain ⟨message, details, rfl⟩ := error_of_parseOrderEvents hparse
      exact ⟨message, details, rfl⟩

end OrderCreated

section WireForms

/-- `JSON.stringify` of a value: text that `JSON.parse` inverts, without white space
around it. -/
structure JsonText (v : JsVal) (text : String) : Prop where
  parse : Json.parse text = .ok v
  tight : trim text = text

def Blank (s : String) : Prop := ∀ c ∈ s.toList, isSpace c = true

/-- The forms in which a value can arrive: parsed already, as text or bytes with any
white space around, and as the text of that text. -/
inductive WireForm (v : JsVal) : KafkaValue → Prop
  | parsed : WireForm v (.value v)
  | text {s before after : String} (hs : JsonText v s) (hb : Blank before) (ha : Blank after) :
      WireForm v (.value (.str (before ++ s ++ after)))
  | bytes {s before after : String} (hs : JsonText v s) (hb : Blank before) (ha : Blank after) :
      WireForm v (.buffer (before ++ s ++ after))
  | textTwice {s before after t before' after' : String} (hs : JsonText v s) (hb : Blank before)
      (ha : Blank after) (ht : JsonText (.str (before ++ s ++ after)) t) (hb' : Blank before')
      (ha' : Blank after') : WireForm v (.value (.str (before' ++ t ++ after')))
  | bytesTwice {s before after t before' after' : String} (hs : JsonText v s) (hb : Blank before)
      (ha : Blank after) (ht : JsonText (.str (before ++ s ++ after)) t) (hb' : Blank before')
      (ha' : Blank after') : WireForm v (.buffer (before' ++ t ++ after'))

/-- White space around a text makes no difference to `trim`. -/
theorem trim_surrounded {before s after : String} (hb : Blank before) (ha : Blank after) :
    trim (before ++ s ++ after) = trim s := by
  have hfront : (before ++ s ++ after).toList.dropWhile isSpace =
      (s.toList ++ after.toList).dropWhile isSpace := by
    rw [String.toList_append, String.toList_append, List.append_assoc,
      List.dropWhile_append_of_pos hb]
  have hback : ∀ c ∈ after.toList.reverse, isSpace c = true :=
    fun c hc => ha c (List.mem_reverse.mp hc)
  rw [trim, trim, trimChars, trimChars, hfront, List.dropWhile_append]
  split_ifs with hempty
  · have hafter : after.toList.dropWhile isSpace = [] := List.dropWhile_eq_nil_iff.mpr ha
    rw [hafter, List.isEmpty_iff.mp hempty]
  · rw [List.reverse_append, List.dropWhile_append_of_pos hback]

theorem textValue_surrounded {v : JsVal} {s before after : String} (hs : JsonText v s)
    (hb : Blank before) (ha : Blank after) : textValue (before ++ s ++ after) = some v := by
  rw [textValue, trim_surrounded hb ha, hs.tight, hs.parse]

theorem decoded_once {v : JsVal} {text : String} (hv : ∀ s, v ≠ .str s)
    (h : textValue text = some v) :
    decoded (.value (.str text)) = some v ∧ decoded (.buffer text) = some v := by
  unfold decoded
  simp only [h]
  cases v with
  | str s => exact absurd rfl (hv s)
  | _ => exact ⟨rfl, rfl⟩

theorem decoded_twice {v : JsVal} {text inner : String} (h : textValue text = some (.str inner))
    (hinner : textValue inner = some v) :
    decoded (.value (.str text)) = some v ∧ decoded (.buffer text) = some v := by
  unfold decoded
  simp only [h, hinner, and_self]

/-- Every form carries the value itself. -/
theorem decoded_wireForm {v : JsVal} {raw : KafkaValue} (hv : ∀ s, v ≠ .str s)
    (h : WireForm v raw) : decoded raw = some v := by
  cases h with
  | parsed =>
    cases v with
    | str s => exact absurd rfl (hv s)
    | _ => rfl
  | text hs hb ha => exact (decoded_once hv (textValue_surrounded hs hb ha)).1
  | bytes hs hb ha => exact (decoded_once hv (textValue_surrounded hs hb ha)).2
  | textTwice hs hb ha ht hb' ha' =>
    exact (decoded_twice (textValue_surrounded ht hb' ha') (textValue_surrounded hs hb ha)).1
  | bytesTwice hs hb ha ht hb' ha' =>
    exact (decoded_twice (textValue_surrounded ht hb' ha') (textValue_surrounded hs hb ha)).2

/-- A parser gives the same result, errors included, on everything with one envelope. -/
theorem parseMessage_congr {t : EventType} {validatePayload : JsVal → Except JsThrow Unit}
    {raw raw' : KafkaValue} {e : JsVal} (h : envelopeOf raw = some e)
    (h' : envelopeOf raw' = some e) :
    parseMessage t validatePayload raw = parseMessage t validatePayload raw' := by
  unfold parseMessage
  rw [deserializeAndExtract_eq_ok.mpr h, deserializeAndExtract_eq_ok.mpr h']

/-- The three parsers read a value with an `eventId` alike in all its forms, and in all
the forms of a wrapper around it. -/
theorem parse_wireForm {v : JsVal} (hv : v.has "eventId" = true) {raw : KafkaValue}
    (h : WireForm v raw ∨ WireForm (.obj [("data", v)]) raw) :
    parseOrderEventsMessage raw = parseOrderEventsMessage (.value v) ∧
    parsePaymentProcessedMessage raw = parsePaymentProcessedMessage (.value v) ∧
    parsePaymentFailedMessage raw = parsePaymentFailedMessage (.value v) := by
  have hobj : ∀ s, v ≠ .str s := by
    rintro s rfl
    cases hv
  have hself : envelopeOf (.value v) = some v := by
    rw [envelopeOf, decoded_wireForm hobj .parsed, Option.bind_some, envelopeIn, if_pos hv]
  have hraw : envelopeOf raw = some v := by
    rcases h with h | h
    · rw [envelopeOf, decoded_wireForm hobj h, Option.bind_some, envelopeIn, if_pos hv]
    · have hwrapped : envelopeIn (.obj [("data", v)]) = some v := by
        have hnone : (JsVal.obj [("data", v)]).has "eventId" = false := rfl
        have hdata : (JsVal.obj [("data", v)]).get "data" = v := rfl
        rw [envelopeIn, hnone, hdata, hv]
        rfl
      rw [envelopeOf, decoded_wireForm (fun _ => JsVal.noConfusion) h, Option.bind_some, hwrapped]
  exact ⟨parseMessage_congr hraw hself, parseMessage_congr hraw hself, parseMessage_congr hraw hself⟩

/-- The text of the text of a wrapper, as bytes with a line break in front. -/
theorem parse_wireForm_twice :
    let v : JsVal := .obj [("eventId", .str "e-1")]
    let raw : KafkaValue := .buffer
      ("\n" ++ "\"\x7b\\\"data\\\":\x7b\\\"eventId\\\":\\\"e-1\\\"\x7d\x7d\"" ++ "")
    parseOrderEventsMessage raw = parseOrderEventsMessage (.value v) ∧
      parsePaymentProcessedMessage raw = parsePaymentProcessedMessage (.value v) ∧
      parsePaymentFailedMessage raw = parsePaymentFailedMessage (.value v) := by
  intro v raw
  have hblank : Blank "" := by simp [Blank]
  have hbreak : Blank "\n" := by simp [Blank, isSpace]
  have hs : JsonText (.obj [("data", v)]) "\x7b\"data\":\x7b\"eventId\":\"e-1\"\x7d\x7d" :=
    ⟨by decide +kernel, by decide +kernel⟩
  have ht : JsonText (.str ("" ++ "\x7b\"data\":\x7b\"eventId\":\"e-1\"\x7d\x7d" ++ ""))
      "\"\x7b\\\"data\\\":\x7b\\\"eventId\\\":\\\"e-1\\\"\x7d\x7d\"" :=
    ⟨by decide +kernel, by decide +kernel⟩
  exact parse_wireForm rfl (.inr (.bytesTwice hs hblank hblank ht hbreak hblank))

end WireForms

end EventFlow.Shared
