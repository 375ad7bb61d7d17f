import EventFlow.Js.Double
import EventFlow.Shared.Event

namespace EventFlow.Shared

open Js

/-- A message value as it reaches a handler: a Buffer, known by its UTF-8 text,
or a value the client has parsed already. -/
inductive KafkaValue where
  | buffer (text : String)
  | value (v : JsVal)

/-- A header value as it reaches a handler, or what the client has been given for it when
that is no string. -/
inductive RawHeader where
  | buffer (text : String)
  | str (text : String)
  | other (v : JsVal)

/-- A record on a topic, as the broker hands it to every subscribed group. -/
structure KafkaRecord where
  topic : String
  key : JsVal
  value : KafkaValue
  headers : List (String × RawHeader)

/-- `error instanceof Error ? error.message : String(error)`. -/
def errorText : JsThrow → Except JsThrow String
  | .error _ message => .ok message
  | .validation message _ => .ok message
  | .value v => v.toText

section Deserialize

/-- Message body to value; text is parsed, anything else passes. -/
def deserializeKafkaPayload : KafkaValue → Except JsThrow JsVal
  | .value .undefined | .value .null => .error (.error "Error" "Kafka message value is empty")
  | .buffer text =>
    if trim text = "" then .error (.error "Error" "Kafka message Buffer is empty")
    else Json.parse (trim text)
  | .value (.str text) =>
    if trim text = "" then .error (.error "Error" "Kafka message string is empty")
    else Json.parse (trim text)
  | .value v => .ok v

/-- The envelope in a message, bare or under `data`. -/
def extractEnvelope (payload : KafkaValue) : Except JsThrow JsVal :=
  match deserializeKafkaPayload payload with
  | .error e => .error e
  | .ok normalized =>
    if normalized.isObject && normalized.has "eventId" then .ok normalized
    else if normalized.isObject && normalized.has "data" &&
        (normalized.get "data").isObject && (normalized.get "data").has "eventId" then
      .ok (normalized.get "data")
    else .error (.error "Error" "Invalid Kafka event payload")

theorem deserialize_obj (fields : List (String × JsVal)) :
    deserializeKafkaPayload (.value (.obj fields)) = .ok (.obj fields) := rfl

theorem extractEnvelope_obj {fields : List (String × JsVal)}
    (h : (JsVal.obj fields).has "eventId" = true) :
    extractEnvelope (.value (.obj fields)) = .ok (.obj fields) := by
  simp [extractEnvelope, deserialize_obj, JsVal.isObject, h]

/-- Whatever fails before a message is looked into fails with an `Error`. -/
theorem error_of_deserialize {p : KafkaValue} {e : JsThrow}
    (h : deserializeKafkaPayload p = .error e) : ∃ name message, e = .error name message := by
  unfold deserializeKafkaPayload at h
  split at h
  · exact ⟨_, _, (Except.error.inj h).symm⟩
  · exact ⟨_, _, (Except.error.inj h).symm⟩
  · split_ifs at h
    · exact ⟨_, _, (Except.error.inj h).symm⟩
    · exact ⟨_, _, Json.error_of_parse h⟩
  · split_ifs at h
    · exact ⟨_, _, (Except.error.inj h).symm⟩
    · exact ⟨_, _, Json.error_of_parse h⟩
  · cases h

theorem error_of_extract {p : KafkaValue} {e : JsThrow} (h : extractEnvelope p = .error e) :
    ∃ name message, e = .error name message := by
  unfold extractEnvelope at h
  split at h
  · next he =>
    obtain rfl := Except.error.inj h
    exact error_of_deserialize he
  · split_ifs at h
    exact ⟨_, _, (Except.error.inj h).symm⟩

end Deserialize

section PartitionKey

/-- The record key, `payload.orderId`. -/
def getPartitionKeyFromPayload (payload : JsVal) : Except JsThrow String :=
  if !payload.isObject then
    .error (.error "Error" "Cannot resolve partition key: payload must be an object with \"orderId\"")
  else match payload.get "orderId" with
    | .str key =>
      if key.length = 0 then
        .error (.error "Error" "Missing or invalid partition key field \"orderId\" in event payload")
      else .ok key
    | _ => .error (.error "Error" "Missing or invalid partition key field \"orderId\" in event payload")

def resolvePartitionKey (envelope : JsVal) : Except JsThrow String :=
  getPartitionKeyFromPayload (envelope.get "payload")

theorem getPartitionKey_eq_ok {payload : JsVal} {key : String} :
    getPartitionKeyFromPayload payload = .ok key ↔
      payload.get "orderId" = .str key ∧ key ≠ "" := by
  have hlen : key.length = 0 ↔ key = "" := String.length_eq_zero_iff
  unfold getPartitionKeyFromPayload
  by_cases ho : payload.isObject = true
  · simp only [ho, Bool.not_true, Bool.false_eq_true, if_false]
    split
    · next s hs =>
      rw [hs]
      split_ifs with hz
      · simp only [JsVal.str.injEq, false_iff, not_and, not_not]
        rintro rfl
        exact String.length_eq_zero_iff.mp hz
      · simp only [Except.ok.injEq, JsVal.str.injEq]
        constructor
        · rintro rfl
          exact ⟨rfl, fun h0 => hz (String.length_eq_zero_iff.mpr h0)⟩
        · exact fun h => h.1
    · next hs => simp only [reduceCtorEq, false_iff, not_and]; exact fun h => absurd h (hs _)
  · have hget : payload.get "orderId" = .undefined := by
      cases payload <;> first | rfl | exact absurd rfl ho
    simp [ho, hget]

/-- The key is found exactly when `payload.orderId` is a non-empty string. -/
theorem resolvePartitionKey_isOk_iff {envelope : JsVal} :
    (∃ key, resolvePartitionKey envelope = .ok key) ↔
      ∃ key, (envelope.get "payload").get "orderId" = .str key ∧ key ≠ "" :=
  exists_congr fun _ => getPartitionKey_eq_ok

end PartitionKey

section Headers

/-- `KafkaHeader`. -/
def headerEventId : String := "x-event-id"
def headerEventType : String := "x-event-type"
def headerCorrelationId : String := "x-correlation-id"
def headerCausationId : String := "x-causation-id"
def headerSource : String := "x-source"
def headerSchemaVersion : String := "x-schema-version"

/-- `RetryHeader`. -/
def headerRetryCount : String := "x-retry-count"
def headerRetryMax : String := "x-retry-max"
def headerRetryAt : String := "x-retry-at"
def headerOriginalTopic : String := "x-original-topic"

/-- Envelope metadata as record headers. -/
def envelopeToKafkaHeaders (envelope : JsVal) : List (String × JsVal) :=
  [(headerEventId, envelope.get "eventId"),
    (headerEventType, envelope.get "eventType"),
    (headerCorrelationId, envelope.get "correlationId"),
    (headerSource, envelope.get "source"),
    (headerSchemaVersion, envelope.get "version")] ++
  if (envelope.get "causationId").truthy then
    [(headerCausationId, envelope.get "causationId")]
  else []

theorem nodup_envelopeToKafkaHeaders (envelope : JsVal) :
    ((envelopeToKafkaHeaders envelope).map Prod.fst).Nodup := by
  unfold envelopeToKafkaHeaders
  split_ifs <;> simp [headerEventId, headerEventType, headerCorrelationId, headerCausationId,
    headerSource, headerSchemaVersion]

/-- The text of a header value, if there is one. -/
def RawHeader.text (drivers : Drivers) : RawHeader → Option String
  | .buffer text | .str text => some text
  | .other v => (drivers.header v).toOption.join

/-- Header values to plain strings; other types are dropped. -/
def parseKafkaHeaders (drivers : Drivers) (headers : List (String × RawHeader)) :
    List (String × String) :=
  headers.filterMap fun header => (header.2.text drivers).map (header.1, ·)

/-- `Number(headers[name])` when the header is there and reads as a finite one. -/
def numericHeader (name : String) (headers : List (String × String)) : Option Number :=
  match headers.lookup name with
  | none => none
  | some raw =>
    if raw = "" then none
    else if (Number.ofText raw).rounded.isFinite then some (Number.ofText raw).rounded else none

/-- Completed retry rounds of this message. -/
def getRetryCount (headers : List (String × String)) : Number :=
  (numericHeader headerRetryCount headers).getD 0

/-- Epoch milliseconds a scheduled retry waits for. -/
def getRetryAt (headers : List (String × String)) : Option Number :=
  numericHeader headerRetryAt headers

structure BuildRetryHeadersParams where
  retryCount : Number
  maxAttempts : Number
  retryAt : Number
  originalTopic : String
  envelopeHeaders : List (String × JsVal)

def buildRetryHeaders (params : BuildRetryHeadersParams) : List (String × JsVal) :=
  spread params.envelopeHeaders
    [(headerRetryCount, .str params.retryCount.toText),
      (headerRetryMax, .str params.maxAttempts.toText),
      (headerRetryAt, .str params.retryAt.toText),
      (headerOriginalTopic, .str params.originalTopic)]

theorem nodup_buildRetryHeaders {params : BuildRetryHeadersParams}
    (h : (params.envelopeHeaders.map Prod.fst).Nodup) :
    ((buildRetryHeaders params).map Prod.fst).Nodup := nodup_spread h

theorem lookup_buildRetryHeaders_count (params : BuildRetryHeadersParams) :
    (buildRetryHeaders params).lookup headerRetryCount = some (.str params.retryCount.toText) := by
  rw [buildRetryHeaders, lookup_spread _ _ _ (by
    simp [headerRetryCount, headerRetryMax, headerRetryAt, headerOriginalTopic])]
  rfl

theorem mem_keys_envelopeToKafkaHeaders {envelope : JsVal} {name : String}
    (h : name ∈ (envelopeToKafkaHeaders envelope).map Prod.fst) :
    name ∈ [headerEventId, headerEventType, headerCorrelationId, headerSource,
      headerSchemaVersion, headerCausationId] := by
  unfold envelopeToKafkaHeaders at h
  split_ifs at h <;> simp at h ⊢ <;> tauto

/-- Over the headers of its envelope a republished record has the retry headers. -/
theorem spread_buildRetryHeaders (envelope : JsVal) {params : BuildRetryHeadersParams}
    (h : params.envelopeHeaders = envelopeToKafkaHeaders envelope) :
    spread (envelopeToKafkaHeaders envelope) (buildRetryHeaders params) =
      envelopeToKafkaHeaders envelope ++ [(headerRetryCount, .str params.retryCount.toText),
        (headerRetryMax, .str params.maxAttempts.toText),
        (headerRetryAt, .str params.retryAt.toText),
        (headerOriginalTopic, .str params.originalTopic)] := by
  have hnames : [headerRetryCount, headerRetryMax, headerRetryAt, headerOriginalTopic].Nodup := by
    decide
  have hapart : ∀ name ∈ [headerRetryCount, headerRetryMax, headerRetryAt, headerOriginalTopic],
      name ∉ [headerEventId, headerEventType, headerCorrelationId, headerSource,
        headerSchemaVersion, headerCausationId] := by decide
  rw [buildRetryHeaders, h]
  exact spread_spread (nodup_envelopeToKafkaHeaders envelope) hnames fun name hname hmem =>
    hapart name hname (mem_keys_envelopeToKafkaHeaders hmem)

/-- A header as it is handed to the client: the bytes of a string, or what it is to encode. -/
def encodeHeader : JsVal → RawHeader
  | .str text => .buffer text
  | v => .other v

def encodeHeaders (headers : List (String × JsVal)) : List (String × RawHeader) :=
  headers.map fun h => (h.1, encodeHeader h.2)

/-- What the client throws instead of sending headers: its first value without a text. -/
def Drivers.refusedHeader (drivers : Drivers) (headers : List (String × RawHeader)) :
    Option JsThrow :=
  headers.findSome? fun header => match header.2 with
    | .other v => match drivers.header v with
      | .error e => some e
      | .ok _ => none
    | _ => none

/-- The client can encode every one of the headers. -/
def Drivers.Encodes (drivers : Drivers) (headers : List (String × JsVal)) : Prop :=
  ∀ header ∈ headers, (drivers.header header.2).isOk = true

variable {drivers : Drivers}

theorem refusedHeader_append (a b : List (String × RawHeader)) :
    drivers.refusedHeader (a ++ b) = (drivers.refusedHeader a).or (drivers.refusedHeader b) :=
  List.findSome?_append

/-- Whatever the client throws is an `Error`. -/
theorem error_of_refusedHeader {headers : List (String × RawHeader)} {e : JsThrow}
    (h : drivers.refusedHeader headers = some e) : ∃ name message, e = .error name message := by
  obtain ⟨header, -, he⟩ := List.exists_of_findSome?_eq_some h
  split at he
  · split at he
    · next v _ _ e' hv =>
      obtain rfl := Option.some.inj he
      exact drivers.header_error v _ hv
    · cases he
  · cases he

theorem refusedHeader_eq_none_iff {headers : List (String × JsVal)} :
    drivers.refusedHeader (encodeHeaders headers) = none ↔ drivers.Encodes headers := by
  have hone : ∀ header : String × JsVal, (match encodeHeader header.2 with
      | .other v => match drivers.header v with
        | .error e => some e
        | .ok _ => none
      | _ => none) = (none : Option JsThrow) ↔ (drivers.header header.2).isOk = true := by
    intro header
    obtain ⟨name, v⟩ := header
    cases v with
    | str text => simp [encodeHeader, drivers.header_str, Except.isOk, Except.toBool]
    | _ =>
      simp only [encodeHeader]
      cases drivers.header _ <;> simp [Except.isOk, Except.toBool]
  rw [Drivers.refusedHeader, encodeHeaders, List.findSome?_map, List.findSome?_eq_none_iff]
  exact forall₂_congr fun header _ => hone header

/-- The fields that `envelopeToKafkaHeaders` sends whatever they are. -/
def sentFields : List String := ["eventId", "eventType", "correlationId", "source", "version"]

theorem encodes_envelope_iff {envelope : JsVal} :
    drivers.Encodes (envelopeToKafkaHeaders envelope) ↔
    (∀ field ∈ sentFields, (drivers.header (envelope.get field)).isOk = true) ∧
      ((envelope.get "causationId").truthy = true →
        (drivers.header (envelope.get "causationId")).isOk = true) := by
  unfold Drivers.Encodes envelopeToKafkaHeaders sentFields
  split_ifs with htruthy <;> simp [htruthy, and_assoc]

/-- A new envelope draws most of its headers; the other three may not have a text. -/
theorem encodes_created {drawnId : Uuid} {drawnTime : IsoTimestamp}
    {params : CreateEventEnvelopeParams} (htype : ∃ text, params.eventType = .str text) :
    drivers.Encodes (envelopeToKafkaHeaders (createEventEnvelope drawnId drawnTime params)) ↔
      (drivers.header params.correlationId).isOk = true ∧
        (params.causationId.truthy = true → (drivers.header params.causationId).isOk = true) := by
  have hstr : ∀ text, (drivers.header (.str text)).isOk = true := fun text => by
    rw [drivers.header_str]
    rfl
  have hevent : (drivers.header params.eventType).isOk = true := by
    obtain ⟨text, htext⟩ := htype
    rw [htext, hstr]
  have hcause : (createEventEnvelope drawnId drawnTime params).get "causationId" =
      params.causationId := rfl
  rw [encodes_envelope_iff, hcause]
  refine and_congr_left fun _ => ?_
  constructor
  · intro h
    exact h "correlationId" (by simp [sentFields])
  · intro h field hfield
    simp only [sentFields, List.mem_cons, List.not_mem_nil, or_false] at hfield
    obtain rfl | rfl | rfl | rfl | rfl := hfield
    · exact hstr _
    · exact hevent
    · exact h
    · exact hstr _
    · exact hstr _

/-- A string header comes back as it was sent. -/
theorem lookup_parse_encode {headers : List (String × JsVal)} {name text : String}
    (h : headers.lookup name = some (.str text)) :
    (parseKafkaHeaders drivers (encodeHeaders headers)).lookup name = some text := by
  induction headers with
  | nil => simp at h
  | cons entry rest ih =>
    obtain ⟨k, v⟩ := entry
    have hcons : parseKafkaHeaders drivers (encodeHeaders ((k, v) :: rest)) =
        (((encodeHeader v).text drivers).map (k, ·)).toList ++
          parseKafkaHeaders drivers (encodeHeaders rest) := by
      rw [encodeHeaders, List.map_cons, parseKafkaHeaders, List.filterMap_cons]
      cases (encodeHeader v).text drivers <;> rfl
    rw [lookup_cons_ite] at h
    rw [hcons]
    by_cases hk : name = k
    · rw [if_pos hk] at h
      obtain rfl := Option.some.inj h
      simp [encodeHeader, RawHeader.text, hk]
    · rw [if_neg hk] at h
      cases (encodeHeader v).text drivers with
      | none => exact ih h
      | some t =>
        simp only [Option.map_some, Option.toList_some, List.singleton_append]
        rw [lookup_cons_ite, if_neg hk]
        exact ih h

end Headers

end EventFlow.Shared
