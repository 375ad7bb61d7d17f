import EventFlow.Js.Json
import EventFlow.Services.Entities

namespace EventFlow.Shared

open Js

/-- The registry of domain event types. -/
inductive EventType where
  | orderCreated
  | orderCancelled
  | paymentRequested
  | paymentProcessed
  | paymentFailed
  | stockReserved
  | stockReleased
  | stockFailed
  | notificationSend
  | notificationSent
  | notificationFailed
  deriving DecidableEq, Repr

namespace EventType

/-- The `eventType` text in every envelope. -/
def value : EventType → String
  | orderCreated => "order.created"
  | orderCancelled => "order.cancelled"
  | paymentRequested => "payment.requested"
  | paymentProcessed => "payment.processed"
  | paymentFailed => "payment.failed"
  | stockReserved => "stock.reserved"
  | stockReleased => "stock.released"
  | stockFailed => "stock.failed"
  | notificationSend => "notification.send"
  | notificationSent => "notification.sent"
  | notificationFailed => "notification.failed"

def allEventTypes : List EventType :=
  [orderCreated, orderCancelled, paymentRequested, paymentProcessed, paymentFailed, stockReserved,
    stockReleased, stockFailed, notificationSend, notificationSent, notificationFailed]

theorem mem_allEventTypes (t : EventType) : t ∈ allEventTypes := by
  cases t <;> decide

theorem value_injective {t u : EventType} (h : t.value = u.value) : t = u := by
  revert h
  cases t <;> cases u <;> decide

end EventType

inductive ServiceName where
  | orderService
  | paymentService
  | stockService
  | notificationService
  | dlqService
  deriving DecidableEq, Repr

def ServiceName.value : ServiceName → String
  | .orderService => "order-service"
  | .paymentService => "payment-service"
  | .stockService => "stock-service"
  | .notificationService => "notification-service"
  | .dlqService => "dlq-service"

section Topics

/-- `OrderKafkaTopic.ORDER_EVENTS`. -/
def orderEventsTopic : String := "order.events"

/-- `PaymentKafkaTopic.PAYMENT_EVENTS`. -/
def paymentEventsTopic : String := "payment.events"

/-- `EVENT_TO_KAFKA_TOPIC`, the overrides where the topic is not the event type. -/
def eventToKafkaTopic : EventType → Option String
  | .orderCreated => some orderEventsTopic
  | .paymentProcessed => some paymentEventsTopic
  | .paymentFailed => some paymentEventsTopic
  | _ => none

def resolveKafkaTopic (eventType : EventType) : String :=
  (eventToKafkaTopic eventType).getD eventType.value

def toDlqTopic (topic : String) : String := topic ++ ".dlq"

def allDlqTopics : List String := EventType.allEventTypes.map fun t => toDlqTopic t.value

/-- A companion topic is listed only for topics named like an event type. -/
theorem toDlqTopic_resolve_mem_iff (t : EventType) :
    toDlqTopic (resolveKafkaTopic t) ∈ allDlqTopics ↔ resolveKafkaTopic t = t.value := by
  cases t <;> decide

end Topics

section Formats

def isHexDigit (c : Char) : Bool :=
  c.isDigit || ('a' ≤ c && c ≤ 'f') || ('A' ≤ c && c ≤ 'F')

/-- What `UUID_REGEX` wants at one of its 36 positions. -/
def uuidCharAt (i : ℕ) (c : Char) : Bool :=
  if i ∈ [8, 13, 18, 23] then c = '-'
  else if i = 14 then '1' ≤ c && c ≤ '5'
  else if i = 19 then c ∈ ['8', '9', 'a', 'b', 'A', 'B']
  else isHexDigit c

/-- `UUID_REGEX.test(s)`. -/
def matchesUuid (s : String) : Bool :=
  s.toList.length = 36 && s.toList.zipIdx.all fun p => uuidCharAt p.2 p.1

/-- The fixed part of a timestamp, with `d` for a digit. -/
def timestampShape : List Char :=
  ['d', 'd', 'd', 'd', '-', 'd', 'd', '-', 'd', 'd', 'T', 'd', 'd', ':', 'd', 'd', ':', 'd', 'd']

/-- The optional fraction of one to three digits, and the `Z`. -/
def timestampTail : List Char → Bool
  | 'Z' :: [] => true
  | '.' :: rest =>
    rest.getLast? = some 'Z' && rest.dropLast.all Char.isDigit &&
      1 ≤ rest.dropLast.length && rest.dropLast.length ≤ 3
  | _ => false

/-- `ISO_TIMESTAMP_REGEX.test(s)`. -/
def matchesIsoTimestamp (s : String) : Bool :=
  let cs := s.toList
  timestampShape.length ≤ cs.length &&
    ((cs.zip timestampShape).all fun p => if p.2 = 'd' then p.1.isDigit else p.1 = p.2) &&
    timestampTail (cs.drop timestampShape.length)

/-- What `randomUUID()` returns. -/
def Uuid := { s : String // matchesUuid s = true }

/-- What `new Date().toISOString()` returns. -/
def IsoTimestamp := { s : String // matchesIsoTimestamp s = true }

/-- What `Math.random()` returns. -/
def UnitFraction := { q : ℚ // 0 ≤ q ∧ q < 1 }

private theorem isSpace_of_isHexDigit {c : Char} (h : isHexDigit c = true) : isSpace c = false := by
  rw [isHexDigit, Bool.or_eq_true, Bool.or_eq_true, Bool.and_eq_true, Bool.and_eq_true] at h
  have hbounds : (48 ≤ c.toNat ∧ c.toNat ≤ 57) ∨ (97 ≤ c.toNat ∧ c.toNat ≤ 102) ∨
      (65 ≤ c.toNat ∧ c.toNat ≤ 70) := by
    rcases h with (h | ⟨h₁, h₂⟩) | ⟨h₁, h₂⟩
    · exact .inl (Char.isDigit_iff_toNat.mp h)
    · exact .inr (.inl ⟨UInt32.le_iff_toNat_le.mp (of_decide_eq_true h₁),
        UInt32.le_iff_toNat_le.mp (of_decide_eq_true h₂)⟩)
    · exact .inr (.inr ⟨UInt32.le_iff_toNat_le.mp (of_decide_eq_true h₁),
        UInt32.le_iff_toNat_le.mp (of_decide_eq_true h₂)⟩)
  simp only [isSpace, List.mem_cons, List.not_mem_nil, or_false, Bool.or_eq_false_iff,
    decide_eq_false_iff_not, Bool.and_eq_false_iff]
  omega

theorem nonBlank_of_matchesUuid {s : String} (h : matchesUuid s = true) : nonBlank s = true := by
  rw [matchesUuid, Bool.and_eq_true, decide_eq_true_eq] at h
  rw [nonBlank_iff]
  cases hs : s.toList with
  | nil => simp [hs] at h
  | cons c cs =>
    rw [hs, List.zipIdx_cons, List.all_cons, Bool.and_eq_true] at h
    exact ⟨c, List.mem_cons_self, isSpace_of_isHexDigit h.2.1⟩

theorem nonBlank_of_matchesIsoTimestamp {s : String} (h : matchesIsoTimestamp s = true) :
    nonBlank s = true := by
  unfold matchesIsoTimestamp at h
  simp only [Bool.and_eq_true, decide_eq_true_eq] at h
  obtain ⟨⟨hlen, hall⟩, -⟩ := h
  rw [nonBlank_iff]
  cases hs : s.toList with
  | nil => simp [hs, timestampShape] at hlen
  | cons c cs =>
    rw [hs, timestampShape, List.zip_cons_cons, List.all_cons, Bool.and_eq_true] at hall
    exact ⟨c, List.mem_cons_self, isSpace_of_isDigit hall.1⟩

/-- Strings that the process draws: each is a well-formed text, never blank. -/
theorem Uuid.ne_empty (u : Uuid) : u.val ≠ "" := nonBlank_ne_empty (nonBlank_of_matchesUuid u.2)

end Formats

/-- The condition of an update, on the key of a row. -/
abbrev Criterion := String → Bool

/-- `{ id }` for a text. -/
def byId (id : String) : Criterion := fun key => key = id

@[simp] theorem byId_eq_true {id key : String} : byId id key = true ↔ key = id := by
  simp [byId]

theorem byId_injective {id id' : String} (h : byId id = byId id') : id = id' := by
  apply byId_eq_true.mp
  rw [← h]
  exact byId_eq_true.mpr rfl

/-- What the services leave to their libraries: the text that the Kafka client makes of a
header, the rows that an update by an id selects, and the rows that the database refuses.
Texts are sent as they are, a value keeps having a text after a trip over the wire, and an
infinite total cannot be stored. -/
structure Drivers where
  header : JsVal → Except JsThrow (Option String)
  criterion : JsVal → Except JsThrow Criterion
  refuses : Services.OrderEntity → Option JsThrow
  header_str : ∀ text, header (.str text) = .ok (some text)
  header_wire : ∀ v, (header v).isOk = true → (header v.wire).isOk = true
  header_error : ∀ v e, header v = .error e → ∃ name message, e = .error name message
  criterion_str : ∀ id, criterion (.str id) = .ok (byId id)
  criterion_error : ∀ v e, criterion v = .error e → ∃ name message, e = .error name message
  refuses_error : ∀ row e, refuses row = some e → ∃ name message, e = .error name message
  refuses_infinite : ∀ row, row.totalAmount.isFinite = false → (refuses row).isSome = true

/-- A text selects the one row under it. -/
theorem Drivers.eq_byId {drivers : Drivers} {v : JsVal} {id : String} {criterion : Criterion}
    (h : drivers.criterion v = .ok criterion) (hv : v = .str id) : criterion = byId id := by
  rw [hv, drivers.criterion_str] at h
  exact (Except.ok.inj h).symm

/-- `String(value)` for a header that is set, the one id that a text or a one-element array
names, and no row with a total that SQL has no literal for. -/
def Drivers.documented : Drivers where
  header v := if v.isNullish then .ok none else v.toText.map some
  criterion
    | .str id | .arr [.str id] => .ok (byId id)
    | _ => .ok fun _ => false
  refuses row :=
    if row.totalAmount.isFinite then none
    else some (.error "QueryFailedError" "SqliteError: no such column: Infinity")
  header_str _ := rfl
  header_wire v h := by
    have hprint : v.isNullish = false → v.printable = true := by
      intro hset
      rw [hset] at h
      unfold JsVal.printable
      cases hv : v.toText with
      | ok text => rfl
      | error e =>
        rw [hv] at h
        cases h
    cases hnull : v.isNullish with
    | true => rw [JsVal.isNullish_wire hnull]; rfl
    | false =>
      have hwire := JsVal.printable_wire v (hprint hnull)
      unfold JsVal.printable at hwire
      split_ifs
      · rfl
      · cases hv : v.wire.toText with
        | ok text => rfl
        | error e =>
          rw [hv] at hwire
          cases hwire
  header_error v e h := by
    split_ifs at h
    cases hv : v.toText with
    | ok text =>
      rw [hv] at h
      cases h
    | error e' =>
      rw [hv] at h
      cases h
      exact JsVal.error_of_toText v hv
  criterion_str _ := rfl
  criterion_error v e h := by
    split at h <;> cases h
  refuses_error row e h := by
    split_ifs at h
    exact ⟨_, _, (Option.some.inj h).symm⟩
  refuses_infinite row h := by
    rw [h]
    rfl

/-- What one handling of a message takes from the process it runs in: its
environment, the values drawn at each place that asks for one, and its libraries. -/
structure Process where
  env : String → Option String
  uuid : ℕ → Uuid
  iso : ℕ → IsoTimestamp
  now : ℕ → ℕ
  random : ℕ → UnitFraction
  drivers : Drivers

def noEnv : String → Option String := fun _ => none

/-- A process with an empty environment that draws the same values everywhere. -/
def Process.still (uuid : Uuid) (random : UnitFraction) : Process where
  env := noEnv
  uuid := fun _ => uuid
  iso := fun _ => ⟨"2026-01-01T00:00:00.000Z", by decide⟩
  now := fun _ => 0
  random := fun _ => random
  drivers := .documented

/-- Two ids and a draw to run examples with. -/
def Uuid.first : Uuid := ⟨"11111111-1111-4111-8111-111111111111", by decide⟩

def Uuid.second : Uuid := ⟨"22222222-2222-4222-8222-222222222222", by decide⟩

def UnitFraction.half : UnitFraction := ⟨1 / 2, by norm_num, by norm_num⟩

section Envelope

/-- `EVENT_SCHEMA_VERSION`. -/
def eventSchemaVersion : String := "1.0"

structure CreateEventEnvelopeParams where
  eventType : JsVal
  source : String
  correlationId : JsVal
  causationId : JsVal := .undefined
  payload : JsVal
  version : Option String := none
  eventId : Option String := none
  timestamp : Option String := none

/-- Builds an envelope; `drawnId` and `drawnTime` stand in for omitted fields. -/
def createEventEnvelope (drawnId : Uuid) (drawnTime : IsoTimestamp)
    (params : CreateEventEnvelopeParams) : JsVal :=
  .obj [
    ("eventId", .str (params.eventId.getD drawnId.val)),
    ("eventType", params.eventType),
    ("version", .str (params.version.getD eventSchemaVersion)),
    ("timestamp", .str (params.timestamp.getD drawnTime.val)),
    ("correlationId", params.correlationId),
    ("causationId", params.causationId),
    ("source", .str params.source),
    ("payload", params.payload)]

theorem nodup_keys_createEventEnvelope (drawnId : Uuid) (drawnTime : IsoTimestamp)
    (params : CreateEventEnvelopeParams) :
    (createEventEnvelope drawnId drawnTime params).keys.Nodup := by
  change ["eventId", "eventType", "version", "timestamp", "correlationId", "causationId", "source",
    "payload"].Nodup
  decide

end Envelope

end EventFlow.Shared
