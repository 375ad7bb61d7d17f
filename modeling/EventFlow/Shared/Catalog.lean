import EventFlow.Shared.Event

namespace EventFlow.Shared

section Catalog

/-- One row of the event catalog, without its description. -/
structure EventCatalogEntry where
  eventType : EventType
  topic : String
  dlqTopic : String
  producer : ServiceName
  consumers : List ServiceName
  partitionKey : String
  deriving DecidableEq

/-- A row under the companion topic of its own, keyed by `orderId` as all of them are. -/
def catalogRow (eventType : EventType) (topic : String) (producer : ServiceName)
    (consumers : List ServiceName) : EventCatalogEntry where
  eventType := eventType
  topic := topic
  dlqTopic := toDlqTopic topic
  producer := producer
  consumers := consumers
  partitionKey := "orderId"

/-- `EVENT_CATALOG`. -/
def eventCatalog : List EventCatalogEntry := [
  catalogRow .orderCreated orderEventsTopic .orderService [.paymentService],
  catalogRow .orderCancelled EventType.orderCancelled.value .orderService
    [.paymentService, .stockService, .notificationService],
  catalogRow .paymentRequested EventType.paymentRequested.value .paymentService [.paymentService],
  catalogRow .paymentProcessed paymentEventsTopic .paymentService [.stockService],
  catalogRow .paymentFailed paymentEventsTopic .paymentService
    [.orderService, .notificationService],
  catalogRow .stockReserved EventType.stockReserved.value .stockService [.notificationService],
  catalogRow .stockReleased EventType.stockReleased.value .stockService [.orderService],
  catalogRow .stockFailed EventType.stockFailed.value .stockService
    [.orderService, .notificationService],
  catalogRow .notificationSend EventType.notificationSend.value .notificationService
    [.notificationService],
  catalogRow .notificationSent EventType.notificationSent.value .notificationService
    [.orderService],
  catalogRow .notificationFailed EventType.notificationFailed.value .notificationService
    [.dlqService]]

def getEventsByProducer (service : ServiceName) : List EventCatalogEntry :=
  eventCatalog.filter fun entry => entry.producer = service

def getEventsByConsumer (service : ServiceName) : List EventCatalogEntry :=
  eventCatalog.filter fun entry => service ∈ entry.consumers

def getCatalogEntry (eventType : EventType) : Option EventCatalogEntry :=
  eventCatalog.find? fun entry => entry.eventType = eventType

/-- `CORE_EVENT_FLOW`. -/
def coreEventFlow : List EventType :=
  [.orderCreated, .paymentProcessed, .stockReserved, .notificationSent]

/-- Every event type has a row, on the topic that publishers resolve. -/
theorem getCatalogEntry_spec (t : EventType) : ∃ entry, getCatalogEntry t = some entry ∧
    entry.eventType = t ∧ entry.topic = resolveKafkaTopic t ∧
    entry.dlqTopic = toDlqTopic (resolveKafkaTopic t) := by
  cases t <;> exact ⟨_, rfl, rfl, rfl, rfl⟩

theorem mem_getEventsByProducer {service : ServiceName} {t : EventType} {entry : EventCatalogEntry}
    (h : getCatalogEntry t = some entry) (hproducer : entry.producer = service) :
    entry ∈ getEventsByProducer service :=
  List.mem_filter.mpr ⟨List.mem_of_find?_eq_some h, decide_eq_true hproducer⟩

theorem mem_getEventsByConsumer {service : ServiceName} {t : EventType} {entry : EventCatalogEntry}
    (h : getCatalogEntry t = some entry) (hconsumer : service ∈ entry.consumers) :
    entry ∈ getEventsByConsumer service :=
  List.mem_filter.mpr ⟨List.mem_of_find?_eq_some h, decide_eq_true hconsumer⟩

end Catalog

section Topics

/-- Each topic with its companion. -/
def withDlq (topics : List String) : List String :=
  topics.flatMap fun topic => [topic, toDlqTopic topic]

/-- `TOPICS` of `create-topics.sh`. -/
def createdTopics : List String :=
  ["order.events", "order.cancelled", "payment.requested", "payment.events", "stock.reserved",
    "stock.released", "stock.failed", "notification.send", "notification.sent",
    "notification.failed"]

theorem mem_withDlq {topics : List String} {topic : String} :
    topic ∈ withDlq topics ↔ ∃ base ∈ topics, topic = base ∨ topic = toDlqTopic base := by
  simp [withDlq]

theorem resolveKafkaTopic_mem_created (t : EventType) : resolveKafkaTopic t ∈ createdTopics := by
  cases t <;> decide

end Topics

end EventFlow.Shared
