import EventFlow.Framework.Table
import EventFlow.Js.Number

namespace EventFlow.Services

open Js

inductive OrderStatus where
  | pending
  | completed
  | failed
  | cancelled
  deriving DecidableEq, Repr

/-- The documented terminal states. -/
def OrderStatus.terminal : OrderStatus → Bool
  | .pending => false
  | .completed | .failed | .cancelled => true

structure OrderItem where
  productId : String
  quantity : Number
  unitPrice : Number
  deriving DecidableEq

/-- A row of `orders` with its items. -/
structure OrderEntity where
  id : String
  customerId : String
  status : OrderStatus
  totalAmount : Number
  currency : String
  eventId : Option String
  items : List OrderItem
  deriving DecidableEq

inductive ProcessedEventOutcome where
  | approved
  | failed
  | skippedDuplicateOrder
  deriving DecidableEq, Repr

/-- A row of `processed_events`. -/
structure ProcessedEventEntity where
  inboundEventId : String
  eventType : String
  orderId : String
  paymentId : Option String
  outcome : ProcessedEventOutcome
  deriving DecidableEq, Repr

abbrev OrdersTable := Table OrderEntity OrderEntity.id

abbrev ProcessedEventsTable := Table ProcessedEventEntity ProcessedEventEntity.inboundEventId

end EventFlow.Services
