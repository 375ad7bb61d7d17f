import EventFlow.Services.PaymentRules

namespace EventFlow.Services.Orders

open Js Shared

section Dto

/-- The body of `POST /orders` once the validation pipe has let it through. -/
structure CreateOrderDto where
  customerId : String
  items : List OrderItem
  currency : Option String

def CreateOrderDto.ofJs (body : JsVal) : CreateOrderDto where
  customerId := (body.get "customerId").asStr
  items := (body.get "items").asArr.map OrderItem.ofJs
  currency := if (body.get "currency").isNullish then none else some (body.get "currency").asStr

/-- `@IsString() @MinLength(1)`. -/
def isString1 : JsVal → Bool
  | .str s => s ≠ ""
  | _ => false

/-- `@IsInt() @Min(1)`. -/
def isIntMin1 : JsVal → Bool
  | .num (.fin q _) => q.den = 1 && 1 ≤ q
  | _ => false

/-- `@IsNumber({ maxDecimalPlaces: 2 }) @IsPositive()`. -/
def isPositive2 : JsVal → Bool
  | .num (.fin q _) => (q * 100).den = 1 && 0 < q
  | _ => false

/-- `@IsOptional() @IsIn(CURRENCIES)`. -/
def isOptionalCurrency (v : JsVal) : Bool := v.isNullish || isCurrency v

/-- `whitelist` and `forbidNonWhitelisted`: no property without a decorator. -/
def onlyKeys (keys : List String) : JsVal → Bool
  | .obj fields => fields.all fun f => keys.contains f.1
  | _ => false

def acceptsOrderItem (item : JsVal) : Bool :=
  onlyKeys ["productId", "quantity", "unitPrice"] item && isString1 (item.get "productId") &&
    isIntMin1 (item.get "quantity") && isPositive2 (item.get "unitPrice")

/-- `@IsArray() @ArrayMinSize(1) @ValidateNested({ each: true })`. -/
def acceptsItems : JsVal → Bool
  | .arr xs => !xs.isEmpty && xs.all acceptsOrderItem
  | _ => false

/-- The declared constraints of `CreateOrderDto` on a request body. -/
def acceptsCreateOrderDto (body : JsVal) : Bool :=
  onlyKeys ["customerId", "items", "currency"] body && isString1 (body.get "customerId") &&
    acceptsItems (body.get "items") && isOptionalCurrency (body.get "currency")

end Dto

section OrdersService

variable (proc : Process)

def saveOrder (row : OrderEntity) : Promise Unit := Async.perform (Op.saveOrder row)

def hasPublishedEventId (eventId : Option String) : Bool :=
  match eventId with
  | some id => id ≠ ""
  | none => false

/-- `dto.items.reduce((sum, item) => sum + item.quantity * item.unitPrice, 0)`. -/
def calculateTotalAmount (dto : CreateOrderDto) : Number := sumLineItems dto.items

/-- The row as it is first saved. -/
def pendingOrder (orderId : String) (dto : CreateOrderDto) : OrderEntity where
  id := orderId
  customerId := dto.customerId
  status := .pending
  totalAmount := calculateTotalAmount dto
  currency := dto.currency.getD "BRL"
  eventId := none
  items := dto.items

def orderCreatedPayload (orderId : String) (dto : CreateOrderDto) : JsVal :=
  .obj [
    ("orderId", .str orderId),
    ("customerId", .str dto.customerId),
    ("items", .arr (dto.items.map OrderItem.toJs)),
    ("totalAmount", .num (calculateTotalAmount dto)),
    ("currency", .str (dto.currency.getD "BRL"))]

def orderCreatedEnvelope (orderId : String) (dto : CreateOrderDto) : JsVal :=
  createEventEnvelope (proc.uuid 1) (proc.iso 0) {
    eventType := .str EventType.orderCreated.value
    source := "order-service"
    correlationId := .str orderId
    payload := orderCreatedPayload orderId dto }

def OrderStatus.value : OrderStatus → String
  | .pending => "pending"
  | .completed => "completed"
  | .failed => "failed"
  | .cancelled => "cancelled"

/-- The API response, without the column the database fills in. -/
def toCreateOrderResponse (order : OrderEntity) (eventId : Option String := none) : JsVal :=
  .obj [
    ("orderId", .str order.id),
    ("status", .str (OrderStatus.value order.status)),
    ("totalAmount", .num order.totalAmount),
    ("currency", .str order.currency),
    ("eventId", ((eventId.or order.eventId).map JsVal.str).getD .null),
    ("correlationId", .str order.id)]

/-- The second half of `createOrder`: the event id, then the record. -/
def publishOrderCreated (dto : CreateOrderDto) (order : OrderEntity) : Promise JsVal := do
  let envelope := orderCreatedEnvelope proc order.id dto
  let published := { order with eventId := some (proc.uuid 1).val }
  saveOrder published
  ((orderEventPublisher proc.env).publish .orderCreated envelope []).tryCatch fun error => do
    saveOrder { published with status := .failed }
    let _ ← Async.ofExcept (errorText error)
    .reject (.error "InternalServerErrorException" "Order saved but event could not be published")
  .resolve (toCreateOrderResponse published (some (proc.uuid 1).val))

def createOrder (dto : CreateOrderDto) : Promise JsVal := do
  let order := pendingOrder (proc.uuid 0).val dto
  saveOrder order
  if hasPublishedEventId order.eventId then .resolve (toCreateOrderResponse order)
  else publishOrderCreated proc dto order

def updateOrder (orderId : JsVal) (status : OrderStatus) : Promise ℕ := do
  let criterion ← Async.ofExcept (proc.drivers.criterion orderId)
  Async.perform (Op.updateOrder criterion status)

def updateOrderStatus (orderId : JsVal) (status : OrderStatus) : Promise Unit := do
  let affected ← updateOrder proc orderId status
  if affected = 0 then do
    let text ← Async.ofExcept orderId.toText
    .reject (.error "NotFoundException" ("Order " ++ text ++ " not found"))
  else .resolve ()

end OrdersService

section Consumer

variable (proc : Process) (headers : List (String × RawHeader))

/-- The handler all four methods run: set the status, then a log line with the
order id and one more field of the payload. -/
def projectStatus (status : OrderStatus) (logged : String) (envelope : JsVal) : Promise Unit := do
  let orderId ← Async.ofExcept ((envelope.get "payload").prop "orderId")
  updateOrderStatus proc orderId status
  Async.ofExcept (JsVal.logLine [orderId, (envelope.get "payload").get logged])

def runProjection (h : RetriedHandler) (status : OrderStatus) (logged : String)
    (envelope : JsVal) : Promise RetryOutcome :=
  h.execute proc envelope (parseKafkaHeaders proc.drivers headers)
    (projectStatus proc status logged envelope)

/-- `@EventPattern('payment.events')`. -/
def handlePaymentEvents (payload : KafkaValue) : Promise JsVal :=
  consumeParsed (parsePaymentFailedMessage payload) (fun _ => ackOutcome "invalid")
    (fun _ eventType => ackSkippedType eventType) fun envelope =>
      ackExecuted (runProjection proc headers .orderPaymentEvents .failed "reason" envelope)

/-- `@EventPattern('stock.released')`. -/
def handleStockReleased (payload : KafkaValue) : Promise JsVal :=
  consumeExtracted payload fun envelope =>
    ackExecuted (runProjection proc headers .orderStockReleased .cancelled "reason" envelope)

/-- `@EventPattern('stock.failed')`. -/
def handleStockFailed (payload : KafkaValue) : Promise JsVal :=
  consumeExtracted payload fun envelope =>
    ackExecuted (runProjection proc headers .orderStockFailed .failed "reason" envelope)

def ackCompleted (outcome : RetryOutcome) : JsVal :=
  .obj [("acknowledged", .bool true), ("outcome", .str outcome.value),
    ("status", .str "completed")]

/-- `@EventPattern('notification.sent')`. -/
def handleNotificationSent (payload : KafkaValue) : Promise JsVal :=
  consumeExtracted payload fun envelope => do
    let outcome ←
      runProjection proc headers .orderNotificationSent .completed "channel" envelope
    .resolve (ackCompleted outcome)

end Consumer

end EventFlow.Services.Orders
