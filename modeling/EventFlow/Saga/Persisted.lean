import EventFlow.Orders.Creation
import EventFlow.Saga.Causation

namespace EventFlow.Saga

open Js Shared Services Async
open Orders (CreateOrderDto acceptsCreateOrderDto calculateTotalAmount pendingOrder announcedOrder
  orderCreatedEnvelope AcceptedDto)
open Payment (OrderCreatedEvent)

section Statement

/-- The services behind the validation pipe. Outside there are requests that pass it, and
messages on `order.cancelled` of any content; the broker may store a record again. -/
def storefront : Platform (World Call) Call Op Op.Resp JsThrow JsVal where
  body := Call.body
  exec c w op := w.exec c op
  mayReject _ := True
  ready w c := match c with
    | .createOrder _ dto => ∃ body, acceptsCreateOrderDto body = true ∧ dto = .ofJs body
    | .consume h _ headers payload =>
      ∃ r ∈ w.log, r.topic = h.topic ∧ r.value = payload ∧ r.headers = headers
  env w w' := ∃ r : KafkaRecord, (r.topic = EventType.orderCancelled.value ∨ r ∈ w.log) ∧
    w' = { w with log := w.log ++ [r] }

def payloadOf (r : KafkaRecord) : JsVal := (envelopeOf r).get "payload"

/-- The row of the order that an `order.created` record announces. -/
structure Stored (row : OrderEntity) (r : KafkaRecord) : Prop where
  key : r.key = .str row.id
  correlationId : (envelopeOf r).get "correlationId" = .str row.id
  orderId : (payloadOf r).get "orderId" = .str row.id
  eventId : row.eventId.map JsVal.str = some ((envelopeOf r).get "eventId")
  currency : (payloadOf r).get "currency" = .str row.currency
  items : (payloadOf r).get "items" = .arr (row.items.map OrderItem.toJs)

/-- A `payment.requested` record asks for what the row of its order says. -/
structure Charges (row : OrderEntity) (r : KafkaRecord) : Prop where
  orderId : (payloadOf r).get "orderId" = .str row.id
  amount : (payloadOf r).get "amount" = .num row.totalAmount
  currency : (payloadOf r).get "currency" = .str row.currency

/-- The deliveries to order-service of `payment.failed` and `notification.sent`. -/
def Feedback : Call → Prop
  | .consume .orderPaymentEvents _ _ _ | .consume .orderNotificationSent _ _ _ => True
  | _ => False

variable {ι : Type}

/-- Rows come before records: what an `order.created` announces is stored under its event
id, which no other row has; payments ask for the stored amount; and the feedback of the
saga finds its row, so that `updateOrderStatus` does not throw. -/
structure Persisted (s : Pool ι (World Call) Call Op Op.Resp JsThrow JsVal) : Prop where
  stored : ∀ r ∈ s.world.log, r.topic = orderEventsTopic → ∃ row ∈ s.world.orders.rows,
    Stored row r ∧ (payloadOf r).get "totalAmount" = .num row.totalAmount
  distinct : ∀ row ∈ s.world.orders.rows, ∀ row' ∈ s.world.orders.rows, ∀ e,
    row.eventId = some e → row'.eventId = some e → row = row'
  requested : ∀ r ∈ s.world.log, r.topic = EventType.paymentRequested.value →
    ∃ row ∈ s.world.orders.rows, Charges row r
  found : ∀ i c criterion status k, s.jobs i = some (c, .await (.updateOrder criterion status) k) →
    Feedback c → ∀ affected, (s.world.exec c (.updateOrder criterion status)).1 = affected →
      affected ≠ (0 : ℕ)

/-- The ids of a new order are no row's and no other running request's. -/
structure FreshOrder (s : Pool ι (World Call) Call Op Op.Resp JsThrow JsVal) (proc : Process) :
    Prop where
  unused : ∀ row ∈ s.world.orders.rows,
    row.id ≠ (proc.uuid 0).val ∧ row.eventId ≠ some (proc.uuid 1).val
  others : ∀ i proc' dto p, s.jobs i = some (.createOrder proc' dto, p) →
    (proc'.uuid 0).val ≠ (proc.uuid 0).val ∧ (proc'.uuid 1).val ≠ (proc.uuid 1).val

def FreshOrders (s : Pool ι (World Call) Call Op Op.Resp JsThrow JsVal)
    (l : PoolAct ι Call Op JsThrow) : Prop :=
  ∀ i proc dto, l = .start i (.createOrder proc dto) → FreshOrder s proc

/-- A save settles only when the database takes the row. -/
def Stores (s : Pool ι (World Call) Call Op Op.Resp JsThrow JsVal) (l : PoolAct ι Call Op JsThrow) :
    Prop :=
  ∀ i row, l = .settled i (.saveOrder row) → ∀ c p, s.jobs i = some (c, p) →
    c.proc.drivers.refuses row = none

end Statement

section Tables

/-- What stays of a row: all but its status, and but an event id that it has not got yet. -/
structure Extends (old row : OrderEntity) : Prop where
  id : old.id = row.id
  customerId : old.customerId = row.customerId
  totalAmount : old.totalAmount = row.totalAmount
  currency : old.currency = row.currency
  items : old.items = row.items
  eventId : ∀ e, old.eventId = some e → row.eventId = some e

theorem Extends.refl (row : OrderEntity) : Extends row row :=
  ⟨rfl, rfl, rfl, rfl, rfl, fun _ h => h⟩

theorem Extends.trans {a b c : OrderEntity} (h : Extends a b) (h' : Extends b c) : Extends a c :=
  ⟨h.id.trans h'.id, h.customerId.trans h'.customerId, h.totalAmount.trans h'.totalAmount,
    h.currency.trans h'.currency, h.items.trans h'.items, fun e he => h'.eventId e (h.eventId e he)⟩

/-- No row of the first table is lost in the second. -/
def Grows (t t' : OrdersTable) : Prop := ∀ row ∈ t.rows, ∃ row' ∈ t'.rows, Extends row row'

theorem Grows.refl (t : OrdersTable) : Grows t t := fun row hrow => ⟨row, hrow, .refl row⟩

theorem Grows.trans {t t' t'' : OrdersTable} (h : Grows t t') (h' : Grows t' t'') :
    Grows t t'' := by
  intro row hrow
  obtain ⟨row', hrow', hext⟩ := h row hrow
  obtain ⟨row'', hrow'', hext'⟩ := h' row' hrow'
  exact ⟨row'', hrow'', hext.trans hext'⟩

theorem Grows.save {t : OrdersTable} {row : OrderEntity}
    (h : ∀ old ∈ t.rows, old.id = row.id → Extends old row) : Grows t (t.save row) := by
  intro old hold
  by_cases hid : old.id = row.id
  · exact ⟨row, Table.mem_save.mpr (.inl rfl), h old hold hid⟩
  · exact ⟨old, Table.mem_save.mpr (.inr ⟨hold, hid⟩), .refl old⟩

/-- Two rows that differ in their status at most. -/
def Restated (old row : OrderEntity) : Prop := ∃ status, row = { old with status := status }

theorem restated_rfl (row : OrderEntity) : Restated row row := ⟨row.status, rfl⟩

theorem Restated.extends {old row : OrderEntity} (h : Restated old row) : Extends old row := by
  obtain ⟨status, rfl⟩ := h
  exact ⟨rfl, rfl, rfl, rfl, rfl, fun _ h => h⟩

/-- Whatever is no insert changes the status of rows at most. -/
theorem orders_exec {C : Type} (c : C) (w : World C) {op : Op} (h : ∀ row, op ≠ .saveOrder row) :
    (∀ old ∈ w.orders.rows, ∃ row ∈ (w.exec c op).2.orders.rows, Restated old row) ∧
      ∀ row ∈ (w.exec c op).2.orders.rows, ∃ old ∈ w.orders.rows, Restated old row := by
  by_cases hupdate : ∃ criterion status, op = .updateOrder criterion status
  · obtain ⟨criterion, status, rfl⟩ := hupdate
    have hone : ∀ old : OrderEntity,
        Restated old (if criterion old.id then { old with status := status } else old) := by
      intro old
      split_ifs
      · exact ⟨status, rfl⟩
      · exact restated_rfl old
    constructor
    · intro old hold
      exact ⟨_, (World.mem_exec_updateOrder c w).mpr ⟨old, hold, rfl⟩, hone old⟩
    · intro row hrow
      obtain ⟨old, hold, rfl⟩ := (World.mem_exec_updateOrder c w).mp hrow
      exact ⟨old, hold, hone old⟩
  · rw [World.exec_orders c w h fun criterion status heq => hupdate ⟨criterion, status, heq⟩]
    exact ⟨fun row hrow => ⟨row, hrow, restated_rfl row⟩,
      fun row hrow => ⟨row, hrow, restated_rfl row⟩⟩

end Tables

section Invariant

variable {P : Number → Prop} {t t' : OrdersTable} {r : KafkaRecord} {c : Call} {w : World Call}
  {op : Op}

/-- What the rows have to say before a record may be written. -/
structure Grounded (t : OrdersTable) (r : KafkaRecord) : Prop where
  created : r.topic = orderEventsTopic → Sealed r ∧ ∃ row ∈ t.rows, Stored row r ∧
    (payloadOf r).get "totalAmount" = (JsVal.num row.totalAmount).wire
  requested : r.topic = EventType.paymentRequested.value → ∃ row ∈ t.rows, Charges row r
  carried : r.topic ∈ carriers → Sealed r ∧ ∃ row ∈ t.rows,
    (payloadOf r).get "orderId" = .str row.id

theorem Grounded.mono (h : Grounded t r) (hgrows : Grows t t') : Grounded t' r := by
  refine ⟨fun ht => ?_, fun ht => ?_, fun ht => ?_⟩
  · obtain ⟨hsealed, row, hrow, hstored, htotal⟩ := h.created ht
    obtain ⟨row', hrow', hext⟩ := hgrows row hrow
    refine ⟨hsealed, row', hrow', ⟨?_, ?_, ?_, ?_, ?_, ?_⟩, ?_⟩
    · rw [hstored.key, hext.id]
    · rw [hstored.correlationId, hext.id]
    · rw [hstored.orderId, hext.id]
    · obtain ⟨e, he, heq⟩ := Option.map_eq_some_iff.mp hstored.eventId
      rw [hext.eventId e he, ← heq]
      rfl
    · rw [hstored.currency, hext.currency]
    · rw [hstored.items, hext.items]
    · rw [htotal, hext.totalAmount]
  · obtain ⟨row, hrow, hcharges⟩ := h.requested ht
    obtain ⟨row', hrow', hext⟩ := hgrows row hrow
    refine ⟨row', hrow', ?_, ?_, ?_⟩
    · rw [hcharges.orderId, hext.id]
    · rw [hcharges.amount, hext.totalAmount]
    · rw [hcharges.currency, hext.currency]
  · obtain ⟨hsealed, row, hrow, horder⟩ := h.carried ht
    obtain ⟨row', hrow', hext⟩ := hgrows row hrow
    exact ⟨hsealed, row', hrow', by rw [horder, hext.id]⟩

structure PersistOk (P : Number → Prop) (w : World Call) : Prop where
  priced : ∀ row ∈ w.orders.rows, P row.totalAmount
  distinct : ∀ row ∈ w.orders.rows, ∀ row' ∈ w.orders.rows, ∀ e,
    row.eventId = some e → row'.eventId = some e → row = row'
  grounded : ∀ r ∈ w.log, Grounded w.orders r
  updates : ∀ c criterion status, (c, Op.updateOrder criterion status) ∈ w.trace → Feedback c →
    ∃ row ∈ w.orders.rows, criterion row.id = true

/-- What a consumer may do once the rows have come to `t`. -/
def Supported (t : OrdersTable) (c : Call) : Op → Prop
  | .emit r => Grounded t r
  | .updateOrder criterion _ => Feedback c → ∃ row ∈ t.rows, criterion row.id = true
  | .saveOrder _ => False
  | _ => True

/-- The log and the trace grow over rows that are not lost. -/
theorem PersistOk.step {w' : World Call} (h : PersistOk P w) (hgrows : Grows w.orders w'.orders)
    (hpriced : ∀ row ∈ w'.orders.rows, P row.totalAmount)
    (hdistinct : ∀ row ∈ w'.orders.rows, ∀ row' ∈ w'.orders.rows, ∀ e,
      row.eventId = some e → row'.eventId = some e → row = row')
    (hlog : ∀ r ∈ w'.log, r ∈ w.log ∨ Grounded w'.orders r)
    (htrace : ∀ c criterion status, (c, Op.updateOrder criterion status) ∈ w'.trace →
      (c, Op.updateOrder criterion status) ∈ w.trace ∨
        (Feedback c → ∃ row ∈ w'.orders.rows, criterion row.id = true)) : PersistOk P w' := by
  refine ⟨hpriced, hdistinct, fun r hr => ?_, fun c criterion status hc hf => ?_⟩
  · rcases hlog r hr with hold | hnew
    · exact (h.grounded r hold).mono hgrows
    · exact hnew
  · rcases htrace c criterion status hc with hold | hnew
    · obtain ⟨row, hrow, hselected⟩ := h.updates c criterion status hold hf
      obtain ⟨row', hrow', hext⟩ := hgrows row hrow
      exact ⟨row', hrow', by rw [← hext.id, hselected]⟩
    · exact hnew hf

/-- Rows after a save that keeps what was there, under an event id of its own. -/
theorem distinct_save {row : OrderEntity}
    (h : ∀ row ∈ t.rows, ∀ row' ∈ t.rows, ∀ e, row.eventId = some e → row'.eventId = some e →
      row = row')
    (hevent : ∀ e, row.eventId = some e → ∀ old ∈ t.rows, old.eventId = some e → old.id = row.id) :
    ∀ a ∈ (t.save row).rows, ∀ b ∈ (t.save row).rows, ∀ e, a.eventId = some e →
      b.eventId = some e → a = b := by
  intro a ha b hb e hae hbe
  rcases Table.mem_save.mp ha with ha' | ⟨ha', hka⟩
  · rcases Table.mem_save.mp hb with hb' | ⟨hb', hkb⟩
    · exact ha'.trans hb'.symm
    · rw [ha'] at hae
      exact absurd (hevent e hae b hb' hbe) hkb
  · rcases Table.mem_save.mp hb with hb' | ⟨hb', -⟩
    · rw [hb'] at hbe
      exact absurd (hevent e hbe a ha' hae) hka
    · exact h a ha' b hb' e hae hbe

/-- An operation that inserts no row keeps every row under its names. -/
theorem PersistOk.rows_exec (h : PersistOk P w) (hinsert : ∀ row, op ≠ .saveOrder row) :
    Grows w.orders (w.exec c op).2.orders ∧
      (∀ row ∈ (w.exec c op).2.orders.rows, ∃ old ∈ w.orders.rows, old.id = row.id ∧
        old.eventId = row.eventId ∧ old.totalAmount = row.totalAmount) ∧
      ∀ a ∈ (w.exec c op).2.orders.rows, ∀ b ∈ (w.exec c op).2.orders.rows, ∀ e,
        a.eventId = some e → b.eventId = some e → a = b := by
  obtain ⟨hforth, hback⟩ := orders_exec c w hinsert
  refine ⟨fun old hold => ?_, fun row hrow => ?_, fun a ha b hb e hae hbe => ?_⟩
  · obtain ⟨row, hrow, hrest⟩ := hforth old hold
    exact ⟨row, hrow, hrest.extends⟩
  · obtain ⟨old, hold, status, rfl⟩ := hback row hrow
    exact ⟨old, hold, rfl, rfl, rfl⟩
  · obtain ⟨olda, holda, _, rfl⟩ := hback a ha
    obtain ⟨oldb, holdb, _, rfl⟩ := hback b hb
    have hsame : olda = oldb := h.distinct olda holda oldb holdb e hae hbe
    have hid : olda.id = oldb.id := congrArg OrderEntity.id hsame
    exact Table.eq_of_key_eq ha hb hid

/-- What a consumer may do keeps the invariant. -/
theorem PersistOk.supported (h : PersistOk P w) (hgrows : Grows t w.orders)
    (hop : Supported t c op) : Grows w.orders (w.exec c op).2.orders ∧
      (∀ row ∈ (w.exec c op).2.orders.rows, ∃ old ∈ w.orders.rows,
        old.id = row.id ∧ old.eventId = row.eventId) ∧ PersistOk P (w.exec c op).2 := by
  have hinsert : ∀ row, op ≠ .saveOrder row := by
    intro row heq
    rw [heq] at hop
    exact hop
  obtain ⟨hnext, hold, hdistinct⟩ := h.rows_exec (c := c) hinsert
  refine ⟨hnext, fun row hrow => ?_, h.step hnext (fun row hrow => ?_) hdistinct ?_ ?_⟩
  · obtain ⟨old, hmem, hid, hevent, -⟩ := hold row hrow
    exact ⟨old, hmem, hid, hevent⟩
  · obtain ⟨old, hmem, -, -, htotal⟩ := hold row hrow
    rw [← htotal]
    exact h.priced old hmem
  · intro r hr
    rcases mem_log_exec hr with hr | rfl
    · exact .inl hr
    · exact .inr (Grounded.mono hop (hgrows.trans hnext))
  · intro c' criterion status hmem
    rcases List.mem_append.mp hmem with hmem | hmem
    · exact .inl hmem
    · cases List.mem_singleton.mp hmem
      refine .inr fun hf => ?_
      obtain ⟨row, hrow, hselected⟩ := hop hf
      obtain ⟨row', hrow', hext⟩ := hgrows.trans hnext row hrow
      exact ⟨row', hrow', by rw [← hext.id, hselected]⟩

/-- A save that keeps what was there. -/
theorem PersistOk.saved {row : OrderEntity} (h : PersistOk P w) (hpriced : P row.totalAmount)
    (hext : ∀ old ∈ w.orders.rows, old.id = row.id → Extends old row)
    (hevent : ∀ e, row.eventId = some e → ∀ old ∈ w.orders.rows, old.eventId = some e →
      old.id = row.id) : Grows w.orders (w.exec c (.saveOrder row)).2.orders ∧
        PersistOk P (w.exec c (.saveOrder row)).2 := by
  have hnext : Grows w.orders (w.exec c (.saveOrder row)).2.orders := Grows.save hext
  refine ⟨hnext, h.step hnext (fun a ha => ?_) (distinct_save h.distinct hevent)
    (fun r hr => .inl hr) fun c' id status hmem => ?_⟩
  · rcases Table.mem_save.mp ha with ha' | ⟨ha', -⟩
    · rw [ha']
      exact hpriced
    · exact h.priced a ha'
  · rcases List.mem_append.mp hmem with hmem | hmem
    · exact .inl hmem
    · cases List.mem_singleton.mp hmem

end Invariant

section Ownership

variable {P : Number → Prop} {w w' : World Call}

/-- What a new order holds on to: its own id and that of its event. -/
inductive RowName where
  | order (id : String)
  | event (eventId : String)

def RowName.Names : RowName → OrderEntity → Prop
  | .order id, row => row.id = id
  | .event e, row => row.eventId = some e

theorem RowName.Names.of_same {k : RowName} {row old : OrderEntity} (h : k.Names row)
    (hid : old.id = row.id) (hevent : old.eventId = row.eventId) : k.Names old := by
  cases k with
  | order id => exact hid.trans h
  | event e => exact hevent.trans h

def ownNames : Call → RowName → Prop
  | .createOrder proc _, k => k = .order (proc.uuid 0).val ∨ k = .event (proc.uuid 1).val
  | .consume _ _ _ _, _ => False

/-- Nobody else stores a row under the names of a new order, or changes its event id. -/
def rowOwnership (P : Number → Prop) : Pool.Ownership (World Call) Call RowName where
  owns := ownNames
  uses := ownNames
  same k w w' := ∀ row ∈ w'.orders.rows, k.Names row → ∃ old ∈ w.orders.rows,
    old.id = row.id ∧ old.eventId = row.eventId
  le w w' := Grows w.orders w'.orders
  safe := PersistOk P
  rest _ _ := True
  uses_of_owns _ _ h := h
  same_refl _ _ row hrow _ := ⟨row, hrow, rfl, rfl⟩
  same_trans k u v w h h' := by
    intro row hrow hnames
    obtain ⟨old, hold, hid, hevent⟩ := h' row hrow hnames
    obtain ⟨older, holder, hid', hevent'⟩ := h old hold (hnames.of_same hid hevent)
    exact ⟨older, holder, hid'.trans hid, hevent'.trans hevent⟩
  le_refl w := .refl _
  le_trans _ _ _ h h' := h.trans h'
  rest_stable _ _ _ _ _ h := h

/-- Only rows of such totals are saved. -/
def SavesTotal (P : Number → Prop) (op : Op) : Prop :=
  ∀ row, op = .saveOrder row → P row.totalAmount

abbrev rowContract (P : Number → Prop) (c : Call) : Contract (World Call) Op Op.Resp :=
  (rowOwnership P).contract storefront (fun _ => SavesTotal P) (fun _ _ => True) c

variable {proc : Process} {dto : CreateOrderDto} {row : OrderEntity} {op : Op}

/-- Before its first save an order has no row. -/
structure Unsaved (P : Number → Prop) (proc : Process) (w : World Call) : Prop where
  ok : PersistOk P w
  id : ∀ row ∈ w.orders.rows, row.id ≠ (proc.uuid 0).val
  event : ∀ row ∈ w.orders.rows, row.eventId ≠ some (proc.uuid 1).val

/-- Then it has one without an event id. -/
structure Saved (P : Number → Prop) (proc : Process) (dto : CreateOrderDto) (w : World Call) :
    Prop where
  ok : PersistOk P w
  row : ∃ row ∈ w.orders.rows, Extends (pendingOrder (proc.uuid 0).val dto) row
  id : ∀ row ∈ w.orders.rows, row.id = (proc.uuid 0).val → row.eventId = none
  event : ∀ row ∈ w.orders.rows, row.eventId ≠ some (proc.uuid 1).val

/-- After its second save it may be announced. -/
structure Announceable (P : Number → Prop) (proc : Process) (dto : CreateOrderDto)
    (w : World Call) : Prop where
  ok : PersistOk P w
  row : ∃ row ∈ w.orders.rows, Extends (announcedOrder proc dto) row

variable (hr : (rowContract P (.createOrder proc dto)).rely w w')
include hr

theorem Unsaved.rely (h : Unsaved P proc w) : Unsaved P proc w' := by
  refine ⟨hr.ok.safe, fun row hrow hid => ?_, fun row hrow hevent => ?_⟩
  · obtain ⟨old, hold, hid', -⟩ := hr.own (.order _) (.inl rfl) row hrow hid
    exact h.id old hold (hid'.trans hid)
  · obtain ⟨old, hold, -, hevent'⟩ := hr.own (.event _) (.inr rfl) row hrow hevent
    exact h.event old hold (hevent'.trans hevent)

theorem Saved.rely (h : Saved P proc dto w) : Saved P proc dto w' := by
  refine ⟨hr.ok.safe, ?_, fun row hrow hid => ?_, fun row hrow hevent => ?_⟩
  · obtain ⟨row, hrow, hext⟩ := h.row
    obtain ⟨row', hrow', hext'⟩ := hr.le row hrow
    exact ⟨row', hrow', hext.trans hext'⟩
  · obtain ⟨old, hold, hid', hevent⟩ := hr.own (.order _) (.inl rfl) row hrow hid
    exact hevent.symm.trans (h.id old hold (hid'.trans hid))
  · obtain ⟨old, hold, -, hevent'⟩ := hr.own (.event _) (.inr rfl) row hrow hevent
    exact h.event old hold (hevent'.trans hevent)

theorem Announceable.rely (h : Announceable P proc dto w) : Announceable P proc dto w' := by
  obtain ⟨row, hrow, hext⟩ := h.row
  obtain ⟨row', hrow', hext'⟩ := hr.le row hrow
  exact ⟨hr.ok.safe, row', hrow', hext.trans hext'⟩

end Ownership

section Requests

variable {P : Number → Prop} {proc : Process} {dto : CreateOrderDto} {w : World Call}

/-- A save of a new order leaves the rows of others alone. -/
theorem guar_saveOrder {row : OrderEntity} (hid : row.id = (proc.uuid 0).val)
    (hevent : ∀ e, row.eventId = some e → e = (proc.uuid 1).val)
    (hgrows : Grows w.orders (w.exec (.createOrder proc dto) (.saveOrder row)).2.orders)
    (hok : PersistOk P (w.exec (.createOrder proc dto) (.saveOrder row)).2) :
    (rowContract P (.createOrder proc dto)).guar w
      (w.exec (.createOrder proc dto) (.saveOrder row)).2 := by
  refine ⟨hgrows, fun k hk a ha hnames => ?_, hok, fun _ _ _ => trivial⟩
  rcases Table.mem_save.mp ha with ha' | ⟨ha', -⟩
  · rw [ha'] at hnames
    refine absurd ?_ hk
    cases k with
    | order id => exact .inl (congrArg RowName.order (hnames.symm.trans hid))
    | event e => exact .inr (congrArg RowName.event (hevent e hnames))
  · exact ⟨a, ha', rfl, rfl⟩

theorem Unsaved.exec (h : Unsaved P proc w) (hp : P (calculateTotalAmount dto)) :
    (rowContract P (.createOrder proc dto)).guar w
        (w.exec (.createOrder proc dto) (.saveOrder (pendingOrder (proc.uuid 0).val dto))).2 ∧
      Saved P proc dto
        (w.exec (.createOrder proc dto) (.saveOrder (pendingOrder (proc.uuid 0).val dto))).2 := by
  have hnew : ∀ old ∈ w.orders.rows, old.id = (pendingOrder (proc.uuid 0).val dto).id →
      Extends old (pendingOrder (proc.uuid 0).val dto) :=
    fun old hold hid => absurd hid (h.id old hold)
  have hnone : ∀ e, (pendingOrder (proc.uuid 0).val dto).eventId ≠ some e := fun _ => nofun
  obtain ⟨hgrows, hok⟩ := h.ok.saved (c := .createOrder proc dto) hp hnew
    fun e he => absurd he (hnone e)
  refine ⟨guar_saveOrder rfl (fun e he => absurd he (hnone e)) hgrows hok, hok, ?_, ?_, ?_⟩
  · exact ⟨_, Table.mem_save.mpr (.inl rfl), .refl _⟩
  · intro a ha hid
    rcases Table.mem_save.mp ha with ha' | ⟨ha', -⟩
    · rw [ha']
      rfl
    · exact absurd hid (h.id a ha')
  · intro a ha hevent
    rcases Table.mem_save.mp ha with ha' | ⟨ha', -⟩
    · rw [ha'] at hevent
      exact hnone _ hevent
    · exact h.event a ha' hevent

theorem Saved.exec (h : Saved P proc dto w) :
    (rowContract P (.createOrder proc dto)).guar w
        (w.exec (.createOrder proc dto) (.saveOrder (announcedOrder proc dto))).2 ∧
      Announceable P proc dto
        (w.exec (.createOrder proc dto) (.saveOrder (announcedOrder proc dto))).2 := by
  obtain ⟨row, hrow, hext⟩ := h.row
  have hkeep : ∀ old ∈ w.orders.rows, old.id = (announcedOrder proc dto).id →
      Extends old (announcedOrder proc dto) := by
    intro old hold hid
    obtain rfl : old = row := Table.eq_of_key_eq hold hrow (hid.trans hext.id)
    have hnone : old.eventId = none := h.id old hold hid
    refine ⟨hid, hext.customerId.symm, hext.totalAmount.symm, hext.currency.symm, hext.items.symm,
      fun e he => ?_⟩
    rw [hnone] at he
    cases he
  have hp : P (announcedOrder proc dto).totalAmount := by
    have hrowp := h.ok.priced row hrow
    rwa [← hext.totalAmount] at hrowp
  obtain ⟨hgrows, hok⟩ := h.ok.saved (c := .createOrder proc dto) hp hkeep fun e he old hold hold' => by
    obtain rfl := Option.some.inj he
    exact absurd hold' (h.event old hold)
  refine ⟨guar_saveOrder rfl (fun e he => (Option.some.inj he).symm) hgrows hok, hok, ?_⟩
  exact ⟨_, Table.mem_save.mpr (.inl rfl), .refl _⟩

theorem Announceable.save (h : Announceable P proc dto w) :
    (rowContract P (.createOrder proc dto)).guar w
        (w.exec (.createOrder proc dto)
          (.saveOrder { announcedOrder proc dto with status := .failed })).2 ∧
      Announceable P proc dto (w.exec (.createOrder proc dto)
        (.saveOrder { announcedOrder proc dto with status := .failed })).2 := by
  let failed : OrderEntity := { announcedOrder proc dto with status := .failed }
  obtain ⟨row, hrow, hext⟩ := h.row
  have hevent : row.eventId = some (proc.uuid 1).val := hext.eventId _ rfl
  have hkeep : ∀ old ∈ w.orders.rows, old.id = failed.id → Extends old failed := by
    intro old hold hid
    obtain rfl : old = row := Table.eq_of_key_eq hold hrow (hid.trans hext.id)
    refine ⟨hid, hext.customerId.symm, hext.totalAmount.symm, hext.currency.symm, hext.items.symm,
      fun e he => ?_⟩
    exact hevent.symm.trans he
  have hp : P failed.totalAmount := by
    have hrowp := h.ok.priced row hrow
    rwa [← hext.totalAmount] at hrowp
  obtain ⟨hgrows, hok⟩ := h.ok.saved (c := .createOrder proc dto) hp hkeep fun e he old hold hold' => by
    obtain rfl := Option.some.inj he
    have heq : old = row := h.ok.distinct old hold row hrow _ hold' hevent
    rw [heq]
    exact hext.id.symm
  refine ⟨guar_saveOrder rfl (fun e he => (Option.some.inj he).symm) hgrows hok, hok, ?_⟩
  exact ⟨failed, Table.mem_save.mpr (.inl rfl), rfl, rfl, rfl, rfl, rfl, fun _ he => he⟩

/-- What is supported by the rows keeps them, for whatever call performs it. -/
theorem kept_of_supported {c : Call} {op : Op} {t : OrdersTable} {w : World Call}
    (h : PersistOk P w) (hgrows : Grows t w.orders) (hop : Supported t c op) :
    (rowContract P c).guar w (w.exec c op).2 ∧ PersistOk P (w.exec c op).2 ∧
      Grows t (w.exec c op).2.orders := by
  obtain ⟨hnext, hsame, hok⟩ := h.supported hgrows hop
  exact ⟨⟨hnext, fun _ _ row hrow _ => hsame row hrow, hok, fun _ _ _ => trivial⟩, hok,
    hgrows.trans hnext⟩

end Requests

section Records

variable {t : OrdersTable} {r : KafkaRecord} {h : RetriedHandler} {proc : Process}
  {envelope : JsVal} {row : OrderEntity}

theorem grounded_of_topic (hcreated : r.topic ≠ orderEventsTopic)
    (hrequested : r.topic ≠ EventType.paymentRequested.value) (hcarried : r.topic ∉ carriers) :
    Grounded t r :=
  ⟨fun ht => absurd ht hcreated, fun ht => absurd ht hrequested, fun ht => absurd ht hcarried⟩

theorem grounded_elsewhere {u : EventType} {key : String} {hs : List (String × JsVal)}
    (hcreated : resolveKafkaTopic u ≠ orderEventsTopic)
    (hrequested : resolveKafkaTopic u ≠ EventType.paymentRequested.value)
    (hcarried : resolveKafkaTopic u ∉ carriers) : Grounded t (domainRecord u key envelope hs) :=
  grounded_of_topic hcreated hrequested hcarried

theorem grounded_of_row (hcreated : r.topic ≠ orderEventsTopic)
    (hrequested : r.topic ≠ EventType.paymentRequested.value) (hsealed : Sealed r)
    (hrow : row ∈ t.rows) (horder : (payloadOf r).get "orderId" = .str row.id) : Grounded t r :=
  ⟨fun ht => absurd ht hcreated, fun ht => absurd ht hrequested, fun _ => ⟨hsealed, row, hrow, horder⟩⟩

/-- An event that a service makes about the order of a row. -/
theorem grounded_created {u : EventType} {key : String} {drawnId : Uuid} {drawnTime : IsoTimestamp}
    {params : CreateEventEnvelopeParams} (hcreated : resolveKafkaTopic u ≠ orderEventsTopic)
    (hrequested : resolveKafkaTopic u ≠ EventType.paymentRequested.value) (hrow : row ∈ t.rows)
    (horder : params.payload.get "orderId" = .str row.id) :
    Grounded t (domainRecord u key (createEventEnvelope drawnId drawnTime params) []) :=
  grounded_of_row hcreated hrequested (sealed_createEventEnvelope _ _ _ _) hrow
    (JsVal.get_get_wire_str horder)

/-- What a consumer reads in a sealed record is its envelope. -/
theorem envelope_of_read (hsealed : Sealed r) (hread : h.read r.value = .ok (.accepted envelope)) :
    envelopeOf r = envelope ∧ r.value = .value envelope ∧ envelope.isJson = true := by
  obtain ⟨v, hv, hjson, hhas⟩ := hsealed
  rw [hv] at hread
  obtain rfl := read_sealed hhas hread
  exact ⟨by rw [envelopeOf, hv], hv, hjson⟩

/-- What goes back to its topic is grounded like the message. -/
theorem grounded_copy {key : String} {hs : List (String × JsVal)} (hg : Grounded t r)
    (htopic : r.topic = h.topic) (hread : h.read r.value = .ok (.accepted envelope))
    (hkey : resolvePartitionKey envelope = .ok key) :
    Grounded t (domainRecord h.eventType key envelope hs) := by
  let copy : KafkaRecord := domainRecord h.eventType key envelope hs
  have hsame : copy.topic = r.topic := h.resolveKafkaTopic_eventType.trans htopic.symm
  have hcopy : Sealed r → Sealed copy ∧ envelopeOf copy = envelopeOf r := by
    intro hsealed
    obtain ⟨henvelope, hvalue, hjson⟩ := envelope_of_read hsealed hread
    have hvalue' : copy.value = r.value := by
      rw [hvalue]
      show KafkaValue.value envelope.wire = _
      rw [JsVal.wire_of_isJson envelope hjson]
    refine ⟨?_, by rw [envelopeOf, envelopeOf, hvalue']⟩
    rwa [Sealed, hvalue']
  refine ⟨fun ht => ?_, fun ht => ?_, fun ht => ?_⟩
  · rw [hsame] at ht
    obtain ⟨hsealed, row, hrow, hstored, htotal⟩ := hg.created ht
    obtain ⟨hsealed', henvelope⟩ := hcopy hsealed
    have hpayload : payloadOf copy = payloadOf r := by rw [payloadOf, henvelope, payloadOf]
    have hnamed : key = row.id := by
      have horder := hstored.orderId
      rw [payloadOf, (envelope_of_read hsealed hread).1] at horder
      exact JsVal.str.inj ((getPartitionKey_eq_ok.mp hkey).1.symm.trans horder)
    refine ⟨hsealed', row, hrow, ⟨congrArg JsVal.str hnamed, ?_, ?_, ?_, ?_, ?_⟩, ?_⟩
    · rw [henvelope, hstored.correlationId]
    · rw [hpayload, hstored.orderId]
    · rw [henvelope, hstored.eventId]
    · rw [hpayload, hstored.currency]
    · rw [hpayload, hstored.items]
    · rw [hpayload, htotal]
  · have hne : h.topic ≠ EventType.paymentRequested.value := by cases h <;> decide
    exact absurd (htopic.symm.trans (hsame.symm.trans ht)) hne
  · rw [hsame] at ht
    obtain ⟨hsealed, row, hrow, horder⟩ := hg.carried ht
    obtain ⟨hsealed', henvelope⟩ := hcopy hsealed
    refine ⟨hsealed', row, hrow, ?_⟩
    rw [payloadOf, henvelope]
    exact horder

theorem grounded_dlq {u : EventType} {failure : JsVal} : Grounded t (dlqRecord u failure) := by
  have hcreated : ∀ u, toDlqTopic (resolveKafkaTopic u) ≠ orderEventsTopic :=
    fun u heq => resolveKafkaTopic_ne_dlq .orderCreated u heq.symm
  have hrequested : ∀ u, toDlqTopic (resolveKafkaTopic u) ≠ EventType.paymentRequested.value :=
    fun u heq => resolveKafkaTopic_ne_dlq .paymentRequested u heq.symm
  exact grounded_of_topic (hcreated u) (hrequested u) (dlqTopic_not_mem u)

/-- The row behind a message that leads towards fulfilment. -/
theorem row_of_carried (hg : Grounded t r) (htopic : r.topic = h.topic) (hmem : h.topic ∈ carriers)
    (hread : h.read r.value = .ok (.accepted envelope)) :
    ∃ row ∈ t.rows, (envelope.get "payload").get "orderId" = .str row.id := by
  obtain ⟨hsealed, row, hrow, horder⟩ := hg.carried (htopic ▸ hmem)
  rw [payloadOf, (envelope_of_read hsealed hread).1] at horder
  exact ⟨row, hrow, horder⟩

/-- The payment of an accepted order is for the amount of its row. -/
theorem charges_requested {key paymentId : String} (hstored : Stored row r)
    (htotal : (payloadOf r).get "totalAmount" = (JsVal.num row.totalAmount).wire)
    (henvelope : envelopeOf r = envelope)
    (hread : parseOrderEventsMessage r.value = .ok (.accepted envelope)) :
    Charges row (domainRecord .paymentRequested key
      (Payment.requestedEnvelope proc (.ofJs envelope) paymentId) []) := by
  have hpayload : envelope.get "payload" = payloadOf r := by rw [payloadOf, henvelope]
  have hvalid := validateOrderCreatedPayload_eq_ok.mp (parseMessage_eq_accepted.mp hread).2.2.1
  have horder : (OrderCreatedEvent.ofJs envelope).payload.orderId = row.id := by
    refine JsVal.asStr_of_eq (v := (envelope.get "payload").get "orderId") ?_
    rw [hpayload, hstored.orderId]
  have hcurrency : (OrderCreatedEvent.ofJs envelope).payload.currency = row.currency := by
    refine JsVal.asStr_of_eq (v := (envelope.get "payload").get "currency") ?_
    rw [hpayload, hstored.currency]
  have hpositive : isPositiveNumber (JsVal.num row.totalAmount).wire = true := by
    have hamount := hvalid.totalAmount
    rwa [hpayload, htotal] at hamount
  have hfinite : row.totalAmount.isFinite = true := by
    by_contra hinf
    rw [JsVal.wire, if_neg hinf] at hpositive
    cases hpositive
  have hsent : (JsVal.num row.totalAmount).wire = .num row.totalAmount :=
    JsVal.wire_of_isJson _ hfinite
  have hamount : (OrderCreatedEvent.ofJs envelope).payload.totalAmount = row.totalAmount := by
    show ((envelope.get "payload").get "totalAmount").asNum = _
    rw [hpayload, htotal, hsent]
    rfl
  let requested : JsVal := Payment.requestedEnvelope proc (.ofJs envelope) paymentId
  have hwire : requested.wire.get "payload" = (requested.get "payload").wire :=
    JsVal.get_wire_of_eq rfl nofun
  refine ⟨?_, ?_, ?_⟩
  · exact JsVal.get_get_wire_str (v := requested) (congrArg JsVal.str horder)
  · show (requested.wire.get "payload").get "amount" = _
    have hfield : (requested.get "payload").get "amount" = .num row.totalAmount :=
      congrArg JsVal.num hamount
    rw [hwire, JsVal.get_wire_of_eq hfield nofun, hsent]
  · exact JsVal.get_get_wire_str (v := requested) (congrArg JsVal.str hcurrency)

end Records

section Calls

variable {P : Number → Prop} {t : OrdersTable} {r : KafkaRecord} {h : RetriedHandler}
  {proc : Process} {headers : List (String × RawHeader)} {envelope : JsVal} {dto : CreateOrderDto}
  {w : World Call}

/-- The record of an order that is stored under its event id. -/
theorem Announceable.grounded (ha : Announceable P proc dto w) (hdto : AcceptedDto dto) :
    Grounded w.orders (Orders.orderCreatedRecord proc dto) := by
  obtain ⟨row, hrow, hext⟩ := ha.row
  have hid : row.id = (proc.uuid 0).val := hext.id.symm
  have hcurrency : row.currency = dto.currency.getD "BRL" := hext.currency.symm
  have hitems : row.items = dto.items := hext.items.symm
  have htotal : row.totalAmount = calculateTotalAmount dto := hext.totalAmount.symm
  let envelope : JsVal := orderCreatedEnvelope proc (proc.uuid 0).val dto
  have hpayload : envelope.wire.get "payload" = (envelope.get "payload").wire :=
    JsVal.get_wire_of_eq rfl nofun
  have hsealed : Sealed (Orders.orderCreatedRecord proc dto) := sealed_createEventEnvelope _ _ _ _
  have hstored : Stored row (Orders.orderCreatedRecord proc dto) := by
    refine ⟨?_, ?_, ?_, ?_, ?_, ?_⟩
    · rw [hid]
      rfl
    · rw [hid]
      exact JsVal.get_wire_str (v := envelope) rfl
    · rw [hid]
      exact JsVal.get_get_wire_str (v := envelope) rfl
    · have hget : envelope.wire.get "eventId" = .str (proc.uuid 1).val := JsVal.get_wire_str rfl
      rw [hext.eventId _ rfl]
      exact congrArg some hget.symm
    · rw [hcurrency]
      exact JsVal.get_get_wire_str (v := envelope) rfl
    · rw [hitems]
      show (envelope.wire.get "payload").get "items" = _
      have hfield : (envelope.get "payload").get "items" = .arr (dto.items.map OrderItem.toJs) := rfl
      rw [hpayload, JsVal.get_wire_of_eq hfield nofun,
        JsVal.wire_of_isJson _ (Orders.isJson_items hdto.items)]
  have htotal' : (payloadOf (Orders.orderCreatedRecord proc dto)).get "totalAmount" =
      (JsVal.num row.totalAmount).wire := by
    rw [htotal]
    show (envelope.wire.get "payload").get "totalAmount" = _
    have hfield : (envelope.get "payload").get "totalAmount" = .num (calculateTotalAmount dto) := rfl
    rw [hpayload, JsVal.get_wire_of_eq hfield nofun]
  have hrequested : (Orders.orderCreatedRecord proc dto).topic ≠ EventType.paymentRequested.value := by
    show orderEventsTopic ≠ _
    decide
  have hcarried : (Orders.orderCreatedRecord proc dto).topic ∉ carriers := by
    show orderEventsTopic ∉ carriers
    decide
  exact ⟨fun _ => ⟨hsealed, row, hrow, hstored, htotal'⟩, fun ht => absurd ht hrequested,
    fun ht => absurd ht hcarried⟩

/-- What the rows support does not take the announced row away. -/
theorem kept_announceable {op : Op}
    (hop : ∀ w, Announceable P proc dto w → Supported w.orders (.createOrder proc dto) op) :
    Kept (rowContract P (.createOrder proc dto)) (Announceable P proc dto) op := by
  intro w ha
  obtain ⟨hguar, hok, hgrows⟩ := kept_of_supported ha.ok (.refl _) (hop w ha)
  obtain ⟨row, hrow, hext⟩ := ha.row
  obtain ⟨row', hrow', hext'⟩ := hgrows row hrow
  exact ⟨hguar, hok, row', hrow', hext.trans hext'⟩

/-- A request stores its order twice, and only then sends its record. -/
theorem along_createOrder (hdto : AcceptedDto dto)
    (hw : Unsaved P proc w) : (Orders.createOrder proc dto).Along
      (rowContract P (.createOrder proc dto)) (fun _ _ => True) w := by
  have hrely : ∀ w w', Announceable P proc dto w →
      (rowContract P (.createOrder proc dto)).rely w w' → Announceable P proc dto w' :=
    fun _ _ ha hr => ha.rely hr
  have hsend : ((orderEventPublisher proc.env).publish .orderCreated
      (orderCreatedEnvelope proc (proc.uuid 0).val dto) []).Keeps
        (rowContract P (.createOrder proc dto)) (Announceable P proc dto) := by
    refine (performs_orderPublish (fun _ => kept_announceable fun _ _ => trivial)
      fun key hkey _ => kept_announceable fun w ha => ?_).keeps hrely
    have hnamed : JsVal.str (proc.uuid 0).val = .str key := (getPartitionKey_eq_ok.mp hkey).1
    obtain rfl := JsVal.str.inj hnamed
    exact ha.grounded hdto
  have hcatch : ∀ error failure, ((Orders.saveOrder { announcedOrder proc dto with status := .failed }).bind
      fun _ => (Async.ofExcept (errorText error)).bind fun _ =>
        (.reject failure : Promise Unit)).Keeps (rowContract P (.createOrder proc dto))
          (Announceable P proc dto) := by
    intro error failure
    have hsave : (Orders.saveOrder { announcedOrder proc dto with status := .failed }).Keeps
        (rowContract P (.createOrder proc dto)) (Announceable P proc dto) :=
      ((performs_perform _).mpr fun _ ha => ha.save).keeps hrely
    exact hsave.bind fun _ => keeps_ofExcept_bind fun _ _ => keeps_reject _
  rw [Orders.createOrder_eq]
  refine along_perform_bind (fun _ _ h hr => Unsaved.rely hr h) (fun _ h hs => h.exec (hs _ rfl))
    (fun _ w h => ?_) (fun _ _ _ => trivial) hw
  rw [Orders.publishOrderCreated_eq]
  refine along_perform_bind (fun _ _ h hr => Saved.rely hr h) (fun _ h _ => h.exec)
    (fun _ w h => ?_) (fun _ _ _ => trivial) h
  have hrest := (hsend.tryCatch fun error => hcatch error
    (.error "InternalServerErrorException" "Order saved but event could not be published")).bind
      fun _ => keeps_resolve (Orders.toCreateOrderResponse (announcedOrder proc dto)
        (some (proc.uuid 1).val))
  exact (hrest w h).imp fun _ _ _ => trivial

/-- What each handler does is supported by the rows behind its message. -/
theorem supported_handler (hg : Grounded t r) (htopic : r.topic = h.topic)
    (hread : h.read r.value = .ok (.accepted envelope)) :
    (h.handler proc envelope).Performs (Supported t (.consume h proc headers r.value)) := by
  have hrow : h.topic ∈ carriers → ∃ row ∈ t.rows,
      (envelope.get "payload").get "orderId" = .str row.id :=
    fun hmem => row_of_carried hg htopic hmem hread
  cases h with
  | orderPaymentEvents | orderNotificationSent =>
    refine performs_projectStatus fun criterion hcriterion _ => ?_
    obtain ⟨row, hmem, horder⟩ := hrow (by decide)
    obtain rfl := Drivers.eq_byId hcriterion horder
    exact ⟨row, hmem, byId_eq_true.mpr rfl⟩
  | orderStockReleased | orderStockFailed => exact performs_projectStatus fun _ _ hf => hf.elim
  | paymentOrderEvents =>
    obtain ⟨hsealed, row, hmem, hstored, htotal⟩ := hg.created htopic
    have henvelope : envelopeOf r = envelope := (envelope_of_read hsealed hread).1
    have horder : JsVal.str (OrderCreatedEvent.ofJs envelope).payload.orderId = .str row.id := by
      refine congrArg JsVal.str (JsVal.asStr_of_eq (v := (envelope.get "payload").get "orderId") ?_)
      rw [← henvelope]
      exact hstored.orderId
    refine performs_processPayment (fun _ => trivial) (fun _ => trivial) (fun key => ?_)
      (fun key reason _ => ?_) fun _ _ key => ?_
    · have hcreated : resolveKafkaTopic .paymentRequested ≠ orderEventsTopic := by decide
      have hcarried : resolveKafkaTopic .paymentRequested ∉ carriers := by decide
      exact ⟨fun ht => absurd ht hcreated,
        fun _ => ⟨row, hmem, charges_requested hstored htotal henvelope hread⟩,
        fun ht => absurd ht hcarried⟩
    · exact grounded_created (by decide) (by decide) hmem horder
    · exact grounded_created (by decide) (by decide) hmem horder
  | paymentOrderCancelled => exact performs_paymentOrderCancelled envelope
  | stockPaymentEvents =>
    obtain ⟨row, hmem, horder⟩ := hrow (by decide)
    exact performs_stockPaymentEvents fun key _ =>
      grounded_created (by decide) (by decide) hmem horder
  | stockOrderCancelled =>
    exact performs_stockOrderCancelled fun key _ =>
      grounded_elsewhere (by decide) (by decide) (by decide)
  | notificationStockReserved =>
    obtain ⟨row, hmem, horder⟩ := hrow (by decide)
    refine performs_notificationStockReserved (fun key _ => ?_) fun key _ => ?_
    · exact grounded_elsewhere (by decide) (by decide) (by decide)
    · exact grounded_created (by decide) (by decide) hmem horder
  | notificationPaymentEvents | notificationOrderCancelled => exact performs_logOrderId envelope

/-- So is all that its method does. -/
theorem supported_method (hg : Grounded t r) (htopic : r.topic = h.topic) :
    (h.method proc headers r.value).Performs (Supported t (.consume h proc headers r.value)) := by
  refine performs_method h (fun op hq => ?_) (fun _ => trivial) fun envelope hread => ?_
  · cases op with
    | emit _ | saveOrder _ | updateOrder _ _ => cases hq
    | _ => trivial
  · exact ⟨supported_handler hg htopic hread, fun _ _ hkey => grounded_copy hg htopic hread hkey,
      fun _ _ _ _ => grounded_dlq⟩

end Calls

section Runs

variable {ι : Type} [DecidableEq ι] {P : Number → Prop}

/-- A copy of a record, or a message on `order.cancelled`, leaves the rows to stand. -/
theorem PersistOk.inject {w : World Call} {r : KafkaRecord} (h : PersistOk P w)
    (hr : r.topic = EventType.orderCancelled.value ∨ r ∈ w.log) :
    PersistOk P { w with log := w.log ++ [r] } := by
  refine h.step (.refl _) h.priced h.distinct (fun x hx => ?_) fun _ _ _ hmem => .inl hmem
  rcases List.mem_append.mp hx with hx | hx
  · exact .inl hx
  · rw [List.mem_singleton.mp hx]
    rcases hr with htopic | hmem
    · have hnone : EventType.orderCancelled.value ≠ orderEventsTopic ∧
          EventType.orderCancelled.value ≠ EventType.paymentRequested.value ∧
          EventType.orderCancelled.value ∉ carriers := by decide
      rw [← htopic] at hnone
      exact .inr (grounded_of_topic hnone.1 hnone.2.1 hnone.2.2)
    · exact .inl hmem

/-- Ids are fresh, and rows of such totals are stored. -/
def Totalling (P : Number → Prop) (s : Pool ι (World Call) Call Op Op.Resp JsThrow JsVal)
    (l : PoolAct ι Call Op JsThrow) : Prop :=
  FreshOrders s l ∧ ∀ i op, l = .settled i op → ∀ c p, s.jobs i = some (c, p) → SavesTotal P op

omit [DecidableEq ι] in
theorem sound_persisted : (rowOwnership P).Sound storefront (fun _ => SavesTotal P)
    (fun _ _ => True) fun s : Pool ι (World Call) Call Op Op.Resp JsThrow JsVal => Totalling P s where
  env w w' hok henv := by
    obtain ⟨r, hr, rfl⟩ := henv
    exact ⟨.refl _, fun _ row hrow _ => ⟨row, hrow, rfl, rfl⟩, PersistOk.inject hok hr⟩
  start s i c hcond hready hok _ := by
    have hsafe : PersistOk P s.world := hok.safe
    cases c with
    | createOrder proc dto =>
      obtain ⟨body, hbody, rfl⟩ := hready
      have hfresh : FreshOrder s proc := hcond.1 i proc _ rfl
      have hunsaved : Unsaved P proc s.world :=
        ⟨hsafe, fun row hrow => (hfresh.unused row hrow).1, fun row hrow => (hfresh.unused row hrow).2⟩
      have hbody' := along_createOrder (Orders.acceptsCreateOrderDto_spec hbody) hunsaved
      exact hbody'.imp fun _ _ _ _ _ => trivial
    | consume h proc headers payload =>
      obtain ⟨r, hr, htopic, rfl, -⟩ := hready
      let c : Call := .consume h proc headers r.value
      have hrely : ∀ w w', PersistOk P w ∧ Grows s.world.orders w.orders →
          (rowContract P c).rely w w' → PersistOk P w' ∧ Grows s.world.orders w'.orders :=
        fun w w' hw hrely => ⟨hrely.ok.safe, hw.2.trans hrely.le⟩
      have hperforms : c.body.Performs (Supported s.world.orders c) :=
        supported_method (hsafe.grounded r hr) htopic
      have hbody := hperforms.along hrely (fun w op hop _ hw => kept_of_supported hw.1 hw.2 hop)
        ⟨hsafe, .refl _⟩
      exact hbody.imp fun _ _ _ _ _ => trivial
  free s i c hcond _ j job hj k := by
    have hapart : ownNames c k → ¬ ownNames job.1 k := by
      intro hown hown'
      obtain ⟨c', p⟩ := job
      cases c with
      | consume h proc headers payload => exact hown
      | createOrder proc dto =>
        cases c' with
        | consume h proc' headers payload => exact hown'
        | createOrder proc' dto' =>
          obtain ⟨hid, hevent⟩ := (hcond.1 i proc dto rfl).others j proc' dto' p hj
          rcases hown with rfl | rfl
          · rcases hown' with heq | heq
            · exact hid (RowName.order.inj heq).symm
            · cases heq
          · rcases hown' with heq | heq
            · cases heq
            · exact hevent (RowName.event.inj heq).symm
    exact ⟨hapart, fun huse hown => hapart huse hown⟩
  settle s i c p op hcond hi := hcond.2 i op rfl c p hi
  reject _ _ _ _ _ _ _ _ := trivial
  crash _ _ _ _ _ _ _ _ _ := trivial

theorem persistOk_empty : PersistOk P World.empty where
  priced _ h := absurd h List.not_mem_nil
  distinct _ h := absurd h List.not_mem_nil
  grounded _ h := absurd h List.not_mem_nil
  updates _ _ _ h := absurd h List.not_mem_nil

variable {ls : List (PoolAct ι Call Op JsThrow)}
  {s : Pool ι (World Call) Call Op Op.Resp JsThrow JsVal}

/-- An update that may settle now leaves a state of some run behind. -/
theorem found_of_run (hrun : RunWhere (Pool.Step storefront) (Totalling P) (Pool.idle World.empty) ls s)
    {i : ι} {c : Call} {criterion : Criterion} {status : OrderStatus}
    {k : Except JsThrow ℕ → Promise JsVal}
    (hjob : s.jobs i = some (c, .await (.updateOrder criterion status) k)) (hf : Feedback c) :
    ∃ id row, criterion id = true ∧ s.world.orders.find? id = some row := by
  let op : Op := .updateOrder criterion status
  have hcond : Totalling P s (.settled i op) := by
    refine ⟨fun _ _ _ => nofun, fun i' op' heq _ _ _ row hrow => ?_⟩
    have hne : op ≠ .saveOrder row := nofun
    cases heq
    exact absurd hrow hne
  have hnext := RunWhere.snoc hrun hcond (Pool.Step.settled hjob)
  have hok : PersistOk P (s.world.exec c op).2 :=
    sound_persisted.safe hnext persistOk_empty fun _ => trivial
  have hlast : (c, op) ∈ (s.world.exec c op).2.trace :=
    List.mem_append_right _ (List.mem_singleton_self _)
  obtain ⟨row, hrow, hselected⟩ := hok.updates c criterion status hlast hf
  have hinsert : ∀ row, op ≠ .saveOrder row := fun _ => nofun
  obtain ⟨old, hold, _, rfl⟩ := (orders_exec c s.world hinsert).2 row hrow
  exact ⟨old.id, old, hselected, Table.find?_eq_some.mpr ⟨hold, rfl⟩⟩

/-- Over a database that need not take every row, rows come before records in every state of
every run. -/
theorem persist_before_publish
    (hrun : RunWhere (Pool.Step storefront) (fun s l => FreshOrders s l ∧ Stores s l)
      (Pool.idle World.empty) ls s) : Persisted s := by
  let P (total : Number) : Prop := total.isFinite = true
  have hfinite : ∀ (s : Pool ι (World Call) Call Op Op.Resp JsThrow JsVal) l,
      FreshOrders s l ∧ Stores s l → Totalling P s l := by
    rintro s l ⟨hfresh, hstores⟩
    refine ⟨hfresh, fun i op hl c p hi row hop => ?_⟩
    have hnone : c.proc.drivers.refuses row = none := hstores i row (by rw [hl, hop]) c p hi
    by_contra hinfinite
    have hsome := c.proc.drivers.refuses_infinite row (by simpa [P] using hinfinite)
    rw [hnone] at hsome
    cases hsome
  have htotals := hrun.mono hfinite
  have hok : PersistOk P s.world := sound_persisted.safe htotals persistOk_empty fun _ => trivial
  refine ⟨fun r hr htopic => ?_, hok.distinct, fun r hr => (hok.grounded r hr).requested, ?_⟩
  · obtain ⟨-, row, hrow, hstored, htotal⟩ := (hok.grounded r hr).created htopic
    have hsent : (JsVal.num row.totalAmount).wire = .num row.totalAmount :=
      JsVal.wire_of_isJson _ (hok.priced row hrow)
    exact ⟨row, hrow, hstored, htotal.trans hsent⟩
  · intro i c criterion status k hjob hf affected haffected
    exact (World.affected_updateOrder c s.world criterion status haffected).mpr
      (found_of_run htotals hjob hf)

variable {ms : List (PoolAct ι Call Op JsThrow)} {t : Pool ι (World Call) Call Op Op.Resp JsThrow JsVal}

/-- Whatever happens after a state, each of its rows keeps its id, its customer, its total, its
currency and its items for good, and its event id once it has one; only the status moves. -/
theorem orders_write_once
    (hrun : RunWhere (Pool.Step storefront) FreshOrders (Pool.idle World.empty) ls s)
    (hmore : RunWhere (Pool.Step storefront) FreshOrders s ms t) :
    ∀ row ∈ s.world.orders.rows, ∃ row' ∈ t.world.orders.rows, row'.id = row.id ∧
      row'.customerId = row.customerId ∧ row'.totalAmount = row.totalAmount ∧
      row'.currency = row.currency ∧ row'.items = row.items ∧
      ∀ e, row.eventId = some e → row'.eventId = some e := by
  let P (_ : Number) : Prop := True
  have hany : ∀ (s : Pool ι (World Call) Call Op Op.Resp JsThrow JsVal) l, FreshOrders s l →
      Totalling P s l := fun _ _ h => ⟨h, fun _ _ _ _ _ _ _ _ => trivial⟩
  have hgrows : Grows s.world.orders t.world.orders :=
    sound_persisted.later (hrun.mono hany) (hmore.mono hany) persistOk_empty fun _ => trivial
  intro row hrow
  obtain ⟨row', hrow', hext⟩ := hgrows row hrow
  exact ⟨row', hrow', hext.id.symm, hext.customerId.symm, hext.totalAmount.symm,
    hext.currency.symm, hext.items.symm, hext.eventId⟩

section Samples

/-- The state after one whole call in which nothing fails but what the libraries refuse. -/
def served (c : Call) (w : World Call) : World Call :=
  ((storefront.body c).run (storefront.settle c c.proc.drivers.refusal) w).2

/-- A whole call over an idle pool. -/
theorem storefront_run {c : Call} {w : World Call} (hready : storefront.ready w c)
    (hfresh : FreshOrders (Pool.idle w : Pool Unit (World Call) Call Op Op.Resp JsThrow JsVal)
      (.start () c)) : ∃ ls,
    RunWhere (Pool.Step storefront) (fun s l => FreshOrders s l ∧ Stores s l)
      (Pool.idle w : Pool Unit (World Call) Call Op Op.Resp JsThrow JsVal) ls
      (Pool.idle (served c w)) := by
  have hstores : ∀ (t : Pool Unit (World Call) Call Op Op.Resp JsThrow JsVal) p op,
      t.jobs () = some (c, p) → c.proc.drivers.refusal op = none →
      FreshOrders t (.settled () op) ∧ Stores t (.settled () op) := by
    intro t p op hi hop
    refine ⟨fun _ _ _ => nofun, fun i row hl c' p' hj => ?_⟩
    cases hl
    cases Option.some.inj (hi.symm.trans hj)
    exact hop
  exact Pool.call_run storefront () c.proc.drivers.refusal (fun _ _ _ => trivial) hstores
    (fun _ _ _ _ => ⟨fun _ _ _ => nofun, fun _ _ => nofun⟩)
    (fun _ => ⟨fun _ _ _ => nofun, fun _ _ => nofun⟩) rfl hready ⟨hfresh, fun _ _ => nofun⟩

theorem request_run : ∃ ls,
    RunWhere (Pool.Step storefront) (fun s l => FreshOrders s l ∧ Stores s l)
      (Pool.idle World.empty : Pool Unit (World Call) Call Op Op.Resp JsThrow JsVal) ls
      (Pool.idle (served Orders.sampleRequest World.empty)) :=
  storefront_run ⟨_, Orders.acceptsCreateOrderDto_sampleBody (by decide), rfl⟩ fun _ _ _ _ =>
    ⟨fun _ hrow => absurd hrow List.not_mem_nil, fun _ _ _ _ => nofun⟩

/-- The request of the sample body, and the payment that it leads to. -/
theorem paid_run : ∃ ls ms, ∃ s t : Pool Unit (World Call) Call Op Op.Resp JsThrow JsVal,
    RunWhere (Pool.Step storefront) (fun s l => FreshOrders s l ∧ Stores s l)
      (Pool.idle World.empty) ls s ∧
    RunWhere (Pool.Step storefront) (fun s l => FreshOrders s l ∧ Stores s l) s ms t ∧
    s.world.orders.rows.length = 1 ∧ t.world.log.map KafkaRecord.topic =
      [orderEventsTopic, EventType.paymentRequested.value, paymentEventsTopic] := by
  let w : World Call := served Orders.sampleRequest World.empty
  obtain ⟨ls, hfirst⟩ := request_run
  have hlast : w.log.getLast?.map KafkaRecord.topic = some orderEventsTopic := by decide +kernel
  obtain ⟨r, hr, htopic⟩ := Option.map_eq_some_iff.mp hlast
  have hdelivery : deliverLast .paymentOrderEvents w =
      .consume .paymentOrderEvents (.still .second .half) r.headers r.value := by
    rw [deliverLast, hr]
  have hready : storefront.ready w (deliverLast .paymentOrderEvents w) := by
    rw [hdelivery]
    exact ⟨r, List.mem_of_getLast? hr, htopic, rfl, rfl⟩
  have hfresh : FreshOrders (Pool.idle w : Pool Unit (World Call) Call Op Op.Resp JsThrow JsVal)
      (.start () (deliverLast .paymentOrderEvents w)) := by
    intro i proc dto hstart
    rw [hdelivery] at hstart
    cases hstart
  obtain ⟨ms, hmore⟩ := storefront_run hready hfresh
  have hrows : w.orders.rows.length = 1 := by decide +kernel
  have htopics : (served (deliverLast .paymentOrderEvents w) w).log.map KafkaRecord.topic =
      [orderEventsTopic, EventType.paymentRequested.value, paymentEventsTopic] := by decide +kernel
  exact ⟨ls, ms, _, _, hfirst, hmore, hrows, htopics⟩

/-- The order of the sample body is stored, announced and paid. -/
theorem persist_before_publish_paid : ∃ ls,
    ∃ s : Pool Unit (World Call) Call Op Op.Resp JsThrow JsVal,
      RunWhere (Pool.Step storefront) (fun s l => FreshOrders s l ∧ Stores s l)
        (Pool.idle World.empty) ls s ∧ s.world.log.map KafkaRecord.topic =
          [orderEventsTopic, EventType.paymentRequested.value, paymentEventsTopic] ∧ Persisted s := by
  obtain ⟨ls, ms, s, t, hfirst, hmore, -, htopics⟩ := paid_run
  exact ⟨_, t, hfirst.trans hmore, htopics, persist_before_publish (hfirst.trans hmore)⟩

/-- A payment leaves the row of its order as it was. -/
theorem orders_write_once_paid : ∃ ls ms,
    ∃ s t : Pool Unit (World Call) Call Op Op.Resp JsThrow JsVal,
      RunWhere (Pool.Step storefront) FreshOrders (Pool.idle World.empty) ls s ∧
      RunWhere (Pool.Step storefront) FreshOrders s ms t ∧
      s.world.orders.rows.length = 1 ∧ t.world.log.length = 3 ∧
      ∀ row ∈ s.world.orders.rows, ∃ row' ∈ t.world.orders.rows, row'.id = row.id ∧
        row'.customerId = row.customerId ∧ row'.totalAmount = row.totalAmount ∧
        row'.currency = row.currency ∧ row'.items = row.items ∧
        ∀ e, row.eventId = some e → row'.eventId = some e := by
  obtain ⟨ls, ms, s, t, hfirst, hmore, hrows, htopics⟩ := paid_run
  have hlength : t.world.log.length = 3 := by
    rw [← List.length_map KafkaRecord.topic, htopics]
    rfl
  have hfirst' := hfirst.mono fun _ _ h => h.1
  have hmore' := hmore.mono fun _ _ h => h.1
  exact ⟨ls, ms, s, t, hfirst', hmore', hrows, hlength, orders_write_once hfirst' hmore'⟩

end Samples

end Runs

end EventFlow.Saga
