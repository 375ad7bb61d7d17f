import EventFlow.Framework.Async
import EventFlow.Services.Entities
import EventFlow.Shared.Parsing

namespace EventFlow.Shared

open Js Services

/-- What the services await: the producer, the timer, the two repositories, and
a handler that a caller passes to the retry executor. -/
inductive Op where
  | emit (record : KafkaRecord)
  | sleep (ms : Number)
  | findByEvent (inboundEventId : String)
  | findApproved (orderId : String)
  | saveProcessed (row : ProcessedEventEntity)
  | saveOrder (row : OrderEntity)
  | updateOrder (criterion : Criterion) (status : OrderStatus)
  | handler

/-- What each of them resolves with. -/
def Op.Resp : Op → Type
  | .findByEvent _ | .findApproved _ => Option ProcessedEventEntity
  | .updateOrder _ _ => ℕ
  | _ => Unit

/-- Operations that leave the log and the tables alone. -/
def quiet : Op → Bool
  | .sleep _ | .findByEvent _ | .findApproved _ | .handler => true
  | _ => false

theorem not_write_of_quiet {op : Op} (h : quiet op = true) :
    (∀ record, op ≠ .emit record) ∧ (∀ row, op ≠ .saveProcessed row) ∧
      (∀ row, op ≠ .saveOrder row) ∧ ∀ id status, op ≠ .updateOrder id status := by
  cases op with
  | sleep _ | findByEvent _ | findApproved _ | handler =>
    exact ⟨fun _ => nofun, fun _ => nofun, fun _ => nofun, fun _ _ => nofun⟩
  | emit _ | saveProcessed _ | saveOrder _ | updateOrder _ _ => cases h

/-- The async functions of the services. -/
abbrev Promise (α : Type) := Async Op Op.Resp JsThrow α

/-- The broker's log, the two databases, and which call made which operation. -/
structure World (C : Type) where
  log : List KafkaRecord
  processed : ProcessedEventsTable
  orders : OrdersTable
  trace : List (C × Op)

namespace World

variable {C : Type}

def empty : World C := ⟨[], .empty, .empty, []⟩

/-- The effect of an operation on the log and the tables. -/
def perform (w : World C) : (op : Op) → op.Resp × World C
  | .emit record => ((), { w with log := w.log ++ [record] })
  | .sleep _ => ((), w)
  | .findByEvent inboundEventId => (w.processed.find? inboundEventId, w)
  | .findApproved orderId =>
    (w.processed.findOne fun r => r.orderId = orderId ∧ r.outcome = .approved, w)
  | .saveProcessed row => ((), { w with processed := w.processed.save row })
  | .saveOrder row => ((), { w with orders := w.orders.save row })
  | .updateOrder criterion status =>
    ((w.orders.rows.countP fun row => criterion row.id : ℕ),
      { w with orders := w.orders.update criterion (fun row => { row with status := status })
                fun _ => rfl })
  | .handler => ((), w)

/-- An operation that settles well, on the record of its caller. -/
def exec (c : C) (w : World C) (op : Op) : op.Resp × World C :=
  ((w.perform op).1, { (w.perform op).2 with trace := w.trace ++ [(c, op)] })

/-- Every operation settles well, except that `fails` may reject some. -/
def settle (c : C) (fails : Op → Option JsThrow) (w : World C) (op : Op) :
    Except JsThrow op.Resp × World C :=
  match fails op with
  | some e => (.error e, w)
  | none => (.ok (w.exec c op).1, (w.exec c op).2)

section Lemmas

variable (c : C) (w : World C)

@[simp] theorem exec_trace (op : Op) : (w.exec c op).2.trace = w.trace ++ [(c, op)] := rfl

@[simp] theorem exec_log_emit (r : KafkaRecord) :
    (w.exec c (.emit r)).2.log = w.log ++ [r] := rfl

@[simp] theorem exec_processed_emit (r : KafkaRecord) :
    (w.exec c (.emit r)).2.processed = w.processed := rfl

@[simp] theorem exec_orders_emit (r : KafkaRecord) :
    (w.exec c (.emit r)).2.orders = w.orders := rfl

@[simp] theorem exec_sleep (ms : Number) :
    (w.exec c (.sleep ms)).2 = { w with trace := w.trace ++ [(c, .sleep ms)] } := rfl

@[simp] theorem exec_handler :
    (w.exec c .handler).2 = { w with trace := w.trace ++ [(c, .handler)] } := rfl

theorem exec_findByEvent (e : String) :
    w.exec c (.findByEvent e) =
      (w.processed.find? e, { w with trace := w.trace ++ [(c, .findByEvent e)] }) := rfl

theorem exec_findApproved (o : String) :
    w.exec c (.findApproved o) =
      (w.processed.findOne fun r => r.orderId = o ∧ r.outcome = .approved,
        { w with trace := w.trace ++ [(c, .findApproved o)] }) := rfl

theorem exec_saveProcessed (row : ProcessedEventEntity) :
    (w.exec c (.saveProcessed row)).2 =
      { w with processed := w.processed.save row, trace := w.trace ++ [(c, .saveProcessed row)] } :=
  rfl

/-- Only `emit` touches the log. -/
theorem exec_log {op : Op} (h : ∀ r, op ≠ .emit r) : (w.exec c op).2.log = w.log := by
  cases op with
  | emit r => exact absurd rfl (h r)
  | _ => rfl

/-- Only `saveProcessed` touches the rows of processed events. -/
theorem exec_processed {op : Op} (h : ∀ row, op ≠ .saveProcessed row) :
    (w.exec c op).2.processed = w.processed := by
  cases op with
  | saveProcessed row => exact absurd rfl (h row)
  | _ => rfl

/-- Only the two order writes touch the orders. -/
theorem exec_orders {op : Op} (h : ∀ row, op ≠ .saveOrder row)
    (h' : ∀ id status, op ≠ .updateOrder id status) : (w.exec c op).2.orders = w.orders := by
  cases op with
  | saveOrder row => exact absurd rfl (h row)
  | updateOrder id status => exact absurd rfl (h' id status)
  | _ => rfl

theorem find?_exec_saveOrder (row : OrderEntity) (o : String) :
    (w.exec c (.saveOrder row)).2.orders.find? o =
      if o = row.id then some row else w.orders.find? o :=
  Table.find?_save w.orders row o

/-- An update changes the status of the rows that it selects, and nothing else. -/
theorem find?_exec_updateOrder (criterion : Criterion) (status : OrderStatus) (o : String) :
    (w.exec c (.updateOrder criterion status)).2.orders.find? o =
      (w.orders.find? o).map fun row =>
        if criterion o then { row with status := status } else row :=
  Table.find?_update w.orders criterion (fun row => { row with status := status }) (fun _ => rfl) o

theorem find?_exec_updateOrder_byId (id : String) (status : OrderStatus) (o : String) :
    (w.exec c (.updateOrder (byId id) status)).2.orders.find? o =
      if o = id then (w.orders.find? id).map fun row => { row with status := status }
      else w.orders.find? o := by
  rw [find?_exec_updateOrder]
  by_cases ho : o = id
  · simp [ho]
  · have hother : byId id o = false := by simp [byId, ho]
    simp [hother, ho]

/-- An update affects a row exactly when it selects one. -/
theorem affected_updateOrder (criterion : Criterion) (status : OrderStatus) {affected : ℕ}
    (h : (w.exec c (.updateOrder criterion status)).1 = affected) :
    affected ≠ 0 ↔ ∃ id row, criterion id = true ∧ w.orders.find? id = some row := by
  have hcount : affected = w.orders.rows.countP fun row => criterion row.id := h.symm
  rw [hcount, ne_eq, List.countP_eq_zero]
  constructor
  · intro hsome
    push Not at hsome
    obtain ⟨row, hrow, hselected⟩ := hsome
    exact ⟨row.id, row, hselected, Table.find?_eq_some.mpr ⟨hrow, rfl⟩⟩
  · intro hsome hnone
    obtain ⟨id, row, hselected, hrow⟩ := hsome
    obtain ⟨hmem, rfl⟩ := Table.find?_eq_some.mp hrow
    exact hnone row hmem hselected

theorem mem_exec_updateOrder {criterion : Criterion} {status : OrderStatus} {row : OrderEntity} :
    row ∈ (w.exec c (.updateOrder criterion status)).2.orders.rows ↔ ∃ old ∈ w.orders.rows,
      (if criterion old.id then { old with status := status } else old) = row :=
  Table.mem_update w.orders criterion (fun row => { row with status := status }) fun _ => rfl

end Lemmas

end World

/-- What the libraries throw instead of carrying an operation out. -/
def Drivers.refusal (drivers : Drivers) : Op → Option JsThrow
  | .emit record => drivers.refusedHeader record.headers
  | .saveOrder row => drivers.refuses row
  | _ => none

/-- What rejects: what the libraries refuse, and what else fails. -/
def Drivers.refusing (drivers : Drivers) (fails : Op → Option JsThrow) (op : Op) :
    Option JsThrow := (drivers.refusal op).or (fails op)

theorem refusing_none (drivers : Drivers) : drivers.refusing (fun _ => none) = drivers.refusal := by
  funext op
  exact Option.or_none

/-- `await sleep(ms)`. -/
def sleep (ms : Number) : Promise Unit := Async.perform (Op.sleep ms)

end EventFlow.Shared
