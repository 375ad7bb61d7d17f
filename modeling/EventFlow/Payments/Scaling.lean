import EventFlow.Framework.Sharding
import EventFlow.Payments.WriteOnce

namespace EventFlow.Payments

open Js Shared Services Services.Payment Async

section Scope

/-- The order that a record on a payment topic is about. -/
def paymentOrder? (r : KafkaRecord) : Option String :=
  if r.topic = resolveKafkaTopic .paymentRequested ∨ r.topic = paymentEventsTopic then
    match r.value with
    | .value v =>
      match (v.get "payload").get "orderId" with
      | .str orderId => some orderId
      | _ => none
    | .buffer _ => none
  else none

/-- The payment events published for an order, in their order. -/
def published (orderId : String) (trace : List (Call × Op)) : List KafkaRecord :=
  trace.filterMap fun entry =>
    match entry.2 with
    | .emit r => if paymentOrder? r = some orderId then some r else none
    | _ => none

/-- The rows of an order. -/
def rowsOf (orderId : String) (t : ProcessedEventsTable) : List ProcessedEventEntity :=
  t.rows.filter fun r => r.orderId = orderId

/-- The handling of an event looks up and writes its own rows, and announces payments of
its own order. -/
def Scoped (event : OrderCreatedEvent) : Op → Prop
  | .findByEvent inboundEventId => inboundEventId = event.eventId
  | .findApproved orderId => orderId = event.payload.orderId
  | .saveProcessed row =>
    row.inboundEventId = event.eventId ∧ row.orderId = event.payload.orderId
  | .emit r => ∀ orderId, paymentOrder? r = some orderId → orderId = event.payload.orderId
  | .sleep _ | .handler => True
  | .saveOrder _ | .updateOrder _ _ => False

variable {proc : Process} {event : OrderCreatedEvent} {envelope : JsVal}
  {headers : List (String × RawHeader)}

theorem Announces.order {t : EventType} {paymentId orderId o : String} {r : KafkaRecord}
    (h : Announces t paymentId orderId r) (ho : paymentOrder? r = some o) : o = orderId := by
  obtain ⟨v, hv, -, -, horder⟩ := h.value
  unfold paymentOrder? at ho
  split_ifs at ho
  rw [hv] at ho
  simp only [horder] at ho
  exact (Option.some.inj ho).symm

/-- Retry copies and failure records are on other topics. -/
theorem paymentOrder?_of_topic {r : KafkaRecord}
    (h : r.topic = orderEventsTopic ∨ r.topic = toDlqTopic orderEventsTopic) :
    paymentOrder? r = none := by
  refine if_neg fun hpayment => ?_
  rcases h with h | h <;> rw [h] at hpayment <;> exact absurd hpayment (by decide)

theorem scoped_processPayment : (processPayment proc event).Performs (Scoped event) := by
  refine performs_processPayment (fun _ => trivial) (fun _ => ⟨rfl, rfl⟩) ?_ ?_ ?_
  · intro key orderId ho
    have h : Announces .paymentRequested (proc.uuid 0).val event.payload.orderId
        (domainRecord .paymentRequested key (requestedEnvelope proc event (proc.uuid 0).val) []) :=
      announces_of_envelope rfl rfl rfl
    exact h.order ho
  · intro key reason _ orderId ho
    have h : Announces .paymentFailed (proc.uuid 0).val event.payload.orderId
        (domainRecord .paymentFailed key (declined proc event reason) []) :=
      announces_of_envelope rfl rfl rfl
    exact h.order ho
  · intro _ _ key orderId ho
    have h : Announces .paymentProcessed (proc.uuid 0).val event.payload.orderId
        (domainRecord .paymentProcessed key (charged proc event) []) :=
      announces_of_envelope rfl rfl rfl
    exact h.order ho

theorem scoped_other_topic {r : KafkaRecord}
    (h : r.topic = orderEventsTopic ∨ r.topic = toDlqTopic orderEventsTopic) :
    Scoped event (.emit r) := by
  intro orderId ho
  rw [paymentOrder?_of_topic h] at ho
  cases ho

theorem scoped_handleOrderCreated :
    (handleOrderCreatedEnvelope proc headers envelope).Performs (Scoped (.ofJs envelope)) := by
  have hcheck : (checkOrderCreated (OrderCreatedEvent.ofJs envelope).eventId
      (OrderCreatedEvent.ofJs envelope).payload.orderId).Performs (Scoped (.ofJs envelope)) :=
    performs_checkOrderCreated rfl rfl
  refine hcheck.bind fun check => ?_
  cases check with
  | duplicateEvent record => trivial
  | duplicateOrder record =>
    exact Performs.bind ((performs_perform _).mpr ⟨rfl, rfl⟩) fun _ => trivial
  | new =>
    exact performs_ackExecuted (performs_execute (fun _ => trivial)
      (fun _ _ _ => scoped_other_topic (.inl rfl)) (fun _ _ _ _ => scoped_other_topic (.inr rfl))
      scoped_processPayment)

theorem scoped_body {c : Call} (hevent : c.event? = some event) :
    (consumers.body c).Performs (Scoped event) := by
  unfold Call.event? at hevent
  have hbody : consumers.body c = handleOrderEvents c.proc c.headers c.payload := rfl
  rw [hbody]
  refine performs_consumeParsed fun envelope hp => ?_
  simp only [hp, Option.some.injEq] at hevent
  subst hevent
  exact scoped_handleOrderCreated

end Scope

section Orders

/-- The order whose payment a delivery handles. -/
def Call.order? (c : Call) : Option String := c.event?.map fun event => event.payload.orderId

theorem published_concat (o : String) (trace : List (Call × Op)) (entry : Call × Op) :
    published o (trace ++ [entry]) = published o trace ++ published o [entry] :=
  List.filterMap_append

/-- The events of the deliveries belong to one order each. -/
def OneOrder (cs : List Call) : Prop :=
  ∀ c ∈ cs, ∀ d ∈ cs, ∀ event event', c.event? = some event → d.event? = some event' →
    event.eventId = event'.eventId → event.payload.orderId = event'.payload.orderId

/-- And so do the rows stored for them. -/
def RowsOwned (cs : List Call) (t : ProcessedEventsTable) : Prop :=
  ∀ c ∈ cs, ∀ event, c.event? = some event → ∀ r ∈ t.rows, r.inboundEventId = event.eventId →
    r.orderId = event.payload.orderId

variable {cs : List Call} {c : Call} {event : OrderCreatedEvent} {w w' : World Call} {op : Op}

theorem RowsOwned.exec (h : RowsOwned cs w.processed) (hids : OneOrder cs) (hc : c ∈ cs)
    (hevent : c.event? = some event) (hop : Scoped event op) :
    RowsOwned cs (w.exec c op).2.processed := by
  by_cases hsave : Saves op
  · obtain ⟨row, rfl⟩ := hsave
    intro d hd event' hevent' r hr hid
    rw [World.exec_saveProcessed] at hr
    rcases Table.mem_save.mp hr with rfl | ⟨hr, -⟩
    · rw [hop.2]
      exact hids c hc d hd event event' hevent hevent' (hop.1.symm.trans hid)
    · exact h d hd event' hevent' r hr hid
  · rw [World.exec_processed c w fun row hrow => hsave ⟨row, hrow⟩]
    exact h

theorem rowsOf_exec_of_ne (h : RowsOwned cs w.processed) (hc : c ∈ cs)
    (hevent : c.event? = some event) (hop : Scoped event op) {o : String}
    (ho : event.payload.orderId ≠ o) : rowsOf o (w.exec c op).2.processed = rowsOf o w.processed := by
  by_cases hsave : Saves op
  · obtain ⟨row, rfl⟩ := hsave
    rw [World.exec_saveProcessed]
    refine Table.filter_save_of_not ?_ fun r hr hk => ?_
    · simpa [hop.2] using ho
    · have hown := h c hc event hevent r hr (hk.trans hop.1)
      simpa [hown] using ho
  · rw [World.exec_processed c w fun row hrow => hsave ⟨row, hrow⟩]

theorem published_exec_of_ne (hop : Scoped event op) {o : String}
    (ho : event.payload.orderId ≠ o) : published o (w.exec c op).2.trace = published o w.trace := by
  rw [World.exec_trace, published_concat]
  suffices hnone : published o [(c, op)] = [] by rw [hnone, List.append_nil]
  cases op with
  | emit r =>
    have hother : paymentOrder? r ≠ some o := fun hr => ho (hop o hr).symm
    simp [published, hother]
  | _ => rfl

/-- What a handling reads and writes is decided by the rows of its order. -/
theorem exec_congr (h : RowsOwned cs w.processed) (h' : RowsOwned cs w'.processed) (hc : c ∈ cs)
    (hevent : c.event? = some event) (hop : Scoped event op)
    (hrows : rowsOf event.payload.orderId w.processed = rowsOf event.payload.orderId w'.processed) :
    (w.exec c op).1 = (w'.exec c op).1 ∧ rowsOf event.payload.orderId (w.exec c op).2.processed =
      rowsOf event.payload.orderId (w'.exec c op).2.processed := by
  have hown : ∀ {t : ProcessedEventsTable}, RowsOwned cs t → ∀ r ∈ t.rows,
      r.inboundEventId = event.eventId → decide (r.orderId = event.payload.orderId) = true :=
    fun ht r hr hk => decide_eq_true (ht c hc event hevent r hr hk)
  cases op with
  | emit r => exact ⟨rfl, hrows⟩
  | sleep ms => exact ⟨rfl, hrows⟩
  | handler => exact ⟨rfl, hrows⟩
  | saveOrder row => exact hop.elim
  | updateOrder orderId status => exact hop.elim
  | findByEvent e =>
    obtain rfl : e = event.eventId := hop
    have hfind : w.processed.find? event.eventId = w'.processed.find? event.eventId := by
      rw [Table.find?_filter (hown h), Table.find?_filter (hown h')]
      exact congrArg (List.find? _) hrows
    exact ⟨hfind, hrows⟩
  | findApproved o =>
    obtain rfl : o = event.payload.orderId := hop
    have hsplit : ∀ t : ProcessedEventsTable,
        (t.findOne fun r => r.orderId = event.payload.orderId ∧ r.outcome = .approved) =
          (rowsOf event.payload.orderId t).find? fun r => r.outcome = .approved := by
      intro t
      rw [rowsOf, List.find?_filter, Table.findOne]
      simp
    have hfind := (hsplit w.processed).trans (hrows ▸ (hsplit w'.processed).symm)
    exact ⟨hfind, hrows⟩
  | saveProcessed row =>
    obtain ⟨hid, horder⟩ := hop
    refine ⟨rfl, ?_⟩
    have hsave : ∀ t : ProcessedEventsTable, RowsOwned cs t →
        rowsOf event.payload.orderId (t.save row) =
          if row.inboundEventId ∈ (rowsOf event.payload.orderId t).map (·.inboundEventId) then
            (rowsOf event.payload.orderId t).map fun r =>
              if r.inboundEventId = row.inboundEventId then row else r
          else rowsOf event.payload.orderId t ++ [row] := fun t ht =>
      Table.filter_save (decide_eq_true horder) fun r hr hk => hown ht r hr (hk.trans hid)
    rw [World.exec_saveProcessed, World.exec_saveProcessed, hsave _ h, hsave _ h', hrows]

/-- The handlings of payment-service, split by order. -/
def byOrder (cs : List Call) (hids : OneOrder cs) :
    Pool.Sharding consumers String (List ProcessedEventEntity × List KafkaRecord) where
  member c := c ∈ cs
  keyOf := Call.order?
  view o w := (rowsOf o w.processed, published o w.trace)
  good w := RowsOwned cs w.processed
  admits c op := c ∈ cs ∧ ∃ event, c.event? = some event ∧ Scoped event op
  body_admits c hc := by
    cases hevent : c.event? with
    | some event => exact (scoped_body hevent).imp fun op hop => ⟨hc, event, rfl, hop⟩
    | none =>
      rcases body_of_no_event hevent with ⟨ack, hack⟩ | ⟨e, he⟩
      · rw [hack]
        trivial
      · rw [he]
        trivial
  keyed c op h := by
    obtain ⟨-, event, hevent, -⟩ := h
    exact ⟨event.payload.orderId, by rw [Call.order?, hevent, Option.map_some]⟩
  good_exec c w op h hw := by
    obtain ⟨hc, event, hevent, hop⟩ := h
    exact hw.exec hids hc hevent hop
  frame c w op o h ho hw := by
    obtain ⟨hc, event, hevent, hop⟩ := h
    have hne : event.payload.orderId ≠ o := fun heq =>
      ho (by rw [Call.order?, hevent, ← heq, Option.map_some])
    exact congrArg₂ Prod.mk (rowsOf_exec_of_ne hw hc hevent hop hne) (published_exec_of_ne hop hne)
  within c w w' op o h ho hw hw' hview := by
    obtain ⟨hc, event, hevent, hop⟩ := h
    obtain rfl : event.payload.orderId = o := by simpa [Call.order?, hevent] using ho
    obtain ⟨hrows, hpublished⟩ := Prod.mk.inj hview
    obtain ⟨hresp, hnext⟩ := exec_congr hw hw' hc hevent hop hrows
    refine ⟨hresp, congrArg₂ Prod.mk hnext ?_⟩
    have htrace : ∀ u : World Call, (consumers.exec c u op).2.trace = u.trace ++ [(c, op)] :=
      fun _ => rfl
    rw [htrace, htrace, published_concat, published_concat, hpublished]
  env w w' henv hw := by
    obtain ⟨records, rfl⟩ := henv
    exact ⟨hw, fun _ => rfl⟩

/-- Replicas that handle every order in one place, one message at a time, leave the rows
and, for each order, the payment events of handling the messages one by one. -/
theorem orders_independent {ι : Type} [DecidableEq ι] (replicaOf : String → ι)
    (fails : Call → Op → Option JsThrow) {w : World Call} {ls : List (PoolAct ι Call Op JsThrow)}
    {s : Pool ι (World Call) Call Op Op.Resp JsThrow JsVal}
    (hrun : RunWhere (Pool.Step consumers) (Pool.Assigned Call.order? replicaOf fails)
      (Pool.idle w) ls s) (hdone : ∀ i, s.jobs i = none)
    (hids : OneOrder (Pool.started ls)) (hrows : RowsOwned (Pool.started ls) w.processed)
    {ds : List Call} (hperm : ds.Perm (Pool.started ls))
    (horder : ∀ o, (ds.filter fun c => c.order? = some o) =
      (Pool.started ls).filter fun c => c.order? = some o) :
    (∀ row, row ∈ s.world.processed.rows ↔
      row ∈ (Pool.sequential consumers fails ds w).processed.rows) ∧
    ∀ o, published o s.world.trace =
      published o (Pool.sequential consumers fails ds w).trace := by
  let S := byOrder (Pool.started ls) hids
  have hview : ∀ o, S.view o s.world = S.view o (Pool.sequential consumers fails ds w) := fun o =>
    S.view_of_run hrows hrun (fun _ hc => hc) hdone (fun c hc => hperm.subset hc) (horder o)
  refine ⟨fun row => ?_, fun o => (Prod.mk.inj (hview o)).2⟩
  have hmem : ∀ t : ProcessedEventsTable, row ∈ t.rows ↔ row ∈ rowsOf row.orderId t := by
    intro t
    simp [rowsOf]
  rw [hmem, hmem, (Prod.mk.inj (hview row.orderId)).1]

/-- Two orders on two replicas, and their messages the other way round in one process. -/
theorem orders_independent_swapped : ∃ ls,
    ∃ s : Pool Bool (World Call) Call Op Op.Resp JsThrow JsVal,
      RunWhere (Pool.Step consumers)
        (Pool.Assigned Call.order? (fun o => decide (o = "o-1")) fun _ _ => none)
        (Pool.idle World.empty) ls s ∧
      Pool.started ls = [delivery .first "o-1", delivery .second "o-2"] ∧
      (published "o-1" s.world.trace).length = 2 ∧
      (∀ row, row ∈ s.world.processed.rows ↔ row ∈ (Pool.sequential consumers (fun _ _ => none)
        [delivery .second "o-2", delivery .first "o-1"] World.empty).processed.rows) ∧
      ∀ o, published o s.world.trace = published o (Pool.sequential consumers (fun _ _ => none)
        [delivery .second "o-2", delivery .first "o-1"] World.empty).trace := by
  let c : Call := delivery .first "o-1"
  let d : Call := delivery .second "o-2"
  let replicaOf : String → Bool := fun o => decide (o = "o-1")
  have hc : c.order? = some "o-1" := by decide +kernel
  have hd : d.order? = some "o-2" := by decide +kernel
  have hcall : ∀ (x : Call) (o : String) (w : World Call), x.order? = some o → ∃ ls,
      RunWhere (Pool.Step consumers) (Pool.Assigned Call.order? replicaOf fun _ _ => none)
        (Pool.idle w : Pool Bool (World Call) Call Op Op.Resp JsThrow JsVal) ls
        (Pool.idle (handled x (fun _ => none) w)) ∧ Pool.started ls = [x] := by
    intro x o w hx
    refine Pool.single_call_run consumers (replicaOf o) (fun _ => none) (fun _ _ _ => trivial)
      (fun _ _ _ _ _ _ _ _ => rfl) (fun _ _ _ => nofun) (fun _ => trivial) rfl trivial fun k hk => ?_
    rw [hx] at hk
    rw [Option.some.inj hk]
  obtain ⟨ls, hls, hstarted⟩ := hcall c "o-1" World.empty hc
  obtain ⟨ms, hms, hstarted'⟩ := hcall d "o-2" (handled c (fun _ => none) World.empty) hd
  have hall : Pool.started (ls ++ ms) = [c, d] := by
    rw [Pool.started_append, hstarted, hstarted', List.singleton_append]
  have hown : ∀ x ∈ [c, d], ∀ event, x.event? = some event →
      event.payload.orderId = if event.eventId = Uuid.first.val then "o-1" else "o-2" := by
    have hboth : ∀ x ∈ [c, d], (x.event?.map fun event => decide (event.payload.orderId =
        if event.eventId = Uuid.first.val then "o-1" else "o-2")) = some true := by decide +kernel
    intro x hx event hevent
    have hfound := hboth x hx
    rw [hevent, Option.map_some] at hfound
    exact of_decide_eq_true (Option.some.inj hfound)
  have hids : OneOrder (Pool.started (ls ++ ms)) := by
    rw [hall]
    intro x hx y hy event event' hevent hevent' hid
    rw [hown x hx event hevent, hown y hy event' hevent', hid]
  have hrows : RowsOwned (Pool.started (ls ++ ms)) (World.empty : World Call).processed :=
    fun _ _ _ _ r hr => absurd hr List.not_mem_nil
  have hperm : [d, c].Perm (Pool.started (ls ++ ms)) := by
    rw [hall]
    exact .swap c d []
  have horder : ∀ o, ([d, c].filter fun x => x.order? = some o) =
      (Pool.started (ls ++ ms)).filter fun x => x.order? = some o := by
    intro o
    rw [hall]
    by_cases ho : "o-1" = o
    · subst ho
      simp [hc, hd]
    · simp [List.filter_cons, hc, ho]
  have htwo : (published "o-1" (handled d (fun _ => none)
      (handled c (fun _ => none) World.empty)).trace).length = 2 := by decide +kernel
  have hrun := hls.trans hms
  exact ⟨ls ++ ms, _, hrun, hall, htwo,
    orders_independent replicaOf (fun _ _ => none) hrun (fun _ => rfl) hids hrows hperm horder⟩

end Orders

end EventFlow.Payments
