import EventFlow.Payments.Store

namespace EventFlow.Payments

open Js Shared Services Services.Payment Async

section Charges

/-- A `payment.processed` of an order. -/
def charges (orderId : String) : Op → Bool
  | .emit r =>
    r.topic = paymentEventsTopic &&
      match r.value with
      | .value v => (v.get "eventType").strictEq (.str EventType.paymentProcessed.value) &&
          ((v.get "payload").get "orderId").strictEq (.str orderId)
      | .buffer _ => false
  | _ => false

/-- How often an order was charged. -/
def chargeCount (orderId : String) (trace : List (Call × Op)) : ℕ :=
  trace.countP fun p => charges orderId p.2

theorem chargeCount_append (o : String) (trace : List (Call × Op)) (c : Call) (op : Op) :
    chargeCount o (trace ++ [(c, op)]) = chargeCount o trace + if charges o op then 1 else 0 := by
  simp [chargeCount, List.countP_append, List.countP_singleton]

/-- An announcement charges its own order if it says so, and no other. -/
theorem charges_of_announces {t : EventType} {paymentId orderId o : String} {r : KafkaRecord}
    (h : Announces t paymentId orderId r) :
    charges o (.emit r) = true ↔ t = .paymentProcessed ∧ o = orderId := by
  obtain ⟨htopic, v, hv, htype, -, horder⟩ := h
  simp only [charges, htopic, hv, htype, horder, Bool.and_eq_true, decide_eq_true_eq, strictEq_str,
    JsVal.str.injEq]
  constructor
  · rintro ⟨-, ht, ho⟩
    exact ⟨EventType.value_injective ht, ho.symm⟩
  · rintro ⟨rfl, rfl⟩
    exact ⟨rfl, rfl, rfl⟩

theorem not_charges_of_topic {o : String} {r : KafkaRecord} (h : r.topic ≠ paymentEventsTopic) :
    charges o (.emit r) = false := by
  simp [charges, h]

end Charges

section Ownership

/-- What two handlings may not have in common. -/
inductive Key where
  | order (orderId : String)
  | event (inboundEventId : String)
  deriving DecidableEq

def Call.holds (c : Call) (k : Key) : Prop :=
  ∃ event, c.event? = some event ∧ (k = .order event.payload.orderId ∨ k = .event event.eventId)

/-- The order has an approved row. -/
def Paid (orderId : String) (w : World Call) : Prop :=
  ∃ r ∈ w.processed.rows, r.orderId = orderId ∧ r.outcome = .approved

def SameKey : Key → World Call → World Call → Prop
  | .order o, w, w' => chargeCount o w'.trace = chargeCount o w.trace ∧ (Paid o w' ↔ Paid o w)
  | .event e, w, w' => ∀ r, r.inboundEventId = e → (r ∈ w'.processed.rows ↔ r ∈ w.processed.rows)

/-- No order is charged twice; a charged one has its approved row once its
handling is over. -/
def orderOwnership : Pool.Ownership (World Call) Call Key where
  owns := Call.holds
  uses := Call.holds
  same := SameKey
  le _ _ := True
  safe w := ∀ o, chargeCount o w.trace ≤ 1
  rest k w := ∀ o, k = .order o → chargeCount o w.trace = 0 ∨ Paid o w
  uses_of_owns _ _ h := h
  same_refl k w := by
    cases k with
    | order o => exact ⟨rfl, Iff.rfl⟩
    | event e => exact fun _ _ => Iff.rfl
  same_trans k u v w h h' := by
    cases k with
    | order o => exact ⟨h'.1.trans h.1, h'.2.trans h.2⟩
    | event e => exact fun r hr => (h' r hr).trans (h r hr)
  le_refl _ := trivial
  le_trans _ _ _ _ _ := trivial
  rest_stable k w w' h _ hrest := by
    rintro o rfl
    obtain ⟨hcount, hpaid⟩ := h
    rw [hcount, hpaid]
    exact hrest o rfl

abbrev orderContract (c : Call) : Contract (World Call) Op Op.Resp :=
  orderOwnership.contract consumers (fun _ _ => True) (fun _ _ => False) c

/-- What the handling of an event knows of its order. -/
def ChargePhase (event : OrderCreatedEvent) : Phase → World Call → Prop
  | .opened, w | .closed, w =>
    chargeCount event.payload.orderId w.trace = 0 ∨ Paid event.payload.orderId w
  | .unseen, w | .skipping _, w =>
    (∀ r ∈ w.processed.rows, r.inboundEventId ≠ event.eventId) ∧
      (chargeCount event.payload.orderId w.trace = 0 ∨ Paid event.payload.orderId w)
  | .cleared, w | .charging, w | .announced .failed, w | .announced .skippedDuplicateOrder, w =>
    (∀ r ∈ w.processed.rows, r.inboundEventId ≠ event.eventId) ∧
      chargeCount event.payload.orderId w.trace = 0
  | .announced .approved, w => ∀ r ∈ w.processed.rows, r.inboundEventId ≠ event.eventId
  | .failed, w => chargeCount event.payload.orderId w.trace = 0

variable {c : Call} {event : OrderCreatedEvent} {w w' : World Call} {op : Op}

theorem ChargePhase.stable {ph : Phase} (h : ChargePhase event ph w)
    (horder : SameKey (.order event.payload.orderId) w w')
    (hid : SameKey (.event event.eventId) w w') : ChargePhase event ph w' := by
  obtain ⟨hcount, hpaid⟩ := horder
  have hrows : (∀ r ∈ w.processed.rows, r.inboundEventId ≠ event.eventId) →
      ∀ r ∈ w'.processed.rows, r.inboundEventId ≠ event.eventId := fun hno r hr hk =>
    hno r ((hid r hk).mp hr) hk
  cases ph with
  | opened | closed =>
    rw [ChargePhase, hcount, hpaid]
    exact h
  | unseen | skipping _ =>
    rw [ChargePhase, hcount, hpaid]
    exact ⟨hrows h.1, h.2⟩
  | cleared | charging =>
    rw [ChargePhase, hcount]
    exact ⟨hrows h.1, h.2⟩
  | announced outcome =>
    cases outcome with
    | approved => exact hrows h
    | failed | skippedDuplicateOrder =>
      rw [ChargePhase, hcount]
      exact ⟨hrows h.1, h.2⟩
  | failed =>
    rw [ChargePhase, hcount]
    exact h

/-- An operation within the keys of its call: it charges its own order only, and
saves a row under the call's own event, which has none yet. -/
structure Within (event : OrderCreatedEvent) (w : World Call) (op : Op) : Prop where
  charges : ∀ o, o ≠ event.payload.orderId → charges o op = false
  row : ∀ row, op = .saveProcessed row → row.inboundEventId = event.eventId ∧
    row.orderId = event.payload.orderId ∧ ∀ r ∈ w.processed.rows, r.inboundEventId ≠ event.eventId

theorem chargeCount_exec (o : String) : chargeCount o (w.exec c op).2.trace =
    chargeCount o w.trace + if charges o op then 1 else 0 :=
  chargeCount_append o w.trace c op

theorem paid_exec {o : String} (hwithin : Within event w op) :
    Paid o (w.exec c op).2 ↔ Paid o w ∨
      ∃ row, op = .saveProcessed row ∧ row.outcome = .approved ∧ row.orderId = o := by
  by_cases hop : ∃ row, op = .saveProcessed row
  · obtain ⟨row, rfl⟩ := hop
    obtain ⟨hid, -, hnew⟩ := hwithin.row row rfl
    have hmem := rows_save_new (fun r hr => hid ▸ hnew r hr)
    rw [World.exec_saveProcessed]
    constructor
    · rintro ⟨r, hr, ho, happ⟩
      rcases (hmem r).mp hr with rfl | hold
      · exact .inr ⟨r, rfl, happ, ho⟩
      · exact .inl ⟨r, hold, ho, happ⟩
    · intro h
      rcases h with ⟨r, hr, hspec⟩ | ⟨row', heq, happ, ho⟩
      · exact ⟨r, (hmem r).mpr (.inr hr), hspec⟩
      · cases heq
        exact ⟨row, (hmem row).mpr (.inl rfl), ho, happ⟩
  · have hrows : (w.exec c op).2.processed = w.processed :=
      World.exec_processed c w fun row h => hop ⟨row, h⟩
    rw [Paid, hrows]
    constructor
    · exact .inl
    · intro h
      rcases h with h | ⟨row, heq, -⟩
      · exact h
      · exact absurd ⟨row, heq⟩ hop

theorem sameOrder_exec {o : String} (hwithin : Within event w op)
    (hne : o ≠ event.payload.orderId) : SameKey (.order o) w (w.exec c op).2 := by
  refine ⟨?_, ?_⟩
  · rw [chargeCount_exec, hwithin.charges o hne]
    rfl
  · rw [paid_exec hwithin, or_iff_left]
    rintro ⟨row, heq, -, horder⟩
    exact hne (horder.symm.trans (hwithin.row row heq).2.1)

theorem sameEventRows_exec {e : String} (hwithin : Within event w op) (hne : e ≠ event.eventId) :
    SameKey (.event e) w (w.exec c op).2 := by
  intro r hr
  by_cases hop : ∃ row, op = .saveProcessed row
  · obtain ⟨row, rfl⟩ := hop
    obtain ⟨hid, -, -⟩ := hwithin.row row rfl
    have hrow : r ≠ row := by
      rintro rfl
      exact hne (hr.symm.trans hid)
    rw [World.exec_saveProcessed, Table.mem_save]
    simp [hrow, hr, hid, hne]
  · rw [World.exec_processed c w fun row h => hop ⟨row, h⟩]

/-- What an operation has to show: its own order is charged once at most. -/
theorem step_order {ph : Phase} (hevent : c.event? = some event)
    (hsafe : ∀ o, chargeCount o w.trace ≤ 1) (hwithin : Within event w op)
    (hown : chargeCount event.payload.orderId (w.exec c op).2.trace ≤ 1)
    (hph : ChargePhase event ph (w.exec c op).2) :
    (orderContract c).guar w (w.exec c op).2 ∧
      (∀ o, chargeCount o (w.exec c op).2.trace ≤ 1) ∧ ChargePhase event ph (w.exec c op).2 := by
  have hsafe' : ∀ o, chargeCount o (w.exec c op).2.trace ≤ 1 := by
    intro o
    by_cases ho : o = event.payload.orderId
    · exact ho ▸ hown
    · have hsame := (sameOrder_exec (c := c) hwithin ho).1
      rw [hsame]
      exact hsafe o
  refine ⟨⟨trivial, fun k hk => ?_, hsafe', fun k huse hnot => absurd huse hnot⟩, hsafe', hph⟩
  cases k with
  | order o => exact sameOrder_exec hwithin fun ho => hk ⟨event, hevent, .inl (by rw [ho])⟩
  | event e => exact sameEventRows_exec hwithin fun he => hk ⟨event, hevent, .inr (by rw [he])⟩

section Outlines

variable (hevent : c.event? = some event)

include hevent

/-- A record on another topic, or an announcement that charges nobody. -/
theorem emit_free {ph : Phase} {record : KafkaRecord}
    (hfree : ∀ o, charges o (.emit record) = false) (hsafe : ∀ o, chargeCount o w.trace ≤ 1)
    (hph : chargeCount event.payload.orderId (w.exec c (.emit record)).2.trace =
        chargeCount event.payload.orderId w.trace →
      (w.exec c (.emit record)).2.processed = w.processed →
      ChargePhase event ph (w.exec c (.emit record)).2) :
    (orderContract c).guar w (w.exec c (.emit record)).2 ∧
      (∀ o, chargeCount o (w.exec c (.emit record)).2.trace ≤ 1) ∧
      ChargePhase event ph (w.exec c (.emit record)).2 := by
  have hcount : chargeCount event.payload.orderId (w.exec c (.emit record)).2.trace =
      chargeCount event.payload.orderId w.trace := by
    rw [chargeCount_exec, hfree]
    rfl
  refine step_order hevent hsafe ⟨fun o _ => hfree o, fun _ => nofun⟩ ?_ (hph hcount rfl)
  rw [hcount]
  exact hsafe _

theorem save_order {row : ProcessedEventEntity} (hid : row.inboundEventId = event.eventId)
    (horder : row.orderId = event.payload.orderId)
    (hnew : ∀ r ∈ w.processed.rows, r.inboundEventId ≠ event.eventId)
    (hsafe : ∀ o, chargeCount o w.trace ≤ 1)
    (hrest : chargeCount event.payload.orderId w.trace = 0 ∨ Paid event.payload.orderId w ∨
      row.outcome = .approved) :
    (orderContract c).guar w (w.exec c (.saveProcessed row)).2 ∧
      (∀ o, chargeCount o (w.exec c (.saveProcessed row)).2.trace ≤ 1) ∧
      ChargePhase event .closed (w.exec c (.saveProcessed row)).2 := by
  have hwithin : Within event w (.saveProcessed row) := by
    refine ⟨fun _ _ => rfl, fun row' heq => ?_⟩
    cases heq
    exact ⟨hid, horder, hnew⟩
  have hcount : chargeCount event.payload.orderId (w.exec c (.saveProcessed row)).2.trace =
      chargeCount event.payload.orderId w.trace := by
    rw [chargeCount_exec]
    rfl
  refine step_order hevent hsafe hwithin ?_ ?_
  · rw [hcount]
    exact hsafe _
  · rw [ChargePhase, hcount, paid_exec hwithin]
    rcases hrest with hzero | hpaid | happ
    · exact .inl hzero
    · exact .inr (.inl hpaid)
    · exact .inr (.inr ⟨row, rfl, happ, horder⟩)

omit hevent in
theorem not_charges_of_announces {t : EventType} {paymentId : String} {record : KafkaRecord}
    (h : Announces t paymentId event.payload.orderId record) (ht : t ≠ .paymentProcessed)
    (o : String) : charges o (.emit record) = false := by
  rw [Bool.eq_false_iff, ne_eq, charges_of_announces h]
  exact fun hc => ht hc.1

/-- What goes back to `order.events` or to its companion charges nobody. -/
theorem emit_back {record : KafkaRecord}
    (htopic : record.topic ∈ [orderEventsTopic, toDlqTopic orderEventsTopic])
    (hsafe : ∀ o, chargeCount o w.trace ≤ 1)
    (hzero : chargeCount event.payload.orderId w.trace = 0) :
    (orderContract c).guar w (w.exec c (.emit record)).2 ∧
      (∀ o, chargeCount o (w.exec c (.emit record)).2.trace ≤ 1) ∧
      ChargePhase event .closed (w.exec c (.emit record)).2 := by
  have hne : record.topic ≠ paymentEventsTopic := by
    intro heq
    rw [heq] at htopic
    revert htopic
    decide
  exact emit_free hevent (fun o => not_charges_of_topic hne) hsafe fun hcount _ =>
    .inl (hcount.trans hzero)

theorem outline_order (paymentId : String) :
    Outline c (orderContract c) event paymentId
      fun ph w => (∀ o, chargeCount o w.trace ≤ 1) ∧ ChargePhase event ph w where
  exec _ _ := rfl
  stable ph w w' h hr := ⟨hr.ok.safe, h.2.stable (hr.own _ ⟨event, hevent, .inl rfl⟩)
    (hr.own _ ⟨event, hevent, .inr rfl⟩)⟩
  wait ph op w hq h := by
    obtain ⟨hemit, hsave, -⟩ := not_write_of_quiet hq
    have hfree : ∀ o, charges o op = false := by
      intro o
      cases op with
      | emit record => exact absurd rfl (hemit record)
      | _ => rfl
    have hwithin : Within event w op := ⟨fun o _ => hfree o, fun row heq => absurd heq (hsave row)⟩
    have hcount : ∀ o, chargeCount o (w.exec c op).2.trace = chargeCount o w.trace := by
      intro o
      rw [chargeCount_exec, hfree]
      rfl
    have hrows : (w.exec c op).2.processed = w.processed := World.exec_processed c w hsave
    have hpaid : Paid event.payload.orderId (w.exec c op).2 ↔ Paid event.payload.orderId w := by
      rw [Paid, hrows, Paid]
    refine step_order hevent h.1 hwithin (by rw [hcount]; exact h.1 _) ?_
    exact h.2.stable ⟨hcount _, hpaid⟩ fun r _ => by rw [hrows]
  unseen w h hfind := ⟨h.1, Table.find?_eq_none.mp hfind, h.2⟩
  cleared w h hclear := by
    refine ⟨h.1, h.2.1, ?_⟩
    rcases h.2.2 with hzero | ⟨r, hr, ho, happ⟩
    · exact hzero
    · exact absurd happ (hclear r hr ho)
  skipping w r h _ _ _ := h
  skip w r h := save_order hevent rfl rfl h.2.1 h.1 (h.2.2.imp_right .inl)
  charge w record hrecord h := by
    refine emit_free hevent (not_charges_of_announces hrecord (by decide)) h.1
      fun hcount hrows => ?_
    rw [ChargePhase, hrows, hcount]
    exact h.2
  approve w record hrecord h := by
    obtain ⟨hsafe, hnew, hzero⟩ := h
    have hcount : chargeCount event.payload.orderId (w.exec c (.emit record)).2.trace = 1 := by
      rw [chargeCount_exec, hzero, if_pos ((charges_of_announces hrecord).mpr ⟨rfl, rfl⟩)]
    refine step_order hevent hsafe ⟨fun o ho => ?_, fun _ => nofun⟩ hcount.le hnew
    rw [Bool.eq_false_iff, ne_eq, charges_of_announces hrecord]
    exact fun hc => ho hc.2
  decline w record hrecord h := by
    refine emit_free hevent (not_charges_of_announces hrecord (by decide)) h.1
      fun hcount hrows => ?_
    rw [ChargePhase, hrows, hcount]
    exact h.2
  record w outcome hne h := by
    cases outcome with
    | approved => exact save_order hevent rfl rfl h.2 h.1 (.inr (.inr rfl))
    | failed => exact save_order hevent rfl rfl h.2.1 h.1 (.inl h.2.2)
    | skippedDuplicateOrder => exact absurd rfl hne
  unrecorded w outcome _ _ hrej := absurd hrej id
  fail w h := ⟨h.elim And.left And.left, h.elim (fun h => h.2.2) fun h => h.2.2⟩
  retry w record htopic h := emit_back hevent (by simp [htopic]) h.1 h.2
  bury w record htopic h := emit_back hevent (by simp [htopic]) h.1 h.2
  leave w h := by
    rcases h with ⟨hsafe, h⟩ | ⟨hsafe, h⟩ | ⟨r, hsafe, h⟩ | ⟨hsafe, h⟩ | ⟨hsafe, h⟩
    · exact ⟨hsafe, h⟩
    · exact ⟨hsafe, h.2⟩
    · exact ⟨hsafe, h.2⟩
    · exact ⟨hsafe, .inl h.2⟩
    · exact ⟨hsafe, .inl h⟩

end Outlines

end Ownership

section Runs

variable {ι : Type} [DecidableEq ι]

/-- Runs of replicas in which no operation fails and nothing is cut off. -/
def Smooth (_ : Pool ι (World Call) Call Op Op.Resp JsThrow JsVal) (l : PoolAct ι Call Op JsThrow) :
    Prop :=
  (∀ i op e, l ≠ .rejected i op e) ∧ ∀ i, l ≠ .crash i

/-- Besides, a replica takes a message only while no other one is handling a message
of the same order or with the same event id. -/
structure Exclusive (s : Pool ι (World Call) Call Op Op.Resp JsThrow JsVal)
    (l : PoolAct ι Call Op JsThrow) : Prop where
  smooth : Smooth s l
  alone : ∀ i c, l = .start i c → ∀ j job, s.jobs j = some job → ∀ event event',
    c.event? = some event → job.1.event? = some event' →
    event.eventId ≠ event'.eventId ∧ event.payload.orderId ≠ event'.payload.orderId

omit [DecidableEq ι] in
theorem sound_order : orderOwnership.Sound consumers (fun _ _ => True) (fun _ _ => False)
    (@Exclusive ι) where
  env w w' hsafe henv := by
    obtain ⟨records, rfl⟩ := henv
    refine ⟨trivial, fun k => ?_, hsafe⟩
    cases k with
    | order o => exact ⟨rfl, Iff.rfl⟩
    | event e => exact fun _ _ => Iff.rfl
  start s i c hcond _ hok hrest := by
    refine along_handleOrderEvents
      (fun event ph w => (∀ o, chargeCount o w.trace ≤ 1) ∧ ChargePhase event ph w)
      (fun hnone _ k howns => ?_) fun event hevent => ?_
    · obtain ⟨event, hevent, -⟩ := howns
      rw [hnone] at hevent
      cases hevent
    · have hopened := hrest (.order event.payload.orderId) ⟨event, hevent, .inl rfl⟩ _ rfl
      refine ⟨⟨hok.safe, hopened⟩, outline_order hevent _, ?_⟩
      rintro x w' hclosed k ⟨event', hevent', hk⟩ o rfl
      obtain rfl := Option.some.inj (hevent.symm.trans hevent')
      rcases hk with hk | hk
      · cases hk
        exact hclosed.2
      · cases hk
  free s i c hcond _ j job hj k := by
    have hno : c.holds k → ¬ job.1.holds k := by
      rintro ⟨event, hevent, hk⟩ ⟨event', hevent', hk'⟩
      obtain ⟨hid, horder⟩ := hcond.alone i c rfl j job hj event event' hevent hevent'
      rcases hk with rfl | rfl
      · rcases hk' with hk' | hk'
        · exact horder (Key.order.inj hk')
        · cases hk'
      · rcases hk' with hk' | hk'
        · cases hk'
        · exact hid (Key.event.inj hk')
    exact ⟨hno, hno⟩
  settle _ _ _ _ _ _ _ := trivial
  reject s i c p op e hcond _ := hcond.smooth.1 i op e rfl
  crash s i c p hcond _ := absurd rfl (hcond.smooth.2 i)

variable {ls : List (PoolAct ι Call Op JsThrow)}
  {s : Pool ι (World Call) Call Op Op.Resp JsThrow JsVal}

/-- Replicas that do not handle one order, or one event, at the same time charge
every order once at most. -/
theorem one_charge_of_exclusive
    (hrun : RunWhere (Pool.Step consumers) Exclusive (Pool.idle World.empty) ls s)
    (orderId : String) : chargeCount orderId s.world.trace ≤ 1 := by
  have hsafe : ∀ o, chargeCount o (World.empty : World Call).trace ≤ 1 := fun o => Nat.zero_le 1
  exact sound_order.safe hrun hsafe (fun _ _ _ => .inl rfl) orderId

/-- One replica of two that handles a message alone charges its order once. -/
theorem one_charge_alone : ∃ ls,
    ∃ s : Pool Bool (World Call) Call Op Op.Resp JsThrow JsVal,
      RunWhere (Pool.Step consumers) Exclusive (Pool.idle World.empty) ls s ∧
      chargeCount "o-1" s.world.trace = 1 ∧ chargeCount "o-1" s.world.trace ≤ 1 := by
  have hinner : ∀ (t : Pool Bool (World Call) Call Op Op.Resp JsThrow JsVal) op,
      Exclusive t (.settled true op) := fun t op =>
    ⟨⟨fun _ _ _ => nofun, fun _ => nofun⟩, fun _ _ => nofun⟩
  have hfinish : ∀ t : Pool Bool (World Call) Call Op Op.Resp JsThrow JsVal,
      Exclusive t (.finish true) := fun t => ⟨⟨fun _ _ _ => nofun, fun _ => nofun⟩, fun _ _ => nofun⟩
  have hstart : Exclusive (Pool.idle World.empty) (.start true (delivery .second "o-1")) :=
    ⟨⟨fun _ _ _ => nofun, fun _ => nofun⟩, fun _ _ _ _ _ => nofun⟩
  obtain ⟨ls, hrun⟩ := handled_run true _ (fun _ => none) rfl hstart hinner (fun _ _ _ => nofun)
    hfinish
  have hone : chargeCount "o-1"
      (handled (delivery .second "o-1") (fun _ => none) World.empty).trace = 1 := by decide +kernel
  exact ⟨ls, _, hrun, hone, one_charge_of_exclusive hrun _⟩

/-- A handling after its two finds. -/
def checked (c : Call) (w : World Call) : Promise JsVal × World Call :=
  (consumers.body c).advance (consumers.exec c) 2 w

/-- Two replicas check one after the other, then both go on to their end. -/
def raced (c : Call) : World Call :=
  let first := checked c World.empty
  let second := checked c first.2
  let charged := (first.1.run (consumers.settle c fun _ => none) second.2).2
  (second.1.run (consumers.settle c fun _ => none) charged).2

/-- Two replicas check one after the other, and then the first goes on to its end; what the
second has still to do. -/
def overtaken (c d : Call) : Promise JsVal × World Call :=
  let first := checked c World.empty
  let second := checked d first.2
  (second.1, (first.1.run (consumers.settle c fun _ => none) second.2).2)

theorem overtaken_run (c d : Call) : ∃ ls ms,
    ∃ s : Pool Bool (World Call) Call Op Op.Resp JsThrow JsVal,
      RunWhere (Pool.Step consumers) Smooth (Pool.idle World.empty) ls s ∧
      s.world = (overtaken c d).2 ∧ RunWhere (Pool.Step consumers) Smooth s ms
        ⟨((overtaken c d).1.run (consumers.settle d fun _ => none) (overtaken c d).2).2,
          fun _ => none⟩ := by
  have hinner : ∀ i (t : Pool Bool (World Call) Call Op Op.Resp JsThrow JsVal) op,
      Smooth t (.settled i op) := fun i t op => ⟨fun _ _ _ => nofun, fun _ => nofun⟩
  have hfinish : ∀ i (t : Pool Bool (World Call) Call Op Op.Resp JsThrow JsVal),
      Smooth t (.finish i) := fun i t => ⟨fun _ _ _ => nofun, fun _ => nofun⟩
  have hstart : ∀ i (t : Pool Bool (World Call) Call Op Op.Resp JsThrow JsVal) c,
      Smooth t (.start i c) := fun i t c => ⟨fun _ _ _ => nofun, fun _ => nofun⟩
  let first := checked c World.empty
  let second := checked d first.2
  let s₀ : Pool Bool (World Call) Call Op Op.Resp JsThrow JsVal := Pool.idle World.empty
  let s₁ := s₀.put true c (consumers.body c) World.empty
  let s₂ := s₁.put false d (consumers.body d) World.empty
  let s₃ := s₂.put true c first.1 first.2
  let s₄ := s₃.put false d second.1 second.2
  have hopen : RunWhere (Pool.Step consumers) Smooth s₀ [.start true c] s₁ :=
    .single (hstart true s₀ c) (.start rfl trivial)
  have hjoin : RunWhere (Pool.Step consumers) Smooth s₁ [.start false d] s₂ :=
    .single (hstart false s₁ d) (.start rfl trivial)
  have hfirst : s₂.jobs true = some (c, consumers.body c) := rfl
  obtain ⟨l₃, hcheck⟩ := Pool.advance_run consumers (hinner true) 2 hfirst
  have hsecond : s₃.jobs false = some (d, consumers.body d) := rfl
  obtain ⟨l₄, hcheck'⟩ := Pool.advance_run consumers (hinner false) 2 hsecond
  have hleft : s₄.jobs true = some (c, first.1) := rfl
  obtain ⟨l₅, hend⟩ := Pool.finish_run consumers (fun _ => none) (fun _ _ _ => trivial)
    (fun t _ op _ _ => hinner true t op) (fun _ _ _ => nofun) (hfinish true) hleft
  let s₅ : Pool Bool (World Call) Call Op Op.Resp JsThrow JsVal :=
    ⟨(first.1.run (consumers.settle c fun _ => none) second.2).2,
      Function.update s₄.jobs true none⟩
  have hright : s₅.jobs false = some (d, second.1) := rfl
  obtain ⟨l₆, hend'⟩ := Pool.finish_run consumers (fun _ => none) (fun _ _ _ => trivial)
    (fun t _ op _ _ => hinner false t op) (fun _ _ _ => nofun) (hfinish false) hright
  have hnobody : Function.update s₅.jobs false none = fun _ => none := by
    funext i
    cases i <;> rfl
  rw [hnobody] at hend'
  exact ⟨_, l₆, s₅, (((hopen.trans hjoin).trans hcheck).trans hcheck').trans hend, rfl, hend'⟩

theorem raced_run (c : Call) : ∃ ls,
    RunWhere (Pool.Step consumers) Smooth (Pool.idle World.empty) ls
      (⟨raced c, fun _ => none⟩ : Pool Bool (World Call) Call Op Op.Resp JsThrow JsVal) := by
  obtain ⟨ls, ms, s, hfirst, -, hsecond⟩ := overtaken_run c c
  exact ⟨ls ++ ms, hfirst.trans hsecond⟩

/-- One message on two replicas, as after a rebalance: both pass the check before
either records, and both charge. -/
theorem raced_two_charges : ¬ ∀ ls,
    ∀ s : Pool Bool (World Call) Call Op Op.Resp JsThrow JsVal,
      RunWhere (Pool.Step consumers) Smooth (Pool.idle World.empty) ls s →
      ∀ orderId, chargeCount orderId s.world.trace ≤ 1 := by
  intro hall
  obtain ⟨ls, hrun⟩ := raced_run (delivery .second "o-1")
  have hle := hall ls _ hrun "o-1"
  have htwo : chargeCount "o-1" (raced (delivery .second "o-1")).trace = 2 := by decide +kernel
  change chargeCount "o-1" (raced (delivery .second "o-1")).trace ≤ 1 at hle
  omega

end Runs

end EventFlow.Payments
