import EventFlow.Saga.Identity
import EventFlow.Saga.Milestones

namespace EventFlow.Saga

open Js Shared Services Async Retry

section Statement

/-- The order that an envelope names. -/
def namedOrder (envelope : JsVal) : Option String :=
  match (envelope.get "payload").get "orderId" with
  | .str orderId => some orderId
  | _ => none

/-- The order that a call is about; a delivery that its consumer does not take is about none. -/
def orderOf : Author → Option String
  | .cancel orderId _ => some orderId
  | .service (.createOrder proc _) => some (proc.uuid 0).val
  | .service (.consume h _ _ payload) =>
    match h.read payload with
    | .ok (.accepted envelope) => namedOrder envelope
    | _ => none

/-- An operation that writes to an order, and to no other. -/
inductive Touches (orderId : String) : Op → Prop
  | save {row} : row.id = orderId → Touches orderId (.saveOrder row)
  | update {status} : Touches orderId (.updateOrder (byId orderId) status)
  | record {row} : row.orderId = orderId → Touches orderId (.saveProcessed row)
  | emit {r} : r.key = .str orderId → Touches orderId (.emit r)

/-- All that there is of an order in two states: its row, its payments, and its records, but
for how often each of them is stored. -/
structure SameOrder (orderId : String) (w w' : World Author) : Prop where
  row : w'.orders.find? orderId = w.orders.find? orderId
  payments : ∀ id row, row.orderId = orderId →
    (w'.processed.find? id = some row ↔ w.processed.find? id = some row)
  records : ∀ r, r.key = .str orderId → (r ∈ w'.log ↔ r ∈ w.log)

end Statement

section Turns

variable {w w' w'' : World Author} {a : Author} {done : List Op} {op : Op} {orderId other : String}
  {h : RetriedHandler} {proc : Process} {headers : List (String × RawHeader)}
  {payload : KafkaValue} {v : JsVal}

theorem orderOf_consume (hread : h.read payload = .ok (.accepted v))
    (horder : (v.get "payload").get "orderId" = .str orderId) :
    orderOf (.service (.consume h proc headers payload)) = some orderId := by
  simp only [orderOf, hread, namedOrder, horder]

theorem touches_emit {r : KafkaRecord} (hlog : Ledger w.log) (hturn : Turn w a done (.emit r)) :
    ∃ orderId, orderOf a = some orderId ∧ r.key = .str orderId := by
  cases origin_of_turn hlog hturn with
  | ordered _ heq => exact ⟨_, rfl, congrArg KafkaRecord.key heq⟩
  | cancelled _ heq => exact ⟨_, rfl, congrArg KafkaRecord.key heq⟩
  | announced htaken hann hkey heq =>
    subst heq
    exact ⟨_, orderOf_consume htaken.read htaken.named,
      (routed_announced hann htaken.named hkey).key⟩
  | copied htaken _ hkey _ =>
    exact ⟨_, orderOf_consume htaken.read htaken.named, hkey.trans htaken.routed.key⟩
  | buried htaken hburies hfailure _ heq =>
    subst heq
    have hwraps := wraps_dlqRecord htaken.routed htaken.value htaken.json hburies hfailure
    exact ⟨_, orderOf_consume htaken.read htaken.named,
      hwraps.key.trans htaken.routed.correlationId⟩

/-- Whatever a call writes, it writes to its own order. -/
theorem touches_of_turn (hlog : Ledger w.log) (hturn : Turn w a done op) :
    quiet op = true ∨ ∃ orderId, orderOf a = some orderId ∧ Touches orderId op := by
  by_cases hemit : ∃ r, op = .emit r
  · obtain ⟨r, rfl⟩ := hemit
    obtain ⟨orderId, habout, hkey⟩ := touches_emit hlog hturn
    exact .inr ⟨orderId, habout, .emit hkey⟩
  obtain ⟨hready, hrecorded, hwrote⟩ := hturn
  cases a with
  | cancel _ _ => exact absurd ⟨_, hwrote⟩ hemit
  | service c =>
    cases c with
    | createOrder proc dto =>
      cases hwrote with
      | wait hquiet => exact .inl hquiet
      | save hrow _ =>
        refine .inr ⟨_, rfl, .save ?_⟩
        simp only [List.mem_cons, List.not_mem_nil, or_false] at hrow
        rcases hrow with rfl | rfl | rfl <;> rfl
      | order _ => exact absurd ⟨_, rfl⟩ hemit
    | consume h proc headers payload =>
      obtain ⟨r₀, hr₀, htopic, rfl, -⟩ := hready
      have htaken : ∀ {v}, h.read r₀.value = .ok (.accepted v) →
          ∃ orderId, (v.get "payload").get "orderId" = .str orderId := by
        intro v hread
        obtain ⟨orderId, hrouted, hvalue, -⟩ := hlog.received hr₀ htopic hread
        have horder := hrouted.order
        rw [envelopeOf_value hvalue] at horder
        exact ⟨orderId, horder⟩
      cases hwrote with
      | wait hquiet => exact .inl hquiet
      | enact hread hop =>
        obtain ⟨orderId, horder⟩ := htaken hread
        have habout : orderOf (.service (.consume h proc headers r₀.value)) = some orderId :=
          orderOf_consume hread horder
        cases hop with
        | wait hquiet => exact .inl hquiet
        | project _ hcriterion =>
          rw [Drivers.eq_byId hcriterion horder]
          exact .inr ⟨orderId, habout, .update⟩
        | announce _ _ => exact absurd ⟨_, rfl⟩ hemit
        | approve _ _ => exact .inr ⟨orderId, habout, .record (JsVal.asStr_of_eq horder)⟩
        | decline _ _ => exact .inr ⟨orderId, habout, .record (JsVal.asStr_of_eq horder)⟩
      | skip hread =>
        obtain ⟨orderId, horder⟩ := htaken hread
        exact .inr ⟨orderId, orderOf_consume hread horder, .record (JsVal.asStr_of_eq horder)⟩
      | retry _ _ => exact absurd ⟨_, rfl⟩ hemit
      | bury _ _ _ _ => exact absurd ⟨_, rfl⟩ hemit

theorem SameOrder.refl (w : World Author) : SameOrder orderId w w :=
  ⟨rfl, fun _ _ _ => Iff.rfl, fun _ _ => Iff.rfl⟩

theorem SameOrder.trans (h : SameOrder orderId w w') (h' : SameOrder orderId w' w'') :
    SameOrder orderId w w'' :=
  ⟨h'.row.trans h.row,
    fun id row hrow => (h'.payments id row hrow).trans (h.payments id row hrow),
    fun r hr => (h'.records r hr).trans (h.records r hr)⟩

theorem sameOrder_quiet (hquiet : quiet op = true) : SameOrder orderId w (w.exec a op).2 := by
  have hne : ∀ op', quiet op' = false → op ≠ op' := by
    intro op' hloud heq
    rw [heq, hloud] at hquiet
    cases hquiet
  have hlog : (w.exec a op).2.log = w.log := World.exec_log a w fun r => hne _ rfl
  have horders : (w.exec a op).2.orders = w.orders :=
    World.exec_orders a w (fun row => hne _ rfl) fun id status => hne _ rfl
  have hprocessed : (w.exec a op).2.processed = w.processed :=
    World.exec_processed a w fun row => hne _ rfl
  refine ⟨?_, fun id row _ => ?_, fun r _ => ?_⟩
  · rw [horders]
  · rw [hprocessed]
  · rw [hlog]

/-- Under one inbound event there is one order. -/
theorem order_of_inbound {row old : ProcessedEventEntity} (hid : Identifies w.log)
    (hrow : PaymentExplained w row) (hold : PaymentExplained w old)
    (hsame : old.inboundEventId = row.inboundEventId) : old.orderId = row.orderId := by
  obtain ⟨r, hr, hrouted, hevent⟩ := hrow.inbound
  obtain ⟨r', hr', hrouted', hevent'⟩ := hold.inbound
  have hident : provenance.ident r' = provenance.ident r := by
    rw [ident_eq, ident_eq, hevent, hevent', hsame]
  have horder := hrouted'.order
  rw [(hid r' hr' r hr hident).envelope, hrouted.order] at horder
  exact (JsVal.str.inj horder).symm

/-- A write to one order leaves every other as it is. -/
theorem sameOrder_touches (hw : Explained w) (hturn : Turn w a done op) (hid : Identifies w.log)
    (hop : Touches other op) (hne : other ≠ orderId) : SameOrder orderId w (w.exec a op).2 := by
  cases hop with
  | save hrow =>
    refine ⟨?_, fun _ _ _ => Iff.rfl, fun _ _ => Iff.rfl⟩
    rw [World.find?_exec_saveOrder, if_neg]
    intro heq
    exact hne (hrow.symm.trans heq.symm)
  | update =>
    refine ⟨?_, fun id row _ => ?_, fun r _ => ?_⟩
    · rw [World.find?_exec_updateOrder_byId, if_neg hne.symm]
    · rw [World.exec_processed a w fun _ => Op.noConfusion]
    · rw [World.exec_log a w fun _ => Op.noConfusion]
  | @record saved hrow =>
    refine ⟨rfl, fun id row horder => ?_, fun _ _ => Iff.rfl⟩
    rw [World.exec_saveProcessed, Table.find?_save]
    split_ifs with hkey
    · constructor
      · intro heq
        exact absurd (hrow.symm.trans ((congrArg _ (Option.some.inj heq)).trans horder)) hne
      · intro hold
        obtain ⟨-, hname⟩ := Table.find?_eq_some.mp hold
        have hsame := order_of_inbound hid (recorded_of_turn hw.ledger hturn)
          (hw.processed id row hold) (hname.trans hkey)
        exact absurd (hrow.symm.trans (hsame.symm.trans horder)) hne
    · exact Iff.rfl
  | @emit r hkey =>
    refine ⟨rfl, fun _ _ _ => Iff.rfl, fun x hx => ?_⟩
    have hother : x ≠ r := by
      intro heq
      rw [heq, hkey] at hx
      exact hne (JsVal.str.inj hx)
    show x ∈ w.log ++ [r] ↔ x ∈ w.log
    simp [hother]

end Turns

section Frame

/-- From one state to a later one, an order changes only where a call about it has carried out
an operation; an id must stand for one event up to the end. -/
structure Framed (w w' : World Author) : Prop where
  longer : Longer w w'
  frame : ∃ new, w'.trace = w.trace ++ new ∧ ∀ orderId, Identifies w'.log →
    (∀ x ∈ new, orderOf x.1 ≠ some orderId) → SameOrder orderId w w'

variable {w : World Author} {a : Author} {done : List Op} {op : Op} {r : KafkaRecord}

theorem Identifies.mono {log log' : List KafkaRecord} (h : Identifies log') (hle : log <+: log') :
    Identifies log := fun r hr r' hr' => h r (hle.subset hr) r' (hle.subset hr')

theorem Framed.refl (w : World Author) : Framed w w :=
  ⟨Longer.refl w, [], (List.append_nil _).symm, fun _ _ _ => SameOrder.refl w⟩

theorem Framed.trans (w w' w'' : World Author) (h : Framed w w') (h' : Framed w' w'') :
    Framed w w'' := by
  obtain ⟨hle, new, htrace, hsame⟩ := h
  obtain ⟨hle', new', htrace', hsame'⟩ := h'
  refine ⟨Longer.trans _ _ _ hle hle', new ++ new', ?_, fun orderId hid hothers => ?_⟩
  · rw [htrace', htrace, List.append_assoc]
  · have hfirst : SameOrder orderId w w' := hsame orderId (hid.mono hle'.log)
      fun x hx => hothers x (List.mem_append_left _ hx)
    have hsecond : SameOrder orderId w' w'' := hsame' orderId hid
      fun x hx => hothers x (List.mem_append_right _ hx)
    exact hfirst.trans hsecond

theorem framed_again (hr : r ∈ w.log) : Framed w { w with log := w.log ++ [r] } := by
  refine ⟨⟨List.prefix_append _ _, List.prefix_rfl⟩, [], (List.append_nil _).symm,
    fun orderId _ _ => ⟨rfl, fun _ _ _ => Iff.rfl, fun x _ => ?_⟩⟩
  show x ∈ w.log ++ [r] ↔ x ∈ w.log
  constructor
  · intro hx
    rcases List.mem_append.mp hx with hold | hnew
    · exact hold
    · rw [List.mem_singleton.mp hnew]
      exact hr
  · exact fun hx => List.mem_append_left _ hx

theorem framed_turn (hw : Explained w) (hturn : Turn w a done op) : Framed w (w.exec a op).2 := by
  refine ⟨longer_exec, [(a, op)], World.exec_trace a w op, fun orderId hid hothers => ?_⟩
  have hbefore : Identifies w.log := hid.mono longer_exec.log
  rcases touches_of_turn hw.ledger hturn with hquiet | ⟨other, habout, hop⟩
  · exact sameOrder_quiet hquiet
  · apply sameOrder_touches hw hturn hbefore hop
    intro heq
    exact hothers (a, op) List.mem_cons_self (habout.trans (congrArg some heq))

/-- Calls change nothing but their own orders. -/
def framing : Pool.Growth eventFlow fun _ => True where
  le := Framed
  safe := Explained
  allowed w a done op := eventFlow.ready w a ∧ Wrote a done op
  left a op w := Recorded w a op
  le_refl := Framed.refl
  le_trans := Framed.trans
  left_le _ _ _ _ h hle := h.mono hle.longer
  env w w' hw henv := by
    obtain ⟨r, hr, rfl⟩ := henv
    exact ⟨framed_again hr, explained_again hw hr⟩
  start w a _ _ hready :=
    (follows_author a).imp (fun _ _ hop => ⟨hready, hop⟩) fun _ _ h => h
  exec w₀ w a done op hw hle hdone hop := by
    have hturn : Turn w a done op := ⟨ready_mono hop.1 hle.longer, hdone, hop.2⟩
    exact ⟨framed_turn hw hturn, explained_turn hw hturn, recorded_exec⟩

variable {ι : Type} [DecidableEq ι] {ls ms : List (PoolAct ι Author Op JsThrow)}
  {s t : Pool ι (World Author) Author Op Op.Resp JsThrow JsVal}

/-- Orders never interfere: with fresh ids, whatever happens between a state and a later one,
however calls interleave, fail and are delivered again, all that there is of an order stays as
it is unless a call about this order has carried out an operation in between. -/
theorem orders_keep_apart
    (hrun : RunWhere (Pool.Step eventFlow) FreshIds (Pool.idle World.empty) ls s)
    (hmore : RunWhere (Pool.Step eventFlow) FreshIds s ms t) :
    ∀ orderId, (∀ x ∈ t.world.trace.drop s.world.trace.length, orderOf x.1 ≠ some orderId) →
      SameOrder orderId s.world t.world := by
  have hany : ∀ (s : Pool ι (World Author) Author Op Op.Resp JsThrow JsVal) i a,
      FreshIds s (.start i a) → True := fun _ _ _ _ => trivial
  have hempty : Explained World.empty := ⟨.nil, fun _ _ => nofun, fun _ _ => nofun⟩
  have hstart : Ledger (World.empty : World Author).log ∧
      Identifies (World.empty : World Author).log :=
    ⟨.nil, fun r hr => absurd hr List.not_mem_nil⟩
  obtain ⟨-, hid⟩ := sound_identity.safe (hrun.trans hmore) hstart fun _ => trivial
  obtain ⟨-, new, htrace, hsame⟩ := framing.later_of_run hany hrun hmore hempty
  intro orderId hothers
  rw [htrace, List.drop_left] at hothers
  exact hsame orderId hid hothers

/-- The order of another customer. -/
def nextOrder : Author := .service (.createOrder (drawing "b") {
  customerId := "c-2"
  items := [{ productId := "sku-2", quantity := 1, unitPrice := 7 }]
  currency := none })

/-- A second order leaves the first as it was. -/
theorem orders_keep_apart_created : ∃ ls ms,
    ∃ s t : Pool Unit (World Author) Author Op Op.Resp JsThrow JsVal,
      RunWhere (Pool.Step eventFlow) FreshIds (Pool.idle World.empty) ls s ∧
      RunWhere (Pool.Step eventFlow) FreshIds s ms t ∧
      s.world.orders.rows.length = 1 ∧ t.world.orders.rows.length = 2 ∧
      t.world.log.length = 2 ∧ SameOrder (hexUuid "a" 0).val s.world t.world := by
  let w : World Author := eventFlow.called sampleOrder World.empty
  obtain ⟨ls, hrun⟩ := flowed_run (a := sampleOrder) trivial fresh_sampleOrder
  obtain ⟨ms, hmore⟩ := flowed_run (a := nextOrder) trivial (fresh_after_sampleOrder rfl)
  have hsizes : w.orders.rows.length = 1 ∧ (eventFlow.called nextOrder w).orders.rows.length = 2 ∧
      (eventFlow.called nextOrder w).log.length = 2 := by decide +kernel
  have hothers : ∀ o ∈ ((eventFlow.called nextOrder w).trace.drop w.trace.length).map
      fun x => orderOf x.1,
      o ≠ some (hexUuid "a" 0).val := by decide +kernel
  exact ⟨ls, ms, _, _, hrun, hmore, hsizes.1, hsizes.2.1, hsizes.2.2,
    orders_keep_apart hrun hmore _ fun x hx => hothers _ (List.mem_map.mpr ⟨x, hx, rfl⟩)⟩

end Frame

end EventFlow.Saga
