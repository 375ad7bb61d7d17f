import EventFlow.Payments.Handling

namespace EventFlow.Payments

open Js Shared Services Services.Payment Async

section Store

/-- A row whose payment was requested and then announced by the call that wrote it. -/
def Backed (t : EventType) (row : ProcessedEventEntity) (trace : List (Call × Op)) : Prop :=
  ∃ c paymentId requested outcome, row.paymentId = some paymentId ∧
    Announces .paymentRequested paymentId row.orderId requested ∧
    Announces t paymentId row.orderId outcome ∧
    [(c, Op.emit requested), (c, Op.emit outcome)].Sublist trace

/-- What the processed-events table and the published records always satisfy. -/
structure StoreOk (w : World Call) : Prop where
  unique : ∀ r ∈ w.processed.rows, ∀ r' ∈ w.processed.rows, r.outcome = .approved →
    r'.outcome = .approved → r.orderId = r'.orderId → r = r'
  approved : ∀ r ∈ w.processed.rows, r.outcome = .approved → Backed .paymentProcessed r w.trace
  failed : ∀ r ∈ w.processed.rows, r.outcome = .failed → Backed .paymentFailed r w.trace
  skipped : ∀ r ∈ w.processed.rows, r.outcome = .skippedDuplicateOrder →
    ∃ r' ∈ w.processed.rows, r'.outcome = .approved ∧ r'.orderId = r.orderId ∧
      r'.paymentId = r.paymentId

theorem Backed.mono {t : EventType} {row : ProcessedEventEntity} {trace trace' : List (Call × Op)}
    (h : Backed t row trace) (hle : trace <+: trace') : Backed t row trace' := by
  obtain ⟨c, paymentId, requested, outcome, hid, hreq, hout, hsub⟩ := h
  exact ⟨c, paymentId, requested, outcome, hid, hreq, hout, hsub.trans hle.sublist⟩

/-- The table is as before, or holds one more row under a new key. -/
theorem StoreOk.of_same {w w' : World Call} (h : StoreOk w) (hrows : w'.processed = w.processed)
    (hle : w.trace <+: w'.trace) : StoreOk w' := by
  obtain ⟨hunique, happroved, hfailed, hskipped⟩ := h
  refine ⟨?_, ?_, ?_, ?_⟩
  · rw [hrows]
    exact hunique
  · rw [hrows]
    exact fun r hr ho => (happroved r hr ho).mono hle
  · rw [hrows]
    exact fun r hr ho => (hfailed r hr ho).mono hle
  · rw [hrows]
    exact hskipped

theorem rows_save_new {t : ProcessedEventsTable} {row : ProcessedEventEntity}
    (hnew : ∀ r ∈ t.rows, r.inboundEventId ≠ row.inboundEventId) (r : ProcessedEventEntity) :
    r ∈ (t.save row).rows ↔ r = row ∨ r ∈ t.rows := by
  rw [Table.mem_save]
  constructor
  · intro h
    rcases h with h | h
    · exact .inl h
    · exact .inr h.1
  · intro h
    rcases h with h | h
    · exact .inl h
    · exact .inr ⟨h, hnew r h⟩

/-- A new row with its backing keeps the store in order. -/
theorem StoreOk.save {c : Call} {w : World Call} {row : ProcessedEventEntity} (h : StoreOk w)
    (hnew : ∀ r ∈ w.processed.rows, r.inboundEventId ≠ row.inboundEventId)
    (happ : row.outcome = .approved → Backed .paymentProcessed row w.trace ∧
      ∀ r ∈ w.processed.rows, r.orderId = row.orderId → r.outcome ≠ .approved)
    (hfail : row.outcome = .failed → Backed .paymentFailed row w.trace)
    (hskip : row.outcome = .skippedDuplicateOrder → ∃ r ∈ w.processed.rows,
      r.outcome = .approved ∧ r.orderId = row.orderId ∧ r.paymentId = row.paymentId) :
    StoreOk (w.exec c (.saveProcessed row)).2 := by
  have hle : w.trace <+: w.trace ++ [(c, Op.saveProcessed row)] := List.prefix_append _ _
  have hmem := rows_save_new hnew
  rw [World.exec_saveProcessed]
  refine ⟨?_, ?_, ?_, ?_⟩
  · intro r hr r' hr' ho ho' horder
    rcases (hmem r).mp hr with rfl | hold
    · rcases (hmem r').mp hr' with rfl | hold'
      · rfl
      · exact absurd ho' ((happ ho).2 r' hold' horder.symm)
    · rcases (hmem r').mp hr' with rfl | hold'
      · exact absurd ho ((happ ho').2 r hold horder)
      · exact h.unique r hold r' hold' ho ho' horder
  · intro r hr ho
    rcases (hmem r).mp hr with rfl | hold
    · exact (happ ho).1.mono hle
    · exact (h.approved r hold ho).mono hle
  · intro r hr ho
    rcases (hmem r).mp hr with rfl | hold
    · exact (hfail ho).mono hle
    · exact (h.failed r hold ho).mono hle
  · intro r hr ho
    rcases (hmem r).mp hr with rfl | hold
    · obtain ⟨r', hr', hspec⟩ := hskip ho
      exact ⟨r', (hmem r').mpr (.inr hr'), hspec⟩
    · obtain ⟨r', hr', hspec⟩ := h.skipped r hold ho
      exact ⟨r', (hmem r').mpr (.inr hr'), hspec⟩

end Store

section Ownership

/-- One process at a time has the table to itself; rows are only added. -/
def storeOwnership : Pool.Ownership (World Call) Call Unit where
  owns _ _ := True
  uses _ _ := True
  same _ w w' := w'.processed = w.processed
  le w w' := (∀ r ∈ w.processed.rows, r ∈ w'.processed.rows) ∧ w.trace <+: w'.trace
  safe := StoreOk
  rest _ _ := True
  uses_of_owns _ _ h := h
  same_refl _ _ := rfl
  same_trans _ _ _ _ h h' := h'.trans h
  le_refl _ := ⟨fun _ h => h, List.prefix_rfl⟩
  le_trans _ _ _ h h' := ⟨fun r hr => h'.1 r (h.1 r hr), h.2.trans h'.2⟩
  rest_stable _ _ _ _ _ h := h

/-- What the handling of an event knows of the table and of its own records. -/
def StorePhase (c : Call) (event : OrderCreatedEvent) (paymentId : String) :
    Phase → World Call → Prop
  | .unseen, w => ∀ r ∈ w.processed.rows, r.inboundEventId ≠ event.eventId
  | .skipping record, w => (∀ r ∈ w.processed.rows, r.inboundEventId ≠ event.eventId) ∧
      record ∈ w.processed.rows ∧ record.orderId = event.payload.orderId ∧
      record.outcome = .approved
  | .cleared, w => (∀ r ∈ w.processed.rows, r.inboundEventId ≠ event.eventId) ∧
      ∀ r ∈ w.processed.rows, r.orderId = event.payload.orderId → r.outcome ≠ .approved
  | .charging, w => (∀ r ∈ w.processed.rows, r.inboundEventId ≠ event.eventId) ∧
      (∀ r ∈ w.processed.rows, r.orderId = event.payload.orderId → r.outcome ≠ .approved) ∧
      ∃ record, Announces .paymentRequested paymentId event.payload.orderId record ∧
        (c, Op.emit record) ∈ w.trace
  | .announced outcome, w => (∀ r ∈ w.processed.rows, r.inboundEventId ≠ event.eventId) ∧
      (∀ r ∈ w.processed.rows, r.orderId = event.payload.orderId → r.outcome ≠ .approved) ∧
      (outcome = .approved →
        Backed .paymentProcessed (outcomeRow event paymentId outcome) w.trace) ∧
      (outcome = .failed → Backed .paymentFailed (outcomeRow event paymentId outcome) w.trace)
  | _, _ => True

variable {c : Call} {event : OrderCreatedEvent} {paymentId : String}

/-- A phase depends on the table, and on the trace only from below. -/
theorem StorePhase.stable {ph : Phase} {w w' : World Call} (h : StorePhase c event paymentId ph w)
    (hrows : w'.processed = w.processed) (hle : w.trace <+: w'.trace) :
    StorePhase c event paymentId ph w' := by
  cases ph with
  | charging =>
    obtain ⟨hseen, hclear, record, hrecord, hmem⟩ := h
    rw [StorePhase, hrows]
    exact ⟨hseen, hclear, record, hrecord, hle.subset hmem⟩
  | announced outcome =>
    obtain ⟨hseen, hclear, happ, hfail⟩ := h
    rw [StorePhase, hrows]
    exact ⟨hseen, hclear, fun ho => (happ ho).mono hle, fun ho => (hfail ho).mono hle⟩
  | unseen | skipping _ | cleared =>
    simp only [StorePhase, hrows] at h ⊢
    exact h
  | _ => trivial

/-- The contract of one delivery. -/
abbrev storeContract (c : Call) : Contract (World Call) Op Op.Resp :=
  storeOwnership.contract consumers (fun _ _ => True) (fun _ _ => True) c

theorem guar_store {w w' : World Call} (hok : StoreOk w')
    (hrows : ∀ r ∈ w.processed.rows, r ∈ w'.processed.rows) (hle : w.trace <+: w'.trace) :
    (storeContract c).guar w w' :=
  ⟨⟨hrows, hle⟩, fun _ hu => absurd trivial hu, hok, fun _ _ hown => absurd trivial hown⟩

/-- An operation that leaves the table alone. -/
theorem guar_store_same {w : World Call} (op : Op) (hok : StoreOk w)
    (hop : ∀ row, op ≠ .saveProcessed row) :
    (storeContract c).guar w (w.exec c op).2 ∧ StoreOk (w.exec c op).2 := by
  have hrows : (w.exec c op).2.processed = w.processed := World.exec_processed c w hop
  have hle : w.trace <+: (w.exec c op).2.trace := List.prefix_append _ _
  have hok' : StoreOk (w.exec c op).2 := hok.of_same hrows hle
  exact ⟨guar_store hok' (fun r hr => by rwa [hrows]) hle, hok'⟩

/-- What a call adds to the trace by one operation. -/
theorem sublist_exec {w : World Call} {op op' : Op} (h : (c, op) ∈ w.trace) :
    [(c, op), (c, op')].Sublist (w.exec c op').2.trace :=
  (List.singleton_sublist.mpr h).append (List.Sublist.refl [(c, op')])

theorem outline_store (c : Call) (event : OrderCreatedEvent) (paymentId : String) :
    Outline c (storeContract c) event paymentId
      fun ph w => StoreOk w ∧ StorePhase c event paymentId ph w where
  exec _ _ := rfl
  stable ph w w' h hr := by
    obtain ⟨-, hphase⟩ := h
    exact ⟨hr.ok.safe, hphase.stable (hr.own () trivial) hr.le.2⟩
  wait ph op w hq h := by
    have hop : ∀ row, op ≠ .saveProcessed row := (not_write_of_quiet hq).2.1
    obtain ⟨hg, hok⟩ := guar_store_same op h.1 hop
    exact ⟨hg, hok, h.2.stable (World.exec_processed c w hop) (List.prefix_append _ _)⟩
  unseen w h hfind := ⟨h.1, Table.find?_eq_none.mp hfind⟩
  cleared w h hclear := ⟨h.1, h.2, hclear⟩
  skipping w r h hr horder ho := ⟨h.1, h.2, hr, horder, ho⟩
  skip w r h := by
    obtain ⟨hok, hseen, hr, horder, ho⟩ := h
    have hok' : StoreOk (w.exec c (.saveProcessed (skippedRow event r))).2 := by
      refine hok.save hseen (fun h => ?_) (fun h => ?_) fun _ => ⟨r, hr, ho, horder, rfl⟩
      · cases h
      · cases h
    exact ⟨guar_store hok' (fun r' hr' => (rows_save_new hseen r').mpr (.inr hr'))
      (List.prefix_append _ _), hok', trivial⟩
  charge w record hrecord h := by
    obtain ⟨hok, hseen, hclear⟩ := h
    obtain ⟨hg, hok'⟩ := guar_store_same (.emit record) hok fun _ => nofun
    exact ⟨hg, hok', hseen, hclear, record, hrecord,
      List.mem_append_right _ (List.mem_singleton_self _)⟩
  approve w record hrecord h := by
    obtain ⟨hok, hseen, hclear, requested, hreq, hmem⟩ := h
    obtain ⟨hg, hok'⟩ := guar_store_same (.emit record) hok fun _ => nofun
    refine ⟨hg, hok', hseen, hclear, fun _ => ?_, fun ho => ?_⟩
    · exact ⟨c, paymentId, requested, record, rfl, hreq, hrecord, sublist_exec hmem⟩
    · cases ho
  decline w record hrecord h := by
    obtain ⟨hok, hseen, hclear, requested, hreq, hmem⟩ := h
    obtain ⟨hg, hok'⟩ := guar_store_same (.emit record) hok fun _ => nofun
    refine ⟨hg, hok', hseen, hclear, fun ho => ?_, fun _ => ?_⟩
    · cases ho
    · exact ⟨c, paymentId, requested, record, rfl, hreq, hrecord, sublist_exec hmem⟩
  record w outcome hne h := by
    obtain ⟨hok, hseen, hclear, happ, hfail⟩ := h
    have hok' : StoreOk (w.exec c (.saveProcessed (outcomeRow event paymentId outcome))).2 :=
      hok.save hseen (fun ho => ⟨happ ho, hclear⟩) hfail fun ho => absurd ho hne
    exact ⟨guar_store hok' (fun r hr => (rows_save_new hseen r).mpr (.inr hr))
      (List.prefix_append _ _), hok', trivial⟩
  unrecorded w outcome hne h _ := ⟨h.1, trivial⟩
  fail w h := by
    rcases h with h | h <;> exact ⟨h.1, trivial⟩
  retry w record htopic h := by
    obtain ⟨hg, hok'⟩ := guar_store_same (.emit record) h.1 fun _ => nofun
    exact ⟨hg, hok', trivial⟩
  bury w record htopic h := by
    obtain ⟨hg, hok'⟩ := guar_store_same (.emit record) h.1 fun _ => nofun
    exact ⟨hg, hok', trivial⟩
  leave w h := by
    rcases h with h | h | ⟨r, h⟩ | h | h <;> exact ⟨h.1, trivial⟩

/-- Every delivery, cut or rejected anywhere, keeps the store in order. -/
theorem sound_store : storeOwnership.Sound consumers (fun _ _ => True) (fun _ _ => True)
    fun (_ : Pool Unit (World Call) Call Op Op.Resp JsThrow JsVal) _ => True where
  env w w' hok henv := by
    obtain ⟨records, rfl⟩ := henv
    have hle : w.trace <+: w.trace := List.prefix_rfl
    refine ⟨?_, fun _ => rfl, StoreOk.of_same hok rfl hle⟩
    exact ⟨fun _ hr => hr, hle⟩
  start s i c _ _ hok _ := by
    refine along_handleOrderEvents
      (fun event ph w => StoreOk w ∧ StorePhase c event (c.proc.uuid 0).val ph w)
      (fun _ _ _ _ => trivial) fun event _ => ?_
    exact ⟨⟨hok.safe, trivial⟩, outline_store c event _, fun _ _ _ _ _ => trivial⟩
  free s i c _ hi j job hj := by
    rw [hi] at hj
    cases hj
  settle _ _ _ _ _ _ _ := trivial
  reject _ _ _ _ _ _ _ _ := trivial
  crash _ _ _ _ _ _ _ _ _ := trivial

theorem storeOk_empty : StoreOk World.empty := by
  constructor <;> exact fun r hr => absurd hr List.not_mem_nil

end Ownership

section Invariant

variable {ls : List (PoolAct Unit Call Op JsThrow)}
  {s : Pool Unit (World Call) Call Op Op.Resp JsThrow JsVal}

/-- In every state that one payment-service process reaches, whatever messages it
handles and whatever rejects or is cut off, the idempotency table agrees with the
published records, and no row it holds ever changes. -/
theorem store_invariant (hrun : Run (Pool.Step consumers) (Pool.idle World.empty) ls s) :
    StoreOk s.world ∧ ∀ ms t, Run (Pool.Step consumers) s ms t →
      ∀ inboundEventId row, s.world.processed.find? inboundEventId = some row →
        t.world.processed.find? inboundEventId = some row := by
  refine ⟨sound_store.safe hrun storeOk_empty fun _ => trivial, fun ms t hmore e row hfind => ?_⟩
  have hle := sound_store.later hrun hmore storeOk_empty fun _ => trivial
  obtain ⟨hr, hk⟩ := Table.find?_eq_some.mp hfind
  exact Table.find?_eq_some.mpr ⟨hle.1 row hr, hk⟩

/-- One approved payment: the run exists, its row is there, and the invariant speaks of it. -/
theorem store_invariant_approved : ∃ ls,
    ∃ s : Pool Unit (World Call) Call Op Op.Resp JsThrow JsVal,
      Run (Pool.Step consumers) (Pool.idle World.empty) ls s ∧
      (s.world.processed.rows.map fun r => r.outcome) = [.approved] ∧ StoreOk s.world ∧
      ∀ ms t, Run (Pool.Step consumers) s ms t →
        ∀ inboundEventId row, s.world.processed.find? inboundEventId = some row →
          t.world.processed.find? inboundEventId = some row := by
  have hcall : ∀ t : Pool Unit (World Call) Call Op Op.Resp JsThrow JsVal, t.jobs () = none →
      ∃ ls, Run (Pool.Step consumers) t ls
        { t with world := handled (delivery .first "o-1") (fun _ => none) t.world } := fun t ht =>
    handled_run () _ _ ht trivial (fun _ _ => trivial) (fun _ _ _ _ => trivial) fun _ => trivial
  obtain ⟨ls, hrun⟩ := hcall (Pool.idle World.empty) rfl
  have hrows : ((handled (delivery .first "o-1") (fun _ => none) World.empty).processed.rows.map
      fun r => r.outcome) = [.approved] := by decide +kernel
  exact ⟨ls, _, hrun, hrows, store_invariant hrun⟩

end Invariant

end EventFlow.Payments
