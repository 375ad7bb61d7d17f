import EventFlow.Payments.Handling

namespace EventFlow.Payments

open Js Shared Services Services.Payment Async

section Results

/-- Sends that end an `order.created`: its payment outcome, or its failure record. -/
def terminal : Op → Bool
  | .emit r => r.topic = paymentEventsTopic || r.topic = toDlqTopic orderEventsTopic
  | _ => false

def Call.eventId? (c : Call) : Option String := c.event?.map OrderCreatedEvent.eventId

/-- Terminal results published because of an inbound event. -/
def results (inboundEventId : String) (trace : List (Call × Op)) : ℕ :=
  trace.countP fun p => p.1.eventId? = some inboundEventId && terminal p.2

/-- The event has a row in the idempotency table. -/
def Recorded (inboundEventId : String) (w : World Call) : Prop :=
  ∃ r ∈ w.processed.rows, r.inboundEventId = inboundEventId

def buries : Op → Bool
  | .emit r => r.topic = toDlqTopic orderEventsTopic
  | _ => false

/-- The event has a failure record on the companion topic. -/
def Buried (inboundEventId : String) (w : World Call) : Prop :=
  ∃ p ∈ w.trace, p.1.eventId? = some inboundEventId ∧ buries p.2 = true

theorem results_append (e : String) (trace : List (Call × Op)) (c : Call) (op : Op) :
    results e (trace ++ [(c, op)]) =
      results e trace + if c.eventId? = some e && terminal op then 1 else 0 := by
  simp [results, List.countP_append, List.countP_singleton]

variable {c : Call} {w : World Call} {e : String}

theorem results_exec_of_ne {op : Op} (h : c.eventId? ≠ some e) :
    results e (w.exec c op).2.trace = results e w.trace := by
  rw [World.exec_trace, results_append]
  simp [h]

theorem results_exec_of_not_terminal {op : Op} (h : terminal op = false) :
    results e (w.exec c op).2.trace = results e w.trace := by
  rw [World.exec_trace, results_append]
  simp [h]

theorem results_exec_of_terminal {op : Op} (hc : c.eventId? = some e) (h : terminal op = true) :
    results e (w.exec c op).2.trace = results e w.trace + 1 := by
  rw [World.exec_trace, results_append]
  simp [hc, h]

theorem buried_exec {op : Op} :
    Buried e (w.exec c op).2 ↔ Buried e w ∨ c.eventId? = some e ∧ buries op = true := by
  unfold Buried
  rw [World.exec_trace]
  constructor
  · rintro ⟨p, hp, hspec⟩
    rcases List.mem_append.mp hp with hold | hnew
    · exact .inl ⟨p, hold, hspec⟩
    · obtain rfl := List.mem_singleton.mp hnew
      exact .inr hspec
  · intro h
    rcases h with ⟨p, hp, hspec⟩ | hspec
    · exact ⟨p, List.mem_append_left _ hp, hspec⟩
    · exact ⟨(c, op), List.mem_append_right _ (List.mem_singleton_self _), hspec⟩

theorem recorded_exec_save {row : ProcessedEventEntity} :
    Recorded e (w.exec c (.saveProcessed row)).2 ↔ Recorded e w ∨ row.inboundEventId = e := by
  unfold Recorded
  rw [World.exec_saveProcessed]
  constructor
  · rintro ⟨r, hr, hk⟩
    rcases Table.mem_save.mp hr with rfl | ⟨hold, -⟩
    · exact .inr hk
    · exact .inl ⟨r, hold, hk⟩
  · intro h
    rcases h with ⟨r, hr, hk⟩ | hk
    · by_cases hkey : r.inboundEventId = row.inboundEventId
      · exact ⟨row, Table.mem_save.mpr (.inl rfl), hkey ▸ hk⟩
      · exact ⟨r, Table.mem_save.mpr (.inr ⟨hr, hkey⟩), hk⟩
    · exact ⟨row, Table.mem_save.mpr (.inl rfl), hk⟩

theorem recorded_congr {w' : World Call} (h : w'.processed = w.processed) :
    Recorded e w' ↔ Recorded e w := by
  rw [Recorded, Recorded, h]

theorem event_of_eventId (h : c.eventId? = some e) : ∃ event, c.event? = some event ∧
    event.eventId = e := Option.map_eq_some_iff.mp h

end Results

section Ownership

/-- What a step leaves alone of an event that is not its own. -/
structure SameEvent (e : String) (w w' : World Call) : Prop where
  results : results e w'.trace = results e w.trace
  recorded : Recorded e w' ↔ Recorded e w
  buried : Buried e w' ↔ Buried e w

/-- No event has two results; one with a result is recorded or buried once its
handling is over. -/
def eventOwnership : Pool.Ownership (World Call) Call String where
  owns c e := c.eventId? = some e
  uses c e := c.eventId? = some e
  same := SameEvent
  le _ _ := True
  safe w := ∀ e, results e w.trace ≤ 1
  rest e w := results e w.trace = 0 ∨ Recorded e w ∨ Buried e w
  uses_of_owns _ _ h := h
  same_refl _ _ := ⟨rfl, Iff.rfl, Iff.rfl⟩
  same_trans _ _ _ _ h h' := ⟨h'.results.trans h.results, h'.recorded.trans h.recorded,
    h'.buried.trans h.buried⟩
  le_refl _ := trivial
  le_trans _ _ _ _ _ := trivial
  rest_stable e w w' h _ hrest := by
    rw [h.results, h.recorded, h.buried]
    exact hrest

/-- The rejections that leave a published outcome without its row are excluded. -/
def keepsRecord (op : Op) : Prop :=
  ∀ row, op = .saveProcessed row → row.outcome = .skippedDuplicateOrder

abbrev eventContract (c : Call) : Contract (World Call) Op Op.Resp :=
  eventOwnership.contract consumers (fun _ _ => True) (fun _ => keepsRecord) c

/-- What the handling of an event knows of the results of the event. -/
def ResultPhase (e : String) : Phase → World Call → Prop
  | .opened, w => results e w.trace = 0 ∨ Recorded e w
  | .announced _, w => results e w.trace = 1
  | .closed, w => results e w.trace = 0 ∨ Recorded e w ∨ Buried e w
  | _, w => results e w.trace = 0

variable {c : Call} {event : OrderCreatedEvent} {w w' : World Call} {op : Op}

theorem ResultPhase.stable {e : String} {ph : Phase} (h : ResultPhase e ph w)
    (hsame : SameEvent e w w') : ResultPhase e ph w' := by
  cases ph with
  | opened =>
    simp only [ResultPhase, hsame.results, hsame.recorded] at h ⊢
    exact h
  | closed =>
    simp only [ResultPhase, hsame.results, hsame.recorded, hsame.buried] at h ⊢
    exact h
  | _ =>
    simp only [ResultPhase, hsame.results] at h ⊢
    exact h

/-- A call changes nothing of another event, apart from the row it saves. -/
theorem sameEvent_exec {e : String} (hc : c.eventId? ≠ some e)
    (hrow : ∀ row, op = .saveProcessed row → row.inboundEventId ≠ e) :
    SameEvent e w (w.exec c op).2 := by
  refine ⟨results_exec_of_ne hc, ?_, ?_⟩
  · by_cases hop : ∃ row, op = .saveProcessed row
    · obtain ⟨row, rfl⟩ := hop
      simp [recorded_exec_save, hrow row rfl]
    · exact recorded_congr (World.exec_processed c w fun row h => hop ⟨row, h⟩)
  · simp [buried_exec, hc]

/-- What an operation of a call has to show: its own event keeps within one result. -/
theorem guar_event (hevent : c.event? = some event) (hsafe : ∀ e, results e w.trace ≤ 1)
    (hrow : ∀ row, op = .saveProcessed row → row.inboundEventId = event.eventId)
    (hown : results event.eventId (w.exec c op).2.trace ≤ 1) :
    (eventContract c).guar w (w.exec c op).2 := by
  have hid : c.eventId? = some event.eventId := by rw [Call.eventId?, hevent, Option.map_some]
  refine ⟨trivial, fun e hne => ?_, fun e => ?_, fun e huse hnot => absurd huse hnot⟩
  · have hother : c.eventId? ≠ some e := hne
    refine sameEvent_exec hother fun row h heq => hother ?_
    rw [hid, ← hrow row h, heq]
  · by_cases he : event.eventId = e
    · exact he ▸ hown
    · rw [results_exec_of_ne fun h => he (Option.some.inj (hid.symm.trans h))]
      exact hsafe e

theorem sameEvent_of_not_terminal {e : String} (hop : terminal op = false)
    (hrow : ∀ row, op ≠ .saveProcessed row) : SameEvent e w (w.exec c op).2 := by
  have hbury : buries op = false := by
    cases op with
    | emit r =>
      rw [terminal, Bool.or_eq_false_iff] at hop
      exact hop.2
    | _ => rfl
  refine ⟨results_exec_of_not_terminal hop, recorded_congr (World.exec_processed c w hrow), ?_⟩
  simp [buried_exec, hbury]

section Steps

variable (hevent : c.event? = some event)

include hevent

/-- An operation that keeps its event within one result and leads to its next phase. -/
theorem step_event {ph : Phase} (hsafe : ∀ e, results e w.trace ≤ 1)
    (hrow : ∀ row, op = .saveProcessed row → row.inboundEventId = event.eventId)
    (hown : results event.eventId (w.exec c op).2.trace ≤ 1)
    (hph : ResultPhase event.eventId ph (w.exec c op).2) :
    (eventContract c).guar w (w.exec c op).2 ∧
      (∀ e, results e (w.exec c op).2.trace ≤ 1) ∧
      ResultPhase event.eventId ph (w.exec c op).2 := by
  have hg := guar_event hevent hsafe hrow hown
  exact ⟨hg, hg.ok.safe, hph⟩

/-- A row is saved for the event, whose results stay as they are. -/
theorem save_event {row : ProcessedEventEntity} (hrow : row.inboundEventId = event.eventId)
    (hsafe : ∀ e, results e w.trace ≤ 1) :
    (eventContract c).guar w (w.exec c (.saveProcessed row)).2 ∧
      (∀ e, results e (w.exec c (.saveProcessed row)).2.trace ≤ 1) ∧
      ResultPhase event.eventId .closed (w.exec c (.saveProcessed row)).2 := by
  refine step_event hevent hsafe (fun row' heq => ?_) ?_ (.inr (.inl ?_))
  · cases heq
    exact hrow
  · rw [results_exec_of_not_terminal rfl]
    exact hsafe _
  · exact recorded_exec_save.mpr (.inr hrow)

theorem emit_silent {ph : Phase} {record : KafkaRecord} (hop : terminal (.emit record) = false)
    (hph : ∀ w', results event.eventId w'.trace = 0 → ResultPhase event.eventId ph w')
    (hsafe : ∀ e, results e w.trace ≤ 1) (hzero : results event.eventId w.trace = 0) :
    (eventContract c).guar w (w.exec c (.emit record)).2 ∧
      (∀ e, results e (w.exec c (.emit record)).2.trace ≤ 1) ∧
      ResultPhase event.eventId ph (w.exec c (.emit record)).2 := by
  have hresults : results event.eventId (w.exec c (.emit record)).2.trace = 0 :=
    (results_exec_of_not_terminal hop).trans hzero
  exact step_event hevent hsafe (fun _ => nofun) (by omega) (hph _ hresults)

theorem emit_loud {ph : Phase} {record : KafkaRecord} (hop : terminal (.emit record) = true)
    (hph : results event.eventId (w.exec c (.emit record)).2.trace = 1 →
      ResultPhase event.eventId ph (w.exec c (.emit record)).2)
    (hsafe : ∀ e, results e w.trace ≤ 1) (hzero : results event.eventId w.trace = 0) :
    (eventContract c).guar w (w.exec c (.emit record)).2 ∧
      (∀ e, results e (w.exec c (.emit record)).2.trace ≤ 1) ∧
      ResultPhase event.eventId ph (w.exec c (.emit record)).2 := by
  have hid : c.eventId? = some event.eventId := by rw [Call.eventId?, hevent, Option.map_some]
  have hresults : results event.eventId (w.exec c (.emit record)).2.trace = 1 := by
    rw [results_exec_of_terminal hid hop, hzero]
  exact step_event hevent hsafe (fun _ => nofun) hresults.le (hph hresults)

omit hevent in
theorem terminal_of_announces {t : EventType} {paymentId orderId : String} {record : KafkaRecord}
    (h : Announces t paymentId orderId record) (ht : resolveKafkaTopic t = paymentEventsTopic) :
    terminal (.emit record) = true := by
  rw [terminal, h.topic, ht]
  decide

omit hevent in
theorem buries_of_topic {record : KafkaRecord} (h : record.topic = toDlqTopic orderEventsTopic) :
    terminal (.emit record) = true ∧ buries (.emit record) = true := by
  rw [terminal, buries, h]
  decide

theorem outline_event (paymentId : String) :
    Outline c (eventContract c) event paymentId
      fun ph w => (∀ e, results e w.trace ≤ 1) ∧ ResultPhase event.eventId ph w where
  exec _ _ := rfl
  stable ph w w' h hr := by
    have hid : c.eventId? = some event.eventId := by rw [Call.eventId?, hevent, Option.map_some]
    exact ⟨hr.ok.safe, h.2.stable (hr.own _ hid)⟩
  wait ph op w hq h := by
    obtain ⟨hemit, hsave, -⟩ := not_write_of_quiet hq
    have hop : terminal op = false := by
      cases op with
      | emit record => exact absurd rfl (hemit record)
      | _ => rfl
    have hsame : SameEvent event.eventId w (w.exec c op).2 := sameEvent_of_not_terminal hop hsave
    refine step_event hevent h.1 (fun row hrow => absurd hrow (hsave row)) ?_ (h.2.stable hsame)
    rw [hsame.results]
    exact h.1 _
  unseen w h hfind := by
    refine ⟨h.1, ?_⟩
    rcases h.2 with hzero | ⟨r, hr, hk⟩
    · exact hzero
    · exact absurd hk (Table.find?_eq_none.mp hfind r hr)
  cleared w h _ := h
  skipping w r h _ _ _ := h
  skip w r h := save_event hevent rfl h.1
  charge w record hrecord h := by
    have hop : terminal (.emit record) = false := by
      rw [terminal, hrecord.topic]
      decide
    exact emit_silent hevent hop (fun _ h => h) h.1 h.2
  approve w record hrecord h := emit_loud hevent (terminal_of_announces hrecord rfl) id h.1 h.2
  decline w record hrecord h := emit_loud hevent (terminal_of_announces hrecord rfl) id h.1 h.2
  record w outcome _ h := save_event hevent rfl h.1
  unrecorded w outcome hne _ hrej := absurd (hrej _ rfl) hne
  fail w h := h.elim id id
  retry w record htopic h := by
    have hop : terminal (.emit record) = false := by
      rw [terminal, htopic]
      decide
    exact emit_silent hevent hop (fun _ => .inl) h.1 h.2
  bury w record htopic h := by
    obtain ⟨hterminal, hburies⟩ := buries_of_topic htopic
    have hid : c.eventId? = some event.eventId := by rw [Call.eventId?, hevent, Option.map_some]
    have hburied : Buried event.eventId (w.exec c (.emit record)).2 :=
      buried_exec.mpr (.inr ⟨hid, hburies⟩)
    exact emit_loud hevent hterminal (fun _ => .inr (.inr hburied)) h.1 h.2
  leave w h := by
    rcases h with ⟨hsafe, hph⟩ | ⟨hsafe, hph⟩ | ⟨r, hsafe, hph⟩ | ⟨hsafe, hph⟩ | ⟨hsafe, hph⟩
    · rcases hph with hzero | hrec
      · exact ⟨hsafe, .inl hzero⟩
      · exact ⟨hsafe, .inr (.inl hrec)⟩
    all_goals exact ⟨hsafe, .inl hph⟩

end Steps

end Ownership

section Runs

/-- Runs of one process in which nothing is cut off. -/
def Uncut (_ : Pool Unit (World Call) Call Op Op.Resp JsThrow JsVal)
    (l : PoolAct Unit Call Op JsThrow) : Prop :=
  ∀ i, l ≠ .crash i

/-- No outcome row is refused, and no event is handled again after its failure record. -/
structure Faithful (s : Pool Unit (World Call) Call Op Op.Resp JsThrow JsVal)
    (l : PoolAct Unit Call Op JsThrow) : Prop where
  uncut : Uncut s l
  recorded : ∀ i row e, l = .rejected i (.saveProcessed row) e → row.outcome = .skippedDuplicateOrder
  buried : ∀ i c inboundEventId, l = .start i c → c.eventId? = some inboundEventId →
    ¬ Buried inboundEventId s.world

theorem sound_event :
    eventOwnership.Sound consumers (fun _ _ => True) (fun _ => keepsRecord) Faithful where
  env w w' hsafe henv := by
    obtain ⟨records, rfl⟩ := henv
    exact ⟨trivial, fun e => ⟨rfl, Iff.rfl, Iff.rfl⟩, hsafe⟩
  start s i c hcond _ hok hrest := by
    refine along_handleOrderEvents
      (fun event ph w => (∀ e, results e w.trace ≤ 1) ∧ ResultPhase event.eventId ph w)
      (fun hnone _ e howns => ?_) fun event hevent => ?_
    · obtain ⟨event, hevent, -⟩ := event_of_eventId howns
      rw [hnone] at hevent
      cases hevent
    · have hid : c.eventId? = some event.eventId := by rw [Call.eventId?, hevent, Option.map_some]
      have hopened : ResultPhase event.eventId .opened s.world := by
        rcases hrest _ hid with hzero | hrec | hbur
        · exact .inl hzero
        · exact .inr hrec
        · exact absurd hbur (hcond.buried i c _ rfl hid)
      refine ⟨⟨hok.safe, hopened⟩, outline_event hevent _, fun x w' hclosed e howns => ?_⟩
      obtain rfl := Option.some.inj (hid.symm.trans howns)
      exact hclosed.2
  free s i c _ hi j job hj := by
    rw [hi] at hj
    cases hj
  settle _ _ _ _ _ _ _ := trivial
  reject s i c p op e hcond _ row hop := hcond.recorded i row e (by rw [hop])
  crash s i c p hcond _ _ := absurd rfl (hcond.uncut i)

variable {ls : List (PoolAct Unit Call Op JsThrow)}
  {s : Pool Unit (World Call) Call Op Op.Resp JsThrow JsVal}

/-- One process that can record every outcome it publishes, and sees no event again
after its failure record, publishes one terminal result for each event at most. -/
theorem one_result_of_faithful
    (hrun : RunWhere (Pool.Step consumers) Faithful (Pool.idle World.empty) ls s)
    (inboundEventId : String) : results inboundEventId s.world.trace ≤ 1 := by
  have hsafe : ∀ e, results e (World.empty : World Call).trace ≤ 1 := fun e => Nat.zero_le 1
  exact sound_event.safe hrun hsafe (fun _ => .inl rfl) inboundEventId

theorem faithful_of_inner {i : Unit} {op : Op} : Faithful s (.settled i op) where
  uncut _ := nofun
  recorded _ _ _ := nofun
  buried _ _ _ := nofun

theorem faithful_of_finish {i : Unit} : Faithful s (.finish i) where
  uncut _ := nofun
  recorded _ _ _ := nofun
  buried _ _ _ := nofun

/-- A message handled once has its one result. -/
theorem one_result_delivered : ∃ ls,
    ∃ s : Pool Unit (World Call) Call Op Op.Resp JsThrow JsVal,
      RunWhere (Pool.Step consumers) Faithful (Pool.idle World.empty) ls s ∧
      results Uuid.second.val s.world.trace = 1 ∧ results Uuid.second.val s.world.trace ≤ 1 := by
  have hstart : Faithful (Pool.idle World.empty) (.start () (delivery .second "o-1")) := by
    refine ⟨fun _ => nofun, fun _ _ _ => nofun, ?_⟩
    rintro _ _ _ - - ⟨p, hp, -⟩
    cases hp
  obtain ⟨ls, hrun⟩ := handled_run () _ (fun _ => none) rfl hstart (fun _ _ => faithful_of_inner)
    (fun _ _ _ => nofun) fun _ => faithful_of_finish
  have hone : results Uuid.second.val
      (handled (delivery .second "o-1") (fun _ => none) World.empty).trace = 1 := by decide +kernel
  exact ⟨ls, _, hrun, hone, one_result_of_faithful hrun _⟩

/-- The database refuses the outcome row once; everything else goes well. -/
def rowRefused : Op → Option JsThrow
  | .saveProcessed _ => some (.error "QueryFailedError" "SQLITE_BUSY: database is locked")
  | _ => none

/-- The delivery of the last record in the log. -/
def lastDelivery (w : World Call) : Call :=
  match w.log.getLast? with
  | some r => { payload := r.value, headers := r.headers, proc := .still .first .half }
  | none => delivery .first ""

/-- `payment.processed` goes out, its row is refused, and the republished message
is charged again. -/
theorem refused_row_two_results : ¬ ∀ ls,
    ∀ s : Pool Unit (World Call) Call Op Op.Resp JsThrow JsVal,
      RunWhere (Pool.Step consumers) Uncut (Pool.idle World.empty) ls s →
      ∀ inboundEventId, results inboundEventId s.world.trace ≤ 1 := by
  intro hall
  have hcall : ∀ (w : World Call) (c : Call) (fails : Op → Option JsThrow), ∃ ls,
      RunWhere (Pool.Step consumers) Uncut (Pool.idle w) ls (Pool.idle (handled c fails w)) :=
    fun w c fails => handled_run () c fails rfl (fun _ => nofun) (fun _ _ _ => nofun)
      (fun _ _ _ _ _ => nofun) fun _ _ => nofun
  obtain ⟨ls, hfirst⟩ := hcall World.empty (delivery .second "o-1") rowRefused
  obtain ⟨ms, hsecond⟩ := hcall (handled (delivery .second "o-1") rowRefused World.empty)
    (lastDelivery (handled (delivery .second "o-1") rowRefused World.empty)) fun _ => none
  have htwo := hall _ _ (hfirst.trans hsecond) Uuid.second.val
  have hcount : results Uuid.second.val (handled
      (lastDelivery (handled (delivery .second "o-1") rowRefused World.empty)) (fun _ => none)
      (handled (delivery .second "o-1") rowRefused World.empty)).trace = 2 := by decide +kernel
  change results Uuid.second.val (handled _ _ _).trace ≤ 1 at htwo
  omega

end Runs

end EventFlow.Payments
