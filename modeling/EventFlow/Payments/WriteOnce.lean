import EventFlow.Payments.Replicas
import EventFlow.Services.System

namespace EventFlow.Payments

open Js Shared Services Services.Payment Async

section Shape

/-- A write to the table of processed events. -/
def Saves (op : Op) : Prop := ∃ row, op = .saveProcessed row

/-- After its lookup a handling looks no event up again, and saves under its own. -/
structure Inside (event : OrderCreatedEvent) (op : Op) : Prop where
  lookup : ∀ e, op ≠ .findByEvent e
  row : ∀ row, op = .saveProcessed row → row.inboundEventId = event.eventId

variable {proc : Process} {event : OrderCreatedEvent} {envelope : JsVal}
  {headers : List (String × RawHeader)}

theorem not_saves_of_quiet {op : Op} (h : quiet op = true) : ¬ Saves op := by
  rintro ⟨row, rfl⟩
  cases h

theorem not_saves_emit (r : KafkaRecord) : ¬ Saves (.emit r) := by
  rintro ⟨row, h⟩
  cases h

theorem inside_emit (r : KafkaRecord) : Inside event (.emit r) := ⟨fun _ => nofun, fun _ => nofun⟩

theorem inside_sleep (ms : Number) : Inside event (.sleep ms) := ⟨fun _ => nofun, fun _ => nofun⟩

theorem inside_findApproved (orderId : String) : Inside event (.findApproved orderId) :=
  ⟨fun _ => nofun, fun _ => nofun⟩

theorem once_recordProcessed (row : ProcessedEventEntity) : (recordProcessed row).Once Saves :=
  closes_perform _

theorem performs_publish_unsaved (t : EventType) (envelope : JsVal) :
    (eventPublisher.publish t envelope []).Performs fun op => ¬ Saves op :=
  performs_eventPublish fun _ _ => not_saves_emit _

/-- A payment is recorded at its end, once. -/
theorem once_processPayment : (processPayment proc event).Once Saves := by
  have hfail : ∀ reason causationId,
      (failPayment proc event (proc.uuid 0).val reason causationId).Once Saves :=
    fun reason causationId => (performs_publish_unsaved _ _).closes_bind fun _ =>
      once_recordProcessed _
  have hdelay : ∀ result, (simulateDelay result).Performs fun op => ¬ Saves op := by
    intro result
    unfold simulateDelay
    cases result.simulateDelayMs with
    | none => trivial
    | some ms =>
      dsimp only
      split_ifs
      · exact (performs_sleep _).mpr (not_saves_of_quiet rfl)
      · trivial
  have hrequested : (publishPaymentRequested proc event (proc.uuid 0).val).Performs
      fun op => ¬ Saves op := (performs_publish_unsaved _ _).bind fun _ => trivial
  refine hrequested.closes_bind fun requested => ?_
  dsimp only
  split_ifs
  · refine (hdelay _).closes_bind fun _ => ?_
    cases (simulatePaymentGateway proc { paymentId := some (proc.uuid 0).val }).outcome with
    | failed => exact hfail _ _
    | approved => exact (performs_publish_unsaved _ _).closes_bind fun _ => once_recordProcessed _
  · exact hfail _ _

/-- What follows the check writes one row at most, whatever fails. -/
theorem once_handleChecked (check : IdempotencyCheckResult) :
    (handleChecked proc headers envelope event check).Once Saves := by
  cases check with
  | duplicateEvent record => trivial
  | duplicateOrder record => exact (once_recordProcessed _).bind fun _ => trivial
  | new =>
    have hrun : (RetriedHandler.paymentOrderEvents.execute proc envelope
        (parseKafkaHeaders proc.drivers headers) (handleOrderCreated proc event)).Once Saves := by
      refine (KafkaRetryExecutor.performs_awaitRetryAt fun _ =>
        not_saves_of_quiet rfl).closes_bind fun _ => ?_
      refine Once.tryCatch (once_processPayment.bind fun _ => trivial) fun e => ?_
      have htransport : (KafkaRetryExecutor.runner .paymentService proc.env).transport =
          transportOf .paymentService proc.env := rfl
      exact KafkaRetryExecutor.performs_onFailure htransport (fun _ => not_saves_of_quiet rfl)
        (fun _ _ _ => not_saves_emit _) (fun _ _ _ _ => not_saves_emit _) e
    exact hrun.bind fun _ => trivial

/-- And under its own event only. -/
theorem inside_handleChecked (check : IdempotencyCheckResult) :
    (handleChecked proc headers envelope event check).Performs (Inside event) := by
  cases check with
  | duplicateEvent record => trivial
  | duplicateOrder record =>
    refine Performs.bind ((performs_perform _).mpr ⟨fun _ => nofun, fun row h => ?_⟩) fun _ => trivial
    cases h
    rfl
  | new =>
    refine performs_ackExecuted (performs_execute inside_sleep (fun _ _ _ => inside_emit _)
      (fun _ _ _ _ => inside_emit _) (performs_processPayment inside_sleep (fun outcome => ?_) ?_ ?_ ?_))
    · refine ⟨fun _ => nofun, fun row h => ?_⟩
      cases h
      rfl
    · exact fun _ => inside_emit _
    · exact fun _ _ _ => inside_emit _
    · exact fun _ _ _ => inside_emit _

/-- The handling of an event is a lookup, and what follows from its answer. -/
theorem body_of_event {c : Call} (hevent : c.event? = some event) :
    ∃ rest : Except JsThrow (Option ProcessedEventEntity) → Promise JsVal,
      consumers.body c = .await (.findByEvent event.eventId) rest ∧
      (∀ e, rest (.error e) = .reject e) ∧ (∀ r, ∃ ack, rest (.ok (some r)) = .resolve ack) ∧
      (rest (.ok none)).Once Saves ∧ (rest (.ok none)).Performs (Inside event) := by
  unfold Call.event? at hevent
  have hbody : consumers.body c = handleOrderEvents c.proc c.headers c.payload := rfl
  rw [hbody]
  unfold handleOrderEvents consumeParsed
  cases hp : parseOrderEventsMessage c.payload with
  | error e => simp [hp] at hevent
  | ok parsed =>
    cases parsed with
    | skipped reason eventType => simp [hp] at hevent
    | accepted envelope =>
      simp only [hp, Option.some.injEq] at hevent
      subst hevent
      let event : OrderCreatedEvent := .ofJs envelope
      let checked (check : IdempotencyCheckResult) : Promise JsVal :=
        handleChecked c.proc c.headers envelope event check
      refine ⟨fun r => ((ofExcept r).bind (decideByEvent event.payload.orderId)).bind checked,
        rfl, fun e => rfl, fun r => ⟨_, rfl⟩, ?_, ?_⟩
      · have hfind : (decideByEvent event.payload.orderId none).Performs fun op => ¬ Saves op :=
          performs_decideByEvent (not_saves_of_quiet rfl) none
        exact hfind.closes_bind fun check => once_handleChecked check
      · have hfind : (decideByEvent event.payload.orderId none).Performs (Inside event) :=
          performs_decideByEvent (inside_findApproved _) none
        exact hfind.bind fun check => inside_handleChecked check

theorem body_of_no_event {c : Call} (hnone : c.event? = none) :
    (∃ ack, consumers.body c = .resolve ack) ∨ ∃ e, consumers.body c = .reject e := by
  unfold Call.event? at hnone
  have hbody : consumers.body c = handleOrderEvents c.proc c.headers c.payload := rfl
  rw [hbody]
  unfold handleOrderEvents consumeParsed
  cases hp : parseOrderEventsMessage c.payload with
  | error e => cases e <;> simp
  | ok parsed =>
    cases parsed with
    | skipped reason eventType => exact .inl ⟨_, rfl⟩
    | accepted envelope => simp [hp] at hnone

end Shape

section Replicas

variable {ι : Type}

/-- The handling has come to its end. -/
def Ended (p : Promise JsVal) : Prop := (∃ ack, p = .resolve ack) ∨ ∃ e, p = .reject e

/-- A replica looks an event up only while no other one is between its own lookup of the
event and its end. -/
def Spaced (s : Pool ι (World Call) Call Op Op.Resp JsThrow JsVal) (l : PoolAct ι Call Op JsThrow) :
    Prop :=
  ∀ i e, l = .settled i (.findByEvent e) → ∀ j job event, j ≠ i → s.jobs j = some job →
    job.1.event? = some event → event.eventId = e →
    job.2 = consumers.body job.1 ∨ Ended job.2

/-- A job that has not looked its event up yet, or will not save any more. -/
def Harmless (job : Call × Promise JsVal) : Prop :=
  job.2 = consumers.body job.1 ∨ job.2.Performs fun op => ¬ Saves op

/-- A job past its lookup, whose row is not there yet. -/
structure Holding (w : World Call) (job : Call × Promise JsVal) (event : OrderCreatedEvent) :
    Prop where
  handles : job.1.event? = some event
  free : w.processed.find? event.eventId = none
  once : job.2.Once Saves
  inside : job.2.Performs (Inside event)

/-- Every job is harmless or holds its event, and no two hold the same. -/
structure HoldsApart (s : Pool ι (World Call) Call Op Op.Resp JsThrow JsVal) : Prop where
  stage : ∀ i job, s.jobs i = some job → Harmless job ∨ ∃ event, Holding s.world job event
  alone : ∀ i j job job' event event', i ≠ j → s.jobs i = some job → s.jobs j = some job' →
    job.1.event? = some event → job'.1.event? = some event' → event.eventId = event'.eventId →
    Harmless job ∨ Harmless job'

/-- No row is changed or lost. -/
def RowsKept (w w' : World Call) : Prop :=
  ∀ e row, w.processed.find? e = some row → w'.processed.find? e = some row

variable {w w' : World Call} {c : Call} {p p' : Promise JsVal}
  {s s' : Pool ι (World Call) Call Op Op.Resp JsThrow JsVal}

theorem Ended.harmless (h : Ended p) : Harmless (c, p) := by
  rcases h with ⟨ack, rfl⟩ | ⟨e, rfl⟩ <;> exact .inr trivial

/-- Without an event there is nothing to handle. -/
theorem harmless_of_no_event (hnone : c.event? = none) (h : Harmless (c, p)) :
    p.Performs fun op => ¬ Saves op := by
  rcases h with hbody | hidle
  · obtain rfl : p = consumers.body c := hbody
    rcases body_of_no_event hnone with ⟨ack, hack⟩ | ⟨e, he⟩
    · rw [hack]
      trivial
    · rw [he]
      trivial
  · exact hidle

/-- A job that holds its event and may still save is no other's to disturb. -/
theorem Holding.keep {job : Call × Promise JsVal} {event : OrderCreatedEvent}
    (h : Holding w job event)
    (hrows : w'.processed.find? event.eventId = w.processed.find? event.eventId) :
    Holding w' job event :=
  ⟨h.handles, hrows.trans h.free, h.once, h.inside⟩

/-- A job moves on, and the rows of every other event stay. -/
theorem HoldsApart.move [DecidableEq ι] {i : ι} (h : HoldsApart s)
    (hstage : Harmless (c, p) ∨ ∃ event, Holding w' (c, p) event)
    (hothers : ∀ j job event, j ≠ i → s.jobs j = some job → Holding s.world job event →
      Harmless job ∨ Holding w' job event)
    (halone : Harmless (c, p) ∨ ∀ j job event event', j ≠ i → s.jobs j = some job →
      c.event? = some event → job.1.event? = some event' → event.eventId = event'.eventId →
      Harmless job) :
    HoldsApart { world := w', jobs := Function.update s.jobs i (some (c, p)) } := by
  constructor
  · intro j job hj
    rcases Pool.update_eq_some hj with ⟨rfl, hjob⟩ | ⟨hji, hjob⟩
    · obtain rfl := Option.some.inj hjob
      exact hstage
    · rcases h.stage j job hjob with hharm | ⟨event, hhold⟩
      · exact .inl hharm
      · exact (hothers j job event hji hjob hhold).imp_right fun hhold' => ⟨event, hhold'⟩
  · intro a b ja jb event event' hab ha hb hea heb hid
    rcases Pool.update_eq_some ha with ⟨rfl, hja⟩ | ⟨hai, hja⟩
    · obtain rfl := Option.some.inj hja
      rcases Pool.update_eq_some hb with ⟨hba, -⟩ | ⟨hba, hjb⟩
      · exact absurd hba.symm hab
      · refine halone.imp_right fun hall => ?_
        exact hall b jb event event' hba hjb hea heb hid
    · rcases Pool.update_eq_some hb with ⟨rfl, hjb⟩ | ⟨hbi, hjb⟩
      · obtain rfl := Option.some.inj hjb
        refine Or.symm (halone.imp_right fun hall => ?_)
        exact hall a ja event' event hai hja heb hea hid.symm
      · exact h.alone a b ja jb event event' hab hja hjb hea heb hid

theorem stage_cases {job : Call × Promise JsVal}
    (h : Harmless job ∨ ∃ event, Holding w job event) :
    (job.2.Performs fun op => ¬ Saves op) ∨
      (∃ event, job.1.event? = some event ∧ job.2 = consumers.body job.1) ∨
      ¬ Harmless job ∧ ∃ event, Holding w job event := by
  by_cases hharm : Harmless job
  · rcases hharm with hbody | hidle
    · cases hevent : job.1.event? with
      | none => exact .inl (harmless_of_no_event hevent (.inl hbody))
      | some event => exact .inr (.inl ⟨event, rfl, hbody⟩)
    · exact .inl hidle
  · exact .inr (.inr ⟨hharm, h.resolve_left hharm⟩)

/-- A job leaves. -/
theorem HoldsApart.drop [DecidableEq ι] {i : ι} (h : HoldsApart s) :
    HoldsApart { s with jobs := Function.update s.jobs i none } := by
  constructor
  · intro j job hj
    rcases Pool.update_eq_some hj with ⟨-, hjob⟩ | ⟨-, hjob⟩
    · cases hjob
    · exact h.stage j job hjob
  · intro a b ja jb event event' hab ha hb
    rcases Pool.update_eq_some ha with ⟨-, hja⟩ | ⟨-, hja⟩
    · cases hja
    · rcases Pool.update_eq_some hb with ⟨-, hjb⟩ | ⟨-, hjb⟩
      · cases hjb
      · exact h.alone a b ja jb event event' hab hja hjb

variable [DecidableEq ι]

/-- The operations of a job that writes no more change no row. -/
theorem HoldsApart.settle_idle {i : ι} {op : Op} {k : Except JsThrow op.Resp → Promise JsVal}
    (h : HoldsApart s) (hidle : (Async.await op k : Promise JsVal).Performs fun op => ¬ Saves op) :
    RowsKept s.world (s.world.exec c op).2 ∧
      HoldsApart { world := (s.world.exec c op).2
                   jobs := Function.update s.jobs i (some (c, k (.ok (s.world.exec c op).1))) } := by
  have hsame : (s.world.exec c op).2.processed = s.world.processed :=
    World.exec_processed c s.world fun row hrow => hidle.1 ⟨row, hrow⟩
  have hnext : Harmless (c, k (.ok (s.world.exec c op).1)) := .inr (hidle.2 _)
  refine ⟨fun e row hrow => by rwa [hsame], h.move (.inl hnext) ?_ (.inl hnext)⟩
  exact fun j job event _ _ hhold => .inr (hhold.keep (by rw [hsame]))

/-- The lookup takes hold of the event, unless its row is there. -/
theorem HoldsApart.settle_lookup {i : ι} {event : OrderCreatedEvent}
    {rest : Except JsThrow (Option ProcessedEventEntity) → Promise JsVal} (h : HoldsApart s)
    (hc : Spaced s (.settled i (.findByEvent event.eventId))) (hevent : c.event? = some event)
    (hknown : ∀ r, ∃ ack, rest (.ok (some r)) = .resolve ack)
    (honce : (rest (.ok none)).Once Saves) (hinside : (rest (.ok none)).Performs (Inside event)) :
    HoldsApart { world := (s.world.exec c (.findByEvent event.eventId)).2
                 jobs := Function.update s.jobs i
                  (some (c, rest (.ok (s.world.exec c (.findByEvent event.eventId)).1))) } := by
  have hothers : ∀ j job event', j ≠ i → s.jobs j = some job → Holding s.world job event' →
      Harmless job ∨ Holding (s.world.exec c (.findByEvent event.eventId)).2 job event' :=
    fun j job event' _ _ hhold => .inr (hhold.keep rfl)
  rw [World.exec_findByEvent]
  cases hfind : s.world.processed.find? event.eventId with
  | some r =>
    obtain ⟨ack, hack⟩ := hknown r
    have hnext : Harmless (c, rest (.ok (some r))) := Ended.harmless (.inl ⟨ack, hack⟩)
    exact h.move (.inl hnext) hothers (.inl hnext)
  | none =>
    refine h.move (.inr ⟨event, hevent, hfind, honce, hinside⟩) hothers (.inr ?_)
    intro j job event₁ event₂ hji hj hea heb hid
    obtain rfl : event = event₁ := Option.some.inj (hevent.symm.trans hea)
    rcases hc i event.eventId rfl j job event₂ hji hj heb hid.symm with hwaiting | hended
    · exact .inl hwaiting
    · exact hended.harmless

/-- The job that holds an event writes its row at most, and lets go with it. -/
theorem HoldsApart.settle_holding {i : ι} {op : Op} {k : Except JsThrow op.Resp → Promise JsVal}
    {event : OrderCreatedEvent} (h : HoldsApart s)
    (hhold : Holding s.world (c, .await op k) event)
    (hothers : ∀ j job event₁ event₂, j ≠ i → s.jobs j = some job → c.event? = some event₁ →
      job.1.event? = some event₂ → event₁.eventId = event₂.eventId → Harmless job) :
    RowsKept s.world (s.world.exec c op).2 ∧
      HoldsApart { world := (s.world.exec c op).2
                   jobs := Function.update s.jobs i (some (c, k (.ok (s.world.exec c op).1))) } := by
  by_cases hsave : Saves op
  · obtain ⟨row, rfl⟩ := hsave
    have hid : row.inboundEventId = event.eventId := hhold.inside.1.row row rfl
    have hnext : Harmless (c, k (.ok (s.world.exec c (.saveProcessed row)).1)) :=
      .inr (hhold.once.1 ⟨row, rfl⟩ _)
    have hfind : ∀ e, e ≠ event.eventId →
        (s.world.exec c (.saveProcessed row)).2.processed.find? e = s.world.processed.find? e := by
      intro e he
      rw [World.exec_saveProcessed]
      exact (Table.find?_save s.world.processed row e).trans (if_neg (hid ▸ he))
    refine ⟨fun e r hr => ?_, h.move (.inl hnext) ?_ (.inl hnext)⟩
    · rw [hfind e, hr]
      rintro rfl
      rw [hhold.free] at hr
      cases hr
    · intro j job event' hji hj hhold'
      by_cases hsameId : event.eventId = event'.eventId
      · exact .inl (hothers j job event event' hji hj hhold.handles hhold'.handles hsameId)
      · exact .inr (hhold'.keep (hfind _ (Ne.symm hsameId)))
  · have hsame : (s.world.exec c op).2.processed = s.world.processed :=
      World.exec_processed c s.world fun row hrow => hsave ⟨row, hrow⟩
    refine ⟨fun e row hrow => by rwa [hsame], h.move (.inr ⟨event, ?_⟩) ?_ (.inr hothers)⟩
    · exact ⟨hhold.handles, by rw [hsame, hhold.free], hhold.once.2 _, hhold.inside.2 _⟩
    · exact fun j job event' _ _ hhold' => .inr (hhold'.keep (by rw [hsame]))

/-- An operation that settles, by the stage its job is in. -/
theorem HoldsApart.settle {i : ι} {op : Op} {k : Except JsThrow op.Resp → Promise JsVal}
    (h : HoldsApart s) (hc : Spaced s (.settled i op)) (hi : s.jobs i = some (c, .await op k)) :
    RowsKept s.world (s.world.exec c op).2 ∧
      HoldsApart { world := (s.world.exec c op).2
                   jobs := Function.update s.jobs i (some (c, k (.ok (s.world.exec c op).1))) } := by
  rcases stage_cases (h.stage i _ hi) with hidle | ⟨event, hevent, hbody⟩ | ⟨hharm, event, hhold⟩
  · exact h.settle_idle hidle
  · obtain ⟨rest, hrest, -, hknown, honce, hinside⟩ := body_of_event hevent
    have heq : Async.await op k = .await (.findByEvent event.eventId) rest := hbody.trans hrest
    cases heq
    have hkept : RowsKept s.world (s.world.exec c (.findByEvent event.eventId)).2 :=
      fun e row hrow => hrow
    exact ⟨hkept, h.settle_lookup hc hevent hknown honce hinside⟩
  · refine h.settle_holding hhold fun j job event₁ event₂ hji hj hea heb hid => ?_
    exact (h.alone i j _ job event₁ event₂ (Ne.symm hji) hi hj hea heb hid).resolve_left hharm

/-- A rejected operation changes no row; a rejected lookup ends its job. -/
theorem HoldsApart.reject {i : ι} {op : Op} {k : Except JsThrow op.Resp → Promise JsVal}
    (h : HoldsApart s) (hi : s.jobs i = some (c, .await op k)) (e : JsThrow) :
    HoldsApart { s with jobs := Function.update s.jobs i (some (c, k (.error e))) } := by
  have hothers : ∀ j job event', j ≠ i → s.jobs j = some job → Holding s.world job event' →
      Harmless job ∨ Holding s.world job event' := fun _ _ _ _ _ hhold => .inr hhold
  rcases stage_cases (h.stage i _ hi) with hidle | ⟨event, hevent, hbody⟩ | ⟨hharm, event, hhold⟩
  · have hnext : Harmless (c, k (.error e)) := .inr (hidle.2 _)
    exact h.move (.inl hnext) hothers (.inl hnext)
  · obtain ⟨rest, hrest, hfail, -⟩ := body_of_event hevent
    have heq : Async.await op k = .await (.findByEvent event.eventId) rest := hbody.trans hrest
    cases heq
    have hnext : Harmless (c, rest (.error e)) := Ended.harmless (.inr ⟨e, hfail e⟩)
    exact h.move (.inl hnext) hothers (.inl hnext)
  · refine h.move (.inr ⟨event, ?_⟩) hothers (.inr ?_)
    · exact ⟨hhold.handles, hhold.free, hhold.once.2 _, hhold.inside.2 _⟩
    · exact fun j job event₁ event₂ hji hj hea heb hid =>
        (h.alone i j _ job event₁ event₂ (Ne.symm hji) hi hj hea heb hid).resolve_left hharm

/-- Every step that meets the condition keeps the rows, and the invariant. -/
theorem HoldsApart.step {l : PoolAct ι Call Op JsThrow} (h : HoldsApart s) (hc : Spaced s l)
    (hstep : Pool.Step consumers s l s') : RowsKept s.world s'.world ∧ HoldsApart s' := by
  have hstay : RowsKept s.world s.world := fun _ _ hrow => hrow
  cases hstep with
  | env henv =>
    obtain ⟨records, rfl⟩ := henv
    refine ⟨fun _ _ hrow => hrow, fun i job hi => ?_, h.alone⟩
    exact (h.stage i job hi).imp_right fun ⟨event, hhold⟩ => ⟨event, hhold.keep rfl⟩
  | start hi _ =>
    have hnext : ∀ c : Call, Harmless (c, consumers.body c) := fun _ => .inl rfl
    exact ⟨hstay, h.move (.inl (hnext _)) (fun _ _ _ _ _ hhold => .inr hhold) (.inl (hnext _))⟩
  | settled hi => exact h.settle hc hi
  | rejected hi _ => exact ⟨hstay, h.reject hi _⟩
  | resolve hi | reject hi | crash hi => exact ⟨hstay, h.drop⟩

theorem holdsApart_run {w : World Call} {ls : List (PoolAct ι Call Op JsThrow)}
    (hrun : RunWhere (Pool.Step consumers) Spaced (Pool.idle w) ls s) : HoldsApart s := by
  have hidle : HoldsApart (Pool.idle w : Pool ι (World Call) Call Op Op.Resp JsThrow JsVal) :=
    ⟨fun _ _ h => by simp [Pool.idle] at h, fun _ _ _ _ _ _ _ h => by simp [Pool.idle] at h⟩
  exact hrun.invariant hidle fun _ _ _ hinv hc hstep => (hinv.step hc hstep).2

/-- `hasApprovedPaymentForOrder`, on the table as it stands. -/
def hasApprovedPaymentForOrder (rows : ProcessedEventsTable) (orderId : String) : Bool :=
  0 < rows.rows.countP fun r => r.orderId = orderId ∧ r.outcome = .approved

theorem RowsKept.approved {orderId : String} (h : RowsKept w w')
    (happ : hasApprovedPaymentForOrder w.processed orderId = true) :
    hasApprovedPaymentForOrder w'.processed orderId = true := by
  unfold hasApprovedPaymentForOrder at happ ⊢
  rw [decide_eq_true_eq, List.countP_pos_iff] at happ ⊢
  obtain ⟨r, hr, hp⟩ := happ
  obtain ⟨hr', -⟩ := Table.find?_eq_some.mp (h r.inboundEventId r (Table.find?_eq_some.mpr ⟨hr, rfl⟩))
  exact ⟨r, hr', hp⟩

/-- What a stored row says of its payment is never taken back. -/
structure WriteOnce (w w' : World Call) : Prop where
  row : ∀ e r, w.processed.find? e = some r →
    ∃ r', w'.processed.find? e = some r' ∧ r'.outcome = r.outcome ∧ r'.paymentId = r.paymentId
  approved : ∀ orderId, hasApprovedPaymentForOrder w.processed orderId = true →
    hasApprovedPaymentForOrder w'.processed orderId = true

/-- Replicas that leave each other's handlings of one event alone, from the lookup on,
never overwrite an outcome. -/
theorem write_once_of_spaced {ls ms : List (PoolAct ι Call Op JsThrow)}
    {t : Pool ι (World Call) Call Op Op.Resp JsThrow JsVal} {w : World Call}
    (hrun : RunWhere (Pool.Step consumers) Spaced (Pool.idle w) ls s)
    (hmore : RunWhere (Pool.Step consumers) Spaced s ms t) : WriteOnce s.world t.world := by
  have hkept : RowsKept s.world t.world ∧ HoldsApart t := by
    induction hmore with
    | nil => exact ⟨fun _ _ hrow => hrow, holdsApart_run hrun⟩
    | snoc _ hc hstep ih =>
      obtain ⟨hstepKept, hinv⟩ := ih.2.step hc hstep
      exact ⟨fun e r hr => hstepKept e r (ih.1 e r hr), hinv⟩
  exact ⟨fun e r hr => ⟨r, hkept.1 e r hr, rfl, rfl⟩, fun orderId => hkept.1.approved⟩

/-- A process that draws other ids, and whose gateway declines. -/
def decliningProcess : Process :=
  .still ⟨"33333333-3333-4333-8333-333333333333", by decide⟩ ⟨0, le_rfl, one_pos⟩

/-- The second delivery of one message finds the row of the first. -/
theorem write_once_redelivered : ∃ ls ms,
    ∃ s t : Pool Unit (World Call) Call Op Op.Resp JsThrow JsVal,
      RunWhere (Pool.Step consumers) Spaced (Pool.idle World.empty) ls s ∧
      RunWhere (Pool.Step consumers) Spaced s ms t ∧
      hasApprovedPaymentForOrder s.world.processed "o-1" = true ∧ WriteOnce s.world t.world := by
  have hspaced : ∀ (t : Pool Unit (World Call) Call Op Op.Resp JsThrow JsVal) l, Spaced t l :=
    fun _ _ _ _ _ _ _ _ hne => absurd rfl hne
  have hcall : ∀ (c : Call) (w : World Call), ∃ ls, RunWhere (Pool.Step consumers) Spaced
      (Pool.idle w : Pool Unit (World Call) Call Op Op.Resp JsThrow JsVal) ls
        (Pool.idle (handled c (fun _ => none) w)) := fun c w =>
    handled_run () c (fun _ => none) rfl (hspaced _ _) (fun _ _ => hspaced _ _)
      (fun _ _ _ _ => hspaced _ _) fun _ => hspaced _ _
  obtain ⟨ls, hrun⟩ := hcall (delivery .second "o-1") World.empty
  obtain ⟨ms, hmore⟩ := hcall { delivery .second "o-1" with proc := decliningProcess }
    (handled (delivery .second "o-1") (fun _ => none) World.empty)
  have happ : hasApprovedPaymentForOrder
      (handled (delivery .second "o-1") (fun _ => none) World.empty).processed "o-1" = true := by
    decide +kernel
  exact ⟨ls, ms, _, _, hrun, hmore, happ, write_once_of_spaced hrun hmore⟩

/-- One message on two replicas, as after a rebalance: one is approved and recorded, and
the other, declined, overwrites its row. -/
theorem raced_overwrites : ¬ ∀ ls ms,
    ∀ s t : Pool Bool (World Call) Call Op Op.Resp JsThrow JsVal,
      RunWhere (Pool.Step consumers) Smooth (Pool.idle World.empty) ls s →
      RunWhere (Pool.Step consumers) Smooth s ms t → WriteOnce s.world t.world := by
  intro hall
  let c : Call := delivery .second "o-1"
  let d : Call := { c with proc := decliningProcess }
  obtain ⟨ls, ms, s, hrun, hworld, hmore⟩ := overtaken_run c d
  have hkept := (hall ls ms s _ hrun hmore).approved "o-1"
  rw [hworld] at hkept
  have hbefore : hasApprovedPaymentForOrder (overtaken c d).2.processed "o-1" = true := by
    decide +kernel
  have hafter : hasApprovedPaymentForOrder ((overtaken c d).1.run (consumers.settle d fun _ => none)
      (overtaken c d).2).2.processed "o-1" = false := by decide +kernel
  have htrue := hkept hbefore
  change hasApprovedPaymentForOrder ((overtaken c d).1.run (consumers.settle d fun _ => none)
    (overtaken c d).2).2.processed "o-1" = true at htrue
  rw [hafter] at htrue
  cases htrue

end Replicas

end EventFlow.Payments
