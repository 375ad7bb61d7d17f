import EventFlow.Framework.Pool
import EventFlow.Orders.Wire
import EventFlow.Services.System

namespace EventFlow.Services.Orders

open Js Shared Async

section Calls

/-- The status that a feedback method sets. -/
def feedbackStatus : RetriedHandler → Option OrderStatus
  | .orderPaymentEvents | .orderStockFailed => some .failed
  | .orderStockReleased => some .cancelled
  | .orderNotificationSent => some .completed
  | _ => none

/-- A call is about an order: it creates it, or its message has an update select it. -/
def Concerns : Call → String → Prop
  | .createOrder proc _, o => (proc.uuid 0).val = o
  | .consume h proc _ payload, o => ∃ envelope criterion,
      h.read payload = .ok (.accepted envelope) ∧
      proc.drivers.criterion ((envelope.get "payload").get "orderId") = .ok criterion ∧
      criterion o = true

def isOrderService : Call → Prop
  | .createOrder _ _ => True
  | .consume h _ _ _ => h.service = .orderService

/-- order-service: requests and feedback at any time, from any number of processes. -/
def orderService : Platform (World Call) Call Op Op.Resp JsThrow JsVal where
  body := Call.body
  exec c w op := w.exec c op
  mayReject _ := True
  ready _ c := isOrderService c
  env w w' := ∃ records, w' = { w with log := w.log ++ records }

/-- A feedback method sets its one status on the orders that its message selects. -/
structure Feeds (h : RetriedHandler) (c : Call) (op : Op) : Prop where
  save : ∀ row, op ≠ .saveOrder row
  update : ∀ criterion status, op = .updateOrder criterion status →
    feedbackStatus h = some status ∧ ∀ o, criterion o = true → Concerns c o

theorem performs_feedback {h : RetriedHandler} (hh : h.service = .orderService) (proc : Process)
    (headers : List (String × RawHeader)) (payload : KafkaValue) :
    (h.method proc headers payload).Performs (Feeds h (.consume h proc headers payload)) := by
  refine performs_method h (fun op hq => ?_) (fun row => ⟨fun _ => nofun, fun _ _ => nofun⟩)
    fun envelope hread => ⟨?_, fun _ _ _ => ⟨fun _ => nofun, fun _ _ => nofun⟩,
      fun _ _ _ _ => ⟨fun _ => nofun, fun _ _ => nofun⟩⟩
  · obtain ⟨-, -, hsave, hupdate⟩ := not_write_of_quiet hq
    exact ⟨hsave, fun criterion status heq => absurd heq (hupdate criterion status)⟩
  · have hprojects : ∀ status, feedbackStatus h = some status → ∀ criterion,
        proc.drivers.criterion ((envelope.get "payload").get "orderId") = .ok criterion →
        Feeds h (.consume h proc headers payload) (.updateOrder criterion status) := by
      intro status hstatus criterion hcriterion
      refine ⟨fun _ => nofun, fun criterion' status' heq => ?_⟩
      cases heq
      exact ⟨hstatus, fun o ho => ⟨envelope, criterion, hread, hcriterion, ho⟩⟩
    cases h with
    | orderPaymentEvents | orderStockReleased | orderStockFailed | orderNotificationSent =>
      exact performs_projectStatus (hprojects _ rfl)
    | _ => cases hh

/-- A request saves one row, as pending or as failed. -/
structure Creates (orderId : String) (op : Op) : Prop where
  save : ∀ row, op = .saveOrder row →
    row.id = orderId ∧ (row.status = .pending ∨ row.status = .failed)
  update : ∀ criterion status, op ≠ .updateOrder criterion status

def savesRow (op : Op) : Prop := ∃ row, op = .saveOrder row

def savesFailed (op : Op) : Prop := ∃ row, op = .saveOrder row ∧ row.status = .failed

/-- Any save that is still to come has this status. -/
def SavesOnly (status : OrderStatus) (op : Op) : Prop :=
  ∀ row, op = .saveOrder row → row.status = status

variable {proc : Process} {dto : CreateOrderDto}

theorem performs_saveOrder {row : OrderEntity} (hid : row.id = (proc.uuid 0).val)
    (hstatus : row.status = .pending ∨ row.status = .failed) :
    (saveOrder row).Performs (Creates (proc.uuid 0).val) := by
  refine (performs_perform _).mpr ⟨fun row' heq => ?_, fun _ _ => nofun⟩
  cases heq
  exact ⟨hid, hstatus⟩

theorem creates_createOrder : (createOrder proc dto).Performs (Creates (proc.uuid 0).val) := by
  refine (performs_saveOrder rfl (.inl rfl)).bind fun _ => ?_
  split_ifs
  · trivial
  refine (performs_saveOrder rfl (.inl rfl)).bind fun _ => Performs.bind ?_ fun _ => trivial
  refine Performs.tryCatch ?_ fun e => ?_
  · exact performs_orderPublish (fun _ => ⟨fun _ => nofun, fun _ _ => nofun⟩)
      fun _ _ _ => ⟨fun _ => nofun, fun _ _ => nofun⟩
  · exact (performs_saveOrder rfl (.inr rfl)).bind fun _ => performs_ofExcept_bind fun _ _ => trivial

theorem not_savesFailed_saveOrder {row : OrderEntity} (h : row.status = .pending) :
    (saveOrder row).Performs fun op => ¬ savesFailed op := by
  refine (performs_perform _).mpr fun ⟨row', heq, hfailed⟩ => ?_
  cases heq
  rw [h] at hfailed
  cases hfailed

/-- The row is saved as failed at the end, if at all. -/
theorem closes_createOrder : (createOrder proc dto).Closes savesFailed savesRow := by
  refine (not_savesFailed_saveOrder rfl).closes_bind fun _ => ?_
  split_ifs
  · trivial
  refine (not_savesFailed_saveOrder rfl).closes_bind fun _ => Closes.bind ?_ (fun _ => trivial) ?_
  · refine Performs.closes_tryCatch ?_ fun e => (closes_perform _).bind (fun _ => ?_) ?_
    · refine performs_orderPublish (fun _ => ?_) fun _ _ _ => ?_
      · rintro ⟨row, heq, -⟩
        cases heq
      · rintro ⟨row, heq, -⟩
        cases heq
    · exact performs_ofExcept_bind fun _ _ => trivial
    · rintro op ⟨row, rfl, -⟩
      exact ⟨row, rfl⟩
  · rintro op ⟨row, rfl, -⟩
    exact ⟨row, rfl⟩

end Calls

section Writes

variable {c : Call} {w : World Call} {op : Op}

/-- What feedback does to the row of an order. -/
theorem find?_of_feeds {h : RetriedHandler} (hop : Feeds h c op) (o : String) :
    (w.exec c op).2.orders.find? o = w.orders.find? o ∨
      ∃ old status, feedbackStatus h = some status ∧ Concerns c o ∧ w.orders.find? o = some old ∧
        (w.exec c op).2.orders.find? o = some { old with status := status } := by
  by_cases hupdate : ∃ criterion status, op = .updateOrder criterion status
  · obtain ⟨criterion, status, rfl⟩ := hupdate
    obtain ⟨hstatus, hconcerns⟩ := hop.update criterion status rfl
    rw [World.find?_exec_updateOrder]
    cases hfind : w.orders.find? o with
    | none => exact .inl rfl
    | some old =>
      cases hselects : criterion o with
      | false => exact .inl (by simp)
      | true => exact .inr ⟨old, status, hstatus, hconcerns o hselects, rfl, by simp⟩
  · left
    rw [World.exec_orders c w hop.save fun criterion status heq => hupdate ⟨criterion, status, heq⟩]

/-- What a request does to it. -/
theorem find?_of_creates {orderId : String} (hop : Creates orderId op) (o : String) :
    (w.exec c op).2.orders.find? o = w.orders.find? o ∨
      o = orderId ∧ ∃ row, op = .saveOrder row ∧ (w.exec c op).2.orders.find? o = some row := by
  by_cases hsave : ∃ row, op = .saveOrder row
  · obtain ⟨row, rfl⟩ := hsave
    rw [World.find?_exec_saveOrder]
    by_cases ho : o = row.id
    · exact .inr ⟨ho.trans (hop.save row rfl).1, row, rfl, if_pos ho⟩
    · exact .inl (if_neg ho)
  · left
    rw [World.exec_orders c w (fun row heq => hsave ⟨row, heq⟩) hop.update]

end Writes

section Runs

variable {ι : Type} [DecidableEq ι]

/-- Every order has one final status: its feedback asks for it, and a request that
cannot publish marks the order failed only if that is it. The id of a new order has no row
and nobody is at work on it, and feedback comes when its order's request has no save of
another status before it. -/
structure Agrees (term : String → OrderStatus)
    (s : Pool ι (World Call) Call Op Op.Resp JsThrow JsVal) (l : PoolAct ι Call Op JsThrow) :
    Prop where
  feedback : ∀ i h proc headers payload status o, l = .start i (.consume h proc headers payload) →
    feedbackStatus h = some status → Concerns (.consume h proc headers payload) o →
    status = term o
  failed : ∀ i row, l = .settled i (.saveOrder row) → row.status = .failed → term row.id = .failed
  fresh : ∀ i proc dto, l = .start i (.createOrder proc dto) →
    s.world.orders.find? (proc.uuid 0).val = none ∧
      ∀ j job, s.jobs j = some job → ¬ Concerns job.1 (proc.uuid 0).val
  apart : ∀ i h proc headers payload status, l = .start i (.consume h proc headers payload) →
    feedbackStatus h = some status → ∀ j proc' dto p, s.jobs j = some (.createOrder proc' dto, p) →
    Concerns (.consume h proc headers payload) (proc'.uuid 0).val → p.Performs (SavesOnly status)

variable {term : String → OrderStatus}

/-- A request is at work on the row of its order. -/
structure Creating (orderId : String) (w : World Call) (p : Promise JsVal) : Prop where
  creates : p.Performs (Creates orderId)
  closes : p.Closes savesFailed savesRow
  kept : ∀ row, w.orders.find? orderId = some row → row.status.terminal = true →
    p.Performs (SavesOnly row.status)

/-- A feedback method is at work on the rows that its message selects. -/
structure Feeding (term : String → OrderStatus) (h : RetriedHandler) (c : Call)
    (p : Promise JsVal) : Prop where
  feeds : p.Performs (Feeds h c)
  agrees : ∀ status o, feedbackStatus h = some status → Concerns c o → status = term o

def JobOk (term : String → OrderStatus) (w : World Call) : Call × Promise JsVal → Prop
  | (.createOrder proc _, p) => Creating (proc.uuid 0).val w p
  | (.consume h proc headers payload, p) => Feeding term h (.consume h proc headers payload) p

/-- No other call writes another status while a request may save its row. -/
def Apart : Call × Promise JsVal → Call → Prop
  | (.createOrder proc _, _), .createOrder proc' _ => (proc.uuid 0).val ≠ (proc'.uuid 0).val
  | (.createOrder proc _, p), .consume h proc' headers payload => ∀ status,
      feedbackStatus h = some status →
      Concerns (.consume h proc' headers payload) (proc.uuid 0).val → p.Performs (SavesOnly status)
  | (.consume _ _ _ _, _), _ => True

/-- Rows only ever leave `pending`, for the final status of their order. -/
structure Ordered (term : String → OrderStatus)
    (s : Pool ι (World Call) Call Op Op.Resp JsThrow JsVal) : Prop where
  safe : ∀ o row, s.world.orders.find? o = some row → row.status = .pending ∨ row.status = term o
  job : ∀ i job, s.jobs i = some job → JobOk term s.world job
  apart : ∀ i j a b, i ≠ j → s.jobs i = some a → s.jobs j = some b → Apart a b.1

/-- What has ended stays as it is. -/
def Absorbs (w w' : World Call) : Prop :=
  ∀ o row, w.orders.find? o = some row → row.status.terminal = true →
    ∃ row', w'.orders.find? o = some row' ∧ row'.status = row.status

section Steps

variable {s s' : Pool ι (World Call) Call Op Op.Resp JsThrow JsVal} {i : ι} {c : Call} {op : Op}
  {w w' : World Call} {k : Except JsThrow op.Resp → Promise JsVal}

omit [DecidableEq ι] in
theorem JobOk.next (h : JobOk term w (c, .await op k)) (r : Except JsThrow op.Resp) :
    JobOk term w (c, k r) := by
  cases c with
  | createOrder proc dto =>
    exact ⟨h.creates.2 r, h.closes.2 r, fun row hrow hterminal => (h.kept row hrow hterminal).2 r⟩
  | consume h' proc headers payload => exact ⟨h.feeds.2 r, h.agrees⟩

theorem Apart.next {d : Call} (h : Apart (c, .await op k) d) (r : Except JsThrow op.Resp) :
    Apart (c, k r) d := by
  cases c with
  | createOrder proc dto =>
    cases d with
    | createOrder proc' dto' => exact h
    | consume h' proc' headers payload =>
      exact fun status hstatus hconcerns => (h status hstatus hconcerns).2 r
  | consume h' proc headers payload => trivial

/-- Only a row that has ended matters to a job. -/
theorem JobOk.write {job : Call × Promise JsVal} (h : JobOk term w job)
    (hrow : ∀ proc dto, job.1 = .createOrder proc dto → ∀ row,
      w'.orders.find? (proc.uuid 0).val = some row → row.status.terminal = true →
      job.2.Performs (SavesOnly row.status)) : JobOk term w' job := by
  obtain ⟨c, p⟩ := job
  cases c with
  | createOrder proc dto => exact ⟨h.creates, h.closes, fun row => hrow proc dto rfl row⟩
  | consume h' proc headers payload => exact h

/-- One job goes on, and the others can live with what it has done. -/
theorem Ordered.moved {p p' : Promise JsVal} (h : Ordered term s) (hi : s.jobs i = some (c, p))
    (hsafe : ∀ o row, w'.orders.find? o = some row → row.status = .pending ∨ row.status = term o)
    (hown : JobOk term w' (c, p')) (hapart : ∀ d, Apart (c, p) d → Apart (c, p') d)
    (hothers : ∀ j job, j ≠ i → s.jobs j = some job → JobOk term w' job) :
    Ordered term { world := w', jobs := Function.update s.jobs i (some (c, p')) } := by
  refine ⟨hsafe, fun j job hj => ?_, fun j l a b hne ha hb => ?_⟩
  · rcases Pool.update_eq_some hj with ⟨rfl, hjob⟩ | ⟨hji, hjob⟩
    · obtain rfl := Option.some.inj hjob
      exact hown
    · exact hothers j job hji hjob
  · have hcall : ∃ b', s.jobs l = some b' ∧ b'.1 = b.1 := by
      rcases Pool.update_eq_some hb with ⟨rfl, hjob⟩ | ⟨-, hjob⟩
      · exact ⟨_, hi, by rw [← Option.some.inj hjob]⟩
      · exact ⟨b, hjob, rfl⟩
    obtain ⟨b', hb', hcalled⟩ := hcall
    rw [← hcalled]
    rcases Pool.update_eq_some ha with ⟨rfl, hjob⟩ | ⟨-, hjob⟩
    · obtain rfl := Option.some.inj hjob
      exact hapart b'.1 (h.apart j l _ b' hne hi hb')
    · exact h.apart j l a b' hne hjob hb'

/-- A feedback method sets the final status of its orders. -/
theorem Ordered.fed {h' : RetriedHandler} {proc : Process} {headers : List (String × RawHeader)}
    {payload : KafkaValue} (h : Ordered term s)
    (hi : s.jobs i = some (.consume h' proc headers payload, .await op k))
    (r : Except JsThrow op.Resp) :
    Absorbs s.world (s.world.exec (.consume h' proc headers payload) op).2 ∧
      Ordered term { world := (s.world.exec (.consume h' proc headers payload) op).2
                     jobs := Function.update s.jobs i
                      (some (.consume h' proc headers payload, k r)) } := by
  have hjob : JobOk term s.world (.consume h' proc headers payload, .await op k) := h.job i _ hi
  have hwrites := find?_of_feeds (w := s.world) hjob.feeds.1
  constructor
  · intro o row hrow hterminal
    rcases hwrites o with hsame | ⟨old, status, hstatus, hconcerns, hold, hnew⟩
    · exact ⟨row, hsame.trans hrow, rfl⟩
    · obtain rfl := Option.some.inj (hold.symm.trans hrow)
      refine ⟨_, hnew, ?_⟩
      rcases h.safe o old hold with hpending | hfinal
      · rw [hpending] at hterminal
        cases hterminal
      · exact (hjob.agrees status o hstatus hconcerns).trans hfinal.symm
  · refine h.moved hi (fun o row hrow => ?_) (hjob.next r) (fun d hd => hd.next r)
      fun j job hji hj => (h.job j job hj).write fun proc' dto hcreate row hrow hterminal => ?_
    · rcases hwrites o with hsame | ⟨old, status, hstatus, hconcerns, -, hnew⟩
      · exact h.safe o row (hsame.symm.trans hrow)
      · obtain rfl := Option.some.inj (hnew.symm.trans hrow)
        exact .inr (hjob.agrees status o hstatus hconcerns)
    · obtain ⟨d, q⟩ := job
      obtain rfl : d = _ := hcreate
      rcases hwrites (proc'.uuid 0).val with hsame | ⟨old, status, hstatus, hconcerns, -, hnew⟩
      · exact (h.job j _ hj).kept row (hsame.symm.trans hrow) hterminal
      · obtain rfl := Option.some.inj (hnew.symm.trans hrow)
        exact h.apart j i _ _ hji hj hi status hstatus hconcerns

/-- A request saves a row that has not ended yet, or as it is. -/
theorem Ordered.created {proc : Process} {dto : CreateOrderDto} (h : Ordered term s)
    (hi : s.jobs i = some (.createOrder proc dto, .await op k))
    (hfailed : ∀ row, op = .saveOrder row → row.status = .failed → term row.id = .failed)
    (r : Except JsThrow op.Resp) :
    Absorbs s.world (s.world.exec (.createOrder proc dto) op).2 ∧
      Ordered term { world := (s.world.exec (.createOrder proc dto) op).2
                     jobs := Function.update s.jobs i (some (.createOrder proc dto, k r)) } := by
  have hjob : JobOk term s.world (.createOrder proc dto, .await op k) := h.job i _ hi
  have hwrites := find?_of_creates (c := .createOrder proc dto) (w := s.world) hjob.creates.1
  constructor
  · intro o row hrow hterminal
    rcases hwrites o with hsame | ⟨rfl, row', hop, hnew⟩
    · exact ⟨row, hsame.trans hrow, rfl⟩
    · exact ⟨row', hnew, (hjob.kept row hrow hterminal).1 row' hop⟩
  · refine h.moved hi (fun o row hrow => ?_) ?_ (fun d hd => hd.next r)
      fun j job hji hj => (h.job j job hj).write fun proc' dto' hcreate row hrow hterminal => ?_
    · rcases hwrites o with hsame | ⟨rfl, row', hop, hnew⟩
      · exact h.safe o row (hsame.symm.trans hrow)
      · obtain rfl := Option.some.inj (hnew.symm.trans hrow)
        obtain ⟨hid, hpending | hlost⟩ := hjob.creates.1.save row' hop
        · exact .inl hpending
        · right
          rw [hlost, ← hid, hfailed row' hop hlost]
    · refine (hjob.next r).write fun proc' dto' hcreate row hrow hterminal => ?_
      cases hcreate
      rcases hwrites (proc.uuid 0).val with hsame | ⟨-, row', hop, hnew⟩
      · exact (hjob.kept row (hsame.symm.trans hrow) hterminal).2 r
      · obtain rfl := Option.some.inj (hnew.symm.trans hrow)
        rcases (hjob.creates.1.save row' hop).2 with hpending | hlost
        · rw [hpending] at hterminal
          cases hterminal
        · -- The last save is behind the request.
          have hnone := hjob.closes.1 ⟨row', hop, hlost⟩ r
          exact hnone.imp fun op' hop' row heq => absurd ⟨row, heq⟩ hop'
    · obtain ⟨d, q⟩ := job
      obtain rfl : d = _ := hcreate
      rcases hwrites (proc'.uuid 0).val with hsame | ⟨hid, -⟩
      · exact (h.job j _ hj).kept row (hsame.symm.trans hrow) hterminal
      · exact absurd hid (h.apart j i _ _ hji hj hi)

/-- A call that comes to an end leaves the rest in order. -/
theorem Ordered.dropped (h : Ordered term s) :
    Ordered term { s with jobs := Function.update s.jobs i none } := by
  have hbefore : ∀ {j job}, Function.update s.jobs i none j = some job → s.jobs j = some job := by
    intro j job hj
    rcases Pool.update_eq_some hj with ⟨-, hjob⟩ | ⟨-, hjob⟩
    · cases hjob
    · exact hjob
  exact ⟨h.safe, fun j job hj => h.job j job (hbefore hj),
    fun j l a b hne ha hb => h.apart j l a b hne (hbefore ha) (hbefore hb)⟩

/-- A call that starts finds its order free. -/
theorem Ordered.started (h : Ordered term s) (hc : Agrees term s (.start i c))
    (hready : isOrderService c) :
    Ordered term { s with jobs := Function.update s.jobs i (some (c, c.body)) } := by
  refine ⟨h.safe, fun j job hj => ?_, fun j l a b hne ha hb => ?_⟩
  · rcases Pool.update_eq_some hj with ⟨rfl, hjob⟩ | ⟨-, hjob⟩
    · obtain rfl := Option.some.inj hjob
      cases c with
      | createOrder proc dto =>
        refine ⟨creates_createOrder, closes_createOrder, fun row hrow => ?_⟩
        rw [(hc.fresh j proc dto rfl).1] at hrow
        cases hrow
      | consume h' proc headers payload =>
        exact ⟨performs_feedback hready proc headers payload,
          fun status o hstatus hconcerns => hc.feedback j h' proc headers payload status o rfl hstatus
            hconcerns⟩
    · exact h.job j job hjob
  · rcases Pool.update_eq_some ha with ⟨rfl, hja⟩ | ⟨hji, hja⟩
    · obtain rfl := Option.some.inj hja
      rcases Pool.update_eq_some hb with ⟨hlj, -⟩ | ⟨-, hjb⟩
      · exact absurd hlj.symm hne
      cases c with
      | createOrder proc dto =>
        have hunused := (hc.fresh j proc dto rfl).2 l b hjb
        obtain ⟨d, q⟩ := b
        cases d with
        | createOrder proc' dto' => exact fun heq => hunused heq.symm
        | consume h' proc' headers payload => exact fun _ _ hconcerns => absurd hconcerns hunused
      | consume h' proc headers payload => trivial
    · rcases Pool.update_eq_some hb with ⟨rfl, hjb⟩ | ⟨-, hjb⟩
      · obtain rfl := Option.some.inj hjb
        obtain ⟨d, q⟩ := a
        cases d with
        | createOrder proc dto =>
          cases c with
          | createOrder proc' dto' => exact (hc.fresh l proc' dto' rfl).2 j _ hja
          | consume h' proc' headers payload =>
            exact fun status hstatus hconcerns =>
              hc.apart l h' proc' headers payload status rfl hstatus j proc dto q hja hconcerns
        | consume h' proc headers payload => trivial
      · exact h.apart j l a b hne hja hjb

omit [DecidableEq ι] in
theorem absorbs_refl (w : World Call) : Absorbs w w := fun _ row hrow _ => ⟨row, hrow, rfl⟩

theorem Absorbs.trans {w'' : World Call} (h : Absorbs w w') (h' : Absorbs w' w'') :
    Absorbs w w'' := by
  intro o row hrow hterminal
  obtain ⟨row', hrow', heq⟩ := h o row hrow hterminal
  obtain ⟨row'', hrow'', heq'⟩ := h' o row' hrow' (heq ▸ hterminal)
  exact ⟨row'', hrow'', heq'.trans heq⟩

theorem Ordered.step {l : PoolAct ι Call Op JsThrow} (h : Ordered term s) (hc : Agrees term s l)
    (hstep : Pool.Step orderService s l s') : Absorbs s.world s'.world ∧ Ordered term s' := by
  cases hstep with
  | env hw =>
    obtain ⟨records, rfl⟩ := hw
    have hjob : ∀ i job, s.jobs i = some job →
        JobOk term { s.world with log := s.world.log ++ records } job := by
      intro i job hi
      have hok : JobOk term s.world job := h.job i job hi
      obtain ⟨c, p⟩ := job
      cases c with
      | createOrder proc dto => exact ⟨hok.creates, hok.closes, hok.kept⟩
      | consume h' proc headers payload => exact hok
    exact ⟨fun _ row hrow _ => ⟨row, hrow, rfl⟩, h.safe, hjob, h.apart⟩
  | start hi hready => exact ⟨absorbs_refl _, h.started hc hready⟩
  | @settled i c op k hi =>
    cases c with
    | createOrder proc dto =>
      exact h.created hi (fun row hop => hc.failed i row (by rw [hop])) _
    | consume h' proc headers payload => exact h.fed hi _
  | @rejected i c op k e hi _ =>
    exact ⟨absorbs_refl _, h.moved hi h.safe ((h.job i _ hi).next _) (fun d hd => hd.next _)
      fun j job _ hj => h.job j job hj⟩
  | resolve hi => exact ⟨absorbs_refl _, h.dropped⟩
  | reject hi => exact ⟨absorbs_refl _, h.dropped⟩
  | crash hi => exact ⟨absorbs_refl _, h.dropped⟩

end Steps

variable {ls ms : List (PoolAct ι Call Op JsThrow)}
  {s t : Pool ι (World Call) Call Op Op.Resp JsThrow JsVal}

theorem ordered_of_run
    (hrun : RunWhere (Pool.Step orderService) (Agrees term) (Pool.idle World.empty) ls s) :
    Ordered term s := by
  refine hrun.invariant ⟨fun o row hrow => ?_, fun i job hi => ?_, fun i j a b _ ha => ?_⟩
    fun s l s' h hc hstep => (h.step hc hstep).2
  · cases hrow
  · cases hi
  · cases ha

/-- While requests and feedback agree on how each order ends, an order that has
ended keeps its status, in whatever order the feedback is delivered. -/
theorem terminal_absorbing
    (hrun : RunWhere (Pool.Step orderService) (Agrees term) (Pool.idle World.empty) ls s)
    (hmore : RunWhere (Pool.Step orderService) (Agrees term) s ms t) {orderId : String}
    {row : OrderEntity} (hrow : s.world.orders.find? orderId = some row)
    (hterminal : row.status.terminal = true) :
    ∃ row', t.world.orders.find? orderId = some row' ∧ row'.status = row.status := by
  have hboth : Absorbs s.world t.world ∧ Ordered term t := by
    induction hmore with
    | nil => exact ⟨absorbs_refl _, ordered_of_run hrun⟩
    | snoc _ hc hstep ih =>
      obtain ⟨habsorbs, hordered⟩ := ih.2.step hc hstep
      exact ⟨ih.1.trans habsorbs, hordered⟩
  exact hboth.1 orderId row hrow hterminal

/-- A request whose order gets the id `Uuid.first`. -/
def sampleRequest : Call := .createOrder (.still .first .half) (.ofJs (sampleBody "c-1"))

/-- A feedback message for that order. -/
def sampleFeedback (h : RetriedHandler) : Call :=
  .consume h (.still .second .half) [] (.value (createEventEnvelope .second
    ((Process.still .second .half).iso 0) {
      eventType := .str h.eventType.value
      source := "stock-service"
      correlationId := .str Uuid.first.val
      payload := .obj [("orderId", .str Uuid.first.val), ("reason", .str "out of stock"),
        ("channel", .str "email")] }).wire)

/-- The state after a request and some feedback, one after the other. -/
def afterCalls (cs : List Call) : World Call :=
  cs.foldl (fun w c => orderService.called c w) World.empty

/-- And the status of the row. -/
def statusAfter (cs : List Call) : Option OrderStatus :=
  ((afterCalls cs).orders.find? Uuid.first.val).map fun row => row.status

theorem find?_of_statusAfter {cs : List Call} {status : OrderStatus}
    (h : statusAfter cs = some status) : ∃ row,
      (afterCalls cs).orders.find? Uuid.first.val = some row ∧ row.status = status :=
  Option.map_eq_some_iff.mp h

/-- A stock failure that is delivered twice agrees with itself. -/
theorem terminal_absorbing_failed : ∃ ls ms,
    ∃ s t : Pool Unit (World Call) Call Op Op.Resp JsThrow JsVal,
      RunWhere (Pool.Step orderService) (Agrees fun _ => .failed) (Pool.idle World.empty) ls s ∧
      RunWhere (Pool.Step orderService) (Agrees fun _ => .failed) s ms t ∧
      ∃ row, s.world.orders.find? Uuid.first.val = some row ∧ row.status = .failed ∧
        ∃ row', t.world.orders.find? Uuid.first.val = some row' ∧ row'.status = row.status := by
  have hinner : ∀ (t : Pool Unit (World Call) Call Op Op.Resp JsThrow JsVal) op,
      Agrees (fun _ => .failed) t (.settled () op) := fun t op =>
    ⟨fun _ _ _ _ _ _ _ => nofun, fun _ _ _ _ => rfl, fun _ _ _ => nofun, fun _ _ _ _ _ _ => nofun⟩
  have hfinish : ∀ t : Pool Unit (World Call) Call Op Op.Resp JsThrow JsVal,
      Agrees (fun _ => .failed) t (.finish ()) := fun t =>
    ⟨fun _ _ _ _ _ _ _ => nofun, fun _ _ => nofun, fun _ _ _ => nofun, fun _ _ _ _ _ _ => nofun⟩
  have hrequest : Agrees (fun _ => .failed) (Pool.idle World.empty) (.start () sampleRequest) :=
    ⟨fun _ _ _ _ _ _ _ => nofun, fun _ _ => nofun, fun _ _ _ _ => ⟨rfl, fun _ _ => nofun⟩,
      fun _ _ _ _ _ _ => nofun⟩
  have hfeedback : ∀ w, Agrees (fun _ => .failed) (Pool.idle w)
      (.start () (sampleFeedback .orderStockFailed)) := by
    intro w
    refine ⟨fun i h proc headers payload status o heq hstatus _ => ?_, fun _ _ => nofun,
      fun _ _ _ => nofun, fun _ _ _ _ _ _ _ _ _ _ _ _ => nofun⟩
    cases heq
    exact (Option.some.inj hstatus).symm
  have hready : orderService.ready World.empty sampleRequest := trivial
  have hready' : ∀ w, orderService.ready w (sampleFeedback .orderStockFailed) := fun _ => rfl
  obtain ⟨l₁, h₁⟩ := Pool.called_run orderService () hready hrequest hinner hfinish
  obtain ⟨l₂, h₂⟩ := Pool.called_run orderService () (hready' _) (hfeedback _) hinner hfinish
  obtain ⟨l₃, h₃⟩ := Pool.called_run orderService () (hready' _) (hfeedback _) hinner hfinish
  have hfailed : statusAfter [sampleRequest, sampleFeedback .orderStockFailed] = some .failed := by
    decide +kernel
  obtain ⟨row, hrow, hstatus⟩ := find?_of_statusAfter hfailed
  have hterminal : row.status.terminal = true := by rw [hstatus]; rfl
  exact ⟨_, _, _, _, h₁.trans h₂, h₃, row, hrow, hstatus,
    terminal_absorbing (h₁.trans h₂) h₃ hrow hterminal⟩

/-- An order completed by `notification.sent` is cancelled by `stock.released`. -/
theorem completed_cancelled : ¬ ∀ ls ms,
    ∀ s t : Pool Unit (World Call) Call Op Op.Resp JsThrow JsVal,
      Run (Pool.Step orderService) (Pool.idle World.empty) ls s →
      Run (Pool.Step orderService) s ms t → ∀ orderId row,
      s.world.orders.find? orderId = some row → row.status.terminal = true →
      ∃ row', t.world.orders.find? orderId = some row' ∧ row'.status = row.status := by
  intro hall
  have hready : orderService.ready World.empty sampleRequest := trivial
  have hfeedback : ∀ h : RetriedHandler, h.service = .orderService → ∀ w,
      orderService.ready w (sampleFeedback h) := fun h hh _ => hh
  obtain ⟨l₁, h₁⟩ := Pool.run_called orderService () hready
  obtain ⟨l₂, h₂⟩ := Pool.run_called orderService () (hfeedback .orderNotificationSent rfl _)
  obtain ⟨l₃, h₃⟩ := Pool.run_called orderService () (hfeedback .orderStockReleased rfl _)
  have hcompleted : statusAfter [sampleRequest, sampleFeedback .orderNotificationSent] =
      some .completed := by decide +kernel
  have hcancelled : statusAfter [sampleRequest, sampleFeedback .orderNotificationSent,
      sampleFeedback .orderStockReleased] = some .cancelled := by decide +kernel
  obtain ⟨row, hrow, hstatus⟩ := find?_of_statusAfter hcompleted
  obtain ⟨later, hlater, hlast⟩ := find?_of_statusAfter hcancelled
  have hterminal : row.status.terminal = true := by rw [hstatus]; rfl
  obtain ⟨row', hrow', heq⟩ := hall _ _ _ _ (h₁.trans h₂) h₃ _ row hrow hterminal
  obtain rfl := Option.some.inj (hlater.symm.trans hrow')
  rw [hlast, hstatus] at heq
  cases heq

end Runs

end EventFlow.Services.Orders
