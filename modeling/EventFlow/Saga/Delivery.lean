import EventFlow.Framework.Course
import EventFlow.Saga.Identity
import EventFlow.Saga.Recovery

namespace EventFlow.Saga

open Js Shared Services Async Retry
open Payment (OrderCreatedEvent)

section Statement

/-- A record at an offset that the log had yet to reach. -/
def WrittenAfter (early log : List KafkaRecord) (r : KafkaRecord) : Prop :=
  ∃ n, early.length ≤ n ∧ log[n]? = some r

/-- What a handler that is through has left behind, for the order that its message names. -/
structure Through (h : RetriedHandler) (orderId : String) (w : World Author) : Prop where
  projected : ∀ status, projectedStatus h = some status →
    ∃ a, (a, Op.updateOrder (byId orderId) status) ∈ w.trace
  announced : finalEvents h ≠ [] → ∃ t ∈ finalEvents h, Backed w.log t orderId

/-- What has become of a message that a consumer has taken: the handler is through with it, or
it has been written to the topic again, or it has a failure record, both since then. -/
inductive Dealt (early : List KafkaRecord) (h : RetriedHandler) (v : JsVal) (w : World Author) :
    Prop
  | effect : (∀ orderId, (v.get "payload").get "orderId" = .str orderId → Through h orderId w) →
      Dealt early h v w
  | copied {r} : WrittenAfter early w.log r → r.topic = h.topic → r.value = .value v →
      Dealt early h v w
  | buried {r r₀} : WrittenAfter early w.log r → r₀.value = .value v → r₀.topic = h.topic →
      Wraps h r₀ r → Dealt early h v w

/-- A skipped order has been paid. -/
def Skips (w : World Author) : Prop := ∀ id row, w.processed.find? id = some row →
  row.outcome = .skippedDuplicateOrder → Backed w.log .paymentProcessed row.orderId

/-- Not the row of a skipped order. -/
def Unskipped (op : Op) : Prop :=
  ∀ row, op = .saveProcessed row → row.outcome ≠ .skippedDuplicateOrder

/-- What payment-service has found out about an order when it has looked it up. -/
def Checked (orderId : String) (w : World Author) : Payment.IdempotencyCheckResult → Prop
  | .new => True
  | .duplicateEvent _ => Through .paymentOrderEvents orderId w
  | .duplicateOrder _ => Backed w.log .paymentProcessed orderId

/-- What is known of every state of a run with fresh ids. -/
structure Known (w : World Author) : Prop where
  ledger : Ledger w.log
  explained : Explained w
  identifies : Identifies w.log

end Statement

section Growth

variable {w w' w₀ : World Author} {a : Author} {op : Op} {early log log' : List KafkaRecord}
  {r : KafkaRecord} {h : RetriedHandler} {v : JsVal} {orderId : String} {t : EventType}

/-- A record keeps its offset. -/
theorem offset_stays {n : ℕ} (hr : log[n]? = some r) (hle : log <+: log') : log'[n]? = some r := by
  obtain ⟨rest, rfl⟩ := hle
  rw [List.getElem?_append_left (List.getElem?_eq_some_iff.mp hr).1]
  exact hr

theorem WrittenAfter.mono (hr : WrittenAfter early log r) (hle : log <+: log') :
    WrittenAfter early log' r := by
  obtain ⟨n, hn, hget⟩ := hr
  exact ⟨n, hn, offset_stays hget hle⟩

theorem WrittenAfter.mem (hr : WrittenAfter early log r) : r ∈ log := by
  obtain ⟨n, -, hget⟩ := hr
  exact List.mem_of_getElem? hget

theorem Through.mono (he : Through h orderId w) (hle : Longer w w') : Through h orderId w' := by
  refine ⟨fun status hstatus => ?_, fun hne => ?_⟩
  · obtain ⟨a, hmem⟩ := he.projected status hstatus
    exact ⟨a, hle.trace.subset hmem⟩
  · obtain ⟨t, ht, hbacked⟩ := he.announced hne
    exact ⟨t, ht, hbacked.mono hle.log⟩

/-- A handler with one last event has announced it. -/
theorem Through.next (he : Through h orderId w) (hlast : finalEvents h = [t]) :
    Backed w.log t orderId := by
  obtain ⟨u, hu, hbacked⟩ := he.announced (by simp [hlast])
  rw [hlast, List.mem_singleton] at hu
  rwa [hu] at hbacked

theorem Dealt.mono (hd : Dealt early h v w) (hle : Longer w w') : Dealt early h v w' := by
  cases hd with
  | effect he => exact .effect fun orderId horder => (he orderId horder).mono hle
  | copied hr htopic hvalue => exact .copied (hr.mono hle.log) htopic hvalue
  | buried hr hvalue htopic hwraps => exact .buried (hr.mono hle.log) hvalue htopic hwraps

/-- Only a skipped order that has not been paid would break the promise. -/
theorem skips_exec (hw : Skips w) (hop : ∀ row, op = .saveProcessed row →
    row.outcome = .skippedDuplicateOrder → Backed w.log .paymentProcessed row.orderId) :
    Skips (w.exec a op).2 := by
  have hle : Longer w (w.exec a op).2 := longer_exec
  intro id row hrow hskipped
  by_cases hsave : ∃ saved, op = .saveProcessed saved
  · obtain ⟨saved, rfl⟩ := hsave
    rw [World.exec_saveProcessed, Table.find?_save] at hrow
    split_ifs at hrow
    · obtain rfl := Option.some.inj hrow
      exact (hop _ rfl hskipped).mono hle.log
    · exact (hw id row hrow hskipped).mono hle.log
  · rw [World.exec_processed a w fun saved heq => hsave ⟨saved, heq⟩] at hrow
    exact (hw id row hrow hskipped).mono hle.log

/-- An operation that has settled well since a call began. -/
structure Settling (early : List KafkaRecord) (a : Author) (op : Op) (w : World Author) : Prop where
  trace : (a, op) ∈ w.trace
  log : ∀ r, op = .emit r → WrittenAfter early w.log r

theorem Settling.mono (hs : Settling early a op w) (hle : Longer w w') : Settling early a op w' :=
  ⟨hle.trace.subset hs.trace, fun r heq => (hs.log r heq).mono hle.log⟩

theorem settling_exec (hle : early <+: w.log) : Settling early a op (w.exec a op).2 := by
  refine ⟨List.mem_append_right _ List.mem_cons_self, fun r heq => ?_⟩
  subst heq
  exact ⟨w.log.length, hle.length_le, List.getElem?_concat_length⟩

/-- What a call does over a state that grows is on record in it. -/
theorem along_of_follows {α : Type} {p : Promise α} {S : List Op → Op → Prop}
    {Q : List Op → Except JsThrow α → Prop} (hp : p.Follows S Q [])
    (hop : ∀ d op, S d op → Unskipped op)
    (hw : Skips w) (hle : early <+: w.log) :
    p.Along (Pool.rising eventFlow Longer Known Skips a)
      (fun x w' => ∃ d, Q d x ∧ ∀ op ∈ d, Settling early a op w') w := by
  let I (d : List Op) (w : World Author) : Prop :=
    Skips w ∧ early <+: w.log ∧ ∀ op ∈ d, Settling early a op w
  have hrely : ∀ d w w', I d w → (Pool.rising eventFlow Longer Known Skips a).rely w w' → I d w' :=
    fun d w w' hw hr => ⟨hr.2.2, hw.2.1.trans hr.1.log, fun op hop => (hw.2.2 op hop).mono hr.1⟩
  refine (hp.along hrely (fun d w op hs hw => ?_) ⟨hw, hle, fun _ hmem => absurd hmem
    List.not_mem_nil⟩).imp fun x w' hx => ?_
  · obtain ⟨hskips, hle, hdone⟩ := hw
    have hnext : Skips (w.exec a op).2 :=
      skips_exec hskips fun row heq hskipped => absurd hskipped (hop d op hs row heq)
    refine ⟨hnext, hnext, hle.trans longer_exec.log, fun op' hmem => ?_⟩
    rcases List.mem_append.mp hmem with hold | hnew
    · exact (hdone op' hold).mono longer_exec
    · rw [List.mem_singleton.mp hnew]
      exact settling_exec hle
  · obtain ⟨d, hq, hI⟩ := hx
    exact ⟨d, hq, hI.2.2⟩

end Growth

section Calls

variable {w w' w₀ : World Author} {a : Author} {early : List KafkaRecord} {done : List Op}
  {r r₀ : KafkaRecord} {h : RetriedHandler} {v : JsVal} {orderId : String} {proc : Process}
  {headers : List (String × RawHeader)} {payload : KafkaValue}

/-- What the executor concludes stays with the message. -/
theorem dealt_of_concludes (htaken : Taken w₀ h r₀ orderId v) (hc : Concludes h proc v done)
    (hdone : ∀ op ∈ done, Settling early a op w) : Dealt early h v w := by
  cases hc with
  | achieved hall =>
    refine .effect fun o horder => ⟨fun status hstatus => ?_, fun hne => ?_⟩
    · obtain ⟨criterion, hcriterion, hmem⟩ := hall.projected status hstatus
      obtain rfl := Drivers.eq_byId hcriterion horder
      exact ⟨a, (hdone _ hmem).trace⟩
    · obtain ⟨t, ht, d, event, hann, key, hkey, hmem⟩ := hall.announced hne
      exact ⟨t, ht, _, ((hdone _ hmem).log _ rfl).mem, routed_announced hann horder hkey⟩
  | retried hkey hmem =>
    obtain ⟨htopic, -, hvalue⟩ := copied_domainRecord htaken.routed htaken.value htaken.json hkey
    exact .copied ((hdone _ hmem).log _ rfl) (htopic.trans htaken.topic)
      (hvalue.trans htaken.value)
  | buried hburies hfailure hmem =>
    exact .buried ((hdone _ hmem).log _ rfl) htaken.value htaken.topic
      (wraps_dlqRecord htaken.routed htaken.value htaken.json hburies hfailure)

/-- A message that is delivered to its consumer has been taken from the log. -/
theorem taken_of_ready (hlog : Ledger w.log)
    (hready : eventFlow.ready w (.service (.consume h proc headers payload)))
    (hread : h.read payload = .ok (.accepted v)) :
    ∃ r₀ orderId, Taken w h r₀ orderId v ∧ payload = r₀.value := by
  obtain ⟨r₀, hr₀, htopic, rfl, -⟩ := hready
  obtain ⟨orderId, hrouted, hvalue, hjson⟩ := hlog.received hr₀ htopic hread
  exact ⟨r₀, orderId, ⟨hr₀, htopic, hread, hrouted, hvalue, hjson⟩, rfl⟩

/-- A row of the event means that the payment of its order has an outcome. -/
theorem through_of_duplicate {row : ProcessedEventEntity} (hknown : Known w) (hskips : Skips w)
    (htaken : Taken w₀ .paymentOrderEvents r₀ orderId v) (hmem : r₀ ∈ w.log)
    (hrow : w.processed.find? (OrderCreatedEvent.ofJs v).eventId = some row) :
    Through .paymentOrderEvents orderId w := by
  have hpaid := hknown.explained.processed _ row hrow
  obtain ⟨-, hkey⟩ := Table.find?_eq_some.mp hrow
  have hsame : row.orderId = orderId := by
    obtain ⟨r, hr, hrouted, hid⟩ := hpaid.inbound
    have hread := htaken.read
    obtain ⟨id, hid₀, -⟩ := isUuid_iff.mp (parseMessage_eq_accepted.mp hread).2.1.eventId
    have hid' : row.inboundEventId = id := hkey.trans (JsVal.asStr_of_eq hid₀)
    have hlike : Like r r₀ := by
      refine hknown.identifies r hr r₀ hmem ?_
      rw [ident_eq, ident_eq, hid, envelopeOf_value htaken.value, hid₀, hid']
    have horder := hrouted.order
    rw [hlike.envelope] at horder
    exact JsVal.str.inj (horder.symm.trans htaken.routed.order)
  have hsettled : ∀ {t}, Settled w.log t row → Backed w.log t orderId := by
    intro t hs
    obtain ⟨r, hr, hrouted, -⟩ := hs
    rw [hsame] at hrouted
    exact ⟨r, hr, hrouted⟩
  refine ⟨nofun, fun _ => ?_⟩
  cases houtcome : row.outcome with
  | approved => exact ⟨_, by simp [finalEvents], hsettled (hpaid.approved houtcome)⟩
  | failed => exact ⟨.paymentFailed, by simp [finalEvents], hsettled (hpaid.failed houtcome)⟩
  | skippedDuplicateOrder =>
    have hbacked := hskips _ row hrow houtcome
    rw [hsame] at hbacked
    exact ⟨_, by simp [finalEvents], hbacked⟩

/-- So does an approved row of the order. -/
theorem paid_of_approved {row : ProcessedEventEntity} (hknown : Known w)
    (hrow : w.processed.findOne (fun row => row.orderId = orderId ∧ row.outcome = .approved) =
      some row) : Backed w.log .paymentProcessed orderId := by
  obtain ⟨hmem, hpred⟩ := Table.findOne_spec hrow
  obtain ⟨rfl, houtcome⟩ := of_decide_eq_true hpred
  have hfound : w.processed.find? row.inboundEventId = some row :=
    Table.find?_eq_some.mpr ⟨hmem, rfl⟩
  obtain ⟨r, hr, hrouted, -⟩ := (hknown.explained.processed _ row hfound).approved houtcome
  exact ⟨r, hr, hrouted⟩

theorem unskipped_enacts {op : Op} (hop : Enacts h proc v done op) : Unskipped op := by
  intro row heq
  cases hop with
  | approve | decline =>
    obtain rfl := Op.saveProcessed.inj heq
    intro hskipped
    cases hskipped
  | wait hquiet =>
    subst heq
    cases hquiet
  | _ => cases heq

theorem unskipped_executes {op : Op} (hop : Executes h proc v done op) : Unskipped op := by
  cases hop with
  | enact hop => exact unskipped_enacts hop
  | _ => exact fun _ => nofun

/-- The executor of a consumer deals with the message, whatever it finds on its way. -/
theorem along_executed {p : Promise JsVal} (htaken : Taken w₀ h r₀ orderId v)
    (hp : p.Follows (Executes h proc v) (fun d x => ∀ ack, x = .ok ack → Concludes h proc v d) [])
    (hw : Skips w) (hle : early <+: w.log) :
    p.Along (Pool.rising eventFlow Longer Known Skips a)
      (fun x w' => ∀ ack, x = .ok ack → Dealt early h v w') w := by
  refine (along_of_follows hp (fun _ _ hop => unskipped_executes hop) hw hle).imp fun x w' hx => ?_
  obtain ⟨d, hq, hdone⟩ := hx
  exact fun ack hack => dealt_of_concludes htaken (hq ack hack) hdone

theorem skips_quiet {op : Op} (hw : Skips w) (hquiet : quiet op = true) :
    Skips (w.exec a op).2 := by
  refine skips_exec hw fun row heq => ?_
  subst heq
  cases hquiet

/-- What the second find answers is known of the order. -/
theorem along_decideByEvent {byEvent : Option ProcessedEventEntity} {o : String}
    (hevent : ∀ row, byEvent = some row → Through .paymentOrderEvents o w) (hw : Skips w)
    (hle : early <+: w.log) : (Payment.decideByEvent o byEvent).Along
      (Pool.rising eventFlow Longer Known Skips a) (fun x w' => ∀ check, x = .ok check →
        Skips w' ∧ early <+: w'.log ∧ Checked o w' check) w := by
  cases byEvent with
  | some row =>
    intro check hcheck
    obtain rfl := Except.ok.inj hcheck
    exact ⟨hw, hle, hevent row rfl⟩
  | none =>
    refine along_await_bind (fun w' hr => ?_) fun _ _ _ _ => nofun
    obtain ⟨hlater, hknown, hskips⟩ := hr
    have hskips' : Skips (w'.exec a (.findApproved o)).2 := skips_quiet hskips rfl
    have hlonger : Longer w' (w'.exec a (.findApproved o)).2 := longer_exec
    have hlog : early <+: (w'.exec a (.findApproved o)).2.log :=
      (hle.trans hlater.log).trans hlonger.log
    refine ⟨hskips', ?_⟩
    show (Payment.decideByOrder (w'.exec a (.findApproved o)).1).Along _ _ _
    cases horder : (w'.exec a (.findApproved o)).1 with
    | some row =>
      intro check hcheck
      obtain rfl := Except.ok.inj hcheck
      exact ⟨hskips', hlog, (paid_of_approved hknown horder).mono hlonger.log⟩
    | none =>
      intro check hcheck
      obtain rfl := Except.ok.inj hcheck
      exact ⟨hskips', hlog, trivial⟩

/-- The check finds a row only if the payment of the order has an outcome. -/
theorem along_checkOrderCreated (htaken : Taken w₀ .paymentOrderEvents r₀ orderId v)
    (hmem : r₀ ∈ early) (hle : early <+: w.log) :
    (Payment.checkOrderCreated (OrderCreatedEvent.ofJs v).eventId orderId).Along
      (Pool.rising eventFlow Longer Known Skips a) (fun x w' => ∀ check, x = .ok check →
        Skips w' ∧ early <+: w'.log ∧ Checked orderId w' check) w := by
  rw [Payment.checkOrderCreated_eq]
  refine along_await_bind (fun w' hr => ?_) fun _ _ _ _ => nofun
  obtain ⟨hlater, hknown, hskips⟩ := hr
  have hlog : early <+: w'.log := hle.trans hlater.log
  have hlonger : Longer w' (w'.exec a (.findByEvent (OrderCreatedEvent.ofJs v).eventId)).2 :=
    longer_exec
  have hskips' : Skips (w'.exec a (.findByEvent (OrderCreatedEvent.ofJs v).eventId)).2 :=
    skips_quiet hskips rfl
  refine ⟨hskips', along_decideByEvent (fun row hrow => ?_) hskips' (hlog.trans hlonger.log)⟩
  exact (through_of_duplicate hknown hskips htaken (hlog.subset hmem) hrow).mono hlonger

/-- payment-service deals with its orders, those that it skips among them. -/
theorem along_order (htaken : Taken w₀ .paymentOrderEvents r₀ orderId v) (hmem : r₀ ∈ early)
    (hle : early <+: w.log) : (accepted .paymentOrderEvents proc headers v).Along
      (Pool.rising eventFlow Longer Known Skips a)
      (fun x w' => ∀ ack, x = .ok ack → Dealt early .paymentOrderEvents v w') w := by
  have hsame : (OrderCreatedEvent.ofJs v).payload.orderId = orderId :=
    JsVal.asStr_of_eq htaken.named
  have hthrough : ∀ {w'}, Through .paymentOrderEvents orderId w' →
      Dealt early .paymentOrderEvents v w' := by
    intro w' ht
    refine .effect fun o horder => ?_
    obtain rfl := JsVal.str.inj (htaken.named.symm.trans horder)
    exact ht
  have hcheck := along_checkOrderCreated (a := a) htaken hmem hle
  rw [← hsame] at hcheck
  refine hcheck.bind (fun check w' hq => ?_) fun _ _ _ _ => nofun
  obtain ⟨hskips, hlog, hchecked⟩ := hq check rfl
  rw [hsame] at hchecked
  cases check with
  | new => exact along_executed htaken (follows_acked fun _ _ => List.not_mem_nil) hskips hlog
  | duplicateEvent row => exact fun _ _ => hthrough hchecked
  | duplicateOrder row =>
    refine along_await_bind (fun w₂ hr => ?_) fun _ _ _ _ => nofun
    obtain ⟨hlater, -, hskips₂⟩ := hr
    have hpaid : Backed w₂.log .paymentProcessed orderId := hchecked.mono hlater.log
    have hnext : Longer w₂ (w₂.exec a (.saveProcessed (Payments.skippedRow (.ofJs v) row))).2 :=
      longer_exec
    refine ⟨skips_exec hskips₂ fun saved heq _ => ?_, fun _ _ => hthrough ⟨nofun, fun _ => ?_⟩⟩
    · obtain rfl := Op.saveProcessed.inj heq
      show Backed _ _ (OrderCreatedEvent.ofJs v).payload.orderId
      rw [hsame]
      exact hpaid
    · exact ⟨.paymentProcessed, by simp [finalEvents], hpaid.mono hnext.log⟩

/-- A call that takes no order writes no row of a skipped one. -/
theorem along_other (hother : ∀ proc headers payload,
      a ≠ .service (.consume .paymentOrderEvents proc headers payload)) (hw : Skips w) :
    a.body.Along (Pool.rising eventFlow Longer Known Skips a) (fun _ _ => True) w := by
  refine (along_of_follows (follows_author a) (fun d op hop row heq => ?_) hw
    List.prefix_rfl).imp fun _ _ _ => trivial
  subst heq
  cases a with
  | cancel _ _ => cases hop
  | service c =>
    cases hop with
    | wait hquiet => cases hquiet
    | enact _ hop => exact unskipped_enacts hop row rfl
    | skip _ => exact absurd rfl (hother _ _ _)

/-- A consumer deals with the message that it is called with. -/
theorem along_consume (hknown : Known w) (hskips : Skips w)
    (hready : eventFlow.ready w (.service (.consume h proc headers payload))) :
    (h.method proc headers payload).Along (Pool.rising eventFlow Longer Known Skips a)
      (fun x w' => ∀ v, h.read payload = .ok (.accepted v) → ∀ ack, x = .ok ack →
        Dealt w.log h v w') w := by
  obtain ⟨invalid, skipped, -, -, hmethod⟩ := method_eq h proc headers payload
  rw [hmethod]
  unfold consumeParsed
  split
  · next hread =>
    intro v hv
    rw [hread] at hv
    cases hv
  · exact fun _ _ _ => nofun
  · next hread =>
    intro v hv
    rw [hread] at hv
    cases hv
  · next v hread =>
    obtain ⟨r₀, orderId, htaken, rfl⟩ := taken_of_ready hknown.ledger hready hread
    have hdealt : (accepted h proc headers v).Along (Pool.rising eventFlow Longer Known Skips a)
        (fun x w' => ∀ ack, x = .ok ack → Dealt w.log h v w') w := by
      by_cases hpayment : h = .paymentOrderEvents
      · subst hpayment
        exact along_order htaken htaken.mem List.prefix_rfl
      · exact along_executed htaken (follows_taken hpayment) hskips List.prefix_rfl
    refine hdealt.imp fun x w' hx v' hv' ack hack => ?_
    rw [hread] at hv'
    cases hv'
    exact hx ack hack

end Calls

section Runs

/-- What becomes of the message of a consumer that acknowledges it. -/
def Acknowledges (w₀ : World Author) (a : Author) (x : Except JsThrow JsVal) (w : World Author) :
    Prop := ∀ h proc headers payload, a = .service (.consume h proc headers payload) →
  ∀ v, h.read payload = .ok (.accepted v) → ∀ ack, x = .ok ack → Dealt w₀.log h v w

def deliveries : Pool.Course eventFlow fun _ => True where
  le := Longer
  known := Known
  inv := Skips
  ends := Acknowledges
  le_refl := Longer.refl
  le_trans := Longer.trans
  env w w' _ hskips henv := by
    obtain ⟨r, hr, rfl⟩ := henv
    have hle : Longer w { w with log := w.log ++ [r] } := ⟨List.prefix_append _ _, List.prefix_rfl⟩
    exact ⟨hle, fun id row hrow hskipped => (hskips id row hrow hskipped).mono hle.log⟩
  exec _ _ _ := longer_exec
  start w a _ hknown hskips hready := by
    by_cases hconsume : ∃ h proc headers payload, a = .service (.consume h proc headers payload)
    · obtain ⟨h, proc, headers, payload, rfl⟩ := hconsume
      refine (along_consume hknown hskips hready).imp fun x w' hx => ?_
      intro h' proc' headers' payload' heq
      cases heq
      exact hx
    · refine (along_other (fun proc headers payload heq => hconsume ⟨_, proc, headers, payload, heq⟩)
        hskips).imp fun x w' _ h proc headers payload heq => ?_
      exact absurd ⟨h, proc, headers, payload, heq⟩ hconsume

variable {ι : Type} [DecidableEq ι] {ls : List (PoolAct ι Author Op JsThrow)}
  {s t : Pool ι (World Author) Author Op Op.Resp JsThrow JsVal}
  {cond : Pool ι (World Author) Author Op Op.Resp JsThrow JsVal → PoolAct ι Author Op JsThrow → Prop}
  {h : RetriedHandler} {proc : Process} {headers : List (String × RawHeader)} {payload : KafkaValue}
  {v ack : JsVal}

theorem longer_of_run {ms : List (PoolAct ι Author Op JsThrow)}
    (hmore : RunWhere (Pool.Step eventFlow) cond s ms t) : Longer s.world t.world := by
  induction hmore with
  | nil => exact .refl _
  | snoc _ _ hstep ih =>
    refine ih.trans _ _ _ ?_
    cases hstep with
    | env henv =>
      obtain ⟨r, -, rfl⟩ := henv
      exact ⟨List.prefix_append _ _, List.prefix_rfl⟩
    | settled _ => exact longer_exec
    | _ => exact .refl _

theorem known_of_run (hcond : ∀ s l, cond s l → FreshIds s l)
    (hrun : RunWhere (Pool.Step eventFlow) cond (Pool.idle World.empty) ls s) : Known s.world := by
  have hempty : Ledger (World.empty : World Author).log ∧
      Identifies (World.empty : World Author).log :=
    ⟨.nil, fun r hr => absurd hr List.not_mem_nil⟩
  obtain ⟨hlog, hidentifies⟩ := sound_identity.safe (hrun.mono hcond) hempty fun _ => trivial
  exact ⟨hlog, explained_of_run hrun, hidentifies⟩

/-- A message that has been acknowledged has been dealt with by then. -/
theorem dealt_of_served (hcond : ∀ s l, cond s l → FreshIds s l)
    (hrun : RunWhere (Pool.Step eventFlow) cond (Pool.idle World.empty) ls s)
    (hserved : Pool.Served eventFlow cond s (.service (.consume h proc headers payload)) ack t)
    (hread : h.read payload = .ok (.accepted v)) : Dealt s.world.log h v t.world := by
  have hempty : Skips World.empty := fun _ _ => nofun
  obtain ⟨w, hle, hends⟩ := deliveries.ends_of_served (fun _ _ _ _ => trivial)
    (fun _ _ hrun => known_of_run hcond hrun) hrun hempty hserved
  have hdealt : Dealt s.world.log h v w := hends h proc headers payload rfl v hread ack rfl
  exact hdealt.mono hle

/-- No consumer acknowledges a message that it has not dealt with: whatever else runs between
its operations, and whichever of these fail, its handler has done what it is for, or the message
is on its topic once more, or its failure record is on the companion topic. -/
theorem no_message_lost
    (hrun : RunWhere (Pool.Step eventFlow) FreshIds (Pool.idle World.empty) ls s)
    (hserved : Pool.Served eventFlow FreshIds s (.service (.consume h proc headers payload)) ack t)
    (hread : h.read payload = .ok (.accepted v)) : Dealt s.world.log h v t.world :=
  dealt_of_served (fun _ _ hc => hc) hrun hserved hread

/-- A call that gets to its result is served in a pool where nothing else runs. -/
theorem served_flowed
    {cond : Pool Unit (World Author) Author Op Op.Resp JsThrow JsVal →
      PoolAct Unit Author Op JsThrow → Prop} {a : Author} {w : World Author}
    (hsettled : ∀ t op, cond t (.settled () op)) (hfin : ∀ t, cond t (.finish ()))
    (hready : eventFlow.ready w a) (hstart : cond (Pool.idle w) (.start () a))
    (hend : ((eventFlow.body a).run (eventFlow.settle a fun _ => none) w).1.isOk = true) :
    ∃ ack t, Pool.Served eventFlow cond (Pool.idle w) a ack t ∧ t.world = eventFlow.called a w ∧
      ∃ ls, RunWhere (Pool.Step eventFlow) cond t ls (Pool.idle (eventFlow.called a w)) := by
  cases hack : ((eventFlow.body a).run (eventFlow.settle a fun _ => none) w).1 with
  | error e =>
    rw [hack] at hend
    cases hend
  | ok ack =>
    have hrun : (eventFlow.body a).run (eventFlow.settle a fun _ => none) w =
        (.ok ack, eventFlow.called a w) := Prod.ext hack rfl
    exact ⟨ack, _, Pool.served_of_run hsettled rfl hready hstart hrun, rfl, _,
      Pool.finish_served hfin rfl⟩

/-- The envelope that a consumer takes from a record. -/
def taken (h : RetriedHandler) (r : KafkaRecord) : Option JsVal :=
  match h.read r.value with
  | .ok (.accepted v) => some v
  | _ => none

theorem taken_eq_some {r : KafkaRecord} :
    taken h r = some v ↔ h.read r.value = .ok (.accepted v) := by
  unfold taken
  split <;> simp_all

/-- The first order reaches payment-service, which answers when it has paid. -/
theorem no_message_lost_paid :
    ∃ s t : Pool Unit (World Author) Author Op Op.Resp JsThrow JsVal, ∃ r ∈ s.world.log,
      ∃ ack v, Pool.Served eventFlow FreshIds s
          (.service (.consume .paymentOrderEvents (drawing "b") r.headers r.value)) ack t ∧
        t.world.log.length = 3 ∧ Dealt s.world.log .paymentOrderEvents v t.world := by
  let w : World Author := eventFlow.called sampleOrder World.empty
  obtain ⟨r, hr, htopic, hdelivery⟩ := sampleDelivery_eq
  have hok : ((eventFlow.body sampleDelivery).run (eventFlow.settle sampleDelivery fun _ => none)
      w).1.isOk = true := by decide +kernel
  have hread : ∀ r ∈ w.log, (taken .paymentOrderEvents r).isSome = true := by decide +kernel
  have hlength : (eventFlow.called sampleDelivery w).log.length = 3 := by decide +kernel
  rw [hdelivery] at hok hlength
  obtain ⟨v, hv⟩ := Option.isSome_iff_exists.mp (hread r hr)
  obtain ⟨ls, hrun⟩ := flowed_run (a := sampleOrder) trivial fresh_sampleOrder
  have hready : eventFlow.ready w
      (.service (.consume .paymentOrderEvents (drawing "b") r.headers r.value)) :=
    ⟨r, hr, htopic, rfl, rfl⟩
  have hstart : FreshIds
      (Pool.idle w : Pool Unit (World Author) Author Op Op.Resp JsThrow JsVal)
      (.start () (.service (.consume .paymentOrderEvents (drawing "b") r.headers r.value))) := by
    intro i a heq
    cases heq
    exact fresh_after_sampleOrder rfl
  have hsettled : ∀ t op, FreshIds t (.settled () op) := fun _ _ _ _ => nofun
  obtain ⟨ack, t, hserved, hworld, -⟩ :=
    served_flowed hsettled (fun _ _ _ => nofun) hready hstart hok
  refine ⟨Pool.idle w, t, r, hr, ack, v, hserved, ?_,
    no_message_lost hrun hserved (taken_eq_some.mp hv)⟩
  rw [hworld]
  exact hlength

end Runs

end EventFlow.Saga
