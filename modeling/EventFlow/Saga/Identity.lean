import EventFlow.Saga.Routing

namespace EventFlow.Saga

open Js Shared Services Async Retry

section Statement

/-- Two records of one event on one topic. -/
structure Like (r r' : KafkaRecord) : Prop where
  topic : r.topic = r'.topic
  envelope : envelopeOf r = envelopeOf r'

/-- An id stands for one envelope on one topic. -/
def Identifies (log : List KafkaRecord) : Prop :=
  ∀ r ∈ log, ∀ r' ∈ log, provenance.ident r = provenance.ident r' → Like r r'

end Statement

section Content

/-- What a handler makes of an envelope under each id that it draws. -/
def slot (proc : Process) (envelope : JsVal) : RetriedHandler → ℕ → Option (EventType × JsVal)
  | .paymentOrderEvents, 1 =>
    some (.paymentRequested, Payment.requestedEnvelope proc (.ofJs envelope) (proc.uuid 0).val)
  | .paymentOrderEvents, 2 => some (.paymentFailed,
      declined proc (.ofJs envelope) (declineReason proc (.ofJs envelope)))
  | .paymentOrderEvents, 3 => some (.paymentProcessed, charged proc (.ofJs envelope))
  | .stockPaymentEvents, 1 => some (.stockReserved, reserved proc envelope)
  | .stockOrderCancelled, 1 => some (.stockReleased, released proc envelope)
  | .notificationStockReserved, 1 => some (.notificationSend, announcedSend proc envelope)
  | .notificationStockReserved, 2 => some (.notificationSent, announcedSent proc envelope)
  | _, _ => none

/-- Topic and envelope of the record that a call may write under an id. -/
def content : Author → ℕ → Option (String × JsVal)
  | .cancel _ envelope, _ => some (resolveKafkaTopic .orderCancelled, envelope.wire)
  | .service (.createOrder proc dto), 1 => some (resolveKafkaTopic .orderCreated,
      (Orders.orderCreatedEnvelope proc (proc.uuid 0).val dto).wire)
  | .service (.consume h proc _ (.value v)), n =>
    (slot proc v h n).map fun made => (resolveKafkaTopic made.1, made.2.wire)
  | _, _ => none

/-- What a call may write: a copy of what there is, the record that one of its ids stands
for, or its only failure record. -/
inductive Emission (w : World Author) (a : Author) (done : List Op) (r : KafkaRecord) : Prop
  | copy {r₀} : r₀ ∈ w.log → Like r r₀ → Emission w a done r
  | made {n} : n ≤ 9 → provenance.ident r = drawn a n →
      content a n = some (r.topic, envelopeOf r) → Emission w a done r
  | failure {c t failure} : a = .service c → provenance.ident r = drawn a 10 →
      r = dlqRecord t failure → Unburied done → Emission w a done r

variable {w w' : World Author} {a : Author} {done : List Op} {op : Op} {r r' r'' : KafkaRecord}
  {proc : Process} {v event : JsVal} {h : RetriedHandler} {t : EventType}

theorem Like.symm (hl : Like r r') : Like r' r := ⟨hl.topic.symm, hl.envelope.symm⟩

theorem Like.trans (hl : Like r r') (hl' : Like r' r'') : Like r r'' :=
  ⟨hl.topic.trans hl'.topic, hl.envelope.trans hl'.envelope⟩

theorem Like.ident (hl : Like r r') : provenance.ident r = provenance.ident r' := by
  rw [ident_eq, ident_eq, hl.envelope]

theorem slot_of_announced (hann : Announced proc v done h t event) : ∃ n ≤ 9,
    slot proc v h n = some (t, event) ∧ event.get "eventId" = .str (proc.uuid n).val := by
  cases hann with
  | requested | reserved | released | send => exact ⟨1, by omega, rfl, rfl⟩
  | failed _ _ | sent _ => exact ⟨2, by omega, rfl, rfl⟩
  | processed _ _ => exact ⟨3, by omega, rfl, rfl⟩

theorem emission_of_turn (hlog : Ledger w.log) (hturn : Turn w a done (.emit r)) :
    Emission w a done r := by
  cases origin_of_turn hlog hturn with
  | ordered _ heq =>
    subst heq
    exact .made (n := 1) (by omega) rfl rfl
  | cancelled hcancel heq =>
    subst heq
    obtain ⟨⟨id, hid⟩, -⟩ := hcancel
    exact .made (n := 0) (by omega) ((JsVal.get_wire_str hid).trans hid.symm) rfl
  | announced htaken hann _ heq =>
    subst heq
    obtain ⟨n, hn, hslot, hid⟩ := slot_of_announced hann
    refine .made hn (JsVal.get_wire_str hid) ?_
    rw [htaken.value, content, hslot]
    rfl
  | copied htaken htopic _ hvalue => exact .copy htaken.mem ⟨htopic, envelopeOf_congr hvalue⟩
  | buried _ _ hfailure hnone heq =>
    subst heq
    obtain ⟨details, rfl⟩ := eq_of_createFailureEnvelope hfailure
    exact .failure rfl rfl rfl hnone

end Content

section Invariant

/-- What a running call keeps of the ids that it has drawn. -/
structure Identified (a : Author) (done : List Op) (w : World Author) : Prop where
  ledger : Ledger w.log
  identifies : Identifies w.log
  ready : eventFlow.ready w a
  recorded : ∀ op ∈ done, Recorded w a op
  made : ∀ r ∈ w.log, ∀ n ≤ 9, provenance.ident r = drawn a n →
    content a n = some (r.topic, envelopeOf r)
  failed : ∀ r ∈ w.log, ∀ c, a = .service c → provenance.ident r = drawn a 10 →
    ∃ t failure, Op.emit (dlqRecord t failure) ∈ done

/-- Every call owns its ids: what others write under these is there already. -/
def contentOwnership : Pool.Ownership (World Author) Author JsVal where
  owns a k := ∃ n ≤ 10, k = drawn a n
  uses a k := ∃ n ≤ 10, k = drawn a n
  same k w w' := ∀ r ∈ w'.log, provenance.ident r = k → ∃ r' ∈ w.log, Like r r'
  le := Longer
  safe w := Ledger w.log ∧ Identifies w.log
  rest _ _ := True
  uses_of_owns := idOwnership.uses_of_owns
  same_refl k w r hr _ := ⟨r, hr, rfl, rfl⟩
  same_trans k u v w h h' := by
    intro r hr hid
    obtain ⟨r', hr', hlike⟩ := h' r hr hid
    obtain ⟨r'', hr'', hlike'⟩ := h r' hr' (hlike.ident.symm.trans hid)
    exact ⟨r'', hr'', hlike.trans hlike'⟩
  le_refl := Longer.refl
  le_trans := Longer.trans
  rest_stable _ _ _ _ _ h := h

abbrev contentContract (a : Author) : Contract (World Author) Op Op.Resp :=
  contentOwnership.contract eventFlow (fun _ _ => True) (fun _ _ => True) a

/-- The ids of a call differ from each other, those of a client apart. -/
def Apart (a : Author) : Prop :=
  ∀ c, a = .service c → ∀ n ≤ 10, ∀ m ≤ 10, drawn a n = drawn a m → n = m

variable {w w' : World Author} {a : Author} {done : List Op} {op : Op} {r r' : KafkaRecord}

theorem Fresh.apart {ι : Type} {s : Pool ι (World Author) Author Op Op.Resp JsThrow JsVal}
    (h : Fresh s a) : Apart a := by
  intro c hc n hn m hm heq
  subst hc
  have huuid : c.proc.uuid n = c.proc.uuid m := Subtype.ext (JsVal.str.inj heq)
  exact h.distinct c rfl n hn m hm huuid

/-- Two ids of one call that are the same stand for the same content. -/
theorem content_eq (hd : Apart a) {n m : ℕ} (hn : n ≤ 9) (hm : m ≤ 9)
    (heq : drawn a n = drawn a m) : content a n = content a m := by
  cases a with
  | cancel orderId envelope => rfl
  | service c => rw [hd c rfl n (by omega) m (by omega) heq]

theorem Identified.rely (h : Identified a done w) (hr : (contentContract a).rely w w') :
    Identified a done w' := by
  obtain ⟨hledger, hidentifies⟩ := hr.ok.safe
  refine ⟨hledger, hidentifies, ready_mono h.ready hr.le,
    fun op hop => (h.recorded op hop).mono hr.le, fun x hx n hn hid => ?_,
    fun x hx c hc hid => ?_⟩
  · obtain ⟨x', hx', hlike⟩ := hr.own _ ⟨n, by omega, rfl⟩ x hx hid
    rw [hlike.topic, hlike.envelope]
    exact h.made x' hx' n hn (hlike.ident.symm.trans hid)
  · obtain ⟨x', hx', hlike⟩ := hr.own _ ⟨10, le_rfl, rfl⟩ x hx hid
    exact h.failed x' hx' c hc (hlike.ident.symm.trans hid)

/-- A record under an id that the log knows is like the one there. -/
theorem Identified.like (h : Identified a done w) (hop : Emission w a done r) (hr' : r' ∈ w.log)
    (hid : provenance.ident r' = provenance.ident r) : Like r r' := by
  cases hop with
  | copy hr₀ hlike => exact hlike.trans (h.identifies _ hr₀ _ hr' (hlike.ident.symm.trans hid.symm))
  | made hn hdrawn hcontent =>
    have hthere := h.made r' hr' _ hn (hid.trans hdrawn)
    obtain ⟨htopic, henvelope⟩ := Prod.mk.inj (Option.some.inj (hcontent.symm.trans hthere))
    exact ⟨htopic, henvelope⟩
  | failure hc hdrawn _ hnone =>
    obtain ⟨t, failure, hmem⟩ := h.failed r' hr' _ hc (hid.trans hdrawn)
    exact absurd hmem (hnone t failure)

theorem identifies_snoc {log : List KafkaRecord} (h : Identifies log)
    (hnew : ∀ r' ∈ log, provenance.ident r' = provenance.ident r → Like r r') :
    Identifies (log ++ [r]) := by
  intro x hx y hy hid
  rcases List.mem_append.mp hx with hx | hx
  · rcases List.mem_append.mp hy with hy | hy
    · exact h x hx y hy hid
    · rw [List.mem_singleton.mp hy] at hid ⊢
      exact (hnew x hx hid).symm
  · rw [List.mem_singleton.mp hx] at hid ⊢
    rcases List.mem_append.mp hy with hy | hy
    · exact hnew y hy hid.symm
    · rw [List.mem_singleton.mp hy]
      exact ⟨rfl, rfl⟩

/-- A record that a call sends stands for what its id stands for. -/
theorem Identified.emit (h : Identified a done w) (hd : Apart a) (hwrote : Wrote a done (.emit r)) :
    (contentContract a).guar w (w.exec a (.emit r)).2 ∧
      Identified a (done ++ [.emit r]) (w.exec a (.emit r)).2 := by
  have hturn : Turn w a done (.emit r) := ⟨h.ready, h.recorded, hwrote⟩
  have hop : Emission w a done r := emission_of_turn h.ledger hturn
  have hle : Longer w (w.exec a (.emit r)).2 := longer_exec
  have hledger : Ledger (w.exec a (.emit r)).2.log := ledger_turn h.ledger hturn
  have hunique : Identifies (w.exec a (.emit r)).2.log :=
    identifies_snoc h.identifies fun r' hr' hid => h.like hop hr' hid
  have hmem : ∀ x ∈ (w.exec a (.emit r)).2.log, x ∈ w.log ∨ x = r := by
    intro x hx
    rcases List.mem_append.mp hx with hold | hnew
    · exact .inl hold
    · exact .inr (List.mem_singleton.mp hnew)
  refine ⟨⟨hle, fun k hk x hx hid => ?_, ⟨hledger, hunique⟩, fun k hu ho => absurd hu ho⟩,
    hledger, hunique, ready_mono h.ready hle, fun op' hop' => ?_, fun x hx n hn hid => ?_,
    fun x hx c hc hid => ?_⟩
  · rcases hmem x hx with hold | rfl
    · exact ⟨x, hold, rfl, rfl⟩
    · cases hop with
      | copy hr₀ hlike => exact ⟨_, hr₀, hlike⟩
      | made hn hdrawn _ => exact absurd ⟨_, by omega, hid.symm.trans hdrawn⟩ hk
      | failure _ hdrawn _ _ => exact absurd ⟨10, le_rfl, hid.symm.trans hdrawn⟩ hk
  · rcases List.mem_append.mp hop' with hold | hnew
    · exact (h.recorded op' hold).mono hle
    · rw [List.mem_singleton.mp hnew]
      exact recorded_exec
  · rcases hmem x hx with hold | rfl
    · exact h.made x hold n hn hid
    · cases hop with
      | copy hr₀ hlike =>
        rw [hlike.topic, hlike.envelope]
        exact h.made _ hr₀ n hn (hlike.ident.symm.trans hid)
      | made hm hdrawn hcontent =>
        rw [← hcontent]
        exact content_eq hd hn hm (hid.symm.trans hdrawn)
      | failure hc hdrawn _ _ =>
        have hten := hd _ hc n (by omega) 10 le_rfl (hid.symm.trans hdrawn)
        omega
  · rcases hmem x hx with hold | rfl
    · obtain ⟨t, failure, hin⟩ := h.failed x hold c hc hid
      exact ⟨t, failure, List.mem_append_left _ hin⟩
    · cases hop with
      | copy hr₀ hlike =>
        obtain ⟨t, failure, hin⟩ := h.failed _ hr₀ c hc (hlike.ident.symm.trans hid)
        exact ⟨t, failure, List.mem_append_left _ hin⟩
      | made hm hdrawn _ =>
        have hten := hd _ hc _ (by omega) 10 le_rfl (hdrawn.symm.trans hid)
        omega
      | @failure _ t failure _ _ heq _ =>
        rw [heq]
        exact ⟨t, failure, List.mem_append_right _ List.mem_cons_self⟩

/-- What sends no record leaves the ids alone. -/
theorem Identified.silent (h : Identified a done w) (hsilent : ∀ r, op ≠ .emit r) :
    (contentContract a).guar w (w.exec a op).2 ∧ Identified a (done ++ [op]) (w.exec a op).2 := by
  have hlog : (w.exec a op).2.log = w.log := World.exec_log a w hsilent
  have hle : Longer w (w.exec a op).2 := longer_exec
  have hsafe : Ledger (w.exec a op).2.log ∧ Identifies (w.exec a op).2.log := by
    rw [hlog]
    exact ⟨h.ledger, h.identifies⟩
  refine ⟨⟨hle, fun k _ x hx _ => ?_, hsafe, fun k hu ho => absurd hu ho⟩, hsafe.1, hsafe.2,
    ready_mono h.ready hle, fun op' hop' => ?_, ?_, ?_⟩
  · rw [hlog] at hx
    exact ⟨x, hx, rfl, rfl⟩
  · rcases List.mem_append.mp hop' with hold | hnew
    · exact (h.recorded op' hold).mono hle
    · rw [List.mem_singleton.mp hnew]
      exact recorded_exec
  · rw [hlog]
    exact h.made
  · rw [hlog]
    intro x hx c hc hid
    obtain ⟨t, failure, hin⟩ := h.failed x hx c hc hid
    exact ⟨t, failure, List.mem_append_left _ hin⟩

end Invariant

section Runs

variable {ι : Type} [DecidableEq ι]

omit [DecidableEq ι] in
theorem sound_identity : contentOwnership.Sound eventFlow (fun _ _ => True) (fun _ _ => True)
    (FreshIds : Pool ι (World Author) Author Op Op.Resp JsThrow JsVal →
      PoolAct ι Author Op JsThrow → Prop) where
  env w w' hsafe henv := by
    obtain ⟨r, hr, rfl⟩ := henv
    refine ⟨⟨List.prefix_append _ _, List.prefix_rfl⟩, fun k x hx _ => ?_,
      ledger_again hsafe.1 hr, identifies_snoc hsafe.2 fun r' hr' hid => ?_⟩
    · rcases List.mem_append.mp hx with hold | hnew
      · exact ⟨x, hold, rfl, rfl⟩
      · rw [List.mem_singleton.mp hnew]
        exact ⟨r, hr, rfl, rfl⟩
    · exact hsafe.2 r hr r' hr' hid.symm
  start s i a hcond hready hok _ := by
    have hfresh : Fresh s a := hcond i a rfl
    have hstart : Identified a [] s.world := {
      ledger := hok.safe.1
      identifies := hok.safe.2
      ready := hready
      recorded := fun op hop => absurd hop List.not_mem_nil
      made := fun r hr n hn hid => absurd hid (hfresh.unused n (by omega) r hr)
      failed := fun r hr c hc hid => absurd hid (hfresh.unused 10 le_rfl r hr) }
    have hbody := (follows_author a).along (T := contentContract a) (I := Identified a)
      (fun _ _ _ hw hr => hw.rely hr) (fun done w op hop hw => ?_) hstart
    · exact hbody.imp fun _ _ _ _ _ => trivial
    · by_cases hemit : ∃ r, op = .emit r
      · obtain ⟨r, rfl⟩ := hemit
        exact hw.emit hfresh.apart hop
      · exact hw.silent fun r heq => hemit ⟨r, heq⟩
  free s i a hcond hi j job hj k := sound_causation.free s i a hcond hi j job hj k
  settle _ _ _ _ _ _ _ := trivial
  reject _ _ _ _ _ _ _ _ := trivial
  crash _ _ _ _ _ _ _ _ _ := trivial

variable {ls : List (PoolAct ι Author Op JsThrow)}
  {s : Pool ι (World Author) Author Op Op.Resp JsThrow JsVal}

theorem key_eq_correlationId {log : List KafkaRecord} (hlog : Ledger log) {r : KafkaRecord}
    (hr : r ∈ log) : r.key = (envelopeOf r).get "correlationId" := by
  obtain ⟨pre, post, hsplit⟩ := List.append_of_mem hr
  rcases hlog.routed_or_wraps hsplit with ⟨t, orderId, hrouted⟩ | ⟨h, orderId, r₀, -, -, -, hwraps⟩
  · rw [hrouted.key, hrouted.correlationId]
  · rw [hwraps.key, hwraps.correlationId]

/-- Under one `eventId` there is one event: with fresh ids two records of a run that carry the
same id are the same record but for their headers, however often services, retries and the
broker repeat it. -/
theorem one_event_per_id
    (hrun : RunWhere (Pool.Step eventFlow) FreshIds (Pool.idle World.empty) ls s) :
    ∀ r ∈ s.world.log, ∀ r' ∈ s.world.log,
      (envelopeOf r).get "eventId" = (envelopeOf r').get "eventId" →
      r.topic = r'.topic ∧ r.key = r'.key ∧ r.value = r'.value := by
  have hempty : Ledger (World.empty : World Author).log ∧
      Identifies (World.empty : World Author).log :=
    ⟨.nil, fun r hr => absurd hr List.not_mem_nil⟩
  obtain ⟨hlog, hall⟩ := sound_identity.safe hrun hempty fun _ => trivial
  intro r hr r' hr' hid
  have hlike : Like r r' := hall r hr r' hr' hid
  have hvalue : ∀ x ∈ s.world.log, x.value = .value (envelopeOf x) := by
    intro x hx
    obtain ⟨v, hv, -⟩ := hlog.sealed x hx
    rw [envelopeOf_value hv, hv]
  refine ⟨hlike.topic, ?_, ?_⟩
  · rw [key_eq_correlationId hlog hr, key_eq_correlationId hlog hr', hlike.envelope]
  · rw [hvalue r hr, hvalue r' hr', hlike.envelope]

theorem fresh_sampleOrder :
    Fresh (Pool.idle World.empty : Pool Unit (World Author) Author Op Op.Resp JsThrow JsVal)
      sampleOrder := by
  refine ⟨fun _ _ r hr => absurd hr List.not_mem_nil, fun _ _ => nofun, fun c hc => ?_⟩
  cases hc
  exact distinct_drawing (by decide)

/-- Any call may follow the first order that draws its ids from the second series. -/
theorem fresh_after_sampleOrder {c : Call} (hproc : c.proc = drawing "b") :
    Fresh (Pool.idle (eventFlow.called sampleOrder World.empty) :
      Pool Unit (World Author) Author Op Op.Resp JsThrow JsVal) (.service c) := by
  have hunused : ∀ r ∈ (eventFlow.called sampleOrder World.empty).log, ∀ n ≤ 10,
      provenance.ident r ≠ .str (hexText "b" n) := by decide +kernel
  refine ⟨fun n hn r hr => ?_, fun _ _ => nofun, fun c' hc => ?_⟩
  · have hdrawn : drawn (.service c) n = .str (hexUuid "b" n).val := by
      rw [drawn, hproc]
      rfl
    rw [hdrawn, hexUuid_val (by decide) hn]
    exact hunused r hr n hn
  · cases hc
    rw [hproc]
    exact distinct_drawing (by decide)

theorem fresh_sampleDelivery :
    Fresh (Pool.idle (eventFlow.called sampleOrder World.empty) :
      Pool Unit (World Author) Author Op Op.Resp JsThrow JsVal) sampleDelivery := by
  obtain ⟨r, hr, htopic, hdelivery⟩ := sampleDelivery_eq
  rw [hdelivery]
  exact fresh_after_sampleOrder rfl

/-- The broker stores the request of a payment once more: four records under three ids. -/
theorem one_event_per_id_paid : ∃ ls,
    ∃ s : Pool Unit (World Author) Author Op Op.Resp JsThrow JsVal,
      RunWhere (Pool.Step eventFlow) FreshIds (Pool.idle World.empty) ls s ∧
      s.world.log.length = 4 ∧ ∀ r ∈ s.world.log, ∀ r' ∈ s.world.log,
        (envelopeOf r).get "eventId" = (envelopeOf r').get "eventId" →
        r.topic = r'.topic ∧ r.key = r'.key ∧ r.value = r'.value := by
  let w : World Author := eventFlow.called sampleOrder World.empty
  have hready : eventFlow.ready w sampleDelivery := by
    obtain ⟨r, hr, htopic, hdelivery⟩ := sampleDelivery_eq
    rw [hdelivery]
    exact ⟨r, hr, htopic, rfl, rfl⟩
  have hlength : (eventFlow.called sampleDelivery w).log.length = 3 := by decide +kernel
  obtain ⟨ls, hrun⟩ := flowed_run (a := sampleOrder) trivial fresh_sampleOrder
  obtain ⟨ms, hmore⟩ := flowed_run hready fresh_sampleDelivery
  have hpos : 0 < (eventFlow.called sampleDelivery w).log.length := by omega
  obtain ⟨r, hr⟩ := List.exists_mem_of_length_pos hpos
  have hpaid := hrun.trans hmore
  have hagain := hpaid.snoc (l := .env) (fun _ _ => nofun) (Pool.Step.env ⟨r, hr, rfl⟩)
  refine ⟨_, _, hagain, ?_, one_event_per_id hagain⟩
  show ((eventFlow.called sampleDelivery w).log ++ [r]).length = 4
  rw [List.length_append, hlength]
  rfl

end Runs

end EventFlow.Saga
