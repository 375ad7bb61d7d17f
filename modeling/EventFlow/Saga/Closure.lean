import EventFlow.Saga.Delivery

namespace EventFlow.Saga

open Js Shared Services Async Retry

section Decisions

/-- The order that a request is about to make. -/
def requested : Author → Option String
  | .service (.createOrder proc _) => some (proc.uuid 0).val
  | _ => none

/-- A request draws an id that no order has, and no other running request. -/
def NewOrders {ι : Type} (s : Pool ι (World Author) Author Op Op.Resp JsThrow JsVal)
    (l : PoolAct ι Author Op JsThrow) : Prop :=
  ∀ i a, l = .start i a → ∀ orderId, requested a = some orderId →
    s.world.orders.find? orderId = none ∧
      ∀ j job, s.jobs j = some job → requested job.1 ≠ some orderId

/-- Fresh ids for events and for orders. -/
def NewIds {ι : Type} (s : Pool ι (World Author) Author Op Op.Resp JsThrow JsVal)
    (l : PoolAct ι Author Op JsThrow) : Prop := FreshIds s l ∧ NewOrders s l

/-- Once its payment has an outcome that order-service knows, an order is not pending. -/
def Decided (w : World Author) : Prop :=
  ∀ a orderId status, (a, Op.updateOrder (byId orderId) status) ∈ w.trace → status ≠ .cancelled →
    Backed w.log .orderCreated orderId ∧
      ∀ row, w.orders.find? orderId = some row → row.status ≠ .pending

variable {w w' : World Author} {a : Author} {done : List Op} {op : Op} {orderId : String}

/-- Only a request that has yet to announce its order would set it back. -/
theorem decided_turn (hw : Decided w) (hlog : Ledger w.log) (hturn : Turn w a done op)
    (hpending : ∀ row, op = .saveOrder row → row.status = .pending →
      ¬ Backed w.log .orderCreated row.id) : Decided (w.exec a op).2 := by
  intro b orderId status hmem hne
  have hle : Longer w (w.exec a op).2 := longer_exec
  have htrace : (b, Op.updateOrder (byId orderId) status) ∈ w.trace ∨
      op = .updateOrder (byId orderId) status := by
    rcases List.mem_append.mp hmem with hold | hnew
    · exact .inl hold
    · exact .inr (Prod.mk.inj (List.mem_singleton.mp hnew)).2.symm
  have hbacked : Backed w.log .orderCreated orderId := by
    rcases htrace with hold | rfl
    · exact (hw b orderId status hold hne).1
    · obtain ⟨id, hid, hprojected⟩ := projected_of_turn hlog hturn
      obtain rfl := byId_injective hid
      rcases hprojected with ⟨-, hsent⟩ | ⟨hcancelled, -⟩ | ⟨-, hfailed⟩
      · exact hlog.preceded hsent (by decide)
      · exact absurd hcancelled hne
      · exact hlog.preceded hfailed (by decide)
  refine ⟨hbacked.mono hle.log, fun row hrow => ?_⟩
  cases op with
  | saveOrder saved =>
    rw [World.find?_exec_saveOrder] at hrow
    split_ifs at hrow with hid
    · obtain rfl := Option.some.inj hrow
      subst hid
      exact fun hstatus => hpending _ rfl hstatus hbacked
    · rcases htrace with hold | heq
      · exact (hw b orderId status hold hne).2 row hrow
      · cases heq
  | updateOrder criterion status' =>
    obtain ⟨k, rfl, hprojected⟩ := projected_of_turn hlog hturn
    rw [World.find?_exec_updateOrder_byId] at hrow
    split_ifs at hrow with hid
    · obtain ⟨row', -, rfl⟩ := Option.map_eq_some_iff.mp hrow
      rcases hprojected with ⟨rfl, -⟩ | ⟨rfl, -⟩ | ⟨rfl, -⟩ <;> simp
    · rcases htrace with hold | heq
      · exact (hw b orderId status hold hne).2 row hrow
      · exact absurd (byId_injective (Op.updateOrder.inj heq).1).symm hid
  | _ =>
    rcases htrace with hold | heq
    · exact (hw b orderId status hold hne).2 row hrow
    · cases heq

/-- A request owns the order that it makes: nobody else announces it. -/
def requestOwnership : Pool.Ownership (World Author) Author String where
  owns a k := requested a = some k
  uses a k := requested a = some k
  same k w w' := Backed w'.log .orderCreated k → Backed w.log .orderCreated k
  le := Longer
  safe w := Placed w ∧ Decided w
  rest _ _ := True
  uses_of_owns _ _ h := h
  same_refl _ _ h := h
  same_trans _ _ _ _ h h' hbacked := h (h' hbacked)
  le_refl := Longer.refl
  le_trans := Longer.trans
  rest_stable _ _ _ _ _ h := h

abbrev requestContract (a : Author) : Contract (World Author) Op Op.Resp :=
  requestOwnership.contract eventFlow (fun _ _ => True) (fun _ _ => True) a

/-- What a running call keeps: until it has sent a record, its order has not been announced. -/
structure Announcing (a : Author) (done : List Op) (w : World Author) : Prop where
  placed : Placed w
  decided : Decided w
  ready : eventFlow.ready w a
  recorded : ∀ op ∈ done, Recorded w a op
  unannounced : (∀ r, Op.emit r ∉ done) → ∀ orderId, requested a = some orderId →
    ¬ Backed w.log .orderCreated orderId

theorem Announcing.rely (h : Announcing a done w) (hr : (requestContract a).rely w w') :
    Announcing a done w' := by
  obtain ⟨hplaced, hdecided⟩ := hr.ok.safe
  exact ⟨hplaced, hdecided, ready_mono h.ready hr.le,
    fun op hop => (h.recorded op hop).mono hr.le,
    fun hnone orderId horder hbacked => h.unannounced hnone orderId horder
      (hr.own orderId horder hbacked)⟩

/-- A request stores its order as pending before it announces it, and never after. -/
theorem Announcing.pending {row : OrderEntity} (h : Announcing a done w)
    (hwrote : Wrote a done (.saveOrder row)) (hstatus : row.status = .pending) :
    ¬ Backed w.log .orderCreated row.id := by
  cases a with
  | cancel _ _ => cases hwrote
  | service c =>
    cases hwrote with
    | wait hquiet => cases hquiet
    | enact _ hop =>
      cases hop with
      | wait hquiet => cases hquiet
    | save hrow hnone =>
      refine h.unannounced (hnone hstatus) row.id ?_
      simp only [List.mem_cons, List.not_mem_nil, or_false] at hrow
      rcases hrow with rfl | rfl | rfl <;> rfl

theorem Announcing.step (h : Announcing a done w) (hwrote : Wrote a done op) :
    (requestContract a).guar w (w.exec a op).2 ∧
      Announcing a (done ++ [op]) (w.exec a op).2 := by
  have hturn : Turn w a done op := ⟨h.ready, h.recorded, hwrote⟩
  have hle : Longer w (w.exec a op).2 := longer_exec
  have hplaced : Placed (w.exec a op).2 := placed_turn h.placed hturn
  have hdecided : Decided (w.exec a op).2 := by
    refine decided_turn h.decided h.placed.ledger hturn fun row heq hstatus => ?_
    subst heq
    exact h.pending hwrote hstatus
  refine ⟨⟨hle, fun k hk hbacked => ?_, ⟨hplaced, hdecided⟩, fun k hu ho => absurd hu ho⟩,
    hplaced, hdecided, ready_mono h.ready hle, fun op' hop' => ?_,
    fun hnone orderId horder hbacked => ?_⟩
  · rcases backed_turn h.placed.ledger hturn hbacked with hold | ⟨proc, dto, rfl, hid, -⟩
    · exact hold
    · exact absurd (congrArg some hid) hk
  · rcases List.mem_append.mp hop' with hold | hnew
    · exact (h.recorded op' hold).mono hle
    · rw [List.mem_singleton.mp hnew]
      exact recorded_exec
  · rcases backed_turn h.placed.ledger hturn hbacked with hold | ⟨proc, dto, -, -, -, r, rfl⟩
    · exact h.unannounced (fun r hr => hnone r (List.mem_append_left _ hr)) orderId horder hold
    · exact hnone r (List.mem_append_right _ List.mem_cons_self)

variable {ι : Type} [DecidableEq ι]

omit [DecidableEq ι] in
theorem sound_requests : requestOwnership.Sound eventFlow (fun _ _ => True) (fun _ _ => True)
    (NewOrders : Pool ι (World Author) Author Op Op.Resp JsThrow JsVal →
      PoolAct ι Author Op JsThrow → Prop) where
  env w w' hsafe henv := by
    obtain ⟨r, hr, rfl⟩ := henv
    have hle : Longer w { w with log := w.log ++ [r] } := ⟨List.prefix_append _ _, List.prefix_rfl⟩
    refine ⟨hle, fun k hbacked => backed_again hr hbacked, hsafe.1.again hr, ?_⟩
    intro a orderId status hmem hne
    obtain ⟨hbacked, hrow⟩ := hsafe.2 a orderId status hmem hne
    exact ⟨hbacked.mono hle.log, hrow⟩
  start s i a hcond hready hok _ := by
    have hstart : Announcing a [] s.world := {
      placed := hok.safe.1
      decided := hok.safe.2
      ready := hready
      recorded := fun op hop => absurd hop List.not_mem_nil
      unannounced := fun _ orderId horder hbacked =>
        hok.safe.1.announced orderId hbacked (hcond i a rfl orderId horder).1 }
    have hbody := (follows_author a).along (T := requestContract a) (I := Announcing a)
      (fun _ _ _ hw hr => hw.rely hr) (fun done w op hop hw => hw.step hop) hstart
    exact hbody.imp fun _ _ _ _ _ => trivial
  free s i a hcond hi j job hj k :=
    ⟨fun hown huse => (hcond i a rfl k hown).2 j job hj huse,
      fun huse hown => (hcond i a rfl k huse).2 j job hj hown⟩
  settle _ _ _ _ _ _ _ := trivial
  reject _ _ _ _ _ _ _ _ := trivial
  crash _ _ _ _ _ _ _ _ _ := trivial

end Decisions

section Rest

variable {ι : Type} [DecidableEq ι]

/-- The record at an offset has reached a consumer, which has acknowledged it. -/
def Handed
    (cond : Pool ι (World Author) Author Op Op.Resp JsThrow JsVal →
      PoolAct ι Author Op JsThrow → Prop)
    (s : Pool ι (World Author) Author Op Op.Resp JsThrow JsVal) (h : RetriedHandler) (n : ℕ) :
    Prop :=
  ∃ s₀ s₁ ls ms r proc ack, RunWhere (Pool.Step eventFlow) cond (Pool.idle World.empty) ls s₀ ∧
    s₀.world.log[n]? = some r ∧
    Pool.Served eventFlow cond s₀ (.service (.consume h proc r.headers r.value)) ack s₁ ∧
    RunWhere (Pool.Step eventFlow) cond s₁ ms s

/-- No consumer has a message before it: every record that it takes has reached it. -/
def AtRest
    (cond : Pool ι (World Author) Author Op Op.Resp JsThrow JsVal →
      PoolAct ι Author Op JsThrow → Prop)
    (s : Pool ι (World Author) Author Op Op.Resp JsThrow JsVal) : Prop :=
  ∀ (n : ℕ) r, s.world.log[n]? = some r → ∀ h : RetriedHandler, r.topic = h.topic →
    ∀ v, h.read r.value = .ok (.accepted v) → Handed cond s h n

/-- A failure record tells of the order. -/
def DeadLetter (log : List KafkaRecord) (orderId : String) : Prop :=
  ∃ h r₀, ∃ r ∈ log, Wraps h r₀ r ∧ r.key = .str orderId

variable {ls : List (PoolAct ι Author Op JsThrow)}
  {s : Pool ι (World Author) Author Op Op.Resp JsThrow JsVal}
  {cond : Pool ι (World Author) Author Op Op.Resp JsThrow JsVal → PoolAct ι Author Op JsThrow → Prop}
  {h : RetriedHandler} {r : KafkaRecord} {v : JsVal} {orderId : String}

/-- What a consumer has acknowledged, it has dealt with. -/
theorem dealt_of_handed {n : ℕ} (hcond : ∀ s l, cond s l → FreshIds s l)
    (hhanded : Handed cond s h n) (hr : s.world.log[n]? = some r)
    (hread : h.read r.value = .ok (.accepted v)) :
    ∃ early : List KafkaRecord, n < early.length ∧ Dealt early h v s.world := by
  obtain ⟨s₀, s₁, ls, ms, r₀, proc, ack, hrun, hr₀, hserved, hmore⟩ := hhanded
  have hlast : Longer s₁.world s.world := longer_of_run hmore
  obtain ⟨ls', hrun'⟩ := hserved.run
  have hfirst : Longer s₀.world s₁.world := longer_of_run hrun'
  obtain rfl : r₀ = r := by
    have hsame := offset_stays hr₀ (hfirst.log.trans hlast.log)
    exact Option.some.inj (hsame.symm.trans hr)
  exact ⟨_, (List.getElem?_eq_some_iff.mp hr₀).1,
    (dealt_of_served hcond hrun hserved hread).mono hlast⟩

/-- A record that is taken has its effect in the end, unless a failure record tells of it. -/
theorem through_or_buried (hcond : ∀ s l, cond s l → FreshIds s l)
    (hrun : RunWhere (Pool.Step eventFlow) cond (Pool.idle World.empty) ls s)
    (hrest : AtRest cond s) {n : ℕ} (hr : s.world.log[n]? = some r) (htopic : r.topic = h.topic)
    (hread : h.read r.value = .ok (.accepted v))
    (horder : (v.get "payload").get "orderId" = .str orderId) :
    Through h orderId s.world ∨ DeadLetter s.world.log orderId := by
  have hlog : Ledger s.world.log := ledger_of_run hrun
  -- every copy stands further on in the log, which ends
  induction hleft : s.world.log.length - n using Nat.strong_induction_on generalizing n r with
  | _ m ih =>
    obtain ⟨id, hrouted, hvalue, -⟩ := hlog.received (List.mem_of_getElem? hr) htopic hread
    obtain ⟨early, hn, hdealt⟩ := dealt_of_handed hcond (hrest n r hr h htopic v hread) hr hread
    cases hdealt with
    | effect hthrough => exact .inl (hthrough orderId horder)
    | @copied r' hafter htopic' hvalue' =>
      obtain ⟨n', hn', hr'⟩ := hafter
      have hlt : n < s.world.log.length := (List.getElem?_eq_some_iff.mp hr).1
      rw [hvalue, ← hvalue'] at hread
      exact ih _ (by omega) hr' htopic' hread rfl
    | buried hafter hvalue' htopic' hwraps =>
      refine .inr ⟨h, _, _, hafter.mem, hwraps, ?_⟩
      have hnamed := hrouted.order
      rw [envelopeOf_value hvalue, horder] at hnamed
      have hcorrelation := hrouted.correlationId
      rw [envelopeOf_value hvalue, ← JsVal.str.inj hnamed] at hcorrelation
      rw [hwraps.key, envelopeOf_value hvalue', hcorrelation]

/-- So has every event that the services react to. -/
theorem followed_up (hcond : ∀ s l, cond s l → FreshIds s l)
    (hrun : RunWhere (Pool.Step eventFlow) cond (Pool.idle World.empty) ls s)
    (hrest : AtRest cond s) (hdead : ¬ DeadLetter s.world.log orderId)
    (hother : h ≠ .paymentOrderEvents) (hbacked : Backed s.world.log h.eventType orderId) :
    Through h orderId s.world := by
  obtain ⟨r, hr, hrouted⟩ := hbacked
  have htopic : r.topic = h.topic := hrouted.topic.trans h.resolveKafkaTopic_eventType
  have hreaction : r.topic ≠ orderEventsTopic := by
    rw [htopic]
    cases h with
    | paymentOrderEvents => exact absurd rfl hother
    | _ => decide
  have hread := legible_reactions hrun r hr hreaction h htopic hrouted.eventType
  obtain ⟨n, hn⟩ := List.mem_iff_getElem?.mp hr
  have hended := through_or_buried hcond hrun hrest hn htopic hread hrouted.order
  exact hended.resolve_right hdead

theorem decided_of_run
    (hrun : RunWhere (Pool.Step eventFlow) NewIds (Pool.idle World.empty) ls s) :
    Decided s.world := by
  have hempty : Placed World.empty ∧ Decided World.empty :=
    ⟨placed_empty, fun _ _ _ hmem => absurd hmem List.not_mem_nil⟩
  exact (sound_requests.safe (hrun.mono fun _ _ hc => hc.2) hempty fun _ => trivial).2

end Rest

section Samples

theorem toList_hexText (c : Char) (n : ℕ) : (hexText (String.singleton c) n).toList = c ::
    ("1111111-1111-4111-8111-11111111111".toList ++ [Nat.digitChar n]) := by
  simp [hexText]

theorem matchesUuid_hexText {c : Char} (hc : uuidCharAt 0 c = true) {n : ℕ} (hn : n ≤ 10) :
    matchesUuid (hexText (String.singleton c) n) = true := by
  let body : List Char := ['1', '1', '1', '1', '1', '1', '1', '-', '1', '1', '1', '1', '-', '4',
    '1', '1', '1', '-', '8', '1', '1', '1', '-', '1', '1', '1', '1', '1', '1', '1', '1', '1', '1',
    '1']
  have hbody : "1111111-1111-4111-8111-11111111111".toList = body := by decide +kernel
  have hrest : ∀ n ≤ 10, ((body ++ [Nat.digitChar n]).zipIdx 1).all
      (fun p => uuidCharAt p.2 p.1) = true := by decide +kernel
  rw [matchesUuid, toList_hexText, hbody, List.zipIdx_cons, List.all_cons, Bool.and_eq_true,
    Bool.and_eq_true]
  exact ⟨rfl, hc, hrest n hn⟩

theorem hexUuid_series {c : Char} (hc : uuidCharAt 0 c = true) {n : ℕ} (hn : n ≤ 10) :
    (hexUuid (String.singleton c) n).val = hexText (String.singleton c) n :=
  congrArg Subtype.val (dif_pos (matchesUuid_hexText hc hn))

/-- A process draws different ids whatever digit they begin with. -/
theorem distinct_series {c : Char} (hc : uuidCharAt 0 c = true) : ∀ n ≤ 10, ∀ m ≤ 10,
    (drawing (String.singleton c)).uuid n = (drawing (String.singleton c)).uuid m → n = m := by
  have hdigit : ∀ n ≤ 10, ∀ m ≤ 10, Nat.digitChar n = Nat.digitChar m → n = m := by decide
  intro n hn m hm heq
  change hexUuid _ n = hexUuid _ m at heq
  have hsame := congrArg Subtype.val heq
  rw [hexUuid_series hc hn, hexUuid_series hc hm] at hsame
  have hlist := congrArg String.toList hsame
  rw [toList_hexText, toList_hexText] at hlist
  exact hdigit n hn m hm (by simpa using hlist)

/-- A consumer gets the record at an offset, in a process with a series of ids of its own. -/
structure Delivery where
  consumer : RetriedHandler
  offset : ℕ
  lead : Char

def Delivery.call (d : Delivery) (r : KafkaRecord) : Author :=
  .service (.consume d.consumer (drawing (String.singleton d.lead)) r.headers r.value)

def handOver (w : World Author) (d : Delivery) : World Author :=
  match w.log[d.offset]? with
  | some r => eventFlow.called (d.call r) w
  | none => w

/-- The consumer takes its record under new ids, and acknowledges it. -/
def handable (w : World Author) (d : Delivery) : Bool :=
  match w.log[d.offset]? with
  | some r => r.topic = d.consumer.topic && uuidCharAt 0 d.lead &&
      (w.log.all fun x => (List.range 11).all fun n =>
        provenance.ident x ≠ .str (hexText (String.singleton d.lead) n)) &&
      (((d.call r).body).run (eventFlow.settle (d.call r) fun _ => none) w).1.isOk
  | none => false

def allHandable : World Author → List Delivery → Bool
  | _, [] => true
  | w, d :: ds => handable w d && allHandable (handOver w d) ds

variable {w : World Author} {s t : Pool Unit (World Author) Author Op Op.Resp JsThrow JsVal}
  {cond : Pool Unit (World Author) Author Op Op.Resp JsThrow JsVal →
    PoolAct Unit Author Op JsThrow → Prop} {h : RetriedHandler} {n : ℕ}

theorem quiet_newIds {l : PoolAct Unit Author Op JsThrow} (hl : ∀ i a, l ≠ .start i a) :
    NewIds s l := ⟨fun i a heq => absurd heq (hl i a), fun i a heq => absurd heq (hl i a)⟩

theorem Handed.later {ms : List (PoolAct Unit Author Op JsThrow)} (hh : Handed cond s h n)
    (hmore : RunWhere (Pool.Step eventFlow) cond s ms t) : Handed cond t h n := by
  obtain ⟨s₀, s₁, ls, ms', r, proc, ack, hrun, hr, hserved, hrest⟩ := hh
  exact ⟨s₀, s₁, ls, _, r, proc, ack, hrun, hr, hserved, hrest.trans hmore⟩

/-- One delivery after another. -/
theorem handed_all (ds : List Delivery) (hall : allHandable w ds = true)
    {ls : List (PoolAct Unit Author Op JsThrow)}
    (hrun : RunWhere (Pool.Step eventFlow) NewIds (Pool.idle World.empty) ls (Pool.idle w)) :
    ∃ ms, ∃ t : Pool Unit (World Author) Author Op Op.Resp JsThrow JsVal,
      t = Pool.idle (ds.foldl handOver w) ∧
      RunWhere (Pool.Step eventFlow) NewIds (Pool.idle w) ms t ∧
      ∀ d ∈ ds, Handed NewIds t d.consumer d.offset := by
  induction ds generalizing w ls with
  | nil => exact ⟨[], _, rfl, .nil, fun d hd => absurd hd List.not_mem_nil⟩
  | cons d ds ih =>
    obtain ⟨hfirst, hrest⟩ := Bool.and_eq_true_iff.mp hall
    unfold handable at hfirst
    split at hfirst
    · next r hr =>
      simp only [Bool.and_eq_true, List.all_eq_true, decide_eq_true_eq, List.mem_range] at hfirst
      obtain ⟨⟨⟨htopic, hlead⟩, hunused⟩, hok⟩ := hfirst
      have hready : eventFlow.ready w (d.call r) :=
        ⟨r, List.mem_of_getElem? hr, htopic, rfl, rfl⟩
      have hstart : NewIds (Pool.idle w : Pool Unit (World Author) Author Op Op.Resp JsThrow JsVal)
          (.start () (d.call r)) := by
        refine ⟨fun i a heq => ?_, fun i a heq orderId horder => ?_⟩
        · cases heq
          refine ⟨fun n hn x hx => ?_, fun _ _ => nofun, fun c hc => ?_⟩
          · show provenance.ident x ≠ .str (hexUuid (String.singleton d.lead) n).val
            rw [hexUuid_series hlead hn]
            exact hunused x hx n (by omega)
          · cases hc
            exact distinct_series hlead
        · cases heq
          cases horder
      have hsettled : ∀ t op, NewIds t (.settled () op) :=
        fun _ _ => quiet_newIds fun _ _ => nofun
      have hfin : ∀ t, NewIds t (.finish ()) := fun _ => quiet_newIds fun _ _ => nofun
      obtain ⟨ack, t, hserved, -, ms, hdone⟩ := served_flowed hsettled hfin hready hstart hok
      have hover : handOver w d = eventFlow.called (d.call r) w := by
        unfold handOver
        rw [hr]
      obtain ⟨ms₀, hserving⟩ := hserved.run
      rw [hover] at hrest
      obtain ⟨ms', t', ht', hmore, hlater⟩ := ih hrest (hrun.trans (hserving.trans hdone))
      rw [List.foldl_cons, hover]
      refine ⟨_, t', ht', (hserving.trans hdone).trans hmore, fun d' hd' => ?_⟩
      rcases List.mem_cons.mp hd' with rfl | hd'
      · exact ⟨_, _, _, _, r, _, _, hrun, hr, hserved, hdone.trans hmore⟩
      · exact hlater d' hd'
    · cases hfirst

theorem flowed_newIds {a : Author} (hready : eventFlow.ready w a)
    (hstart : NewIds (Pool.idle w : Pool Unit (World Author) Author Op Op.Resp JsThrow JsVal)
      (.start () a)) : ∃ ms, RunWhere (Pool.Step eventFlow) NewIds
        (Pool.idle w : Pool Unit (World Author) Author Op Op.Resp JsThrow JsVal) ms
        (Pool.idle (eventFlow.called a w)) :=
  Pool.called_run eventFlow () hready hstart (fun _ _ => quiet_newIds fun _ _ => nofun)
    fun _ => quiet_newIds fun _ _ => nofun

/-- The way of an order to its completion. -/
def orderPath : List Delivery := [⟨.paymentOrderEvents, 0, 'b'⟩, ⟨.stockPaymentEvents, 2, 'c'⟩,
  ⟨.notificationStockReserved, 3, 'd'⟩, ⟨.orderNotificationSent, 5, 'e'⟩]

/-- And that of a cancellation that comes late. -/
def regretPath : List Delivery := [⟨.paymentOrderCancelled, 6, 'e'⟩,
  ⟨.notificationOrderCancelled, 6, 'e'⟩, ⟨.stockOrderCancelled, 6, 'e'⟩,
  ⟨.orderStockReleased, 7, 'f'⟩]

def closedOrder : World Author := orderPath.foldl handOver (eventFlow.called sampleOrder World.empty)

def closedRegret : World Author := regretPath.foldl handOver (eventFlow.called sampleRegret closedOrder)

/-- The consumers that take each record of a log. -/
def takers (log : List KafkaRecord) : List (List RetriedHandler) :=
  log.map fun r => [RetriedHandler.orderPaymentEvents, .orderStockReleased, .orderStockFailed,
    .orderNotificationSent, .paymentOrderEvents, .paymentOrderCancelled, .stockPaymentEvents,
    .stockOrderCancelled, .notificationStockReserved, .notificationPaymentEvents,
    .notificationOrderCancelled].filter fun h => r.topic = h.topic && (taken h r).isSome

theorem mem_takers {log : List KafkaRecord} {r : KafkaRecord} {v : JsVal} (hr : log[n]? = some r)
    (htopic : r.topic = h.topic) (hread : h.read r.value = .ok (.accepted v)) :
    ∃ hs, (takers log)[n]? = some hs ∧ h ∈ hs := by
  refine ⟨_, (List.getElem?_map ..).trans (congrArg _ hr), List.mem_filter.mpr ⟨?_, ?_⟩⟩
  · cases h <;> simp
  · rw [taken_eq_some.mpr hread]
    simp [htopic]

/-- The consumers of the records of an order that is completed, and cancelled after all. -/
def closedTakers : List (List RetriedHandler) := [[.paymentOrderEvents], [],
  [.stockPaymentEvents], [.notificationStockReserved], [], [.orderNotificationSent],
  [.paymentOrderCancelled, .stockOrderCancelled, .notificationOrderCancelled],
  [.orderStockReleased]]

theorem closedRegret_log : takers closedRegret.log = closedTakers ∧
    (∃ r ∈ closedRegret.log, r.topic = RetriedHandler.paymentOrderEvents.topic ∧
      ((taken .paymentOrderEvents r).map fun v => (v.get "payload").get "orderId") =
        some (.str (hexUuid "a" 0).val)) ∧
    ∃ r ∈ closedRegret.log, r.topic = EventType.orderCancelled.value ∧
      r.key = .str (hexUuid "a" 0).val ∧
      (envelopeOf r).get "eventType" = .str EventType.orderCancelled.value ∧
      (envelopeOf r).get "correlationId" = .str (hexUuid "a" 0).val ∧
      ((envelopeOf r).get "payload").get "orderId" = .str (hexUuid "a" 0).val := by
  decide +kernel

theorem closedRegret_length : closedRegret.log.length = 8 := by
  have hlength := congrArg List.length closedRegret_log.1
  rwa [takers, List.length_map] at hlength

/-- Nothing of it is left to be handed over. -/
theorem closedRegret_run : ∃ ls, ∃ t : Pool Unit (World Author) Author Op Op.Resp JsThrow JsVal,
    t.world = closedRegret ∧ RunWhere (Pool.Step eventFlow) NewIds (Pool.idle World.empty) ls t ∧
      AtRest NewIds t := by
  have hfirst : NewIds (Pool.idle World.empty :
      Pool Unit (World Author) Author Op Op.Resp JsThrow JsVal) (.start () sampleOrder) := by
    refine ⟨fun i a heq => ?_, fun i a heq orderId _ => ⟨rfl, fun _ _ => nofun⟩⟩
    cases heq
    exact fresh_sampleOrder
  have hunused : ∀ r ∈ closedOrder.log, provenance.ident r ≠ .str Uuid.second.val := by
    decide +kernel
  have hsecond : NewIds (Pool.idle closedOrder :
      Pool Unit (World Author) Author Op Op.Resp JsThrow JsVal) (.start () sampleRegret) := by
    refine ⟨fun i a heq => ?_, fun i a heq orderId horder => ?_⟩
    · cases heq
      exact ⟨fun n _ => hunused, fun _ _ => nofun, fun _ => nofun⟩
    · cases heq
      cases horder
  have hordered : allHandable (eventFlow.called sampleOrder World.empty) orderPath = true := by
    decide +kernel
  have hregretted : allHandable (eventFlow.called sampleRegret closedOrder) regretPath = true := by
    decide +kernel
  obtain ⟨ls₁, hrun₁⟩ := flowed_newIds (a := sampleOrder) trivial hfirst
  obtain ⟨ls₂, t₂, rfl, hrun₂, hhanded₂⟩ := handed_all orderPath hordered hrun₁
  have hcancel : eventFlow.ready closedOrder sampleRegret := ⟨⟨_, rfl⟩, rfl, rfl, rfl⟩
  obtain ⟨ls₃, hrun₃⟩ := flowed_newIds hcancel hsecond
  obtain ⟨ls₄, t₄, rfl, hrun₄, hhanded₄⟩ :=
    handed_all regretPath hregretted ((hrun₁.trans hrun₂).trans hrun₃)
  refine ⟨_, _, rfl, ((hrun₁.trans hrun₂).trans hrun₃).trans hrun₄,
    fun n r hr h htopic v hread => ?_⟩
  have hcovered : ∀ n < 8, ∀ hs ∈ closedTakers[n]?, ∀ h ∈ hs,
      ∃ d ∈ orderPath ++ regretPath, d.consumer = h ∧ d.offset = n := by decide
  obtain ⟨hs, hget, hmem⟩ := mem_takers hr htopic hread
  change (takers closedRegret.log)[n]? = some hs at hget
  rw [closedRegret_log.1] at hget
  have hn : n < 8 := (List.getElem?_eq_some_iff.mp hget).1
  obtain ⟨d, hd, rfl, rfl⟩ := hcovered n hn hs hget h hmem
  rcases List.mem_append.mp hd with hd | hd
  · exact (hhanded₂ d hd).later (hrun₃.trans hrun₄)
  · exact hhanded₄ d hd

end Samples

section Results

variable {ι : Type} [DecidableEq ι] {ls : List (PoolAct ι Author Op JsThrow)}
  {s : Pool ι (World Author) Author Op Op.Resp JsThrow JsVal}
  {cond : Pool ι (World Author) Author Op Op.Resp JsThrow JsVal → PoolAct ι Author Op JsThrow → Prop}
  {r : KafkaRecord} {v : JsVal} {orderId : String}

/-- No order is forgotten: once every record has reached its consumers, however often their
operations have failed on the way, an order that payment-service has taken is not pending any
more, or there is a failure record of it. -/
theorem no_order_forgotten
    (hrun : RunWhere (Pool.Step eventFlow) NewIds (Pool.idle World.empty) ls s)
    (hrest : AtRest NewIds s) (hr : r ∈ s.world.log)
    (htopic : r.topic = RetriedHandler.paymentOrderEvents.topic)
    (hread : RetriedHandler.paymentOrderEvents.read r.value = .ok (.accepted v))
    (horder : (v.get "payload").get "orderId" = .str orderId) :
    (∃ row, s.world.orders.find? orderId = some row ∧ row.status ≠ .pending) ∨
      DeadLetter s.world.log orderId := by
  have hcond : ∀ (s : Pool ι (World Author) Author Op Op.Resp JsThrow JsVal) l,
      NewIds s l → FreshIds s l := fun _ _ hc => hc.1
  have hdecided : Decided s.world := decided_of_run hrun
  have hleft : ∀ {a status}, (a, Op.updateOrder (byId orderId) status) ∈ s.world.trace →
      status ≠ .cancelled →
      ∃ row, s.world.orders.find? orderId = some row ∧ row.status ≠ .pending := by
    intro a status hmem hne
    obtain ⟨hbacked, hrow⟩ := hdecided a orderId status hmem hne
    obtain ⟨row, hfound⟩ := (placed_of_run hrun).row (t := .orderCreated) (by decide) hbacked
    exact ⟨row, hfound, hrow row hfound⟩
  by_cases hdead : DeadLetter s.world.log orderId
  · exact .inr hdead
  obtain ⟨n, hn⟩ := List.mem_iff_getElem?.mp hr
  have hpaid : Through .paymentOrderEvents orderId s.world :=
    (through_or_buried hcond hrun hrest hn htopic hread horder).resolve_right hdead
  obtain ⟨t, ht, houtcome⟩ := hpaid.announced (by decide)
  simp only [finalEvents, List.mem_cons, List.not_mem_nil, or_false] at ht
  refine .inl ?_
  rcases ht with rfl | rfl
  · have hreserved : Through .stockPaymentEvents orderId s.world :=
      followed_up hcond hrun hrest hdead (by decide) houtcome
    have hnotified : Through .notificationStockReserved orderId s.world :=
      followed_up hcond hrun hrest hdead (by decide) (hreserved.next rfl)
    have hcompleted : Through .orderNotificationSent orderId s.world :=
      followed_up hcond hrun hrest hdead (by decide) (hnotified.next rfl)
    obtain ⟨a, hmem⟩ := hcompleted.projected .completed rfl
    exact hleft hmem (by decide)
  · have hfailed : Through .orderPaymentEvents orderId s.world :=
      followed_up hcond hrun hrest hdead (by decide) houtcome
    obtain ⟨a, hmem⟩ := hfailed.projected .failed rfl
    exact hleft hmem (by decide)

/-- The order is not pending, since it has been completed and then cancelled. -/
theorem no_order_forgotten_closed : ∃ ls,
    ∃ s : Pool Unit (World Author) Author Op Op.Resp JsThrow JsVal,
      RunWhere (Pool.Step eventFlow) NewIds (Pool.idle World.empty) ls s ∧
      AtRest NewIds s ∧ s.world.log.length = 8 ∧
      ((∃ row, s.world.orders.find? (hexUuid "a" 0).val = some row ∧ row.status ≠ .pending) ∨
        DeadLetter s.world.log (hexUuid "a" 0).val) := by
  obtain ⟨ls, s, hworld, hrun, hrest⟩ := closedRegret_run
  obtain ⟨-, ⟨r, hr, htopic, htaken⟩, -⟩ := closedRegret_log
  obtain ⟨v, hv, horder⟩ := Option.map_eq_some_iff.mp htaken
  have hlength : closedRegret.log.length = 8 := closedRegret_length
  rw [← hworld] at hr hlength
  exact ⟨ls, s, hrun, hrest, hlength,
    no_order_forgotten hrun hrest hr htopic (taken_eq_some.mp hv) horder⟩

/-- Neither is a cancellation: order-service has projected it, or there is a failure record. -/
theorem no_cancellation_forgotten (hcond : ∀ s l, cond s l → FreshIds s l)
    (hrun : RunWhere (Pool.Step eventFlow) cond (Pool.idle World.empty) ls s)
    (hrest : AtRest cond s) (hcancelled : Backed s.world.log .orderCancelled orderId) :
    (∃ a, (a, Op.updateOrder (byId orderId) .cancelled) ∈ s.world.trace) ∨
      DeadLetter s.world.log orderId := by
  by_cases hdead : DeadLetter s.world.log orderId
  · exact .inr hdead
  have hreleased : Through .stockOrderCancelled orderId s.world :=
    followed_up hcond hrun hrest hdead (by decide) hcancelled
  have hprojected : Through .orderStockReleased orderId s.world :=
    followed_up hcond hrun hrest hdead (by decide) (hreleased.next rfl)
  exact .inl (hprojected.projected .cancelled rfl)

/-- Its cancellation has reached it. -/
theorem no_cancellation_forgotten_closed : ∃ ls,
    ∃ s : Pool Unit (World Author) Author Op Op.Resp JsThrow JsVal,
      RunWhere (Pool.Step eventFlow) NewIds (Pool.idle World.empty) ls s ∧
      AtRest NewIds s ∧ s.world.log.length = 8 ∧
      ((∃ a, (a, Op.updateOrder (byId (hexUuid "a" 0).val) .cancelled) ∈ s.world.trace) ∨
        DeadLetter s.world.log (hexUuid "a" 0).val) := by
  obtain ⟨ls, s, hworld, hrun, hrest⟩ := closedRegret_run
  obtain ⟨-, -, r, hr, htopic, hkey, htype, hcorrelation, horder⟩ := closedRegret_log
  have hrouted : Routed .orderCancelled (hexUuid "a" 0).val r :=
    ⟨htopic, hkey, htype, hcorrelation, horder, fun hne => absurd rfl hne⟩
  have hlength : closedRegret.log.length = 8 := closedRegret_length
  rw [← hworld] at hr hlength
  exact ⟨ls, s, hrun, hrest, hlength,
    no_cancellation_forgotten (fun _ _ hc => hc.1) hrun hrest ⟨r, hr, hrouted⟩⟩

end Results

end EventFlow.Saga
