import EventFlow.Framework.Provenance
import EventFlow.Saga.Calls
import EventFlow.Saga.Validated
import EventFlow.Saga.Paid

namespace EventFlow.Saga

open Js Shared Services Async Retry

section Statement

/-- Who writes to the log: the calls of the services, and whoever cancels an order. -/
inductive Author where
  | service (c : Call)
  | cancel (orderId : String) (envelope : JsVal)

/-- What a client puts on `order.cancelled`. -/
structure Cancellation (orderId : String) (envelope : JsVal) : Prop where
  eventId : ∃ s, envelope.get "eventId" = .str s
  eventType : envelope.get "eventType" = .str EventType.orderCancelled.value
  correlationId : envelope.get "correlationId" = .str orderId
  orderId : (envelope.get "payload").get "orderId" = .str orderId

def Author.body : Author → Promise JsVal
  | .service c => c.body
  | .cancel orderId envelope =>
    (Async.perform (Op.emit (domainRecord .orderCancelled orderId envelope []))).bind
      fun _ => .resolve .undefined

/-- The four services and their clients. Nobody else writes, but the broker may store a
record again that it has stored before. -/
def eventFlow : Platform (World Author) Author Op Op.Resp JsThrow JsVal where
  body := Author.body
  exec a w op := w.exec a op
  mayReject _ := True
  ready w a := match a with
    | .service (.createOrder _ _) => True
    | .service (.consume h _ headers payload) =>
      ∃ r ∈ w.log, r.topic = h.topic ∧ r.value = payload ∧ r.headers = headers
    | .cancel orderId envelope => Cancellation orderId envelope
  env w w' := ∃ r ∈ w.log, w' = { w with log := w.log ++ [r] }

/-- The envelope that a record carries. -/
def envelopeOf (r : KafkaRecord) : JsVal :=
  match r.value with
  | .value v => v
  | .buffer _ => .undefined

/-- The topics of `order.created` and `order.cancelled`. -/
def origins : List String := [orderEventsTopic, EventType.orderCancelled.value]

/-- An event goes by its `eventId`, follows its `causationId` unless it begins a chain, and
belongs to its `correlationId`. -/
def provenance : Provenance KafkaRecord JsVal JsVal where
  ident r := (envelopeOf r).get "eventId"
  cause r := if r.topic ∈ origins then none else some ((envelopeOf r).get "causationId")
  group r := (envelopeOf r).get "correlationId"

/-- The ids that `randomUUID` gives to one call, or that a client has chosen. -/
def drawn : Author → ℕ → JsVal
  | .service c, n => .str (c.proc.uuid n).val
  | .cancel _ envelope, _ => envelope.get "eventId"

/-- The ids of a new call are no event's and no other running call's. -/
structure Fresh {ι : Type} (s : Pool ι (World Author) Author Op Op.Resp JsThrow JsVal) (a : Author) :
    Prop where
  unused : ∀ n ≤ 10, ∀ r ∈ s.world.log, provenance.ident r ≠ drawn a n
  others : ∀ i job, s.jobs i = some job → ∀ n ≤ 10, ∀ m ≤ 10, drawn a n ≠ drawn job.1 m
  distinct : ∀ c, a = .service c → ∀ n ≤ 10, ∀ m ≤ 10, c.proc.uuid n = c.proc.uuid m → n = m

def FreshIds {ι : Type} (s : Pool ι (World Author) Author Op Op.Resp JsThrow JsVal)
    (l : PoolAct ι Author Op JsThrow) : Prop := ∀ i a, l = .start i a → Fresh s a

/-- A record of a domain topic under its order. -/
structure Filed (orderId : String) (r : KafkaRecord) : Prop where
  typed : ∃ t : EventType, r.topic = resolveKafkaTopic t ∧
    (envelopeOf r).get "eventType" = .str t.value
  eventId : ∃ s, provenance.ident r = .str s
  key : r.key = .str orderId
  order : ((envelopeOf r).get "payload").get "orderId" = .str orderId
  correlationId : (envelopeOf r).get "correlationId" = .str orderId
  header : ∀ drivers,
    (parseKafkaHeaders drivers r.headers).lookup headerCorrelationId = some orderId

/-- A record of a DLQ topic under the order of its original. -/
structure Buried (orderId : String) (r : KafkaRecord) : Prop where
  topic : ∃ t, r.topic = toDlqTopic (resolveKafkaTopic t)
  key : r.key = .str orderId
  original : (((envelopeOf r).get "payload").get "originalPayload").get "orderId" = .str orderId
  correlationId : (envelopeOf r).get "correlationId" = .str orderId

end Statement

section Invariant

/-- Every record is where it belongs, and consumers read its envelope as it is. -/
def Logged (r : KafkaRecord) : Prop := Sealed r ∧ ∃ orderId, Filed orderId r ∨ Buried orderId r

structure CausalOk (w : World Author) : Prop where
  grown : provenance.Grown w.log
  logged : ∀ r ∈ w.log, Logged r

/-- What each id of a call may stand for: the cause and the order of one record. -/
def plan : Author → ℕ → Option JsVal × JsVal
  | .service (.createOrder proc _), _ => (none, .str (proc.uuid 0).val)
  | .service (.consume _ proc _ (.value v)), n =>
    (some (if n = 2 ∨ n = 3 then .str (proc.uuid 1).val else v.get "eventId"),
      v.get "correlationId")
  | .service (.consume _ _ _ (.buffer _)), _ => (none, .undefined)
  | .cancel orderId _, _ => (none, .str orderId)

/-- A record under an id of its call, after its cause. -/
structure Drawn (a : Author) (known : List KafkaRecord) (r : KafkaRecord) : Prop where
  ident : ∃ n ≤ 10, provenance.ident r = drawn a n ∧
    (provenance.cause r, provenance.group r) = plan a n
  cause : ∀ k, provenance.cause r = some k → provenance.Known known k (provenance.group r)

/-- What a call may write that knows some records of the log. -/
def Emits (a : Author) (known : List KafkaRecord) : Op → Prop
  | .emit r => Logged r ∧ ((∃ r' ∈ known, provenance.Same r r') ∨ Drawn a known r)
  | _ => True

/-- What a running call relies on: its ids stand for nothing but what it plans. -/
structure Standing (a : Author) (known : List KafkaRecord) (w : World Author) : Prop where
  ok : CausalOk w
  own : ∀ r ∈ w.log, ∀ n ≤ 10, provenance.ident r = drawn a n →
    (provenance.cause r, provenance.group r) = plan a n
  known : known ⊆ w.log

/-- Every call owns its ids: under these others only write copies. -/
def idOwnership : Pool.Ownership (World Author) Author JsVal where
  owns a k := ∃ n ≤ 10, k = drawn a n
  uses a k := ∃ n ≤ 10, k = drawn a n
  same k w w' := ∀ r ∈ w'.log, provenance.ident r = k → ∃ r' ∈ w.log, provenance.Same r r'
  le w w' := w.log <+: w'.log
  safe := CausalOk
  rest _ _ := True
  uses_of_owns _ _ h := h
  same_refl k w r hr _ := ⟨r, hr, rfl, rfl, rfl⟩
  same_trans k u v w h h' := by
    intro r hr hid
    obtain ⟨r', hr', hsame⟩ := h' r hr hid
    obtain ⟨r'', hr'', hsame'⟩ := h r' hr' (hsame.ident.symm.trans hid)
    exact ⟨r'', hr'', hsame.trans hsame'⟩
  le_refl _ := List.prefix_rfl
  le_trans _ _ _ h h' := h.trans h'
  rest_stable _ _ _ _ _ h := h

abbrev idContract (a : Author) : Contract (World Author) Op Op.Resp :=
  idOwnership.contract eventFlow (fun _ _ => True) (fun _ _ => True) a

variable {a : Author} {known : List KafkaRecord} {w w' : World Author} {op : Op}

/-- The ids of a call are told apart by what they stand for. -/
def Distinct (a : Author) : Prop := ∀ n ≤ 10, ∀ m ≤ 10, drawn a n = drawn a m → plan a n = plan a m

theorem Fresh.plan {ι : Type} {s : Pool ι (World Author) Author Op Op.Resp JsThrow JsVal}
    (h : Fresh s a) : Distinct a := by
  intro n hn m hm heq
  cases a with
  | service c =>
    have huuid : c.proc.uuid n = c.proc.uuid m := Subtype.ext (JsVal.str.inj heq)
    rw [h.distinct c rfl n hn m hm huuid]
  | cancel orderId envelope => rfl

theorem Standing.rely (h : Standing a known w) (hr : (idContract a).rely w w') :
    Standing a known w' := by
  refine ⟨hr.ok.safe, fun r hmem n hn hid => ?_, fun r hmem => hr.le.subset (h.known hmem)⟩
  obtain ⟨r', hr', hsame⟩ := hr.own _ ⟨n, hn, rfl⟩ r hmem hid
  rw [hsame.cause, hsame.group]
  exact h.own r' hr' n hn (hsame.ident.symm.trans hid)

/-- What a call sends is a copy of a record, or the first record under its id. -/
theorem Standing.source {r : KafkaRecord} (h : Standing a known w) (hop : Emits a known (.emit r)) :
    (∃ r' ∈ w.log, provenance.Same r r') ∨
      (∀ r' ∈ w.log, provenance.ident r' ≠ provenance.ident r) ∧ Drawn a known r := by
  rcases hop.2 with ⟨r', hr', hsame⟩ | hdrawn
  · exact .inl ⟨r', h.known hr', hsame⟩
  · by_cases hused : ∃ r' ∈ w.log, provenance.ident r' = provenance.ident r
    · obtain ⟨r', hr', hid⟩ := hused
      obtain ⟨n, hn, hident, hplan⟩ := hdrawn.ident
      have hsame := hplan.trans (h.own r' hr' n hn (hid.trans hident)).symm
      obtain ⟨hcause, hgroup⟩ := Prod.mk.inj hsame
      exact .inl ⟨r', hr', hid.symm, hcause, hgroup⟩
    · exact .inr ⟨fun r' hr' hid => hused ⟨r', hr', hid⟩, hdrawn⟩

theorem Standing.causalOk_emit {r : KafkaRecord} (h : Standing a known w)
    (hop : Emits a known (.emit r)) : CausalOk (w.exec a (.emit r)).2 := by
  have hgrown : provenance.Grown (w.log ++ [r]) := by
    rcases h.source hop with ⟨r', hr', hsame⟩ | ⟨hnew, hdrawn⟩
    · exact .copy h.ok.grown hr' hsame
    · exact .fresh h.ok.grown hnew fun k hk => (hdrawn.cause k hk).mono h.known
  refine ⟨hgrown, fun x hx => ?_⟩
  rcases List.mem_append.mp hx with hx | hx
  · exact h.ok.logged x hx
  · rw [List.mem_singleton.mp hx]
    exact hop.1

/-- A record that a call sends, under its plan. -/
theorem Standing.emit {r : KafkaRecord} (h : Standing a known w) (hd : Distinct a)
    (hop : Emits a known (.emit r)) :
    (idContract a).guar w (w.exec a (.emit r)).2 ∧ Standing a known (w.exec a (.emit r)).2 := by
  have hlog : (w.exec a (.emit r)).2.log = w.log ++ [r] := rfl
  have hok := h.causalOk_emit hop
  refine ⟨⟨List.prefix_append _ _, fun k hk x hx hid => ?_, hok, fun k hu ho => absurd hu ho⟩,
    hok, fun x hx n hn hid => ?_, fun x hx => List.mem_append_left _ (h.known hx)⟩
  · rw [hlog] at hx
    rcases List.mem_append.mp hx with hx | hx
    · exact ⟨x, hx, rfl, rfl, rfl⟩
    · obtain rfl := List.mem_singleton.mp hx
      rcases h.source hop with hcopy | ⟨-, hdrawn⟩
      · exact hcopy
      · obtain ⟨n, hn, hident, -⟩ := hdrawn.ident
        exact absurd ⟨n, hn, hid.symm.trans hident⟩ hk
  · rw [hlog] at hx
    rcases List.mem_append.mp hx with hx | hx
    · exact h.own x hx n hn hid
    · obtain rfl := List.mem_singleton.mp hx
      rcases h.source hop with ⟨r', hr', hsame⟩ | ⟨-, hdrawn⟩
      · rw [hsame.cause, hsame.group]
        exact h.own r' hr' n hn (hsame.ident.symm.trans hid)
      · obtain ⟨m, hm, hident, hplan⟩ := hdrawn.ident
        rw [hplan]
        exact hd m hm n hn (hident.symm.trans hid)

/-- What sends no record leaves the log alone. -/
theorem Standing.silent (h : Standing a known w) (hsilent : ∀ r, op ≠ .emit r) :
    (idContract a).guar w (w.exec a op).2 ∧ Standing a known (w.exec a op).2 := by
  have hlog : (w.exec a op).2.log = w.log := World.exec_log a w hsilent
  have hok : CausalOk (w.exec a op).2 := by
    constructor
    · rw [hlog]
      exact h.ok.grown
    · rw [hlog]
      exact h.ok.logged
  have hle : w.log <+: (w.exec a op).2.log := ⟨[], (List.append_nil _).trans hlog.symm⟩
  refine ⟨⟨hle, fun k _ x hx _ => ?_, hok, fun k hu ho => absurd hu ho⟩, hok, ?_, ?_⟩
  · rw [hlog] at hx
    exact ⟨x, hx, rfl, rfl, rfl⟩
  · rw [hlog]
    exact h.own
  · rw [hlog]
    exact h.known

/-- A call that keeps to its plan grows the log as it should. -/
theorem Standing.exec (h : Standing a known w) (hd : Distinct a) (hop : Emits a known op) :
    (idContract a).guar w (w.exec a op).2 ∧ Standing a known (w.exec a op).2 := by
  by_cases hemit : ∃ r, op = .emit r
  · obtain ⟨r, rfl⟩ := hemit
    exact h.emit hd hop
  · exact h.silent fun r heq => hemit ⟨r, heq⟩

end Invariant

section Records

variable {a : Author} {known : List KafkaRecord} {proc : Process} {h : RetriedHandler}
  {r : KafkaRecord} {v : JsVal} {orderId : String}

theorem ident_eq (r : KafkaRecord) : provenance.ident r = (envelopeOf r).get "eventId" := rfl

/-- A record is a copy when it carries the same envelope on the same topic. -/
theorem same_of_envelope {r' : KafkaRecord} (htopic : r.topic = r'.topic)
    (henvelope : envelopeOf r = envelopeOf r') : provenance.Same r r' := by
  refine ⟨?_, ?_, ?_⟩
  · rw [ident_eq, ident_eq, henvelope]
  · show (if r.topic ∈ origins then none else some ((envelopeOf r).get "causationId")) =
      if r'.topic ∈ origins then none else some ((envelopeOf r').get "causationId")
    rw [htopic, henvelope]
  · exact congrArg (JsVal.get · "correlationId") henvelope

/-- The retry headers leave the correlation id alone. -/
theorem lookup_correlationId_retry (envelope : JsVal) (n : Number) :
    (spread (envelopeToKafkaHeaders envelope) (h.retryHeaders proc envelope n)).lookup
      headerCorrelationId = some (envelope.get "correlationId") := by
  have hnd : ((h.retryHeaders proc envelope n).map Prod.fst).Nodup :=
    nodup_buildRetryHeaders (nodup_envelopeToKafkaHeaders envelope)
  have hretry : (h.retryHeaders proc envelope n).lookup headerCorrelationId =
      some (envelope.get "correlationId") := by
    rw [RetriedHandler.retryHeaders, KafkaRetryExecutor.retryHeaders, buildRetryHeaders,
      lookup_spread _ _ _ (by
        simp [headerRetryCount, headerRetryMax, headerRetryAt, headerOriginalTopic])]
    rfl
  rw [lookup_spread _ _ _ hnd, hretry]
  rfl

/-- A record of a domain event that names its order everywhere. -/
theorem filed_domainRecord {t : EventType} {envelope : JsVal} {id : String}
    {hs : List (String × JsVal)} (hid : envelope.get "eventId" = .str id)
    (htype : envelope.get "eventType" = .str t.value)
    (horder : (envelope.get "payload").get "orderId" = .str orderId)
    (hcorr : envelope.get "correlationId" = .str orderId)
    (hheader : (spread (envelopeToKafkaHeaders envelope) hs).lookup headerCorrelationId =
      some (envelope.get "correlationId")) : Filed orderId (domainRecord t orderId envelope hs) where
  typed := ⟨t, rfl, JsVal.get_wire_str htype⟩
  eventId := ⟨id, JsVal.get_wire_str hid⟩
  key := rfl
  order := JsVal.get_get_wire_str horder
  correlationId := JsVal.get_wire_str hcorr
  header _ := lookup_parse_encode (hheader.trans (congrArg some hcorr))

theorem has_of_get {id : String} (hid : v.get "eventId" = .str id) : v.has "eventId" = true := by
  cases v with
  | obj fields =>
    cases hl : fields.lookup "eventId" with
    | none => simp [JsVal.get, hl] at hid
    | some u => simp [JsVal.has, hl]
  | _ => cases hid

/-- What a consumer finds in a record of its topic. -/
structure Received (h : RetriedHandler) (r : KafkaRecord) (v : JsVal) (orderId : String) :
    Prop where
  topic : r.topic = h.topic
  value : r.value = .value v
  json : v.isJson = true
  filed : Filed orderId r

namespace Received

/-- A consumer reads no companion topic. -/
theorem of_logged (hlogged : Logged r) (htopic : r.topic = h.topic) :
    ∃ v orderId, Received h r v orderId := by
  obtain ⟨⟨v, hv, hjson, -⟩, orderId, hfiled | hburied⟩ := hlogged
  · exact ⟨v, orderId, htopic, hv, hjson, hfiled⟩
  · obtain ⟨t, ht⟩ := hburied.topic
    have heq : resolveKafkaTopic h.eventType = toDlqTopic (resolveKafkaTopic t) :=
      h.resolveKafkaTopic_eventType.trans (htopic.symm.trans ht)
    exact absurd heq (resolveKafkaTopic_ne_dlq _ _)

variable (hr : Received h r v orderId)
include hr

theorem envelope : envelopeOf r = v := by rw [envelopeOf, hr.value]

theorem eventId : ∃ s, v.get "eventId" = .str s := by
  have hid := hr.filed.eventId
  rwa [ident_eq, hr.envelope] at hid

theorem order : (v.get "payload").get "orderId" = .str orderId := by
  have horder := hr.filed.order
  rwa [hr.envelope] at horder

theorem correlationId : v.get "correlationId" = .str orderId := by
  have hcorr := hr.filed.correlationId
  rwa [hr.envelope] at hcorr

theorem read {envelope : JsVal} (hread : h.read r.value = .ok (.accepted envelope)) :
    envelope = v := by
  obtain ⟨s, hs⟩ := hr.eventId
  rw [hr.value] at hread
  exact read_sealed (has_of_get hs) hread

theorem key {key : String} (hkey : resolvePartitionKey v = .ok key) : key = orderId :=
  JsVal.str.inj ((getPartitionKey_eq_ok.mp hkey).1.symm.trans hr.order)

theorem knows (hmem : r ∈ known) :
    provenance.Known known (v.get "eventId") (v.get "correlationId") :=
  ⟨r, hmem, congrArg (JsVal.get · "eventId") hr.envelope,
    congrArg (JsVal.get · "correlationId") hr.envelope⟩

/-- What a consumer republishes is the record it has read, once more. -/
theorem emits_copy {key : String} {n : Number} (hmem : r ∈ known)
    (hkey : resolvePartitionKey v = .ok key) :
    Emits a known (.emit (domainRecord h.eventType key v (h.retryHeaders proc v n))) := by
  obtain ⟨s, hs⟩ := hr.eventId
  obtain rfl := hr.key hkey
  let copy : KafkaRecord := domainRecord h.eventType key v (h.retryHeaders proc v n)
  have htopic : copy.topic = r.topic := h.resolveKafkaTopic_eventType.trans hr.topic.symm
  have hvalue : copy.value = .value v := by
    show KafkaValue.value v.wire = .value v
    rw [JsVal.wire_of_isJson v hr.json]
  have henvelope : envelopeOf copy = envelopeOf r := by rw [envelopeOf, hvalue, hr.envelope]
  obtain ⟨t, ht, htype⟩ := hr.filed.typed
  have hfiled : Filed key copy := by
    refine ⟨⟨t, htopic.trans ht, ?_⟩, ?_, rfl, ?_, ?_, ?_⟩
    · rw [henvelope]
      exact htype
    · rw [ident_eq, henvelope]
      exact hr.filed.eventId
    · rw [henvelope]
      exact hr.filed.order
    · rw [henvelope]
      exact hr.filed.correlationId
    · intro drivers
      apply lookup_parse_encode
      rw [lookup_correlationId_retry, hr.correlationId]
  have hsealed : Sealed copy := ⟨v, hvalue, hr.json, has_of_get hs⟩
  exact ⟨⟨hsealed, key, .inl hfiled⟩, .inl ⟨r, hmem, same_of_envelope htopic henvelope⟩⟩

end Received

/-- An envelope that a call makes for a domain topic, under an id it has drawn for it. -/
theorem emits_created {t : EventType} {n : ℕ} {time : IsoTimestamp}
    {params : CreateEventEnvelopeParams} {key : String} {cause : JsVal} (hn : n ≤ 10)
    (hdrawn : drawn a n = .str (proc.uuid n).val) (hplan : plan a n = (some cause, .str orderId))
    (hknown : provenance.Known known cause (.str orderId)) (horigin : resolveKafkaTopic t ∉ origins)
    (htype : params.eventType = .str t.value) (hid : params.eventId = none)
    (hcause : params.causationId = cause) (hstr : ∃ s, cause = .str s)
    (hcorr : params.correlationId = .str orderId)
    (horder : params.payload.get "orderId" = .str orderId)
    (hkey : resolvePartitionKey (createEventEnvelope (proc.uuid n) time params) = .ok key) :
    Emits a known (.emit (domainRecord t key (createEventEnvelope (proc.uuid n) time params) [])) := by
  let envelope : JsVal := createEventEnvelope (proc.uuid n) time params
  obtain rfl : key = orderId :=
    JsVal.str.inj ((getPartitionKey_eq_ok.mp hkey).1.symm.trans horder)
  obtain ⟨s, rfl⟩ := hstr
  have hget : envelope.get "eventId" = .str (proc.uuid n).val := by
    show JsVal.str (params.eventId.getD _) = _
    rw [hid]
    rfl
  have hfrom : envelope.get "causationId" = .str s := hcause
  have hgroup : envelope.get "correlationId" = .str key := hcorr
  have hfiled : Filed key (domainRecord t key envelope []) :=
    filed_domainRecord hget htype horder hgroup rfl
  have hcaused : provenance.cause (domainRecord t key envelope []) = some (.str s) := by
    show (if resolveKafkaTopic t ∈ origins then none else some (envelope.wire.get "causationId")) = _
    rw [if_neg horigin, JsVal.get_wire_str hfrom]
  have hgrouped : provenance.group (domainRecord t key envelope []) = .str key :=
    JsVal.get_wire_str hgroup
  refine ⟨⟨sealed_createEventEnvelope _ _ _ _, key, .inl hfiled⟩, .inr ⟨⟨n, hn, ?_, ?_⟩, ?_⟩⟩
  · exact (JsVal.get_wire_str hget).trans hdrawn.symm
  · rw [hcaused, hgrouped, hplan]
  · intro k hk
    obtain rfl := Option.some.inj (hcaused.symm.trans hk)
    rw [hgrouped]
    exact hknown

/-- A failure envelope is made of the error and of what it wraps. -/
theorem eq_of_createFailureEnvelope {failed : CreateFailureEnvelopeParams} {failure : JsVal}
    (h : createFailureEnvelope proc failed = .ok failure) : ∃ details,
      failure = createEventEnvelope (proc.uuid 10) (proc.iso 12) {
        eventType := failed.original.get "eventType"
        source := failed.service.value
        correlationId := failed.original.get "correlationId"
        causationId := failed.original.get "eventId"
        payload := failurePayload details (proc.iso 11) failed } := by
  unfold createFailureEnvelope at h
  cases hdetails : normalizeError (proc.iso 10) failed.error with
  | error e =>
    rw [hdetails] at h
    cases h
  | ok details =>
    rw [hdetails] at h
    exact ⟨details, (Except.ok.inj h).symm⟩

theorem toDlqTopic_not_origin (t : EventType) : toDlqTopic (resolveKafkaTopic t) ∉ origins := by
  cases t <;> decide

/-- The failure record of a message goes by the last id of its call. -/
theorem Received.emits_failure {headers : List (String × RawHeader)} (hr : Received h r v orderId)
    (hmem : r ∈ known) {failed : CreateFailureEnvelopeParams} {failure : JsVal}
    (horiginal : failed.original = v) (hfailure : createFailureEnvelope proc failed = .ok failure) :
    Emits (.service (.consume h proc headers (.value v))) known
      (.emit (dlqRecord h.eventType failure)) := by
  obtain ⟨s, hs⟩ := hr.eventId
  obtain ⟨details, rfl⟩ := eq_of_createFailureEnvelope hfailure
  subst horiginal
  let payload : JsVal := failurePayload details (proc.iso 11) failed
  let envelope : JsVal := createEventEnvelope (proc.uuid 10) (proc.iso 12) {
    eventType := failed.original.get "eventType"
    source := failed.service.value
    correlationId := failed.original.get "correlationId"
    causationId := failed.original.get "eventId"
    payload := payload }
  have hgroup : envelope.get "correlationId" = .str orderId := hr.correlationId
  have hfrom : envelope.get "causationId" = .str s := hs
  have hpayload : envelope.wire.get "payload" = payload.wire :=
    JsVal.get_wire_of_eq (u := payload) rfl nofun
  have hburied : Buried orderId (dlqRecord h.eventType envelope) := by
    refine ⟨⟨h.eventType, rfl⟩, ?_, ?_, JsVal.get_wire_str hgroup⟩
    · show JsVal.wire (failed.original.get "correlationId") = _
      rw [hr.correlationId]
      rfl
    · show ((envelope.wire.get "payload").get "originalPayload").get "orderId" = _
      rw [hpayload]
      exact JsVal.get_get_wire_str hr.order
  have hcaused : provenance.cause (dlqRecord h.eventType envelope) = some (.str s) := by
    show (if toDlqTopic (resolveKafkaTopic h.eventType) ∈ origins then none
      else some (envelope.wire.get "causationId")) = _
    rw [if_neg (toDlqTopic_not_origin _), JsVal.get_wire_str hfrom]
  have hgrouped : provenance.group (dlqRecord h.eventType envelope) = .str orderId :=
    JsVal.get_wire_str hgroup
  have hsealed : Sealed (dlqRecord h.eventType envelope) := ⟨_, rfl, JsVal.isJson_wire _, rfl⟩
  refine ⟨⟨hsealed, orderId, .inr hburied⟩, .inr ⟨⟨10, le_rfl, rfl, ?_⟩, ?_⟩⟩
  · rw [hcaused, hgrouped]
    show _ = (some (failed.original.get "eventId"), failed.original.get "correlationId")
    rw [hs, hr.correlationId]
  · intro k hk
    obtain rfl := Option.some.inj (hcaused.symm.trans hk)
    rw [hgrouped, ← hs, ← hr.correlationId]
    exact hr.knows hmem

end Records

section Calls

variable {a : Author} {known : List KafkaRecord} {w : World Author} {h : RetriedHandler}
  {proc : Process} {headers : List (String × RawHeader)} {r : KafkaRecord} {v : JsVal}
  {orderId : String}

theorem Standing.forget {r : KafkaRecord} (h : Standing a (r :: known) w) : Standing a known w :=
  ⟨h.ok, h.own, fun _ hx => h.known (List.mem_cons_of_mem r hx)⟩

theorem kept_of_emits {op : Op} (hd : Distinct a) (hop : Emits a known op) :
    Kept (idContract a) (Standing a known) op := fun _ hw => hw.exec hd hop

theorem emits_of_quiet {op : Op} (hq : quiet op = true) : Emits a known op := by
  cases op with
  | emit r => cases hq
  | _ => trivial

theorem standing_rely : ∀ w w', Standing a known w → (idContract a).rely w w' → Standing a known w' :=
  fun _ _ hw hr => hw.rely hr

/-- Operations that say nothing of the log cannot break the plan. -/
theorem keeps_of_performs {α : Type} {p : Promise α} (hd : Distinct a)
    (hp : p.Performs (Emits a known)) : p.Keeps (idContract a) (Standing a known) :=
  (hp.imp fun _ hop => kept_of_emits hd hop).keeps standing_rely

/-- Once a record is out, what follows may be caused by it. -/
theorem keeps_publish_bind {t : EventType} {event : JsVal} {f : Unit → Promise Unit} (hd : Distinct a)
    (hemit : ∀ key, resolvePartitionKey event = .ok key →
      Emits a known (.emit (domainRecord t key event [])))
    (hf : ∀ key, resolvePartitionKey event = .ok key →
      (f ()).Keeps (idContract a) (Standing a (domainRecord t key event [] :: known))) :
    ((eventPublisher.publish t event []).bind f).Keeps (idContract a) (Standing a known) := by
  intro w hw
  cases hkey : resolvePartitionKey event with
  | error e =>
    have hpublish : eventPublisher.publish t event [] = .reject e := by
      show (Async.ofExcept (resolvePartitionKey event)).bind _ = _
      rw [hkey]
      rfl
    rw [hpublish]
    exact hw
  | ok key =>
    have hpublish : eventPublisher.publish t event [] =
        Async.perform (Op.emit (domainRecord t key event [])) := by
      show (Async.ofExcept (resolvePartitionKey event)).bind _ = _
      rw [hkey]
      rfl
    rw [hpublish]
    refine along_perform_bind standing_rely (fun w' hw' _ => ?_)
      (fun _ w' hout => (hf key hkey w' hout).imp fun _ _ hend => hend.forget) (fun _ _ h => h) hw
    obtain ⟨hguar, hnext⟩ := hw'.exec hd (hemit key hkey)
    refine ⟨hguar, hnext.ok, hnext.own, fun x hx => ?_⟩
    rcases List.mem_cons.mp hx with rfl | hx
    · exact List.mem_append_right _ (List.mem_singleton_self _)
    · exact hnext.known hx

/-- What the call of a consumer plans for its ids. -/
abbrev delivery (h : RetriedHandler) (proc : Process) (headers : List (String × RawHeader))
    (v : JsVal) : Author := .service (.consume h proc headers (.value v))

/-- An event of a handler, caused by the message. -/
theorem Received.emits_first (hr : Received h r v orderId) (hmem : r ∈ known) {t : EventType}
    {time : IsoTimestamp} {params : CreateEventEnvelopeParams} {key : String}
    (horigin : resolveKafkaTopic t ∉ origins) (htype : params.eventType = .str t.value)
    (hid : params.eventId = none) (hcause : params.causationId = v.get "eventId")
    (hcorr : params.correlationId = .str orderId)
    (horder : params.payload.get "orderId" = .str orderId)
    (hkey : resolvePartitionKey (createEventEnvelope (proc.uuid 1) time params) = .ok key) :
    Emits (delivery h proc headers v) known
      (.emit (domainRecord t key (createEventEnvelope (proc.uuid 1) time params) [])) := by
  have hplan : plan (delivery h proc headers v) 1 = (some (v.get "eventId"), .str orderId) := by
    show (some (v.get "eventId"), v.get "correlationId") = _
    rw [hr.correlationId]
  have hknown := hr.knows hmem
  rw [hr.correlationId] at hknown
  exact emits_created (by omega) rfl hplan hknown horigin htype hid hcause hr.eventId hcorr horder hkey

/-- An event of a handler, caused by the first one. -/
theorem Received.emits_second (hr : Received h r v orderId) {first : KafkaRecord}
    (hfirst : provenance.ident first = .str (proc.uuid 1).val)
    (hgroup : provenance.group first = .str orderId) {n : ℕ} (hn : n = 2 ∨ n = 3) {t : EventType}
    {time : IsoTimestamp} {params : CreateEventEnvelopeParams} {key : String}
    (horigin : resolveKafkaTopic t ∉ origins) (htype : params.eventType = .str t.value)
    (hid : params.eventId = none) (hcause : params.causationId = .str (proc.uuid 1).val)
    (hcorr : params.correlationId = .str orderId)
    (horder : params.payload.get "orderId" = .str orderId)
    (hkey : resolvePartitionKey (createEventEnvelope (proc.uuid n) time params) = .ok key) :
    Emits (delivery h proc headers v) (first :: known)
      (.emit (domainRecord t key (createEventEnvelope (proc.uuid n) time params) [])) := by
  have hplan : plan (delivery h proc headers v) n =
      (some (.str (proc.uuid 1).val), .str orderId) := by
    show (some (if n = 2 ∨ n = 3 then _ else _), v.get "correlationId") = _
    rw [if_pos hn, hr.correlationId]
  exact emits_created (by omega) rfl hplan ⟨first, List.mem_cons_self, hfirst, hgroup⟩ horigin htype
    hid hcause ⟨_, rfl⟩ hcorr horder hkey

/-- The handler of `order.events` asks for the payment before it settles it. -/
theorem keeps_processPayment (hr : Received h r v orderId) (hmem : r ∈ known)
    (hd : Distinct (delivery h proc headers v)) :
    (Payment.handleOrderCreated proc (.ofJs v)).Keeps (idContract (delivery h proc headers v))
      (Standing (delivery h proc headers v) known) := by
  obtain ⟨s, hs⟩ := hr.eventId
  have horder : (Payment.OrderCreatedEvent.ofJs v).payload.orderId = orderId :=
    JsVal.asStr_of_eq hr.order
  have hid : (Payment.OrderCreatedEvent.ofJs v).eventId = s := JsVal.asStr_of_eq hs
  have hnamed : JsVal.str (Payment.OrderCreatedEvent.ofJs v).payload.orderId = .str orderId := by
    rw [horder]
  have hcause : JsVal.str (Payment.OrderCreatedEvent.ofJs v).eventId = v.get "eventId" := by
    rw [hid, hs]
  obtain ⟨settled, heq, hsettled⟩ := processPayment_eq proc (.ofJs v)
  rw [Payment.handleOrderCreated, heq]
  refine keeps_publish_bind hd (fun key hkey => ?_) fun key hkey => ?_
  · exact hr.emits_first hmem (by decide) rfl rfl hcause hnamed hnamed hkey
  · have hfirst : provenance.ident (domainRecord .paymentRequested key
        (Payment.requestedEnvelope proc (.ofJs v) (proc.uuid 0).val) []) = .str (proc.uuid 1).val := rfl
    have hgroup : provenance.group (domainRecord .paymentRequested key
        (Payment.requestedEnvelope proc (.ofJs v) (proc.uuid 0).val) []) = .str orderId := hnamed
    refine keeps_of_performs hd (hsettled _ (fun _ => trivial) (fun _ => trivial) ?_ ?_)
    · intro key' reason _ hkey'
      exact hr.emits_second hfirst hgroup (.inl rfl) (by decide) rfl rfl rfl hnamed hnamed hkey'
    · intro _ _ key' hkey'
      exact hr.emits_second hfirst hgroup (.inr rfl) (by decide) rfl rfl rfl hnamed hnamed hkey'

theorem keeps_log {ids : List JsVal} (hd : Distinct a) :
    (Async.ofExcept (JsVal.logLine ids) : Promise Unit).Keeps (idContract a) (Standing a known) :=
  keeps_of_performs hd performs_ofExcept

/-- What each handler does for a record it receives. -/
theorem keeps_handler (hr : Received h r v orderId) (hmem : r ∈ known)
    (hd : Distinct (delivery h proc headers v)) :
    (h.handler proc v).Keeps (idContract (delivery h proc headers v))
      (Standing (delivery h proc headers v) known) := by
  have hnamed : ∀ {id : JsVal} {name : String},
      (v.get "payload").destructure "orderId" name = .ok id → id = .str orderId :=
    fun hid => (JsVal.get_of_destructure hid).trans hr.order
  cases h with
  | orderPaymentEvents | orderStockReleased | orderStockFailed | orderNotificationSent =>
    exact keeps_of_performs hd (performs_projectStatus fun _ _ => trivial)
  | paymentOrderEvents => exact keeps_processPayment hr hmem hd
  | paymentOrderCancelled =>
    exact keeps_ofExcept_bind fun _ _ => keeps_ofExcept_bind fun _ _ => keeps_log hd
  | stockPaymentEvents =>
    refine (keeps_log hd).bind fun _ => keeps_ofExcept_bind fun id hid => ?_
    refine keeps_publish_bind hd (fun key hkey => ?_) fun _ _ => keeps_log hd
    exact hr.emits_first hmem (by decide) rfl rfl rfl (hnamed hid) (hnamed hid) hkey
  | stockOrderCancelled =>
    refine keeps_ofExcept_bind fun id hid => ?_
    refine keeps_publish_bind hd (fun key hkey => ?_) fun _ _ => keeps_log hd
    exact hr.emits_first hmem (by decide) rfl rfl rfl (hnamed hid) (hnamed hid) hkey
  | notificationStockReserved =>
    have hlogged : (Notification.logOrderId v).Keeps
        (idContract (delivery .notificationStockReserved proc headers v))
        (Standing (delivery .notificationStockReserved proc headers v) known) :=
      keeps_ofExcept_bind fun _ _ => keeps_log hd
    refine hlogged.bind fun _ => keeps_ofExcept_bind fun id hid => ?_
    obtain rfl := hnamed hid
    refine keeps_publish_bind hd (fun key hkey => ?_) fun key hkey => ?_
    · exact hr.emits_first hmem (by decide) rfl rfl rfl rfl rfl hkey
    · refine keeps_publish_bind hd (fun key' hkey' => ?_) fun _ _ => keeps_log hd
      exact hr.emits_second rfl rfl (.inl rfl) (by decide) rfl rfl rfl rfl rfl hkey'
  | notificationPaymentEvents | notificationOrderCancelled =>
    exact keeps_ofExcept_bind fun _ _ => keeps_log hd

/-- The call of a consumer keeps to its plan. -/
theorem keeps_consume (hr : Received h r v orderId) (hmem : r ∈ known)
    (hd : Distinct (delivery h proc headers v)) :
    (h.method proc headers (.value v)).Keeps (idContract (delivery h proc headers v))
      (Standing (delivery h proc headers v) known) := by
  refine keeps_method standing_rely (fun op hq => kept_of_emits hd (emits_of_quiet hq))
    (fun row => kept_of_emits hd trivial) fun envelope hread => ?_
  rw [← hr.value] at hread
  obtain rfl := hr.read hread
  exact ⟨keeps_handler hr hmem hd, fun key n hkey => kept_of_emits hd (hr.emits_copy hmem hkey),
    fun failed failure horiginal hfailure =>
      kept_of_emits hd (hr.emits_failure hmem horiginal hfailure)⟩

/-- An event that begins a chain. -/
theorem emits_origin {t : EventType} {envelope : JsVal} {id : String} {n : ℕ}
    (hn : n ≤ 10) (horigin : resolveKafkaTopic t ∈ origins) (hid : envelope.get "eventId" = .str id)
    (hdrawn : drawn a n = .str id) (hplan : plan a n = (none, .str orderId))
    (htype : envelope.get "eventType" = .str t.value)
    (horder : (envelope.get "payload").get "orderId" = .str orderId)
    (hcorr : envelope.get "correlationId" = .str orderId) :
    Emits a known (.emit (domainRecord t orderId envelope [])) := by
  have hfiled : Filed orderId (domainRecord t orderId envelope []) :=
    filed_domainRecord hid htype horder hcorr rfl
  have hident : envelope.wire.get "eventId" = .str id := JsVal.get_wire_str hid
  have hcaused : provenance.cause (domainRecord t orderId envelope []) = none := if_pos horigin
  have hgrouped : provenance.group (domainRecord t orderId envelope []) = .str orderId :=
    JsVal.get_wire_str hcorr
  have hsealed : Sealed (domainRecord t orderId envelope []) :=
    ⟨_, rfl, JsVal.isJson_wire _, has_of_get hident⟩
  refine ⟨⟨hsealed, orderId, .inl hfiled⟩, .inr ⟨⟨n, hn, hident.trans hdrawn.symm, ?_⟩, ?_⟩⟩
  · rw [hcaused, hgrouped, hplan]
  · intro k hk
    rw [hcaused] at hk
    cases hk

/-- Every call keeps to its plan from the state it starts in. -/
theorem keeps_author (hw : ∀ known, known ⊆ w.log → Standing a known w) (hd : Distinct a)
    (hready : eventFlow.ready w a) : ∃ known, Standing a known w ∧
      a.body.Keeps (idContract a) (Standing a known) := by
  have hnil : Standing a [] w := hw [] (List.nil_subset _)
  match a with
  | .cancel orderId envelope =>
    obtain ⟨⟨id, hid⟩, htype, hcorr, horder⟩ := hready
    refine ⟨[], hnil, keeps_of_performs hd ?_⟩
    refine Performs.bind ((performs_perform _).mpr ?_) fun _ => trivial
    exact emits_origin (n := 0) (by omega) (by decide) hid hid rfl htype horder hcorr
  | .service (.createOrder proc dto) =>
    refine ⟨[], hnil, keeps_of_performs hd ?_⟩
    refine performs_createOrder (fun _ _ => trivial) (fun _ => trivial) fun key hkey => ?_
    have horder : JsVal.str (proc.uuid 0).val = .str key := (getPartitionKey_eq_ok.mp hkey).1
    obtain rfl := JsVal.str.inj horder
    exact emits_origin (n := 1) (by omega) (by decide) rfl rfl rfl rfl rfl rfl
  | .service (.consume h proc headers payload) =>
    obtain ⟨r, hr, htopic, rfl, -⟩ := hready
    obtain ⟨v, orderId, hreceived⟩ := Received.of_logged (hnil.ok.logged r hr) htopic
    have hmem : r ∈ [r] := List.mem_singleton_self r
    have hsub : [r] ⊆ w.log := fun x hx => (List.mem_singleton.mp hx) ▸ hr
    refine ⟨[r], hw [r] hsub, ?_⟩
    rw [hreceived.value] at hd ⊢
    exact keeps_consume hreceived hmem hd

end Calls

section Runs

variable {ι : Type} [DecidableEq ι]

/-- A record that the broker stores again says nothing new. -/
theorem CausalOk.again {w : World Author} {r : KafkaRecord} (h : CausalOk w) (hr : r ∈ w.log) :
    CausalOk { w with log := w.log ++ [r] } := by
  refine ⟨.copy h.grown hr ⟨rfl, rfl, rfl⟩, fun x hx => ?_⟩
  rcases List.mem_append.mp hx with hx | hx
  · exact h.logged x hx
  · rw [List.mem_singleton.mp hx]
    exact h.logged r hr

omit [DecidableEq ι] in
theorem sound_causation : idOwnership.Sound eventFlow (fun _ _ => True) (fun _ _ => True)
    (FreshIds : Pool ι (World Author) Author Op Op.Resp JsThrow JsVal →
      PoolAct ι Author Op JsThrow → Prop) where
  env w w' hok henv := by
    obtain ⟨r, hr, rfl⟩ := henv
    refine ⟨List.prefix_append _ _, fun k x hx _ => ?_, CausalOk.again hok hr⟩
    rcases List.mem_append.mp hx with hx | hx
    · exact ⟨x, hx, rfl, rfl, rfl⟩
    · rw [List.mem_singleton.mp hx]
      exact ⟨r, hr, rfl, rfl, rfl⟩
  start s i a hcond hready hok _ := by
    have hfresh : Fresh s a := hcond i a rfl
    have hstand : ∀ known, known ⊆ s.world.log → Standing a known s.world := fun known hsub =>
      ⟨hok.safe, fun r hr n hn hid => absurd hid (hfresh.unused n hn r hr), hsub⟩
    obtain ⟨known, hw, hbody⟩ := keeps_author hstand hfresh.plan hready
    exact (hbody _ hw).imp fun _ _ _ _ _ => trivial
  free s i a hcond _ j job hj k := by
    have hfresh : Fresh s a := hcond i a rfl
    have hapart : ∀ {n m : ℕ}, n ≤ 10 → m ≤ 10 → k = drawn a n → k ≠ drawn job.1 m :=
      fun hn hm hk hk' => hfresh.others j job hj _ hn _ hm (hk.symm.trans hk')
    constructor
    · intro hown huse
      obtain ⟨n, hn, hk⟩ := hown
      obtain ⟨m, hm, hk'⟩ := huse
      exact hapart hn hm hk hk'
    · intro huse hown
      obtain ⟨n, hn, hk⟩ := huse
      obtain ⟨m, hm, hk'⟩ := hown
      exact hapart hn hm hk hk'
  settle _ _ _ _ _ _ _ := trivial
  reject _ _ _ _ _ _ _ _ := trivial
  crash _ _ _ _ _ _ _ _ _ := trivial

theorem causalOk_empty : CausalOk World.empty := ⟨.nil, fun _ hr => absurd hr List.not_mem_nil⟩

variable {ls : List (PoolAct ι Author Op JsThrow)}
  {s : Pool ι (World Author) Author Op Op.Resp JsThrow JsVal}

/-- Every record names its order in all its places, is caused by an earlier one of the
same order unless it begins the chain, and following the causes from any record ends at
the `order.created` or `order.cancelled` of its order. -/
theorem causal_integrity
    (hrun : RunWhere (Pool.Step eventFlow) FreshIds (Pool.idle World.empty) ls s) :
    (∀ r ∈ s.world.log, ∃ orderId, Filed orderId r ∨ Buried orderId r) ∧
    (∀ pre r post, s.world.log = pre ++ r :: post → r.topic ∉ origins → ∃ r' ∈ pre,
      (envelopeOf r').get "eventId" = (envelopeOf r).get "causationId" ∧
      (envelopeOf r').get "correlationId" = (envelopeOf r).get "correlationId") ∧
    ∀ r ∈ s.world.log, provenance.Leads s.world.log r := by
  have hok : CausalOk s.world := sound_causation.safe hrun causalOk_empty fun _ => trivial
  refine ⟨fun r hr => (hok.logged r hr).2, fun pre r post hlog horigin => ?_, hok.grown.leads⟩
  have hcause : provenance.cause r = some ((envelopeOf r).get "causationId") := if_neg horigin
  exact hok.grown.cause_before pre r post hlog _ hcause

section Samples

def hexText (lead : String) (n : ℕ) : String :=
  lead ++ "1111111-1111-4111-8111-11111111111" ++ String.singleton (Nat.digitChar n)

/-- Eleven ids that differ in their first digit from another eleven, and from each other
in their last. -/
def hexUuid (lead : String) (n : ℕ) : Uuid :=
  if h : matchesUuid (hexText lead n) = true then ⟨hexText lead n, h⟩ else .first

def drawing (lead : String) : Process :=
  { Process.still .first .half with uuid := hexUuid lead }

theorem hexUuid_val {lead : String} (hlead : lead ∈ ["a", "b"]) {n : ℕ} (hn : n ≤ 10) :
    (hexUuid lead n).val = hexText lead n := by
  have hform : ∀ lead ∈ ["a", "b"], ∀ n ≤ 10, matchesUuid (hexText lead n) = true := by
    decide +kernel
  exact congrArg Subtype.val (dif_pos (hform lead hlead n hn))

theorem distinct_drawing {lead : String} (hlead : lead ∈ ["a", "b"]) :
    ∀ n ≤ 10, ∀ m ≤ 10, (drawing lead).uuid n = (drawing lead).uuid m → n = m := by
  have htext : ∀ lead ∈ ["a", "b"], ∀ n ≤ 10, ∀ m ≤ 10,
      hexText lead n = hexText lead m → n = m := by decide +kernel
  intro n hn m hm heq
  have hval : (hexUuid lead n).val = (hexUuid lead m).val := congrArg Subtype.val heq
  rw [hexUuid_val hlead hn, hexUuid_val hlead hm] at hval
  exact htext lead hlead n hn m hm hval

/-- A request, and the delivery of its record to payment-service. -/
def sampleOrder : Author := .service (.createOrder (drawing "a") {
  customerId := "c-1"
  items := [{ productId := "sku-1", quantity := 2, unitPrice := 5 }]
  currency := none })

def sampleDelivery : Author :=
  match (eventFlow.called sampleOrder World.empty).log.getLast? with
  | some r => .service (.consume .paymentOrderEvents (drawing "b") r.headers r.value)
  | none => .service (.consume .paymentOrderEvents (drawing "b") [] (.value .undefined))

theorem flowed_run {a : Author} {w : World Author} (hready : eventFlow.ready w a)
    (hfresh : Fresh (Pool.idle w : Pool Unit (World Author) Author Op Op.Resp JsThrow JsVal) a) :
    ∃ ls, RunWhere (Pool.Step eventFlow) FreshIds
      (Pool.idle w : Pool Unit (World Author) Author Op Op.Resp JsThrow JsVal) ls
      (Pool.idle (eventFlow.called a w)) := by
  refine Pool.called_run eventFlow () hready (fun i a' heq => ?_) (fun _ _ _ _ => nofun)
    fun _ _ _ => nofun
  cases heq
  exact hfresh

theorem sampleDelivery_eq : ∃ r ∈ (eventFlow.called sampleOrder World.empty).log,
    r.topic = RetriedHandler.paymentOrderEvents.topic ∧ sampleDelivery =
      .service (.consume .paymentOrderEvents (drawing "b") r.headers r.value) := by
  have hlast : (eventFlow.called sampleOrder World.empty).log.getLast?.map KafkaRecord.topic =
      some RetriedHandler.paymentOrderEvents.topic := by decide +kernel
  obtain ⟨r, hr, htopic⟩ := Option.map_eq_some_iff.mp hlast
  refine ⟨r, List.mem_of_getLast? hr, htopic, ?_⟩
  rw [sampleDelivery, hr]

/-- A request and its payment make a chain of three records. -/
theorem causal_integrity_paid : ∃ ls,
    ∃ s : Pool Unit (World Author) Author Op Op.Resp JsThrow JsVal,
      RunWhere (Pool.Step eventFlow) FreshIds (Pool.idle World.empty) ls s ∧
      s.world.log.length = 3 ∧
      (∀ r ∈ s.world.log, ∃ orderId, Filed orderId r ∨ Buried orderId r) ∧
      (∀ pre r post, s.world.log = pre ++ r :: post → r.topic ∉ origins → ∃ r' ∈ pre,
        (envelopeOf r').get "eventId" = (envelopeOf r).get "causationId" ∧
        (envelopeOf r').get "correlationId" = (envelopeOf r).get "correlationId") ∧
      ∀ r ∈ s.world.log, provenance.Leads s.world.log r := by
  let w : World Author := eventFlow.called sampleOrder World.empty
  have hfirst : Fresh (Pool.idle World.empty : Pool Unit (World Author) Author Op Op.Resp JsThrow JsVal)
      sampleOrder := by
    refine ⟨fun _ _ r hr => absurd hr List.not_mem_nil, fun _ _ => nofun, fun c hc => ?_⟩
    cases hc
    exact distinct_drawing (by decide)
  have hunused : ∀ r ∈ w.log, ∀ n ≤ 10, provenance.ident r ≠ .str (hexText "b" n) := by
    decide +kernel
  obtain ⟨r, hr, htopic, hdelivery⟩ := sampleDelivery_eq
  have hsecond : Fresh (Pool.idle w : Pool Unit (World Author) Author Op Op.Resp JsThrow JsVal)
      sampleDelivery := by
    rw [hdelivery]
    refine ⟨fun n hn r hr => ?_, fun _ _ => nofun, fun c hc => ?_⟩
    · show provenance.ident r ≠ .str (hexUuid "b" n).val
      rw [hexUuid_val (by decide) hn]
      exact hunused r hr n hn
    cases hc
    exact distinct_drawing (by decide)
  have hready : eventFlow.ready w sampleDelivery := by
    rw [hdelivery]
    exact ⟨r, hr, htopic, rfl, rfl⟩
  have hlength : (eventFlow.called sampleDelivery w).log.length = 3 := by decide +kernel
  obtain ⟨ls, hrun⟩ := flowed_run (a := sampleOrder) trivial hfirst
  obtain ⟨ms, hmore⟩ := flowed_run hready hsecond
  exact ⟨_, _, hrun.trans hmore, hlength, causal_integrity (hrun.trans hmore)⟩

end Samples

end Runs

end EventFlow.Saga
