import EventFlow.Retry.Untrusted
import EventFlow.Services.System

namespace EventFlow.Retry

open Js Shared Services KafkaRetryExecutor

/-- The headers of `envelopeToKafkaHeaders`. -/
def traceHeaders : List String :=
  [headerEventId, headerEventType, headerCorrelationId, headerSource, headerSchemaVersion,
    headerCausationId]

/-- The headers of a retry round. -/
def retryHeaderNames : List String :=
  [headerRetryCount, headerRetryMax, headerRetryAt, headerOriginalTopic]

/-- The text of a header that is a string or a Buffer. -/
def stringOf : RawHeader → Option String
  | .buffer text | .str text => some text
  | .other _ => none

/-- The header of a record, when it is a string or a Buffer. -/
def headerOf (headers : List (String × RawHeader)) (name : String) : Option String :=
  (headers.filterMap fun header => (stringOf header.2).map (header.1, ·)).lookup name

/-- The headers that the publisher takes from an envelope. -/
def traceOf (envelope : JsVal) : List (String × RawHeader) :=
  encodeHeaders (envelopeToKafkaHeaders envelope)

/-- A republished record is the original but for the retry headers. -/
structure Unchanged (h : RetriedHandler) (record : KafkaRecord) (envelope : JsVal)
    (r : KafkaRecord) : Prop where
  topic : r.topic = record.topic
  key : r.key = record.key
  envelope : ∃ env, h.read r.value = .ok (.accepted env) ∧ env.wire = envelope.wire
  headers : ∀ name text, name ∉ retryHeaderNames → headerOf record.headers name = some text →
    headerOf r.headers name = some text

/-- An envelope that was read, or what is read of it when it comes back. -/
def Copy (env envelope : JsVal) : Prop := env = envelope ∨ env = envelope.wire

section Headers

variable {envelope env : JsVal} {name : String}

theorem Copy.wire_eq (h : Copy env envelope) : env.wire = envelope.wire := by
  rcases h with rfl | rfl
  · rfl
  · exact JsVal.wire_of_isJson _ (JsVal.isJson_wire envelope)

/-- What a header value is sent as, when it is a string. -/
def headerText : JsVal → Option String
  | .str text => some text
  | _ => none

theorem headerText_eq_some {v : JsVal} {text : String} :
    headerText v = some text ↔ v = .str text := by
  cases v <;> simp [headerText]

theorem stringOf_encodeHeader (v : JsVal) : stringOf (encodeHeader v) = headerText v := by
  cases v <;> rfl

theorem headerOf_encodeHeaders (headers : List (String × JsVal)) (name : String) :
    headerOf (encodeHeaders headers) name =
      (headers.filterMap fun header => (headerText header.2).map (header.1, ·)).lookup name := by
  simp only [headerOf, encodeHeaders, List.filterMap_map, Function.comp_def, stringOf_encodeHeader]

theorem headerText_wire {v : JsVal} {key : String} (hkeys : v.keys.Nodup) :
    headerText (v.wire.get key) = headerText (v.get key) := by
  apply Option.ext
  intro text
  rw [headerText_eq_some, headerText_eq_some, JsVal.get_wire_eq_str hkeys]

/-- Of the causation only a string that is not empty is sent. -/
theorem headerText_causation (v : JsVal) (name : String) :
    (if v.truthy then [(name, v)] else []).filterMap
        (fun header => (headerText header.2).map (header.1, ·)) =
      (((headerText v).filter (· ≠ "")).map (name, ·)).toList := by
  cases v with
  | str text => by_cases hempty : text = "" <;> simp [JsVal.truthy, headerText, hempty, Option.filter]
  | _ => split_ifs <;> simp [headerText]

/-- A trip over the wire leaves these headers alone. -/
theorem headerOf_traceOf_wire (hkeys : envelope.keys.Nodup) :
    headerOf (traceOf envelope.wire) name = headerOf (traceOf envelope) name := by
  unfold traceOf envelopeToKafkaHeaders
  rw [headerOf_encodeHeaders, headerOf_encodeHeaders, List.filterMap_append, List.filterMap_append,
    headerText_causation, headerText_causation, headerText_wire hkeys]
  simp only [List.filterMap_cons, List.filterMap_nil, headerText_wire hkeys]

theorem Copy.headerOf_traceOf (h : Copy env envelope) (hkeys : envelope.keys.Nodup) :
    headerOf (traceOf env) name = headerOf (traceOf envelope) name := by
  rcases h with rfl | rfl
  · rfl
  · exact headerOf_traceOf_wire hkeys

/-- Only a header that is there can be read. -/
theorem mem_of_headerOf {headers : List (String × RawHeader)} {text : String}
    (h : headerOf headers name = some text) : name ∈ headers.map Prod.fst := by
  obtain ⟨before, after, hsplit, -⟩ := List.lookup_eq_some_iff.mp h
  have hentry : (name, text) ∈ headers.filterMap fun header =>
      (stringOf header.2).map (header.1, ·) := by
    rw [hsplit]
    exact List.mem_append_right _ List.mem_cons_self
  obtain ⟨header, hmem, hread⟩ := List.mem_filterMap.mp hentry
  obtain ⟨text, -, heq⟩ := Option.map_eq_some_iff.mp hread
  exact List.mem_map.mpr ⟨header, hmem, congrArg Prod.fst heq⟩

theorem mem_traceHeaders {text : String} (h : headerOf (traceOf envelope) name = some text) :
    name ∈ traceHeaders := by
  have hmem := mem_of_headerOf h
  rw [traceOf, encodeHeaders, List.map_map] at hmem
  exact mem_keys_envelopeToKafkaHeaders hmem

variable {g : Group} {proc : Process} {key : String} {n : Number}

/-- A republished record has the retry headers, and those of its envelope. -/
theorem headerOf_retryRecord (hname : name ∉ retryHeaderNames) :
    headerOf (g.retryRecord proc key env n).headers name = headerOf (traceOf env) name := by
  let added : List (String × JsVal) := [(headerRetryCount, .str n.toText),
    (headerRetryMax, .str g.policy.maxAttempts.toText),
    (headerRetryAt, .str ((Number.ofNat (proc.now 2)).add (calculateBackoffMs n g.policy)).toText),
    (headerOriginalTopic, .str (resolveKafkaTopic g.eventType))]
  have hheaders : (g.retryRecord proc key env n).headers = traceOf env ++ encodeHeaders added := by
    change encodeHeaders (spread (envelopeToKafkaHeaders env) (buildRetryHeaders _)) = _
    rw [spread_buildRetryHeaders env rfl, encodeHeaders, List.map_append]
    rfl
  have hnone : headerOf (encodeHeaders added) name = none := by
    by_contra hsome
    obtain ⟨text, htext⟩ := Option.ne_none_iff_exists'.mp hsome
    exact hname (mem_of_headerOf htext)
  rw [headerOf] at hnone
  rw [hheaders, headerOf, List.filterMap_append, List.lookup_append, hnone, Option.or_none]
  rfl

end Headers

section Echo

variable {g : Group} {proc : Process} {result : Option HandlerError} {record r : KafkaRecord}
  {envelope : JsVal}

theorem ops_of_performs {fails : Op → Option JsThrow} {α : Type} {p : Promise α} {S : Op → Prop}
    (hp : p.Performs S) :
    ∀ op ∈ (p.run (World.settle () fails) World.empty).2.trace.map Prod.snd, S op := by
  obtain ⟨calls, htrace, hcalls⟩ :=
    trace_of_performs (c := ()) (w := World.empty) hp
  intro op hop
  rw [htrace, World.empty, List.nil_append] at hop
  obtain ⟨call, hcall, rfl⟩ := List.mem_map.mp hop
  exact hcalls call hcall

/-- What a delivery leaves on the topic is a copy of the envelope that was read. -/
theorem sent_of_deliver (hr : r ∈ (g.deliver proc result record).sent g.handler.topic) :
    ∃ read key n, g.handler.read record.value = .ok (.accepted read) ∧
      resolvePartitionKey read = .ok key ∧ r = g.retryRecord proc key read n := by
  let S : Op → Prop := fun op => ∀ r, op = .emit r → r.topic = g.handler.topic →
    ∃ read key n, g.handler.read record.value = .ok (.accepted read) ∧
      resolvePartitionKey read = .ok key ∧ r = g.retryRecord proc key read n
  have hsleep : ∀ ms, S (.sleep ms) := by
    intro ms r hr
    cases hr
  have hscripted : (scriptedHandler result).Performs S := by
    have hhandler : S .handler := by
      intro r hr
      cases hr
    refine ((Async.performs_perform _).mpr hhandler).bind fun _ => ?_
    cases result <;> trivial
  have hconsume : (g.consume proc result record).Performs S := by
    refine performs_consumeParsed fun read hread => performs_ackExecuted ?_
    have htransport : g.executor.transport = transportOf g.handler.service g.env := rfl
    refine KafkaRetryExecutor.performs_execute htransport hsleep ?_ ?_ hscripted
    · intro key n hkey r hr _
      exact ⟨read, key, n, hread, hkey, (Op.emit.inj hr).symm⟩
    · intro failed failure _ _ r hr htopic
      obtain rfl := Op.emit.inj hr
      have hdlq : toDlqTopic (resolveKafkaTopic g.handler.eventType) = g.handler.topic := htopic
      rw [← g.handler.resolveKafkaTopic_eventType] at hdlq
      exact absurd hdlq.symm (resolve_ne_toDlq _)
  obtain ⟨hmem, htopic⟩ := List.mem_filter.mp hr
  obtain ⟨op, hop, hemit⟩ := List.mem_filterMap.mp hmem
  exact ops_of_performs hconsume op hop r (World.emitted_eq_some.mp hemit)
    (of_decide_eq_true htopic)

end Echo

section Frame

variable {g : Group} {procs : ℕ → Process} {script : ℕ → Option HandlerError} {fuel : ℕ}
  {record r : KafkaRecord} {envelope : JsVal}

/-- Whatever comes back was made of a copy of the first envelope. -/
theorem copies_of_chain (hread : g.handler.read record.value = .ok (.accepted envelope))
    (hp : Parsed envelope) {n : ℕ} {pending : List KafkaRecord}
    (hpending : ∀ p ∈ pending, p.value = record.value ∨ p.value = .value envelope.wire)
    (hr : r ∈ recordsOn g.handler.topic (g.chain procs script fuel n pending)) :
    ∃ proc read key count, Copy read envelope ∧ resolvePartitionKey read = .ok key ∧
      r = g.retryRecord proc key read count := by
  have hback := hp.read_wire hread
  induction fuel generalizing n pending with
  | zero =>
    rw [Group.chain] at hr
    simp [recordsOn] at hr
  | succ fuel ih =>
    cases pending with
    | nil =>
      simp [Group.chain, recordsOn] at hr
    | cons p pending =>
      have hsent : ∀ q ∈ (g.deliver (procs n) (script n) p).sent g.handler.topic,
          ∃ read key count, Copy read envelope ∧ resolvePartitionKey read = .ok key ∧
            q = g.retryRecord (procs n) key read count := by
        intro q hq
        obtain ⟨read, key, count, hp, hkey, hcopy⟩ := sent_of_deliver hq
        refine ⟨read, key, count, ?_, hkey, hcopy⟩
        rcases hpending p List.mem_cons_self with hfirst | hlater
        · rw [hfirst, hread] at hp
          cases hp
          exact .inl rfl
        · rw [hlater, hback] at hp
          cases hp
          exact .inr rfl
      have hchain : g.chain procs script (fuel + 1) n (p :: pending) =
          g.deliver (procs n) (script n) p :: g.chain procs script fuel (n + 1)
            (pending ++ (g.deliver (procs n) (script n) p).sent g.handler.topic) := by
        rw [← g.handler.resolveKafkaTopic_eventType]
        rfl
      rw [hchain, recordsOn_cons] at hr
      rcases List.mem_append.mp hr with hnow | hlater
      · obtain ⟨read, key, count, hecho⟩ := hsent r hnow
        exact ⟨_, read, key, count, hecho⟩
      · refine ih ?_ hlater
        intro q hq
        rcases List.mem_append.mp hq with hold | hnew
        · exact hpending q (List.mem_cons_of_mem _ hold)
        · obtain ⟨read, key, count, hcopy, -, rfl⟩ := hsent q hnew
          exact .inr (congrArg KafkaValue.value hcopy.wire_eq)

/-- A copy goes out under the key of the envelope. -/
theorem Copy.key_eq {read : JsVal} {key key' : String} (h : Copy read envelope)
    (horder : (envelope.get "payload").get "orderId" = .str key)
    (hkey : resolvePartitionKey read = .ok key') : key' = key := by
  have horder' : (read.get "payload").get "orderId" = .str key := by
    rcases h with rfl | rfl
    · exact horder
    · exact JsVal.get_get_wire_str horder
  have hresolved := (getPartitionKey_eq_ok.mp hkey).1
  rw [horder'] at hresolved
  exact (JsVal.str.inj hresolved).symm

/-- A retry changes nothing but its own headers exactly when there is no other header
than these and the ones of the envelope: what else a record carries is lost. -/
theorem retry_unchanged_iff {key : String}
    (hread : g.handler.read record.value = .ok (.accepted envelope))
    (hkeys : envelope.keys.Nodup) (hid : envelope.get "eventId" ≠ .undefined)
    (htopic : record.topic = g.handler.topic) (hkey : record.key = .str key)
    (horder : (envelope.get "payload").get "orderId" = .str key)
    (htrace : ∀ name ∈ traceHeaders,
      headerOf record.headers name = headerOf (traceOf envelope) name)
    (hr : r ∈ recordsOn g.handler.topic (g.chain procs script fuel 0 [record])) :
    Unchanged g.handler record envelope r ↔
      ∀ name text, headerOf record.headers name = some text →
        name ∈ traceHeaders ∨ name ∈ retryHeaderNames := by
  have hp : Parsed envelope := ⟨hkeys, hid⟩
  have hpending : ∀ p ∈ [record], p.value = record.value ∨ p.value = .value envelope.wire := by
    intro p hp
    rw [List.mem_singleton.mp hp]
    exact .inl rfl
  obtain ⟨proc, read, key', count, hcopy, hsent, rfl⟩ := copies_of_chain hread hp hpending hr
  have hheader : ∀ name, name ∉ retryHeaderNames →
      headerOf (g.retryRecord proc key' read count).headers name =
        headerOf (traceOf envelope) name := by
    intro name hname
    rw [headerOf_retryRecord hname, hcopy.headerOf_traceOf hkeys]
  constructor
  · intro hsame name text hname
    by_cases hretry : name ∈ retryHeaderNames
    · exact .inr hretry
    · have hkept := hsame.headers name text hretry hname
      rw [hheader name hretry] at hkept
      exact .inl (mem_traceHeaders hkept)
  · intro honly
    refine ⟨?_, ?_, ⟨envelope.wire, ?_, ?_⟩, ?_⟩
    · rw [htopic]
      exact g.handler.resolveKafkaTopic_eventType
    · rw [hkey, ← hcopy.key_eq horder hsent]
      rfl
    · have hvalue : (g.retryRecord proc key' read count).value = .value envelope.wire :=
        congrArg KafkaValue.value hcopy.wire_eq
      rw [hvalue]
      exact hp.read_wire hread
    · exact JsVal.wire_of_isJson _ (JsVal.isJson_wire envelope)
    · intro name text hname hrecord
      rw [hheader name hname, ← hrecord]
      rcases honly name text hrecord with hmem | hmem
      · exact (htrace name hmem).symm
      · exact absurd hmem hname

/-- A failed delivery with attempts left does leave a record. -/
theorem mem_recordsOn_retrying {x : Number} (hc : Carries g record envelope x) (procs : ℕ → Process)
    (script : ℕ → Option HandlerError) (fuel n : ℕ) (pending : List KafkaRecord)
    (hfin : g.policy.maxAttempts.isFinite = true)
    (hreply : g.reply envelope x.succ (script n) = .ok .retry) :
    ∃ key, g.retryRecord (procs n) key envelope x.succ ∈ recordsOn (resolveKafkaTopic g.eventType)
      (g.chain procs script (fuel + 1) n (record :: pending)) := by
  obtain ⟨key, -, hsent, -⟩ := (deliver_answers hc (procs n) (script n) hfin).sent_retry hreply
  refine ⟨key, ?_⟩
  rw [Group.chain, recordsOn_cons, hsent]
  exact List.mem_append_left _ (List.mem_singleton_self _)

/-- A cancellation as order-service sends it, with what a tracer adds to its headers. -/
def tracedRecord (extra : List (String × RawHeader)) : KafkaRecord :=
  { cancelledRecord with headers := traceOf cancelledEnvelope ++ extra }

theorem tracedRecord_retried (extra : List (String × RawHeader))
    (hretry : shouldRetry (attemptOf .documented (tracedRecord extra)) defaultRetryPolicy = true) :
    ∃ key, stockGroup.retryRecord (.still .first .half) key cancelledEnvelope
        (attemptOf .documented (tracedRecord extra)) ∈ recordsOn "order.cancelled"
      (stockGroup.chain (fun _ => .still .first .half) (alwaysFails fun _ => gatewayDown) 3 0
        [tracedRecord extra]) := by
  have hc : Carries stockGroup (tracedRecord extra) cancelledEnvelope _ := carries_any rfl
  have hreply : stockGroup.reply cancelledEnvelope
      (attemptOf .documented (tracedRecord extra)) (some gatewayDown) = .ok .retry :=
    reply_retry_iff.mpr ⟨rfl, hretry, ⟨_, key_cancelledEnvelope⟩, answerable_cancelledEnvelope _ _ _⟩
  exact mem_recordsOn_retrying hc (fun _ => .still .first .half) (alwaysFails fun _ => gatewayDown)
    2 0 [] (isFinite_of_limit default_maxAttempts) hreply

/-- Without any, the copy is the original. -/
theorem retry_unchanged_untraced : ∃ r ∈ recordsOn "order.cancelled"
      (stockGroup.chain (fun _ => .still .first .half) (alwaysFails fun _ => gatewayDown) 3 0
        [tracedRecord []]),
    Unchanged .stockOrderCancelled (tracedRecord []) cancelledEnvelope r := by
  obtain ⟨key, hr⟩ := tracedRecord_retried [] (by decide +kernel)
  have hread : stockGroup.handler.read (tracedRecord []).value = .ok (.accepted cancelledEnvelope) :=
    rfl
  refine ⟨_, hr, (retry_unchanged_iff hread (by decide) JsVal.noConfusion rfl rfl rfl ?_ hr).mpr ?_⟩
  · intro name _
    rfl
  · intro name text hname
    exact .inl (mem_traceHeaders hname)

/-- The trace context of a record is gone after one round. -/
theorem traceparent_lost : ¬ ∀ r ∈ recordsOn "order.cancelled"
      (stockGroup.chain (fun _ => .still .first .half) (alwaysFails fun _ => gatewayDown) 3 0
        [tracedRecord [("traceparent", .buffer "00-4bf92f35-00f067aa-01")]]),
    Unchanged .stockOrderCancelled (tracedRecord [("traceparent", .buffer "00-4bf92f35-00f067aa-01")])
      cancelledEnvelope r := by
  intro hall
  obtain ⟨key, hr⟩ := tracedRecord_retried [("traceparent", .buffer "00-4bf92f35-00f067aa-01")]
    (by decide +kernel)
  have hname : "traceparent" ∉ retryHeaderNames := by decide
  have hkept := (hall _ hr).headers "traceparent" _ hname rfl
  rw [headerOf_retryRecord hname] at hkept
  cases hkept

end Frame

end EventFlow.Retry
