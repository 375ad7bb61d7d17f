import EventFlow.Shared.Validation

namespace EventFlow.Shared

open Js

/-- A consumer pipeline either takes the message or skips its event type. -/
inductive ParseResult where
  | accepted (envelope : JsVal)
  | skipped (reason : String) (eventType : JsVal)
  deriving DecidableEq

/-- `throw new EventValidationError(message, [errorText(error)])`. -/
def rethrowInvalid (message : String) (error : JsThrow) : JsThrow :=
  match errorText error with
  | .ok text => eventValidationError message [text]
  | .error e => e

def deserializeAndExtract (rawPayload : KafkaValue) : Except JsThrow JsVal :=
  match deserializeKafkaPayload rawPayload with
  | .error e => .error (rethrowInvalid "Failed to deserialize Kafka message" e)
  | .ok deserialized =>
    match extractEnvelope (.value deserialized) with
    | .error e => .error (rethrowInvalid "Failed to extract event envelope" e)
    | .ok envelope => .ok envelope

/-- The pipeline the three parsers share: extract, filter by type, validate, and
compare the correlation id with the order id. -/
def parseMessage (eventType : EventType) (validatePayload : JsVal → Except JsThrow Unit)
    (rawPayload : KafkaValue) : Except JsThrow ParseResult := do
  let envelope ← deserializeAndExtract rawPayload
  if !(envelope.get "eventType").strictEq (.str eventType.value) then
    .ok (.skipped "unsupported-event-type" (envelope.get "eventType"))
  else do
    validateEventEnvelope envelope (some eventType)
    validatePayload (envelope.get "payload")
    if !(envelope.get "correlationId").strictEq ((envelope.get "payload").get "orderId") then
      .error (eventValidationError ("Invalid " ++ eventType.value ++ " envelope")
        ["correlationId must equal payload.orderId"])
    else .ok (.accepted envelope)

def parseOrderEventsMessage : KafkaValue → Except JsThrow ParseResult :=
  parseMessage .orderCreated validateOrderCreatedPayload

def parsePaymentProcessedMessage : KafkaValue → Except JsThrow ParseResult :=
  parseMessage .paymentProcessed validatePaymentProcessedPayload

def parsePaymentFailedMessage : KafkaValue → Except JsThrow ParseResult :=
  parseMessage .paymentFailed validatePaymentFailedPayload

theorem error_of_deserializeAndExtract {raw : KafkaValue} {e : JsThrow}
    (h : deserializeAndExtract raw = .error e) : ∃ m d, e = .validation m d := by
  unfold deserializeAndExtract at h
  split at h
  · next he =>
    obtain ⟨name, message, rfl⟩ := error_of_deserialize he
    exact ⟨_, _, (Except.error.inj h).symm⟩
  · split at h
    · next he =>
      obtain ⟨name, message, rfl⟩ := error_of_extract he
      exact ⟨_, _, (Except.error.inj h).symm⟩
    · cases h

section Spec

variable {t : EventType} {validatePayload : JsVal → Except JsThrow Unit} {raw : KafkaValue}
  {envelope : JsVal}

/-- What acceptance means. -/
theorem parseMessage_eq_accepted :
    parseMessage t validatePayload raw = .ok (.accepted envelope) ↔
      deserializeAndExtract raw = .ok envelope ∧ ValidEnvelope envelope t ∧
      validatePayload (envelope.get "payload") = .ok () ∧
      (envelope.get "correlationId").strictEq ((envelope.get "payload").get "orderId") = true := by
  unfold parseMessage
  cases hx : deserializeAndExtract raw with
  | error e => simp [bind, Except.bind]
  | ok env =>
    simp only [bind, Except.bind]
    by_cases htype : (env.get "eventType").strictEq (.str t.value) = true
    · simp only [htype, Bool.not_true, Bool.false_eq_true, if_false, Except.ok.injEq]
      cases hv : validateEventEnvelope env (some t) with
      | error e =>
        simp only [reduceCtorEq, false_iff, not_and]
        rintro rfl hvalid
        rw [validateEventEnvelope_eq_ok.mpr hvalid] at hv
        cases hv
      | ok =>
        have hvalid := validateEventEnvelope_eq_ok.mp hv
        cases hp : validatePayload (env.get "payload") with
        | error e =>
          simp only [reduceCtorEq, false_iff, not_and]
          rintro rfl - hok
          rw [hok] at hp
          cases hp
        | ok =>
          simp only
          split_ifs with hc
          · simp only [false_iff, not_and]
            rintro rfl - - hcorr
            simp [hcorr] at hc
          · simp only [Except.ok.injEq, ParseResult.accepted.injEq]
            constructor
            · rintro rfl
              exact ⟨rfl, hvalid, hp, by simpa using hc⟩
            · exact fun h => h.1
    · simp only [htype, Bool.not_false, if_true, Except.ok.injEq, reduceCtorEq, false_iff, not_and]
      rintro rfl hvalid
      exact absurd (strictEq_str.mpr hvalid.eventType) htype

/-- Whatever the pipeline throws is a validation error. -/
theorem error_of_parseMessage {e : JsThrow}
    (hpayload : ∀ p e, validatePayload p = .error e → ∃ m d, e = .validation m d)
    (h : parseMessage t validatePayload raw = .error e) : ∃ m d, e = .validation m d := by
  unfold parseMessage at h
  cases hx : deserializeAndExtract raw with
  | error e' =>
    simp only [hx, bind, Except.bind, Except.error.injEq] at h
    subst h
    exact error_of_deserializeAndExtract hx
  | ok env =>
    simp only [hx, bind, Except.bind] at h
    by_cases htype : (env.get "eventType").strictEq (.str t.value) = true
    · simp only [htype, Bool.not_true, Bool.false_eq_true, if_false] at h
      cases hv : validateEventEnvelope env (some t) with
      | error e' =>
        simp only [hv, Except.error.injEq] at h
        subst h
        exact error_of_validateEventEnvelope hv
      | ok =>
        cases hp : validatePayload (env.get "payload") with
        | error e' =>
          simp only [hv, hp, Except.error.injEq] at h
          subst h
          exact hpayload _ _ hp
        | ok =>
          simp only [hv, hp] at h
          split_ifs at h
          exact ⟨_, _, (Except.error.inj h).symm⟩
    · simp [htype] at h

/-- An accepted envelope carries its order id twice, as one filled string. -/
theorem orderId_of_accepted (h : parseMessage t validatePayload raw = .ok (.accepted envelope)) :
    ∃ orderId, (envelope.get "payload").get "orderId" = .str orderId ∧
      envelope.get "correlationId" = .str orderId ∧ orderId ≠ "" := by
  obtain ⟨-, hvalid, -, hcorr⟩ := parseMessage_eq_accepted.mp h
  obtain ⟨s, hs, hne⟩ := ne_empty_of_isNonEmptyString hvalid.correlationId
  rw [hs] at hcorr
  refine ⟨s, ?_, hs, hne⟩
  cases hp : (envelope.get "payload").get "orderId" <;> simp_all [JsVal.strictEq]

end Spec

/-- A bare envelope object is what the pipelines read. -/
theorem deserializeAndExtract_obj {fields : List (String × JsVal)}
    (h : (JsVal.obj fields).has "eventId" = true) :
    deserializeAndExtract (.value (.obj fields)) = .ok (.obj fields) := by
  simp [deserializeAndExtract, deserialize_obj, extractEnvelope_obj h]

/-- A validator that accepts a payload accepts it after a trip over the wire. -/
def Stable (validatePayload : JsVal → Except JsThrow Unit) : Prop :=
  ∀ p, validatePayload p = .ok () → validatePayload p.wire = .ok ()

theorem stable_validateOrderCreated : Stable validateOrderCreatedPayload := fun _ h =>
  validateOrderCreatedPayload_eq_ok.mpr (validateOrderCreatedPayload_eq_ok.mp h).wire

theorem stable_validateFields (t : EventType) (fields : List String) :
    Stable (validateFields t fields) := fun _ h => validateFields_wire h

/-- An accepted envelope is accepted again when it comes back. -/
theorem parseMessage_wire {t : EventType} {validatePayload : JsVal → Except JsThrow Unit}
    {raw : KafkaValue} {envelope : JsVal} (hstable : Stable validatePayload)
    (hkeys : envelope.keys.Nodup)
    (h : parseMessage t validatePayload raw = .ok (.accepted envelope)) :
    parseMessage t validatePayload (.value envelope.wire) = .ok (.accepted envelope.wire) := by
  obtain ⟨orderId, horder, hcorr, -⟩ := orderId_of_accepted h
  obtain ⟨-, hvalid, hpayload, -⟩ := parseMessage_eq_accepted.mp h
  have hwire := hvalid.wire hkeys
  have hne : envelope.get "payload" ≠ .undefined := by
    intro hu
    rw [hu] at horder
    cases horder
  have hread : deserializeAndExtract (.value envelope.wire) = .ok envelope.wire := by
    cases hw : envelope.wire with
    | obj fields =>
      have hid := hwire.eventId
      rw [hw] at hid
      refine deserializeAndExtract_obj ?_
      cases hl : fields.lookup "eventId" with
      | none => simp [JsVal.get, hl, isUuid] at hid
      | some v => simp [JsVal.has, hl]
    | _ =>
      have hid := hwire.eventId
      rw [hw] at hid
      cases hid
  refine parseMessage_eq_accepted.mpr ⟨hread, hwire, ?_, ?_⟩
  · rw [JsVal.get_wire hne]
    exact hstable _ hpayload
  · rw [JsVal.get_wire_str hcorr, JsVal.get_wire hne, JsVal.get_wire_str horder]
    simp [JsVal.strictEq]

theorem error_of_parseOrderEvents {raw : KafkaValue} {e : JsThrow}
    (h : parseOrderEventsMessage raw = .error e) : ∃ m d, e = .validation m d :=
  error_of_parseMessage (fun _ _ => error_of_validateOrderCreated) h

end EventFlow.Shared
