import EventFlow.Framework.Transition
import EventFlow.Retry.Groups

namespace EventFlow.Retry

open Js Shared Services KafkaRetryExecutor

/-- A record in a partition, with the number of the publication it goes back to. -/
structure Entry where
  origin : ℕ
  record : KafkaRecord

/-- A record in the hands of the group's member; `result` is how its handler ends. -/
structure Handling where
  entry : Entry
  proc : Process
  result : Option HandlerError

/-- One partition as one consumer group sees it: what it has still to read, what it is
working on, and whose handlers have completed. -/
structure Partition where
  pending : List Entry
  published : ℕ
  current : Option Handling
  completed : List Entry

inductive PartitionAct where
  | publish (record : KafkaRecord)
  | take (proc : Process) (result : Option HandlerError)
  | finish

/-- A delivery whose handler has completed. -/
def Delivery.succeeded (d : Delivery) : Bool :=
  match d.result with
  | .ok ack =>
    match ack.get "outcome" with
    | .str outcome => outcome = RetryOutcome.success.value
    | _ => false
  | .error _ => false

/-- A rejected delivery is not committed. -/
def Delivery.rejected (d : Delivery) : Bool :=
  match d.result with
  | .ok _ => false
  | .error _ => true

namespace Subscriber

variable (m : Subscriber)

/-- The order of a record that the group runs its handler for. -/
def order? (r : KafkaRecord) : Option String :=
  match m.method.read r.value with
  | .ok (.accepted envelope) => (resolvePartitionKey envelope).toOption
  | _ => none

/-- A record as publishers write it: an envelope under the key of its order. -/
def Fit (r : KafkaRecord) : Prop :=
  ∀ envelope, m.method.read r.value = .ok (.accepted envelope) → Parsed envelope ∧
    ∀ key, resolvePartitionKey envelope = .ok key → r.key = .str key

/-- Whether a failed handler of a record leads to a republished copy, where the record has a key:
an attempt is left, and the catch block gets to its end. -/
def Republishes (r : KafkaRecord) : Prop :=
  shouldRetry (attemptOf m.drivers r) m.policy = true ∧
    ∀ envelope, m.method.read r.value = .ok (.accepted envelope) →
      m.group.Answerable envelope (attemptOf m.drivers r)

end Subscriber

namespace Partition

def empty : Partition := ⟨[], 0, none, []⟩

/-- What the group has not done with, in the order it is going to read it. -/
def waiting (s : Partition) : List Entry := (s.current.map Handling.entry).toList ++ s.pending

/-- The end of a delivery: what it republishes goes to the tail, and what rejects is read
again. -/
def finish (s : Partition) (m : Subscriber) (h : Handling) : Partition :=
  let d := m.group.deliver h.proc h.result h.entry.record
  { s with
    current := none
    pending := (if d.rejected then [h.entry] else []) ++ s.pending ++
      (d.sent m.topic).map fun copy => { h.entry with record := copy }
    completed := if d.succeeded then s.completed ++ [h.entry] else s.completed }

/-- Anyone may publish at any time; the group reads one record at a time. -/
inductive Step (m : Subscriber) : Partition → PartitionAct → Partition → Prop
  | publish {s : Partition} {record : KafkaRecord} : m.Fit record →
      Step m s (.publish record)
        { s with pending := s.pending ++ [⟨s.published, record⟩], published := s.published + 1 }
  | take {s : Partition} {entry : Entry} {rest : List Entry} {proc : Process}
      {result : Option HandlerError} : s.current = none → s.pending = entry :: rest →
      Step m s (.take proc result) { s with pending := rest, current := some ⟨entry, proc, result⟩ }
  | finish {s : Partition} {h : Handling} : s.current = some h → Step m s .finish (s.finish m h)

end Partition

section Copies

variable {m : Subscriber} {r : KafkaRecord} {proc : Process} {result : Option HandlerError}

/-- A record that is not for the group has no effect. -/
theorem deliver_unread (h : ∀ envelope, m.method.read r.value ≠ .ok (.accepted envelope)) :
    (m.group.deliver proc result r).sent m.topic = [] ∧
      (m.group.deliver proc result r).succeeded = false := by
  have hend : ∃ x : Except JsThrow JsVal,
      (m.group.consume proc result r).run (World.settle () m.group.drivers.refusal) World.empty =
        (x, World.empty) ∧ ∀ count, Delivery.succeeded ⟨count, [], x⟩ = false := by
    rw [Group.consume]
    change ∃ x, (consumeParsed (m.method.read r.value) _ _ _).run _ _ = _ ∧ _
    cases hread : m.method.read r.value with
    | error e => cases e <;> exact ⟨_, rfl, fun _ => rfl⟩
    | ok parsed =>
      cases parsed with
      | skipped reason eventType => exact ⟨_, rfl, fun _ => rfl⟩
      | accepted envelope => exact absurd hread (h envelope)
  obtain ⟨x, hrun, hfail⟩ := hend
  rw [Group.deliver, hrun]
  exact ⟨rfl, hfail _⟩

theorem order?_of_read {envelope : JsVal} (h : m.method.read r.value = .ok (.accepted envelope)) :
    m.order? r = (resolvePartitionKey envelope).toOption := by
  rw [Subscriber.order?, h]

/-- A record that is handed to the group and has to be answered by a copy. -/
theorem reply_of_republishes {envelope : JsVal} {o : String} {error : HandlerError}
    (hread : m.method.read r.value = .ok (.accepted envelope))
    (hkey : resolvePartitionKey envelope = .ok o) (hagain : m.Republishes r) :
    m.group.reply envelope (attemptOf m.drivers r) (some error) = .ok .retry :=
  reply_retry_iff.mpr ⟨rfl, hagain.1, ⟨o, hkey⟩, hagain.2 envelope hread⟩

/-- A delivery republishes nothing, or it has failed with attempts left and republishes
its record, for the same order under the same key. -/
theorem sent_cases (proc : Process) (result : Option HandlerError) (hfit : m.Fit r) :
    (m.group.deliver proc result r).sent m.topic = [] ∨
      (m.group.deliver proc result r).succeeded = false ∧
      (m.group.deliver proc result r).rejected = false ∧ result.isSome = true ∧
      m.Republishes r ∧ (∃ o, m.order? r = some o) ∧
      ∃ copy, (m.group.deliver proc result r).sent m.topic = [copy] ∧ m.Fit copy ∧
        m.order? copy = m.order? r ∧ copy.key = r.key := by
  by_cases hread : ∃ envelope, m.method.read r.value = .ok (.accepted envelope)
  · obtain ⟨envelope, hread⟩ := hread
    obtain ⟨hp, hkeyed⟩ := hfit envelope hread
    have hc : Carries m.group r envelope _ := carries_any hread
    have hans := deliver_answers hc proc result m.isFinite_policy
    by_cases hretry : m.group.reply envelope (attemptOf m.drivers r) result = .ok .retry
    · obtain ⟨key, hkey, hcopy, -⟩ := hans.sent_retry hretry
      obtain ⟨hsome, hagain, -, hable⟩ := reply_retry_iff.mp hretry
      have hack : (m.group.deliver proc result r).result = .ok (ackOutcome "retry") :=
        hans.result.trans (congrArg ack hretry)
      have hc' : Carries m.group (m.group.retryRecord proc key envelope (attemptOf m.drivers r))
          envelope.wire _ := carries_retryRecord hc hp (isCount_of_retry hc.isCount hretry)
      have hwire : resolvePartitionKey envelope.wire = .ok key := resolvePartitionKey_wire hkey
      have hrepublishes : m.Republishes r := by
        refine ⟨hagain, fun envelope' hread' => ?_⟩
        obtain rfl : envelope = envelope' := by
          have heq := hread.symm.trans hread'
          injection heq with heq
          injection heq
        exact hable
      refine .inr ⟨?_, ?_, hsome, hrepublishes, ⟨key, ?_⟩, _, hcopy, ?_, ?_, ?_⟩
      · rw [Delivery.succeeded, hack]
        rfl
      · rw [Delivery.rejected, hack]
      · rw [order?_of_read hread, hkey]
        rfl
      · intro envelope' hread'
        obtain rfl : envelope.wire = envelope' := by
          have heq := hc'.read.symm.trans hread'
          injection heq with heq
          injection heq
        refine ⟨hp.wire, fun key' hkey' => ?_⟩
        rw [hwire] at hkey'
        cases hkey'
        rfl
      · refine (order?_of_read hc'.read).trans ?_
        rw [order?_of_read hread, hwire, hkey]
      · exact (hkeyed key hkey).symm
    · exact .inl (hans.sent_own hretry)
  · exact .inl (deliver_unread fun envelope h => hread ⟨envelope, h⟩).1

end Copies

section Order

variable {m : Subscriber} {s s' : Partition}

/-- Of two records of one order the first goes back to the earlier publication. -/
def Before (m : Subscriber) (a b : Entry) : Prop :=
  ∀ o, m.order? a.record = some o → m.order? b.record = some o → a.origin < b.origin

/-- The handlers of every order have completed in the order of publication. -/
def CompletedInOrder (m : Subscriber) (s : Partition) : Prop := s.completed.Pairwise (Before m)

/-- A delivery that is going to be republished comes to its end only while no other record
of its order waits in the partition. -/
def Uncrowded (m : Subscriber) (s : Partition) (a : PartitionAct) : Prop :=
  a = .finish → ∀ h o, s.current = some h → h.result.isSome = true →
    m.Republishes h.entry.record → m.order? h.entry.record = some o →
    ∀ e ∈ s.pending, m.order? e.record ≠ some o

/-- The completed records, and behind them those that wait, stand in order. -/
structure Lined (m : Subscriber) (s : Partition) : Prop where
  fit : ∀ e ∈ s.waiting, m.Fit e.record
  fresh : ∀ e ∈ s.completed ++ s.waiting, e.origin < s.published
  line : (s.completed ++ s.waiting).Pairwise (Before m)

/-- Nothing is lost from the line that stays in its place. -/
theorem Lined.of_sublist (h : Lined m s) (hpublished : s'.published = s.published)
    (hwaiting : s'.waiting.Sublist s.waiting)
    (hline : (s'.completed ++ s'.waiting).Sublist (s.completed ++ s.waiting)) : Lined m s' := by
  refine ⟨fun e he => h.fit e (hwaiting.subset he), fun e he => ?_, h.line.sublist hline⟩
  rw [hpublished]
  exact h.fresh e (hline.subset he)

/-- A copy at the tail takes the place of its record, if no other of its order is behind. -/
theorem Lined.requeue (h : Lined m s) {handling : Handling} (hcur : s.current = some handling)
    {copy : KafkaRecord} (hfit : m.Fit copy)
    (horder : m.order? copy = m.order? handling.entry.record)
    (hfree : ∀ o, m.order? handling.entry.record = some o →
      ∀ e ∈ s.pending, m.order? e.record ≠ some o) :
    Lined m { s with
      current := none
      pending := s.pending ++ [{ handling.entry with record := copy }] } := by
  let requeued : Entry := { handling.entry with record := copy }
  have hwaiting : s.waiting = handling.entry :: s.pending := by
    rw [Partition.waiting, hcur]
    rfl
  obtain ⟨hfits, hfresh, hline⟩ := h
  rw [hwaiting] at hfits hfresh hline
  have hsub : (s.completed ++ s.pending).Sublist (s.completed ++ handling.entry :: s.pending) :=
    (List.Sublist.refl _).append (List.sublist_cons_self _ _)
  have hentry : handling.entry ∈ s.completed ++ handling.entry :: s.pending :=
    List.mem_append_right _ List.mem_cons_self
  constructor
  · intro e he
    change e ∈ s.pending ++ [requeued] at he
    rcases List.mem_append.mp he with he | he
    · exact hfits e (List.mem_cons_of_mem _ he)
    · rw [List.mem_singleton.mp he]
      exact hfit
  · intro e he
    change e ∈ s.completed ++ (s.pending ++ [requeued]) at he
    rw [← List.append_assoc] at he
    rcases List.mem_append.mp he with he | he
    · exact hfresh e (hsub.subset he)
    · rw [List.mem_singleton.mp he]
      exact hfresh handling.entry hentry
  · change (s.completed ++ (s.pending ++ [requeued])).Pairwise (Before m)
    rw [← List.append_assoc]
    refine List.pairwise_append.mpr ⟨hline.sublist hsub, List.pairwise_singleton _ _, ?_⟩
    intro a ha b hb
    rw [List.mem_singleton.mp hb]
    intro o hoa hob
    have ho : m.order? handling.entry.record = some o := horder.symm.trans hob
    rcases List.mem_append.mp ha with ha | ha
    · exact (List.pairwise_append.mp hline).2.2 a ha handling.entry List.mem_cons_self o hoa ho
    · exact absurd hoa (hfree o ho a ha)

theorem Lined.publish (h : Lined m s) {record : KafkaRecord} (hfit : m.Fit record) :
    Lined m { s with
      pending := s.pending ++ [⟨s.published, record⟩]
      published := s.published + 1 } := by
  have hwaiting : Partition.waiting { s with
      pending := s.pending ++ [⟨s.published, record⟩]
      published := s.published + 1 } = s.waiting ++ [⟨s.published, record⟩] := by
    rw [Partition.waiting, Partition.waiting, List.append_assoc]
  have hsplit : s.completed ++ (s.waiting ++ [⟨s.published, record⟩]) =
      (s.completed ++ s.waiting) ++ [⟨s.published, record⟩] := (List.append_assoc _ _ _).symm
  constructor
  · intro e he
    rw [hwaiting] at he
    rcases List.mem_append.mp he with he | he
    · exact h.fit e he
    · rw [List.mem_singleton.mp he]
      exact hfit
  · intro e he
    rw [hwaiting, hsplit] at he
    rcases List.mem_append.mp he with he | he
    · exact Nat.lt_succ_of_lt (h.fresh e he)
    · rw [List.mem_singleton.mp he]
      exact Nat.lt_succ_self _
  · rw [hwaiting, hsplit]
    refine List.pairwise_append.mpr ⟨h.line, List.pairwise_singleton _ _, ?_⟩
    intro a ha b hb o _ _
    rw [List.mem_singleton.mp hb]
    exact h.fresh a ha

/-- A delivery that republishes nothing leaves the line as it is, or shorter. -/
theorem Lined.settle (h : Lined m s) {handling : Handling} (hcur : s.current = some handling)
    (hsent : (m.group.deliver handling.proc handling.result handling.entry.record).sent m.topic =
      []) : Lined m (s.finish m handling) := by
  let d := m.group.deliver handling.proc handling.result handling.entry.record
  have hwaiting : s.waiting = handling.entry :: s.pending := by
    rw [Partition.waiting, hcur]
    rfl
  have hafter : (s.finish m handling).waiting =
      (if d.rejected then [handling.entry] else []) ++ s.pending := by
    rw [Partition.finish, Partition.waiting, hsent, List.map_nil, List.append_nil]
    rfl
  have hcompleted : (s.finish m handling).completed =
      if d.succeeded then s.completed ++ [handling.entry] else s.completed := rfl
  have hkept : s.pending.Sublist s.waiting := by
    rw [hwaiting]
    exact List.sublist_cons_self _ _
  cases hrejected : d.rejected with
  | true =>
    have hfailed : d.succeeded = false := by
      unfold Delivery.rejected at hrejected
      unfold Delivery.succeeded
      split at hrejected
      · cases hrejected
      · rfl
    rw [hrejected, if_pos rfl, List.singleton_append, ← hwaiting] at hafter
    rw [hfailed, if_neg Bool.false_ne_true] at hcompleted
    refine h.of_sublist rfl (hafter ▸ List.Sublist.refl _) ?_
    rw [hafter, hcompleted]
  | false =>
    rw [hrejected, if_neg Bool.false_ne_true, List.nil_append] at hafter
    refine h.of_sublist rfl (hafter ▸ hkept) ?_
    rw [hafter, hcompleted]
    split_ifs
    · rw [hwaiting, List.append_assoc, List.singleton_append]
    · exact (List.Sublist.refl _).append hkept

/-- The line is kept by every step that lets no copy jump behind its order. -/
theorem Lined.step {a : PartitionAct} (h : Lined m s) (hc : Uncrowded m s a)
    (hstep : Partition.Step m s a s') : Lined m s' := by
  cases hstep with
  | publish hfit => exact h.publish hfit
  | take hnone hpending =>
    have hwaiting : s.waiting = s.pending := by
      rw [Partition.waiting, hnone]
      rfl
    refine h.of_sublist rfl ?_ ?_
    · rw [hwaiting, hpending]
      exact List.Sublist.refl _
    · rw [hwaiting, hpending]
      exact List.Sublist.refl _
  | @finish handling hcur =>
    have hfit : m.Fit handling.entry.record := by
      refine h.fit _ ?_
      rw [Partition.waiting, hcur]
      exact List.mem_cons_self
    rcases sent_cases handling.proc handling.result hfit with hnone | hcopy
    · exact h.settle hcur hnone
    · obtain ⟨hfailed, hack, hresult, hagain, -, copy, hsent, hcopy, horder, -⟩ := hcopy
      have hnext : s.finish m handling = { s with
          current := none
          pending := s.pending ++ [{ handling.entry with record := copy }] } := by
        rw [Partition.finish, hsent, hfailed, hack]
        rfl
      rw [hnext]
      exact h.requeue hcur hcopy horder fun o ho => hc rfl handling o hcur hresult hagain ho

theorem lined_empty : Lined m .empty :=
  ⟨fun _ h => absurd h List.not_mem_nil, fun _ h => absurd h List.not_mem_nil, .nil⟩

/-- Whatever is published, and whichever handlers fail: as long as no copy is put behind
another record of its order, the handlers of every order complete in its order. -/
theorem in_order_of_uncrowded {as : List PartitionAct}
    (hrun : RunWhere (Partition.Step m) (Uncrowded m) .empty as s) : CompletedInOrder m s := by
  have hlined : Lined m s := hrun.invariant lined_empty fun _ _ _ h hc hstep => h.step hc hstep
  exact (List.pairwise_append.mp hlined.line).1

end Order

section Jump

variable {m : Subscriber} {s : Partition} {e : Entry} {o : String}

theorem read_of_order {r : KafkaRecord} (ho : m.order? r = some o) :
    ∃ envelope, m.method.read r.value = .ok (.accepted envelope) ∧
      resolvePartitionKey envelope = .ok o := by
  unfold Subscriber.order? at ho
  split at ho
  · next envelope hread =>
    refine ⟨envelope, hread, ?_⟩
    cases hkey : resolvePartitionKey envelope with
    | ok key =>
      rw [hkey] at ho
      cases ho
      rfl
    | error e =>
      rw [hkey] at ho
      cases ho
  · cases ho

/-- A handler that completes ends its record. -/
theorem finish_success (proc : Process) (ho : m.order? e.record = some o) :
    s.finish m ⟨e, proc, none⟩ =
      { s with current := none, completed := s.completed ++ [e] } := by
  obtain ⟨envelope, hread, -⟩ := read_of_order ho
  have hc : Carries m.group e.record envelope _ := carries_any hread
  have hans := deliver_answers hc proc none m.isFinite_policy
  have hack : (m.group.deliver proc none e.record).result = .ok (ackOutcome "success") :=
    hans.result
  have hnone : (m.group.deliver proc none e.record).sent m.topic = [] :=
    hans.sent_nil (by intro h; cases h) (by intro h; cases h) _
  have hsucceeded : (m.group.deliver proc none e.record).succeeded = true := by
    rw [Delivery.succeeded, hack]
    rfl
  have hrejected : (m.group.deliver proc none e.record).rejected = false := by
    rw [Delivery.rejected, hack]
  simp only [Partition.finish, hnone, hsucceeded, hrejected, if_true, Bool.false_eq_true, if_false,
    List.nil_append, List.map_nil, List.append_nil]

/-- A handler that fails with attempts left puts a copy of its record at the tail. -/
theorem finish_retry (proc : Process) (error : HandlerError) (hfit : m.Fit e.record)
    (ho : m.order? e.record = some o) (hagain : m.Republishes e.record) :
    ∃ copy, m.Fit copy ∧ m.order? copy = some o ∧
      s.finish m ⟨e, proc, some error⟩ =
        { s with current := none, pending := s.pending ++ [{ e with record := copy }] } := by
  obtain ⟨envelope, hread, hkey⟩ := read_of_order ho
  have hc : Carries m.group e.record envelope _ := carries_any hread
  obtain ⟨key, -, hone, -⟩ := (deliver_answers hc proc (some error) m.isFinite_policy).sent_retry
    (reply_of_republishes hread hkey hagain)
  rcases sent_cases proc (some error) hfit with hnone | hcopy
  · exact absurd (hone.symm.trans hnone) (List.cons_ne_nil _ _)
  · obtain ⟨hfailed, hack, -, -, -, copy, hsent, hcopy, horder, -⟩ := hcopy
    refine ⟨copy, hcopy, horder.trans ho, ?_⟩
    simp only [Partition.finish, hsent, hfailed, hack, Bool.false_eq_true, if_false,
      List.nil_append, List.map_cons, List.map_nil]

/-- Of two records of an order the first fails once and completes last. -/
theorem jumped_run (m : Subscriber) {a b : KafkaRecord} (proc : Process) (error : HandlerError)
    (ha : m.Fit a) (hb : m.Fit b) (hoa : m.order? a = some o) (hob : m.order? b = some o)
    (hagain : m.Republishes a) :
    ∃ as t, Run (Partition.Step m) .empty as t ∧ ¬ CompletedInOrder m t := by
  let first : Entry := ⟨0, a⟩
  let second : Entry := ⟨1, b⟩
  let waiting : Partition := ⟨[second], 2, some ⟨first, proc, some error⟩, []⟩
  obtain ⟨copy, hcopy, hoc, hrequeued⟩ : ∃ copy, m.Fit copy ∧ m.order? copy = some o ∧
      waiting.finish m ⟨first, proc, some error⟩ = ⟨[second, ⟨0, copy⟩], 2, none, []⟩ :=
    finish_retry proc error ha hoa hagain
  let jumped : Partition := ⟨[⟨0, copy⟩], 2, some ⟨second, proc, none⟩, []⟩
  let last : Partition := ⟨[], 2, some ⟨⟨0, copy⟩, proc, none⟩, [second]⟩
  have hsecond : jumped.finish m ⟨second, proc, none⟩ = ⟨[⟨0, copy⟩], 2, none, [second]⟩ :=
    finish_success proc hob
  have hlast : last.finish m ⟨⟨0, copy⟩, proc, none⟩ = ⟨[], 2, none, [second, ⟨0, copy⟩]⟩ :=
    finish_success proc hoc
  have hfails : Run (Partition.Step m) .empty _ (waiting.finish m ⟨first, proc, some error⟩) :=
    .cons trivial (.publish ha) <| .cons trivial (.publish hb) <|
      .cons trivial (.take rfl rfl) <| .single trivial (.finish rfl)
  rw [hrequeued] at hfails
  have hovertakes : Run (Partition.Step m) _ _ (jumped.finish m ⟨second, proc, none⟩) :=
    hfails.trans <| .cons trivial (.take rfl rfl) <| .single trivial (.finish rfl)
  rw [hsecond] at hovertakes
  have hends : Run (Partition.Step m) _ _ (last.finish m ⟨⟨0, copy⟩, proc, none⟩) :=
    hovertakes.trans <| .cons trivial (.take rfl rfl) <| .single trivial (.finish rfl)
  rw [hlast] at hends
  refine ⟨_, _, hends, fun hin => ?_⟩
  have hlt : 1 < 0 := (List.pairwise_cons.mp hin).1 _ (List.mem_singleton_self _) o hob hoc
  exact absurd hlt (by decide)

/-- stock-service, as it handles cancellations. -/
def cancellations : Subscriber := ⟨.stockOrderCancelled, noEnv, .documented⟩

theorem fit_cancelledRecord : cancellations.Fit cancelledRecord := by
  intro envelope hread
  have hcancelled : cancellations.method.read cancelledRecord.value =
      .ok (.accepted cancelledEnvelope) := rfl
  rw [hcancelled] at hread
  cases hread
  refine ⟨parsed_cancelledEnvelope, fun key hkey => ?_⟩
  rw [key_cancelledEnvelope] at hkey
  cases hkey
  rfl

theorem order_cancelledRecord : cancellations.order? cancelledRecord = some "o-1" := by
  decide +kernel

theorem republishes_cancelledRecord : cancellations.Republishes cancelledRecord := by
  refine ⟨by decide +kernel, fun envelope hread => ?_⟩
  have hcancelled : cancellations.method.read cancelledRecord.value =
      .ok (.accepted cancelledEnvelope) := rfl
  rw [hcancelled] at hread
  cases hread
  exact answerable_cancelledEnvelope _ _ _

/-- A retry with nothing behind it, and a second record that comes after the copy. -/
theorem in_order_of_uncrowded_retried : ∃ as s,
    RunWhere (Partition.Step cancellations) (Uncrowded cancellations) .empty as s ∧
      s.completed.map Entry.origin = [0, 1] ∧ CompletedInOrder cancellations s := by
  let m : Subscriber := cancellations
  let r : KafkaRecord := cancelledRecord
  let proc : Process := .still .first .half
  let failing : Partition := ⟨[], 1, some ⟨⟨0, r⟩, proc, some gatewayDown⟩, []⟩
  obtain ⟨copy, hcopy, hoc, hrequeued⟩ : ∃ copy, m.Fit copy ∧ m.order? copy = some "o-1" ∧
      failing.finish m ⟨⟨0, r⟩, proc, some gatewayDown⟩ = ⟨[⟨0, copy⟩], 1, none, []⟩ :=
    finish_retry proc gatewayDown fit_cancelledRecord order_cancelledRecord
      republishes_cancelledRecord
  let retried : Partition := ⟨[⟨1, r⟩], 2, some ⟨⟨0, copy⟩, proc, none⟩, []⟩
  let last : Partition := ⟨[], 2, some ⟨⟨1, r⟩, proc, none⟩, [⟨0, copy⟩]⟩
  have hretried : retried.finish m ⟨⟨0, copy⟩, proc, none⟩ = ⟨[⟨1, r⟩], 2, none, [⟨0, copy⟩]⟩ :=
    finish_success proc hoc
  have hlast : last.finish m ⟨⟨1, r⟩, proc, none⟩ = ⟨[], 2, none, [⟨0, copy⟩, ⟨1, r⟩]⟩ :=
    finish_success proc order_cancelledRecord
  have hpublish : ∀ s r, Uncrowded m s (.publish r) := fun _ _ => nofun
  have htake : ∀ s proc result, Uncrowded m s (.take proc result) := fun _ _ _ => nofun
  -- only the failing handler has to look behind itself, and there is nothing there
  have halone : Uncrowded m failing .finish := fun _ _ _ _ _ _ _ e he => absurd he List.not_mem_nil
  have hsucceeds : ∀ {s : Partition} {e : Entry}, s.current = some ⟨e, proc, none⟩ →
      Uncrowded m s .finish := by
    intro s e hcur _ h o hh hfailed
    rw [hcur] at hh
    cases hh
    cases hfailed
  have hfails : RunWhere (Partition.Step m) (Uncrowded m) .empty _
      (failing.finish m ⟨⟨0, r⟩, proc, some gatewayDown⟩) :=
    .cons (hpublish _ r) (.publish fit_cancelledRecord) <| .cons (htake _ _ _) (.take rfl rfl) <|
      .single halone (.finish rfl)
  rw [hrequeued] at hfails
  have hagain : RunWhere (Partition.Step m) (Uncrowded m) _ _
      (retried.finish m ⟨⟨0, copy⟩, proc, none⟩) :=
    hfails.trans <| .cons (hpublish _ r) (.publish fit_cancelledRecord) <|
      .cons (htake _ _ _) (.take rfl rfl) <| .single (hsucceeds rfl) (.finish rfl)
  rw [hretried] at hagain
  have hends : RunWhere (Partition.Step m) (Uncrowded m) _ _ (last.finish m ⟨⟨1, r⟩, proc, none⟩) :=
    hagain.trans <| .cons (htake _ _ _) (.take rfl rfl) <| .single (hsucceeds rfl) (.finish rfl)
  rw [hlast] at hends
  exact ⟨_, _, hends, rfl, in_order_of_uncrowded hends⟩

/-- A cancellation that fails once completes behind one published after it. -/
theorem retry_reorders : ¬ ∀ as s, Run (Partition.Step cancellations) .empty as s →
    CompletedInOrder cancellations s := by
  intro hall
  obtain ⟨as, s, hrun, hjumped⟩ := jumped_run cancellations (.still .first .half) gatewayDown
    fit_cancelledRecord fit_cancelledRecord order_cancelledRecord order_cancelledRecord
    republishes_cancelledRecord
  exact hjumped (hall as s hrun)

end Jump

end EventFlow.Retry
