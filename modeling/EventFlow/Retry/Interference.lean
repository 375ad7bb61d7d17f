import EventFlow.Retry.Groups
import Mathlib.Data.List.Perm.Subperm

namespace EventFlow.Retry

open Js Shared Services KafkaRetryExecutor TopicState

section Sums

variable {ι : Type} [Fintype ι] [DecidableEq ι]

/-- One more attempt of one member, summed over all of them. -/
theorem sum_attempt (f : ι → ℕ → ℕ) (k : ι → ℕ) (i : ι) {δ : ℕ}
    (h : f i (k i + 1) = f i (k i) + δ) :
    ∑ x, f x (Function.update k i (k i + 1) x) = (∑ x, f x (k x)) + δ := by
  have hrest : ∑ x ∈ Finset.univ.erase i, f x (Function.update k i (k i + 1) x) =
      ∑ x ∈ Finset.univ.erase i, f x (k x) := by
    refine Finset.sum_congr rfl fun x hx => ?_
    rw [Function.update_of_ne (Finset.ne_of_mem_erase hx)]
  have hall : f i (k i) + ∑ x ∈ Finset.univ.erase i, f x (k x) = ∑ x, f x (k x) :=
    Finset.add_sum_erase Finset.univ (fun x => f x (k x)) (Finset.mem_univ i)
  rw [← Finset.add_sum_erase _ _ (Finset.mem_univ i), hrest, Function.update_self, h]
  omega

end Sums

section State

variable {ι : Type} [DecidableEq ι] {s : TopicState ι} {topic : String} {i : ι} {j : ℕ}
  {d : Delivery}

theorem attempts_deliver :
    (s.deliver topic i j d).attempts = Function.update s.attempts i (s.attempts i + 1) := by
  funext x
  by_cases hx : x = i
  · subst hx
    simp [attempts, TopicState.deliver]
  · simp [attempts, TopicState.deliver, hx]

theorem offsets_deliver (x : ι) : (s.deliver topic i j d).offsets x =
    if x = i then s.offsets i ++ [j] else s.offsets x := by
  by_cases hx : x = i
  · subst hx
    simp [offsets, TopicState.deliver]
  · simp [offsets, TopicState.deliver, hx]

theorem runs_deliver (x : ι) : (s.deliver topic i j d).runs x =
    if x = i then s.runs i + d.ops.countP isHandler else s.runs x := by
  have happ : ∀ ds : List Delivery, handlerRuns (ds ++ [d]) =
      handlerRuns ds + d.ops.countP isHandler := by
    intro ds
    rw [handlerRuns, List.map_append, List.sum_append]
    simp only [List.map_cons, List.map_nil, List.sum_cons, List.sum_nil, Nat.add_zero]
    rfl
  by_cases hx : x = i
  · subst hx
    simp [runs, TopicState.deliver, happ]
  · simp [runs, TopicState.deliver, hx]

/-- How the last attempt of a group ended. -/
def TopicState.result (s : TopicState ι) (i : ι) : Option (Except JsThrow JsVal) :=
  (s.deliveries i).getLast?.map fun p => p.2.result

theorem result_deliver (x : ι) : (s.deliver topic i j d).result x =
    if x = i then some d.result else s.result x := by
  by_cases hx : x = i
  · subst hx
    simp [TopicState.result, TopicState.deliver]
  · simp [TopicState.result, TopicState.deliver, hx]

end State

section Runs

variable {ι : Type} [DecidableEq ι] {a : Audience ι} {script : ι → ℕ → Option HandlerError}
  {record : KafkaRecord} {envelope : JsVal} {s s' : TopicState ι} {ls : List (ι × ℕ × Process)}

/-- A record that every group reads as the message after so many retries. -/
def Held (a : Audience ι) (envelope : JsVal) (record : KafkaRecord) (c : ℕ) : Prop :=
  ∀ i, Carries (a.member i).group record (trips envelope c) (.counted c)

/-- What holds of the topic at any time. -/
structure TopicInv (a : Audience ι) (envelope : JsVal) (s : TopicState ι) : Prop where
  held : ∀ r ∈ s.records, ∃ c, Held a envelope r c
  nodup : ∀ i, (s.offsets i).Nodup
  bound : ∀ i, ∀ j ∈ s.offsets i, j < s.records.length
  runs : ∀ i, s.runs i = s.attempts i

omit [DecidableEq ι] in
theorem Audience.topic_eq (a : Audience ι) (i : ι) :
    (a.member i).topic = resolveKafkaTopic a.eventType := by
  rw [Subscriber.topic, a.same i]

/-- What one delivery of a held record does to the topic. -/
structure Handed (a : Audience ι) (script : ι → ℕ → Option HandlerError) (envelope : JsVal)
    (s s' : TopicState ι) (i : ι) (c : ℕ) (d : Delivery) : Prop where
  runs : d.ops.countP isHandler = 1
  result : d.result = ack ((a.member i).reply envelope c (script i (s.attempts i)))
  copies : s'.records.length = s.records.length +
    (isOutcome .retry ((a.member i).reply envelope c (script i (s.attempts i)))).toNat
  dead : s'.dead.length = s.dead.length +
    (isOutcome .dlq ((a.member i).reply envelope c (script i (s.attempts i)))).toNat
  grows : ∃ added, s'.records = s.records ++ added ∧ ∀ r ∈ added, Held a envelope r (c + 1)

/-- Every step hands one undelivered record to one group. -/
theorem step_handed (hp : Parsed envelope) {i : ι} {j : ℕ} {proc : Process}
    (hstep : TopicStep a script s (i, j, proc) s') :
    ∃ r d, s.records[j]? = some r ∧ j ∉ s.offsets i ∧
      s' = s.deliver (resolveKafkaTopic a.eventType) i j d ∧
      ∀ c, Held a envelope r c → Handed a script envelope s s' i c d := by
  cases hstep with
  | deliver hr hj =>
    rename_i r
    refine ⟨r, _, hr, hj, rfl, fun c hheld => ?_⟩
    have hans := deliver_answers (hheld i) proc (script i (s.attempts i)) (a.member i).isFinite_policy
    have hcopies := hans.copies
    have hdead := hans.dead
    have hresult := hans.result
    have htopic : resolveKafkaTopic (a.member i).group.eventType = resolveKafkaTopic a.eventType :=
      a.topic_eq i
    rw [Number.succ_counted] at hcopies hdead hresult
    rw [htopic] at hcopies hdead
    refine ⟨hans.runs, hresult, ?_, ?_, _, rfl, fun r' hr' => ?_⟩
    · rw [TopicState.deliver, List.length_append, hcopies]
      rfl
    · rw [TopicState.deliver, List.length_append, hdead]
      rfl
    · rw [← htopic] at hr'
      obtain ⟨-, key, -, rfl⟩ := hans.copy hr'
      intro x
      rw [Number.succ_counted, ← trips_wire]
      exact carries_retryRecord (hheld x) (hp.trips c) (Number.isCount_counted _)

theorem topicInv_step (hp : Parsed envelope) {l : ι × ℕ × Process} (hinv : TopicInv a envelope s)
    (hstep : TopicStep a script s l s') : TopicInv a envelope s' := by
  obtain ⟨i, j, proc⟩ := l
  obtain ⟨r, d, hr, hj, rfl, hhanded⟩ := step_handed hp hstep
  obtain ⟨c, hheld⟩ := hinv.held r (List.mem_of_getElem? hr)
  have hd := hhanded c hheld
  obtain ⟨added, hadded, hnew⟩ := hd.grows
  have hjlt : j < s.records.length := (List.getElem?_eq_some_iff.mp hr).1
  have hle : s.records.length ≤
      (s.deliver (resolveKafkaTopic a.eventType) i j d).records.length := by
    rw [hd.copies]
    exact Nat.le_add_right _ _
  refine ⟨fun r' hr' => ?_, fun x => ?_, fun x k hk => ?_, fun x => ?_⟩
  · rw [hadded] at hr'
    rcases List.mem_append.mp hr' with hold | hmem
    · exact hinv.held r' hold
    · exact ⟨c + 1, hnew r' hmem⟩
  · rw [offsets_deliver]
    split_ifs with hx
    · refine List.nodup_append.mpr ⟨hinv.nodup i, List.nodup_singleton j, fun p hp q hq => ?_⟩
      rw [List.mem_singleton.mp hq]
      intro heq
      exact hj (heq ▸ hp)
    · exact hinv.nodup x
  · rw [offsets_deliver] at hk
    split_ifs at hk with hx
    · rcases List.mem_append.mp hk with hold | hlast
      · exact (hinv.bound i k hold).trans_le hle
      · rw [List.mem_singleton.mp hlast]
        exact hjlt.trans_le hle
    · exact (hinv.bound x k hk).trans_le hle
  · rw [runs_deliver, attempts_deliver]
    by_cases hx : x = i
    · subst hx
      rw [if_pos rfl, Function.update_self, hinv.runs, hd.runs]
    · rw [if_neg hx, Function.update_of_ne hx, hinv.runs]

omit [DecidableEq ι] in
theorem held_fresh (hread : ∀ i, (a.member i).method.read record.value = .ok (.accepted envelope))
    (hfresh : Fresh record) : Held a envelope record 0 := fun i => carries_fresh (hread i) hfresh

omit [DecidableEq ι] in
theorem topicInv_init (hheld : Held a envelope record 0) : TopicInv a envelope (init record) := by
  refine ⟨fun r hr => ⟨0, ?_⟩, fun _ => List.nodup_nil, fun _ j hj => absurd hj List.not_mem_nil,
    fun _ => rfl⟩
  obtain rfl : r = record := List.mem_singleton.mp hr
  exact hheld

theorem topicInv_run (hp : Parsed envelope) (hheld : Held a envelope record 0)
    (hrun : Run (TopicStep a script) (init record) ls s) : TopicInv a envelope s :=
  hrun.invariant (topicInv_init hheld) fun _ _ _ h _ hstep => topicInv_step hp h hstep

omit [DecidableEq ι] in
/-- When every record has reached every group, each has run once for each record. -/
theorem attempts_eq_of_complete (hinv : TopicInv a envelope s) (hcomplete : s.Complete) (i : ι) :
    s.attempts i = s.records.length := by
  have hlen : (s.offsets i).length = s.attempts i := List.length_map _
  have hle : (s.offsets i).Subperm (List.range s.records.length) :=
    List.subperm_of_subset (hinv.nodup i) fun j hj => List.mem_range.mpr (hinv.bound i j hj)
  have hge : (List.range s.records.length).Subperm (s.offsets i) :=
    List.subperm_of_subset List.nodup_range fun j hj => hcomplete i j (List.mem_range.mp hj)
  have h₁ := hle.length_le
  have h₂ := hge.length_le
  rw [List.length_range] at h₁ h₂
  omega

end Runs

section Alone

variable {ι : Type} {a : Audience ι} {script : ι → ℕ → Option HandlerError} {record : KafkaRecord}
  {envelope : JsVal} {procs : ι → ℕ → Process}

/-- The deliveries of a group that has the topic to itself, up to the last. -/
def Audience.Alone (a : Audience ι) (procs : ι → ℕ → Process)
    (script : ι → ℕ → Option HandlerError) (record : KafkaRecord) (i : ι) (ds : List Delivery) :
    Prop :=
  ∃ fuel, ∀ more, fuel ≤ more →
    (a.member i).group.chain (procs i) (script i) more 0 [record] = ds

/-- A chain of retries only is as long as one likes. -/
theorem length_chain {m : Subscriber} {steps : ℕ → Process} {result : ℕ → Option HandlerError}
    (hp : Parsed envelope) (fuel n : ℕ) {r : KafkaRecord}
    (hc : Carries m.group r (trips envelope n) (.counted n))
    (hall : ∀ j, m.reply envelope (n + j) (result (n + j)) = .ok .retry) :
    (m.group.chain steps result fuel n [r]).length = fuel := by
  induction fuel generalizing n r with
  | zero => rfl
  | succ fuel ih =>
    have hfirst := hall 0
    rw [Subscriber.reply, ← Number.succ_counted] at hfirst
    obtain ⟨copy, hcopy, hchain⟩ := chain_retry_trips hc hp
      m.isFinite_policy hfirst
    rw [Number.succ_counted] at hcopy
    rw [hchain, List.length_cons, ih (n + 1) hcopy]
    intro j
    have hnext := hall (j + 1)
    rwa [show n + (j + 1) = n + 1 + j by omega] at hnext

/-- A chain that comes to an end does so at the first reply that is not another attempt. -/
theorem alone_spec (hp : Parsed envelope) {i : ι} {ds : List Delivery}
    (hc : Carries (a.member i).group record envelope 0) (halone : a.Alone procs script record i ds) :
    ∃ n, (∀ j < n, (a.member i).reply envelope j (script i j) = .ok .retry) ∧
      (a.member i).reply envelope n (script i n) ≠ .ok .retry ∧ handlerRuns ds = n + 1 ∧
      ds.getLast?.map Delivery.result =
        some (ack ((a.member i).reply envelope n (script i n))) := by
  obtain ⟨fuel, hds⟩ := halone
  have hends : ∃ n, (a.member i).reply envelope n (script i n) ≠ .ok .retry := by
    by_contra hnever
    rw [not_exists] at hnever
    have hlong : ((a.member i).group.chain (procs i) (script i) (ds.length + fuel + 1) 0
        [record]).length = ds.length + fuel + 1 :=
      length_chain hp (ds.length + fuel + 1) 0 hc fun j => not_not.mp (hnever (0 + j))
    rw [hds _ (by omega)] at hlong
    omega
  refine ⟨Nat.find hends, fun j hj => not_not.mp (Nat.find_min hends hj), Nat.find_spec hends, ?_⟩
  have hsolo := solo_chain (procs i) (fuel + Nat.find hends + 1) hp hc
    (fun j hj => not_not.mp (Nat.find_min hends hj)) (Nat.find_spec hends) (by omega)
  rw [hds _ (by omega)] at hsolo
  exact hsolo.2

/-- It does come to an end if there is such a reply. -/
theorem alone_of_end (hp : Parsed envelope) {i : ι} {n : ℕ}
    (hc : Carries (a.member i).group record envelope 0)
    (hall : ∀ j < n, (a.member i).reply envelope j (script i j) = .ok .retry)
    (hend : (a.member i).reply envelope n (script i n) ≠ .ok .retry) :
    ∃ ds, a.Alone procs script record i ds := by
  have hsolo := solo_chain (procs i) (n + 2) hp hc hall hend (by omega)
  exact ⟨_, n + 2, fun more hmore => chain_stable (by omega) hmore⟩

/-- Whether the last acknowledgement says that the message went to the companion topic. -/
def exhausted (ds : List Delivery) : Bool :=
  match ds.getLast?.map Delivery.result with
  | some (.ok reply) => (reply.get "outcome").strictEq (.str RetryOutcome.dlq.value)
  | _ => false

theorem exhausted_eq {ds : List Delivery} {x : Except JsThrow RetryOutcome}
    (h : ds.getLast?.map Delivery.result = some (ack x)) :
    exhausted ds = isOutcome .dlq x := by
  rw [exhausted, h]
  cases x with
  | error e => rfl
  | ok o => cases o <;> decide

/-- The first attempt leaves no copy: it succeeds, it is the last one allowed, the envelope has
no key or ids that cannot be logged, the producer makes no attempt, or the client cannot encode
the headers. -/
def FirstRoundEnds (m : Subscriber) (envelope : JsVal) (first : Option HandlerError) : Prop :=
  first = none ∨ shouldRetry 1 m.policy = false ∨
    (∀ key, resolvePartitionKey envelope ≠ .ok key) ∨ ¬ Loggable envelope ∨
      producerAllowed m.method.service m.env = false ∨
        ¬ m.drivers.Encodes (envelopeToKafkaHeaders envelope)

theorem firstRoundEnds_iff {m : Subscriber} {first : Option HandlerError} :
    FirstRoundEnds m envelope first ↔ m.reply envelope 0 first ≠ .ok .retry := by
  have hone : Number.counted (0 + 1) = 1 := rfl
  have hreply : m.reply envelope 0 first = .ok .retry ↔ first.isSome = true ∧
      shouldRetry 1 m.policy = true ∧ (∃ key, resolvePartitionKey envelope = .ok key) ∧
        Loggable envelope ∧ producerAllowed m.method.service m.env = true ∧
          m.drivers.Encodes (envelopeToKafkaHeaders envelope) := by
    rw [Subscriber.reply, hone, reply_retry_iff]
    refine and_congr_right fun _ => and_congr_right fun hretry => and_congr_right fun _ => ?_
    constructor
    · intro h
      obtain ⟨hlog, hallowed, hencodes⟩ := h
      rw [if_pos hretry] at hencodes
      exact ⟨hlog, hallowed, hencodes⟩
    · intro h
      obtain ⟨hlog, hallowed, hencodes⟩ := h
      refine ⟨hlog, hallowed, ?_⟩
      rw [if_pos hretry]
      exact hencodes
  rw [ne_eq, hreply, FirstRoundEnds]
  cases first with
  | none => simp
  | some e =>
    simp only [reduceCtorEq, false_or, Option.isSome_some, true_and, not_and_or, Bool.not_eq_true,
      not_exists]

/-- A group does not notice that there are others: it runs as often and ends as it would alone,
and only groups that exhaust their attempts leave failure records. -/
structure Unaffected [Fintype ι] (s : TopicState ι) (ds : ι → List Delivery) : Prop where
  runs : ∀ i, s.runs i = handlerRuns (ds i)
  result : ∀ i, s.result i = (ds i).getLast?.map Delivery.result
  dead : s.dead.length ≤ (Finset.univ.filter fun i => exhausted (ds i) = true).card

/-- No group notices the others. -/
def Independent [Fintype ι] (a : Audience ι) (procs : ι → ℕ → Process)
    (script : ι → ℕ → Option HandlerError) (record : KafkaRecord) (s : TopicState ι) : Prop :=
  ∃ ds : ι → List Delivery, (∀ i, a.Alone procs script record i (ds i)) ∧ Unaffected s ds

end Alone

section Conservation

variable {ι : Type} [Fintype ι] [DecidableEq ι] {a : Audience ι}
  {script : ι → ℕ → Option HandlerError} {record : KafkaRecord} {envelope : JsVal}
  {s s' : TopicState ι} {ls : List (ι × ℕ × Process)}

/-- The attempts of a group that have failed among its first `k`. -/
def failures (script : ι → ℕ → Option HandlerError) (i : ι) (k : ℕ) : ℕ :=
  (List.range k).countP fun j => (script i j).isSome

omit [Fintype ι] [DecidableEq ι] in
theorem failures_succ (i : ι) (k : ℕ) :
    failures script i (k + 1) = failures script i k + (script i k).isSome.toNat := by
  rw [failures, failures, List.range_succ, List.countP_append, List.countP_singleton]
  cases (script i k).isSome <;> rfl

/-- Every failed attempt leaves a copy for everyone or a failure record. -/
theorem conserved (hp : Parsed envelope)
    (hable : ∀ i c, (a.member i).group.Answerable (trips envelope c) (.counted (c + 1)))
    {key : String} (hkey : resolvePartitionKey envelope = .ok key)
    (hheld : Held a envelope record 0) (hrun : Run (TopicStep a script) (init record) ls s) :
    s.records.length + s.dead.length = 1 + ∑ i, failures script i (s.attempts i) := by
  induction hrun with
  | nil => simp [init, attempts, failures]
  | @snoc ls s s' l hrun' _ hstep ih =>
    obtain ⟨i, j, proc⟩ := l
    have hinv := topicInv_run hp hheld hrun'
    obtain ⟨r, d, hr, -, hs', hhanded⟩ := step_handed hp hstep
    obtain ⟨c, hc⟩ := hinv.held r (List.mem_of_getElem? hr)
    have hd := hhanded c hc
    have hsum := sum_attempt (failures script) s.attempts i (failures_succ i (s.attempts i))
    have hone : (isOutcome .retry
          ((a.member i).reply envelope c (script i (s.attempts i)))).toNat +
        (isOutcome .dlq ((a.member i).reply envelope c (script i (s.attempts i)))).toNat =
          (script i (s.attempts i)).isSome.toNat :=
      Subscriber.outcomes_of_answerable (hable i c) ⟨key, resolvePartitionKey_trips hkey c⟩
    have hattempts : s'.attempts = Function.update s.attempts i (s.attempts i + 1) := by
      rw [hs', attempts_deliver]
    rw [hattempts, hsum, hd.copies, hd.dead]
    omega

/-- When no first attempt leaves a copy, every group takes the one record there is. -/
structure OneRound (a : Audience ι) (script : ι → ℕ → Option HandlerError) (envelope : JsVal)
    (record : KafkaRecord) (s : TopicState ι) : Prop where
  records : s.records = [record]
  attempts : ∀ i, s.attempts i ≤ 1
  result : ∀ i, s.attempts i = 1 →
    s.result i = some (ack ((a.member i).reply envelope 0 (script i 0)))
  dead : s.dead.length = ∑ i, s.attempts i *
    (isOutcome .dlq ((a.member i).reply envelope 0 (script i 0))).toNat

theorem oneRound_run (hp : Parsed envelope) (hheld : Held a envelope record 0)
    (hfirst : ∀ i, (a.member i).reply envelope 0 (script i 0) ≠ .ok .retry)
    (hrun : Run (TopicStep a script) (init record) ls s) : OneRound a script envelope record s := by
  induction hrun with
  | nil =>
    refine ⟨rfl, fun _ => Nat.zero_le 1, fun i h => ?_, by simp [init, attempts]⟩
    change 0 = 1 at h
    omega
  | @snoc ls s s' l hrun' _ hstep ih =>
    obtain ⟨i, j, proc⟩ := l
    have hinv := topicInv_run hp hheld hrun'
    obtain ⟨r, d, hr, hj, hs', hhanded⟩ := step_handed hp hstep
    have hjlt : j < s.records.length := (List.getElem?_eq_some_iff.mp hr).1
    rw [ih.records, List.length_singleton] at hjlt
    obtain rfl : j = 0 := by omega
    rw [ih.records] at hr
    obtain rfl : record = r := Option.some.inj hr
    -- The group has not had the record yet, so this is its first attempt.
    have hzero : s.attempts i = 0 := by
      by_contra hne
      have hpos : 0 < (s.offsets i).length := by
        rw [offsets, List.length_map]
        exact Nat.pos_of_ne_zero hne
      obtain ⟨k, hk⟩ := List.exists_mem_of_length_pos hpos
      have hlt := hinv.bound i k hk
      rw [ih.records, List.length_singleton] at hlt
      obtain rfl : k = 0 := by omega
      exact hj hk
    have hd := hhanded 0 hheld
    have hresult := hd.result
    have hcopies := hd.copies
    have hdead := hd.dead
    rw [hzero] at hresult hcopies hdead
    rw [isOutcome_eq_false (hfirst i)] at hcopies
    obtain ⟨added, hadded, -⟩ := hd.grows
    have hattempts : s'.attempts = Function.update s.attempts i (s.attempts i + 1) := by
      rw [hs', attempts_deliver]
    refine ⟨?_, fun x => ?_, fun x hx => ?_, ?_⟩
    · rw [hadded, List.length_append, Bool.toNat_false] at hcopies
      have hnil : added = [] := List.length_eq_zero_iff.mp (by omega)
      rw [hadded, hnil, List.append_nil, ih.records]
    · rw [hattempts]
      by_cases hxi : x = i
      · subst hxi
        rw [Function.update_self, hzero]
      · rw [Function.update_of_ne hxi]
        exact ih.attempts x
    · rw [hs', result_deliver]
      by_cases hxi : x = i
      · subst hxi
        rw [if_pos rfl, hresult]
      · rw [hattempts, Function.update_of_ne hxi] at hx
        rw [if_neg hxi]
        exact ih.result x hx
    · let b : ι → ℕ := fun x =>
        (isOutcome .dlq ((a.member x).reply envelope 0 (script x 0))).toNat
      have hsum : ∑ x, Function.update s.attempts i (s.attempts i + 1) x * b x =
          (∑ x, s.attempts x * b x) + b i :=
        sum_attempt (fun x k => k * b x) s.attempts i (Nat.succ_mul _ _)
      rw [hattempts, hsum, hdead, ih.dead]

/-- One group on the topic: its `k`-th attempt is on the `k`-th copy, and all its attempts but
the last have left one. -/
structure InOrder (a : Audience ι) (script : ι → ℕ → Option HandlerError) (envelope : JsVal)
    (i : ι) (s : TopicState ι) : Prop where
  offsets : s.offsets i = List.range (s.attempts i)
  held : ∀ j r, s.records[j]? = some r → Held a envelope r j
  retried : ∀ j, j + 1 < s.attempts i → (a.member i).reply envelope j (script i j) = .ok .retry
  start : s.attempts i = 0 → s.records.length = 1 ∧ s.dead.length = 0
  last : ∀ n, s.attempts i = n + 1 →
    s.result i = some (ack ((a.member i).reply envelope n (script i n))) ∧
      s.records.length = n + 1 +
        (isOutcome .retry ((a.member i).reply envelope n (script i n))).toNat ∧
      s.dead.length = (isOutcome .dlq ((a.member i).reply envelope n (script i n))).toNat

omit [Fintype ι] [DecidableEq ι] in
/-- A record that is still to be taken is the copy that the last attempt has left. -/
theorem InOrder.pending {i : ι} (h : InOrder a script envelope i s) {j : ℕ}
    (hj : j < s.records.length) (hnew : j ∉ s.offsets i) :
    j = s.attempts i ∧ s.records.length = s.attempts i + 1 ∧ s.dead.length = 0 ∧
      ∀ k < s.attempts i, (a.member i).reply envelope k (script i k) = .ok .retry := by
  rw [h.offsets, List.mem_range] at hnew
  cases hk : s.attempts i with
  | zero =>
    obtain ⟨hlen, hdead⟩ := h.start hk
    exact ⟨by omega, hlen, hdead, fun k hk => absurd hk (Nat.not_lt_zero k)⟩
  | succ n =>
    obtain ⟨-, hlen, hdead⟩ := h.last n hk
    have hretry : (a.member i).reply envelope n (script i n) = .ok .retry := by
      by_contra hne
      rw [isOutcome_eq_false hne, Bool.toNat_false] at hlen
      omega
    rw [hretry] at hlen hdead
    have hone : (isOutcome .retry (.ok .retry)).toNat = 1 := rfl
    refine ⟨by omega, by omega, hdead, fun k hlt => ?_⟩
    rcases Nat.lt_succ_iff_lt_or_eq.mp hlt with hlt | rfl
    · exact h.retried k (by omega)
    · exact hretry

omit [Fintype ι] in
theorem inOrder_run {i : ι} [Subsingleton ι] (hp : Parsed envelope) (hheld : Held a envelope record 0)
    (hrun : Run (TopicStep a script) (init record) ls s) : InOrder a script envelope i s := by
  induction hrun with
  | nil =>
    refine ⟨rfl, fun j r hr => ?_, fun j hj => ?_, fun _ => ⟨rfl, rfl⟩, fun n hn => ?_⟩
    · obtain ⟨hj, rfl⟩ := List.getElem?_eq_some_iff.mp hr
      change j < 1 at hj
      obtain rfl : j = 0 := by omega
      exact hheld
    · change j + 1 < 0 at hj
      omega
    · change 0 = n + 1 at hn
      omega
  | @snoc ls s s' l hrun' _ hstep ih =>
    obtain ⟨i', j, proc⟩ := l
    obtain rfl : i' = i := Subsingleton.elim i' i
    obtain ⟨r, d, hr, hj, hs', hhanded⟩ := step_handed hp hstep
    obtain ⟨rfl, hlen, hbefore, hretried⟩ :=
      ih.pending (List.getElem?_eq_some_iff.mp hr).1 hj
    have hd := hhanded _ (ih.held _ r hr)
    obtain ⟨added, hadded, hnew⟩ := hd.grows
    have hattempts : s'.attempts i' = s.attempts i' + 1 := by
      rw [hs', attempts_deliver, Function.update_self]
    have hgrown : s'.records.length = s.records.length + added.length := by
      rw [hadded, List.length_append]
    have hcopies := hd.copies
    have hle : (isOutcome .retry ((a.member i').reply envelope (s.attempts i')
        (script i' (s.attempts i')))).toNat ≤ 1 := Bool.toNat_le _
    refine ⟨?_, fun j r' hr' => ?_, fun j hjlt => ?_, fun hzero => by omega, fun n hn => ?_⟩
    · rw [hs', offsets_deliver, if_pos rfl, ih.offsets, ← hs', hattempts, List.range_succ]
    · rcases Nat.lt_or_ge j s.records.length with hold | hge
      · rw [hadded, List.getElem?_append_left hold] at hr'
        exact ih.held j r' hr'
      · have hj' : j < s'.records.length := (List.getElem?_eq_some_iff.mp hr').1
        obtain rfl : j = s.attempts i' + 1 := by omega
        rw [hadded, List.getElem?_append_right hge] at hr'
        exact hnew r' (List.mem_of_getElem? hr')
    · exact hretried j (by omega)
    · obtain rfl : s.attempts i' = n := by omega
      refine ⟨?_, by omega, ?_⟩
      · rw [hs', result_deliver, if_pos rfl, hd.result]
      · rw [hd.dead, hbefore, Nat.zero_add]

end Conservation

section Theorem

variable {ι : Type} [Fintype ι] [DecidableEq ι] {a : Audience ι}
  {script : ι → ℕ → Option HandlerError} {procs : ι → ℕ → Process} {record : KafkaRecord}
  {envelope : JsVal} {s : TopicState ι} {ls : List (ι × ℕ × Process)}

omit [DecidableEq ι] in
/-- The groups that end in the companion topic, counted through their replies. -/
theorem card_exhausted (ds : ι → List Delivery) {x : ι → Except JsThrow RetryOutcome}
    (h : ∀ i, (ds i).getLast?.map Delivery.result = some (ack (x i))) :
    (Finset.univ.filter fun i => exhausted (ds i) = true).card =
      ∑ i, (isOutcome .dlq (x i)).toNat := by
  rw [Finset.card_filter]
  refine Finset.sum_congr rfl fun i _ => ?_
  rw [exhausted_eq (h i)]
  cases isOutcome .dlq (x i) <;> rfl

/-- A group that can put its first copy back can answer all its attempts. -/
theorem answerable_of_first {m : Subscriber} (hp : Parsed envelope) {first : Option HandlerError}
    (h : m.reply envelope 0 first = .ok .retry) (c : ℕ) :
    m.group.Answerable (trips envelope c) (.counted (c + 1)) := by
  obtain ⟨-, hretry, -, hable⟩ := reply_retry_iff.mp h
  exact hable.trips hp hretry c _

/-- Two groups and a copy: everyone pays for it. -/
theorem not_independent (hcard : 1 < Fintype.card ι) {i₀ : ι}
    (hfirst : (a.member i₀).reply envelope 0 (script i₀ 0) = .ok .retry) (hp : Parsed envelope)
    (hheld : Held a envelope record 0) (hrun : Run (TopicStep a script) (init record) ls s)
    (hcomplete : s.Complete) : ¬ Independent a procs script record s := by
  intro hind
  obtain ⟨ds, halone, hunaffected⟩ := hind
  have hinv := topicInv_run hp hheld hrun
  have hsolo := fun i => alone_spec hp (hheld i) (halone i)
  choose n hall hend hruns hlast using hsolo
  -- All groups have run once for each record, so all would run equally often alone.
  have hn : ∀ i, n i + 1 = s.records.length := by
    intro i
    rw [← hruns i, ← hunaffected.runs i, hinv.runs i, attempts_eq_of_complete hinv hcomplete i]
  have hpos : 0 < n i₀ := by
    by_contra hzero
    have heq : n i₀ = 0 := by omega
    have h := hend i₀
    rw [heq] at h
    exact h hfirst
  have hretry : ∀ i, (a.member i).reply envelope 0 (script i 0) = .ok .retry := by
    intro i
    have h₁ := hn i
    have h₂ := hn i₀
    exact hall i 0 (by omega)
  have hable : ∀ i c, (a.member i).group.Answerable (trips envelope c) (.counted (c + 1)) :=
    fun i c => answerable_of_first hp (hretry i) c
  obtain ⟨key, hkey⟩ := (reply_retry_iff.mp hfirst).2.2.1
  have hconserved := conserved hp hable hkey hheld hrun
  have hdead := hunaffected.dead
  rw [card_exhausted ds hlast] at hdead
  have hfailed : ∀ i, failures script i (s.attempts i) = n i₀ +
      (isOutcome .dlq ((a.member i).reply envelope (n i) (script i (n i)))).toNat := by
    intro i
    have h₁ := hn i
    have h₂ := hn i₀
    have hall' : failures script i (n i) = n i := by
      rw [failures, List.countP_eq_length.mpr, List.length_range]
      intro j hj
      exact (reply_retry_iff.mp (hall i j (List.mem_range.mp hj))).1
    have hlast' : (isOutcome .retry
          ((a.member i).reply envelope (n i) (script i (n i)))).toNat +
        (isOutcome .dlq ((a.member i).reply envelope (n i) (script i (n i)))).toNat =
        (script i (n i)).isSome.toNat :=
      Subscriber.outcomes_of_answerable (hable i (n i)) ⟨key, resolvePartitionKey_trips hkey _⟩
    rw [isOutcome_eq_false (hend i), Bool.toNat_false, Nat.zero_add] at hlast'
    rw [attempts_eq_of_complete hinv hcomplete i, ← h₁, failures_succ, hall', hlast']
    omega
  have hsum : ∑ i, failures script i (s.attempts i) = Fintype.card ι * n i₀ +
      ∑ i, (isOutcome .dlq ((a.member i).reply envelope (n i) (script i (n i)))).toNat := by
    rw [Finset.sum_congr rfl fun i _ => hfailed i, Finset.sum_add_distrib, Finset.sum_const,
      Finset.card_univ, smul_eq_mul]
  have htwice : 2 * n i₀ ≤ Fintype.card ι * n i₀ := Nat.mul_le_mul_right _ hcard
  have h₀ := hn i₀
  rw [hsum] at hconserved
  omega

/-- Where no first attempt leaves a copy, every group takes the message once, as it would alone. -/
theorem independent_of_quiet (hp : Parsed envelope) (hheld : Held a envelope record 0)
    (hquiet : ∀ i, (a.member i).reply envelope 0 (script i 0) ≠ .ok .retry)
    (hrun : Run (TopicStep a script) (init record) ls s) (hcomplete : s.Complete) :
    Independent a procs script record s := by
  have hinv := topicInv_run hp hheld hrun
  have hone := oneRound_run hp hheld hquiet hrun
  have hends : ∀ i, ∃ ds, a.Alone procs script record i ds := fun i =>
    alone_of_end hp (hheld i) (fun j hj => absurd hj (Nat.not_lt_zero j)) (hquiet i)
  choose ds halone using hends
  have hsolo := fun i => alone_spec hp (hheld i) (halone i)
  choose n hall hend hruns hlast using hsolo
  have hattempts : ∀ i, s.attempts i = 1 := by
    intro i
    rw [attempts_eq_of_complete hinv hcomplete i, hone.records, List.length_singleton]
  have hzero : ∀ i, n i = 0 := by
    intro i
    by_contra hne
    exact hquiet i (hall i 0 (Nat.pos_of_ne_zero hne))
  refine ⟨ds, halone, fun i => ?_, fun i => ?_, ?_⟩
  · rw [hinv.runs, hattempts, hruns, hzero]
  · rw [hone.result i (hattempts i), hlast, hzero]
  · rw [card_exhausted ds hlast, hone.dead]
    refine le_of_eq (Finset.sum_congr rfl fun i _ => ?_)
    rw [hattempts, hzero, Nat.one_mul]

/-- A group that is the only one does what it would do alone. -/
theorem independent_of_single (i : ι) [Subsingleton ι] (hp : Parsed envelope)
    (hheld : Held a envelope record 0) (hrun : Run (TopicStep a script) (init record) ls s)
    (hcomplete : s.Complete) : Independent a procs script record s := by
  have hinv := topicInv_run hp hheld hrun
  have horder : InOrder a script envelope i s := inOrder_run hp hheld hrun
  have hattempts := attempts_eq_of_complete hinv hcomplete i
  obtain ⟨n, hn⟩ : ∃ n, s.attempts i = n + 1 := by
    refine ⟨s.attempts i - 1, ?_⟩
    by_contra hzero
    have hlen := (horder.start (by omega)).1
    omega
  obtain ⟨hresult, hlen, hdead⟩ := horder.last n hn
  have hend : (a.member i).reply envelope n (script i n) ≠ .ok .retry := by
    intro hretry
    rw [isOutcome_iff.mpr hretry, Bool.toNat_true] at hlen
    omega
  have hall : ∀ j < n, (a.member i).reply envelope j (script i j) = .ok .retry :=
    fun j hj => horder.retried j (by omega)
  obtain ⟨ds, halone⟩ : ∃ ds, a.Alone procs script record i ds :=
    alone_of_end hp (hheld i) hall hend
  obtain ⟨n', hall', hend', hruns, hlast⟩ := alone_spec hp (hheld i) halone
  obtain rfl : n' = n := by
    by_contra hne
    rcases Nat.lt_or_gt_of_ne hne with hlt | hlt
    · exact hend' (hall n' hlt)
    · exact hend (hall' n hlt)
  have hsame : ∀ x, x = i := fun x => Subsingleton.elim x i
  refine ⟨fun _ => ds, fun x => ?_, fun x => ?_, fun x => ?_, ?_⟩
  · rw [hsame x]
    exact halone
  · rw [hsame x, hinv.runs, hn, hruns]
  · rw [hsame x, hresult, hlast]
  · have hcount := card_exhausted (fun _ : ι => ds) fun _ => hlast
    rw [hcount, hdead, Fintype.sum_subsingleton _ i]

/-- Retries stay private to a group in a complete run, whatever the order of
deliveries, exactly when it is the only one or no first attempt leaves a copy. -/
theorem retries_independent_iff
    (hread : ∀ i, (a.member i).method.read record.value = .ok (.accepted envelope))
    (hp : Parsed envelope) (hfresh : Fresh record)
    (hrun : Run (TopicStep a script) (init record) ls s) (hcomplete : s.Complete) :
    Independent a procs script record s ↔
      Fintype.card ι ≤ 1 ∨ ∀ i, FirstRoundEnds (a.member i) envelope (script i 0) := by
  have hheld : Held a envelope record 0 := held_fresh hread hfresh
  constructor
  · intro hind
    by_contra hcond
    rw [not_or, not_le, not_forall] at hcond
    obtain ⟨hcard, i₀, hfirst⟩ := hcond
    rw [firstRoundEnds_iff, not_not] at hfirst
    exact not_independent hcard hfirst hp hheld hrun hcomplete hind
  · intro hcond
    by_cases hquiet : ∀ i, (a.member i).reply envelope 0 (script i 0) ≠ .ok .retry
    · exact independent_of_quiet hp hheld hquiet hrun hcomplete
    · rw [not_forall] at hquiet
      obtain ⟨i, hretry⟩ := hquiet
      rw [ne_eq, not_not] at hretry
      have hcard : Fintype.card ι ≤ 1 := by
        rcases hcond with hcard | hfirst
        · exact hcard
        · exact absurd hretry (firstRoundEnds_iff.mp (hfirst i))
      have hsub : Subsingleton ι := Fintype.card_le_one_iff_subsingleton.mp hcard
      exact independent_of_single i hp hheld hrun hcomplete

end Theorem

section Cancelled

/-- Stock and notification on `order.cancelled`. -/
def cancelledAudience : Audience Bool where
  eventType := .orderCancelled
  member i := ⟨if i then .stockOrderCancelled else .notificationOrderCancelled, noEnv, .documented⟩
  same i := by cases i <;> rfl

/-- Stock fails once; notification never does. -/
def stockFailsOnce (i : Bool) (k : ℕ) : Option HandlerError :=
  if i = true ∧ k = 0 then some gatewayDown else none

def stillProcs (_ : Bool) (_ : ℕ) : Process := .still .first .half

theorem read_cancelled (i : Bool) :
    (cancelledAudience.member i).method.read cancelledRecord.value =
      .ok (.accepted cancelledEnvelope) := by
  cases i <;> rfl

theorem stock_retries : (cancelledAudience.member true).reply cancelledEnvelope 0
    (stockFailsOnce true 0) = .ok .retry := by
  have hretry : shouldRetry (.counted (0 + 1)) (resolveConsumerRetryPolicy noEnv) = true := by
    decide +kernel
  exact reply_retry_iff.mpr
    ⟨rfl, hretry, ⟨_, key_cancelledEnvelope⟩, answerable_cancelledEnvelope _ _ _⟩

/-- Any record that a group has not had can be handed to it next. -/
theorem exists_step {ι : Type} [DecidableEq ι] (a : Audience ι)
    (script : ι → ℕ → Option HandlerError) (s : TopicState ι) (i : ι) (j : ℕ) (proc : Process)
    (hj : j < s.records.length) (hnew : j ∉ s.offsets i) :
    ∃ s', TopicStep a script s (i, j, proc) s' ∧
      (∀ x, s'.offsets x = if x = i then s.offsets i ++ [j] else s.offsets x) ∧
      ∀ c envelope, Parsed envelope → Held a envelope s.records[j] c →
      s'.records.length = s.records.length +
        (isOutcome .retry
          ((a.member i).reply envelope c (script i (s.offsets i).length))).toNat := by
  have hr : s.records[j]? = some s.records[j] := List.getElem?_eq_getElem hj
  have hlen : (s.offsets i).length = s.attempts i := List.length_map _
  refine ⟨_, .deliver hr hnew, offsets_deliver, fun c envelope hp hheld => ?_⟩
  obtain ⟨r, d, hr', -, hs', hhanded⟩ := step_handed hp (.deliver hr hnew)
  rw [hr] at hr'
  obtain rfl := Option.some.inj hr'
  rw [hlen]
  exact (hhanded c hheld).copies

/-- If its handler succeeds the topic stays as long as it was. -/
theorem exists_success {ι : Type} [DecidableEq ι] {a : Audience ι}
    (script : ι → ℕ → Option HandlerError) {s : TopicState ι} {envelope : JsVal}
    (hp : Parsed envelope) (hinv : TopicInv a envelope s) (i : ι) (j : ℕ) (proc : Process)
    (hj : j < s.records.length) (hnew : j ∉ s.offsets i)
    (hnone : script i (s.offsets i).length = none) :
    ∃ s', TopicStep a script s (i, j, proc) s' ∧ TopicInv a envelope s' ∧
      (∀ x, s'.offsets x = if x = i then s.offsets i ++ [j] else s.offsets x) ∧
        s'.records.length = s.records.length := by
  obtain ⟨s', hstep, hoffsets, hlen⟩ := exists_step a script s i j proc hj hnew
  obtain ⟨c, hheld⟩ := hinv.held _ (List.getElem_mem hj)
  have hl := hlen c envelope hp hheld
  rw [hnone] at hl
  exact ⟨s', hstep, topicInv_step hp hinv hstep, hoffsets, hl⟩

/-- Notification handles the message twice because stock failed once. -/
theorem cancelled_not_independent :
    ∃ ls s, Run (TopicStep cancelledAudience stockFailsOnce) (init cancelledRecord) ls s ∧
      s.Complete ∧ ¬ Independent cancelledAudience stillProcs stockFailsOnce cancelledRecord s := by
  let proc : Process := .still .first .half
  have hp := parsed_cancelledEnvelope
  have hheld : Held cancelledAudience cancelledEnvelope cancelledRecord 0 :=
    held_fresh read_cancelled fresh_cancelledRecord
  -- Stock fails on the message and puts a copy back; then both succeed on both records.
  obtain ⟨s₁, h₁, ho₁, hl₁⟩ := exists_step cancelledAudience stockFailsOnce (init cancelledRecord)
    true 0 proc Nat.one_pos List.not_mem_nil
  have hi₁ := topicInv_step hp (topicInv_init hheld) h₁
  have hlen₁ : s₁.records.length = 2 := by
    have hl := hl₁ 0 cancelledEnvelope hp hheld
    change s₁.records.length = 1 + (isOutcome .retry
      ((cancelledAudience.member true).reply cancelledEnvelope 0 (stockFailsOnce true 0))).toNat at hl
    rw [stock_retries] at hl
    exact hl
  have hstock₁ : s₁.offsets true = [0] := ho₁ true
  have hnotify₁ : s₁.offsets false = [] := ho₁ false
  obtain ⟨s₂, h₂, hi₂, ho₂, hl₂⟩ := exists_success stockFailsOnce hp hi₁ false 0 proc (by omega)
    (by rw [hnotify₁]; exact List.not_mem_nil) rfl
  have hstock₂ : s₂.offsets true = [0] := by rw [ho₂, if_neg (by decide), hstock₁]
  have hnotify₂ : s₂.offsets false = [0] := by rw [ho₂, if_pos rfl, hnotify₁]; rfl
  obtain ⟨s₃, h₃, hi₃, ho₃, hl₃⟩ := exists_success stockFailsOnce hp hi₂ true 1 proc (by omega)
    (by rw [hstock₂]; decide) (by rw [hstock₂]; rfl)
  have hstock₃ : s₃.offsets true = [0, 1] := by rw [ho₃, if_pos rfl, hstock₂]; rfl
  have hnotify₃ : s₃.offsets false = [0] := by rw [ho₃, if_neg (by decide), hnotify₂]
  obtain ⟨s₄, h₄, -, ho₄, hl₄⟩ := exists_success stockFailsOnce hp hi₃ false 1 proc (by omega)
    (by rw [hnotify₃]; decide) (by rw [hnotify₃]; rfl)
  have hstock₄ : s₄.offsets true = [0, 1] := by rw [ho₄, if_neg (by decide), hstock₃]
  have hnotify₄ : s₄.offsets false = [0, 1] := by rw [ho₄, if_pos rfl, hnotify₃]; rfl
  have hrun : Run (TopicStep cancelledAudience stockFailsOnce) (init cancelledRecord)
      [(true, 0, proc), (false, 0, proc), (true, 1, proc), (false, 1, proc)] s₄ :=
    .cons trivial h₁ (.cons trivial h₂ (.cons trivial h₃ (.single trivial h₄)))
  have hcomplete : s₄.Complete := by
    intro i j hj
    have hlen : j = 0 ∨ j = 1 := by omega
    cases i with
    | true =>
      rw [hstock₄]
      rcases hlen with rfl | rfl <;> decide
    | false =>
      rw [hnotify₄]
      rcases hlen with rfl | rfl <;> decide
  have hcard : 1 < Fintype.card Bool := by decide
  exact ⟨_, s₄, hrun, hcomplete, not_independent hcard stock_retries hp hheld hrun hcomplete⟩

/-- When both succeed at once, neither notices the other. -/
theorem cancelled_independent :
    ∃ ls s, Run (TopicStep cancelledAudience fun _ _ => none) (init cancelledRecord) ls s ∧
      (Independent cancelledAudience stillProcs (fun _ _ => none) cancelledRecord s ↔
        Fintype.card Bool ≤ 1 ∨
          ∀ i, FirstRoundEnds (cancelledAudience.member i) cancelledEnvelope none) := by
  let proc : Process := .still .first .half
  have hp := parsed_cancelledEnvelope
  have hinit : TopicInv cancelledAudience cancelledEnvelope (init cancelledRecord) :=
    topicInv_init (held_fresh read_cancelled fresh_cancelledRecord)
  obtain ⟨s₁, h₁, hi₁, ho₁, hl₁⟩ := exists_success (fun _ _ => none) hp hinit true 0 proc
    Nat.one_pos List.not_mem_nil rfl
  have hstock₁ : s₁.offsets true = [0] := ho₁ true
  have hnotify₁ : s₁.offsets false = [] := ho₁ false
  have hlen₁ : s₁.records.length = 1 := hl₁
  obtain ⟨s₂, h₂, -, ho₂, hl₂⟩ := exists_success (fun _ _ => none) hp hi₁ false 0 proc (by omega)
    (by rw [hnotify₁]; exact List.not_mem_nil) rfl
  have hstock₂ : s₂.offsets true = [0] := by rw [ho₂, if_neg (by decide), hstock₁]
  have hnotify₂ : s₂.offsets false = [0] := by rw [ho₂, if_pos rfl, hnotify₁]; rfl
  have hrun : Run (TopicStep cancelledAudience fun _ _ => none) (init cancelledRecord)
      [(true, 0, proc), (false, 0, proc)] s₂ := .cons trivial h₁ (.single trivial h₂)
  have hcomplete : s₂.Complete := by
    intro i j hj
    obtain rfl : j = 0 := by omega
    cases i with
    | true => rw [hstock₂]; exact List.mem_cons_self
    | false => rw [hnotify₂]; exact List.mem_cons_self
  exact ⟨_, s₂, hrun, retries_independent_iff read_cancelled hp fresh_cancelledRecord hrun hcomplete⟩

end Cancelled

end EventFlow.Retry
