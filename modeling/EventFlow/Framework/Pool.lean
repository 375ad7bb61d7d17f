import EventFlow.Framework.Async
import EventFlow.Framework.Transition
import Mathlib.Logic.Function.Basic

namespace EventFlow

/-- What async functions run on: the calls that may be made, their bodies, the
effect of one operation, which operations may reject, which calls the state
lets start, and what the outside world may do. -/
structure Platform (W C Op : Type) (Resp : Op → Type) (ε α : Type) where
  body : C → Async Op Resp ε α
  exec : C → W → (op : Op) → Resp op × W
  mayReject : Op → Prop
  ready : W → C → Prop
  env : W → W → Prop

/-- How an operation of a call settles when `fails` picks the ones that reject. -/
def Platform.settle {W C Op ε α : Type} {Resp : Op → Type} (P : Platform W C Op Resp ε α) (c : C)
    (fails : Op → Option ε) (w : W) (op : Op) : Except ε (Resp op) × W :=
  match fails op with
  | some e => (.error e, w)
  | none => (.ok (P.exec c w op).1, (P.exec c w op).2)

/-- The state after one whole call of which every operation settles well. -/
def Platform.called {W C Op ε α : Type} {Resp : Op → Type} (P : Platform W C Op Resp ε α) (c : C)
    (w : W) : W := ((P.body c).run (P.settle c fun _ => none) w).2

/-- Slots of running calls over one shared state. -/
structure Pool (ι W C Op : Type) (Resp : Op → Type) (ε α : Type) where
  world : W
  jobs : ι → Option (C × Async Op Resp ε α)

inductive PoolAct (ι C Op ε : Type) where
  | env
  | start (i : ι) (c : C)
  | settled (i : ι) (op : Op)
  | rejected (i : ι) (op : Op) (e : ε)
  | finish (i : ι)
  | crash (i : ι)

namespace Pool

variable {ι W C Op ε α : Type} {Resp : Op → Type} [DecidableEq ι]

/-- One step of the pool: one await of one call, or a call's begin or end. -/
inductive Step (P : Platform W C Op Resp ε α) :
    Pool ι W C Op Resp ε α → PoolAct ι C Op ε → Pool ι W C Op Resp ε α → Prop
  | env {s w'} : P.env s.world w' → Step P s .env { s with world := w' }
  | start {s i c} : s.jobs i = none → P.ready s.world c →
      Step P s (.start i c) { s with jobs := Function.update s.jobs i (some (c, P.body c)) }
  | settled {s i c op k} : s.jobs i = some (c, .await op k) →
      Step P s (.settled i op)
        { world := (P.exec c s.world op).2
          jobs := Function.update s.jobs i (some (c, k (.ok (P.exec c s.world op).1))) }
  | rejected {s i c op k e} : s.jobs i = some (c, .await op k) → P.mayReject op →
      Step P s (.rejected i op e)
        { s with jobs := Function.update s.jobs i (some (c, k (.error e))) }
  | resolve {s i c a} : s.jobs i = some (c, .resolve a) →
      Step P s (.finish i) { s with jobs := Function.update s.jobs i none }
  | reject {s i c e} : s.jobs i = some (c, .reject e) →
      Step P s (.finish i) { s with jobs := Function.update s.jobs i none }
  | crash {s i c p} : s.jobs i = some (c, p) →
      Step P s (.crash i) { s with jobs := Function.update s.jobs i none }

/-- No call is running. -/
def idle (w : W) : Pool ι W C Op Resp ε α := ⟨w, fun _ => none⟩

theorem update_eq_some {jobs : ι → Option (C × Async Op Resp ε α)} {i j : ι}
    {x : Option (C × Async Op Resp ε α)} {job : C × Async Op Resp ε α}
    (h : Function.update jobs i x j = some job) :
    j = i ∧ x = some job ∨ j ≠ i ∧ jobs j = some job := by
  by_cases hji : j = i
  · subst hji
    exact .inl ⟨rfl, by rwa [Function.update_self] at h⟩
  · exact .inr ⟨hji, by rwa [Function.update_of_ne hji] at h⟩

section Started

omit [DecidableEq ι]

/-- The calls that were started, in the order of their starts. -/
def started : List (PoolAct ι C Op ε) → List C
  | [] => []
  | .start _ c :: ls => c :: started ls
  | _ :: ls => started ls

theorem started_append (ls ms : List (PoolAct ι C Op ε)) :
    started (ls ++ ms) = started ls ++ started ms := by
  induction ls with
  | nil => rfl
  | cons l ls ih => cases l <;> simp [started, ih]

theorem started_of_run {σ : Type} {step : σ → PoolAct ι C Op ε → σ → Prop}
    {cond : σ → PoolAct ι C Op ε → Prop} {s t : σ} {ls : List (PoolAct ι C Op ε)}
    (hrun : RunWhere step cond s ls t) (h : ∀ s i c, ¬ cond s (.start i c)) : started ls = [] := by
  induction hrun with
  | nil => rfl
  | @snoc ls s s' l _ hc _ ih =>
    rw [started_append, ih, List.nil_append]
    cases l with
    | start i c => exact absurd hc (h _ i c)
    | _ => rfl

end Started

section Scripts

variable (P : Platform W C Op Resp ε α) {cond : Pool ι W C Op Resp ε α → PoolAct ι C Op ε → Prop}

/-- The pool with one job put in a slot. -/
def put (s : Pool ι W C Op Resp ε α) (i : ι) (c : C) (p : Async Op Resp ε α) (w : W) :
    Pool ι W C Op Resp ε α :=
  { world := w, jobs := Function.update s.jobs i (some (c, p)) }

theorem put_put (s : Pool ι W C Op Resp ε α) (i : ι) (c : C) (p q : Async Op Resp ε α) (v w : W) :
    (s.put i c p v).put i c q w = s.put i c q w := by
  simp [put]

theorem put_jobs (s : Pool ι W C Op Resp ε α) (i : ι) (c : C) (p : Async Op Resp ε α) (w : W) :
    (s.put i c p w).jobs i = some (c, p) := Function.update_self ..

theorem put_self {s : Pool ι W C Op Resp ε α} {i : ι} {c : C} {p : Async Op Resp ε α}
    (hi : s.jobs i = some (c, p)) : s.put i c p s.world = s := by
  rw [put, ← hi, Function.update_eq_self]

/-- A running call can go on for as many operations as it has. -/
theorem advance_run {i : ι} {c : C} (hcond : ∀ t op, cond t (.settled i op)) (n : ℕ)
    {s : Pool ι W C Op Resp ε α} {p : Async Op Resp ε α} (hi : s.jobs i = some (c, p)) :
    ∃ ls, RunWhere (Step P) cond s ls
      (s.put i c (p.advance (P.exec c) n s.world).1 (p.advance (P.exec c) n s.world).2) := by
  have hstay : RunWhere (Step P) cond s [] (s.put i c p s.world) := by
    rw [put_self hi]
    exact .nil
  induction n generalizing s p with
  | zero => exact ⟨[], by cases p <;> exact hstay⟩
  | succ n ih =>
    cases p with
    | resolve a => exact ⟨[], hstay⟩
    | reject e => exact ⟨[], hstay⟩
    | await op k =>
      have hnext := put_jobs s i c (k (.ok (P.exec c s.world op).1)) (P.exec c s.world op).2
      obtain ⟨ls, hls⟩ := ih hnext (by rw [put_self hnext]; exact .nil)
      rw [put_put] at hls
      exact ⟨_, .cons (hcond s op) (.settled hi) hls⟩

/-- A running call can go on to its end under any script of rejections. -/
theorem finish_run {i : ι} {c : C} (fails : Op → Option ε)
    (hmay : ∀ op e, fails op = some e → P.mayReject op)
    (hcond : ∀ t p op, t.jobs i = some (c, p) → fails op = none → cond t (.settled i op))
    (hrej : ∀ t op e, fails op = some e → cond t (.rejected i op e))
    (hfin : ∀ t, cond t (.finish i)) {s : Pool ι W C Op Resp ε α} {p : Async Op Resp ε α}
    (hi : s.jobs i = some (c, p)) :
    ∃ ls, RunWhere (Step P) cond s ls
      { world := (p.run (P.settle c fails) s.world).2
        jobs := Function.update s.jobs i none } := by
  induction p generalizing s with
  | resolve a => exact ⟨_, .single (hfin s) (.resolve hi)⟩
  | reject e => exact ⟨_, .single (hfin s) (.reject hi)⟩
  | await op k ih =>
    rw [Async.run_await, Platform.settle]
    cases hop : fails op with
    | some e =>
      obtain ⟨ls, hls⟩ := ih (.error e) (put_jobs s i c (k (.error e)) s.world)
      rw [put, Function.update_idem] at hls
      exact ⟨_, .cons (hrej s op e hop) (.rejected hi (hmay op e hop)) hls⟩
    | none =>
      obtain ⟨ls, hls⟩ := ih _
        (put_jobs s i c (k (.ok (P.exec c s.world op).1)) (P.exec c s.world op).2)
      rw [put, Function.update_idem] at hls
      exact ⟨_, .cons (hcond s _ op hi hop) (.settled hi) hls⟩

/-- A free slot can take a call from its start to its end, and no other starts. -/
theorem single_call_run (i : ι) {c : C} (fails : Op → Option ε)
    (hmay : ∀ op e, fails op = some e → P.mayReject op)
    (hcond : ∀ t p op, t.jobs i = some (c, p) → fails op = none → cond t (.settled i op))
    (hrej : ∀ t op e, fails op = some e → cond t (.rejected i op e))
    (hfin : ∀ t, cond t (.finish i)) {s : Pool ι W C Op Resp ε α} (hi : s.jobs i = none)
    (hready : P.ready s.world c) (hstart : cond s (.start i c)) :
    ∃ ls, RunWhere (Step P) cond s ls
      { s with world := ((P.body c).run (P.settle c fails) s.world).2 } ∧ started ls = [c] := by
  have hclosed : ∃ ls, RunWhere (Step P) (fun t l => cond t l ∧ ∀ j d, l ≠ .start j d)
      (s.put i c (P.body c) s.world) ls
      { world := ((P.body c).run (P.settle c fails) s.world).2
        jobs := Function.update (s.put i c (P.body c) s.world).jobs i none } :=
    finish_run P fails hmay (fun t p op hi h => ⟨hcond t p op hi h, fun _ _ => nofun⟩)
      (fun t op e h => ⟨hrej t op e h, fun _ _ => nofun⟩) (fun t => ⟨hfin t, fun _ _ => nofun⟩)
      (put_jobs s i c (P.body c) s.world)
  obtain ⟨ls, hls⟩ := hclosed
  have hnone : started ls = [] := started_of_run hls fun _ _ _ h => h.2 _ _ rfl
  have hback : Function.update (s.put i c (P.body c) s.world).jobs i none = s.jobs := by
    rw [put, Function.update_idem, ← hi, Function.update_eq_self]
  rw [hback] at hls
  have hrest := hls.mono fun _ _ h => h.1
  exact ⟨_, .cons hstart (.start hi hready) hrest, congrArg (c :: ·) hnone⟩

/-- A free slot can take a call from its start to its end. -/
theorem call_run (i : ι) {c : C} (fails : Op → Option ε)
    (hmay : ∀ op e, fails op = some e → P.mayReject op)
    (hcond : ∀ t p op, t.jobs i = some (c, p) → fails op = none → cond t (.settled i op))
    (hrej : ∀ t op e, fails op = some e → cond t (.rejected i op e))
    (hfin : ∀ t, cond t (.finish i)) {s : Pool ι W C Op Resp ε α} (hi : s.jobs i = none)
    (hready : P.ready s.world c) (hstart : cond s (.start i c)) :
    ∃ ls, RunWhere (Step P) cond s ls
      { s with world := ((P.body c).run (P.settle c fails) s.world).2 } := by
  obtain ⟨ls, hrun, -⟩ := single_call_run P i fails hmay hcond hrej hfin hi hready hstart
  exact ⟨ls, hrun⟩

/-- A pool with nothing else to do can make a call from start to end. -/
theorem called_run (i : ι) {c : C} {w : W} (hready : P.ready w c)
    (hstart : cond (Pool.idle w) (.start i c)) (hcond : ∀ t op, cond t (.settled i op))
    (hfin : ∀ t, cond t (.finish i)) :
    ∃ ls, RunWhere (Step P) cond (Pool.idle w) ls (Pool.idle (P.called c w)) :=
  call_run P i (fun _ => none) (fun _ _ => nofun) (fun t _ op _ _ => hcond t op)
    (fun _ _ _ => nofun) hfin rfl hready hstart

theorem run_called (i : ι) {c : C} {w : W} (hready : P.ready w c) :
    ∃ ls, Run (Step P) (Pool.idle w) ls (Pool.idle (P.called c w) : Pool ι W C Op Resp ε α) :=
  called_run P i hready trivial (fun _ _ => trivial) fun _ => trivial

end Scripts

/-- How a pool of calls shares its state. A call uses some keys, and owns some of
these while it runs: nobody else then uses them. `same` is what it may rely on
of the state under its own keys, `rest` what holds of a key that nobody owns,
`le` what every step keeps, `safe` what must always hold. -/
structure Ownership (W C K : Type) where
  owns : C → K → Prop
  uses : C → K → Prop
  same : K → W → W → Prop
  le : W → W → Prop
  safe : W → Prop
  rest : K → W → Prop
  uses_of_owns : ∀ c k, owns c k → uses c k
  same_refl : ∀ k w, same k w w
  same_trans : ∀ k u v w, same k u v → same k v w → same k u w
  le_refl : ∀ w, le w w
  le_trans : ∀ u v w, le u v → le v w → le u w
  rest_stable : ∀ k w w', same k w w' → le w w' → rest k w → rest k w'

namespace Ownership

variable {K : Type} (O : Ownership W C K)

/-- What holds at every await of a call: `safe`, and `rest` of what it shares. -/
structure Ok (c : C) (w : W) : Prop where
  safe : O.safe w
  shared : ∀ k, O.uses c k → ¬ O.owns c k → O.rest k w

/-- What a call may rely on at its awaits. -/
structure Rely (c : C) (w w' : W) : Prop where
  le : O.le w w'
  own : ∀ k, O.owns c k → O.same k w w'
  ok : O.Ok c w'

/-- What each operation of a call must guarantee. -/
structure Guar (c : C) (w w' : W) : Prop where
  le : O.le w w'
  frame : ∀ k, ¬ O.uses c k → O.same k w w'
  ok : O.Ok c w'

/-- How a call must leave its own keys. -/
def Post (c : C) (_ : Except ε α) (w : W) : Prop := ∀ k, O.owns c k → O.rest k w

theorem rely_refl {c : C} {w : W} (h : O.Ok c w) : O.Rely c w w :=
  ⟨O.le_refl w, fun k _ => O.same_refl k w, h⟩

theorem rely_trans {c : C} {u v w : W} (h : O.Rely c u v) (h' : O.Rely c v w) : O.Rely c u w :=
  ⟨O.le_trans _ _ _ h.le h'.le, fun k hk => O.same_trans _ _ _ _ (h.own k hk) (h'.own k hk), h'.ok⟩

/-- No key that one running call owns is used by another. -/
def Disjoint (s : Pool ι W C Op Resp ε α) : Prop :=
  ∀ i j ji jj, i ≠ j → s.jobs i = some ji → s.jobs j = some jj →
    ∀ k, O.owns ji.1 k → ¬ O.uses jj.1 k

variable (P : Platform W C Op Resp ε α) (A F : C → Op → Prop)

/-- What a call has to keep to. -/
def contract (c : C) : Async.Contract W Op Resp where
  exec := P.exec c
  rely := O.Rely c
  settles := A c
  rejects := F c
  guar := O.Guar c

def Meets (c : C) (p : Async Op Resp ε α) (w : W) : Prop :=
  p.Along (O.contract P A F c) (O.Post c) w

/-- A running call is sound if it meets its contract from some state that the
present one is reachable from by interference alone. -/
def JobOk (w : W) (job : C × Async Op Resp ε α) : Prop :=
  ∃ w₀, O.Rely job.1 w₀ w ∧ O.Meets P A F job.1 job.2 w₀

structure Inv (s : Pool ι W C Op Resp ε α) : Prop where
  safe : O.safe s.world
  rest : ∀ k, (∀ i job, s.jobs i = some job → ¬ O.owns job.1 k) → O.rest k s.world
  job : ∀ i job, s.jobs i = some job → O.JobOk P A F s.world job
  disjoint : O.Disjoint s

/-- What has to be shown of the calls, the outside world and the condition on
the steps for the ownership discipline to hold in a whole run. -/
structure Sound (cond : Pool ι W C Op Resp ε α → PoolAct ι C Op ε → Prop) : Prop where
  env : ∀ w w', O.safe w → P.env w w' → O.le w w' ∧ (∀ k, O.same k w w') ∧ O.safe w'
  start : ∀ s i c, cond s (.start i c) → P.ready s.world c → O.Ok c s.world →
    (∀ k, O.owns c k → O.rest k s.world) → O.Meets P A F c (P.body c) s.world
  free : ∀ s i c, cond s (.start i c) → s.jobs i = none → ∀ j job, s.jobs j = some job → ∀ k,
    (O.owns c k → ¬ O.uses job.1 k) ∧ (O.uses c k → ¬ O.owns job.1 k)
  settle : ∀ s i c p op, cond s (.settled i op) → s.jobs i = some (c, p) → A c op
  reject : ∀ s i c p op e, cond s (.rejected i op e) → s.jobs i = some (c, p) → F c op
  crash : ∀ s i c p, cond s (.crash i) → s.jobs i = some (c, p) → O.safe s.world →
    ∀ k, O.owns c k → O.rest k s.world

variable {O P A F}

theorem JobOk.ok {w : W} {job : C × Async Op Resp ε α} (h : O.JobOk P A F w job) :
    O.Ok job.1 w := by
  obtain ⟨w₀, hr, -⟩ := h
  exact hr.ok

theorem JobOk.interfere {w w' : W} {job : C × Async Op Resp ε α} (h : O.JobOk P A F w job)
    (hr : O.Rely job.1 w w') : O.JobOk P A F w' job := by
  obtain ⟨w₀, h₀, ha⟩ := h
  exact ⟨w₀, O.rely_trans h₀ hr, ha⟩

/-- A call that guarantees its step lets every disjoint call rely on it. -/
theorem rely_of_guar {c d : C} {w w' : W} (hg : O.Guar c w w') (hd : O.Ok d w)
    (hdc : ∀ k, O.owns d k → ¬ O.uses c k) (hcd : ∀ k, O.owns c k → ¬ O.uses d k) :
    O.Rely d w w' := by
  refine ⟨hg.le, fun k hk => hg.frame k (hdc k hk), hg.ok.safe, fun k huse hown => ?_⟩
  by_cases huc : O.uses c k
  · exact hg.ok.shared k huc fun hoc => hcd k hoc huse
  · exact O.rest_stable k w w' (hg.frame k huc) hg.le (hd.shared k huse hown)

/-- So does the outside world when it leaves every key alone. -/
theorem rely_of_frame {d : C} {w w' : W} (hle : O.le w w') (hsame : ∀ k, O.same k w w')
    (hsafe : O.safe w') (hd : O.Ok d w) : O.Rely d w w' :=
  ⟨hle, fun k _ => hsame k, hsafe,
    fun k huse hown => O.rest_stable k w w' (hsame k) hle (hd.shared k huse hown)⟩

theorem Disjoint.update {s : Pool ι W C Op Resp ε α} {i : ι} {c : C}
    {p p' : Async Op Resp ε α} {w' : W} (hd : O.Disjoint s) (hi : s.jobs i = some (c, p)) :
    O.Disjoint { world := w', jobs := Function.update s.jobs i (some (c, p')) } := by
  intro a b ja jb hab ha hb
  rcases update_eq_some ha with ⟨rfl, hja⟩ | ⟨hai, hja⟩
  · obtain rfl := Option.some.inj hja
    rcases update_eq_some hb with ⟨hba, -⟩ | ⟨hba, hjb⟩
    · exact absurd hba.symm hab
    · exact hd a b (c, p) jb hab hi hjb
  · rcases update_eq_some hb with ⟨rfl, hjb⟩ | ⟨hbi, hjb⟩
    · obtain rfl := Option.some.inj hjb
      exact hd a b ja (c, p) hab hja hi
    · exact hd a b ja jb hab hja hjb

/-- Keys nobody owns after a call has moved on are keys nobody owned before. -/
private theorem unowned_of_update {s : Pool ι W C Op Resp ε α} {i : ι} {c : C}
    {p p' : Async Op Resp ε α} {k : K} (hi : s.jobs i = some (c, p))
    (hfree : ∀ j job, Function.update s.jobs i (some (c, p')) j = some job → ¬ O.owns job.1 k) :
    ∀ j job, s.jobs j = some job → ¬ O.owns job.1 k := by
  intro j job hj
  by_cases hji : j = i
  · subst hji
    obtain rfl := Option.some.inj (hi.symm.trans hj)
    exact hfree j (c, p') (Function.update_self ..)
  · exact hfree j job (by rwa [Function.update_of_ne hji])

/-- A settled operation keeps the discipline. -/
theorem Inv.settle {s : Pool ι W C Op Resp ε α} {i : ι} {c : C} {op : Op}
    {k : Except ε (Resp op) → Async Op Resp ε α} (h : O.Inv P A F s)
    (hi : s.jobs i = some (c, .await op k)) (ha : A c op) :
    O.le s.world (P.exec c s.world op).2 ∧
    O.Inv P A F { world := (P.exec c s.world op).2
                  jobs := Function.update s.jobs i (some (c, k (.ok (P.exec c s.world op).1))) } := by
  obtain ⟨w₀, hr, hmeets⟩ := h.job i _ hi
  obtain ⟨hg, hnext⟩ := (hmeets s.world hr).1 ha
  refine ⟨hg.le, hg.ok.safe, ?_, ?_, h.disjoint.update hi⟩
  · intro key hfree
    have hbefore := unowned_of_update hi hfree
    have hrest : O.rest key s.world := h.rest key hbefore
    by_cases huse : O.uses c key
    · exact hg.ok.shared key huse (hbefore i _ hi)
    · exact O.rest_stable key _ _ (hg.frame key huse) hg.le hrest
  · intro j job hj
    rcases update_eq_some hj with ⟨rfl, hjob⟩ | ⟨hji, hjob⟩
    · obtain rfl := Option.some.inj hjob
      exact ⟨_, O.rely_refl hg.ok, hnext⟩
    · have hok := h.job j job hjob
      exact hok.interfere (rely_of_guar hg hok.ok (h.disjoint j i job _ hji hjob hi)
        (h.disjoint i j _ job (Ne.symm hji) hi hjob))

/-- So does a rejected one. -/
theorem Inv.reject {s : Pool ι W C Op Resp ε α} {i : ι} {c : C} {op : Op} {e : ε}
    {k : Except ε (Resp op) → Async Op Resp ε α} (h : O.Inv P A F s)
    (hi : s.jobs i = some (c, .await op k)) (hf : F c op) :
    O.Inv P A F { s with jobs := Function.update s.jobs i (some (c, k (.error e))) } := by
  obtain ⟨w₀, hr, hmeets⟩ := h.job i _ hi
  have hnext := (hmeets s.world hr).2 hf e
  refine ⟨h.safe, fun key hfree => h.rest key (unowned_of_update hi hfree), ?_,
    h.disjoint.update hi⟩
  intro j job hj
  rcases update_eq_some hj with ⟨rfl, hjob⟩ | ⟨hji, hjob⟩
  · obtain rfl := Option.some.inj hjob
    exact ⟨_, O.rely_refl hr.ok, hnext⟩
  · exact h.job j job hjob

/-- A call that ends gives its keys back. -/
theorem Inv.drop {s : Pool ι W C Op Resp ε α} {i : ι} {c : C} {p : Async Op Resp ε α}
    (h : O.Inv P A F s) (hi : s.jobs i = some (c, p))
    (hrest : ∀ k, O.owns c k → O.rest k s.world) :
    O.Inv P A F { s with jobs := Function.update s.jobs i none } := by
  refine ⟨h.safe, ?_, ?_, ?_⟩
  · intro key hfree
    by_cases hown : O.owns c key
    · exact hrest key hown
    · refine h.rest key fun j job hj => ?_
      by_cases hji : j = i
      · subst hji
        obtain rfl := Option.some.inj (hi.symm.trans hj)
        exact hown
      · exact hfree j job ((Function.update_of_ne hji _ _).trans hj)
  · intro j job hj
    rcases update_eq_some hj with ⟨-, hjob⟩ | ⟨-, hjob⟩
    · cases hjob
    · exact h.job j job hjob
  · intro a b ja jb hab ha hb
    rcases update_eq_some ha with ⟨-, hja⟩ | ⟨-, hja⟩
    · cases hja
    · rcases update_eq_some hb with ⟨-, hjb⟩ | ⟨-, hjb⟩
      · cases hjb
      · exact h.disjoint a b ja jb hab hja hjb

/-- A call that begins with keys nobody holds keeps the discipline. -/
theorem Inv.start {s : Pool ι W C Op Resp ε α} {i : ι} {c : C} (h : O.Inv P A F s)
    (hi : s.jobs i = none)
    (hfree : ∀ j job, s.jobs j = some job → ∀ k,
      (O.owns c k → ¬ O.uses job.1 k) ∧ (O.uses c k → ¬ O.owns job.1 k))
    (hok : O.Ok c s.world) (hbody : O.Meets P A F c (P.body c) s.world) :
    O.Inv P A F { s with jobs := Function.update s.jobs i (some (c, P.body c)) } := by
  refine ⟨h.safe, ?_, ?_, ?_⟩
  · intro key hkey
    refine h.rest key fun j job hj => hkey j job ?_
    have hji : j ≠ i := by
      rintro rfl
      simp [hi] at hj
    exact (Function.update_of_ne hji _ _).trans hj
  · intro j job hj
    rcases update_eq_some hj with ⟨rfl, hjob⟩ | ⟨-, hjob⟩
    · obtain rfl := Option.some.inj hjob
      exact ⟨_, O.rely_refl hok, hbody⟩
    · exact h.job j job hjob
  · intro a b ja jb hab ha hb key hka hkb
    rcases update_eq_some ha with ⟨rfl, hja⟩ | ⟨hai, hja⟩
    · obtain rfl := Option.some.inj hja
      rcases update_eq_some hb with ⟨hba, -⟩ | ⟨-, hjb⟩
      · exact hab hba.symm
      · exact (hfree b jb hjb key).1 hka hkb
    · rcases update_eq_some hb with ⟨rfl, hjb⟩ | ⟨-, hjb⟩
      · obtain rfl := Option.some.inj hjb
        exact (hfree a ja hja key).2 hkb hka
      · exact h.disjoint a b ja jb hab hja hjb key hka hkb

variable {cond : Pool ι W C Op Resp ε α → PoolAct ι C Op ε → Prop}

/-- The discipline is kept by every step that meets the condition, and so is `le`. -/
theorem Sound.step (hs : O.Sound P A F cond) {s s' : Pool ι W C Op Resp ε α}
    {l : PoolAct ι C Op ε} (h : O.Inv P A F s) (hc : cond s l) (hstep : Step P s l s') :
    O.le s.world s'.world ∧ O.Inv P A F s' := by
  cases hstep with
  | env hw =>
    obtain ⟨hle, hsame, hsafe⟩ := hs.env _ _ h.safe hw
    exact ⟨hle, hsafe, fun k hk => O.rest_stable k _ _ (hsame k) hle (h.rest k hk),
      fun i job hj =>
        (h.job i job hj).interfere (rely_of_frame hle hsame hsafe (h.job i job hj).ok),
      h.disjoint⟩
  | @start i c hi hready =>
    have hfree := hs.free _ i c hc hi
    have hrest : ∀ k, O.uses c k → O.rest k s.world := fun k hk =>
      h.rest k fun j job hj => (hfree j job hj k).2 hk
    have hok : O.Ok c s.world := ⟨h.safe, fun k hk _ => hrest k hk⟩
    exact ⟨O.le_refl _, h.start hi hfree hok
      (hs.start _ i c hc hready hok fun k hk => hrest k (O.uses_of_owns c k hk))⟩
  | settled hi => exact h.settle hi (hs.settle _ _ _ _ _ hc hi)
  | rejected hi _ => exact ⟨O.le_refl _, h.reject hi (hs.reject _ _ _ _ _ _ hc hi)⟩
  | @resolve i c a hi =>
    obtain ⟨w₀, hr, hq⟩ := h.job i _ hi
    exact ⟨O.le_refl _, h.drop hi fun k hk => O.rest_stable k _ _ (hr.own k hk) hr.le (hq k hk)⟩
  | @reject i c e hi =>
    obtain ⟨w₀, hr, hq⟩ := h.job i _ hi
    exact ⟨O.le_refl _, h.drop hi fun k hk => O.rest_stable k _ _ (hr.own k hk) hr.le (hq k hk)⟩
  | crash hi => exact ⟨O.le_refl _, h.drop hi (hs.crash _ _ _ _ hc hi h.safe)⟩

omit [DecidableEq ι] in
theorem Inv.idle {w : W} (hsafe : O.safe w) (hrest : ∀ k, O.rest k w) :
    O.Inv P A F (Pool.idle w : Pool ι W C Op Resp ε α) :=
  ⟨hsafe, fun k _ => hrest k, fun _ _ h => by simp [Pool.idle] at h,
    fun _ _ _ _ _ h => by simp [Pool.idle] at h⟩

theorem Sound.inv (hs : O.Sound P A F cond) {w : W} {ls : List (PoolAct ι C Op ε)}
    {s : Pool ι W C Op Resp ε α} (hrun : RunWhere (Step P) cond (Pool.idle w) ls s)
    (hsafe : O.safe w) (hrest : ∀ k, O.rest k w) : O.Inv P A F s :=
  hrun.invariant (Inv.idle hsafe hrest) fun _ _ _ h hc hstep => (hs.step h hc hstep).2

/-- The ownership rule: sound calls keep `safe` in every state of every run. -/
theorem Sound.safe (hs : O.Sound P A F cond) {w : W} {ls : List (PoolAct ι C Op ε)}
    {s : Pool ι W C Op Resp ε α} (hrun : RunWhere (Step P) cond (Pool.idle w) ls s)
    (hsafe : O.safe w) (hrest : ∀ k, O.rest k w) : O.safe s.world :=
  (hs.inv hrun hsafe hrest).safe

/-- Any later state of a run keeps what `le` keeps of an earlier one. -/
theorem Sound.later (hs : O.Sound P A F cond) {w : W} {ls ms : List (PoolAct ι C Op ε)}
    {s t : Pool ι W C Op Resp ε α} (hrun : RunWhere (Step P) cond (Pool.idle w) ls s)
    (hmore : RunWhere (Step P) cond s ms t) (hsafe : O.safe w) (hrest : ∀ k, O.rest k w) :
    O.le s.world t.world := by
  have hstart : O.le s.world s.world ∧ O.Inv P A F s := ⟨O.le_refl _, hs.inv hrun hsafe hrest⟩
  have hboth : O.le s.world t.world ∧ O.Inv P A F t := by
    induction hmore with
    | nil => exact hstart
    | snoc _ hc hstep ih =>
      obtain ⟨hle, hinv⟩ := hs.step ih.2 hc hstep
      exact ⟨O.le_trans _ _ _ ih.1 hle, hinv⟩
  exact hboth.1

end Ownership

end Pool

end EventFlow
