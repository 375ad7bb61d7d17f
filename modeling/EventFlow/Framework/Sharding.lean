import EventFlow.Framework.Pool
import Mathlib.Data.List.Perm.Basic

namespace EventFlow

namespace Pool

variable {ι W C Op ε α K V : Type} {Resp : Op → Type}

/-- The state after the calls have run one by one, each under its own failures. -/
def sequential (P : Platform W C Op Resp ε α) (fails : C → Op → Option ε) (cs : List C) (w : W) :
    W :=
  cs.foldl (fun w c => ((P.body c).run (P.settle c (fails c)) w).2) w

section Sequential

variable {P : Platform W C Op Resp ε α} {fails : C → Op → Option ε}

@[simp] theorem sequential_nil (w : W) : sequential P fails [] w = w := rfl

theorem sequential_cons (c : C) (cs : List C) (w : W) :
    sequential P fails (c :: cs) w =
      sequential P fails cs ((P.body c).run (P.settle c (fails c)) w).2 := rfl

theorem sequential_concat (c : C) (cs : List C) (w : W) :
    sequential P fails (cs ++ [c]) w =
      ((P.body c).run (P.settle c (fails c)) (sequential P fails cs w)).2 := by
  simp [sequential, List.foldl_append]

end Sequential

/-- Every key has its slot, every call its failures, and none is cut off. -/
def Assigned (keyOf : C → Option K) (owner : K → ι) (fails : C → Op → Option ε)
    (s : Pool ι W C Op Resp ε α) : PoolAct ι C Op ε → Prop
  | .start i c => ∀ k, keyOf c = some k → owner k = i
  | .settled i op => ∀ c p, s.jobs i = some (c, p) → fails c op = none
  | .rejected i op e => ∀ c p, s.jobs i = some (c, p) → fails c op = some e
  | .crash _ => False
  | _ => True

/-- How the calls of a platform split by key. `view k` is the part of the state that
belongs to a key; an operation of a call reads and changes the part of its own key
only, in states that are `good`. -/
structure Sharding (P : Platform W C Op Resp ε α) (K V : Type) where
  member : C → Prop
  keyOf : C → Option K
  view : K → W → V
  good : W → Prop
  admits : C → Op → Prop
  body_admits : ∀ c, member c → (P.body c).Performs (admits c)
  keyed : ∀ c op, admits c op → ∃ k, keyOf c = some k
  good_exec : ∀ c w op, admits c op → good w → good (P.exec c w op).2
  frame : ∀ c w op k, admits c op → keyOf c ≠ some k → good w →
    view k (P.exec c w op).2 = view k w
  within : ∀ c w w' op k, admits c op → keyOf c = some k → good w → good w' →
    view k w = view k w' → (P.exec c w op).1 = (P.exec c w' op).1 ∧
      view k (P.exec c w op).2 = view k (P.exec c w' op).2
  env : ∀ w w', P.env w w' → good w → good w' ∧ ∀ k, view k w' = view k w

namespace Sharding

variable {P : Platform W C Op Resp ε α} (S : Sharding P K V) (fails : C → Op → Option ε)

section Runs

variable {S fails} {c : C} {p : Async Op Resp ε α} {w w' : W}

theorem good_settle {op : Op} (h : S.admits c op) (hw : S.good w) :
    S.good (P.settle c (fails c) w op).2 := by
  unfold Platform.settle
  cases fails c op with
  | some e => exact hw
  | none => exact S.good_exec c w op h hw

theorem good_run (hp : p.Performs (S.admits c)) (hw : S.good w) :
    S.good (p.run (P.settle c (fails c)) w).2 :=
  hp.run (fun _ _ h hw => good_settle h hw) hw

/-- A call leaves every other key alone. -/
theorem view_run {k : K} (hp : p.Performs (S.admits c)) (hk : S.keyOf c ≠ some k)
    (hw : S.good w) : S.view k (p.run (P.settle c (fails c)) w).2 = S.view k w := by
  have hkept : S.good (p.run (P.settle c (fails c)) w).2 ∧
      S.view k (p.run (P.settle c (fails c)) w).2 = S.view k w := by
    refine hp.run (I := fun u => S.good u ∧ S.view k u = S.view k w) (fun u op h hu => ?_) ⟨hw, rfl⟩
    refine ⟨good_settle h hu.1, ?_⟩
    unfold Platform.settle
    cases fails c op with
    | some e => exact hu.2
    | none => exact (S.frame c u op k h hk hu.1).trans hu.2
  exact hkept.2

/-- What a call does under its own key depends on nothing else. -/
theorem view_run_congr {k : K} (hp : p.Performs (S.admits c)) (hk : S.keyOf c = some k)
    (hw : S.good w) (hw' : S.good w') (hview : S.view k w = S.view k w') :
    S.view k (p.run (P.settle c (fails c)) w).2 =
      S.view k (p.run (P.settle c (fails c)) w').2 := by
  induction p generalizing w w' with
  | resolve a => exact hview
  | reject e => exact hview
  | await op rest ih =>
    rw [Async.run_await, Async.run_await]
    have hgood : S.good (P.settle c (fails c) w op).2 := good_settle hp.1 hw
    have hgood' : S.good (P.settle c (fails c) w' op).2 := good_settle hp.1 hw'
    have hsame : (P.settle c (fails c) w op).1 = (P.settle c (fails c) w' op).1 ∧
        S.view k (P.settle c (fails c) w op).2 = S.view k (P.settle c (fails c) w' op).2 := by
      unfold Platform.settle
      cases fails c op with
      | some e => exact ⟨rfl, hview⟩
      | none =>
        obtain ⟨hresp, hnext⟩ := S.within c w w' op k hp.1 hk hw hw' hview
        exact ⟨congrArg Except.ok hresp, hnext⟩
    rw [hsame.1]
    exact ih _ (hp.2 _) hgood hgood' hsame.2

end Runs

section Order

variable {S fails} {cs : List C}

theorem good_sequential (hcs : ∀ c ∈ cs, S.member c) {w : W} (hw : S.good w) :
    S.good (sequential P fails cs w) := by
  induction cs generalizing w with
  | nil => exact hw
  | cons c cs ih =>
    have hc : S.member c := hcs c List.mem_cons_self
    have hrest : ∀ d ∈ cs, S.member d := fun d hd => hcs d (List.mem_cons_of_mem _ hd)
    exact ih hrest (good_run (S.body_admits c hc) hw)

/-- The calls of one key, in their order. -/
def ofKey [DecidableEq K] (S : Sharding P K V) (k : K) (cs : List C) : List C :=
  cs.filter fun c => S.keyOf c = some k

/-- A key sees only its own calls. -/
theorem view_sequential [DecidableEq K] (hcs : ∀ c ∈ cs, S.member c) {w w' : W} (hw : S.good w)
    (hw' : S.good w')
    {k : K} (hview : S.view k w = S.view k w') :
    S.view k (sequential P fails cs w) = S.view k (sequential P fails (S.ofKey k cs) w') := by
  induction cs generalizing w w' with
  | nil => exact hview
  | cons c cs ih =>
    have hp := S.body_admits c (hcs c List.mem_cons_self)
    have hrest : ∀ d ∈ cs, S.member d := fun d hd => hcs d (List.mem_cons_of_mem _ hd)
    rw [sequential_cons]
    by_cases hk : S.keyOf c = some k
    · have hcons : S.ofKey k (c :: cs) = c :: S.ofKey k cs := by simp [ofKey, hk]
      rw [hcons, sequential_cons]
      exact ih hrest (good_run hp hw) (good_run hp hw') (view_run_congr hp hk hw hw' hview)
    · have hcons : S.ofKey k (c :: cs) = S.ofKey k cs := by simp [ofKey, hk]
      rw [hcons]
      exact ih hrest (good_run hp hw) hw' ((view_run hp hk hw).trans hview)

end Order

section Slots

variable (owner : K → ι)

variable [DecidableEq K]

/-- Every running call will leave its key as if the calls of that key, this one the
last, had run alone; a key without a running call is so already. -/
structure Tracks (w₀ : W) (cs : List C) (s : Pool ι W C Op Resp ε α) : Prop where
  good : S.good s.world
  members : ∀ c ∈ cs, S.member c
  performs : ∀ i c p, s.jobs i = some (c, p) → p.Performs (S.admits c)
  slot : ∀ i c p k, s.jobs i = some (c, p) → S.keyOf c = some k → owner k = i
  running : ∀ i c p k, s.jobs i = some (c, p) → S.keyOf c = some k →
    S.view k (p.run (P.settle c (fails c)) s.world).2 =
      S.view k (sequential P fails (S.ofKey k cs) w₀)
  rest : ∀ k, (∀ c p, s.jobs (owner k) = some (c, p) → S.keyOf c ≠ some k) →
    S.view k s.world = S.view k (sequential P fails (S.ofKey k cs) w₀)

variable {S fails owner} {w₀ w' : W} {cs : List C} {s s' : Pool ι W C Op Resp ε α}

/-- The outside world changes nothing a key sees. -/
theorem Tracks.env (h : S.Tracks fails owner w₀ cs s) (henv : P.env s.world w') :
    S.Tracks fails owner w₀ cs { s with world := w' } := by
  obtain ⟨hgood, hview⟩ := S.env _ _ henv h.good
  refine ⟨hgood, h.members, h.performs, h.slot, fun i c p k hi hk => ?_, fun k hk => ?_⟩
  · rw [← h.running i c p k hi hk]
    exact view_run_congr (h.performs i c p hi) hk hgood h.good (hview k)
  · exact (hview k).trans (h.rest k hk)

variable [DecidableEq ι] {i : ι} {c : C} {p p' : Async Op Resp ε α}

omit [DecidableEq K] in
/-- A slot that holds no call of a key after a change held none before, if the call that
changes is not of the key. -/
theorem unkeyed_of_update {x : Option (C × Async Op Resp ε α)} {k : K}
    (hi : ∀ d q, s.jobs i = some (d, q) → S.keyOf d ≠ some k)
    (hk : ∀ d q, Function.update s.jobs i x (owner k) = some (d, q) → S.keyOf d ≠ some k) :
    ∀ d q, s.jobs (owner k) = some (d, q) → S.keyOf d ≠ some k := by
  intro d q hj
  by_cases hslot : owner k = i
  · rw [hslot] at hj
    exact hi d q hj
  · exact hk d q ((Function.update_of_ne hslot _ _).trans hj)

/-- A running call moves on under its own key. -/
theorem Tracks.move (h : S.Tracks fails owner w₀ cs s) (hi : s.jobs i = some (c, p))
    (hgood : S.good w') (hp : p'.Performs (S.admits c))
    (hown : ∀ k, S.keyOf c = some k → S.view k (p'.run (P.settle c (fails c)) w').2 =
      S.view k (p.run (P.settle c (fails c)) s.world).2)
    (hframe : ∀ k, S.keyOf c ≠ some k → S.view k w' = S.view k s.world) :
    S.Tracks fails owner w₀ cs
      { world := w', jobs := Function.update s.jobs i (some (c, p')) } := by
  refine ⟨hgood, h.members, ?_, ?_, ?_, ?_⟩
  · intro j d q hj
    rcases update_eq_some hj with ⟨rfl, hjob⟩ | ⟨-, hjob⟩
    · cases hjob
      exact hp
    · exact h.performs j d q hjob
  · intro j d q k hj hk
    rcases update_eq_some hj with ⟨rfl, hjob⟩ | ⟨-, hjob⟩
    · cases hjob
      exact h.slot j c p k hi hk
    · exact h.slot j d q k hjob hk
  · intro j d q k hj hk
    rcases update_eq_some hj with ⟨rfl, hjob⟩ | ⟨hji, hjob⟩
    · cases hjob
      exact (hown k hk).trans (h.running j c p k hi hk)
    · -- another slot has another key
      have hother : S.keyOf c ≠ some k := fun hck =>
        hji ((h.slot j d q k hjob hk).symm.trans (h.slot i c p k hi hck))
      rw [← h.running j d q k hjob hk]
      exact view_run_congr (h.performs j d q hjob) hk hgood h.good (hframe k hother)
  · intro k hk
    have hother : S.keyOf c ≠ some k := by
      intro hck
      have hslot := h.slot i c p k hi hck
      refine hk c p' ?_ hck
      rw [hslot]
      exact Function.update_self ..
    refine (hframe k hother).trans (h.rest k (unkeyed_of_update (fun d q hj => ?_) hk))
    rw [hi] at hj
    cases hj
    exact hother

/-- A call that has come to its end leaves its key as it promised. -/
theorem Tracks.drop (h : S.Tracks fails owner w₀ cs s) (hi : s.jobs i = some (c, p))
    (hend : ∀ w, (p.run (P.settle c (fails c)) w).2 = w) :
    S.Tracks fails owner w₀ cs { s with jobs := Function.update s.jobs i none } := by
  have hkept : ∀ {j d q}, Function.update s.jobs i none j = some (d, q) →
      s.jobs j = some (d, q) := by
    intro j d q hj
    rcases update_eq_some hj with ⟨-, hjob⟩ | ⟨-, hjob⟩
    · cases hjob
    · exact hjob
  refine ⟨h.good, h.members, fun j d q hj => h.performs j d q (hkept hj),
    fun j d q k hj => h.slot j d q k (hkept hj), fun j d q k hj => h.running j d q k (hkept hj),
    fun k hk => ?_⟩
  by_cases hck : S.keyOf c = some k
  · have hlast := h.running i c p k hi hck
    rwa [hend] at hlast
  · refine h.rest k (unkeyed_of_update (fun d q hj => ?_) hk)
    rw [hi] at hj
    cases hj
    exact hck

/-- A call that starts takes its key over from the calls before it. -/
theorem Tracks.start (h : S.Tracks fails owner w₀ cs s) (hi : s.jobs i = none)
    (hmember : S.member c) (hslot : ∀ k, S.keyOf c = some k → owner k = i) (hw₀ : S.good w₀) :
    S.Tracks fails owner w₀ (cs ++ [c])
      { s with jobs := Function.update s.jobs i (some (c, P.body c)) } := by
  have hbody := S.body_admits c hmember
  have hown : ∀ k, S.keyOf c = some k →
      S.ofKey k (cs ++ [c]) = S.ofKey k cs ++ [c] := fun k hk => by simp [ofKey, hk]
  have hother : ∀ k, S.keyOf c ≠ some k → S.ofKey k (cs ++ [c]) = S.ofKey k cs := fun k hk => by
    simp [ofKey, hk]
  refine ⟨h.good, ?_, ?_, ?_, ?_, ?_⟩
  · intro d hd
    rcases List.mem_append.mp hd with hd | hd
    · exact h.members d hd
    · obtain rfl := List.mem_singleton.mp hd
      exact hmember
  · intro j d q hj
    rcases update_eq_some hj with ⟨rfl, hjob⟩ | ⟨-, hjob⟩
    · cases hjob
      exact hbody
    · exact h.performs j d q hjob
  · intro j d q k hj hk
    rcases update_eq_some hj with ⟨rfl, hjob⟩ | ⟨-, hjob⟩
    · cases hjob
      exact hslot k hk
    · exact h.slot j d q k hjob hk
  · intro j d q k hj hk
    rcases update_eq_some hj with ⟨rfl, hjob⟩ | ⟨hji, hjob⟩
    · cases hjob
      have hfree : S.view k s.world = S.view k (sequential P fails (S.ofKey k cs) w₀) := by
        refine h.rest k fun d q hj => ?_
        rw [hslot k hk, hi] at hj
        cases hj
      have hmembers : ∀ d ∈ S.ofKey k cs, S.member d := fun d hd =>
        h.members d (List.mem_of_mem_filter hd)
      rw [hown k hk, sequential_concat]
      exact view_run_congr hbody hk h.good (good_sequential hmembers hw₀) hfree
    · have hck : S.keyOf c ≠ some k := fun hck =>
        hji ((h.slot j d q k hjob hk).symm.trans (hslot k hck))
      rw [hother k hck]
      exact h.running j d q k hjob hk
  · intro k hk
    have hck : S.keyOf c ≠ some k := by
      intro hck
      refine hk c (P.body c) ?_ hck
      rw [hslot k hck]
      exact Function.update_self ..
    rw [hother k hck]
    refine h.rest k (unkeyed_of_update (fun d q hj => ?_) hk)
    rw [hi] at hj
    cases hj

/-- Every step keeps track. -/
theorem Tracks.step {l : PoolAct ι C Op ε} (h : S.Tracks fails owner w₀ cs s) (hw₀ : S.good w₀)
    (hc : Assigned S.keyOf owner fails s l) (hmember : ∀ c ∈ started [l], S.member c)
    (hstep : Step P s l s') : S.Tracks fails owner w₀ (cs ++ started [l]) s' := by
  cases hstep with
  | env henv =>
    change S.Tracks fails owner w₀ (cs ++ []) _
    rw [List.append_nil]
    exact h.env henv
  | @start i c hi hready => exact h.start hi (hmember c (by simp [started])) hc hw₀
  | @settled i c op k hi =>
    change S.Tracks fails owner w₀ (cs ++ []) _
    rw [List.append_nil]
    have hp := h.performs i c _ hi
    have hsettle : P.settle c (fails c) s.world op =
        (.ok (P.exec c s.world op).1, (P.exec c s.world op).2) := by
      rw [Platform.settle, hc c _ hi]
    refine h.move hi (S.good_exec c _ op hp.1 h.good) (hp.2 _) (fun k _ => ?_) fun k hk => ?_
    · rw [Async.run_await, hsettle]
    · exact S.frame c _ op k hp.1 hk h.good
  | @rejected i c op k e hi hmay =>
    change S.Tracks fails owner w₀ (cs ++ []) _
    rw [List.append_nil]
    have hp := h.performs i c _ hi
    have hsettle : P.settle c (fails c) s.world op = (.error e, s.world) := by
      rw [Platform.settle, hc c _ hi]
    refine h.move hi h.good (hp.2 _) (fun k _ => ?_) fun k _ => rfl
    rw [Async.run_await, hsettle]
  | resolve hi | reject hi =>
    change S.Tracks fails owner w₀ (cs ++ []) _
    rw [List.append_nil]
    exact h.drop hi fun _ => rfl
  | crash hi => exact absurd hc id

theorem tracks_run {ls : List (PoolAct ι C Op ε)} {w₀ : W} (hw₀ : S.good w₀)
    (hrun : RunWhere (Step P) (Assigned S.keyOf owner fails) (Pool.idle w₀) ls s)
    (hmember : ∀ c ∈ started ls, S.member c) : S.Tracks fails owner w₀ (started ls) s := by
  induction hrun with
  | nil =>
    exact ⟨hw₀, fun c hc => absurd hc List.not_mem_nil, fun i c p h => by simp [Pool.idle] at h,
      fun i c p k h => by simp [Pool.idle] at h, fun i c p k h => by simp [Pool.idle] at h,
      fun k _ => rfl⟩
  | snoc _ hc hstep ih =>
    rw [started_append] at hmember ⊢
    have hbefore := ih fun c hd => hmember c (List.mem_append_left _ hd)
    exact hbefore.step hw₀ hc (fun c hd => hmember c (List.mem_append_right _ hd)) hstep

/-- Once every call has ended, each key is as after its own calls one by one, however
the calls of the other keys stand among them. -/
theorem view_of_run {ls : List (PoolAct ι C Op ε)} {w₀ : W} (hw₀ : S.good w₀)
    (hrun : RunWhere (Step P) (Assigned S.keyOf owner fails) (Pool.idle w₀) ls s)
    (hmember : ∀ c ∈ started ls, S.member c) (hdone : ∀ i, s.jobs i = none) {ds : List C}
    (hds : ∀ c ∈ ds, S.member c) {k : K} (horder : S.ofKey k ds = S.ofKey k (started ls)) :
    S.view k s.world = S.view k (sequential P fails ds w₀) := by
  have htracks := tracks_run hw₀ hrun hmember
  have hrest := htracks.rest k fun c p hj => by simp [hdone] at hj
  rw [hrest, view_sequential hds hw₀ hw₀ rfl, horder]

end Slots

end Sharding

end Pool

end EventFlow
