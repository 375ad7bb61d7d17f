import EventFlow.Framework.Pool

namespace EventFlow

/-- The rule for an awaited operation whose answer says something of the state. -/
theorem Async.along_await_bind {Op W ε α : Type} {Resp : Op → Type} {T : Async.Contract W Op Resp}
    {Q : Except ε α → W → Prop} {op : Op} {f : Resp op → Async Op Resp ε α} {w : W}
    (hok : ∀ w', T.rely w w' → T.guar w' (T.exec w' op).2 ∧
      (f (T.exec w' op).1).Along T Q (T.exec w' op).2)
    (herr : ∀ w' e, T.rely w w' → Q (.error e) w') : ((perform op).bind f).Along T Q w :=
  fun w' hr => ⟨fun _ => hok w' hr, fun _ e => herr w' e hr⟩

namespace Pool

open Async

variable {ι W C Op ε α : Type} {Resp : Op → Type} [DecidableEq ι]

/-- The terms of a call over a state that only grows: it relies on what is known of every state
and on an invariant that all calls keep. -/
def rising (P : Platform W C Op Resp ε α) (le : W → W → Prop) (known inv : W → Prop) (c : C) :
    Contract W Op Resp where
  exec := P.exec c
  rely w w' := le w w' ∧ known w' ∧ inv w'
  settles _ := True
  rejects _ := True
  guar _ w' := inv w'

/-- Calls that are told what their operations find. `known` holds anyway of every state of a
run, `inv` is what the calls keep, and `ends` says how a call leaves the state, by the one that
it began in. -/
structure Course (P : Platform W C Op Resp ε α) (may : C → Prop) where
  le : W → W → Prop
  known : W → Prop
  inv : W → Prop
  ends : W → C → Except ε α → W → Prop
  le_refl : ∀ w, le w w
  le_trans : ∀ u v w, le u v → le v w → le u w
  env : ∀ w w', known w → inv w → P.env w w' → le w w' ∧ inv w'
  exec : ∀ c w op, le w (P.exec c w op).2
  start : ∀ w c, may c → known w → inv w → P.ready w c →
    (P.body c).Along (rising P le known inv c) (ends w c) w

/-- From one state to another a free slot takes a call from its start to its result. -/
def Served (P : Platform W C Op Resp ε α) (cond : Pool ι W C Op Resp ε α → PoolAct ι C Op ε → Prop)
    (s : Pool ι W C Op Resp ε α) (c : C) (a : α) (t : Pool ι W C Op Resp ε α) : Prop :=
  ∃ i ls, s.jobs i = none ∧ P.ready s.world c ∧ cond s (.start i c) ∧
    RunWhere (Step P) (fun s l => cond s l ∧ l ≠ .finish i ∧ l ≠ .crash i)
      (s.put i c (P.body c) s.world) ls t ∧ t.jobs i = some (c, .resolve a)

section Serving

variable {P : Platform W C Op Resp ε α} {s : Pool ι W C Op Resp ε α} {i : ι} {c : C} {a : α}
  {w : W} {cond : Pool ι W C Op Resp ε α → PoolAct ι C Op ε → Prop}

/-- A running call whose operations all settle well gets to its result. -/
theorem settle_run {p : Async Op Resp ε α} (hcond : ∀ t op, cond t (.settled i op))
    (hi : s.jobs i = some (c, p)) (hend : p.run (P.settle c fun _ => none) s.world = (.ok a, w)) :
    ∃ ls, RunWhere (Step P) (fun t l => cond t l ∧ l ≠ .finish i ∧ l ≠ .crash i) s ls
      (s.put i c (.resolve a) w) := by
  induction p generalizing s with
  | resolve b =>
    obtain ⟨hb, rfl⟩ := Prod.mk.inj hend
    obtain rfl := Except.ok.inj hb
    rw [put_self hi]
    exact ⟨[], .nil⟩
  | reject e => cases hend
  | await op k ih =>
    obtain ⟨ls, hls⟩ := ih _ (put_jobs s i c (k (.ok (P.exec c s.world op).1)) _) hend
    rw [put_put] at hls
    exact ⟨_, .cons ⟨hcond s op, nofun, nofun⟩ (.settled hi) hls⟩

/-- A call that is served takes part in a run. -/
theorem Served.run {t : Pool ι W C Op Resp ε α} (h : Served P cond s c a t) :
    ∃ ls, RunWhere (Step P) cond s ls t := by
  obtain ⟨i, ls, hi, hready, hstart, hmore, -⟩ := h
  exact ⟨_, .cons hstart (.start hi hready) (hmore.mono fun _ _ hc => hc.1)⟩

/-- A free slot can serve a call. -/
theorem served_of_run (hcond : ∀ t op, cond t (.settled i op)) (hi : s.jobs i = none)
    (hready : P.ready s.world c) (hstart : cond s (.start i c))
    (hend : (P.body c).run (P.settle c fun _ => none) s.world = (.ok a, w)) :
    Served P cond s c a (s.put i c (.resolve a) w) := by
  obtain ⟨ls, hls⟩ := settle_run hcond (put_jobs s i c (P.body c) s.world) hend
  rw [put_put] at hls
  exact ⟨i, ls, hi, hready, hstart, hls, put_jobs s i c _ w⟩

/-- And is free again when it is done. -/
theorem finish_served (hfin : ∀ t, cond t (.finish i)) (hi : s.jobs i = none) :
    RunWhere (Step P) cond (s.put i c (.resolve a) w) [.finish i] { s with world := w } := by
  have hstep : Step P (s.put i c (.resolve a) w) (.finish i)
      { s.put i c (.resolve a) w with
        jobs := Function.update (s.put i c (.resolve a) w).jobs i none } :=
    .resolve (put_jobs s i c _ w)
  have hback : Function.update (s.put i c (.resolve a) w).jobs i none = s.jobs := by
    rw [put, Function.update_idem, ← hi, Function.update_eq_self]
  rw [hback] at hstep
  exact .single (hfin _) hstep

end Serving

namespace Course

variable {P : Platform W C Op Resp ε α} {may : C → Prop} (K : Course P may)

/-- A call on its way, begun in `w₀`. -/
def Going (w₀ : W) (c : C) (p : Async Op Resp ε α) (w : W) : Prop :=
  ∃ w₁, K.le w₁ w ∧ p.Along (rising P K.le K.known K.inv c) (K.ends w₀ c) w₁

structure Inv (s : Pool ι W C Op Resp ε α) : Prop where
  inv : K.inv s.world
  jobs : ∀ i c p, s.jobs i = some (c, p) → ∃ w₀, K.Going w₀ c p s.world

variable {K} {w w' w₀ : W} {c : C} {op : Op} {k : Except ε (Resp op) → Async Op Resp ε α}
  {s s' t : Pool ι W C Op Resp ε α} {l : PoolAct ι C Op ε} {ls : List (PoolAct ι C Op ε)}
  {cond : Pool ι W C Op Resp ε α → PoolAct ι C Op ε → Prop}

theorem Going.mono {p : Async Op Resp ε α} (h : K.Going w₀ c p w) (hle : K.le w w') :
    K.Going w₀ c p w' := by
  obtain ⟨w₁, hle₁, hp⟩ := h
  exact ⟨w₁, K.le_trans _ _ _ hle₁ hle, hp⟩

theorem Going.settle (h : K.Going w₀ c (.await op k) w) (hknown : K.known w) (hinv : K.inv w) :
    K.inv (P.exec c w op).2 ∧ K.Going w₀ c (k (.ok (P.exec c w op).1)) (P.exec c w op).2 := by
  obtain ⟨w₁, hle, hp⟩ := h
  obtain ⟨hguar, hnext⟩ := (hp w ⟨hle, hknown, hinv⟩).1 trivial
  exact ⟨hguar, _, K.le_refl _, hnext⟩

theorem Going.reject {e : ε} (h : K.Going w₀ c (.await op k) w) (hknown : K.known w)
    (hinv : K.inv w) : K.Going w₀ c (k (.error e)) w := by
  obtain ⟨w₁, hle, hp⟩ := h
  exact ⟨w, K.le_refl _, (hp w ⟨hle, hknown, hinv⟩).2 trivial e⟩

/-- Every step goes up, and keeps all calls on their way. -/
theorem Inv.step (h : K.Inv s) (hknown : K.known s.world)
    (hmay : ∀ i c, l = .start i c → may c) (hstep : Step P s l s') :
    K.le s.world s'.world ∧ K.Inv s' := by
  have hkeep : ∀ {w'}, K.le s.world w' → ∀ i c p, s.jobs i = some (c, p) →
      ∃ w₀, K.Going w₀ c p w' := by
    intro w' hle i c p hi
    obtain ⟨w₀, hgoing⟩ := h.jobs i c p hi
    exact ⟨w₀, hgoing.mono hle⟩
  have hmove : ∀ {w' i c p}, K.le s.world w' → (∃ w₀, K.Going w₀ c p w') →
      ∀ j d q, Function.update s.jobs i (some (c, p)) j = some (d, q) →
        ∃ w₀, K.Going w₀ d q w' := by
    intro w' i c p hle hnew j d q hj
    rcases update_eq_some hj with ⟨-, hjob⟩ | ⟨-, hjob⟩
    · cases hjob
      exact hnew
    · exact hkeep hle j d q hjob
  have hdrop : ∀ i j d q, Function.update s.jobs i none j = some (d, q) →
      ∃ w₀, K.Going w₀ d q s.world := by
    intro i j d q hj
    rcases update_eq_some hj with ⟨-, hjob⟩ | ⟨-, hjob⟩
    · cases hjob
    · exact h.jobs j d q hjob
  cases hstep with
  | env hw =>
    obtain ⟨hle, hinv⟩ := K.env _ _ hknown h.inv hw
    exact ⟨hle, hinv, hkeep hle⟩
  | @start i c hi hready =>
    have hbody := K.start s.world c (hmay i c rfl) hknown h.inv hready
    exact ⟨K.le_refl _, h.inv,
      hmove (K.le_refl _) ⟨s.world, s.world, K.le_refl _, hbody⟩⟩
  | @settled i c op k hi =>
    obtain ⟨w₀, hgoing⟩ := h.jobs i _ _ hi
    obtain ⟨hinv, hnext⟩ := hgoing.settle hknown h.inv
    exact ⟨K.exec _ _ _, hinv, hmove (K.exec _ _ _) ⟨w₀, hnext⟩⟩
  | @rejected i c op k e hi _ =>
    obtain ⟨w₀, hgoing⟩ := h.jobs i _ _ hi
    exact ⟨K.le_refl _, h.inv, hmove (K.le_refl _) ⟨w₀, hgoing.reject hknown h.inv⟩⟩
  | resolve _ | reject _ | crash _ => exact ⟨K.le_refl _, h.inv, hdrop _⟩

/-- The invariant rule: what is known of all runs may be used at every await. -/
theorem inv_of_run (hcond : ∀ s i c, cond s (.start i c) → may c)
    (hknown : ∀ ls s, RunWhere (Step P) cond (Pool.idle w) ls s → K.known s.world)
    (hrun : RunWhere (Step P) cond (Pool.idle w) ls s) (hw : K.inv w) : K.Inv s := by
  induction hrun with
  | nil => exact ⟨hw, fun i c p hi => by cases hi⟩
  | @snoc ls s s' l hrun hc hstep ih =>
    refine (ih.step (hknown ls s hrun) (fun i c hl => ?_) hstep).2
    subst hl
    exact hcond s i c hc

/-- The result rule: a call that has been taken to its result leaves the state as it ends. -/
theorem ends_of_served {a : α} (hcond : ∀ s i c, cond s (.start i c) → may c)
    (hknown : ∀ ls s, RunWhere (Step P) cond (Pool.idle w) ls s → K.known s.world)
    (hrun : RunWhere (Step P) cond (Pool.idle w) ls s) (hw : K.inv w)
    (hserved : Served P cond s c a t) :
    ∃ w₁, K.le w₁ t.world ∧ K.ends s.world c (.ok a) w₁ := by
  obtain ⟨i, ms, hi, hready, hstart, hmore, hend⟩ := hserved
  have hbegun : RunWhere (Step P) cond (Pool.idle w) (ls ++ [.start i c])
      (s.put i c (P.body c) s.world) := hrun.snoc hstart (.start hi hready)
  have hs : K.Inv s := inv_of_run hcond hknown hrun hw
  have hbody := K.start s.world c (hcond s i c hstart) (hknown _ _ hrun) hs.inv hready
  -- the slot holds this call all along, since nothing but a finish or a crash frees it
  let I (u : Pool ι W C Op Resp ε α) : Prop := (∃ ls, RunWhere (Step P) cond (Pool.idle w) ls u) ∧
    ∃ p, u.jobs i = some (c, p) ∧ K.Going s.world c p u.world
  have hfirst : I (s.put i c (P.body c) s.world) :=
    ⟨⟨_, hbegun⟩, _, put_jobs s i c _ _, s.world, K.le_refl _, hbody⟩
  have hgoing : I t := by
    refine hmore.invariant hfirst fun u l u' hI hcl hstep => ?_
    obtain ⟨⟨ls', hu⟩, p, hjob, hgoing⟩ := hI
    obtain ⟨hc, hfinish, hcrash⟩ := hcl
    refine ⟨⟨_, hu.snoc hc hstep⟩, ?_⟩
    have hinv : K.Inv u := inv_of_run hcond hknown hu hw
    have hle : K.le u.world u'.world := (hinv.step (hknown _ _ hu) (fun j d hl => by
      subst hl
      exact hcond u j d hc) hstep).1
    cases hstep with
    | env _ => exact ⟨p, hjob, hgoing.mono hle⟩
    | @start j d hj _ =>
      have hne : i ≠ j := by
        rintro rfl
        rw [hjob] at hj
        cases hj
      exact ⟨p, (Function.update_of_ne hne _ _).trans hjob, hgoing.mono hle⟩
    | @settled j d op k hj =>
      by_cases hij : i = j
      · subst hij
        rw [hjob] at hj
        cases hj
        obtain ⟨-, hnext⟩ := hgoing.settle (hknown _ _ hu) hinv.inv
        exact ⟨_, Function.update_self .., hnext⟩
      · exact ⟨p, (Function.update_of_ne hij _ _).trans hjob, hgoing.mono hle⟩
    | @rejected j d op k e hj _ =>
      by_cases hij : i = j
      · subst hij
        rw [hjob] at hj
        cases hj
        exact ⟨_, Function.update_self .., hgoing.reject (hknown _ _ hu) hinv.inv⟩
      · exact ⟨p, (Function.update_of_ne hij _ _).trans hjob, hgoing.mono hle⟩
    | @resolve j d a hj | @reject j d e hj =>
      have hne : i ≠ j := by
        rintro rfl
        exact hfinish rfl
      exact ⟨p, (Function.update_of_ne hne _ _).trans hjob, hgoing.mono hle⟩
    | @crash j d q hj =>
      have hne : i ≠ j := by
        rintro rfl
        exact hcrash rfl
      exact ⟨p, (Function.update_of_ne hne _ _).trans hjob, hgoing.mono hle⟩
  obtain ⟨-, p, hjob, w₁, hle, hp⟩ := hgoing
  rw [hend] at hjob
  cases hjob
  exact ⟨w₁, hle, hp⟩

end Course

end Pool

end EventFlow
