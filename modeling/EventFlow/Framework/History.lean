import EventFlow.Framework.Pool

namespace EventFlow

namespace Async

variable {Op : Type} {Resp : Op → Type} {ε α β W : Type}

/-- Whatever its operations settle with, the function performs each only where those that have
settled well so far allow it, and ends as `Q` says of them. -/
def Follows (S : List Op → Op → Prop) (Q : List Op → Except ε α → Prop) :
    List Op → Async Op Resp ε α → Prop
  | done, .resolve a => Q done (.ok a)
  | done, .reject e => Q done (.error e)
  | done, .await op k => S done op ∧ (∀ r, (k (.ok r)).Follows S Q (done ++ [op])) ∧
      ∀ e, (k (.error e)).Follows S Q done

variable {S S' : List Op → Op → Prop} {Q Q' : List Op → Except ε α → Prop} {done : List Op}
  {p : Async Op Resp ε α}

theorem Follows.imp (hp : p.Follows S Q done) (hs : ∀ d op, S d op → S' d op)
    (hq : ∀ d x, Q d x → Q' d x) : p.Follows S' Q' done := by
  induction p generalizing done with
  | resolve a => exact hq _ _ hp
  | reject e => exact hq _ _ hp
  | await op k ih =>
    obtain ⟨hop, hok, herr⟩ := hp
    exact ⟨hs _ _ hop, fun r => ih _ (hok r), fun e => ih _ (herr e)⟩

theorem follows_perform {op : Op} {Q : List Op → Except ε (Resp op) → Prop} (hop : S done op)
    (hok : ∀ r, Q (done ++ [op]) (.ok r)) (herr : ∀ e, Q done (.error e)) :
    (perform op : Async Op Resp ε (Resp op)).Follows S Q done := ⟨hop, hok, herr⟩

theorem follows_ofExcept {x : Except ε α} (h : Q done x) :
    (ofExcept x : Async Op Resp ε α).Follows S Q done := by
  cases x <;> exact h

/-- The rule for `await f()` inside a larger function. -/
theorem Follows.bind {f : α → Async Op Resp ε β} {Q' : List Op → Except ε β → Prop}
    (hp : p.Follows S Q done) (hf : ∀ d a, Q d (.ok a) → (f a).Follows S Q' d)
    (herr : ∀ d e, Q d (.error e) → Q' d (.error e)) : (p.bind f).Follows S Q' done := by
  induction p generalizing done with
  | resolve a => exact hf _ _ hp
  | reject e => exact herr _ _ hp
  | await op k ih =>
    obtain ⟨hop, hok, hrej⟩ := hp
    exact ⟨hop, fun r => ih _ (hok r), fun e => ih _ (hrej e)⟩

/-- The rule for `try { p } catch`. -/
theorem Follows.tryCatch {h : ε → Async Op Resp ε α} (hp : p.Follows S Q done)
    (hok : ∀ d a, Q d (.ok a) → Q' d (.ok a))
    (hh : ∀ d e, Q d (.error e) → (h e).Follows S Q' d) : (p.tryCatch h).Follows S Q' done := by
  induction p generalizing done with
  | resolve a => exact hok _ _ hp
  | reject e => exact hh _ _ hp
  | await op k ih =>
    obtain ⟨hop, hres, hrej⟩ := hp
    exact ⟨hop, fun r => ih _ (hres r), fun e => ih _ (hrej e)⟩

/-- A function whose operations are allowed whatever came before them. -/
theorem Performs.follows {S₀ : Op → Prop} (hp : p.Performs S₀)
    (h : ∀ d op, done <+: d → S₀ op → S d op) : p.Follows S (fun d _ => done <+: d) done := by
  suffices hall : ∀ d, done <+: d → p.Follows S (fun d _ => done <+: d) d from
    hall done List.prefix_rfl
  induction p with
  | resolve a => exact fun d hd => hd
  | reject e => exact fun d hd => hd
  | await op k ih =>
    intro d hd
    obtain ⟨hop, hrest⟩ := hp
    have hmore : done <+: d ++ [op] := hd.trans (List.prefix_append _ _)
    exact ⟨h d op hd hop, fun r => ih _ (hrest _) _ hmore, fun e => ih _ (hrest _) d hd⟩

/-- What each operation keeps of the past, the function keeps to its end. -/
theorem Follows.keeps {I : List Op → Prop} (hp : p.Follows S Q done)
    (hstep : ∀ d op, I d → S d op → I (d ++ [op])) (hI : I done) :
    p.Follows S (fun d x => Q d x ∧ I d) done := by
  induction p generalizing done with
  | resolve a => exact ⟨hp, hI⟩
  | reject e => exact ⟨hp, hI⟩
  | await op k ih =>
    obtain ⟨hop, hok, herr⟩ := hp
    exact ⟨hop, fun r => ih _ (hok r) (hstep _ _ hI hop), fun e => ih _ (herr e) hI⟩

theorem follows_ofExcept_bind {x : Except ε α} {f : α → Async Op Resp ε β}
    {Q : List Op → Except ε β → Prop} (hf : ∀ a, x = .ok a → (f a).Follows S Q done)
    (herr : ∀ e, x = .error e → Q done (.error e)) : ((ofExcept x).bind f).Follows S Q done := by
  cases x with
  | ok a => exact hf a rfl
  | error e => exact herr e rfl

/-- What a call has done so far is on record in the state it runs over. -/
theorem Follows.along {T : Contract W Op Resp} {I : List Op → W → Prop} {w : W}
    (hp : p.Follows S Q done) (hrely : ∀ d w w', I d w → T.rely w w' → I d w')
    (hstep : ∀ d w op, S d op → I d w →
      T.guar w (T.exec w op).2 ∧ I (d ++ [op]) (T.exec w op).2) (hw : I done w) :
    p.Along T (fun x w' => ∃ d, Q d x ∧ I d w') w := by
  induction p generalizing done w with
  | resolve a => exact ⟨done, hp, hw⟩
  | reject e => exact ⟨done, hp, hw⟩
  | await op k ih =>
    intro w' hr
    obtain ⟨hop, hok, herr⟩ := hp
    have hw' : I done w' := hrely _ _ _ hw hr
    obtain ⟨hguar, hnext⟩ := hstep _ _ _ hop hw'
    exact ⟨fun _ => ⟨hguar, ih _ (hok _) hnext⟩, fun _ e => ih _ (herr e) hw'⟩

end Async

namespace Pool

open Async

variable {ι W C Op ε α : Type} {Resp : Op → Type} [DecidableEq ι]

/-- Calls over a state that only grows, where nobody owns anything: each keeps to what the
state it starts in and its own past allow, and that keeps the state safe. `left` is what an
operation leaves behind for good. -/
structure Growth (P : Platform W C Op Resp ε α) (may : C → Prop) where
  le : W → W → Prop
  safe : W → Prop
  allowed : W → C → List Op → Op → Prop
  left : C → Op → W → Prop
  le_refl : ∀ w, le w w
  le_trans : ∀ u v w, le u v → le v w → le u w
  left_le : ∀ c op w w', left c op w → le w w' → left c op w'
  env : ∀ w w', safe w → P.env w w' → le w w' ∧ safe w'
  start : ∀ w c, may c → safe w → P.ready w c →
    (P.body c).Follows (allowed w c) (fun _ _ => True) []
  exec : ∀ w₀ w c done op, safe w → le w₀ w → (∀ op' ∈ done, left c op' w) →
    allowed w₀ c done op →
    le w (P.exec c w op).2 ∧ safe (P.exec c w op).2 ∧ left c op (P.exec c w op).2

namespace Growth

variable {P : Platform W C Op Resp ε α} {may : C → Prop} (G : Growth P may)

/-- The ownership discipline without any keys. -/
def ownership : Ownership W C Empty where
  owns _ k := k.elim
  uses _ k := k.elim
  same k _ _ := k.elim
  le := G.le
  safe := G.safe
  rest k _ := k.elim
  uses_of_owns _ k := k.elim
  same_refl k := k.elim
  same_trans k := k.elim
  le_refl := G.le_refl
  le_trans := G.le_trans
  rest_stable k := k.elim

variable {cond : Pool ι W C Op Resp ε α → PoolAct ι C Op ε → Prop}

omit [DecidableEq ι] in
theorem sound (hcond : ∀ s i c, cond s (.start i c) → may c) :
    G.ownership.Sound P (fun _ _ => True) (fun _ _ => True) cond where
  env w w' hsafe henv := by
    obtain ⟨hle, hsafe'⟩ := G.env w w' hsafe henv
    exact ⟨hle, fun k => k.elim, hsafe'⟩
  start s i c hc hready hok _ := by
    let I (done : List Op) (w : W) : Prop :=
      G.safe w ∧ G.le s.world w ∧ ∀ op ∈ done, G.left c op w
    have hrely : ∀ d w w', I d w →
        (G.ownership.contract P (fun _ _ => True) (fun _ _ => True) c).rely w w' → I d w' :=
      fun d w w' hw hr => ⟨hr.ok.safe, G.le_trans _ _ _ hw.2.1 hr.le,
        fun op hop => G.left_le _ _ _ _ (hw.2.2 op hop) hr.le⟩
    have hstart : I [] s.world := ⟨hok.safe, G.le_refl _, fun _ hop => absurd hop List.not_mem_nil⟩
    have hbody := (G.start s.world c (hcond s i c hc) hok.safe hready).along hrely
      (fun d w op hop hw => ?_) hstart
    · exact hbody.imp fun _ _ _ k => k.elim
    · obtain ⟨hsafe, hle, hleft⟩ := hw
      obtain ⟨hnext, hsafe', hdone⟩ := G.exec _ _ _ _ _ hsafe hle hleft hop
      refine ⟨⟨hnext, fun k => k.elim, hsafe', fun k => k.elim⟩, hsafe',
        G.le_trans _ _ _ hle hnext, fun op' hop' => ?_⟩
      rcases List.mem_append.mp hop' with hold | hnew
      · exact G.left_le _ _ _ _ (hleft op' hold) hnext
      · rw [List.mem_singleton.mp hnew]
        exact hdone
  free _ _ _ _ _ _ _ _ k := k.elim
  settle _ _ _ _ _ _ _ := trivial
  reject _ _ _ _ _ _ _ _ := trivial
  crash _ _ _ _ _ _ _ k := k.elim

variable {w : W} {s t : Pool ι W C Op Resp ε α} {ls ms : List (PoolAct ι C Op ε)}

/-- The state is safe all along a run. -/
theorem safe_of_run (hcond : ∀ s i c, cond s (.start i c) → may c)
    (hrun : RunWhere (Step P) cond (Pool.idle w) ls s) (hw : G.safe w) : G.safe s.world :=
  (G.sound hcond).safe hrun hw fun k => k.elim

/-- And it grows from any point of the run to any later one. -/
theorem later_of_run (hcond : ∀ s i c, cond s (.start i c) → may c)
    (hrun : RunWhere (Step P) cond (Pool.idle w) ls s) (hmore : RunWhere (Step P) cond s ms t)
    (hw : G.safe w) : G.le s.world t.world :=
  (G.sound hcond).later hrun hmore hw fun k => k.elim

end Growth

end Pool

end EventFlow
