import Mathlib.Data.List.Basic

namespace EventFlow

/-- The last element of a longer list, or an earlier one. -/
theorem split_snoc {α : Type} {l pre post : List α} {x y : α} (h : l ++ [x] = pre ++ y :: post) :
    (pre = l ∧ y = x) ∨ ∃ post', l = pre ++ y :: post' := by
  rcases List.eq_nil_or_concat post with rfl | ⟨post', z, rfl⟩
  · obtain ⟨hpre, hy⟩ := List.append_inj' h rfl
    exact .inl ⟨hpre.symm, (List.cons.inj hy).1.symm⟩
  · have hlast : l ++ [x] = (pre ++ y :: post') ++ [z] := by
      rw [h, List.append_assoc, List.cons_append, List.concat_eq_append]
    exact .inr ⟨post', (List.append_inj' hlast rfl).1⟩

/-- What a record says of where it comes from: who it is, what caused it, and which
group both belong to. -/
structure Provenance (R I G : Type) where
  ident : R → I
  cause : R → Option I
  group : R → G

namespace Provenance

variable {R I G : Type} (P : Provenance R I G)

/-- One record is a copy of the other. -/
structure Same (r r' : R) : Prop where
  ident : P.ident r = P.ident r'
  cause : P.cause r = P.cause r'
  group : P.group r = P.group r'

theorem Same.trans {P : Provenance R I G} {r r' r'' : R} (h : P.Same r r') (h' : P.Same r' r'') :
    P.Same r r'' :=
  ⟨h.ident.trans h'.ident, h.cause.trans h'.cause, h.group.trans h'.group⟩

/-- Some record of the group goes by this name. -/
def Known (log : List R) (k : I) (g : G) : Prop := ∃ r ∈ log, P.ident r = k ∧ P.group r = g

/-- A log that only grows by copies of what it holds, and by records under new names
whose cause it holds already. -/
inductive Grown : List R → Prop
  | nil : Grown []
  | fresh {log : List R} {r : R} : Grown log → (∀ r' ∈ log, P.ident r' ≠ P.ident r) →
      (∀ k, P.cause r = some k → P.Known log k (P.group r)) → Grown (log ++ [r])
  | copy {log : List R} {r r' : R} : Grown log → r' ∈ log → P.Same r r' → Grown (log ++ [r])

/-- Following the causes from a record, by whichever record goes by the name of the
cause, ends without a cycle at a record without one, in the same group. -/
inductive Leads (log : List R) : R → Prop
  | root {r : R} : P.cause r = none → Leads log r
  | step {r : R} {k : I} : P.cause r = some k → P.Known log k (P.group r) →
      (∀ r' ∈ log, P.ident r' = k → P.group r' = P.group r) →
      (∀ r' ∈ log, P.ident r' = k → Leads log r') → Leads log r

variable {P} {log log' : List R} {r r' : R}

theorem Known.mono {k : I} {g : G} (h : P.Known log k g) (hsub : log ⊆ log') :
    P.Known log' k g := by
  obtain ⟨r, hr, hk⟩ := h
  exact ⟨r, hsub hr, hk⟩

/-- A name stands for one cause and one group. -/
theorem Grown.unique (h : P.Grown log) : ∀ r ∈ log, ∀ r' ∈ log, P.ident r = P.ident r' →
    P.cause r = P.cause r' ∧ P.group r = P.group r' := by
  induction h with
  | nil => exact fun r hr => absurd hr List.not_mem_nil
  | @fresh log x _ hnew _ ih =>
    intro r hr r' hr' hid
    rcases List.mem_append.mp hr with hr | hr
    · rcases List.mem_append.mp hr' with hr' | hr'
      · exact ih r hr r' hr' hid
      · rw [List.mem_singleton.mp hr'] at hid
        exact absurd hid (hnew r hr)
    · rw [List.mem_singleton.mp hr] at hid ⊢
      rcases List.mem_append.mp hr' with hr' | hr'
      · exact absurd hid.symm (hnew r' hr')
      · rw [List.mem_singleton.mp hr']
        exact ⟨rfl, rfl⟩
  | @copy log x y _ hy hsame ih =>
    have hlast : ∀ r ∈ log, P.ident r = P.ident x → P.cause r = P.cause x ∧
        P.group r = P.group x := by
      intro r hr hid
      obtain ⟨hcause, hgroup⟩ := ih r hr y hy (hid.trans hsame.ident)
      exact ⟨hcause.trans hsame.cause.symm, hgroup.trans hsame.group.symm⟩
    intro r hr r' hr' hid
    rcases List.mem_append.mp hr with hr | hr
    · rcases List.mem_append.mp hr' with hr' | hr'
      · exact ih r hr r' hr' hid
      · rw [List.mem_singleton.mp hr'] at hid ⊢
        exact hlast r hr hid
    · rw [List.mem_singleton.mp hr] at hid ⊢
      rcases List.mem_append.mp hr' with hr' | hr'
      · obtain ⟨hcause, hgroup⟩ := hlast r' hr' hid.symm
        exact ⟨hcause.symm, hgroup.symm⟩
      · rw [List.mem_singleton.mp hr']
        exact ⟨rfl, rfl⟩

/-- Every cause stands in front of its effect. -/
theorem Grown.cause_before (h : P.Grown log) : ∀ pre r post, log = pre ++ r :: post →
    ∀ k, P.cause r = some k → P.Known pre k (P.group r) := by
  induction h with
  | nil =>
    intro pre r post hlog
    cases pre <;> cases hlog
  | fresh _ _ hcause ih =>
    intro pre r post hlog k hk
    rcases split_snoc hlog with ⟨rfl, rfl⟩ | ⟨post', hpre⟩
    · exact hcause k hk
    · exact ih pre r post' hpre k hk
  | copy _ hmem hsame ih =>
    intro pre r post hlog k hk
    rcases split_snoc hlog with ⟨rfl, rfl⟩ | ⟨post', hpre⟩
    · obtain ⟨before, after, hsplit⟩ := List.append_of_mem hmem
      have hknown := ih before _ after hsplit k (hsame.cause.symm.trans hk)
      rw [hsame.group, hsplit]
      exact hknown.mono (List.subset_append_left _ _)
    · exact ih pre r post' hpre k hk

/-- What copies share leads the same way. -/
theorem Leads.same (h : P.Leads log r') (hsame : P.Same r r') : P.Leads log r := by
  cases h with
  | root hnone => exact .root (hsame.cause.trans hnone)
  | step hcause hknown hgroup hall =>
    refine .step (hsame.cause.trans hcause) (hsame.group ▸ hknown) (fun x hx hid => ?_) hall
    exact (hgroup x hx hid).trans hsame.group.symm

/-- Under a name that is known, a record of a new name adds nothing. -/
theorem Known.old {x : R} {k : I} {g : G} (h : P.Known log k g)
    (hnew : ∀ r' ∈ log, P.ident r' ≠ P.ident x) : ∀ r' ∈ log ++ [x], P.ident r' = k → r' ∈ log := by
  intro r' hr' hid
  rcases List.mem_append.mp hr' with hr' | hr'
  · exact hr'
  · rw [List.mem_singleton.mp hr'] at hid
    obtain ⟨y, hy, hyid, -⟩ := h
    exact absurd (hyid.trans hid.symm) (hnew y hy)

/-- A new name is nobody's cause. -/
theorem Leads.fresh {x : R} (h : P.Leads log r) (hnew : ∀ r' ∈ log, P.ident r' ≠ P.ident x) :
    P.Leads (log ++ [x]) r := by
  induction h with
  | root hnone => exact .root hnone
  | @step r k hcause hknown hgroup _ ih =>
    have hold := hknown.old hnew
    exact .step hcause (hknown.mono (List.subset_append_left _ _))
      (fun r' hr' hid => hgroup r' (hold r' hr' hid) hid)
      fun r' hr' hid => ih r' (hold r' hr' hid) hid

/-- A copy leads on like its original. -/
theorem Leads.copy {x y : R} (h : P.Leads log r) (hy : y ∈ log) (hsame : P.Same x y) :
    P.Leads (log ++ [x]) r := by
  induction h with
  | root hnone => exact .root hnone
  | step hcause hknown hgroup _ ih =>
    refine .step hcause (hknown.mono (List.subset_append_left _ _)) (fun r' hr' hid => ?_)
      fun r' hr' hid => ?_
    · rcases List.mem_append.mp hr' with hr' | hr'
      · exact hgroup r' hr' hid
      · rw [List.mem_singleton.mp hr'] at hid ⊢
        exact hsame.group.trans (hgroup y hy (hsame.ident.symm.trans hid))
    · rcases List.mem_append.mp hr' with hr' | hr'
      · exact ih r' hr' hid
      · rw [List.mem_singleton.mp hr'] at hid ⊢
        exact (ih y hy (hsame.ident.symm.trans hid)).same hsame

/-- In a log that has grown so, the causes of every record lead back to a root of its
group. -/
theorem Grown.leads (h : P.Grown log) : ∀ r ∈ log, P.Leads log r := by
  induction h with
  | nil => exact fun r hr => absurd hr List.not_mem_nil
  | @fresh log x hgrown hnew hcause ih =>
    intro r hr
    rcases List.mem_append.mp hr with hr | hr
    · exact (ih r hr).fresh hnew
    · rw [List.mem_singleton.mp hr]
      cases hx : P.cause x with
      | none => exact .root hx
      | some k =>
        have hold := (hcause k hx).old hnew
        obtain ⟨y, hy, hyid, hygroup⟩ := hcause k hx
        refine .step hx ⟨y, List.mem_append_left _ hy, hyid, hygroup⟩ (fun r' hr' hid => ?_)
          fun r' hr' hid => (ih r' (hold r' hr' hid)).fresh hnew
        exact (hgrown.unique r' (hold r' hr' hid) y hy (hid.trans hyid.symm)).2.trans hygroup
  | @copy log x y _ hy hsame ih =>
    intro r hr
    rcases List.mem_append.mp hr with hr | hr
    · exact (ih r hr).copy hy hsame
    · rw [List.mem_singleton.mp hr]
      exact ((ih y hy).copy hy hsame).same hsame

end Provenance

end EventFlow
