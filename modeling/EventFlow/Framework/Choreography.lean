import EventFlow.Framework.Provenance
import EventFlow.Framework.Transition
import Mathlib.Data.List.Chain
import Mathlib.Logic.Function.Basic

namespace EventFlow

/-- A protocol that nobody conducts: some events begin it, the others react to an event. -/
structure Choreography (T : Type) where
  begins : T → Prop
  reacts : T → T → Prop

namespace Choreography

variable {T K : Type} (C : Choreography T)

/-- What may happen after the events of `past`. -/
def Enabled (past : List T) (t : T) : Prop := C.begins t ∨ ∃ u ∈ past, C.reacts t u

/-- Every event begins the protocol, or reacts to one in front of it. -/
inductive History : List T → Prop
  | nil : History []
  | snoc {past : List T} {t : T} : History past → C.Enabled past t → History (past ++ [t])

/-- What can come of the beginnings at all. -/
inductive Possible : T → Prop
  | begin {t : T} : C.begins t → Possible t
  | react {t u : T} : C.reacts t u → Possible u → Possible t

/-- `t` comes after `u` and after nothing else. -/
structure Only (u t : T) : Prop where
  begins : ¬ C.begins t
  reacts : ∀ v, C.reacts t v → v = u

variable {C} {past past' pre post chain : List T} {t u : T}

theorem Enabled.mono (h : C.Enabled past t) (hsub : past ⊆ past') : C.Enabled past' t := by
  rcases h with hbegins | ⟨u, hu, hreacts⟩
  · exact .inl hbegins
  · exact .inr ⟨u, hsub hu, hreacts⟩

theorem Enabled.of_only (h : C.Enabled past t) (honly : C.Only u t) : u ∈ past := by
  rcases h with hbegins | ⟨v, hv, hreacts⟩
  · exact absurd hbegins honly.begins
  · rwa [← honly.reacts v hreacts]

namespace History

theorem cause_before (h : C.History past) (hsplit : past = pre ++ t :: post) : C.Enabled pre t := by
  induction h generalizing post with
  | nil => cases pre <;> cases hsplit
  | snoc _ hen ih =>
    rcases split_snoc hsplit with ⟨rfl, rfl⟩ | ⟨post', hpre⟩
    · exact hen
    · exact ih hpre

theorem of_append (h : C.History (pre ++ post)) : C.History pre := by
  induction post using List.reverseRecOn with
  | nil => rwa [List.append_nil] at h
  | append_singleton post x ih =>
    rw [← List.append_assoc] at h
    generalize hall : pre ++ post ++ [x] = all at h
    cases h with
    | nil => simp at hall
    | snoc hpast _ =>
      apply ih
      rwa [(List.append_inj' hall rfl).1]

/-- What has happened may happen again. -/
theorem again (h : C.History past) (ht : t ∈ past) : C.Enabled past t := by
  obtain ⟨pre, post, hsplit⟩ := List.append_of_mem ht
  have hbefore : C.Enabled pre t := h.cause_before hsplit
  refine hbefore.mono fun u hu => ?_
  rw [hsplit]
  exact List.mem_append_left _ hu

theorem possible (h : C.History past) : ∀ t ∈ past, C.Possible t := by
  induction h with
  | nil => exact fun t ht => absurd ht List.not_mem_nil
  | snoc _ hen ih =>
    intro t ht
    rcases List.mem_append.mp ht with hold | hnew
    · exact ih t hold
    · rw [List.mem_singleton.mp hnew]
      rcases hen with hbegins | ⟨u, hu, hreacts⟩
      · exact .begin hbegins
      · exact .react hreacts (ih u hu)

/-- A chain of events that each come only after the one before has come in that order, as
soon as its last event has come. -/
theorem chain_sublist (h : C.History past) (hchain : List.IsChain C.Only (chain ++ [t]))
    (ht : t ∈ past) : (chain ++ [t]).Sublist past := by
  induction chain using List.reverseRecOn generalizing t past with
  | nil => exact List.singleton_sublist.mpr ht
  | append_singleton chain u ih =>
    obtain ⟨pre, post, hsplit⟩ := List.append_of_mem ht
    obtain ⟨hfront, -, hlast⟩ := List.isChain_append.mp hchain
    have honly : C.Only u t := hlast u (by simp) t (by simp)
    have hu : u ∈ pre := (h.cause_before hsplit).of_only honly
    have hpre : C.History pre := of_append (hsplit ▸ h)
    have hsub : (chain ++ [u]).Sublist pre := ih hpre hfront hu
    rw [hsplit]
    exact hsub.append (List.singleton_sublist.mpr List.mem_cons_self)

end History

section Keyed

variable [DecidableEq K] {log : List (K × T)} {s : K → List T} {k : K}

variable (C) in
/-- One history for each key, and one of them grows at a time. -/
def Step (s : K → List T) (event : K × T) (s' : K → List T) : Prop :=
  C.Enabled (s event.1) event.2 ∧ s' = Function.update s event.1 (s event.1 ++ [event.2])

/-- What a log of events holds under a key. -/
def historyOf (log : List (K × T)) (k : K) : List T :=
  (log.filter fun event => event.1 = k).map Prod.snd

theorem mem_historyOf : t ∈ historyOf log k ↔ (k, t) ∈ log := by
  simp [historyOf]

theorem historyOf_snoc : historyOf (log ++ [(k, t)]) =
    Function.update (historyOf log) k (historyOf log k ++ [t]) := by
  funext k'
  by_cases hk : k' = k
  · subst hk
    simp [historyOf]
  · have hne : ¬ k = k' := fun heq => hk heq.symm
    simp [historyOf, Function.update_of_ne hk, hne]

/-- One more event takes the machine one step further. -/
theorem run_snoc (h : Run C.Step (fun _ => []) log (historyOf log))
    (hen : C.Enabled (historyOf log k) t) :
    Run C.Step (fun _ => []) (log ++ [(k, t)]) (historyOf (log ++ [(k, t)])) :=
  h.snoc trivial ⟨hen, historyOf_snoc⟩

theorem history_of_run (h : Run C.Step (fun _ => []) log s) (k : K) : C.History (s k) := by
  let Inv (s : K → List T) : Prop := ∀ k, C.History (s k)
  have hstep : ∀ s event s', Inv s → True → C.Step s event s' → Inv s' := by
    intro s event s' hs _ hstep k
    obtain ⟨hen, rfl⟩ := hstep
    by_cases hk : k = event.1
    · subst hk
      rw [Function.update_self]
      exact (hs _).snoc hen
    · rw [Function.update_of_ne hk]
      exact hs k
  have hall : Inv s := h.invariant (fun _ => .nil) hstep
  exact hall k

end Keyed

end Choreography

end EventFlow
