import Mathlib.Logic.Basic

namespace EventFlow

variable {σ Λ : Type}

/-- Runs of a labelled transition system whose every step meets `cond` in the
state it leaves; the labels stand in the order of the steps. -/
inductive RunWhere (step : σ → Λ → σ → Prop) (cond : σ → Λ → Prop) (s₀ : σ) :
    List Λ → σ → Prop
  | nil : RunWhere step cond s₀ [] s₀
  | snoc {ls : List Λ} {s s' : σ} {l : Λ} : RunWhere step cond s₀ ls s → cond s l →
      step s l s' → RunWhere step cond s₀ (ls ++ [l]) s'

/-- Runs without any condition on the steps. -/
abbrev Run (step : σ → Λ → σ → Prop) (s₀ : σ) : List Λ → σ → Prop :=
  RunWhere step (fun _ _ => True) s₀

namespace RunWhere

variable {step : σ → Λ → σ → Prop} {cond cond' : σ → Λ → Prop} {s₀ s t : σ} {ls ms : List Λ}

theorem invariant {Inv : σ → Prop} (hrun : RunWhere step cond s₀ ls s) (h₀ : Inv s₀)
    (hstep : ∀ s l s', Inv s → cond s l → step s l s' → Inv s') : Inv s := by
  induction hrun with
  | nil => exact h₀
  | snoc _ hc hs ih => exact hstep _ _ _ ih hc hs

theorem mono (hrun : RunWhere step cond s₀ ls s) (h : ∀ s l, cond s l → cond' s l) :
    RunWhere step cond' s₀ ls s := by
  induction hrun with
  | nil => exact .nil
  | snoc _ hc hs ih => exact .snoc ih (h _ _ hc) hs

theorem trans (hrun : RunWhere step cond s₀ ls s) (hrest : RunWhere step cond s ms t) :
    RunWhere step cond s₀ (ls ++ ms) t := by
  induction hrest with
  | nil => simpa using hrun
  | snoc _ hc hs ih =>
    rw [← List.append_assoc]
    exact .snoc ih hc hs

theorem single {l : Λ} (hc : cond s l) (hs : step s l t) : RunWhere step cond s [l] t := by
  have hnil : RunWhere step cond s [] s := .nil
  exact hnil.snoc hc hs

/-- One more step in front of a run. -/
theorem cons {l : Λ} (hc : cond s₀ l) (hs : step s₀ l s) (hrest : RunWhere step cond s ms t) :
    RunWhere step cond s₀ (l :: ms) t :=
  (single hc hs).trans hrest

end RunWhere

end EventFlow
