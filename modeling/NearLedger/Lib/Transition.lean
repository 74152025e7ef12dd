/-
  NearLedger.Lib.Transition

  Labelled transition relations and their runs: what one step preserves every
  run preserves (`Run.invariant`), runs are composed phase by phase
  (`Run.append`), and in a deterministic system every run is the beginning of
  the one that ends stuck (`Run.extends_to_stuck`).  Steps that change nothing
  can be left out of a run (`Run.of_stutter`).

  `exec` is the same for a step function, so that a run on concrete labels can
  be evaluated.
-/

import Mathlib.Tactic.Common

namespace Transition

variable {σ Λ : Type*}

/-- `Run R s ls s'`: the labels `ls`, in order, lead from `s` to `s'`. -/
inductive Run (R : σ → Λ → σ → Prop) : σ → List Λ → σ → Prop where
  | nil (s : σ) : Run R s [] s
  | cons {s s' s'' : σ} {l : Λ} {ls : List Λ} :
      R s l s' → Run R s' ls s'' → Run R s (l :: ls) s''

namespace Run

variable {R : σ → Λ → σ → Prop}

theorem single {s s' : σ} {l : Λ} (h : R s l s') : Run R s [l] s' :=
  .cons h (.nil s')

theorem append {s s' s'' : σ} {ls ls' : List Λ} (h : Run R s ls s') (h' : Run R s' ls' s'') :
    Run R s (ls ++ ls') s'' := by
  induction h with
  | nil => exact h'
  | cons hstep _ ih => exact .cons hstep (ih h')

/-- A run of steps that are all steps of another relation. -/
theorem mono {R' : σ → Λ → σ → Prop} (hle : ∀ s l s', R s l s' → R' s l s') {s s' : σ}
    {ls : List Λ} (h : Run R s ls s') : Run R' s ls s' := by
  induction h with
  | nil s => exact .nil s
  | cons hs _ ih => exact .cons (hle _ _ _ hs) ih

/-- A run of two lists of labels passes through a state between them. -/
theorem split {s s'' : σ} {ls ls' : List Λ} (h : Run R s (ls ++ ls') s'') :
    ∃ s', Run R s ls s' ∧ Run R s' ls' s'' := by
  induction ls generalizing s with
  | nil => exact ⟨s, .nil s, h⟩
  | cons l ls ih =>
      cases h with
      | cons hstep hrest =>
          obtain ⟨s', hrun, hrest⟩ := ih hrest
          exact ⟨s', .cons hstep hrun, hrest⟩

/-- What every step preserves holds at the end of every run. -/
theorem invariant {I : σ → Prop} (hstep : ∀ s l s', I s → R s l s' → I s') {s s' : σ} {ls : List Λ}
    (h : Run R s ls s') (h0 : I s) : I s' := by
  induction h with
  | nil => exact h0
  | cons hs _ ih => exact ih (hstep _ _ _ h0 hs)

/-- Steps that leave the state as it is can be left out: if every step of `R'` is one of `R` or does
    that, every run of `R'` is a run of `R` on some of its labels. -/
theorem of_stutter {R' : σ → Λ → σ → Prop} {I : σ → Prop}
    (hinv : ∀ s l s', I s → R' s l s' → I s')
    (hstep : ∀ s l s', I s → R' s l s' → R s l s' ∨ s' = s) {s s' : σ} {ls : List Λ}
    (h : Run R' s ls s') (h0 : I s) : ∃ ls', ls'.Sublist ls ∧ Run R s ls' s' := by
  induction h with
  | nil s => exact ⟨[], List.nil_sublist _, .nil s⟩
  | @cons s t s' l ls hs _ ih =>
      obtain ⟨ls', hsub, hrun⟩ := ih (hinv _ _ _ h0 hs)
      rcases hstep _ _ _ h0 hs with hR | rfl
      · exact ⟨l :: ls', hsub.cons_cons l, .cons hR hrun⟩
      · exact ⟨ls', hsub.cons l, hrun⟩

end Run

/-! ## Deterministic systems -/

/-- At most one label is enabled in a state, and it has one successor. -/
def Deterministic (R : σ → Λ → σ → Prop) : Prop :=
  ∀ s l₁ s₁ l₂ s₂, R s l₁ s₁ → R s l₂ s₂ → l₁ = l₂ ∧ s₁ = s₂

/-- Every run of a deterministic system goes on to the state in which it is stuck. -/
theorem Run.extends_to_stuck {R : σ → Λ → σ → Prop} (hdet : Deterministic R) {s s₁ s₂ : σ}
    {ls₁ ls₂ : List Λ} (h₁ : Run R s ls₁ s₁) (h₂ : Run R s ls₂ s₂) (hstuck : ∀ l t, ¬ R s₂ l t) :
    ∃ ls, Run R s₁ ls s₂ := by
  induction h₁ generalizing ls₂ with
  | nil s => exact ⟨ls₂, h₂⟩
  | cons hs _ ih =>
      cases h₂ with
      | nil => exact absurd hs (hstuck _ _)
      | cons hs' hrest =>
          obtain ⟨-, rfl⟩ := hdet _ _ _ _ _ hs hs'
          exact ih hrest

/-! ## Step functions -/

/-- The relation of a step function. -/
def ofFn (step : σ → Λ → Option σ) (s : σ) (l : Λ) (s' : σ) : Prop :=
  step s l = some s'

/-- The state after the labels, or `none` when one of them is not enabled. -/
def exec (step : σ → Λ → Option σ) : σ → List Λ → Option σ
  | s, [] => some s
  | s, l :: ls => (step s l).bind fun s' => exec step s' ls

/-- Evaluating the labels is running them. -/
theorem run_of_exec {step : σ → Λ → Option σ} {ls : List Λ} :
    ∀ {s s' : σ}, exec step s ls = some s' → Run (ofFn step) s ls s' := by
  induction ls with
  | nil =>
      intro s s' h
      obtain rfl : s = s' := by simpa [exec] using h
      exact .nil s
  | cons l ls ih =>
      intro s s' h
      obtain ⟨t, hstep, hrest⟩ := Option.bind_eq_some_iff.mp h
      exact .cons hstep (ih hrest)

end Transition
