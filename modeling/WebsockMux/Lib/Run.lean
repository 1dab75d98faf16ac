import Mathlib.Tactic.SplitIfs

/-!
# Runs of a labelled transition function

A transition function `step : σ → ℓ → Option σ` and a condition `ok` on its steps. `Reachable step
ok s₀ s` says that a run from `s₀`, all of whose steps satisfy `ok`, ends in `s`; the condition sees
the state before the step and the label. `run` executes a list of labels.
-/

set_option autoImplicit false

namespace WebsockMux.Lib

variable {σ ℓ : Type}

/-- The states of the runs from `s₀` whose steps all satisfy `ok`. -/
inductive Reachable (step : σ → ℓ → Option σ) (ok : σ → ℓ → Prop) (s₀ : σ) : σ → Prop where
  | init : Reachable step ok s₀ s₀
  | step {s s' : σ} {l : ℓ} (hr : Reachable step ok s₀ s) (hok : ok s l)
      (hs : step s l = some s') : Reachable step ok s₀ s'

/-- No condition on the steps. -/
def anyStep : σ → ℓ → Prop := fun _ _ => True

variable {step : σ → ℓ → Option σ} {ok : σ → ℓ → Prop} {s₀ : σ}

/-- **Invariants.** What holds at the start and is kept by every step of a run holds in every state
of it. -/
theorem Reachable.invariant {I : σ → Prop} (h₀ : I s₀)
    (hstep : ∀ {s l s'}, Reachable step ok s₀ s → I s → ok s l → step s l = some s' → I s')
    {s : σ} (hr : Reachable step ok s₀ s) : I s := by
  induction hr with
  | init => exact h₀
  | step hr hok hs ih => exact hstep hr ih hok hs

/-- **Invariants of runs that keep a condition.** A condition `C` that holds at the end of a run, and
before a step whenever it holds after it, holds all along the run; a step lemma may then use it. -/
theorem Reachable.invariant_while {C I : σ → Prop}
    (hback : ∀ {s l s'}, step s l = some s' → C s' → C s) (h₀ : I s₀)
    (hstep : ∀ {s l s'}, Reachable step ok s₀ s → C s' → I s → ok s l → step s l = some s' → I s')
    {s : σ} (hr : Reachable step ok s₀ s) (hC : C s) : I s := by
  induction hr with
  | init => exact h₀
  | step hr hok hs ih => exact hstep hr hC (ih (hback hs hC)) hok hs

/-- A run under a condition is a run under any weaker one. -/
theorem Reachable.weaken {ok' : σ → ℓ → Prop} {s : σ} (hr : Reachable step ok s₀ s)
    (h : ∀ s l, ok s l → ok' s l) : Reachable step ok' s₀ s := by
  induction hr with
  | init => exact .init
  | step _ hok hs ih => exact .step ih (h _ _ hok) hs

/-- A run under a condition is a run without it. -/
theorem Reachable.any {s : σ} (hr : Reachable step ok s₀ s) : Reachable step anyStep s₀ s :=
  hr.weaken fun _ _ _ => trivial

/-- A run is continued by another one. -/
theorem Reachable.trans {s₁ s : σ} (hr : Reachable step ok s₀ s₁)
    (hr' : Reachable step ok s₁ s) : Reachable step ok s₀ s := by
  induction hr' with
  | init => exact hr
  | step _ hok hs ih => exact .step ih hok hs

/-- **Runs of a machine with an observer.** When every step of a machine is, seen through `f`, a step
of another one, then its runs are runs of the other one. -/
theorem Reachable.project {τ : Type} {step' : τ → ℓ → Option τ} (f : τ → σ)
    (hf : ∀ {x l x'}, step' x l = some x' → step (f x) l = some (f x')) {x₀ x : τ}
    (h₀ : Reachable step anyStep s₀ (f x₀)) (hr : Reachable step' anyStep x₀ x) :
    Reachable step anyStep s₀ (f x) := by
  induction hr with
  | init => exact h₀
  | step _ _ hs ih => exact .step ih trivial (hf hs)

/-- Execute a list of labels; `none` when a label cannot be taken or its step violates `ok`. -/
def run (step : σ → ℓ → Option σ) (ok : σ → ℓ → Prop) [∀ s l, Decidable (ok s l)] :
    σ → List ℓ → Option σ
  | s, [] => some s
  | s, l :: ls => if ok s l then (step s l).bind fun s' => run step ok s' ls else none

variable [∀ s l, Decidable (ok s l)]

/-- A run that can be executed ends in a reachable state. -/
theorem Reachable.of_run {s : σ} (hr : Reachable step ok s₀ s) :
    ∀ {ls : List ℓ} {s' : σ}, run step ok s ls = some s' → Reachable step ok s₀ s'
  | [], s', h => by
      cases h
      exact hr
  | l :: ls, s', h => by
      unfold run at h
      split_ifs at h with hok
      obtain ⟨s₁, hs, h⟩ := Option.bind_eq_some_iff.1 h
      exact Reachable.of_run (hr.step hok hs) h

/-- A run that can be executed and ends in a state with a property. -/
theorem Reachable.exists_of_run {P : σ → Prop} [DecidablePred P] (ls : List ℓ)
    (h : (run step ok s₀ ls).any (fun s => decide (P s)) = true) :
    ∃ s, Reachable step ok s₀ s ∧ P s := by
  cases hs : run step ok s₀ ls with
  | none =>
      rw [hs] at h
      cases h
  | some s =>
      rw [hs] at h
      exact ⟨s, Reachable.of_run .init hs, of_decide_eq_true h⟩

instance (s : σ) (l : ℓ) : Decidable (anyStep s l) := inferInstanceAs (Decidable True)

end WebsockMux.Lib
