import Mathlib.Tactic.TypeStar

/-!
# Transition systems with actions

A system is a function `step : σ → A → Option σ`: what an action does to a
state, or `none` where it is not enabled. `Reaches step P s s'` says that a run
leads from `s` to `s'` all of whose steps meet `P`, a condition on the state
before the step and the action.

* `Reaches.invariant`: what every step that meets `P` preserves holds of every
  state reached;
* `Reaches.restrict`: a run whose last state satisfies `N` meets `P`, if every
  step to a state that satisfies `N` meets `P` and begins in such a state;
* `Reaches.follow`: a list of actions, tried one after the other, gives a run.
-/

namespace ZenohFlatC

variable {σ A : Type*} {step : σ → A → Option σ} {P Q : σ → A → Prop}

/-- From `s`, steps that meet `P` lead to the state. -/
inductive Reaches (step : σ → A → Option σ) (P : σ → A → Prop) (s : σ) : σ → Prop
  | refl : Reaches step P s s
  | tail {s₁ s₂ : σ} {a : A} : Reaches step P s s₁ → P s₁ a → step s₁ a = some s₂ → Reaches step P s s₂

/-- No condition on the steps. -/
def anyStep : σ → A → Prop := fun _ _ => True

instance (s : σ) (a : A) : Decidable (anyStep s a) := inferInstanceAs (Decidable True)

namespace Reaches

theorem trans {s s₁ s₂ : σ} (h₁ : Reaches step P s s₁) (h₂ : Reaches step P s₁ s₂) :
    Reaches step P s s₂ := by
  induction h₂ with
  | refl => exact h₁
  | tail _ hP hstep ih => exact ih.tail hP hstep

theorem invariant {I : σ → Prop} (hI : ∀ s a s', I s → P s a → step s a = some s' → I s') {s s' : σ}
    (h : Reaches step P s s') (hs : I s) : I s' := by
  induction h with
  | refl => exact hs
  | tail _ hP hstep ih => exact hI _ _ _ ih hP hstep

theorem restrict {N : σ → Prop} (hN : ∀ s a s', step s a = some s' → N s' → N s ∧ P s a) {s s' : σ}
    (h : Reaches step Q s s') (hs' : N s') : Reaches step P s s' := by
  induction h with
  | refl => exact .refl
  | tail _ _ hstep ih =>
    obtain ⟨hs₁, hP⟩ := hN _ _ _ hstep hs'
    exact (ih hs₁).tail hP hstep

end Reaches

/-- The state after the actions `as`, where each is enabled and meets `P`. -/
def followActions (step : σ → A → Option σ) (P : σ → A → Prop) [∀ s a, Decidable (P s a)] :
    List A → σ → Option σ
  | [], s => some s
  | a :: as, s => if P s a then (step s a).bind (followActions step P as) else none

theorem Reaches.follow [∀ s a, Decidable (P s a)] (as : List A) {s s' : σ}
    (h : followActions step P as s = some s') : Reaches step P s s' := by
  induction as generalizing s with
  | nil =>
    obtain rfl : s = s' := Option.some.inj h
    exact .refl
  | cons a as ih =>
    rw [followActions] at h
    split at h
    · rename_i hP
      obtain ⟨s₁, hstep, hrest⟩ := Option.bind_eq_some_iff.mp h
      exact (Reaches.refl.tail hP hstep).trans (ih hrest)
    · cases h

end ZenohFlatC
