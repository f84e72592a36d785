import ZenohFlatC.Framework.Transition

/-!
# Runs that a potential bounds

A potential that every step lowers, except that some actions may raise it by
less than `k`, bounds the length of a run by the number of these actions
(`followActions_length_le`). So a run with few of them ends, and where it ends
no other action is enabled.
-/

namespace ZenohFlatC

variable {σ A : Type*} {step : σ → A → Option σ} {P : σ → A → Prop}

/-- What an action may add to a potential, before the step lowers it. -/
def credit (raises : A → Bool) (k : Nat) (a : A) : Nat := if raises a then k else 0

theorem followActions_length_le [∀ s a, Decidable (P s a)] {μ : σ → Nat} {raises : A → Bool} {k : Nat}
    (hstep : ∀ s a s', P s a → step s a = some s' → μ s' + 1 ≤ μ s + credit raises k a) {as : List A}
    {s s' : σ} (h : followActions step P as s = some s') :
    μ s' + as.length ≤ μ s + k * as.countP raises := by
  induction as generalizing s with
  | nil =>
    obtain rfl : s = s' := Option.some.inj h
    show μ s + 0 ≤ μ s + k * 0
    omega
  | cons a as ih =>
    rw [followActions] at h
    split at h
    · rename_i hP
      obtain ⟨s₁, hs₁, hrest⟩ := Option.bind_eq_some_iff.mp h
      have hfirst := hstep s a s₁ hP hs₁
      have hlater := ih hrest
      have hcredit : credit raises k a + k * as.countP raises = k * (a :: as).countP raises := by
        rw [List.countP_cons, Nat.mul_add, credit]
        split <;> omega
      rw [List.length_cons]
      omega
    · cases h

end ZenohFlatC
