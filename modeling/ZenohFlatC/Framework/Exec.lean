import Mathlib.Logic.Basic
import Mathlib.Tactic.TypeStar

/-!
# Programs that may exit, and what they mirror

A program over a state that may exit is an `EStateM ε σ α`: it returns a value
in a new state (`.ok`), or exits with an `ε` (`.error`). `bind_ok_iff` takes a
run that returned apart into the runs of its steps; `bind_of_ok` and
`bind_of_error` put one together.

`Mirrors S p R T` says that `p` does on the concrete states what the relation
`R` does on the abstract ones, in both directions, where `S` relates the
states before and `T` the states after: what `R` allows is a run of `p`
(`run`), and every run of `p` that returns, to a state that `T` relates to an
abstract one, is allowed by `R` from an abstract state that `S` relates to
where the run began (`back`). The second is a simulation backwards: it reads
off the end of a run what the beginning was. Steps compose (`Mirrors.bind`).
-/

namespace ZenohFlatC

variable {ε σ α β A : Type}

/-- The value that a run returned. -/
def returned : EStateM.Result ε σ α → Option α
  | .ok a _ => some a
  | .error _ _ => none

/-- What a run exited with. -/
def exited : EStateM.Result ε σ α → Option ε
  | .ok _ _ => none
  | .error e _ => some e

/-- The state a run ended in. -/
def endState : EStateM.Result ε σ α → σ
  | .ok _ s => s
  | .error _ s => s

theorem returned_eq_some {r : EStateM.Result ε σ α} {a : α} : returned r = some a ↔ ∃ s, r = .ok a s := by
  cases r with
  | ok b s => simp [returned]
  | error e s => simp [returned]

theorem bind_ok_iff {x : EStateM ε σ α} {f : α → EStateM ε σ β} {s s' : σ} {b : β} :
    (x >>= f) s = .ok b s' ↔ ∃ a s₁, x s = .ok a s₁ ∧ f a s₁ = .ok b s' := by
  show EStateM.bind x f s = .ok b s' ↔ _
  unfold EStateM.bind
  cases x s with
  | ok a s₁ => exact ⟨fun h => ⟨a, s₁, rfl, h⟩, by rintro ⟨_, _, ⟨⟩, h⟩; exact h⟩
  | error e s₁ => simp

theorem bind_of_ok {x : EStateM ε σ α} {f : α → EStateM ε σ β} {s s₁ : σ} {a : α}
    (h : x s = .ok a s₁) : (x >>= f) s = f a s₁ := by
  show EStateM.bind x f s = _
  simp only [EStateM.bind, h]

theorem bind_of_error {x : EStateM ε σ α} {f : α → EStateM ε σ β} {s s₁ : σ} {e : ε}
    (h : x s = .error e s₁) : (x >>= f) s = .error e s₁ := by
  show EStateM.bind x f s = _
  simp only [EStateM.bind, h]

theorem pure_ok_iff {a b : α} {s s' : σ} :
    (pure a : EStateM ε σ α) s = .ok b s' ↔ a = b ∧ s = s' := by
  show EStateM.Result.ok a s = .ok b s' ↔ _
  simp

/-- `R` then `Q`, which may depend on the value of `R`. -/
def thenRel (R : A → α → A → Prop) (Q : α → A → β → A → Prop) : A → β → A → Prop :=
  fun a y a'' => ∃ x a', R a x a' ∧ Q x a' y a''

/-- The value `x`, and no change. -/
def pureRel (x : α) : A → α → A → Prop := fun a y a' => y = x ∧ a' = a

/-- The program `p` does on the states what `R` does on the abstract states
that `S` relates to them before and `T` after. -/
structure Mirrors (S : σ → A → Prop) (p : EStateM ε σ α) (R : A → α → A → Prop) (T : σ → A → Prop) :
    Prop where
  run {s : σ} {a a' : A} {x : α} : S s a → R a x a' → ∃ s', p s = .ok x s' ∧ T s' a'
  back {s s' : σ} {a' : A} {x : α} : p s = .ok x s' → T s' a' → ∃ a, S s a ∧ R a x a'

namespace Mirrors

variable {S T U : σ → A → Prop}

theorem pure (x : α) : Mirrors S (Pure.pure x : EStateM ε σ α) (pureRel x) S where
  run := by
    rintro s a a' y hs ⟨rfl, rfl⟩
    exact ⟨s, rfl, hs⟩
  back := by
    intro s s' a' y h hs
    obtain ⟨rfl, rfl⟩ := pure_ok_iff.mp h
    exact ⟨a', hs, rfl, rfl⟩

/-- A program that never returns. -/
theorem throw (e : ε) (R : A → α → A → Prop) (hR : ∀ a x a', ¬R a x a') :
    Mirrors S (MonadExcept.throw e : EStateM ε σ α) R T where
  run _ h := absurd h (hR _ _ _)
  back h := by cases h

theorem bind {p : EStateM ε σ α} {f : α → EStateM ε σ β} {R : A → α → A → Prop}
    {Q : α → A → β → A → Prop} (hp : Mirrors S p R T) (hf : ∀ x, Mirrors T (f x) (Q x) U) :
    Mirrors S (p >>= f) (thenRel R Q) U where
  run := by
    rintro s a a'' y hs ⟨x, a', hR, hQ⟩
    obtain ⟨s₁, e₁, hs₁⟩ := hp.run hs hR
    obtain ⟨s₂, e₂, hs₂⟩ := (hf x).run hs₁ hQ
    exact ⟨s₂, (bind_of_ok e₁).trans e₂, hs₂⟩
  back := by
    intro s s' a'' y h hs
    obtain ⟨x, s₁, e₁, e₂⟩ := bind_ok_iff.mp h
    obtain ⟨a', hs₁, hQ⟩ := (hf x).back e₂ hs
    obtain ⟨a, hs₀, hR⟩ := hp.back e₁ hs₁
    exact ⟨a, hs₀, x, a', hR, hQ⟩

/-- The same program with another relation, and more known of the states
after it. -/
theorem congr {p : EStateM ε σ α} {R R' : A → α → A → Prop} (hp : Mirrors S p R T)
    (weaken : ∀ s a, U s a → T s a)
    (run : ∀ s a x a', S s a → R' a x a' → R a x a' ∧ ∀ s', T s' a' → U s' a')
    (back : ∀ s s' a x a', S s a → U s' a' → R a x a' → R' a x a') : Mirrors S p R' U where
  run := by
    intro s a a' x hs hR
    obtain ⟨hR, hlift⟩ := run s a x a' hs hR
    obtain ⟨s', e, hs'⟩ := hp.run hs hR
    exact ⟨s', e, hlift s' hs'⟩
  back := by
    intro s s' a' x e hs'
    obtain ⟨a, hs, hR⟩ := hp.back e (weaken s' a' hs')
    exact ⟨a, hs, back s s' a x a' hs hs' hR⟩

/-- The same abstract steps, stated another way. -/
theorem of_iff {p : EStateM ε σ α} {R R' : A → α → A → Prop} (hp : Mirrors S p R T)
    (h : ∀ a x a', R a x a' ↔ R' a x a') : Mirrors S p R' T :=
  hp.congr (fun _ _ hs => hs) (fun _ a x a' _ hR => ⟨(h a x a').mpr hR, fun _ hs => hs⟩)
    fun _ _ a x a' _ _ hR => (h a x a').mp hR

end Mirrors

end ZenohFlatC
