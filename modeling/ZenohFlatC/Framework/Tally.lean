import ZenohFlatC.Framework.Exec

/-!
# Counting what a program does

A program over the states `Tally σ` is one over `σ` that also counts:
`tallied k p` is `p`, which counts `k a` when it returns `a`. `Counts q p` says
that `q` is `p` but for the count. `Pays μ q` says that `q` pays for what it
counts out of `μ`, a measure of the state: what it has counted and what is left
of `μ` are together never more than `μ` was, so that a program that begins in
`s` counts `μ s` at most (`Pays.count_le`). `Exhausts e n q` says that `q` has
counted `n` at least when it exits with `e`. All three are closed under what
programs are made of, and together they are what is known of a loop that is
given `n` rounds, counts each of them and exits with `e` when they are used up
(`Loop`): if `μ` is less than `n`, they are not (`Loop.finishes`).
-/

namespace ZenohFlatC

variable {ε σ α β : Type}

/-- A state, and what has been counted so far. -/
structure Tally (σ : Type) where
  state : σ
  count : Nat

/-- `p`, which counts `k a` when it returns `a`. -/
def tallied (k : α → Nat) (p : EStateM ε σ α) : EStateM ε (Tally σ) α := fun t =>
  match p t.state with
  | .ok a s => .ok a ⟨s, t.count + k a⟩
  | .error e s => .error e ⟨s, t.count⟩

/-- `p`, which counts nothing. -/
def untallied (p : EStateM ε σ α) : EStateM ε (Tally σ) α := tallied (fun _ => 0) p

/-- The result of a run without the count. -/
def uncount : EStateM.Result ε (Tally σ) α → EStateM.Result ε σ α
  | .ok a t => .ok a t.state
  | .error e t => .error e t.state

theorem tallied_ok {k : α → Nat} {p : EStateM ε σ α} {t : Tally σ} {s : σ} {a : α} (h : p t.state = .ok a s) :
    tallied k p t = .ok a ⟨s, t.count + k a⟩ := by
  simp only [tallied, h]

theorem tallied_error {k : α → Nat} {p : EStateM ε σ α} {t : Tally σ} {s : σ} {e : ε}
    (h : p t.state = .error e s) : tallied k p t = .error e ⟨s, t.count⟩ := by
  simp only [tallied, h]

theorem exited_uncount (r : EStateM.Result ε (Tally σ) α) : exited (uncount r) = exited r := by
  cases r <;> rfl

/-- `q` is `p` but for the count. -/
def Counts (q : EStateM ε (Tally σ) α) (p : EStateM ε σ α) : Prop := ∀ t, uncount (q t) = p t.state

namespace Counts

theorem tallied (k : α → Nat) (p : EStateM ε σ α) : Counts (ZenohFlatC.tallied k p) p := by
  intro t
  cases h : p t.state with
  | ok a s => rw [tallied_ok h]; rfl
  | error e s => rw [tallied_error h]; rfl

theorem pure (a : α) : Counts (Pure.pure a : EStateM ε (Tally σ) α) (Pure.pure a) := fun _ => rfl

theorem throw (e : ε) : Counts (MonadExcept.throw e : EStateM ε (Tally σ) α) (MonadExcept.throw e) :=
  fun _ => rfl

theorem bind {q : EStateM ε (Tally σ) α} {p : EStateM ε σ α} {g : α → EStateM ε (Tally σ) β}
    {f : α → EStateM ε σ β} (hp : Counts q p) (hf : ∀ a, Counts (g a) (f a)) :
    Counts (q >>= g) (p >>= f) := by
  intro t
  have hstep := hp t
  cases h : q t with
  | ok a t₁ =>
    rw [h] at hstep
    rw [bind_of_ok h, bind_of_ok hstep.symm]
    exact hf a t₁
  | error e t₁ =>
    rw [h] at hstep
    rw [bind_of_error h, bind_of_error hstep.symm]
    rfl

end Counts

/-- What `q` counts is paid for by `μ`. -/
def Pays (μ : σ → Nat) (q : EStateM ε (Tally σ) α) : Prop :=
  ∀ t, μ (endState (q t)).state + (endState (q t)).count ≤ μ t.state + t.count

namespace Pays

variable {μ : σ → Nat}

theorem tallied {k : α → Nat} {p : EStateM ε σ α}
    (hok : ∀ {s s' a}, p s = .ok a s' → μ s' + k a ≤ μ s)
    (herror : ∀ {s s' e}, p s = .error e s' → μ s' ≤ μ s) : Pays μ (ZenohFlatC.tallied k p) := by
  intro t
  cases h : p t.state with
  | ok a s =>
    rw [tallied_ok h]
    show μ s + (t.count + k a) ≤ _
    have hstep := hok h
    omega
  | error e s =>
    rw [tallied_error h]
    exact Nat.add_le_add_right (herror h) _

/-- A program that leaves what `μ` measures as it is. -/
theorem untallied {p : EStateM ε σ α} (h : ∀ s, μ (endState (p s)) = μ s) :
    Pays μ (ZenohFlatC.untallied p) := by
  refine tallied (fun {s s' a} hrun => ?_) (fun {s s' e} hrun => ?_)
  · have hsame := h s
    rw [hrun] at hsame
    exact Nat.le_of_eq hsame
  · have hsame := h s
    rw [hrun] at hsame
    exact Nat.le_of_eq hsame

theorem pure (a : α) : Pays μ (Pure.pure a : EStateM ε (Tally σ) α) := fun _ => Nat.le_refl _

theorem throw (e : ε) : Pays μ (MonadExcept.throw e : EStateM ε (Tally σ) α) := fun _ => Nat.le_refl _

theorem bind {q : EStateM ε (Tally σ) α} {g : α → EStateM ε (Tally σ) β}
    (hq : Pays μ q) (hg : ∀ a, Pays μ (g a)) : Pays μ (q >>= g) := by
  intro t
  have hstep := hq t
  cases h : q t with
  | ok a t₁ =>
    rw [h] at hstep
    rw [bind_of_ok h]
    exact Nat.le_trans (hg a t₁) hstep
  | error e t₁ =>
    rw [h] at hstep
    rw [bind_of_error h]
    exact hstep

/-- A program that begins in `s` counts `μ s` at most. -/
theorem count_le {q : EStateM ε (Tally σ) α} (h : Pays μ q) (s : σ) : (endState (q ⟨s, 0⟩)).count ≤ μ s :=
  Nat.le_trans (Nat.le_add_left _ _) (h ⟨s, 0⟩)

end Pays

/-- `q` has counted `k a` when it returns `a`. -/
def Yields (k : α → Nat) (q : EStateM ε (Tally σ) α) : Prop :=
  ∀ {t t' a}, q t = .ok a t' → t'.count = t.count + k a

theorem Yields.tallied (k : α → Nat) (p : EStateM ε σ α) : Yields k (ZenohFlatC.tallied k p) := by
  intro t t' a h
  cases hrun : p t.state with
  | ok b s =>
    rw [tallied_ok hrun] at h
    obtain ⟨rfl, rfl⟩ := EStateM.Result.ok.inj h
    rfl
  | error e s =>
    rw [tallied_error hrun] at h
    cases h

/-- `q` does not exit with `e`. -/
def Avoids (e : ε) (q : EStateM ε σ α) : Prop := ∀ s, exited (q s) ≠ some e

theorem Avoids.pure {e : ε} (a : α) : Avoids e (Pure.pure a : EStateM ε σ α) := fun _ => nofun

theorem Avoids.bind {e : ε} {p : EStateM ε σ α} {f : α → EStateM ε σ β} (hp : Avoids e p)
    (hf : ∀ a, Avoids e (f a)) : Avoids e (p >>= f) := by
  intro s
  have hs := hp s
  cases h : p s with
  | ok a s₁ =>
    rw [bind_of_ok h]
    exact hf a s₁
  | error e' s₁ =>
    rw [h] at hs
    rw [bind_of_error h]
    exact hs

theorem Avoids.tallied {e : ε} {p : EStateM ε σ α} (h : Avoids e p) (k : α → Nat) :
    Avoids e (ZenohFlatC.tallied k p) := by
  intro t
  have hp := h t.state
  cases hrun : p t.state with
  | ok a s =>
    rw [tallied_ok hrun]
    exact nofun
  | error e' s =>
    rw [hrun] at hp
    rw [tallied_error hrun]
    exact hp

/-- When `q` exits with `e`, it has counted `n` at least. -/
def Exhausts (e : ε) (n : Nat) (q : EStateM ε (Tally σ) α) : Prop :=
  ∀ t, exited (q t) = some e → t.count + n ≤ (endState (q t)).count

namespace Exhausts

variable {e : ε} {n : Nat}

theorem throw (e : ε) : Exhausts e 0 (MonadExcept.throw e : EStateM ε (Tally σ) α) :=
  fun _ _ => Nat.le_refl _

theorem pure (a : α) : Exhausts e n (Pure.pure a : EStateM ε (Tally σ) α) := fun _ h => by cases h

theorem bind {k : α → Nat} {q : EStateM ε (Tally σ) α} {g : α → EStateM ε (Tally σ) β}
    (havoid : Avoids e q) (hyield : Yields k q) (hg : ∀ a, Exhausts e (n - k a) (g a)) :
    Exhausts e n (q >>= g) := by
  intro t hexit
  have hq := havoid t
  cases h : q t with
  | ok a t₁ =>
    rw [bind_of_ok h] at hexit ⊢
    have hcount := hyield h
    have hrest := hg a t₁ hexit
    omega
  | error e' t₁ =>
    rw [bind_of_error h] at hexit
    rw [h] at hq
    exact absurd hexit hq

end Exhausts

/-! ## Loops -/

/-- `q` is `p` and counts `k a` when it returns `a`; it pays for it, and does
not exit with `e`. -/
structure Step (μ : σ → Nat) (e : ε) (k : α → Nat) (q : EStateM ε (Tally σ) α) (p : EStateM ε σ α) : Prop where
  counts : Counts q p
  pays : Pays μ q
  avoids : Avoids e q
  yields : Yields k q

/-- A step that counts nothing. -/
theorem Step.untallied {μ : σ → Nat} {e : ε} {p : EStateM ε σ α} (hμ : ∀ s, μ (endState (p s)) = μ s)
    (he : Avoids e p) : Step μ e (fun _ => 0) (ZenohFlatC.untallied p) p :=
  ⟨Counts.tallied _ p, Pays.untallied hμ, he.tallied _, Yields.tallied _ p⟩

/-- `q` is the loop `p`, given `n` rounds and counting each of them: it pays
for them, and exits with `e` when they are used up. -/
structure Loop (μ : σ → Nat) (e : ε) (n : Nat) (q : EStateM ε (Tally σ) α) (p : EStateM ε σ α) : Prop where
  counts : Counts q p
  pays : Pays μ q
  exhausts : Exhausts e n q

namespace Loop

variable {μ : σ → Nat} {e : ε} {n : Nat} {q : EStateM ε (Tally σ) α} {p : EStateM ε σ α}

theorem throw (e : ε) : Loop μ e 0 (MonadExcept.throw e : EStateM ε (Tally σ) α) (MonadExcept.throw e) :=
  ⟨.throw e, .throw e, .throw e⟩

theorem pure (a : α) : Loop μ e n (Pure.pure a : EStateM ε (Tally σ) α) (Pure.pure a) :=
  ⟨.pure a, .pure a, .pure a⟩

/-- After a step, the rounds that are left. -/
theorem bind {k : α → Nat} {g : α → EStateM ε (Tally σ) β} {f : α → EStateM ε σ β} (hq : Step μ e k q p)
    (hg : ∀ a, Loop μ e (n - k a) (g a) (f a)) : Loop μ e n (q >>= g) (p >>= f) :=
  ⟨hq.counts.bind fun a => (hg a).counts, hq.pays.bind fun a => (hg a).pays,
    .bind hq.avoids hq.yields fun a => (hg a).exhausts⟩

/-- A loop that has less to pay out of than its rounds does not use them up. -/
theorem finishes (h : Loop μ e n q p) {s : σ} (hs : μ s < n) : exited (p s) ≠ some e := by
  have hsame : uncount (q ⟨s, 0⟩) = p s := h.counts ⟨s, 0⟩
  rw [← hsame, exited_uncount]
  intro hexit
  have hcount := h.pays.count_le s
  have hleast : 0 + n ≤ _ := h.exhausts ⟨s, 0⟩ hexit
  omega

end Loop

end ZenohFlatC
