import ZenohFlatC.Framework.Exec

/-!
# Programs that stop at the first call that fails

A program makes calls that may fail, and its state records them (`Calling`).
`FailStop p q` says that `p` is `q`, the same program where every call
succeeds, up to the first call that fails: there `p` has made the calls that
`q` makes so far, and exits at once with what reports this call. Steps compose
(`FailStop.bind`); a step is one that makes no call (`FailStop.silent`) or one
that makes a call and exits if it fails (`FailStop.call`).
-/

namespace ZenohFlatC

/-- The calls of a program: those that a state has recorded, whether calls
succeed after others, and which exits report a call. -/
structure Calling (ε σ C : Type) where
  calls : σ → List C
  Succeed : List C → List C → Prop
  Fails : List C → C → Prop
  Reports : ε → C → Prop
  succeed_nil : ∀ done, Succeed done []
  succeed_append : ∀ done cs ds, Succeed done cs → Succeed (done ++ cs) ds → Succeed done (cs ++ ds)

variable {ε σ C α β : Type}

/-- The run `x` from `s` is the run `y`, and its calls succeeded. -/
def Calling.GoesOn (K : Calling ε σ C) (s : σ) (x y : EStateM.Result ε σ α) : Prop :=
  x = y ∧ ∃ cs, K.calls (endState x) = K.calls s ++ cs ∧ K.Succeed (K.calls s) cs

/-- The run `x` from `s` ended at a call that failed, the first one, and
reported it. The run `y` made the same calls, and perhaps more. -/
def Calling.Stops (K : Calling ε σ C) (s : σ) (x y : EStateM.Result ε σ α) : Prop :=
  ∃ e s' cs c ds, x = .error e s' ∧ K.calls s' = K.calls s ++ cs ++ [c] ∧ K.Succeed (K.calls s) cs ∧
    K.Fails (K.calls s ++ cs) c ∧ K.Reports e c ∧ K.calls (endState y) = K.calls s' ++ ds

/-- The program `p` is `q`, up to the first call that fails. -/
def FailStop (K : Calling ε σ C) (p q : EStateM ε σ α) : Prop :=
  ∀ s, K.GoesOn s (p s) (q s) ∨ K.Stops s (p s) (q s)

namespace FailStop

variable {K : Calling ε σ C} {p q : EStateM ε σ α} {f g : α → EStateM ε σ β}

/-- Where all calls succeed, the calls are behind those made before. -/
theorem calls (h : FailStop K p q) (s : σ) : ∃ cs, K.calls (endState (q s)) = K.calls s ++ cs := by
  rcases h s with ⟨e, cs, hcalls, -⟩ | ⟨e, s', cs, c, ds, -, hcalls, -, -, -, hrest⟩
  · exact ⟨cs, e ▸ hcalls⟩
  · exact ⟨cs ++ [c] ++ ds, by rw [hrest, hcalls]; simp only [List.append_assoc]⟩

/-- A program that makes no calls. -/
theorem silent (h : ∀ s, K.calls (endState (p s)) = K.calls s) : FailStop K p p :=
  fun s => .inl ⟨rfl, [], by rw [h s, List.append_nil], K.succeed_nil _⟩

theorem pure (a : α) : FailStop K (Pure.pure a) (Pure.pure a) := silent fun _ => rfl

theorem throw (e : ε) : FailStop K (MonadExcept.throw e : EStateM ε σ α) (MonadExcept.throw e) :=
  silent fun _ => rfl

/-- Two steps, where the second one may rely on what the first returns. -/
theorem bind_of {R : α → Prop} (hp : FailStop K p q) (hR : ∀ s a s', q s = .ok a s' → R a)
    (hf : ∀ a, R a → FailStop K (f a) (g a)) : FailStop K (p >>= f) (q >>= g) := by
  intro s
  rcases hp s with ⟨e, cs, hcs, hok⟩ | ⟨e, s', cs, c, ds, he, hcs, hok, hfail, hrep, hrest⟩
  · cases hx : p s with
    | error x s₁ =>
      rw [hx] at e hcs
      rw [bind_of_error hx, bind_of_error e.symm]
      exact .inl ⟨rfl, cs, hcs, hok⟩
    | ok a s₁ =>
      rw [hx] at e hcs
      replace hcs : K.calls s₁ = K.calls s ++ cs := hcs
      rw [bind_of_ok hx, bind_of_ok e.symm]
      rcases hf a (hR s a s₁ e.symm) s₁ with ⟨e', ds, hds, hok'⟩ |
        ⟨x, s', ds, c, rest, hx', hds, hok', hfail, hrep, hrest⟩
      · rw [hcs] at hds hok'
        refine .inl ⟨e', cs ++ ds, ?_, K.succeed_append _ _ _ hok hok'⟩
        rw [hds, List.append_assoc]
      · rw [hcs] at hds hok' hfail
        refine .inr ⟨x, s', cs ++ ds, c, rest, hx', ?_, K.succeed_append _ _ _ hok hok', ?_, hrep, hrest⟩
        · rw [hds, List.append_assoc (K.calls s)]
        · rwa [← List.append_assoc]
  · -- the first part stopped, and in `q` the second part may make more calls
    have hmore : ∃ rest, K.calls (endState ((q >>= g) s)) = K.calls s' ++ rest := by
      cases hy : q s with
      | error x s₁ =>
        rw [hy] at hrest
        rw [bind_of_error hy]
        exact ⟨ds, hrest⟩
      | ok a s₁ =>
        rw [hy] at hrest
        replace hrest : K.calls s₁ = K.calls s' ++ ds := hrest
        obtain ⟨es, hes⟩ := (hf a (hR s a s₁ hy)).calls s₁
        rw [bind_of_ok hy]
        exact ⟨ds ++ es, by rw [hes, hrest, List.append_assoc]⟩
    obtain ⟨rest, hrest⟩ := hmore
    exact .inr ⟨e, s', cs, c, rest, bind_of_error he, hcs, hok, hfail, hrep, hrest⟩

theorem bind (hp : FailStop K p q) (hf : ∀ a, FailStop K (f a) (g a)) : FailStop K (p >>= f) (q >>= g) :=
  hp.bind_of (R := fun _ => True) (fun _ _ _ _ => trivial) fun a _ => hf a

/-- A call, and an exit that reports it if it fails. -/
theorem call (c : C) (e : ε) (ok : σ → Bool) (next : σ → σ) {x y : EStateM ε σ Bool}
    (hx : ∀ s, x s = .ok (ok s) (next s)) (hy : ∀ s, y s = .ok true (next s))
    (hnext : ∀ s, K.calls (next s) = K.calls s ++ [c]) (hok : ∀ s, ok s = true → K.Succeed (K.calls s) [c])
    (hfail : ∀ s, ok s = false → K.Fails (K.calls s) c) (hrep : K.Reports e c) :
    FailStop K (x >>= fun | true => Pure.pure () | false => MonadExcept.throw e)
      (y >>= fun | true => Pure.pure () | false => MonadExcept.throw e) := by
  intro s
  rw [bind_of_ok (hx s), bind_of_ok (hy s)]
  cases h : ok s with
  | true => exact .inl ⟨rfl, [c], hnext s, hok s h⟩
  | false =>
    refine .inr ⟨e, next s, [], c, [], rfl, ?_, K.succeed_nil _, ?_, hrep, (List.append_nil _).symm⟩
    · rw [List.append_nil, hnext]
    · rw [List.append_nil]
      exact hfail s h

end FailStop

end ZenohFlatC
