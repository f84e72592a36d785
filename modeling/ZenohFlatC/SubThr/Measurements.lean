import ZenohFlatC.SubThr.Stats

/-!
# How many measurements `z_sub_thr` takes

`on_sample` counts the round that it ends and then exits if `finished_rounds`
is above `max_rounds`, so the program does not stop before it has ended one
round more than `max_rounds`. `exits_iff`: it stops at call
`(max_rounds + 1) * roundCalls`, with `max_rounds + 1` lines, and never where
`max_rounds` is the largest `unsigned long`. The help calls `max_rounds` the
"Number of throughput measurements"; no run takes that number
(`not_measures_maxRounds`).
-/

namespace ZenohFlatC.SubThr

variable (clock : Nat → Timespec) (M N : UInt64)

/-- Every long enough sequence of calls exits having printed `k` measurement
lines, and no shorter one exits. -/
def Measures (k : Nat) : Prop :=
  ∃ n, (∀ m, n ≤ m → ∃ w, onSamples clock m (start M N) = .error 0 w ∧ w.measurements = k) ∧
    ∀ m, m < n → ∃ w, onSamples clock m (start M N) = .ok () w

/-! ## The call that exits -/

theorem onSamples_succ_of_ok {n : Nat} {w₀ w : World} (h : onSamples clock n w₀ = .ok () w) :
    onSamples clock (n + 1) w₀ = onSample clock w := bind_of_ok h

/-- After an exit there are no more calls. -/
theorem onSamples_exited {n m : Nat} {w₀ w : World} {e : Int} (h : onSamples clock n w₀ = .error e w)
    (hle : n ≤ m) : onSamples clock m w₀ = .error e w := by
  induction hle with
  | refl => exact h
  | step _ ih => exact bind_of_error ih

/-- The call that exits comes after calls that return. -/
theorem onSamples_exit {n : Nat} {w₀ w : World} {e : Int} (h : onSamples clock n w₀ = .error e w) :
    ∃ k, k < n ∧ ∃ w₁, onSamples clock k w₀ = .ok () w₁ ∧ onSample clock w₁ = .error e w := by
  induction n with
  | zero => cases h
  | succ n ih =>
    match hrun : onSamples clock n w₀ with
    | .ok () w₁ =>
      rw [onSamples_succ_of_ok clock hrun] at h
      exact ⟨n, Nat.lt_succ_self n, w₁, hrun, h⟩
    | .error e' w₁ =>
      have hsame : onSamples clock (n + 1) w₀ = .error e' w₁ := onSamples_exited clock hrun (Nat.le_succ n)
      obtain ⟨rfl, rfl⟩ := EStateM.Result.error.inj (h.symm.trans hsame)
      obtain ⟨k, hk, hexit⟩ := ih hrun
      exact ⟨k, Nat.lt_succ_of_lt hk, hexit⟩

variable {M N}

/-- The call after `n` that have returned exits if it ends a round and the
rounds, counted modulo `2^64`, are then more than `M`. -/
theorem onSample_exits_iff {n : Nat} {w w' : World} {e : Int} (hw : Rounds M N n w) :
    onSample clock w = .error e w' ↔
      n % roundCalls N + 1 = roundCalls N ∧ M < UInt64.ofNat (n / roundCalls N + 1) ∧ e = 0 ∧
        w' = w.endRound clock := by
  rw [onSample_error_iff, ← hw.last_iff, ofNat_succ, ← hw.finishedRounds, hw.maxRounds, and_assoc]

theorem World.measurements_exit {n : Nat} {w : World} (hw : Rounds M N n w) :
    (w.endRound clock).measurements = n / roundCalls N + 1 := by
  rw [w.measurements_endRound clock, hw.measurements]

theorem toNat_ofNat_le (k : Nat) : (UInt64.ofNat k).toNat ≤ k := by
  rw [UInt64.toNat_ofNat']
  exact Nat.mod_le _ _

/-- A program that exits has printed more than `M` measurement lines. -/
theorem lt_measurements {n : Nat} {w : World} {e : Int} (h : onSamples clock n (start M N) = .error e w) :
    M.toNat < w.measurements := by
  obtain ⟨k, -, w₁, hrun, hexit⟩ := onSamples_exit clock h
  have hw := onSamples_rounds clock hrun
  obtain ⟨-, hmore, -, rfl⟩ := (onSample_exits_iff clock hw).mp hexit
  rw [World.measurements_exit clock hw]
  rw [UInt64.lt_iff_toNat_lt] at hmore
  have hle := toNat_ofNat_le (k / roundCalls N + 1)
  omega

/-! ## The whole run -/

/-- No call of the first `n` exits if none of them ends a round too many. -/
theorem onSamples_returns {n : Nat}
    (h : ∀ k, k < n → k % roundCalls N + 1 = roundCalls N → ¬M < UInt64.ofNat (k / roundCalls N + 1)) :
    ∃ w, onSamples clock n (start M N) = .ok () w := by
  induction n with
  | zero => exact ⟨_, rfl⟩
  | succ n ih =>
    obtain ⟨w, hrun⟩ := ih fun k hk => h k (Nat.lt_succ_of_lt hk)
    have hw := onSamples_rounds clock hrun
    rw [onSamples_succ_of_ok clock hrun]
    match hcall : onSample clock w with
    | .ok () w' => exact ⟨w', rfl⟩
    | .error e w' =>
      obtain ⟨hlast, hmore, -⟩ := (onSample_exits_iff clock hw).mp hcall
      exact absurd hmore (h n (Nat.lt_succ_self n) hlast)

/-- The end of the last round that does not make the program exit is before
call `(M + 1) * roundCalls`. -/
theorem rounds_le {m k p : Nat} (hk : k + 1 < (m + 1) * p) (hlast : k % p + 1 = p) : k / p + 1 ≤ m := by
  have hdiv := (succ_last hlast).2
  have hlt : (k + 1) / p < m + 1 := (Nat.div_lt_iff_lt_mul (by omega)).mpr hk
  omega

/-- The program has not exited before call `(M + 1) * roundCalls`. -/
theorem returns_of_lt {n : Nat} (hn : n < (M.toNat + 1) * roundCalls N) :
    ∃ w, onSamples clock n (start M N) = .ok () w := by
  refine onSamples_returns clock fun k hk hlast hmore => ?_
  have hle := rounds_le (m := M.toNat) (by omega) hlast
  rw [UInt64.lt_iff_toNat_lt] at hmore
  have hcast := toNat_ofNat_le (k / roundCalls N + 1)
  omega

/-- No counter is above the largest `unsigned long`. -/
theorem returns_of_max (hM : ¬M.toNat + 1 < 2 ^ 64) (n : Nat) :
    ∃ w, onSamples clock n (start M N) = .ok () w := by
  refine onSamples_returns clock fun k _ _ hmore => ?_
  rw [UInt64.lt_iff_toNat_lt] at hmore
  have hlt := (UInt64.ofNat (k / roundCalls N + 1)).toNat_lt
  omega

/-- Call `(M + 1) * roundCalls` exits, with `M + 1` measurement lines. -/
theorem exits_at (hM : M.toNat + 1 < 2 ^ 64) :
    ∃ w, onSamples clock ((M.toNat + 1) * roundCalls N) (start M N) = .error 0 w ∧
      w.measurements = M.toNat + 1 := by
  have hcalls := roundCalls_pos (N := N)
  have hlen : (M.toNat + 1) * roundCalls N = M.toNat * roundCalls N + (roundCalls N - 1) + 1 := by
    rw [Nat.add_mul]
    omega
  obtain ⟨hdiv, hmod⟩ := (Nat.div_mod_unique (a := M.toNat * roundCalls N + (roundCalls N - 1)) (b := roundCalls N)
    (by omega)).mpr ⟨by rw [Nat.mul_comm, Nat.add_comm], (by omega : roundCalls N - 1 < roundCalls N)⟩
  obtain ⟨w, hrun⟩ := returns_of_lt clock (M := M) (N := N) (n := M.toNat * roundCalls N + (roundCalls N - 1))
    (by omega)
  have hw := onSamples_rounds clock hrun
  refine ⟨w.endRound clock, ?_, ?_⟩
  · rw [hlen, onSamples_succ_of_ok clock hrun, onSample_exits_iff clock hw, hdiv, hmod, UInt64.lt_iff_toNat_lt,
      UInt64.toNat_ofNat_of_lt' hM]
    exact ⟨by omega, Nat.lt_succ_self _, rfl, rfl⟩
  · rw [World.measurements_exit clock hw, hdiv]

/-- The call at which the program exits. -/
theorem exits_iff (clock : Nat → Timespec) (M N : UInt64) (n : Nat) :
    (∃ w, onSamples clock n (start M N) = .error 0 w) ↔
      M.toNat + 1 < 2 ^ 64 ∧ (M.toNat + 1) * roundCalls N ≤ n := by
  refine ⟨fun ⟨w, hexit⟩ => ?_, fun ⟨hM, hn⟩ => ?_⟩
  · have returns : ¬∃ w', onSamples clock n (start M N) = .ok () w' := by
      rintro ⟨w', hrun⟩
      rw [hexit] at hrun
      cases hrun
    refine ⟨Decidable.byContradiction fun hM => returns (returns_of_max clock hM n), ?_⟩
    exact Nat.le_of_not_lt fun hn => returns (returns_of_lt clock hn)
  · obtain ⟨w, hexit, -⟩ := exits_at clock (N := N) hM
    exact ⟨w, onSamples_exited clock hexit hn⟩

/-- The program does not take `M` measurements: it takes one more, and where
that is no `unsigned long` it never stops. -/
theorem not_measures_maxRounds (clock : Nat → Timespec) (M N : UInt64) :
    ¬Measures clock M N M.toNat ∧ (Measures clock M N (M.toNat + 1) ↔ M.toNat + 1 < 2 ^ 64) := by
  refine ⟨?_, ?_, fun hM => ?_⟩
  · rintro ⟨n, hexit, -⟩
    obtain ⟨w, hrun, hlines⟩ := hexit n (Nat.le_refl n)
    exact absurd hlines (Nat.ne_of_gt (lt_measurements clock hrun))
  · rintro ⟨n, hexit, -⟩
    obtain ⟨w, hrun, -⟩ := hexit n (Nat.le_refl n)
    exact ((exits_iff clock M N n).mp ⟨w, hrun⟩).1
  · obtain ⟨w, hrun, hlines⟩ := exits_at clock (N := N) hM
    exact ⟨_, fun m hm => ⟨w, onSamples_exited clock hrun hm, hlines⟩, fun m hm => returns_of_lt clock hm⟩

/-- One measurement of one message is asked for: the program exits at its
fourth call, with two lines. -/
theorem not_measures_one :
    ¬∀ (clock : Nat → Timespec) (M N : UInt64), 1 ≤ M → 1 ≤ N → Measures clock M N M.toNat := by
  intro h
  obtain ⟨n, hexit, hrun⟩ := h (fun k => ⟨k, 0⟩) 1 1 (by decide) (by decide)
  -- A run of `n` calls that exits is one of four, and those have two lines.
  obtain ⟨w, hlong, hlines⟩ := hexit (n + 4) (Nat.le_add_right n 4)
  have hfour : onSamples (fun k => ⟨k, 0⟩) 4 (start 1 1) = .error 0 (endState
      (onSamples (fun k => ⟨k, 0⟩) 4 (start 1 1))) := rfl
  have hsame := (onSamples_exited (fun k => ⟨k, 0⟩) hfour (Nat.le_add_left 4 n)).symm.trans hlong
  rw [← (EStateM.Result.error.inj hsame).2] at hlines
  exact absurd hlines (by decide)

end ZenohFlatC.SubThr
