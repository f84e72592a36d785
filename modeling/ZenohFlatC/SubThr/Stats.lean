import Mathlib.Algebra.Group.Nat.Defs
import ZenohFlatC.Framework.Exec

/-!
# The statistics of `z_sub_thr`

`z_stats_make`, `on_sample` and `drop_stats` of `examples/z_sub_thr.c`:
`onSamples n` is `n` calls of `on_sample`, one after the other. The clock is a
parameter, the time that each call of `clock_gettime` gives. `start` and
`first_start` are `none` until they are set, since `z_stats_make` does not write
them. The doubles are not computed: a printed line holds what they are computed
from. `unsigned long` has 64 bits.

`Rounds n` says what `n` calls leave behind (`onSamples_rounds`), `Counted n`
the same where the counter of the rounds has not wrapped: the sample that ends
a round is in neither counter, so a round of `messages_per_round` samples takes
one call more (`roundCalls`), and `drop_stats` reports one sample too few for
each round that has ended (`received_toNat`).
-/

namespace ZenohFlatC.SubThr

/-- `struct timespec`. -/
structure Timespec where
  tvSec : Int
  tvNsec : Int
  deriving DecidableEq, Repr

/-- `z_stats_t`. -/
structure ZStats where
  count : UInt64
  finishedRounds : UInt64
  start : Option Timespec
  firstStart : Option Timespec
  started : Bool
  maxRounds : UInt64
  messagesPerRound : UInt64
  deriving DecidableEq, Repr

/-- What `elapsed_ms` and `elapsed_s` compute a duration from. -/
structure Elapsed where
  since : Option Timespec
  now : Timespec
  deriving DecidableEq, Repr

/-- A printed line. -/
inductive Line
  /-- `"%f msg/s\n"` -/
  | rate (messagesPerRound : UInt64) (elapsed : Elapsed)
  /-- `"Stats being dropped after unsubscribing: …"` -/
  | dropped (received : UInt64) (elapsed : Elapsed)
  deriving DecidableEq, Repr

/-- The statistics, the calls of `clock_gettime` so far, and the lines printed. -/
structure World where
  stats : ZStats
  ticks : Nat
  out : List Line
  deriving DecidableEq, Repr

/-- Code that may exit, with a status. -/
abbrev Prog := EStateM Int World

variable (clock : Nat → Timespec)

/-- `clock_gettime(CLOCK_MONOTONIC, …)`. -/
def clockGettime : Prog Timespec := fun w => .ok (clock w.ticks) { w with ticks := w.ticks + 1 }

/-- `elapsed_ms` and `elapsed_s`. -/
def elapsed (since : Option Timespec) : Prog Elapsed := do
  let now ← clockGettime clock
  pure ⟨since, now⟩

/-- `printf`. -/
def print (l : Line) : Prog Unit := fun w => .ok () { w with out := w.out ++ [l] }

def modifyStats (f : ZStats → ZStats) : Prog Unit := fun w => .ok () { w with stats := f w.stats }

/-- `z_stats_make`. -/
def zStatsMake (maxRounds messagesPerRound : UInt64) : ZStats where
  count := 0
  finishedRounds := 0
  start := none
  firstStart := none
  started := false
  maxRounds := maxRounds
  messagesPerRound := messagesPerRound

/-- `on_sample`. -/
def onSample : Prog Unit := do
  let stats := (← get).stats
  if stats.count = 0 then
    let now ← clockGettime clock
    modifyStats fun s => { s with start := some now }
    if !stats.started then
      modifyStats fun s => { s with firstStart := s.start, started := true }
    modifyStats fun s => { s with count := s.count + 1 }
  else if stats.count < stats.messagesPerRound then
    modifyStats fun s => { s with count := s.count + 1 }
  else
    modifyStats fun s => { s with finishedRounds := s.finishedRounds + 1 }
    let ms ← elapsed clock stats.start
    print (.rate stats.messagesPerRound ms)
    modifyStats fun s => { s with count := 0 }
    let stats := (← get).stats
    if stats.finishedRounds > stats.maxRounds then throw 0

/-- The total of `drop_stats`. -/
def received (stats : ZStats) : UInt64 := stats.messagesPerRound * stats.finishedRounds + stats.count

/-- `drop_stats`. -/
def dropStats : Prog Unit := do
  let stats := (← get).stats
  let secs ← elapsed clock stats.firstStart
  print (.dropped (received stats) secs)

/-- `n` calls of `on_sample`. -/
def onSamples : Nat → Prog Unit
  | 0 => pure ()
  | n + 1 => do
    onSamples n
    onSample clock

/-- The statistics have just been made, and nothing is printed. -/
def start (maxRounds messagesPerRound : UInt64) : World := ⟨zStatsMake maxRounds messagesPerRound, 0, []⟩

/-! ## One call -/

/-- The world after the call that begins a round. -/
def World.beginRound (w : World) : World where
  stats :=
    { w.stats with
      count := 1
      start := some (clock w.ticks)
      firstStart := if w.stats.started then w.stats.firstStart else some (clock w.ticks)
      started := true }
  ticks := w.ticks + 1
  out := w.out

/-- The world after a call inside a round. -/
def World.countSample (w : World) : World := { w with stats.count := w.stats.count + 1 }

theorem onSample_first {w : World} (h : w.stats.count = 0) : onSample clock w = .ok () (w.beginRound clock) := by
  obtain ⟨⟨count, finishedRounds, start, firstStart, started, maxRounds, messagesPerRound⟩, ticks, out⟩ := w
  obtain rfl : count = 0 := h
  cases started <;> rfl

theorem onSample_within {w : World} (h : w.stats.count ≠ 0) (hlt : w.stats.count < w.stats.messagesPerRound) :
    onSample clock w = .ok () w.countSample := by
  refine (bind_of_ok rfl).trans ?_
  rw [if_neg h, if_pos hlt]
  rfl

/-- The world after the call that ends a round. -/
def World.endRound (w : World) : World where
  stats := { w.stats with count := 0, finishedRounds := w.stats.finishedRounds + 1 }
  ticks := w.ticks + 1
  out := w.out ++ [.rate w.stats.messagesPerRound ⟨w.stats.start, clock w.ticks⟩]

theorem onSample_last {w : World} (h : w.stats.count ≠ 0) (hge : ¬w.stats.count < w.stats.messagesPerRound) :
    onSample clock w =
      if w.stats.finishedRounds + 1 > w.stats.maxRounds then .error 0 (w.endRound clock)
      else .ok () (w.endRound clock) := by
  refine (bind_of_ok rfl).trans ?_
  rw [if_neg h, if_neg hge]
  by_cases hexit : w.stats.finishedRounds + 1 > w.stats.maxRounds
  · rw [if_pos hexit]
    iterate 5 refine (bind_of_ok rfl).trans ?_
    exact congrFun (if_pos hexit) _
  · rw [if_neg hexit]
    iterate 5 refine (bind_of_ok rfl).trans ?_
    exact congrFun (if_neg hexit) _

/-- What a call that returns has done. -/
theorem onSample_ok {w w' : World} (h : onSample clock w = .ok () w') :
    (w.stats.count = 0 ∧ w' = w.beginRound clock) ∨
      (w.stats.count ≠ 0 ∧ w.stats.count < w.stats.messagesPerRound ∧ w' = w.countSample) ∨
      (w.stats.count ≠ 0 ∧ ¬w.stats.count < w.stats.messagesPerRound ∧
        ¬w.stats.finishedRounds + 1 > w.stats.maxRounds ∧ w' = w.endRound clock) := by
  by_cases hzero : w.stats.count = 0
  · rw [onSample_first clock hzero] at h
    exact .inl ⟨hzero, (EStateM.Result.ok.inj h).2.symm⟩
  · by_cases hlt : w.stats.count < w.stats.messagesPerRound
    · rw [onSample_within clock hzero hlt] at h
      exact .inr (.inl ⟨hzero, hlt, (EStateM.Result.ok.inj h).2.symm⟩)
    · rw [onSample_last clock hzero hlt] at h
      split at h
      · cases h
      · rename_i hstay
        exact .inr (.inr ⟨hzero, hlt, hstay, (EStateM.Result.ok.inj h).2.symm⟩)

/-- When a call exits, and what it has done. -/
theorem onSample_error_iff {w w' : World} {e : Int} :
    onSample clock w = .error e w' ↔
      w.stats.count ≠ 0 ∧ ¬w.stats.count < w.stats.messagesPerRound ∧
        w.stats.finishedRounds + 1 > w.stats.maxRounds ∧ e = 0 ∧ w' = w.endRound clock := by
  refine ⟨fun h => ?_, ?_⟩
  · by_cases hzero : w.stats.count = 0
    · rw [onSample_first clock hzero] at h
      cases h
    · by_cases hlt : w.stats.count < w.stats.messagesPerRound
      · rw [onSample_within clock hzero hlt] at h
        cases h
      · rw [onSample_last clock hzero hlt] at h
        split at h
        · rename_i hexit
          obtain ⟨he, hw⟩ := EStateM.Result.error.inj h
          exact ⟨hzero, hlt, hexit, he.symm, hw.symm⟩
        · cases h
  · rintro ⟨hzero, hge, hexit, rfl, rfl⟩
    rw [onSample_last clock hzero hge, if_pos hexit]

/-! ## Any number of calls -/

theorem onSamples_succ_ok {n : Nat} {w₀ w : World} (h : onSamples clock (n + 1) w₀ = .ok () w) :
    ∃ w₁, onSamples clock n w₀ = .ok () w₁ ∧ onSample clock w₁ = .ok () w := by
  obtain ⟨⟨⟩, w₁, hrun, hlast⟩ := bind_ok_iff.mp h
  exact ⟨w₁, hrun, hlast⟩

/-- What holds at the start, and after a call if before it, holds after any
number of calls. -/
theorem onSamples_invariant {P : Nat → World → Prop} {w₀ : World} (hstart : P 0 w₀)
    (step : ∀ n w w', onSamples clock n w₀ = .ok () w → P n w → onSample clock w = .ok () w' → P (n + 1) w')
    {n : Nat} {w : World} (h : onSamples clock n w₀ = .ok () w) : P n w := by
  induction n generalizing w with
  | zero =>
    obtain ⟨-, rfl⟩ := pure_ok_iff.mp h
    exact hstart
  | succ n ih =>
    obtain ⟨w₁, hrun, hlast⟩ := onSamples_succ_ok clock h
    exact step n w₁ w hrun (ih hrun) hlast

/-- The calls that a round takes: one for each of its samples, of which there
is at least one, and one more. -/
def roundCalls (N : UInt64) : Nat := max N.toNat 1 + 1

/-- Whether a line is a measurement. -/
def Line.isRate : Line → Bool
  | .rate _ _ => true
  | .dropped _ _ => false

/-- The measurement lines printed. -/
def World.measurements (w : World) : Nat := w.out.countP Line.isRate

/-- What `n` calls leave behind; the counter of the rounds may have wrapped. -/
structure Rounds (M N : UInt64) (n : Nat) (w : World) : Prop where
  maxRounds : w.stats.maxRounds = M
  messagesPerRound : w.stats.messagesPerRound = N
  count : w.stats.count.toNat = n % roundCalls N
  finishedRounds : w.stats.finishedRounds = UInt64.ofNat (n / roundCalls N)
  measurements : w.measurements = n / roundCalls N

/-- What `n` calls leave in the statistics. -/
structure Counted (M N : UInt64) (n : Nat) (w : World) : Prop where
  maxRounds : w.stats.maxRounds = M
  messagesPerRound : w.stats.messagesPerRound = N
  count : w.stats.count.toNat = n % roundCalls N
  finishedRounds : w.stats.finishedRounds.toNat = n / roundCalls N

theorem succ_within {n p : Nat} (h : n % p + 1 < p) : (n + 1) % p = n % p + 1 ∧ (n + 1) / p = n / p := by
  have hn := Nat.div_add_mod n p
  exact ((Nat.div_mod_unique (by omega)).mpr ⟨by omega, h⟩).symm

theorem succ_last {n p : Nat} (h : n % p + 1 = p) : (n + 1) % p = 0 ∧ (n + 1) / p = n / p + 1 := by
  have hn := Nat.div_add_mod n p
  exact ((Nat.div_mod_unique (by omega)).mpr ⟨by rw [Nat.mul_add]; omega, by omega⟩).symm

theorem toNat_succ {a : UInt64} (h : a.toNat + 1 < 2 ^ 64) : (a + 1).toNat = a.toNat + 1 := by
  rw [UInt64.toNat_add]
  exact Nat.mod_eq_of_lt h

theorem ofNat_succ (n : Nat) : UInt64.ofNat (n + 1) = UInt64.ofNat n + 1 := UInt64.ofNat_add n 1

theorem World.measurements_endRound (w : World) : (w.endRound clock).measurements = w.measurements + 1 := by
  simp [World.measurements, World.endRound, List.countP_append, Line.isRate]

variable {M N : UInt64} {n : Nat}

theorem roundCalls_pos : 1 < roundCalls N := by
  simp only [roundCalls]
  omega

theorem Rounds.count_lt {w : World} (hw : Rounds M N n w) : w.stats.count.toNat < roundCalls N := by
  rw [hw.count]
  exact Nat.mod_lt _ (by have := roundCalls_pos (N := N); omega)

/-- The call that ends a round is the last of its calls. -/
theorem Rounds.last_iff {w : World} (hw : Rounds M N n w) :
    w.stats.count ≠ 0 ∧ ¬w.stats.count < w.stats.messagesPerRound ↔ n % roundCalls N + 1 = roundCalls N := by
  have hlt := hw.count_lt
  have hzero : w.stats.count = 0 ↔ w.stats.count.toNat = 0 := UInt64.toNat_inj.symm
  rw [hw.messagesPerRound, UInt64.lt_iff_toNat_lt, ne_eq, hzero, hw.count]
  rw [hw.count] at hlt
  simp only [roundCalls] at hlt ⊢
  omega

theorem rounds_start : Rounds M N 0 (start M N) where
  maxRounds := rfl
  messagesPerRound := rfl
  count := (Nat.zero_mod _).symm
  finishedRounds := by rw [Nat.zero_div]; rfl
  measurements := (Nat.zero_div _).symm

theorem Rounds.onSample {w w' : World} (hw : Rounds M N n w) (h : onSample clock w = .ok () w') :
    Rounds M N (n + 1) w' := by
  have hcount := hw.count
  have hlt := hw.count_lt
  have hlast := hw.last_iff
  have hcalls := roundCalls_pos (N := N)
  obtain ⟨hzero, rfl⟩ | ⟨hpos, hin, rfl⟩ | ⟨hpos, hge, -, rfl⟩ := onSample_ok clock h
  · have hmod : n % roundCalls N = 0 := by rw [← hcount, hzero]; rfl
    obtain ⟨hnext, hsame⟩ := succ_within (n := n) (p := roundCalls N) (by omega)
    refine ⟨hw.maxRounds, hw.messagesPerRound, ?_, ?_, ?_⟩
    · rw [hnext, hmod]
      rfl
    · rw [hsame]
      exact hw.finishedRounds
    · rw [hsame]
      exact hw.measurements
  · have hwithin : n % roundCalls N + 1 ≠ roundCalls N := fun h => (hlast.mpr h).2 hin
    obtain ⟨hnext, hsame⟩ := succ_within (n := n) (p := roundCalls N) (by omega)
    have hbound := w.stats.messagesPerRound.toNat_lt
    rw [UInt64.lt_iff_toNat_lt] at hin
    refine ⟨hw.maxRounds, hw.messagesPerRound, ?_, ?_, ?_⟩
    · rw [hnext, ← hcount]
      exact toNat_succ (by omega)
    · rw [hsame]
      exact hw.finishedRounds
    · rw [hsame]
      exact hw.measurements
  · obtain ⟨hnext, hmore⟩ := succ_last (hlast.mp ⟨hpos, hge⟩)
    refine ⟨hw.maxRounds, hw.messagesPerRound, hnext.symm, ?_, ?_⟩
    · rw [hmore, ofNat_succ, ← hw.finishedRounds]
      rfl
    · rw [hmore, ← hw.measurements]
      exact w.measurements_endRound clock

/-- What any number of calls that have not exited leave behind. -/
theorem onSamples_rounds {w : World} (h : onSamples clock n (start M N) = .ok () w) : Rounds M N n w :=
  onSamples_invariant clock rounds_start (fun _ _ _ _ hw => hw.onSample clock) h

/-- What `n` calls that have not exited leave in the statistics. -/
theorem onSamples_counted {w : World} (hn : n < 2 ^ 64)
    (h : onSamples clock n (start M N) = .ok () w) : Counted M N n w := by
  have hw := onSamples_rounds clock h
  refine ⟨hw.maxRounds, hw.messagesPerRound, hw.count, ?_⟩
  have hrounds : n / roundCalls N < 2 ^ 64 := Nat.lt_of_le_of_lt (Nat.div_le_self _ _) hn
  rw [hw.finishedRounds]
  exact UInt64.toNat_ofNat_of_lt' hrounds

/-! ## The total -/

/-- The total is short of the number of calls by one for each round that has
ended. -/
theorem Counted.received_toNat {w : World} (hw : Counted M N n w)
    (hN : 0 < N) (hn : n < 2 ^ 64) :
    (received w.stats).toNat + n / (N.toNat + 1) = n := by
  have hcalls : roundCalls N = N.toNat + 1 := by
    rw [UInt64.lt_iff_toNat_lt] at hN
    have hone : 1 ≤ N.toNat := hN
    simp [roundCalls, Nat.max_eq_left hone]
  have hcount := hw.count
  have hrounds := hw.finishedRounds
  rw [hcalls] at hcount hrounds
  have hsum := Nat.div_add_mod n (N.toNat + 1)
  rw [Nat.add_mul, Nat.one_mul] at hsum
  have htotal : (received w.stats).toNat =
      N.toNat * (n / (N.toNat + 1)) + n % (N.toNat + 1) := by
    simp only [received, UInt64.toNat_add, UInt64.toNat_mul, hw.messagesPerRound, hcount, hrounds]
    omega
  omega

theorem dropStats_eq (w : World) :
    dropStats clock w = .ok ()
      { w with
        ticks := w.ticks + 1
        out := w.out ++ [.dropped (received w.stats) ⟨w.stats.firstStart, clock w.ticks⟩] } := rfl

/-- After `n` samples `drop_stats` reports `n` if and only if no more than one
round of them has come. -/
theorem dropped_total_iff {w : World} (hN : 0 < N) (hn : n < 2 ^ 64)
    (h : onSamples clock n (start M N) = .ok () w) :
    (endState (dropStats clock w)).out =
        w.out ++ [.dropped (received w.stats) ⟨w.stats.firstStart, clock w.ticks⟩] ∧
      ((received w.stats).toNat = n ↔ n ≤ N.toNat) := by
  refine ⟨congrArg (fun r => (endState r).out) (dropStats_eq clock w), ?_⟩
  have htotal := (onSamples_counted clock hn h).received_toNat hN hn
  have hrounds : n / (N.toNat + 1) = 0 ↔ n < N.toNat + 1 := Nat.div_eq_zero_iff_lt (Nat.succ_pos _)
  omega

/-- Five samples in a round of eight. -/
theorem dropped_total_iff_five :
    (received (endState (onSamples (fun k => ⟨k, 0⟩) 5 (start 10 8))).stats).toNat = 5 :=
  (dropped_total_iff (fun k => ⟨k, 0⟩) (M := 10) (N := 8) (n := 5) (by decide) (by decide) rfl).2.mpr
    (by decide)

/-- Two samples, with rounds of one: the second ends the round, and `drop_stats`
reports one. -/
theorem dropped_total_short :
    ¬∀ (clock : Nat → Timespec) (M N : UInt64) (n : Nat) (w : World), 0 < N → n < 2 ^ 64 →
      onSamples clock n (start M N) = .ok () w → (received w.stats).toNat = n := by
  intro h
  have htwo := h (fun k => ⟨k, 0⟩) 10 1 2 _ (by decide) (by decide) rfl
  exact absurd htwo (by decide)

end ZenohFlatC.SubThr
