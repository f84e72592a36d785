import ZenohFlatC.Framework.Potential
import ZenohFlatC.Get.Completion

/-!
# The wait of `z_get` ends

The signal of `on_close` is not lost: `main` never waits once it was sent
(`NotMissed`), so in every state before `main` has returned one of the two
parties can move, without a deadline (`no_lost_wakeup`). A run is as long as
its timed waits that end by themselves allow (`potential`), and where neither
party can move, `main` has returned (`runs_return`).
-/

namespace ZenohFlatC.Get

/-- The action is a step of one of the two parties. -/
def Action.OfParty : Action → Prop
  | .main _ | .onClose => True
  | .wake _ => False

/-- One of the two parties can move, and no deadline is needed for it. -/
def CanMove (s : State) : Prop := ∃ a : Action, a.OfParty ∧ (step s a).isSome

theorem canMove_main {s : State} (ok : Bool) (h : (mainStep ok s).isSome) : CanMove s :=
  ⟨.main ok, trivial, h⟩

theorem canMove_onClose {s : State} (h : (onCloseStep s).isSome) : CanMove s := ⟨.onClose, trivial, h⟩

/-! ## No signal is missed -/

/-- `on_close` has sent its signal. -/
def OnClosePc.Signalled (pc : OnClosePc) : Prop := pc = .unlock ∨ pc = .finished

/-- `main` does not wait for a signal that was sent. -/
def NotMissed (s : State) : Prop := s.main = .waiting → ¬s.onClose.Signalled

theorem notMissed_onCloseStep {s s' : State} (hi : Inv s) (hn : NotMissed s) (h : onCloseStep s = some s') :
    NotMissed s' := by
  intro hw'
  -- the step leaves `main` waiting, so it is not the signal
  have hw : s.main = .waiting := by
    rcases onCloseStep_main h with hm | ⟨-, hm⟩
    · rwa [hm] at hw'
    · rw [hm] at hw'
      cases hw'
  have hin : InLoop s := (inv_iff_inLoop (by simp [hw, MainPc.Looping])).mp hi
  have hnot := hn hw
  unfold onCloseStep at h
  split at h
  · cases h
  · obtain rfl := Option.some.inj h
    simp [OnClosePc.Signalled]
  · obtain ⟨m, -, rfl⟩ := Option.map_eq_some_iff.mp h
    simp [OnClosePc.Signalled]
  · obtain rfl := Option.some.inj h
    simp [OnClosePc.Signalled]
  · obtain rfl := Option.some.inj h
    rw [State.condSignal, if_pos ⟨hin.cond, hw⟩] at hw'
    cases hw'
  · rename_i hpc
    exact absurd (.inl hpc) hnot
  · cases h

/-- `main` begins to wait with its test, where `sig.done` is unset. -/
theorem mainStep_waiting {s s' : State} {ok : Bool} (h : mainStep ok s = some s') (hw : s'.main = .waiting) :
    s.main = .test ∧ s.sig.done = false ∧ s'.onClose = s.onClose := by
  obtain ⟨main, onClose, sig⟩ := s
  cases main with
  | test =>
    simp only [mainStep] at h
    split at h
    · obtain rfl := Option.some.inj h
      cases hw
    · rename_i hdone
      obtain rfl := Option.some.inj h
      exact ⟨rfl, by simpa using hdone, rfl⟩
  | lock =>
    obtain ⟨m, -, rfl⟩ := Option.map_eq_some_iff.mp h
    cases hw
  | relock timedOut =>
    obtain ⟨m, -, rfl⟩ := Option.map_eq_some_iff.mp h
    cases timedOut <;> cases hw
  | openSession | keyexprTryFrom =>
    obtain rfl := Option.some.inj h
    cases ok <;> cases hw
  | getting ok' =>
    cases ok' <;> (obtain rfl := Option.some.inj h; cases hw)
  | dropping =>
    simp only [mainStep] at h
    split at h
    · obtain rfl := Option.some.inj h
      cases hw
    · cases h
  | waiting | returned => cases h
  | _ =>
    obtain rfl := Option.some.inj h
    cases hw

theorem notMissed_step {s s' : State} {a : Action} (hi : Inv s) (hn : NotMissed s) (h : step s a = some s') :
    NotMissed s' := by
  cases a with
  | onClose => exact notMissed_onCloseStep hi hn h
  | wake timedOut =>
    intro hw
    simp only [step] at h
    split at h
    · obtain rfl := Option.some.inj h
      cases hw
    · cases h
  | main ok =>
    intro hw hsig
    obtain ⟨htest, hdone, honClose⟩ := mainStep_waiting h hw
    have hin : InLoop s := (inv_iff_inLoop (by simp [htest, MainPc.Looping])).mp hi
    rw [honClose] at hsig
    have hset : s.onClose.HasSetDone := .inr hsig
    simp [hin.done.mpr hset] at hdone

theorem notMissed_of_waited {s : State} (h : Reaches step Waited start s) : NotMissed s := by
  have hboth : Inv s ∧ NotMissed s := by
    refine h.invariant (I := fun s => Inv s ∧ NotMissed s) ?_ ⟨rfl, fun hw => by cases hw⟩
    rintro s a s' ⟨hi, hn⟩ hw hstep
    exact ⟨inv_step hi hw hstep, notMissed_step hi hn hstep⟩
  exact hboth.2

/-! ## One of the parties can move -/

/-- A mutex that is held is held by `on_close`, which can move. -/
theorem InLoop.canMove_of_locked {s : State} (hi : InLoop s) (hmain : s.main ≠ .test)
    (hheld : s.sig.m.owner ≠ none) : CanMove s := by
  obtain ⟨p, hp⟩ := Option.ne_none_iff_exists'.mp hheld
  have hholds : s.onClose.Holds := by
    cases p with
    | main => exact absurd (hi.main_owns.mp hp) hmain
    | onClose => exact hi.onClose_owns.mp hp
  refine canMove_onClose ?_
  rcases hholds with h | h | h
  · simp [Get.onCloseStep, h]
  · simp [Get.onCloseStep, h]
  · simp [Get.onCloseStep, h]

/-- A mutex that is free can be locked. -/
theorem Mutex.lock_free {m : Mutex} (hm : m.life = .live) (hfree : m.owner = none) (p : Party) :
    m.lock p = some ⟨.live, some p⟩ := by
  obtain ⟨life, owner⟩ := m
  obtain rfl : life = .live := hm
  obtain rfl : owner = none := hfree
  rfl

/-- Where `main` is about to lock the mutex, one of the parties can move. -/
theorem InLoop.canMove_lock {s : State} (hi : InLoop s) (hmain : s.main ≠ .test)
    (hlock : ∀ m, s.sig.m.lock .main = some m → (mainStep true s).isSome) : CanMove s := by
  by_cases hfree : s.sig.m.owner = none
  · exact canMove_main true (hlock _ (Mutex.lock_free hi.mutex hfree .main))
  · exact hi.canMove_of_locked hmain hfree

/-- Where `main` waits, `on_close` can move. -/
theorem InLoop.canMove_waiting {s : State} (hi : InLoop s) (hmain : s.main = .waiting) (hn : NotMissed s) :
    CanMove s := by
  have hnot := hn hmain
  have htest : s.main ≠ .test := by simp [hmain]
  by_cases hfree : s.sig.m.owner = none
  · refine canMove_onClose ?_
    have hlock := Mutex.lock_free hi.mutex hfree .onClose
    cases hpc : s.onClose with
    | unset => exact absurd hpc hi.began
    | finished => exact absurd (.inr hpc) hnot
    | unlock => exact absurd (.inl hpc) hnot
    | lock => simp [Get.onCloseStep, hpc, hlock]
    | due => simp [Get.onCloseStep, hpc]
    | setDone => simp [Get.onCloseStep, hpc]
    | signal => simp [Get.onCloseStep, hpc]
  · exact hi.canMove_of_locked htest hfree

theorem canMove_of_waited {s : State} (h : Reaches step Waited start s) (hs : s.main ≠ .returned) :
    CanMove s := by
  have hi := inv_of_waited h
  have hn := notMissed_of_waited h
  cases hmain : s.main with
  | returned => exact absurd hmain hs
  | waiting =>
    exact InLoop.canMove_waiting ((inv_iff_inLoop (by simp [hmain, MainPc.Looping])).mp hi) hmain hn
  | lock =>
    have hin : InLoop s := (inv_iff_inLoop (by simp [hmain, MainPc.Looping])).mp hi
    exact hin.canMove_lock (by simp [hmain]) fun m hm => by simp [mainStep, hmain, hm]
  | relock timedOut =>
    have hin : InLoop s := (inv_iff_inLoop (by simp [hmain, MainPc.Looping])).mp hi
    exact hin.canMove_lock (by simp [hmain]) fun m hm => by simp [mainStep, hmain, hm]
  | dropping =>
    have hquiet := hi.quiet (by simp [hmain, MainPc.Looping])
    refine canMove_main true ?_
    simp only [mainStep, hmain]
    rw [if_pos (show s.onClose = .unset ∨ s.onClose = .finished from hquiet)]
    rfl
  | test =>
    refine canMove_main true ?_
    simp only [mainStep, hmain]
    split <;> rfl
  | getting ok => cases ok <;> exact canMove_main true (by simp [mainStep, hmain])
  | _ => exact canMove_main true (by simp [mainStep, hmain])

/-- Until `main` has returned, one of the parties can move, and no deadline is
needed for it: in every state of a run in which `main` leaves no wait too
early, and in every run up to the end of the wait. -/
theorem no_lost_wakeup (s : State) :
    (Reaches step Waited start s → s.main ≠ .returned → CanMove s) ∧
      (Reaches step anyStep start s → ¬s.main.Past → CanMove s) :=
  ⟨canMove_of_waited, fun h hs => canMove_of_waited (waited_of_not_past h hs) fun hret =>
    hs (by simp [hret, MainPc.Past])⟩

/-- Where `main` waits and `on_close` is about to send its signal, one of them
can move. -/
theorem no_lost_wakeup_signal : CanMove ⟨.waiting, .signal, ⟨⟨.live, some .onClose⟩, .live, true⟩⟩ :=
  (no_lost_wakeup _).1 (.follow (untilWaiting ++ [.onClose, .onClose, .onClose]) (by decide)) (by decide)

/-! ## `sig.done` under the mutex -/

/-- In every run, whoever reads or writes `sig.done` holds the mutex alone, up
to the end of the wait; the first write is before `on_close` is to run. -/
theorem done_locked {s : State} (h : Reaches step anyStep start s) (hs : ¬s.main.Past) :
    (s.main = .clearDone → s.onClose = .unset) ∧
      (s.main = .test → s.sig.m = ⟨.live, some .main⟩ ∧ ¬s.onClose.Holds) ∧
      (s.onClose.Holds → s.sig.m = ⟨.live, some .onClose⟩ ∧ s.main ≠ .test) := by
  have hi := inv_of_not_past h hs
  refine ⟨fun hmain => ?_, fun hmain => ?_, fun hholds => ?_⟩
  · simp only [Inv, hmain] at hi
    exact hi.1
  · have hin : InLoop s := (inv_iff_inLoop (by simp [hmain, MainPc.Looping])).mp hi
    exact ⟨by rw [← hin.mutex, ← hin.main_owns.mpr hmain], fun hholds => hin.not_test hholds hmain⟩
  · have hl : s.main.Looping := by
      by_contra hl
      rcases hi.quiet hl with hq | hq <;> simp [OnClosePc.Holds, hq] at hholds
    have hin := (inv_iff_inLoop hl).mp hi
    exact ⟨by rw [← hin.mutex, ← hin.onClose_owns.mpr hholds], hin.not_test hholds⟩

/-- The run in which `on_close` is about to write `sig.done` while `main` waits:
`on_close` holds the mutex, and `main` is not at its test. -/
theorem done_locked_wait : ∃ s, followActions step anyStep (untilWaiting ++ [.onClose, .onClose]) start = some s ∧
    s.main = .waiting ∧ s.onClose = .setDone ∧ s.sig.m = ⟨.live, some .onClose⟩ ∧ s.main ≠ .test := by
  have hrun : followActions step anyStep (untilWaiting ++ [.onClose, .onClose]) start =
      some ⟨.waiting, .setDone, ⟨⟨.live, some .onClose⟩, .live, false⟩⟩ := by decide
  obtain ⟨hmutex, htest⟩ := (done_locked (.follow _ hrun) (by simp [MainPc.Past])).2.2 (.inl rfl)
  exact ⟨_, hrun, rfl, rfl, hmutex, htest⟩

/-! ## A run ends -/

/-- How far `main` is from its end. -/
def MainPc.togo : MainPc → Nat
  | .openSession => 23
  | .keyexprTryFrom => 22
  | .mutexInit => 21
  | .condInit => 20
  | .clearDone => 19
  | .sessionGet => 18
  | .getting ok => if ok then 10 else 5
  | .lock => 9
  | .relock timedOut => if timedOut then 6 else 9
  | .test => 8
  | .waiting => 7
  | .unlock => 5
  | .condDestroy => 4
  | .mutexDestroy => 3
  | .sessionDrop => 2
  | .dropping => 1
  | .returned => 0

/-- How far `on_close` is from its end. Its signal sends `main` back to its
test. -/
def OnClosePc.togo : OnClosePc → Nat
  | .unset => 0
  | .due => 7
  | .lock => 6
  | .setDone => 5
  | .signal => 4
  | .unlock => 1
  | .finished => 0

def potential (s : State) : Nat := s.main.togo + s.onClose.togo

/-- A wait that ends by itself. It sends `main` back to its test, too. -/
def Action.isWake : Action → Bool
  | .wake _ => true
  | .main _ | .onClose => false

theorem condSignal_togo (s : State) : s.condSignal.main.togo ≤ s.main.togo + 2 := by
  unfold State.condSignal
  split
  · rename_i hw
    rw [hw.2]
    show 9 ≤ 7 + 2
    omega
  · omega

theorem potential_onCloseStep {s s' : State} (h : onCloseStep s = some s') : potential s' + 1 ≤ potential s := by
  unfold onCloseStep at h
  split at h
  · cases h
  · rename_i hpc
    obtain rfl := Option.some.inj h
    simp [potential, hpc, OnClosePc.togo]
  · rename_i hpc
    obtain ⟨m, -, rfl⟩ := Option.map_eq_some_iff.mp h
    simp [potential, hpc, OnClosePc.togo]
  · rename_i hpc
    obtain rfl := Option.some.inj h
    simp [potential, hpc, OnClosePc.togo]
  · rename_i hpc
    obtain rfl := Option.some.inj h
    have hmain := condSignal_togo s
    simp only [potential, hpc, OnClosePc.togo]
    omega
  · rename_i hpc
    obtain rfl := Option.some.inj h
    simp [potential, hpc, OnClosePc.togo]
  · cases h

theorem potential_mainStep {s s' : State} {ok : Bool} (h : mainStep ok s = some s') :
    potential s' + 1 ≤ potential s := by
  obtain ⟨main, onClose, sig⟩ := s
  cases main with
  | lock =>
    obtain ⟨m, -, rfl⟩ := Option.map_eq_some_iff.mp h
    show 8 + onClose.togo + 1 ≤ 9 + onClose.togo
    omega
  | relock timedOut =>
    obtain ⟨m, -, rfl⟩ := Option.map_eq_some_iff.mp h
    cases timedOut with
    | true => show 5 + onClose.togo + 1 ≤ 6 + onClose.togo; omega
    | false => show 8 + onClose.togo + 1 ≤ 9 + onClose.togo; omega
  | test =>
    simp only [mainStep] at h
    split at h
    · obtain rfl := Option.some.inj h
      show 5 + onClose.togo + 1 ≤ 8 + onClose.togo
      omega
    · obtain rfl := Option.some.inj h
      show 7 + onClose.togo + 1 ≤ 8 + onClose.togo
      omega
  | sessionGet =>
    obtain rfl := Option.some.inj h
    cases ok with
    | true => show 10 + 7 + 1 ≤ 18 + onClose.togo; omega
    | false => show 5 + 0 + 1 ≤ 18 + onClose.togo; omega
  | getting ok' =>
    cases ok' with
    | true =>
      obtain rfl := Option.some.inj h
      show 9 + onClose.togo + 1 ≤ 10 + onClose.togo
      omega
    | false =>
      obtain rfl := Option.some.inj h
      show 4 + onClose.togo + 1 ≤ 5 + onClose.togo
      omega
  | openSession =>
    obtain rfl := Option.some.inj h
    cases ok with
    | true => show 22 + onClose.togo + 1 ≤ 23 + onClose.togo; omega
    | false => show 0 + onClose.togo + 1 ≤ 23 + onClose.togo; omega
  | keyexprTryFrom =>
    obtain rfl := Option.some.inj h
    cases ok with
    | true => show 21 + onClose.togo + 1 ≤ 22 + onClose.togo; omega
    | false => show 2 + onClose.togo + 1 ≤ 22 + onClose.togo; omega
  | dropping =>
    simp only [mainStep] at h
    split at h
    · obtain rfl := Option.some.inj h
      show 0 + onClose.togo + 1 ≤ 1 + onClose.togo
      omega
    · cases h
  | waiting | returned => cases h
  | mutexInit | condInit | clearDone | unlock | condDestroy | mutexDestroy | sessionDrop =>
    obtain rfl := Option.some.inj h
    simp only [potential, State.goto, MainPc.togo]
    omega

theorem potential_step {s s' : State} {a : Action} (h : step s a = some s') :
    potential s' + 1 ≤ potential s + credit Action.isWake 3 a := by
  cases a with
  | main ok => exact potential_mainStep h
  | onClose => exact potential_onCloseStep h
  | wake timedOut =>
    simp only [step] at h
    split at h
    · rename_i hw
      obtain rfl := Option.some.inj h
      have hmain : (MainPc.relock timedOut).togo ≤ 9 := by cases timedOut <;> decide
      simp only [potential, State.goto, hw]
      show (MainPc.relock timedOut).togo + s.onClose.togo + 1 ≤ 7 + s.onClose.togo + 3
      omega
    · cases h

/-- However the parties are interleaved, a run of `z_get` has 23 steps at most,
and 3 more for each wait that ends by itself; and where neither party can move,
`main` has returned, and `on_close` has finished or was never to run. -/
theorem runs_return {as : List Action} {s : State} (h : followActions step Waited as start = some s) :
    as.length ≤ 23 + 3 * as.countP Action.isWake ∧ (¬CanMove s → s.main = .returned ∧ s.onClose.Quiet) := by
  have hlen := followActions_length_le (fun _ _ _ _ hstep => potential_step hstep) h
  have hstart : potential start = 23 := by decide
  refine ⟨by omega, fun hstuck => ?_⟩
  have hreach : Reaches step Waited start s := .follow as h
  have hret : s.main = .returned := by
    by_contra hs
    exact hstuck (canMove_of_waited hreach hs)
  exact ⟨hret, (inv_of_waited hreach).quiet (by simp [hret, MainPc.Looping])⟩

/-- The run in which the completion comes in time. -/
def completedRun : List Action :=
  untilWaiting ++ List.replicate 5 .onClose ++ List.replicate 7 (.main true)

/-- It has 21 steps, and neither party can move behind them. -/
theorem runs_return_completed : completedRun.length ≤ 23 + 3 * completedRun.countP Action.isWake ∧
    (¬CanMove ⟨.returned, .finished, ⟨⟨.destroyed, none⟩, .destroyed, true⟩⟩ →
      MainPc.returned = .returned ∧ OnClosePc.finished.Quiet) :=
  runs_return (s := ⟨.returned, .finished, ⟨⟨.destroyed, none⟩, .destroyed, true⟩⟩) (by decide)

end ZenohFlatC.Get
