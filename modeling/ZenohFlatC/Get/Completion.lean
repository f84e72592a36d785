import Mathlib.Tactic.ByContra
import ZenohFlatC.Framework.Transition

/-!
# The completion signal of `z_get`

`main` of `examples/z_get.c` and the callback `on_close`, which zenoh runs on a
thread of its own, share a `done_signal_t` on the stack of `main`. `mainStep`
and `onCloseStep` are the two parties, one step for each operation on the
session, the mutex or the condition variable; `step` interleaves them. Of zenoh
the system has only this: a `z_session_get` that succeeds makes `on_close` run
once, from any moment after the call began, and `z_session_drop` does not return
before that run has finished. Time is not in the model: a timed wait may end by
its deadline at any moment.

`SigIntact` says of a state that `on_close` is not about to use a signal that
`main` has destroyed. It holds in every state of a run in which `main` never
leaves a timed-out wait while `sig.done` is unset (`sigIntact_of_waited`), and
every step that does leave it so can be followed by a use of the destroyed
signal (`destroyed_used_of_not_waited`).
-/

namespace ZenohFlatC.Get

/-- The life of a mutex or a condition variable. -/
inductive Life
  | raw
  | live
  | destroyed
  deriving DecidableEq, Repr

inductive Party
  | main
  | onClose
  deriving DecidableEq, Repr

/-- `pthread_mutex_t`. -/
structure Mutex where
  life : Life
  owner : Option Party
  deriving DecidableEq, Repr

/-- `pthread_mutex_lock`, which waits while the mutex is held. On an object that
is no mutex it has no defined meaning; here it locks nothing. -/
def Mutex.lock (p : Party) (m : Mutex) : Option Mutex :=
  match m.life, m.owner with
  | .live, none => some { m with owner := some p }
  | .live, some _ => none
  | _, _ => some m

/-- `pthread_mutex_unlock`. -/
def Mutex.unlock (m : Mutex) : Mutex := { m with owner := none }

/-- `done_signal_t`. -/
structure DoneSignal where
  m : Mutex
  c : Life
  done : Bool
  deriving DecidableEq, Repr

/-- What `main` does next. -/
inductive MainPc
  | openSession
  | keyexprTryFrom
  | mutexInit
  | condInit
  | clearDone
  | sessionGet
  /-- Inside `z_session_get`, which is to return `ok`. -/
  | getting (ok : Bool)
  | lock
  /-- `while (!sig.done)`, with the mutex held. -/
  | test
  /-- Inside `pthread_cond_timedwait`, without the mutex. -/
  | waiting
  /-- Inside `pthread_cond_timedwait`, which returns once the mutex is locked. -/
  | relock (timedOut : Bool)
  | unlock
  | condDestroy
  | mutexDestroy
  | sessionDrop
  /-- Inside `z_session_drop`. -/
  | dropping
  | returned
  deriving DecidableEq, Repr

/-- What `on_close` does next. -/
inductive OnClosePc
  /-- Not to run: no `z_session_get` that succeeds has begun. -/
  | unset
  /-- To run, and not started. -/
  | due
  | lock
  | setDone
  | signal
  | unlock
  | finished
  deriving DecidableEq, Repr

structure State where
  main : MainPc
  onClose : OnClosePc
  sig : DoneSignal
  deriving DecidableEq, Repr

def State.goto (s : State) (pc : MainPc) : State := { s with main := pc }

/-- `pthread_cond_signal`: `main`, if it waits, is woken. -/
def State.condSignal (s : State) : State :=
  if s.sig.c = .live ∧ s.main = .waiting then s.goto (.relock false) else s

/-- The next step of `main`; `ok` is the result of the call into zenoh, where
the step is one. -/
def mainStep (ok : Bool) (s : State) : Option State :=
  match s.main with
  | .openSession => some (s.goto (if ok then .keyexprTryFrom else .returned))
  | .keyexprTryFrom => some (s.goto (if ok then .mutexInit else .sessionDrop))
  | .mutexInit => some { s with main := .condInit, sig.m := ⟨.live, none⟩ }
  | .condInit => some { s with main := .clearDone, sig.c := .live }
  | .clearDone => some { s with main := .sessionGet, sig.done := false }
  | .sessionGet => some { s with main := .getting ok, onClose := if ok then .due else .unset }
  | .getting true => some (s.goto .lock)
  | .getting false => some (s.goto .condDestroy)
  | .lock => (s.sig.m.lock .main).map fun m => { s with main := .test, sig.m := m }
  | .test =>
    if s.sig.done then some (s.goto .unlock)
    else some { s with main := .waiting, sig.m := s.sig.m.unlock }
  | .waiting => none
  | .relock timedOut =>
    (s.sig.m.lock .main).map fun m => { s with main := if timedOut then .unlock else .test, sig.m := m }
  | .unlock => some { s with main := .condDestroy, sig.m := s.sig.m.unlock }
  | .condDestroy => some { s with main := .mutexDestroy, sig.c := .destroyed }
  | .mutexDestroy => some { s with main := .sessionDrop, sig.m.life := .destroyed }
  | .sessionDrop => some (s.goto .dropping)
  | .dropping => if s.onClose = .unset ∨ s.onClose = .finished then some (s.goto .returned) else none
  | .returned => none

/-- The next step of `on_close`. -/
def onCloseStep (s : State) : Option State :=
  match s.onClose with
  | .unset => none
  | .due => some { s with onClose := .lock }
  | .lock => (s.sig.m.lock .onClose).map fun m => { s with onClose := .setDone, sig.m := m }
  | .setDone => some { s with onClose := .signal, sig.done := true }
  | .signal => some { s.condSignal with onClose := .unlock }
  | .unlock => some { s with onClose := .finished, sig.m := s.sig.m.unlock }
  | .finished => none

inductive Action
  | main (ok : Bool)
  /-- The timed wait ends by itself: by its deadline, or for no reason. -/
  | wake (timedOut : Bool)
  | onClose
  deriving DecidableEq, Repr

def step (s : State) : Action → Option State
  | .main ok => mainStep ok s
  | .wake timedOut => if s.main = .waiting then some (s.goto (.relock timedOut)) else none
  | .onClose => onCloseStep s

/-- `main` has just been entered. -/
def start : State := ⟨.openSession, .unset, ⟨⟨.raw, none⟩, .raw, false⟩⟩

/-! ## The property, and the condition on a step -/

/-- The next step of `on_close` locks, signals or unlocks `sig`. -/
def OnClosePc.UsesSig (pc : OnClosePc) : Prop := pc = .lock ∨ pc = .signal ∨ pc = .unlock

instance (pc : OnClosePc) : Decidable pc.UsesSig := inferInstanceAs (Decidable (_ ∨ _ ∨ _))

/-- `on_close` does not use `sig` in its next step, if `main` has destroyed
`sig.c` or `sig.m`. -/
def SigIntact (s : State) : Prop :=
  (step s .onClose).isSome → s.onClose.UsesSig → s.sig.c ≠ .destroyed ∧ s.sig.m.life ≠ .destroyed

instance (s : State) : Decidable (SigIntact s) := inferInstanceAs (Decidable (_ → _))

/-- The step does not take `main` out of a timed-out wait while `sig.done` is
unset. -/
def Waited (s : State) : Action → Prop
  | .main _ => s.main = .relock true → s.sig.done = true
  | _ => True

instance (s : State) : (a : Action) → Decidable (Waited s a)
  | .main _ => inferInstanceAs (Decidable (_ → _))
  | .wake _ => inferInstanceAs (Decidable True)
  | .onClose => inferInstanceAs (Decidable True)

/-! ## The invariant -/

/-- `on_close` holds the mutex. -/
def OnClosePc.Holds (pc : OnClosePc) : Prop := pc = .setDone ∨ pc = .signal ∨ pc = .unlock

/-- `on_close` has set `sig.done`. -/
def OnClosePc.HasSetDone (pc : OnClosePc) : Prop := pc = .signal ∨ pc = .unlock ∨ pc = .finished

/-- `on_close` makes no further step. -/
def OnClosePc.Quiet (pc : OnClosePc) : Prop := pc = .unset ∨ pc = .finished

/-- From the call of `z_session_get` that succeeds to the end of the wait. -/
structure InLoop (s : State) : Prop where
  began : s.onClose ≠ .unset
  cond : s.sig.c = .live
  mutex : s.sig.m.life = .live
  main_owns : s.sig.m.owner = some .main ↔ s.main = .test
  onClose_owns : s.sig.m.owner = some .onClose ↔ s.onClose.Holds
  done : s.sig.done = true ↔ s.onClose.HasSetDone

/-- What holds of every state, by where `main` is. -/
def Inv (s : State) : Prop :=
  match s.main with
  | .openSession | .keyexprTryFrom | .mutexInit => s.onClose = .unset
  | .condInit => s.onClose = .unset ∧ s.sig.m = ⟨.live, none⟩
  | .clearDone => s.onClose = .unset ∧ s.sig.m = ⟨.live, none⟩ ∧ s.sig.c = .live
  | .sessionGet => s.onClose = .unset ∧ s.sig = ⟨⟨.live, none⟩, .live, false⟩
  | .getting true | .lock | .test | .waiting | .relock _ => InLoop s
  | _ => s.onClose.Quiet

/-- `main` is between the call of `z_session_get` that succeeds and the end of
the wait. -/
def MainPc.Looping : MainPc → Prop
  | .getting ok => ok = true
  | .lock | .test | .waiting | .relock _ => True
  | _ => False

theorem inv_iff_inLoop {s : State} (h : s.main.Looping) : Inv s ↔ InLoop s := by
  obtain ⟨main, onClose, sig⟩ := s
  cases main with
  | getting ok =>
    obtain rfl : ok = true := h
    exact Iff.rfl
  | lock => exact Iff.rfl
  | test => exact Iff.rfl
  | waiting => exact Iff.rfl
  | relock timedOut => exact Iff.rfl
  | _ => exact absurd h id

theorem Inv.quiet {s : State} (hi : Inv s) (h : ¬s.main.Looping) : s.onClose.Quiet := by
  obtain ⟨main, onClose, sig⟩ := s
  cases main with
  | openSession => exact .inl hi
  | keyexprTryFrom => exact .inl hi
  | mutexInit => exact .inl hi
  | condInit => exact .inl hi.1
  | clearDone => exact .inl hi.1
  | sessionGet => exact .inl hi.1
  | getting ok =>
    cases ok with
    | true => exact absurd rfl h
    | false => exact hi
  | lock => exact absurd trivial h
  | test => exact absurd trivial h
  | waiting => exact absurd trivial h
  | relock timedOut => exact absurd trivial h
  | _ => exact hi

theorem Mutex.lock_of_live {m m' : Mutex} {p : Party} (hm : m.life = .live) (h : m.lock p = some m') :
    m.owner = none ∧ m' = ⟨.live, some p⟩ := by
  obtain ⟨life, owner⟩ := m
  obtain rfl : life = .live := hm
  cases owner with
  | none => exact ⟨rfl, (Option.some.inj h).symm⟩
  | some q => cases h

/-- Once `sig.done` is set and the mutex is not held by `on_close`, `on_close`
is over. -/
theorem InLoop.finished {s : State} (hi : InLoop s) (hdone : s.sig.done = true)
    (howner : s.sig.m.owner ≠ some .onClose) : s.onClose = .finished := by
  have hset := hi.done.mp hdone
  have hfree : ¬s.onClose.Holds := fun h => howner (hi.onClose_owns.mpr h)
  rcases hset with h | h | h
  · exact absurd (Or.inr (Or.inl h)) hfree
  · exact absurd (Or.inr (Or.inr h)) hfree
  · exact h

/-- While it holds the mutex, `main` is not at its test. -/
theorem InLoop.not_test {s : State} (hi : InLoop s) (h : s.onClose.Holds) : s.main ≠ .test := by
  intro htest
  have howner := hi.onClose_owns.mpr h
  rw [hi.main_owns.mpr htest] at howner
  cases howner

/-- While no one holds the mutex, `main` is not at its test, and `on_close` not
in its critical section. -/
theorem InLoop.of_free {s : State} (hi : InLoop s) (hfree : s.sig.m.owner = none) :
    s.main ≠ .test ∧ ¬s.onClose.Holds := by
  refine ⟨fun htest => ?_, fun hholds => ?_⟩
  · have howner := hi.main_owns.mpr htest
    rw [hfree] at howner
    cases howner
  · have howner := hi.onClose_owns.mpr hholds
    rw [hfree] at howner
    cases howner

/-- `main` and `on_close` at other places of the loop, and nothing else changed. -/
theorem InLoop.move {s : State} (hi : InLoop s) {pc : MainPc} {pc' : OnClosePc} (hbegan : pc' ≠ .unset)
    (hmain : pc = .test ↔ s.main = .test) (hholds : pc'.Holds ↔ s.onClose.Holds)
    (hset : pc'.HasSetDone ↔ s.onClose.HasSetDone) : InLoop ⟨pc, pc', s.sig⟩ where
  began := hbegan
  cond := hi.cond
  mutex := hi.mutex
  main_owns := hi.main_owns.trans hmain.symm
  onClose_owns := hi.onClose_owns.trans hholds.symm
  done := hi.done.trans hset.symm

theorem InLoop.condSignal {s : State} (hi : InLoop s) (hs : s.onClose = .signal) :
    InLoop { s.condSignal with onClose := .unlock } := by
  have hholds : OnClosePc.unlock.Holds ↔ s.onClose.Holds := by simp [OnClosePc.Holds, hs]
  have hset : OnClosePc.unlock.HasSetDone ↔ s.onClose.HasSetDone := by simp [OnClosePc.HasSetDone, hs]
  unfold State.condSignal
  split
  · rename_i hw
    exact hi.move (by simp) (by simp [State.goto, hw.2]) hholds hset
  · exact hi.move (by simp) Iff.rfl hholds hset

/-- What a step of `on_close` does while `main` is in the loop. -/
theorem InLoop.onCloseStep {s s' : State} (hi : InLoop s) (h : onCloseStep s = some s') : InLoop s' := by
  unfold Get.onCloseStep at h
  split at h
  · cases h
  · rename_i hpc
    obtain rfl := Option.some.inj h
    exact hi.move (by simp) Iff.rfl (by simp [OnClosePc.Holds, hpc]) (by simp [OnClosePc.HasSetDone, hpc])
  · rename_i hpc
    obtain ⟨m, hm, rfl⟩ := Option.map_eq_some_iff.mp h
    obtain ⟨hfree, rfl⟩ := Mutex.lock_of_live hi.mutex hm
    have hmain := (hi.of_free hfree).1
    have hdone := hi.done
    exact {
      began := by simp
      cond := hi.cond
      mutex := rfl
      main_owns := by simp [hmain]
      onClose_owns := by simp [OnClosePc.Holds]
      done := by simpa [OnClosePc.HasSetDone, hpc] using hdone }
  · rename_i hpc
    obtain rfl := Option.some.inj h
    have howns := hi.onClose_owns
    exact {
      began := by simp
      cond := hi.cond
      mutex := hi.mutex
      main_owns := hi.main_owns
      onClose_owns := by simpa [OnClosePc.Holds, hpc] using howns
      done := by simp [OnClosePc.HasSetDone] }
  · rename_i hpc
    obtain rfl := Option.some.inj h
    exact hi.condSignal hpc
  · rename_i hpc
    obtain rfl := Option.some.inj h
    have hmain := hi.not_test (by simp [OnClosePc.Holds, hpc])
    have hdone := hi.done
    exact {
      began := by simp
      cond := hi.cond
      mutex := hi.mutex
      main_owns := by simp [Mutex.unlock, hmain]
      onClose_owns := by simp [Mutex.unlock, OnClosePc.Holds]
      done := by simpa [OnClosePc.HasSetDone, hpc] using hdone }
  · cases h

theorem onCloseStep_main {s s' : State} (h : onCloseStep s = some s') :
    s'.main = s.main ∨ s.main = .waiting ∧ s'.main = .relock false := by
  unfold onCloseStep at h
  split at h
  · cases h
  · obtain rfl := Option.some.inj h
    exact .inl rfl
  · obtain ⟨m, -, rfl⟩ := Option.map_eq_some_iff.mp h
    exact .inl rfl
  · obtain rfl := Option.some.inj h
    exact .inl rfl
  · obtain rfl := Option.some.inj h
    unfold State.condSignal
    split
    · rename_i hw
      exact .inr ⟨hw.2, rfl⟩
    · exact .inl rfl
  · obtain rfl := Option.some.inj h
    exact .inl rfl
  · cases h

theorem inv_onCloseStep {s s' : State} (hi : Inv s) (h : onCloseStep s = some s') : Inv s' := by
  by_cases hl : s.main.Looping
  · have hl' : s'.main.Looping := by
      rcases onCloseStep_main h with hm | ⟨-, hm⟩
      · rwa [hm]
      · rw [hm]
        trivial
    exact (inv_iff_inLoop hl').mpr (((inv_iff_inLoop hl).mp hi).onCloseStep h)
  · -- `on_close` has not begun, or is over
    rcases hi.quiet hl with hpc | hpc <;> simp [onCloseStep, hpc] at h

theorem inv_wake {s s' : State} {timedOut : Bool} (hi : Inv s)
    (h : step s (.wake timedOut) = some s') : Inv s' := by
  simp only [step] at h
  split at h
  · rename_i hw
    obtain rfl := Option.some.inj h
    have hin : InLoop s := (inv_iff_inLoop (by simp [hw, MainPc.Looping])).mp hi
    exact hin.move hin.began (by simp [hw]) Iff.rfl Iff.rfl
  · cases h

/-- The mutex is locked by `main`, which is then at its test. -/
theorem InLoop.lock {s : State} (hi : InLoop s) {m : Mutex} (h : s.sig.m.lock .main = some m) :
    InLoop { s with main := .test, sig.m := m } ∧ ¬s.onClose.Holds := by
  obtain ⟨hfree, rfl⟩ := Mutex.lock_of_live hi.mutex h
  have hholds := (hi.of_free hfree).2
  exact ⟨{
    began := hi.began
    cond := hi.cond
    mutex := rfl
    main_owns := by simp
    onClose_owns := by simp [hholds]
    done := hi.done }, hholds⟩

/-- The mutex is released by `main`, which waits. -/
theorem InLoop.unlock {s : State} (hi : InLoop s) (hmain : s.main = .test) :
    InLoop { s with main := .waiting, sig.m := s.sig.m.unlock } := by
  have hholds : ¬s.onClose.Holds := fun hh => hi.not_test hh hmain
  exact {
    began := hi.began
    cond := hi.cond
    mutex := hi.mutex
    main_owns := by simp [Mutex.unlock]
    onClose_owns := by simp [Mutex.unlock, hholds]
    done := hi.done }

theorem inv_mainStep {s s' : State} {ok : Bool} (hi : Inv s) (hw : Waited s (.main ok))
    (h : mainStep ok s = some s') : Inv s' := by
  obtain ⟨main, onClose, sig⟩ := s
  cases main with
  | openSession =>
    obtain rfl := Option.some.inj h
    cases ok with
    | true => exact hi
    | false => exact .inl hi
  | keyexprTryFrom =>
    obtain rfl := Option.some.inj h
    cases ok with
    | true => exact hi
    | false => exact .inl hi
  | mutexInit =>
    obtain rfl := Option.some.inj h
    exact ⟨hi, rfl⟩
  | condInit =>
    obtain rfl := Option.some.inj h
    exact ⟨hi.1, hi.2, rfl⟩
  | clearDone =>
    obtain rfl := Option.some.inj h
    obtain ⟨honClose, hm, hc⟩ := hi
    exact ⟨honClose, by simp_all⟩
  | sessionGet =>
    obtain rfl := Option.some.inj h
    obtain ⟨honClose, hsig⟩ := hi
    obtain rfl : sig = _ := hsig
    cases ok with
    | true =>
      exact {
        began := by simp
        cond := rfl
        mutex := rfl
        main_owns := by simp
        onClose_owns := by simp [OnClosePc.Holds]
        done := by simp [OnClosePc.HasSetDone] }
    | false => exact .inl rfl
  | getting ok' =>
    cases ok' with
    | true =>
      obtain rfl := Option.some.inj h
      exact InLoop.move hi (InLoop.began hi) (by simp) Iff.rfl Iff.rfl
    | false =>
      obtain rfl := Option.some.inj h
      exact hi
  | lock =>
    obtain ⟨m, hm, rfl⟩ := Option.map_eq_some_iff.mp h
    exact (InLoop.lock hi hm).1
  | test =>
    simp only [mainStep] at h
    split at h
    · rename_i hdone
      obtain rfl := Option.some.inj h
      have hin : InLoop ⟨.test, onClose, sig⟩ := hi
      have howner : sig.m.owner = some .main := hin.main_owns.mpr rfl
      exact .inr (hin.finished hdone (by simp [howner]))
    · obtain rfl := Option.some.inj h
      exact InLoop.unlock hi rfl
  | waiting => cases h
  | relock timedOut =>
    obtain ⟨m, hm, rfl⟩ := Option.map_eq_some_iff.mp h
    have hin : InLoop ⟨.relock timedOut, onClose, sig⟩ := hi
    obtain ⟨hlocked, hholds⟩ := hin.lock hm
    cases timedOut with
    | false => exact hlocked
    | true => exact .inr (hin.finished (hw rfl) fun howner => hholds (hin.onClose_owns.mp howner))
  | unlock =>
    obtain rfl := Option.some.inj h
    exact hi
  | condDestroy =>
    obtain rfl := Option.some.inj h
    exact hi
  | mutexDestroy =>
    obtain rfl := Option.some.inj h
    exact hi
  | sessionDrop =>
    obtain rfl := Option.some.inj h
    exact hi
  | dropping =>
    simp only [mainStep] at h
    split at h
    · rename_i hquiet
      obtain rfl := Option.some.inj h
      exact hquiet
    · cases h
  | returned => cases h

theorem inv_step {s s' : State} {a : Action} (hi : Inv s) (hw : Waited s a) (h : step s a = some s') :
    Inv s' := by
  cases a with
  | main ok => exact inv_mainStep hi hw h
  | wake timedOut => exact inv_wake hi h
  | onClose => exact inv_onCloseStep hi h

theorem inv_of_waited {s : State} (h : Reaches step Waited start s) : Inv s :=
  h.invariant (fun _ _ _ hi hw hstep => inv_step hi hw hstep) rfl

/-! ## The signal outlives `on_close` -/

theorem sigIntact_of_inv {s : State} (hi : Inv s) : SigIntact s := by
  intro hstep _
  by_cases hl : s.main.Looping
  · have hin := (inv_iff_inLoop hl).mp hi
    exact ⟨by simp [hin.cond], by simp [hin.mutex]⟩
  · obtain ⟨s', h⟩ := Option.isSome_iff_exists.mp hstep
    rcases hi.quiet hl with hpc | hpc <;> simp [step, onCloseStep, hpc] at h

theorem sigIntact_of_waited {s : State} (h : Reaches step Waited start s) : SigIntact s :=
  sigIntact_of_inv (inv_of_waited h)

/-! ## A wait left too early -/

/-- The wait, if there was one, is over. -/
def MainPc.Past : MainPc → Prop
  | .unlock | .condDestroy | .mutexDestroy | .sessionDrop | .dropping | .returned => True
  | _ => False

theorem past_step {s s' : State} {a : Action} (hs : s.main.Past) (h : step s a = some s') :
    s'.main.Past := by
  cases a with
  | main ok =>
    obtain ⟨main, onClose, sig⟩ := s
    cases main with
    | dropping =>
      simp only [step, mainStep] at h
      split at h
      · obtain rfl := Option.some.inj h
        trivial
      · cases h
    | returned => cases h
    | unlock | condDestroy | mutexDestroy | sessionDrop =>
      obtain rfl := Option.some.inj h
      trivial
    | _ => exact absurd hs id
  | wake timedOut =>
    simp only [step] at h
    split at h
    · rename_i hw
      rw [hw] at hs
      exact absurd hs id
    · cases h
  | onClose =>
    rcases onCloseStep_main h with hm | ⟨hm, -⟩
    · rwa [hm]
    · rw [hm] at hs
      exact absurd hs id

/-- A step that does not meet `Waited` takes the mutex and ends the wait. -/
theorem not_waited_step {s s' : State} {a : Action} (hw : ¬Waited s a) (h : step s a = some s') :
    s.main = .relock true ∧ s.sig.done = false ∧
      ∃ m, s.sig.m.lock .main = some m ∧ s' = { s with main := .unlock, sig.m := m } := by
  cases a with
  | main ok =>
    obtain ⟨hpc, hdone⟩ := Classical.not_imp.mp hw
    simp only [step, mainStep, hpc] at h
    obtain ⟨m, hm, rfl⟩ := Option.map_eq_some_iff.mp h
    exact ⟨hpc, by simpa using hdone, m, hm, rfl⟩
  | wake timedOut => exact absurd trivial hw
  | onClose => exact absurd trivial hw

/-- A run to a state before the end of the wait has met `Waited` so far. -/
theorem waited_of_not_past {s : State} (h : Reaches step anyStep start s) (hs : ¬s.main.Past) :
    Reaches step Waited start s := by
  refine h.restrict (N := fun s => ¬s.main.Past) ?_ hs
  intro s a s' hstep hs'
  refine ⟨fun hpast => hs' (past_step hpast hstep), ?_⟩
  by_contra hw
  obtain ⟨-, -, m, -, rfl⟩ := not_waited_step hw hstep
  exact hs' trivial

/-- Every state before the end of the wait satisfies the invariant, in any run. -/
theorem inv_of_not_past {s : State} (h : Reaches step anyStep start s) (hs : ¬s.main.Past) : Inv s :=
  inv_of_waited (waited_of_not_past h hs)

/-- A step out of a timed-out wait while `sig.done` is unset can be followed by
a use of the destroyed signal. -/
theorem destroyed_used_of_not_waited {s s' : State} {a : Action} (h : Reaches step anyStep start s)
    (hw : ¬Waited s a) (hstep : step s a = some s') :
    ∃ s'', Reaches step anyStep s' s'' ∧ ¬SigIntact s'' := by
  obtain ⟨hpc, hdone, m, hm, rfl⟩ := not_waited_step hw hstep
  have hi : Inv s := inv_of_not_past h (by simp [hpc, MainPc.Past])
  have hin : InLoop s := (inv_iff_inLoop (by simp [hpc, MainPc.Looping])).mp hi
  obtain ⟨-, hholds⟩ := hin.lock hm
  obtain ⟨-, rfl⟩ := Mutex.lock_of_live hin.mutex hm
  have hset : ¬s.onClose.HasSetDone := fun hh => by simp [hin.done.mpr hh] at hdone
  -- `main` unlocks the mutex and destroys `sig.c`; `on_close` then comes to its lock
  have hlock : ¬SigIntact ⟨.mutexDestroy, .lock, ⟨⟨.live, none⟩, .destroyed, s.sig.done⟩⟩ :=
    fun hint => (hint rfl (.inl rfl)).1 rfl
  refine ⟨_, ?_, hlock⟩
  obtain ⟨main, onClose, sig⟩ := s
  cases onClose with
  | unset => exact absurd rfl hin.began
  | due => exact .follow [.main true, .main true, .onClose] rfl
  | lock => exact .follow [.main true, .main true] rfl
  | setDone => exact absurd (.inl rfl) hholds
  | signal => exact absurd (.inl rfl) hset
  | unlock => exact absurd (.inr (.inl rfl)) hset
  | finished => exact absurd (.inr (.inr rfl)) hset

/-- A state of a run whose steps all meet `Waited`: `on_close` does not use a
destroyed signal. A step of any run that does not meet it: it can be followed by
such a use. -/
theorem signal_outlives_on_close (s : State) :
    (Reaches step Waited start s → SigIntact s) ∧
      ∀ a s', Reaches step anyStep start s → step s a = some s' → ¬Waited s a →
        ∃ s'', Reaches step anyStep s' s'' ∧ ¬SigIntact s'' :=
  ⟨sigIntact_of_waited, fun _ _ h hstep hw => destroyed_used_of_not_waited h hw hstep⟩

/-- `main` up to its wait. -/
def untilWaiting : List Action := List.replicate 9 (.main true)

/-- A run with the completion in time, to the signal sent to the waiting `main`. -/
theorem signal_outlives_on_close_signal :
    SigIntact ⟨.waiting, .signal, ⟨⟨.live, some .onClose⟩, .live, true⟩⟩ :=
  (signal_outlives_on_close _).1
    (.follow (untilWaiting ++ [.onClose, .onClose, .onClose]) (by decide))

/-- The deadline passes first: `on_close` begins inside `z_session_drop`, and
locks a mutex that is destroyed. -/
theorem signal_destroyed_first : ¬∀ s, Reaches step anyStep start s → SigIntact s := by
  intro h
  have hrun : Reaches step anyStep start ⟨.dropping, .lock, ⟨⟨.destroyed, none⟩, .destroyed, false⟩⟩ :=
    .follow (untilWaiting ++ .wake true :: List.replicate 5 (.main true) ++ [.onClose]) (by decide)
  exact absurd (h _ hrun) (by decide)

end ZenohFlatC.Get
