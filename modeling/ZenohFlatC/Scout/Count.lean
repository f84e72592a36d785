import Mathlib.Algebra.Group.Int.Defs
import Mathlib.Algebra.Group.Nat.Defs
import Mathlib.Data.List.Basic
import ZenohFlatC.Framework.Transition

/-!
# The count of `z_scout`

`main` of `examples/z_scout.c` has an `int` on its stack that `hello_handler`
increments, and that `on_close` tests to print that no process was found. zenoh
calls `hello_handler` on threads of its own, any number of them at once;
`helloStep`, `onCloseStep` and `mainStep` are the parties, one step for each
access to the count, and `step` interleaves them. The increment is a read and a
write, so that updates may be lost. An `int` that overflows has no defined
value; here it wraps.

Of zenoh the system has only this: once a `z_scout` that succeeds has begun,
and until `on_close` begins, it may call `hello_handler`; `z_scout_drop` makes
`on_close` run once, and does not return before that run has finished.

`noneFound_iff`: whatever is lost, the count is zero exactly as long as no
handler has counted. So where `on_close` begins after the handlers have
returned, it prints that no process was found exactly if no hello has come,
and nothing uses the count behind `main`'s return.
-/

namespace ZenohFlatC.Scout

/-- What `main` does next. -/
inductive MainPc
  | scout
  /-- Inside `z_scout`, which is to return a scout if `ok`. -/
  | scouting (ok : Bool)
  | configDrop (ok : Bool)
  | sleep
  | scoutDrop
  /-- Inside `z_scout_drop`. -/
  | dropping
  | returned
  deriving DecidableEq, Repr

/-- What a call of `hello_handler` does next. -/
inductive HelloPc
  | read
  /-- `(*(int*)context)++` has read this count. -/
  | write (count : Int32)
  | print
  | returned
  deriving DecidableEq, Repr

/-- What `on_close` does next. -/
inductive OnClosePc
  /-- Not to run: no `z_scout_drop` has begun. -/
  | unset
  /-- To run, and not started. -/
  | due
  | test (count : Int32)
  | finished
  deriving DecidableEq, Repr

structure State where
  main : MainPc
  /-- The calls of `hello_handler`. -/
  hellos : List HelloPc
  onClose : OnClosePc
  count : Int32
  /-- "Did not find any zenoh process." is printed. -/
  noneFound : Bool
  deriving DecidableEq, Repr

/-- The next step of `main`; `ok` is the result of `z_scout`, where the step is
its call. -/
def mainStep (ok : Bool) (s : State) : Option State :=
  match s.main with
  | .scout => some { s with main := .scouting ok }
  | .scouting ok => some { s with main := .configDrop ok }
  | .configDrop ok => some { s with main := if ok then .sleep else .returned }
  | .sleep => some { s with main := .scoutDrop }
  | .scoutDrop => some { s with main := .dropping, onClose := .due }
  | .dropping => if s.onClose = .finished then some { s with main := .returned } else none
  | .returned => none

/-- The next step of a call of `hello_handler`, and the count after it. -/
def helloStep (pc : HelloPc) (count : Int32) : Option (HelloPc × Int32) :=
  match pc with
  | .read => some (.write count, count)
  | .write read => some (.print, read + 1)
  | .print => some (.returned, count)
  | .returned => none

/-- The next step of `on_close`. -/
def onCloseStep (s : State) : Option State :=
  match s.onClose with
  | .unset => none
  | .due => some { s with onClose := .test s.count }
  | .test count => some { s with onClose := .finished, noneFound := count = 0 }
  | .finished => none

/-- zenoh scouts. -/
def State.scouting (s : State) : Bool :=
  match s.main with
  | .scouting ok | .configDrop ok => ok
  | .sleep | .scoutDrop => true
  | .dropping => s.onClose = .due
  | .scout | .returned => false

inductive Action
  | main (ok : Bool)
  /-- zenoh calls `hello_handler`. -/
  | hello
  /-- A call of `hello_handler`, by its number. -/
  | handler (i : Nat)
  | onClose
  deriving DecidableEq, Repr

def step (s : State) : Action → Option State
  | .main ok => mainStep ok s
  | .hello => if s.scouting then some { s with hellos := s.hellos ++ [.read] } else none
  | .handler i => (s.hellos[i]?).bind fun pc => (helloStep pc s.count).map fun (pc', count) =>
      { s with hellos := s.hellos.set i pc', count := count }
  | .onClose => onCloseStep s

/-- `main` has just set its count. -/
def start : State := ⟨.scout, [], .unset, 0, false⟩

/-- `on_close` begins when the calls of `hello_handler` have returned. -/
def Settled (s : State) : Action → Prop
  | .onClose => s.onClose = .due → ∀ pc ∈ s.hellos, pc = .returned
  | _ => True

instance (s : State) : (a : Action) → Decidable (Settled s a)
  | .onClose => inferInstanceAs (Decidable (_ → _))
  | .main _ | .hello | .handler _ => inferInstanceAs (Decidable True)

/-- What the step of a handler does. -/
theorem step_handler {s s' : State} {i : Nat} (h : step s (.handler i) = some s') :
    ∃ (hi : i < s.hellos.length) (pc : HelloPc) (count : Int32), helloStep s.hellos[i] s.count = some (pc, count) ∧
      s' = { s with hellos := s.hellos.set i pc, count := count } := by
  obtain ⟨pc, hpc, hstep⟩ := Option.bind_eq_some_iff.mp h
  obtain ⟨hi, rfl⟩ := List.getElem?_eq_some_iff.mp hpc
  obtain ⟨⟨pc', count⟩, hpc', rfl⟩ := Option.map_eq_some_iff.mp hstep
  exact ⟨hi, pc', count, hpc', rfl⟩

/-! ## The count -/

/-- The handler has counted. -/
def HelloPc.hasCounted : HelloPc → Bool
  | .read | .write _ => false
  | .print | .returned => true

/-- The handlers that have counted. -/
def counted (hellos : List HelloPc) : Nat := hellos.countP HelloPc.hasCounted

/-- The count, and every count that a handler is about to write back
incremented, is within the number of handlers that have counted. -/
structure Counts (hellos : List HelloPc) (count : Int32) : Prop where
  nonneg : 0 ≤ count.toInt
  le : count.toInt ≤ counted hellos
  pos : 0 < counted hellos → 0 < count.toInt
  read (c : Int32) : .write c ∈ hellos → 0 ≤ c.toInt ∧ c.toInt ≤ counted hellos

theorem counted_set {hellos : List HelloPc} {i : Nat} (hi : i < hellos.length) (pc : HelloPc) :
    counted (hellos.set i pc) + hellos[i].hasCounted.toNat = counted hellos + pc.hasCounted.toNat := by
  have hget : hellos[i].hasCounted.toNat ≤ counted hellos := by
    cases h : hellos[i].hasCounted with
    | false => exact Nat.zero_le _
    | true => exact List.countP_pos_iff.mpr ⟨_, List.getElem_mem hi, h⟩
  have hset := List.countP_set (p := HelloPc.hasCounted) (a := pc) hi
  have htoNat : ∀ b : Bool, (if b = true then 1 else 0) = b.toNat := fun b => by cases b <;> rfl
  rw [htoNat, htoNat] at hset
  unfold counted at hget ⊢
  omega

theorem toInt_succ {c : Int32} (h0 : 0 ≤ c.toInt) (h : c.toInt + 1 < 2 ^ 31) : (c + 1).toInt = c.toInt + 1 := by
  have hsum : (c + 1).toInt = (c.toInt + 1).bmod (2 ^ 32) := Int32.toInt_add c 1
  rw [hsum]
  exact Int.bmod_eq_of_le (by omega) (by omega)

section

variable {hellos : List HelloPc} {count : Int32}

/-- No handler counts, and what is read is the count. -/
theorem Counts.keep {hellos' : List HelloPc} (hc : Counts hellos count) (hsame : counted hellos' = counted hellos)
    (hread : ∀ c, HelloPc.write c ∈ hellos' → .write c ∈ hellos ∨ c = count) : Counts hellos' count where
  nonneg := hc.nonneg
  le := hsame ▸ hc.le
  pos := hsame ▸ hc.pos
  read c h := by
    rw [hsame]
    obtain hin | rfl := hread c h
    · exact hc.read c hin
    · exact ⟨hc.nonneg, hc.le⟩

/-- A handler writes back what it has read, incremented: others may have counted
since, and their updates are lost. -/
theorem Counts.writeBack {i : Nat} {read : Int32} (hc : Counts hellos count) (hi : i < hellos.length)
    (hpc : hellos[i] = .write read) (hlen : hellos.length < 2 ^ 31) :
    Counts (hellos.set i .print) (read + 1) := by
  have hmore : counted (hellos.set i .print) = counted hellos + 1 := by
    have := counted_set hi .print
    rwa [hpc] at this
  have hle : counted (hellos.set i .print) ≤ hellos.length := by
    have hlength : (hellos.set i .print).length = hellos.length := List.length_set
    rw [← hlength]
    exact List.countP_le_length
  obtain ⟨hread, hreadle⟩ := hc.read read (hpc ▸ List.getElem_mem hi)
  have hsucc := toInt_succ hread (by omega)
  refine ⟨by omega, by omega, fun _ => by omega, fun c hwrite => ?_⟩
  obtain hin | heq := List.mem_or_eq_of_mem_set hwrite
  · have := hc.read c hin
    omega
  · cases heq

/-- A step of a handler keeps the counts. -/
theorem Counts.helloStep {i : Nat} {pc : HelloPc} {count' : Int32} (hc : Counts hellos count)
    (hi : i < hellos.length) (hlen : hellos.length < 2 ^ 31)
    (h : Scout.helloStep hellos[i] count = some (pc, count')) : Counts (hellos.set i pc) count' := by
  have hcounted := counted_set hi pc
  cases hpc : hellos[i] with
  | read =>
    rw [hpc] at h hcounted
    obtain ⟨rfl, rfl⟩ := Prod.mk.inj (Option.some.inj h)
    refine hc.keep hcounted fun c hwrite => ?_
    obtain hin | heq := List.mem_or_eq_of_mem_set hwrite
    · exact .inl hin
    · exact .inr (HelloPc.write.inj heq)
  | write read =>
    rw [hpc] at h
    obtain ⟨rfl, rfl⟩ := Prod.mk.inj (Option.some.inj h)
    exact hc.writeBack hi hpc hlen
  | print =>
    rw [hpc] at h hcounted
    obtain ⟨rfl, rfl⟩ := Prod.mk.inj (Option.some.inj h)
    refine hc.keep (Nat.succ.inj hcounted) fun c hwrite => ?_
    obtain hin | heq := List.mem_or_eq_of_mem_set hwrite
    · exact .inl hin
    · cases heq
  | returned =>
    rw [hpc] at h
    cases h

/-- The count is zero as long as no handler has counted. -/
theorem Counts.eq_zero_iff (hc : Counts hellos count) : count = 0 ↔ counted hellos = 0 := by
  have hzero : count = 0 ↔ count.toInt = 0 := Int32.toInt_inj.symm
  have := hc.nonneg
  have := hc.le
  have := hc.pos
  rw [hzero]
  omega

end

/-- What a step does to the handlers and to the count. -/
theorem step_hellos {s s' : State} {a : Action} (h : step s a = some s') :
    (s'.hellos = s.hellos ∧ s'.count = s.count) ∨
      (a = .hello ∧ s.scouting = true ∧ s' = { s with hellos := s.hellos ++ [.read] }) ∨
      ∃ (i : Nat) (hi : i < s.hellos.length) (pc : HelloPc) (count : Int32), a = .handler i ∧
        Scout.helloStep s.hellos[i] s.count = some (pc, count) ∧
        s' = { s with hellos := s.hellos.set i pc, count := count } := by
  cases a with
  | main ok =>
    refine .inl ?_
    simp only [step, mainStep] at h
    split at h
    all_goals try split at h
    all_goals cases h <;> exact ⟨rfl, rfl⟩
  | hello =>
    simp only [step] at h
    split at h
    · exact .inr (.inl ⟨rfl, ‹_›, (Option.some.inj h).symm⟩)
    · cases h
  | handler i =>
    obtain ⟨hi, pc, count, hpc, rfl⟩ := step_handler h
    exact .inr (.inr ⟨i, hi, pc, count, rfl, hpc, rfl⟩)
  | onClose =>
    refine .inl ?_
    simp only [step, onCloseStep] at h
    split at h
    all_goals cases h <;> exact ⟨rfl, rfl⟩

/-- A step keeps the counts, with fewer than `2^31` hellos. -/
theorem Counts.step {s s' : State} {a : Action} (hc : Counts s.hellos s.count) (hlen : s.hellos.length < 2 ^ 31)
    (h : Scout.step s a = some s') : Counts s'.hellos s'.count := by
  obtain ⟨hhellos, hcount⟩ | ⟨-, -, rfl⟩ | ⟨i, hi, pc, count, -, hpc, rfl⟩ := step_hellos h
  · rw [hhellos, hcount]
    exact hc
  · refine hc.keep ?_ fun c hwrite => ?_
    · exact List.countP_append
    · obtain hin | heq := List.mem_append.mp hwrite
      · exact .inl hin
      · cases List.mem_singleton.mp heq
  · exact hc.helloStep hi hlen hpc

/-! ## The end of a run -/

/-- Every handler has returned. -/
def Idle (hellos : List HelloPc) : Prop := ∀ pc ∈ hellos, pc = .returned

theorem Idle.helloStep {hellos : List HelloPc} (h : Idle hellos) {i : Nat} (hi : i < hellos.length)
    (count : Int32) : Scout.helloStep hellos[i] count = none := by
  rw [h _ (List.getElem_mem hi)]
  rfl

theorem Idle.counted {hellos : List HelloPc} (h : Idle hellos) : counted hellos = 0 ↔ hellos = [] := by
  have hall : Scout.counted hellos = hellos.length := List.countP_eq_length.mpr fun pc hpc => by
    rw [h pc hpc]
    rfl
  rw [hall]
  exact List.length_eq_zero_iff

/-- What holds of every state of a run in which `on_close` begins when the
handlers have returned. -/
def Inv (s : State) : Prop :=
  match s.onClose with
  | .unset => s.main ≠ .dropping ∧ (s.scouting = false → s.hellos = []) ∧ s.noneFound = false
  | .due => s.main = .dropping ∧ s.noneFound = false
  | .test count => s.main = .dropping ∧ Idle s.hellos ∧ (count = 0 ↔ s.hellos = [])
  | .finished => (s.main = .dropping ∨ s.main = .returned) ∧ Idle s.hellos ∧ (s.noneFound = true ↔ s.hellos = [])

/-- `main` is elsewhere than in `z_scout_drop`, and not at its end. -/
theorem Inv.unset {s : State} (hi : Inv s) (hdropping : s.main ≠ .dropping) (hreturned : s.main ≠ .returned) :
    s.onClose = .unset ∧ (s.scouting = false → s.hellos = []) ∧ s.noneFound = false := by
  unfold Inv at hi
  split at hi
  · rename_i honClose
    exact ⟨honClose, hi.2⟩
  · exact absurd hi.1 hdropping
  · exact absurd hi.1 hdropping
  · exact absurd hi.1 fun h => h.elim hdropping hreturned

theorem Inv.mainStep {s s' : State} {ok : Bool} (hi : Inv s) (h : mainStep ok s = some s') : Inv s' := by
  obtain ⟨main, hellos, onClose, count, noneFound⟩ := s
  cases main with
  | scout =>
    obtain ⟨rfl, hquiet, hnone⟩ := hi.unset (by simp) (by simp)
    obtain rfl := Option.some.inj h
    exact ⟨by simp, fun _ => hquiet rfl, hnone⟩
  | scouting ok =>
    obtain ⟨rfl, hquiet, hnone⟩ := hi.unset (by simp) (by simp)
    obtain rfl := Option.some.inj h
    exact ⟨by simp, hquiet, hnone⟩
  | configDrop ok =>
    obtain ⟨rfl, hquiet, hnone⟩ := hi.unset (by simp) (by simp)
    obtain rfl := Option.some.inj h
    cases ok with
    | true => exact ⟨by simp, fun hno => absurd hno.symm Bool.false_ne_true, hnone⟩
    | false => exact ⟨by simp, fun _ => hquiet rfl, hnone⟩
  | sleep =>
    obtain ⟨rfl, -, hnone⟩ := hi.unset (by simp) (by simp)
    obtain rfl := Option.some.inj h
    exact ⟨by simp, fun hno => absurd hno.symm Bool.false_ne_true, hnone⟩
  | scoutDrop =>
    obtain ⟨rfl, -, hnone⟩ := hi.unset (by simp) (by simp)
    obtain rfl := Option.some.inj h
    exact ⟨rfl, hnone⟩
  | dropping =>
    simp only [Scout.mainStep] at h
    split at h
    · rename_i hfinished
      obtain rfl := Option.some.inj h
      obtain rfl : onClose = .finished := hfinished
      exact ⟨.inr rfl, hi.2⟩
    · cases h
  | returned => cases h

/-- zenoh does not scout any more when `on_close` has begun. -/
theorem Inv.hello {s : State} (hi : Inv s) (hs : s.scouting = true) :
    Inv { s with hellos := s.hellos ++ [.read] } := by
  obtain ⟨main, hellos, onClose, count, noneFound⟩ := s
  cases onClose with
  | unset => exact ⟨hi.1, fun hno => absurd (hno.symm.trans hs) Bool.false_ne_true, hi.2.2⟩
  | due => exact hi
  | test count =>
    obtain rfl : main = .dropping := hi.1
    cases hs
  | finished =>
    obtain rfl | rfl : main = .dropping ∨ main = .returned := hi.1
    · cases hs
    · cases hs

/-- No handler is at work any more when `on_close` has begun. -/
theorem Inv.handler {s : State} {i : Nat} {pc : HelloPc} {count : Int32} (hi : Inv s) (hlt : i < s.hellos.length)
    (h : helloStep s.hellos[i] s.count = some (pc, count)) :
    Inv { s with hellos := s.hellos.set i pc, count := count } := by
  obtain ⟨main, hellos, onClose, count, noneFound⟩ := s
  have working (hidle : Idle hellos) : False := by
    have hnone := hidle.helloStep hlt count
    rw [h] at hnone
    cases hnone
  cases onClose with
  | unset =>
    refine ⟨hi.1, fun hno => ?_, hi.2.2⟩
    have hnil : hellos = [] := hi.2.1 hno
    exact absurd hlt (by simp [hnil])
  | due => exact hi
  | test count => exact (working hi.2.1).elim
  | finished => exact (working hi.2.1).elim

theorem Inv.onCloseStep {s s' : State} (hi : Inv s) (hc : Counts s.hellos s.count)
    (hsettled : s.onClose = .due → Idle s.hellos) (h : onCloseStep s = some s') : Inv s' := by
  obtain ⟨main, hellos, onClose, count, noneFound⟩ := s
  cases onClose with
  | unset => cases h
  | due =>
    obtain rfl := Option.some.inj h
    have hidle := hsettled rfl
    exact ⟨hi.1, hidle, hc.eq_zero_iff.trans hidle.counted⟩
  | test count =>
    obtain rfl := Option.some.inj h
    obtain ⟨hmain, hidle, hzero⟩ := hi
    exact ⟨.inl hmain, hidle, decide_eq_true_iff.trans hzero⟩
  | finished => cases h

theorem Inv.step {s s' : State} {a : Action} (hi : Inv s) (hc : Counts s.hellos s.count) (hs : Settled s a)
    (h : Scout.step s a = some s') : Inv s' := by
  cases a with
  | main ok => exact hi.mainStep h
  | hello =>
    obtain ⟨hscouting, rfl⟩ : s.scouting = true ∧ s' = { s with hellos := s.hellos ++ [.read] } := by
      simp only [Scout.step] at h
      split at h
      · exact ⟨‹_›, (Option.some.inj h).symm⟩
      · cases h
    exact hi.hello hscouting
  | handler i =>
    obtain ⟨hlt, pc, count, hpc, rfl⟩ := step_handler h
    exact hi.handler hlt hpc
  | onClose => exact hi.onCloseStep hc hs h

end ZenohFlatC.Scout
