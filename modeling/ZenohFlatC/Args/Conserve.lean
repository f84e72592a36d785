import Mathlib.Data.List.Nodup
import Mathlib.Data.List.ReduceOption
import ZenohFlatC.Args.ParseOpt

/-!
# Every token of the command line is taken once

What a call of `parse_opt` does to `argv` (`Took`): nothing, or it empties the
first slot it recognises and, when the value was written apart, the next one.
So over any sequence of calls (`Calls`) a slot is taken by one call at most,
and what the sweeps (`check_unknown_opts`, `parse_pos_args`) see is what no
call took (`tokens_conserved`).
-/

namespace ZenohFlatC.Args

open CStr (lit)

/-- Slot `i`, holding `a`, is the first one after the program's name that
`parse_opt` recognises. -/
structure First (opt : CStr) (argv : List Slot) (i : Nat) (a : CStr) : Prop where
  pos : 1 ≤ i
  slot : argv[i]? = some (some a)
  recognised : recognises opt a = true
  before : ∀ j b, 1 ≤ j → j < i → argv[j]? = some (some b) → recognises opt b = false

/-- A call of `parse_opt` on `argv`: its result, the slots it took, and the
`argv` it left. -/
inductive Took (opt : CStr) (optHasValue : Bool) (argv : List Slot) :
    Option CStr → List Nat → List Slot → Prop
  | nothing (h : ∀ i a, 1 ≤ i → argv[i]? = some (some a) → recognises opt a = false) :
      Took opt optHasValue argv none [] argv
  | flag {i : Nat} {a : CStr} (h : First opt argv i a) (hv : optHasValue = false) :
      Took opt optHasValue argv (some opt) [i] (argv.set i none)
  /-- `--name=value`: the text after the first `=` of the slot. -/
  | inline {i : Nat} {x value : CStr} (h : First opt argv i (x ++ lit "=" ++ value))
      (hv : optHasValue = true) (hx : equals ∉ x.bytes) :
      Took opt optHasValue argv (some value) [i] (argv.set i none)
  /-- `-x value` or `--name value`: the whole next slot. -/
  | apart {i : Nat} {a value : CStr} (h : First opt argv i a) (hv : optHasValue = true)
      (ha : inlineValue opt a = none) (hnext : argv[i + 1]? = some (some value)) :
      Took opt optHasValue argv (some value) [i, i + 1] ((argv.set i none).set (i + 1) none)

/-- A sequence of calls of `parse_opt`, each with its result and the slots it
took. -/
inductive Calls : List (CStr × Bool) → List Slot → List (Option CStr × List Nat) → List Slot → Prop
  | nil {argv : List Slot} : Calls [] argv [] argv
  | cons {opt : CStr} {optHasValue : Bool} {argv argv₁ argv' : List Slot} {r : Option CStr}
      {slots : List Nat} {cs : List (CStr × Bool)} {log : List (Option CStr × List Nat)} :
      Took opt optHasValue argv r slots argv₁ → Calls cs argv₁ log argv' →
      Calls ((opt, optHasValue) :: cs) argv ((r, slots) :: log) argv'

/-- The slots that the calls took. -/
def taken (log : List (Option CStr × List Nat)) : List Nat := log.flatMap Prod.snd

/-- `argv` with the slots `slots` empty. -/
def clear (slots : List Nat) (argv : List Slot) : List Slot :=
  argv.mapIdx fun i x => if i ∈ slots then none else x

/-- The arguments that no call took, in order. -/
def untaken (log : List (Option CStr × List Nat)) (argv : List Slot) : List CStr :=
  ((clear (taken log) argv).drop 1).reduceOption

theorem clear_getElem? (slots : List Nat) (argv : List Slot) (i : Nat) :
    (clear slots argv)[i]? = argv[i]?.map fun x => if i ∈ slots then none else x :=
  List.getElem?_mapIdx

theorem clear_nil (argv : List Slot) : clear [] argv = argv := by
  refine List.ext_getElem? fun i => ?_
  rw [clear_getElem?]
  simp

theorem clear_clear (s t : List Nat) (argv : List Slot) :
    clear t (clear s argv) = clear (s ++ t) argv := by
  refine List.ext_getElem? fun i => ?_
  simp only [clear_getElem?, Option.map_map, List.mem_append]
  cases argv[i]? with
  | none => rfl
  | some x => by_cases hs : i ∈ s <;> by_cases ht : i ∈ t <;> simp [hs, ht]

theorem set_eq_clear (argv : List Slot) (i : Nat) : argv.set i none = clear [i] argv := by
  refine List.ext_getElem? fun j => ?_
  rw [clear_getElem?, List.getElem?_set]
  by_cases h : i = j
  · subst h
    rcases Nat.lt_or_ge i argv.length with hi | hi
    · simp [hi]
    · simp [Nat.not_lt.mpr hi]
  · simp [h, Ne.symm h]

/-! ## One call -/

theorem First.of_append {opt a : CStr} {prog : Slot} {S : List Slot} (T : List Slot)
    (hS : ∀ b, some b ∈ S → recognises opt b = false) (ha : recognises opt a = true) :
    First opt (prog :: (S ++ some a :: T)) (S.length + 1) a where
  pos := Nat.le_add_left ..
  slot := by simp
  recognised := ha
  before j b h1 hj hb := by
    obtain ⟨j, rfl⟩ := Nat.exists_eq_add_of_le' h1
    rw [List.getElem?_cons_succ, List.getElem?_append_left (by omega)] at hb
    exact hS b (List.mem_of_getElem? hb)

/-- A call of `parse_opt` that returned. -/
theorem parseOpt_took {opt : CStr} {optHasValue : Bool} {σ σ' : Proc} {r : Option CStr}
    (h : parseOpt opt optHasValue σ = .ok r σ') : ∃ slots, Took opt optHasValue σ.argv r slots σ'.argv := by
  unfold parseOpt at h
  split at h
  · rename_i hnil
    cases h
    exact ⟨[], .nothing fun i a _ ha => by simp [hnil] at ha⟩
  · rename_i prog args hargv
    split at h <;> cases h
    rename_i args' hscan
    rw [hargv]
    rcases parseOptFrom_ok hscan with ⟨rfl, rfl, hn⟩ | ⟨S₁, a, S₂, value, T, rfl, hn, ha, hT, rfl, rfl⟩
    · refine ⟨[], .nothing fun i a h1 hi => ?_⟩
      obtain ⟨i, rfl⟩ := Nat.exists_eq_add_of_le' h1
      exact hn a (List.mem_of_getElem? (by simpa using hi))
    · have hf : First opt (prog :: (S₁ ++ some a :: S₂)) (S₁.length + 1) a := .of_append S₂ hn ha
      rcases hit_ok hT with ⟨hv, rfl, rfl⟩ | ⟨hv, hin, rfl⟩ | ⟨S₃, hv, hin, rfl, rfl⟩
      · exact ⟨_, by simpa using Took.flag hf hv⟩
      · obtain ⟨-, x, hx, rfl⟩ := inlineValue_eq_some hin
        exact ⟨_, by simpa using Took.inline hf hv hx⟩
      · exact ⟨_, by simpa using Took.apart hf hv hin (by simp)⟩

/-- The slots taken were full, are different, and are the only change. -/
theorem Took.slots {opt : CStr} {optHasValue : Bool} {argv argv' : List Slot} {r : Option CStr}
    {slots : List Nat} (h : Took opt optHasValue argv r slots argv') :
    (∀ i ∈ slots, ∃ a, argv[i]? = some (some a)) ∧ slots.Nodup ∧ argv' = clear slots argv := by
  cases h with
  | nothing _ => exact ⟨by simp, .nil, (clear_nil _).symm⟩
  | flag h _ | inline h _ _ =>
    exact ⟨by simpa using ⟨_, h.slot⟩, List.nodup_singleton _, set_eq_clear _ _⟩
  | apart h _ _ hnext =>
    refine ⟨by simpa using ⟨⟨_, h.slot⟩, _, hnext⟩, by simp, ?_⟩
    rw [set_eq_clear, set_eq_clear, clear_clear]
    rfl

/-! ## A sequence of calls -/

/-- Over a sequence of calls, no slot is taken twice. -/
theorem Calls.slots {cs : List (CStr × Bool)} {argv argv' : List Slot}
    {log : List (Option CStr × List Nat)} (h : Calls cs argv log argv') :
    (∀ i ∈ taken log, ∃ a, argv[i]? = some (some a)) ∧ (taken log).Nodup ∧
      argv' = clear (taken log) argv := by
  induction h with
  | nil => exact ⟨by simp [taken], .nil, (clear_nil _).symm⟩
  | @cons opt optHasValue argv argv₁ argv' r slots cs log ht _ ih =>
    obtain ⟨hfull, hnd, rfl⟩ := ht.slots
    obtain ⟨hfull', hnd', rfl⟩ := ih
    -- a slot taken later is full after this call, so this call did not take it
    have hlater : ∀ i ∈ taken log, i ∉ slots ∧ ∃ a, argv[i]? = some (some a) := by
      intro i hi
      obtain ⟨a, ha⟩ := hfull' i hi
      rw [clear_getElem?, Option.map_eq_some_iff] at ha
      obtain ⟨x, hx, e⟩ := ha
      split at e
      · cases e
      · rename_i hni
        exact ⟨hni, a, e ▸ hx⟩
    simp only [taken, List.flatMap_cons] at hlater ⊢
    refine ⟨fun i hi => ?_, List.nodup_append.mpr ⟨hnd, hnd', ?_⟩, clear_clear _ _ _⟩
    · rcases List.mem_append.mp hi with hi | hi
      · exact hfull i hi
      · exact (hlater i hi).2
    · rintro i hi j hj rfl
      exact (hlater i hj).1 hi

/-- The calls of a run. -/
theorem calls_of_run {cs : List (CStr × Bool)} {σ σ' : Proc} {rs : List (Option CStr)}
    (h : (cs.mapM fun c => parseOpt c.1 c.2) σ = .ok rs σ') :
    ∃ log, log.map Prod.fst = rs ∧ Calls cs σ.argv log σ'.argv := by
  induction cs generalizing σ rs with
  | nil =>
    rw [List.mapM_nil, pure_ok_iff] at h
    obtain ⟨rfl, rfl⟩ := h
    exact ⟨[], rfl, .nil⟩
  | cons c cs ih =>
    rw [List.mapM_cons, bind_ok_iff] at h
    obtain ⟨r, σ₁, h₁, h⟩ := h
    rw [bind_ok_iff] at h
    obtain ⟨rs', σ₂, h₂, h⟩ := h
    obtain ⟨rfl, rfl⟩ := pure_ok_iff.mp h
    obtain ⟨slots, ht⟩ := parseOpt_took h₁
    obtain ⟨log, rfl, hc⟩ := ih h₂
    exact ⟨(r, slots) :: log, rfl, .cons ht hc⟩

/-! ## The sweeps -/

theorem checkUnknownOptsFrom_eq (S : List Slot) :
    checkUnknownOptsFrom S = S.reduceOption.find? fun a => a.charAt 0 = dash := by
  induction S with
  | nil => rfl
  | cons x S ih =>
    cases x with
    | none => rw [checkUnknownOptsFrom, List.reduceOption_cons_of_none, ih]
    | some a =>
      rw [checkUnknownOptsFrom, List.reduceOption_cons_of_some, List.find?_cons, ih]
      by_cases ha : a.charAt 0 = dash <;> simp [ha]

/-- The arguments `found` in an array of `nbArgs`, the rest of it `NULL`. -/
def posArray (nbArgs : Nat) (found : List CStr) : List Slot :=
  found.map some ++ List.replicate (nbArgs - found.length) none

/-- What `parse_pos_args` returns when the arguments are `found`. -/
def posResult (nbArgs : Nat) (found : List CStr) : Option (List Slot) :=
  if found.length ≤ nbArgs then some (posArray nbArgs found) else none

/-- Storing the next argument. -/
theorem posArray_set {nbArgs : Nat} {found : List CStr} (a : CStr) (h : found.length < nbArgs) :
    (posArray nbArgs found).set found.length (some a) = posArray nbArgs (found ++ [a]) := by
  obtain ⟨n, hn⟩ := Nat.exists_eq_add_of_lt h
  simp only [posArray, hn, show found.length + n + 1 - found.length = n + 1 by omega,
    List.replicate_succ, List.length_append, List.length_singleton,
    show found.length + n + 1 - (found.length + 1) = n by omega, List.map_append, List.map_cons,
    List.map_nil, List.append_assoc, List.singleton_append]
  simp

/-- The loop of `parse_pos_args`, with the arguments `found` before it. -/
theorem parsePosArgsFrom_ok {nbArgs : Nat} (S : List Slot) (found : List CStr) (σ : Proc)
    (hle : found.length ≤ nbArgs) : ∃ ws : List Access, (∀ w ∈ ws, w.InBounds) ∧
      parsePosArgsFrom nbArgs S (posArray nbArgs found) found.length σ =
        .ok (posResult nbArgs (found ++ S.reduceOption)) { σ with accesses := σ.accesses ++ ws } := by
  induction S generalizing found σ with
  | nil =>
    refine ⟨[], by simp, ?_⟩
    rw [List.reduceOption_nil, List.append_nil, List.append_nil, posResult, if_pos hle]
    rfl
  | cons x S ih =>
    cases x with
    | none => rw [List.reduceOption_cons_of_none]; exact ih found σ hle
    | some a =>
      rw [parsePosArgsFrom, List.reduceOption_cons_of_some]
      by_cases hgt : nbArgs < found.length + 1
      · refine ⟨[], by simp, ?_⟩
        simp only [gt_iff_lt, hgt, if_true, List.append_nil]
        rw [posResult, if_neg (by simp only [List.length_append, List.length_cons]; omega)]
        rfl
      · let w := Access.store nbArgs found.length
        obtain ⟨ws, hws, e⟩ := ih (found ++ [a]) { σ with accesses := σ.accesses ++ [w] } (by simp; omega)
        refine ⟨w :: ws, ?_, ?_⟩
        · rintro w' (_ | ⟨_, hw'⟩)
          · show found.length < nbArgs; omega
          · exact hws w' hw'
        · simp only [gt_iff_lt, hgt, if_false, Nat.add_sub_cancel]
          rw [posArray_set a (by omega)]
          rw [List.length_append, List.length_singleton, List.append_assoc, List.append_assoc,
            List.singleton_append, List.singleton_append] at e
          exact e

theorem parsePosArgs_ok (nbArgs : Nat) (σ : Proc) : ∃ ws : List Access, (∀ w ∈ ws, w.InBounds) ∧
    parsePosArgs nbArgs σ =
      .ok (posResult nbArgs (σ.argv.drop 1).reduceOption) { σ with accesses := σ.accesses ++ ws } :=
  parsePosArgsFrom_ok (σ.argv.drop 1) [] σ (Nat.zero_le _)

/-- Over any sequence of calls of `parse_opt` that returned, and the two
sweeps after it: every slot is taken by one call at most, from a full slot to
an empty one, and the sweeps see what was not taken. `parse_pos_args` returns
`NULL` exactly if that is more than `nbArgs`, and otherwise all of it, in
order; it writes in bounds. -/
theorem tokens_conserved {cs : List (CStr × Bool)} {σ σ' : Proc} {rs : List (Option CStr)}
    (h : (cs.mapM fun c => parseOpt c.1 c.2) σ = .ok rs σ') (nbArgs : Nat) :
    ∃ log, log.map Prod.fst = rs ∧ Calls cs σ.argv log σ'.argv ∧
      (∀ i ∈ taken log, ∃ a, σ.argv[i]? = some (some a)) ∧ (taken log).Nodup ∧
      σ'.argv = clear (taken log) σ.argv ∧
      checkUnknownOpts σ'.argv = (untaken log σ.argv).find? (fun a => a.charAt 0 = dash) ∧
      ∃ r ws, parsePosArgs nbArgs σ' = .ok r { σ' with accesses := σ'.accesses ++ ws } ∧
        (∀ w ∈ ws, w.InBounds) ∧ (r = none ↔ nbArgs < (untaken log σ.argv).length) ∧
        ∀ found, r = some found → found = posArray nbArgs (untaken log σ.argv) := by
  obtain ⟨log, rfl, hc⟩ := calls_of_run h
  obtain ⟨hfull, hnd, hargv⟩ := hc.slots
  have hleft : (σ'.argv.drop 1).reduceOption = untaken log σ.argv := by rw [hargv, untaken]
  obtain ⟨ws, hws, e⟩ := parsePosArgs_ok nbArgs σ'
  rw [hleft] at e
  refine ⟨log, rfl, hc, hfull, hnd, hargv, ?_, _, ws, e, hws, ?_, fun found hf => ?_⟩
  · rw [checkUnknownOpts, checkUnknownOptsFrom_eq, hleft]
  · rw [posResult, ite_eq_right_iff]
    simp
  · rw [posResult] at hf
    split at hf
    · exact (Option.some.inj hf).symm
    · cases hf

/-- `z_queryable pos -k v`, scanned for `-k` and then for `--complete`. -/
theorem tokens_conserved_key : ∃ log, log.map Prod.fst = [some (lit "v"), none] ∧
    [some (lit "z_queryable"), some (lit "pos"), none, none] =
      clear (taken log) [some (lit "z_queryable"), some (lit "pos"), some (lit "-k"), some (lit "v")] := by
  have h : ([(lit "k", true), (lit "complete", false)].mapM fun c => parseOpt c.1 c.2)
      (.start [lit "z_queryable", lit "pos", lit "-k", lit "v"]) =
      .ok [some (lit "v"), none] ⟨[some (lit "z_queryable"), some (lit "pos"), none, none], [], []⟩ := rfl
  obtain ⟨log, hr, -, -, -, hargv, -⟩ := tokens_conserved h 1
  exact ⟨log, hr, hargv⟩

end ZenohFlatC.Args
