import ZenohFlatC.Args.Conserve
import ZenohFlatC.Args.Common
import ZenohFlatC.Framework.Tally

/-!
# The loops over a repeated option end

The loops of `parse_zenoh_json_list_config` and `parse_zenoh_json_list_cfg`
run until `parse_opt` finds nothing. Each value it finds empties a slot of
`argv` that was full, so that there are at most `argc - 1` of them, whatever
`argv` holds; a loop that has returned leaves no slot that `parse_opt` would
recognise (`loops_end`). The calls that found a value are counted by the
loops' tallied forms, which do what the loops do.
-/

namespace ZenohFlatC.Args

open CStr (lit)

variable {α : Type}

/-- The slots after the program's name that are not empty. -/
def full (argv : List Slot) : Nat := (argv.drop 1).countP Option.isSome

/-- `parse_opt` recognises no slot after the program's name. -/
def Unrecognised (opt : CStr) (argv : List Slot) : Prop :=
  ∀ i a, 1 ≤ i → argv[i]? = some (some a) → recognises opt a = false

/-! ## The loops, tallied -/

/-- The successes of a call of `parse_opt`. -/
def found (r : Option CStr) : Nat := r.elim 0 fun _ => 1

/-- `parseOpt`, counting the calls that find the option. -/
def parseOptTallied (opt : CStr) : EStateM Exit (Tally Proc) (Option CStr) :=
  tallied found (parseOpt opt true)

/-- `findArg`, tallied. -/
def findArgTallied (idShort idLong : CStr) : EStateM Exit (Tally Proc) (Option CStr) := do
  match ← parseOptTallied idShort with
  | none => parseOptTallied idLong
  | some v => pure (some v)

/-- `jsonListLoop`, tallied. -/
def jsonListLoopTallied (optShort optLong : CStr) : Nat → Buffer → EStateM Exit (Tally Proc) Buffer
  | 0, _ => throw .rounds
  | n + 1, buf => do
    match ← findArgTallied optShort optLong with
    | none => pure buf
    | some value =>
      let lenNewbuf := buf.str.strlen + value.strlen + 4
      let newbuf ← untallied (snprintf lenNewbuf (Nat.succ_pos _) (buf.str ++ lit "'" ++ value ++ lit "',"))
      jsonListLoopTallied optShort optLong n newbuf

/-- `cfgLoop`, tallied. -/
def cfgLoopTallied (api : ConfigApi) (optLong : CStr) : Nat → EStateM Exit (Tally Proc) Unit
  | 0 => throw .rounds
  | n + 1 => do
    match ← parseOptTallied optLong with
    | none => pure ()
    | some value =>
      untallied (insertCfg api value)
      cfgLoopTallied api optLong n

/-! ## One call of `parse_opt` -/

theorem hit_error {opt a : CStr} {optHasValue : Bool} {rest : List Slot} {e : Exit}
    (h : hit opt optHasValue a rest = .error e) : e = withoutValue opt := by
  unfold hit at h
  cases optHasValue with
  | false => cases h
  | true =>
    simp only [Bool.not_true, Bool.false_eq_true, if_false] at h
    cases hv : inlineValue opt a with
    | some v => simp only [hv] at h; cases h
    | none => rcases rest with _ | ⟨_ | v, rest⟩ <;> simp only [hv] at h <;> cases h <;> rfl

theorem except_map_error_iff {ε α β : Type} {f : α → β} {x : Except ε α} {e : ε} :
    x.map f = .error e ↔ x = .error e := by
  cases x <;> simp [Except.map]

theorem parseOptFrom_error {opt : CStr} {optHasValue : Bool} {S : List Slot} {e : Exit}
    (h : parseOptFrom opt optHasValue S = .error e) : e = withoutValue opt := by
  induction S with
  | nil => cases h
  | cons x S ih =>
    cases x with
    | none =>
      rw [parseOptFrom, except_map_error_iff] at h
      exact ih h
    | some a =>
      rw [parseOptFrom_cons] at h
      split at h
      · exact hit_error (except_map_error_iff.mp h)
      · exact ih (except_map_error_iff.mp h)

/-- `parse_opt` exits at an option without a value, and there only. -/
theorem parseOpt_error {opt : CStr} {optHasValue : Bool} {σ σ' : Proc} {e : Exit}
    (h : parseOpt opt optHasValue σ = .error e σ') : e = withoutValue opt ∧ σ' = σ := by
  unfold parseOpt at h
  split at h
  · cases h
  · split at h <;> cases h
    rename_i hscan
    exact ⟨parseOptFrom_error hscan, rfl⟩

theorem parseOpt_avoids (opt : CStr) (optHasValue : Bool) : Avoids .rounds (parseOpt opt optHasValue) := by
  intro σ hexit
  cases h : parseOpt opt optHasValue σ with
  | ok r σ' =>
    rw [h] at hexit
    cases hexit
  | error e σ' =>
    rw [h] at hexit
    obtain rfl : e = .rounds := Option.some.inj hexit
    have he := (parseOpt_error h).1
    unfold withoutValue at he
    split at he <;> cases he

/-- Emptying a full slot after the program's name leaves one fewer. -/
theorem full_set {argv : List Slot} {i : Nat} {a : CStr} (hi : 1 ≤ i) (h : argv[i]? = some (some a)) :
    full (argv.set i none) + 1 = full argv := by
  have hdrop : (argv.drop 1)[i - 1]? = some (some a) := by
    rw [List.getElem?_drop, ← h]
    congr 1
    omega
  obtain ⟨hlt, hget⟩ := List.getElem?_eq_some_iff.mp hdrop
  have hpos : 0 < (argv.drop 1).countP Option.isSome :=
    List.countP_pos_iff.mpr ⟨some a, List.mem_of_getElem? hdrop, rfl⟩
  unfold full
  rw [List.drop_set, if_neg (by omega), List.countP_set hlt, hget]
  simp only [Option.isSome_some, Option.isSome_none, if_true, Bool.false_eq_true, if_false]
  omega

theorem full_le (argv : List Slot) : full argv ≤ argv.length - 1 :=
  List.countP_le_length.trans (List.length_drop ..).le

/-- A value that `parse_opt` finds was in a full slot, or behind one, that is
empty after it. -/
theorem Took.full_le {opt : CStr} {optHasValue : Bool} {argv argv' : List Slot} {r : Option CStr}
    {slots : List Nat} (h : Took opt optHasValue argv r slots argv') :
    full argv' + found r ≤ full argv := by
  cases h with
  | nothing _ => exact Nat.le_refl _
  | flag h _ | inline h _ _ => exact (full_set h.pos h.slot).le
  | @apart i _ _ h _ _ hnext =>
    have hfirst := full_set h.pos h.slot
    have hstill : (argv.set i none)[i + 1]? = argv[i + 1]? := List.getElem?_set_ne (by omega)
    have hsecond := full_set (by omega) (hstill.trans hnext)
    show full ((argv.set i none).set (i + 1) none) + 1 ≤ _
    omega

/-- A scan that finds nothing changes nothing, and would recognise nothing. -/
theorem parseOpt_nothing {opt : CStr} {σ σ' : Proc} (h : parseOpt opt true σ = .ok none σ') :
    σ'.argv = σ.argv ∧ Unrecognised opt σ'.argv := by
  obtain ⟨slots, htook⟩ := parseOpt_took h
  generalize hargv : σ'.argv = argv at htook ⊢
  cases htook with
  | nothing hnone => exact ⟨rfl, hnone⟩

/-! ## One round -/

theorem parseOpt_step (opt : CStr) :
    Step (fun σ : Proc => full σ.argv) .rounds found (parseOptTallied opt) (parseOpt opt true) where
  counts := .tallied _ _
  pays := by
    refine .tallied (fun h => ?_) (fun h => ?_)
    · obtain ⟨slots, htook⟩ := parseOpt_took h
      exact htook.full_le
    · rw [(parseOpt_error h).2]
  avoids := (parseOpt_avoids opt true).tallied _
  yields := Yields.tallied _ _

/-- The scan of `_Z_PARSE_ARG_SINGLE_OPT`. -/
theorem parseSingle_step (idLong : CStr) :
    Step (fun σ : Proc => full σ.argv) .rounds found (parseOptTallied idLong)
      (parseArgSingleOpt idLong (fun v => pure (some v)) none) := by
  rw [parseSingle_parseOpt]
  exact parseOpt_step idLong

/-- The scans of `_Z_PARSE_ARG`. -/
theorem parseStr_step (idShort idLong : CStr) :
    Step (fun σ : Proc => full σ.argv) .rounds found (findArgTallied idShort idLong) (parseStr idShort idLong) := by
  have hshort := parseOpt_step idShort
  have hlong := parseOpt_step idLong
  rw [parseStr_findArg]
  refine ⟨hshort.counts.bind fun r => ?_, hshort.pays.bind fun r => ?_, hshort.avoids.bind fun r => ?_, ?_⟩
  · cases r with
    | none => exact hlong.counts
    | some v => exact .pure _
  · cases r with
    | none => exact hlong.pays
    | some v => exact .pure _
  · cases r with
    | none => exact hlong.avoids
    | some v => exact .pure _
  · intro t t' r h
    obtain ⟨r₁, t₁, h₁, h⟩ := bind_ok_iff.mp h
    have hcount := hshort.yields h₁
    cases r₁ with
    | none =>
      rw [hlong.yields h, hcount]
      rfl
    | some v =>
      obtain ⟨rfl, rfl⟩ := pure_ok_iff.mp h
      exact hcount

/-- A scan under two names that finds nothing would recognise neither. -/
theorem parseStr_nothing {idShort idLong : CStr} {σ σ' : Proc} (h : parseStr idShort idLong σ = .ok none σ') :
    Unrecognised idShort σ'.argv ∧ Unrecognised idLong σ'.argv := by
  rw [parseStr_findArg] at h
  obtain ⟨r, σ₁, hshort, h⟩ := bind_ok_iff.mp h
  cases r with
  | some v => cases h
  | none =>
    obtain ⟨hsame, hlong⟩ := parseOpt_nothing h
    have hnone := (parseOpt_nothing hshort).2
    rw [← hsame] at hnone
    exact ⟨hnone, hlong⟩

theorem insertCfg_argv (api : ConfigApi) (value : CStr) (σ : Proc) :
    (endState (insertCfg api value σ)).argv = σ.argv := by
  unfold insertCfg
  cases value.strchr colon with
  | none => rfl
  | some pos =>
    refine (congrArg (fun r => Proc.argv (endState r)) (bind_of_ok rfl)).trans ?_
    cases api.insertJson5 σ.calls (value.take (value.strlen - pos.strlen)) (pos.drop 1) <;> rfl

theorem insertCfg_avoids (api : ConfigApi) (value : CStr) : Avoids .rounds (insertCfg api value) := by
  unfold insertCfg
  cases value.strchr colon with
  | none => exact fun _ => nofun
  | some pos =>
    refine Avoids.bind (fun _ => nofun) fun inserted => ?_
    cases inserted with
    | true => exact .pure _
    | false => exact fun _ => nofun

/-! ## The loops -/

theorem jsonListLoop_loop (optShort optLong : CStr) (n : Nat) (buf : Buffer) :
    Loop (fun σ : Proc => full σ.argv) .rounds n (jsonListLoopTallied optShort optLong n buf)
      (jsonListLoop optShort optLong n buf) := by
  induction n generalizing buf with
  | zero => exact .throw _
  | succ n ih =>
    refine .bind (parseStr_step optShort optLong) fun r => ?_
    cases r with
    | none => exact .pure _
    | some v => exact .bind (.untallied (fun _ => rfl) fun _ h => by cases h) ih

theorem cfgLoop_loop (api : ConfigApi) (optLong : CStr) (n : Nat) :
    Loop (fun σ : Proc => full σ.argv) .rounds n (cfgLoopTallied api optLong n) (cfgLoop api optLong n) := by
  induction n with
  | zero => exact .throw _
  | succ n ih =>
    refine .bind (parseSingle_step optLong) fun r => ?_
    cases r with
    | none => exact .pure _
    | some v =>
      have hargv (σ : Proc) := congrArg full (insertCfg_argv api v σ)
      exact .bind (.untallied hargv (insertCfg_avoids api v)) fun _ => ih

theorem jsonListLoop_nothingLeft {optShort optLong : CStr} {n : Nat} {buf buf' : Buffer} {σ σ' : Proc}
    (h : jsonListLoop optShort optLong n buf σ = .ok buf' σ') :
    Unrecognised optShort σ'.argv ∧ Unrecognised optLong σ'.argv := by
  induction n generalizing buf σ with
  | zero => cases h
  | succ n ih =>
    obtain ⟨r, σ₁, hscan, h⟩ := bind_ok_iff.mp h
    cases r with
    | none =>
      obtain ⟨-, rfl⟩ := pure_ok_iff.mp h
      exact parseStr_nothing hscan
    | some v =>
      obtain ⟨newbuf, σ₂, -, h⟩ := bind_ok_iff.mp h
      exact ih h

theorem cfgLoop_nothingLeft {api : ConfigApi} {optLong : CStr} {n : Nat} {σ σ' : Proc}
    (h : cfgLoop api optLong n σ = .ok () σ') : Unrecognised optLong σ'.argv := by
  induction n generalizing σ with
  | zero => cases h
  | succ n ih =>
    obtain ⟨r, σ₁, hscan, h⟩ := bind_ok_iff.mp h
    cases r with
    | none =>
      obtain ⟨-, rfl⟩ := pure_ok_iff.mp h
      rw [parseSingle_parseOpt] at hscan
      exact (parseOpt_nothing hscan).2
    | some v =>
      obtain ⟨⟨⟩, σ₂, -, h⟩ := bind_ok_iff.mp h
      exact ih h

/-- A loop over the options `opts`, run in `σ`: `counted` is its run with the
calls of `parse_opt` that succeeded counted. It ends, after `argc - 1` of them
at most, and leaves none of the options behind if it returns. -/
structure LoopEnds (opts : List CStr) (σ : Proc) (run : EStateM.Result Exit Proc α)
    (counted : EStateM.Result Exit (Tally Proc) α) : Prop where
  same : uncount counted = run
  finishes : exited run ≠ some .rounds
  successes : (endState counted).count ≤ σ.argv.length - 1
  nothingLeft : ∀ a σ', run = .ok a σ' → ∀ opt ∈ opts, Unrecognised opt σ'.argv

theorem LoopEnds.of_loop {opts : List CStr} {σ : Proc} {q : EStateM Exit (Tally Proc) α} {p : Prog α}
    (h : Loop (fun σ : Proc => full σ.argv) .rounds (σ.argv.length + 1) q p)
    (hleft : ∀ a σ', p σ = .ok a σ' → ∀ opt ∈ opts, Unrecognised opt σ'.argv) :
    LoopEnds opts σ (p σ) (q ⟨σ, 0⟩) := by
  have hfull := full_le σ.argv
  exact ⟨h.counts ⟨σ, 0⟩, h.finishes (by omega), Nat.le_trans (h.pays.count_le σ) hfull, hleft⟩

/-- The loops of `parse_zenoh_json_list_config` and `parse_zenoh_json_list_cfg`
end, whatever `argv` holds and whatever the calls on the configuration return,
and leave nothing behind. -/
theorem loops_end (api : ConfigApi) (optShort optLong : CStr) (σ : Proc) :
    LoopEnds [optShort, optLong] σ (jsonListLoop optShort optLong (σ.argv.length + 1) .calloc1 σ)
        (jsonListLoopTallied optShort optLong (σ.argv.length + 1) .calloc1 ⟨σ, 0⟩) ∧
      LoopEnds [optLong] σ (cfgLoop api optLong (σ.argv.length + 1) σ)
        (cfgLoopTallied api optLong (σ.argv.length + 1) ⟨σ, 0⟩) := by
  refine ⟨.of_loop (jsonListLoop_loop ..) fun buf σ' hrun => ?_, .of_loop (cfgLoop_loop ..) fun _ σ' hrun => ?_⟩
  · obtain ⟨hshort, hlong⟩ := jsonListLoop_nothingLeft hrun
    exact List.forall_mem_cons.mpr ⟨hshort, List.forall_mem_singleton.mpr hlong⟩
  · exact List.forall_mem_singleton.mpr (cfgLoop_nothingLeft hrun)

end ZenohFlatC.Args
