import ZenohFlatC.Args.Conserve
import ZenohFlatC.Args.Stages

/-!
# `parse_zenoh_common_args` on a command line of units

What the steps of `parse_zenoh_common_args` do to a command line of units, and
the calls that they make for the options given: the configuration's file, the
mode, the lists of endpoints, the `--cfg` pairs and the scouting flag. A step
that returned made calls that all succeeded (`ConfigApi.Succeed`). After the
last step of `parse_args`, no unit is left (`checkNothingLeft_mirrors`).
-/

namespace ZenohFlatC.Args

open CStr (lit)

variable {ν : Type} [Options ν]

/-! ## Calls on the configuration -/

/-- Whether a call succeeds, after the calls `done`. -/
def ConfigApi.succeeds (api : ConfigApi) (done : List ConfigCall) : ConfigCall → Bool
  | .fromFile path => api.fromFile done path
  | .default => true
  | .insertJson5 key value => api.insertJson5 done key value

/-- The calls all succeed, made one after another. -/
def ConfigApi.Succeed (api : ConfigApi) : List ConfigCall → List ConfigCall → Prop
  | _, [] => True
  | done, c :: cs => api.succeeds done c = true ∧ api.Succeed (done ++ [c]) cs

theorem ConfigApi.succeed_append {api : ConfigApi} {done cs ds : List ConfigCall} :
    api.Succeed done (cs ++ ds) ↔ api.Succeed done cs ∧ api.Succeed (done ++ cs) ds := by
  induction cs generalizing done with
  | nil => simp [ConfigApi.Succeed]
  | cons c cs ih =>
    simp only [List.cons_append, ConfigApi.Succeed, ih, List.append_assoc, List.nil_append, and_assoc]

theorem ConfigApi.alwaysOk_succeed (done cs : List ConfigCall) : ConfigApi.alwaysOk.Succeed done cs := by
  induction cs generalizing done with
  | nil => trivial
  | cons c cs ih => exact ⟨by cases c <;> rfl, ih _⟩

/-- The calls `cs`, all of which succeed. -/
def callsRel (api : ConfigApi) (cs : List ConfigCall) (a : Line ν) (_ : Unit) (a' : Line ν) : Prop :=
  api.Succeed a.calls cs ∧ a' = ⟨a.units, a.calls ++ cs⟩

theorem At.call {r : Nat} {σ : Proc} {a : Line ν} (h : At r σ a) (c : ConfigCall) :
    At r (σ.call c) ⟨a.units, a.calls ++ [c]⟩ :=
  ⟨h.tiled, congrArg (· ++ [c]) h.calls, h.ranks⟩

/-- A call, and what is known before it from what is known after it. -/
theorem At.of_call {r : Nat} {σ : Proc} {a : Line ν} {c : ConfigCall} (h : At r (σ.call c) a) :
    At r σ ⟨a.units, σ.calls⟩ ∧ a.calls = σ.calls ++ [c] :=
  ⟨⟨h.tiled, rfl, h.ranks⟩, h.calls.symm⟩

/-- A call that exits where it fails. -/
theorem call_mirrors {r : Nat} (api : ConfigApi) (c : ConfigCall) (e : Exit) {p : Prog Bool}
    (hp : ∀ σ, p σ = .ok (api.succeeds σ.calls c) (σ.call c)) :
    Mirrors (At (ν := ν) r) (p >>= fun | true => pure () | false => throw e) (callsRel api [c]) (At r) where
  run := by
    rintro σ a a' x h ⟨⟨hok, -⟩, rfl⟩
    refine ⟨σ.call c, ?_, h.call c⟩
    rw [bind_of_ok (hp σ), h.calls, hok]
    rfl
  back := by
    intro σ σ' a' x hrun h
    rw [bind_of_ok (hp σ)] at hrun
    cases hok : api.succeeds σ.calls c with
    | false => rw [hok] at hrun; cases hrun
    | true =>
      rw [hok] at hrun
      obtain ⟨-, rfl⟩ := pure_ok_iff.mp hrun
      obtain ⟨h, hcalls⟩ := h.of_call
      refine ⟨_, h, ⟨hok, trivial⟩, ?_⟩
      rw [← hcalls]

/-- `malloc` and `snprintf` touch neither. -/
theorem snprintf_mirrors {r : Nat} (size : Nat) (h : 0 < size) (out : CStr) :
    Mirrors (At (ν := ν) r) (snprintf size h out) (pureRel (.snprintf size out h)) (At r) where
  run := by
    rintro σ a a' x hat ⟨rfl, rfl⟩
    exact ⟨_, rfl, hat.log _⟩
  back := by
    intro σ σ' a' x hrun hat
    cases hrun
    exact ⟨a', hat.of_log, rfl, rfl⟩

/-! ## `-c` and `-m` -/

/-- The call for the configuration's file. -/
def fileCalls : Option CStr → List ConfigCall
  | some path => [.fromFile path]
  | none => [.default]

/-- The call for the mode. -/
def modeCalls : Option CStr → List ConfigCall
  | some mode => [.insertJson5 (lit "mode") (quoted mode)]
  | none => []

/-- The call for `--no-multicast-scouting`. -/
def scoutingCalls : Option CStr → List ConfigCall
  | some _ => [.insertJson5 (lit "scouting/multicast/enabled") (lit "false")]
  | none => []

section

variable {r : Nat} {s l n : ν}

section

variable [DecidableEq ν]

/-- An option that is given once at most, and the calls made for it. -/
def optionRel (api : ConfigApi) (s l : ν) (f : Option CStr → List ConfigCall) (a : Line ν) (_ : Unit)
    (a' : Line ν) : Prop :=
  (Once [s, l] a.units ∧ PairClear s l a.units) ∧ api.Succeed a.calls (f (given [s, l] a.units)) ∧
    a' = ⟨without [s, l] a.units, a.calls ++ f (given [s, l] a.units)⟩

/-- The calls made for what an option was given. -/
theorem option_mirrors {api : ConfigApi} {f : Option CStr → List ConfigCall} {p : Prog (Option CStr)}
    {q : Option CStr → Prog Unit} {r' : Nat} (hp : Mirrors (At r) p (onceRel s l) (At r'))
    (hq : ∀ x, Mirrors (At (ν := ν) r') (q x) (callsRel api (f x)) (At r')) :
    Mirrors (At r) (p >>= q) (optionRel api s l f) (At r') := by
  refine (hp.bind hq).congr (fun _ _ h => h) ?_ ?_
  · rintro σ a x a' - ⟨h, hok, rfl⟩
    exact ⟨⟨_, _, ⟨h, rfl, rfl⟩, hok, rfl⟩, fun _ h => h⟩
  · rintro σ σ' a x a' - - ⟨y, a₁, ⟨h, rfl, rfl⟩, hok, rfl⟩
    exact ⟨h, hok, rfl⟩

theorem parseConfigFile_mirrors (api : ConfigApi) (hs : rank s = r) (hl : rank l = r + 1)
    (hks : kind s = .value) (hkl : kind l = .value) (hts : text s = lit "c")
    (htl : text l = lit "config") :
    Mirrors (At r) (parseConfigFile api) (optionRel api s l fileCalls) (At (r + 2)) := by
  have hstr := pairRel_once hs hl (parseStr_pair (by omega) (by omega) hks hkl)
  rw [hts, htl] at hstr
  refine option_mirrors hstr fun x => ?_
  cases x with
  | none =>
    refine (call_mirrors (p := do zConfigDefault; pure true) api .default .help fun σ => rfl)
  | some path => exact call_mirrors api (.fromFile path) (.configFile path) fun σ => rfl

theorem parseMode_mirrors (api : ConfigApi) (hs : rank s = r) (hl : rank l = r + 1)
    (hks : kind s = .value) (hkl : kind l = .value) (hts : text s = lit "m") (htl : text l = lit "mode") :
    Mirrors (At r) (parseMode api) (optionRel api s l modeCalls) (At (r + 2)) := by
  have hstr := pairRel_once hs hl (parseStr_pair (by omega) (by omega) hks hkl)
  rw [hts, htl] at hstr
  refine option_mirrors hstr fun x => ?_
  cases x with
  | none =>
    refine (Mirrors.pure ()).congr (fun _ _ h => h) ?_ ?_
    · rintro σ a x a' - ⟨-, rfl⟩
      exact ⟨⟨rfl, by simp [modeCalls]⟩, fun _ h => h⟩
    · rintro σ σ' a x a' - - ⟨-, rfl⟩
      exact ⟨trivial, by simp [modeCalls]⟩
  | some mode =>
    -- the quotes and the terminator are the 3 bytes more
    have hlen : (lit "'" ++ mode ++ lit "'").strlen < mode.strlen + 3 := by
      rw [CStr.strlen_append, CStr.strlen_append]
      show 1 + mode.strlen + 1 < _
      omega
    have hbuf : (Buffer.snprintf (mode.strlen + 3) (lit "'" ++ mode ++ lit "'") (Nat.succ_pos _)).str =
        quoted mode := Buffer.snprintf_str hlen
    have hrel : callsRel (ν := ν) api [.insertJson5 (lit "mode") (Buffer.snprintf (mode.strlen + 3)
        (lit "'" ++ mode ++ lit "'") (Nat.succ_pos _)).str] = callsRel api (modeCalls (some mode)) := by
      rw [hbuf]
      rfl
    have hcall := fun buf : Buffer => call_mirrors (ν := ν) (r := r + 2) api
      (.insertJson5 (lit "mode") buf.str) (.insertMode mode) (p := zConfigInsertJson5 api (lit "mode") buf.str)
      fun σ => rfl
    refine ((snprintf_mirrors _ _ _).bind hcall).congr (fun _ _ h => h) ?_ ?_
    · intro σ a x a' _ h
      exact ⟨⟨_, a, ⟨rfl, rfl⟩, cast (congrFun (congrFun (congrFun hrel a) x) a').symm h⟩, fun _ h => h⟩
    · rintro σ σ' a x a' - - ⟨_, _, ⟨rfl, rfl⟩, h⟩
      exact cast (congrFun (congrFun (congrFun hrel _) _) _) h

end

/-! ## The lists of endpoints -/

/-- The scans of a loop that collects values. -/
def collectRel (s l : ν) (a : Line ν) (vs : List CStr) (a' : Line ν) : Prop :=
  Collect (PairScan s l) a.units vs a'.units ∧ a'.calls = a.calls

theorem Scan.length {us us' : List (OptUnit ν)} {v : CStr} (h : Scan n us (some v) us') :
    us.length = us'.length + 1 := by
  cases h
  simp only [List.length_append, List.length_cons]
  omega

/-- A value is collected for a unit. -/
theorem Collect.length_le {us us' : List (OptUnit ν)} {vs : List CStr}
    {R : List (OptUnit ν) → Option CStr → List (OptUnit ν) → Prop}
    (hR : ∀ us v us', R us (some v) us' → us.length = us'.length + 1) (h : Collect R us vs us') :
    vs.length ≤ us.length := by
  induction h with
  | stop => exact Nat.zero_le _
  | more h _ ih =>
    have := hR _ _ _ h
    rw [List.length_cons]
    omega

theorem PairScan.length {us us' : List (OptUnit ν)} {v : CStr} (h : PairScan s l us (some v) us') :
    us.length = us'.length + 1 := by
  rcases h with ⟨w, -, h⟩ | ⟨-, h⟩ <;> exact h.length

/-- The loop of `parse_zenoh_json_list_config`, given enough rounds. -/
theorem collectValues_mirrors (hs : r ≤ rank s) (hl : r ≤ rank l) (hks : kind s = .value)
    (hkl : kind l = .value) (k : Nat) : Mirrors (At r) (collectValues (text s) (text l) k)
      (fun a vs a' => vs.length < k ∧ collectRel s l a vs a') (At r) := by
  induction k with
  | zero => exact .throw _ _ fun a vs a' h => Nat.not_lt_zero _ h.1
  | succ k ih =>
    have hvalues : ∀ v, Mirrors (At r) (do let vs ← collectValues (text s) (text l) k; pure (v :: vs))
        (thenRel (fun a vs a' => vs.length < k ∧ collectRel s l a vs a') fun vs => pureRel (v :: vs))
        (At r) := fun v => ih.bind fun vs => .pure _
    refine ((parseStr_pair hs hl hks hkl).bind (Q := fun y => y.elim (pureRel []) fun v =>
      thenRel (fun a vs a' => vs.length < k ∧ collectRel s l a vs a') fun vs => pureRel (v :: vs))
      (U := At r) fun y => ?_).congr (fun _ _ h => h) ?_ ?_
    · cases y with
      | none => exact .pure _
      | some v => exact hvalues v
    · rintro σ a vs a' - ⟨hlen, hcollect, hcalls⟩
      refine ⟨?_, fun _ h => h⟩
      cases hcollect with
      | stop h => exact ⟨none, a', ⟨h, hcalls⟩, rfl, rfl⟩
      | @more _ us₁ _ v vs h hrest =>
        exact ⟨some v, ⟨us₁, a.calls⟩, ⟨h, rfl⟩, vs, a', ⟨Nat.lt_of_succ_lt_succ hlen, hrest, hcalls⟩,
          rfl, rfl⟩
    · rintro σ σ' a vs a' - - ⟨y, a₁, ⟨h, hcalls⟩, hrest⟩
      cases y with
      | none =>
        obtain ⟨rfl, rfl⟩ := hrest
        exact ⟨Nat.succ_pos _, .stop h, hcalls⟩
      | some v =>
        obtain ⟨ws, a₂, ⟨hlen, hcollect, hcalls₂⟩, rfl, rfl⟩ := hrest
        exact ⟨Nat.succ_lt_succ hlen, .more h hcollect, hcalls₂.trans hcalls⟩

/-- The call for a list of endpoints. -/
def listCalls (configKey : CStr) (vs : List CStr) : List ConfigCall :=
  if vs = [] then [] else [.insertJson5 configKey (jsonListText vs)]

section

variable [DecidableEq ν]

/-- A repeated option, and the call for the list of its values. -/
def listRel (api : ConfigApi) (s l : ν) (configKey : CStr) (a : Line ν) (_ : Unit) (a' : Line ν) : Prop :=
  (Clear s (without [s] a.units) ∧ Clear l (without [s, l] a.units)) ∧
    api.Succeed a.calls (listCalls configKey (valuesOf s a.units ++ valuesOf l a.units)) ∧
    a' = ⟨without [s, l] a.units,
      a.calls ++ listCalls configKey (valuesOf s a.units ++ valuesOf l a.units)⟩

theorem parseZenohJsonListConfig_mirrors (api : ConfigApi) (configKey : CStr) (hs : rank s = r)
    (hl : rank l = r + 1) (hks : kind s = .value) (hkl : kind l = .value) :
    Mirrors (At r) (parseZenohJsonListConfig api (text s) (text l) configKey)
      (listRel api s l configKey) (At (r + 2)) := by
  have hsl : s ≠ l := fun e => by rw [e] at hs; omega
  have hloop := fun k => collectValues_mirrors (s := s) (l := l) (r := r) (by omega) (by omega) hks hkl k
  constructor
  · rintro σ a a' x h ⟨⟨hcs, hcl⟩, hok, rfl⟩
    have hcollect := (collect_pairScan_iff hsl).mpr ⟨hcs, hcl, rfl, rfl⟩
    have hlen : (valuesOf s a.units ++ valuesOf l a.units).length < σ.argv.length + 1 :=
      Nat.lt_succ_of_le ((hcollect.length_le fun _ _ _ h => h.length).trans h.length_le)
    have hrel : collectRel s l a (valuesOf s a.units ++ valuesOf l a.units)
        ⟨without [s, l] a.units, a.calls⟩ := ⟨hcollect, rfl⟩
    obtain ⟨σ', hrun, h'⟩ := (hloop (σ.argv.length + 1)).run h ⟨hlen, hrel⟩
    obtain ⟨ws, hspec⟩ := parseZenohJsonListConfig_eq api (text s) (text l) configKey σ
    rw [hrun] at hspec
    have hnot : ∀ u ∈ without [s, l] a.units, u.name ∉ [s, l] := fun u hu => (mem_without.mp hu).2
    have h' := (At.without_pair hs hl).mpr ⟨h', hnot⟩
    rw [hspec.2]
    by_cases hvs : valuesOf s a.units ++ valuesOf l a.units = []
    · rw [if_pos hvs, listCalls, if_pos hvs, List.append_nil]
      exact ⟨_, rfl, h'.log ws⟩
    · rw [listCalls, if_neg hvs] at hok
      have hins : api.insertJson5 σ'.calls configKey
          (jsonListText (valuesOf s a.units ++ valuesOf l a.units)) = true := h'.calls ▸ hok.1
      rw [if_neg hvs, if_pos hins, listCalls, if_neg hvs]
      exact ⟨_, rfl, (h'.log ws).call _⟩
  · intro σ σ'' a' x hrun h''
    obtain ⟨ws, hspec⟩ := parseZenohJsonListConfig_eq api (text s) (text l) configKey σ
    cases hc : collectValues (text s) (text l) (σ.argv.length + 1) σ with
    | error e σ' =>
      rw [hc] at hspec
      rw [hspec.2] at hrun
      cases hrun
    | ok vs σ' =>
      rw [hc] at hspec
      -- the state behind the loop, and the call
      have hafter : At (r + 2) σ' ⟨a'.units, σ'.calls⟩ ∧ api.Succeed σ'.calls (listCalls configKey vs) ∧
          a'.calls = σ'.calls ++ listCalls configKey vs := by
        rw [hspec.2] at hrun
        by_cases hvs : vs = []
        · rw [if_pos hvs] at hrun
          cases hrun
          rw [listCalls, if_pos hvs, List.append_nil]
          exact ⟨⟨h''.tiled, rfl, h''.ranks⟩, trivial, h''.calls.symm⟩
        · rw [if_neg hvs] at hrun
          split at hrun <;> cases hrun
          rename_i hins
          rw [listCalls, if_neg hvs]
          exact ⟨⟨h''.tiled, rfl, h''.ranks⟩, ⟨hins, trivial⟩, h''.calls.symm⟩
      obtain ⟨h', hok, hcalls⟩ := hafter
      obtain ⟨h', hnot⟩ := (At.without_pair hs hl).mp h'
      obtain ⟨a, h, -, hcollect, hsame⟩ := (hloop (σ.argv.length + 1)).back hc h'
      obtain ⟨hcs, hcl, rfl, hus⟩ := (collect_pairScan_iff hsl).mp hcollect
      have hsame : σ'.calls = a.calls := hsame
      rw [hsame] at hok hcalls
      refine ⟨a, h, ⟨hcs, hcl⟩, hok, ?_⟩
      have hus : a'.units = without [s, l] a.units := hus
      rw [← hus, ← hcalls]

end

/-! ## The `--cfg` pairs -/

/-- The call for a `KEY:VALUE`, if it is one. -/
def cfgCall (v : CStr) : Option ConfigCall :=
  (v.strchr colon).map fun pos => .insertJson5 (v.take (v.strlen - pos.strlen)) (pos.drop 1)

theorem cfgCall_isSome {v : CStr} : (cfgCall v).isSome = true ↔ colon ∈ v.bytes := by
  rw [cfgCall, Option.isSome_map, Option.isSome_iff_ne_none, ne_eq, CStr.strchr_eq_none, not_not]

/-- The calls of `parse_zenoh_json_list_cfg` for the values. -/
def cfgRel (api : ConfigApi) (n : ν) (a : Line ν) (vs : List CStr) (a' : Line ν) : Prop :=
  Collect (Scan n) a.units vs a'.units ∧ (∀ v ∈ vs, colon ∈ v.bytes) ∧
    api.Succeed a.calls (vs.filterMap cfgCall) ∧ a'.calls = a.calls ++ vs.filterMap cfgCall

theorem insertCfg_mirrors (api : ConfigApi) (v : CStr) : Mirrors (At (ν := ν) r) (insertCfg api v)
    (fun (a : Line ν) x a' => colon ∈ v.bytes ∧ callsRel api (cfgCall v).toList a x a') (At r) := by
  unfold insertCfg
  cases hv : v.strchr colon with
  | none =>
    refine .throw _ _ fun a x a' h => ?_
    exact CStr.strchr_eq_none.mp hv h.1
  | some pos =>
    have hcolon : colon ∈ v.bytes := by
      by_contra h
      rw [CStr.strchr_eq_none.mpr h] at hv
      cases hv
    have hcall : (cfgCall v).toList = [.insertJson5 (v.take (v.strlen - pos.strlen)) (pos.drop 1)] := by
      rw [cfgCall, hv]
      rfl
    rw [hcall]
    have hinsert := call_mirrors (ν := ν) (r := r) api
      (.insertJson5 (v.take (v.strlen - pos.strlen)) (pos.drop 1))
      (.insertCfg (pos.drop 1) (v.take (v.strlen - pos.strlen)))
      (p := zConfigInsertJson5 api (v.take (v.strlen - pos.strlen)) (pos.drop 1)) fun σ => rfl
    refine hinsert.congr (fun _ _ h => h) ?_ ?_
    · rintro σ a x a' - ⟨-, h⟩
      exact ⟨h, fun _ h => h⟩
    · rintro σ σ' a x a' - - h
      exact ⟨hcolon, h⟩

/-- `_Z_PARSE_ARG_SINGLE_OPT` with `NULL` for its default. -/
theorem parseSingle_mirrors (hn : r ≤ rank n) (hk : kind n = .value) :
    Mirrors (At r) (parseArgSingleOpt (text n) (fun v => pure (some v)) none) (scanRel n) (At r) := by
  have htakes : takesValue n = true := decide_eq_true hk
  rw [parseSingle_parseOpt, ← htakes]
  exact parseOpt_mirrors hn (by rw [hk]; decide)

/-- The loop of `parse_zenoh_json_list_cfg`, given enough rounds. -/
theorem cfgLoop_mirrors (api : ConfigApi) (hn : r ≤ rank n) (hk : kind n = .value) (k : Nat) :
    Mirrors (At r) (cfgLoop api (text n) k)
      (fun a _ a' => ∃ vs : List CStr, vs.length < k ∧ cfgRel api n a vs a') (At r) := by
  induction k with
  | zero => exact .throw _ _ fun a x a' ⟨vs, h, _⟩ => Nat.not_lt_zero _ h
  | succ k ih =>
    refine ((parseSingle_mirrors hn hk).bind (Q := fun y => y.elim (pureRel ()) fun v =>
      thenRel (fun a x a' => colon ∈ v.bytes ∧ callsRel api (cfgCall v).toList a x a')
        fun _ a _ a' => ∃ vs : List CStr, vs.length < k ∧ cfgRel api n a vs a') (U := At r)
      fun y => ?_).congr (fun _ _ h => h) ?_ ?_
    · cases y with
      | none => exact .pure _
      | some v => exact (insertCfg_mirrors api v).bind fun _ => ih
    · rintro σ a x a' - ⟨vs, hlen, hcollect, hcolon, hok, hcalls⟩
      refine ⟨?_, fun _ h => h⟩
      cases hcollect with
      | stop h =>
        refine ⟨none, a', ⟨h, ?_⟩, rfl, rfl⟩
        rw [hcalls]
        exact List.append_nil _
      | @more _ us₁ _ v vs h hrest =>
        obtain ⟨c, hc⟩ := Option.isSome_iff_exists.mp (cfgCall_isSome.mpr (hcolon v List.mem_cons_self))
        rw [List.filterMap_cons_some hc] at hok hcalls
        refine ⟨some v, ⟨us₁, a.calls⟩, ⟨h, rfl⟩, (), ⟨us₁, a.calls ++ [c]⟩, ⟨hcolon v List.mem_cons_self, ?_⟩,
          vs, Nat.lt_of_succ_lt_succ hlen, hrest, fun w hw => hcolon w (List.mem_cons_of_mem _ hw), hok.2, ?_⟩
        · rw [hc]
          exact ⟨⟨hok.1, trivial⟩, rfl⟩
        · rw [hcalls, List.append_assoc, List.singleton_append]
    · rintro σ σ' a x a' - - ⟨y, a₁, ⟨h, hcalls⟩, hrest⟩
      cases y with
      | none =>
        obtain ⟨-, rfl⟩ := hrest
        exact ⟨[], Nat.succ_pos _, .stop h, by simp, trivial, by simpa using hcalls⟩
      | some v =>
        obtain ⟨-, a₂, ⟨hv, hok, rfl⟩, vs, hlen, hcollect, hcolon, hok', hcalls'⟩ := hrest
        obtain ⟨c, hc⟩ := Option.isSome_iff_exists.mp (cfgCall_isSome.mpr hv)
        rw [hc] at hok hok' hcalls'
        rw [hcalls] at hok hok' hcalls'
        refine ⟨v :: vs, Nat.succ_lt_succ hlen, .more h hcollect, List.forall_mem_cons.mpr ⟨hv, hcolon⟩, ?_, ?_⟩
        · rw [List.filterMap_cons_some hc]
          exact ⟨hok.1, hok'⟩
        · rw [hcalls', List.filterMap_cons_some hc]
          simp

section

variable [DecidableEq ν]

/-- The `--cfg` pairs, and the calls for them. -/
def pairsRel (api : ConfigApi) (n : ν) (a : Line ν) (_ : Unit) (a' : Line ν) : Prop :=
  Clear n (without [n] a.units) ∧ (∀ v ∈ valuesOf n a.units, colon ∈ v.bytes) ∧
    api.Succeed a.calls ((valuesOf n a.units).filterMap cfgCall) ∧
    a' = ⟨without [n] a.units, a.calls ++ (valuesOf n a.units).filterMap cfgCall⟩

theorem parseZenohJsonListCfg_mirrors (api : ConfigApi) (hn : rank n = r) (hk : kind n = .value) :
    Mirrors (At r) (parseZenohJsonListCfg api (text n)) (pairsRel api n) (At (r + 1)) := by
  have hloop := fun k => cfgLoop_mirrors (n := n) (r := r) api (by omega) hk k
  constructor
  · rintro σ a a' x h ⟨hc, hcolon, hok, rfl⟩
    have hcollect := collect_scan_iff.mpr ⟨hc, rfl, rfl⟩
    have hlen : (valuesOf n a.units).length < σ.argv.length + 1 :=
      Nat.lt_succ_of_le ((hcollect.length_le fun _ _ _ h => h.length).trans h.length_le)
    have hrel : cfgRel api n a (valuesOf n a.units) ⟨without [n] a.units,
        a.calls ++ (valuesOf n a.units).filterMap cfgCall⟩ := ⟨hcollect, hcolon, hok, rfl⟩
    obtain ⟨σ', hrun, h'⟩ := (hloop (σ.argv.length + 1)).run (x := ()) h ⟨_, hlen, hrel⟩
    exact ⟨σ', (bind_of_ok rfl).trans hrun,
      (At.without_one hn).mpr ⟨h', fun u hu => (mem_without.mp hu).2⟩⟩
  · intro σ σ' a' x hrun h'
    obtain ⟨h', hnot⟩ := (At.without_one hn).mp h'
    obtain ⟨argc, σ₁, e, hrun⟩ := bind_ok_iff.mp hrun
    cases e
    obtain ⟨a, h, vs, -, hcollect, hcolon, hok, hcalls⟩ := (hloop _).back hrun h'
    obtain ⟨hc, rfl, hus⟩ := collect_scan_iff.mp hcollect
    refine ⟨a, h, hc, hcolon, hok, ?_⟩
    rw [← hus, ← hcalls]

/-- `--no-multicast-scouting`, and the call for it. -/
def scoutingRel (api : ConfigApi) (n : ν) (a : Line ν) (_ : Unit) (a' : Line ν) : Prop :=
  (Once [n] a.units ∧ Clear n (ahead n a.units)) ∧
    api.Succeed a.calls (scoutingCalls (given [n] a.units)) ∧
    a' = ⟨without [n] a.units, a.calls ++ scoutingCalls (given [n] a.units)⟩

theorem parseNoMulticastScouting_mirrors (api : ConfigApi) (hn : rank n = r) (hk : kind n = .flag)
    (ht : text n = lit "no-multicast-scouting") :
    Mirrors (At r) (parseNoMulticastScouting api) (scoutingRel api n) (At (r + 1)) := by
  have hflag := checkFlag_mirrors hn hk
  rw [ht] at hflag
  have hcall := call_mirrors (ν := ν) (r := r + 1) api
    (.insertJson5 (lit "scouting/multicast/enabled") (lit "false")) .multicastScouting
    (p := zConfigInsertJson5 api (lit "scouting/multicast/enabled") (lit "false")) fun σ => rfl
  refine (hflag.bind (Q := fun y => cond y
    (callsRel api [.insertJson5 (lit "scouting/multicast/enabled") (lit "false")]) (pureRel ()))
    (U := At (r + 1)) fun y => ?_).congr (fun _ _ h => h) ?_ ?_
  · cases y with
    | false => exact .pure _
    | true => exact hcall
  · rintro σ a x a' - ⟨h, hok, rfl⟩
    refine ⟨⟨_, _, ⟨h, rfl, rfl⟩, ?_⟩, fun _ h => h⟩
    cases hgiven : given [n] a.units with
    | none => exact ⟨rfl, by simp [scoutingCalls]⟩
    | some v => rw [hgiven] at hok; exact ⟨hok, rfl⟩
  · rintro σ σ' a x a' - - ⟨y, a₁, ⟨h, rfl, rfl⟩, hrest⟩
    refine ⟨h, ?_⟩
    cases hgiven : given [n] a.units with
    | none =>
      rw [hgiven] at hrest
      obtain ⟨-, rfl⟩ := hrest
      exact ⟨trivial, by simp [scoutingCalls]⟩
    | some v =>
      rw [hgiven] at hrest
      obtain ⟨hok, rfl⟩ := hrest
      exact ⟨hok, rfl⟩

end

/-! ## The end of the command line -/

/-- The process at the end of `parse_args`. -/
structure Done (σ : Proc) (a : Line ν) : Prop where
  calls : σ.calls = a.calls
  units : a.units = []

/-- The sweeps at the end return where nothing is left in `argv`. -/
theorem checkNothingLeft_empty {σ σ' : Proc} (hrun : checkNothingLeft σ = .ok () σ') :
    (σ.argv.drop 1).reduceOption = [] ∧ σ'.calls = σ.calls := by
  obtain ⟨σ₁, σ₂, e, hrun⟩ := bind_ok_iff.mp hrun
  cases e
  cases hunknown : checkUnknownOpts σ.argv with
  | some arg => rw [hunknown] at hrun; cases hrun
  | none =>
    rw [hunknown] at hrun
    obtain ⟨found, σ₁, hpos, hrun⟩ := bind_ok_iff.mp hrun
    obtain ⟨ws, -, hpos'⟩ := parsePosArgs_ok 1 σ
    rw [hpos'] at hpos
    cases hpos
    rcases hfound : (σ.argv.drop 1).reduceOption with _ | ⟨b, _ | ⟨c, bs⟩⟩
    · rw [hfound] at hrun
      cases hrun
      exact ⟨rfl, rfl⟩
    · rw [hfound] at hrun
      cases hrun
    · have hmany : posResult 1 (b :: c :: bs) = none := if_neg (by simp)
      rw [hfound, hmany] at hrun
      cases hrun

/-- The sweeps at the end return where no unit is left, and nothing else. -/
theorem checkNothingLeft_mirrors : Mirrors (At (ν := ν) r) checkNothingLeft
    (fun a _ a' => a.units = [] ∧ a' = a) Done where
  run := by
    rintro σ a a' x h ⟨hnil, rfl⟩
    have hleft : (σ.argv.drop 1).reduceOption = [] := by
      rw [List.eq_nil_iff_forall_not_mem]
      intro b hb
      obtain ⟨u, hu, -⟩ := h.tiled.mem_iff.mp (List.reduceOption_mem_iff.mp hb)
      rw [hnil] at hu
      cases hu
    obtain ⟨ws, -, hpos⟩ := parsePosArgs_ok 1 σ
    rw [hleft] at hpos
    have hunknown : checkUnknownOpts σ.argv = none := by
      rw [checkUnknownOpts, checkUnknownOptsFrom_eq, hleft]
      rfl
    refine ⟨σ.log ws, (bind_of_ok rfl).trans ?_, h.calls, hnil⟩
    simp only [hunknown]
    exact bind_of_ok hpos
  back := by
    intro σ σ' a' x hrun h
    obtain ⟨hleft, hcalls⟩ := checkNothingLeft_empty hrun
    have hslots : ∀ y ∈ σ.argv.drop 1, y = none := by
      intro y hy
      cases y with
      | none => rfl
      | some b =>
        have := List.reduceOption_mem_iff.mpr hy
        rw [hleft] at this
        cases this
    refine ⟨a', ⟨?_, hcalls.symm.trans h.calls, fun u hu => ?_⟩, h.units, rfl⟩
    · rw [h.units]
      exact .of_empty hslots
    · rw [h.units] at hu
      cases hu

end

end ZenohFlatC.Args
