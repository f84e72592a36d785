import ZenohFlatC.Args.Examples
import ZenohFlatC.Framework.FailStop

/-!
# A configuration call that fails ends the program

Every `parse_args` exits at the first call on the configuration that fails,
with the exit that names the call (`failStop_examples`): no later call is made,
so that no session is opened with a part of its settings.
-/

namespace ZenohFlatC.Args

open CStr (lit)

/-- The exit says that the call failed. -/
def Exit.Reports : Exit → ConfigCall → Prop
  | .configFile path, c => c = .fromFile path
  | .insertMode mode, c => c = .insertJson5 (lit "mode") (quoted mode)
  | .insertList value key, c | .insertCfg value key, c => c = .insertJson5 key value
  | .multicastScouting, c => c = .insertJson5 (lit "scouting/multicast/enabled") (lit "false")
  | _, _ => False

/-- The calls on the configuration, which answers as `api` says. -/
def calling (api : ConfigApi) : Calling Exit Proc ConfigCall where
  calls := Proc.calls
  Succeed := api.Succeed
  Fails done c := api.succeeds done c = false
  Reports := Exit.Reports
  succeed_nil _ := trivial
  succeed_append _ _ _ h k := ConfigApi.succeed_append.mpr ⟨h, k⟩

/-- A program of which every call may fail. -/
abbrev StopsAtFailure {α : Type} (p : ConfigApi → Prog α) : Prop :=
  ∀ api, FailStop (calling api) (p api) (p .alwaysOk)

section

variable {α β : Type} {api : ConfigApi} {p : Prog α}

theorem OnArgv.failStop (h : OnArgv p) : FailStop (calling api) p p := .silent fun σ => (h.keeps σ).1

theorem snprintf_failStop (size : Nat) (h : 0 < size) (out : CStr) :
    FailStop (calling api) (snprintf size h out) (snprintf size h out) := .silent fun _ => rfl

theorem parseArg_failStop {idShort idLong : CStr} {func : CStr → Prog α} {d : α}
    (h : ∀ v, FailStop (calling api) (func v) (func v)) :
    FailStop (calling api) (parseArg idShort idLong func d) (parseArg idShort idLong func d) := by
  refine (findArg_onArgv _ _).failStop.bind fun r => ?_
  cases r with
  | none => exact .pure d
  | some v => exact h v

/-- A call, and an exit that reports it. -/
theorem call_failStop (c : ConfigCall) {e : Exit} {x y : Prog Bool}
    (hx : ∀ σ, x σ = .ok (api.succeeds σ.calls c) (σ.call c)) (hy : ∀ σ, y σ = .ok true (σ.call c))
    (h : e.Reports c) : FailStop (calling api) (x >>= fun | true => pure () | false => throw e)
      (y >>= fun | true => pure () | false => throw e) :=
  .call c e (fun σ => api.succeeds σ.calls c) (fun σ => σ.call c) hx hy (fun _ => rfl)
    (fun _ hok => ⟨hok, trivial⟩) (fun _ => id) h

end

/-! ## `parse_zenoh_common_args` -/

theorem parseConfigFile_failStop : StopsAtFailure parseConfigFile := by
  intro api
  refine (parseStr_onArgv _ _).failStop.bind fun r => ?_
  cases r with
  | none => exact fun σ => .inl ⟨rfl, [.default], rfl, rfl, trivial⟩
  | some path =>
    exact call_failStop (.fromFile path) (fun _ => rfl) (fun _ => rfl) rfl

theorem parseMode_failStop : StopsAtFailure parseMode := by
  intro api
  refine (parseStr_onArgv _ _).failStop.bind fun r => ?_
  cases r with
  | none => exact .pure ()
  | some mode =>
    -- the exit names the mode, and the call has it in quotes
    have hbuf : ∀ (σ : Proc) (buf : Buffer) (σ' : Proc), snprintf (mode.strlen + 3) (Nat.succ_pos _)
        (lit "'" ++ mode ++ lit "'") σ = .ok buf σ' → buf.str = quoted mode := by
      intro σ buf σ' h
      cases h
      refine Buffer.snprintf_str ?_
      rw [CStr.strlen_append, CStr.strlen_append]
      show 1 + mode.strlen + 1 < _
      omega
    refine (snprintf_failStop _ _ _).bind_of hbuf fun buf hbuf => ?_
    exact call_failStop (.insertJson5 (lit "mode") buf.str) (fun _ => rfl) (fun _ => rfl)
      (congrArg (ConfigCall.insertJson5 (lit "mode")) hbuf)

theorem jsonListLoop_failStop (api : ConfigApi) (optShort optLong : CStr) (n : Nat) (buf : Buffer) :
    FailStop (calling api) (jsonListLoop optShort optLong n buf) (jsonListLoop optShort optLong n buf) := by
  induction n generalizing buf with
  | zero => exact .throw _
  | succ n ih =>
    refine (parseStr_onArgv _ _).failStop.bind fun r => ?_
    cases r with
    | none => exact .pure buf
    | some v => exact (snprintf_failStop _ _ _).bind fun newbuf => ih newbuf

theorem insertList_failStop (configKey : CStr) (buf : Buffer) :
    StopsAtFailure fun api => insertList api configKey buf := by
  intro api
  unfold insertList
  dsimp only
  split
  · have hterminate : ∀ i, FailStop (calling api) (terminate buf i) (terminate buf i) :=
      fun i => .silent fun _ => rfl
    exact (hterminate _).bind fun buf => (snprintf_failStop _ _ _).bind fun jsonList =>
      call_failStop (.insertJson5 configKey jsonList.str) (fun _ => rfl) (fun _ => rfl) rfl
  · exact .pure ()

theorem parseZenohJsonListConfig_failStop (optShort optLong configKey : CStr) :
    StopsAtFailure fun api => parseZenohJsonListConfig api optShort optLong configKey := by
  intro api
  have hget : FailStop (calling api) (get : Prog Proc) get := .silent fun _ => rfl
  exact hget.bind fun σ => (jsonListLoop_failStop api _ _ _ _).bind fun buf => insertList_failStop configKey buf api

theorem insertCfg_failStop (value : CStr) : StopsAtFailure fun api => insertCfg api value := by
  intro api
  dsimp only
  unfold insertCfg
  cases value.strchr colon with
  | none => exact .throw _
  | some pos => exact call_failStop (.insertJson5 _ _) (fun _ => rfl) (fun _ => rfl) rfl

theorem cfgLoop_failStop (optLong : CStr) (n : Nat) : StopsAtFailure fun api => cfgLoop api optLong n := by
  intro api
  induction n with
  | zero => exact .throw _
  | succ n ih =>
    have hscan : FailStop (calling api) (parseArgSingleOpt optLong (fun v => pure (some v)) none)
        (parseArgSingleOpt optLong (fun v => pure (some v)) none) := by
      rw [parseSingle_parseOpt]
      exact (parseOpt_onArgv _ _).failStop
    refine hscan.bind fun r => ?_
    cases r with
    | none => exact .pure ()
    | some value => exact (insertCfg_failStop value api).bind fun _ => ih

theorem parseNoMulticastScouting_failStop : StopsAtFailure parseNoMulticastScouting := by
  intro api
  have hflag : FailStop (calling api) (checkFlag (lit "no-multicast-scouting"))
      (checkFlag (lit "no-multicast-scouting")) := (parseOpt_onArgv _ _).failStop.bind fun _ => .pure _
  refine hflag.bind fun r => ?_
  cases r with
  | false => exact .pure ()
  | true => exact call_failStop (.insertJson5 _ _) (fun _ => rfl) (fun _ => rfl) rfl

theorem parseZenohCommonArgs_failStop : StopsAtFailure parseZenohCommonArgs := by
  intro api
  have hcfg : FailStop (calling api) (parseZenohJsonListCfg api (lit "cfg"))
      (parseZenohJsonListCfg .alwaysOk (lit "cfg")) := by
    have hget : FailStop (calling api) (get : Prog Proc) get := .silent fun _ => rfl
    exact hget.bind fun σ => cfgLoop_failStop _ _ api
  exact (parseConfigFile_failStop api).bind fun _ => (parseMode_failStop api).bind fun _ =>
    (parseZenohJsonListConfig_failStop _ _ _ api).bind fun _ =>
    (parseZenohJsonListConfig_failStop _ _ _ api).bind fun _ => hcfg.bind fun _ =>
    parseNoMulticastScouting_failStop api

/-! ## The programs -/

section

variable {api : ConfigApi}

theorem checkHelp_failStop : FailStop (calling api) checkHelp checkHelp := by
  refine (parseOpt_onArgv _ _).failStop.bind fun r => ?_
  cases r with
  | some _ => exact .throw _
  | none =>
    refine (parseOpt_onArgv _ _).failStop.bind fun r => ?_
    cases r with
    | some _ => exact .throw _
    | none => exact .pure ()

theorem checkFlag_failStop (id : CStr) : FailStop (calling api) (checkFlag id) (checkFlag id) :=
  (parseOpt_onArgv _ _).failStop.bind fun _ => .pure _

theorem parseText_failStop (idShort idLong d : CStr) :
    FailStop (calling api) (parseArg idShort idLong pure d) (parseArg idShort idLong pure d) :=
  parseArg_failStop fun v => .pure v

theorem parsePosArgsFrom_failStop (nbArgs : Nat) (slots posArgv : List Slot) (posArgc : Nat) :
    FailStop (calling api) (parsePosArgsFrom nbArgs slots posArgv posArgc)
      (parsePosArgsFrom nbArgs slots posArgv posArgc) := by
  induction slots generalizing posArgv posArgc with
  | nil => exact .pure _
  | cons slot slots ih =>
    cases slot with
    | none => exact ih posArgv posArgc
    | some a =>
      unfold parsePosArgsFrom
      dsimp only
      split
      · exact .pure none
      · exact (FailStop.silent fun _ => rfl).bind fun _ => ih _ _

theorem parsePosArgs_failStop (nbArgs : Nat) :
    FailStop (calling api) (parsePosArgs nbArgs) (parsePosArgs nbArgs) :=
  (FailStop.silent (p := get) fun _ => rfl).bind fun _ => parsePosArgsFrom_failStop nbArgs _ _ 0

theorem checkNothingLeft_failStop : FailStop (calling api) checkNothingLeft checkNothingLeft := by
  refine (FailStop.silent (p := get) fun _ => rfl).bind fun σ => ?_
  cases checkUnknownOpts σ.argv with
  | some arg => exact .throw _
  | none =>
    refine (parsePosArgs_failStop 1).bind fun r => ?_
    cases r with
    | none => exact .throw _
    | some posArgs =>
      dsimp only
      split
      · exact .throw _
      · exact .pure ()

theorem parsePositional_failStop : FailStop (calling api) PubThr.parsePositional PubThr.parsePositional := by
  refine (FailStop.silent (p := get) fun _ => rfl).bind fun σ => ?_
  cases checkUnknownOpts σ.argv with
  | some arg => exact .throw _
  | none =>
    refine (parsePosArgs_failStop 1).bind fun r => ?_
    cases r with
    | none => exact .throw _
    | some posArgs =>
      dsimp only
      split
      · exact .pure _
      · exact .throw _

/-- The end of every `parse_args` without positional arguments. -/
theorem common_failStop {α : Type} (x : α) :
    FailStop (calling api) (do parseZenohCommonArgs api; checkNothingLeft; pure x)
      (do parseZenohCommonArgs .alwaysOk; checkNothingLeft; pure x) :=
  (parseZenohCommonArgs_failStop api).bind fun _ => checkNothingLeft_failStop.bind fun _ => .pure x

end

/-- Whatever the command line is and whatever the configuration answers, a
program's `parse_args` is the one for which every call succeeds, up to the
first call that fails: there it exits, and names the call. -/
theorem failStop_examples :
    StopsAtFailure Put.parseArgs ∧ StopsAtFailure Delete.parseArgs ∧ StopsAtFailure Pub.parseArgs ∧
      StopsAtFailure Sub.parseArgs ∧ StopsAtFailure Queryable.parseArgs ∧ StopsAtFailure Info.parseArgs ∧
      StopsAtFailure Get.parseArgs ∧ StopsAtFailure SubThr.parseArgs ∧ StopsAtFailure PubThr.parseArgs := by
  refine ⟨fun api => ?_, fun api => ?_, fun api => ?_, fun api => ?_, fun api => ?_, fun api => ?_,
    fun api => ?_, fun api => ?_, fun api => ?_⟩
  · exact checkHelp_failStop.bind fun _ => (parseText_failStop _ _ _).bind fun keyexpr =>
      (parseText_failStop _ _ _).bind fun value => common_failStop _
  · exact checkHelp_failStop.bind fun _ => (parseText_failStop _ _ _).bind fun keyexpr => common_failStop _
  · exact checkHelp_failStop.bind fun _ => (parseText_failStop _ _ _).bind fun keyexpr =>
      (parseText_failStop _ _ _).bind fun value => (parseStr_onArgv _ _).failStop.bind fun attachment =>
      (checkFlag_failStop _).bind fun flag => common_failStop _
  · exact checkHelp_failStop.bind fun _ => (parseText_failStop _ _ _).bind fun keyexpr => common_failStop _
  · exact checkHelp_failStop.bind fun _ => (parseText_failStop _ _ _).bind fun keyexpr =>
      (parseText_failStop _ _ _).bind fun value => (checkFlag_failStop _).bind fun complete => common_failStop _
  · exact checkHelp_failStop.bind fun _ => (parseZenohCommonArgs_failStop api).bind fun _ =>
      checkNothingLeft_failStop
  · have htarget : ∀ v, FailStop (calling api) (Get.parseQueryTarget v) (Get.parseQueryTarget v) := fun v => by
      unfold Get.parseQueryTarget
      split_ifs
      · exact .pure _
      · exact .pure _
      · exact .pure _
      · exact .throw _
    exact checkHelp_failStop.bind fun _ => (parseText_failStop _ _ _).bind fun selector =>
      (parseStr_onArgv _ _).failStop.bind fun value => (parseArg_failStop fun v => .pure _).bind fun timeoutMs =>
      (parseArg_failStop htarget).bind fun target => common_failStop _
  · exact checkHelp_failStop.bind fun _ => (parseArg_failStop fun v => .pure _).bind fun samples =>
      (parseArg_failStop fun v => .pure _).bind fun numMessages => common_failStop _
  · have hpriority : ∀ v, FailStop (calling api) (PubThr.parsePriority v) (PubThr.parsePriority v) := fun v => by
      unfold PubThr.parsePriority
      dsimp only
      split
      · exact .throw _
      · exact .pure _
    exact checkHelp_failStop.bind fun _ => (parseArg_failStop hpriority).bind fun priority =>
      (checkFlag_failStop _).bind fun express => (parseZenohCommonArgs_failStop api).bind fun _ =>
      parsePositional_failStop.bind fun arg => .pure _

end ZenohFlatC.Args
