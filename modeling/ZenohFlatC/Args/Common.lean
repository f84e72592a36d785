import ZenohFlatC.Args.ParseOpt

/-!
# The options common to the examples

The macros of `examples/parse_args.h` (`parseArg`, `parseArgSingleOpt`,
`checkHelp`, `checkFlag`) and `parse_zenoh_common_args`
(`parseZenohCommonArgs`), which builds the session's configuration. The
`z_config_*` functions are not in the repository: whether a call succeeds is a
parameter (`ConfigApi`) that may depend on the calls before it.

The loops over a repeated option are given a number of rounds, one more than
`argc`; a loop that used them up would exit with `Exit.rounds`. The `size_t`
sums for the buffers are natural numbers.
-/

namespace ZenohFlatC.Args

open CStr (lit)

/-- `':'` -/
def colon : UInt8 := ':'.toUInt8

/-- Whether a call on the configuration succeeds, after the calls made before. -/
structure ConfigApi where
  fromFile : List ConfigCall → CStr → Bool
  insertJson5 : List ConfigCall → CStr → CStr → Bool

/-- Every call succeeds. -/
def ConfigApi.alwaysOk : ConfigApi := ⟨fun _ _ => true, fun _ _ _ => true⟩

/-- The process after the call `c`. -/
def Proc.call (σ : Proc) (c : ConfigCall) : Proc := { σ with calls := σ.calls ++ [c] }

/-- `z_config_from_file`: whether it returned a configuration. -/
def zConfigFromFile (api : ConfigApi) (path : CStr) : Prog Bool := fun σ =>
  .ok (api.fromFile σ.calls path) (σ.call (.fromFile path))

/-- `z_config_default`. -/
def zConfigDefault : Prog Unit := fun σ => .ok () (σ.call .default)

/-- `z_config_insert_json5`. -/
def zConfigInsertJson5 (api : ConfigApi) (key value : CStr) : Prog Bool := fun σ =>
  .ok (api.insertJson5 σ.calls key value) (σ.call (.insertJson5 key value))

/-! ## The macros -/

/-- The `arg_val` of `_Z_PARSE_ARG`: the value of the option under its short
name or else under its long one. -/
def findArg (idShort idLong : CStr) : Prog (Option CStr) := do
  match ← parseOpt idShort true with
  | none => parseOpt idLong true
  | some v => pure (some v)

/-- `_Z_PARSE_ARG`. -/
def parseArg {α : Type} (idShort idLong : CStr) (func : CStr → Prog α) (defaultValue : α) : Prog α := do
  match ← findArg idShort idLong with
  | none => pure defaultValue
  | some v => func v

/-- `_Z_PARSE_ARG_SINGLE_OPT`. -/
def parseArgSingleOpt {α : Type} (id : CStr) (func : CStr → Prog α) (defaultValue : α) : Prog α := do
  match ← parseOpt id true with
  | none => pure defaultValue
  | some v => func v

/-- `_Z_CHECK_HELP`. -/
def checkHelp : Prog Unit := do
  match ← parseOpt (lit "h") false with
  | some _ => throw .help
  | none => match ← parseOpt (lit "help") false with
    | some _ => throw .help
    | none => pure ()

/-- `_Z_CHECK_FLAG`. -/
def checkFlag (id : CStr) : Prog Bool := do
  let r ← parseOpt id false
  pure r.isSome

/-- A string option whose default is `NULL`. -/
def parseStr (idShort idLong : CStr) : Prog (Option CStr) :=
  parseArg idShort idLong (fun v => pure (some v)) none

/-- With `NULL` for its default, `_Z_PARSE_ARG` is its scan. -/
theorem parseStr_findArg (idShort idLong : CStr) : parseStr idShort idLong = findArg idShort idLong := by
  funext σ
  cases h : findArg idShort idLong σ with
  | ok r σ' =>
    refine (bind_of_ok h).trans ?_
    cases r <;> rfl
  | error e σ' => exact bind_of_error h

/-- With `NULL` for its default, `_Z_PARSE_ARG_SINGLE_OPT` is its scan. -/
theorem parseSingle_parseOpt (id : CStr) :
    parseArgSingleOpt id (fun v => pure (some v)) none = parseOpt id true := by
  funext σ
  cases h : parseOpt id true σ with
  | ok r σ' =>
    refine (bind_of_ok h).trans ?_
    cases r <;> rfl
  | error e σ' => exact bind_of_error h

/-! ## `parse_zenoh_json_list_config` -/

/-- `σ` with more writes behind it. -/
def Proc.log (σ : Proc) (ws : List Access) : Proc := { σ with accesses := σ.accesses ++ ws }

/-- `malloc(size)` and `snprintf` into it. -/
def snprintf (size : Nat) (h : 0 < size) (out : CStr) : Prog Buffer := fun σ =>
  .ok (.snprintf size out h) (σ.log [.snprintf size out.strlen])

/-- `buf[i] = '\0'`. -/
def terminate (buf : Buffer) (i : Nat) : Prog Buffer := fun σ =>
  .ok (buf.terminate i) (σ.log [.store buf.cap i])

/-- The loop of `parse_zenoh_json_list_config`: every value, quoted and with a
comma behind it, appended to `buf`. -/
def jsonListLoop (optShort optLong : CStr) : Nat → Buffer → Prog Buffer
  | 0, _ => throw .rounds
  | n + 1, buf => do
    match ← parseStr optShort optLong with
    | none => pure buf
    | some value =>
      let lenNewbuf := buf.str.strlen + value.strlen + 4
      let newbuf ← snprintf lenNewbuf (Nat.succ_pos _) (buf.str ++ lit "'" ++ value ++ lit "',")
      jsonListLoop optShort optLong n newbuf

/-- The insertion at the end of `parse_zenoh_json_list_config`: the comma
behind the last value removed, and brackets around. -/
def insertList (api : ConfigApi) (configKey : CStr) (buf : Buffer) : Prog Unit :=
  let buflen := buf.str.strlen
  if 0 < buflen then do
    let buf ← terminate buf (buflen - 1)
    let buflen := buflen - 1
    let jsonListLen := buflen + 3
    let jsonList ← snprintf jsonListLen (Nat.succ_pos _) (lit "[" ++ buf.str ++ lit "]")
    match ← zConfigInsertJson5 api configKey jsonList.str with
    | true => pure ()
    | false => throw (.insertList jsonList.str configKey)
  else pure ()

/-- `parse_zenoh_json_list_config`. -/
def parseZenohJsonListConfig (api : ConfigApi) (optShort optLong configKey : CStr) : Prog Unit := do
  let argc := (← get).argv.length
  let buf ← jsonListLoop optShort optLong (argc + 1) .calloc1
  insertList api configKey buf

/-! ## `parse_zenoh_json_list_cfg` -/

/-- One `KEY:VALUE`, cut at its first `:` and inserted. -/
def insertCfg (api : ConfigApi) (value : CStr) : Prog Unit :=
  match value.strchr colon with
  | none => throw (.cfgWithoutColon value)
  | some pos => do
    let key := value.take (value.strlen - pos.strlen)
    let val := pos.drop 1
    match ← zConfigInsertJson5 api key val with
    | true => pure ()
    | false => throw (.insertCfg val key)

/-- The loop of `parse_zenoh_json_list_cfg`. -/
def cfgLoop (api : ConfigApi) (optLong : CStr) : Nat → Prog Unit
  | 0 => throw .rounds
  | n + 1 => do
    match ← parseArgSingleOpt optLong (fun v => pure (some v)) none with
    | none => pure ()
    | some value =>
      insertCfg api value
      cfgLoop api optLong n

/-- `parse_zenoh_json_list_cfg`. -/
def parseZenohJsonListCfg (api : ConfigApi) (optLong : CStr) : Prog Unit := do
  let argc := (← get).argv.length
  cfgLoop api optLong (argc + 1)

/-! ## `parse_zenoh_common_args` -/

/-- The configuration the session starts from: `-c`, or the default one. -/
def parseConfigFile (api : ConfigApi) : Prog Unit := do
  match ← parseStr (lit "c") (lit "config") with
  | some configFile =>
    match ← zConfigFromFile api configFile with
    | true => pure ()
    | false => throw (.configFile configFile)
  | none => zConfigDefault

/-- The session's mode: `-m`. -/
def parseMode (api : ConfigApi) : Prog Unit := do
  match ← parseStr (lit "m") (lit "mode") with
  | none => pure ()
  | some mode =>
    let buflen := mode.strlen + 3
    let buf ← snprintf buflen (Nat.succ_pos _) (lit "'" ++ mode ++ lit "'")
    match ← zConfigInsertJson5 api (lit "mode") buf.str with
    | true => pure ()
    | false => throw (.insertMode mode)

/-- `--no-multicast-scouting`. -/
def parseNoMulticastScouting (api : ConfigApi) : Prog Unit := do
  match ← checkFlag (lit "no-multicast-scouting") with
  | false => pure ()
  | true =>
    match ← zConfigInsertJson5 api (lit "scouting/multicast/enabled") (lit "false") with
    | true => pure ()
    | false => throw .multicastScouting

/-- `parse_zenoh_common_args`. -/
def parseZenohCommonArgs (api : ConfigApi) : Prog Unit := do
  parseConfigFile api
  parseMode api
  parseZenohJsonListConfig api (lit "e") (lit "connect") (lit "connect/endpoints")
  parseZenohJsonListConfig api (lit "l") (lit "listen") (lit "listen/endpoints")
  parseZenohJsonListCfg api (lit "cfg")
  parseNoMulticastScouting api

/-- The end of every `parse_args`: no option and no positional argument may
be left. -/
def checkNothingLeft : Prog Unit := do
  match checkUnknownOpts (← get).argv with
  | some arg => throw (.unknownOption arg)
  | none => match ← parsePosArgs 1 with
    | none => throw .positional
    | some posArgs => match posArgs.head? with
      | some (some _) => throw .positional
      | _ => pure ()

end ZenohFlatC.Args
