import ZenohFlatC.Args.Render
import ZenohFlatC.Handles.Api

/-!
# The calls of `parse_args`

What `parse_args` calls of the library and of the allocator, for the options
that its scans find (`Args.SessionOptions`): it makes the session's
configuration, and exits if a call on it fails. The scans themselves call
neither. All blocks are freed but one: `buf` of `parse_zenoh_json_list_cfg`,
which the function allocates and does not use (`parseArgs_owned`).
-/

namespace ZenohFlatC.Handles

open CStr (lit)
open Args (SessionOptions CfgPair elements quoted jsonListText)

/-- A step that exits if it fails, and the next one. -/
def andThen (p q : Code Bool) : Code Bool := do
  match ← p with
  | false => pure false
  | true => q

namespace ParseArgs

variable (z : Zenoh)

/-- The configuration that the session starts from; `none` if there is none. -/
def configFile : Option CStr → Code (Option Handle)
  | some path => do
    match ← pointer z (.configFromFile path) with
    | none =>
      print (lit "Couldn't read configuration from file `" ++ path ++ lit "`\n")
      pure none
    | some config => pure (some config)
  | none => do
    let config ← handle z .configDefault
    pure (some config)

/-- `-m`. -/
def insertMode (config : Handle) : Option CStr → Code Bool
  | none => pure true
  | some mode => do
    let buf ← handle z (.malloc .modeBuf (mode.strlen + 3))
    let _ ← perform z (.access [buf])
    let ok ← succeeds z (.configInsertJson5 config (lit "mode") (lit "'" ++ mode ++ lit "'") (some buf))
    printUnless ok (lit "Couldn't insert value `" ++ mode ++
      lit "` at `mode`. Value must be one of: 'client', 'peer' or 'router'\n")
    let _ ← perform z (.free buf)
    pure ok

/-- The loop of `parse_zenoh_json_list_config`, where `buf` holds `text`. -/
def listLoop : List CStr → CStr → Handle → Code Handle
  | [], _, buf => pure buf
  | value :: values, text, buf => do
    let newbuf ← handle z (.malloc .listBuf (text.strlen + value.strlen + 4))
    let _ ← perform z (.access [newbuf, buf])
    let _ ← perform z (.free buf)
    listLoop values (text ++ (quoted value ++ lit ",")) newbuf

/-- The line that is printed where a value cannot be inserted. -/
def notInserted (value key : CStr) : CStr :=
  lit "Couldn't insert value `" ++ value ++ lit "` in configuration at `" ++ key ++ lit "`\n"

/-- `parse_zenoh_json_list_config`, which collects `values`. -/
def parseZenohJsonListConfig (config : Handle) (configKey : CStr) (values : List CStr) : Code Bool := do
  let buf ← handle z (.calloc .listBuf 1)
  let buf ← listLoop z values (lit "") buf
  let _ ← perform z (.access [buf])
  match values with
  | [] =>
    let _ ← perform z (.free buf)
    pure true
  | _ :: _ =>
    let jsonList ← handle z (.malloc .jsonList ((elements values).strlen - 1 + 3))
    let _ ← perform z (.access [jsonList, buf])
    match ← succeeds z (.configInsertJson5 config configKey (jsonListText values) (some jsonList)) with
    | false =>
      let _ ← perform z (.access [jsonList])
      print (notInserted (jsonListText values) configKey)
      let _ ← perform z (.free jsonList)
      pure false
    | true =>
      let _ ← perform z (.free jsonList)
      let _ ← perform z (.free buf)
      pure true

/-- The insertion of a value that is in no block, with the line that is printed
where it fails. -/
def insertValue (config : Handle) (key value line : CStr) : Code Bool := do
  let ok ← succeeds z (.configInsertJson5 config key value none)
  printUnless ok line
  pure ok

/-- The loop of `parse_zenoh_json_list_cfg`. -/
def insertCfgs (config : Handle) : List CfgPair → Code Bool
  | [] => pure true
  | p :: ps => andThen (insertValue z config p.key p.value (notInserted p.value p.key)) (insertCfgs config ps)

/-- `parse_zenoh_json_list_cfg`. -/
def parseZenohJsonListCfg (config : Handle) (cfg : List CfgPair) : Code Bool := do
  let _ ← handle z (.calloc .cfgBuf 1)
  insertCfgs z config cfg

/-- `--no-multicast-scouting`. -/
def insertScouting (config : Handle) : Bool → Code Bool
  | false => pure true
  | true => insertValue z config (lit "scouting/multicast/enabled") (lit "false")
    (lit "Couldn't disable multicast-scouting.\n")

/-- `parse_zenoh_common_args`, behind the choice of the configuration. -/
def insertOptions (options : SessionOptions) (config : Handle) : Code Bool :=
  andThen (insertMode z config options.mode) <|
  andThen (parseZenohJsonListConfig z config (lit "connect/endpoints") options.connect) <|
  andThen (parseZenohJsonListConfig z config (lit "listen/endpoints") options.listen) <|
  andThen (parseZenohJsonListCfg z config options.cfg) (insertScouting z config options.noMulticastScouting)

/-- `parse_pos_args`, and what follows it. -/
def parsePosArgs : Code Unit := do
  let posArgv ← handle z (.calloc .posArgv 8)
  let _ ← perform z (.access [posArgv])
  let _ ← perform z (.free posArgv)

/-- `parse_args`, behind the choice of the configuration. -/
def parseBehind (options : SessionOptions) (config : Handle) : Code (Option Handle) := do
  match ← insertOptions z options config with
  | false => pure none
  | true =>
    parsePosArgs z
    pure (some config)

end ParseArgs

open ParseArgs

/-- `parse_args`, which finds `options`: the configuration, or `none` if it
exits. -/
def parseArgs (z : Zenoh) (options : SessionOptions) : Code (Option Handle) := do
  match ← configFile z options.config with
  | none => pure none
  | some config => parseBehind z options config

/-! ## What it leaves live -/

/-- A step, and the next one from what the first leaves if it succeeds. -/
theorem Owned.andThen {p q : Code Bool} {L : Multiset Handle} {R S : Multiset Handle → Prop}
    (hp : Owned L p (Passing R)) (hq : ∀ l, R l → Owned l q (Passing S)) :
    Owned L (andThen p q) (Passing S) := by
  refine hp.bind fun ok l es hl => ?_
  obtain ⟨hl, rfl⟩ := hl
  cases ok with
  | false => exact .pure .failed
  | true => exact hq l (hl rfl)

namespace ParseArgs

variable (z : Zenoh) {config : Handle} {D : Multiset Handle}

theorem insertValue_owned (hconfig : config ∈ D) (key value line : CStr) :
    Owned D (insertValue z config key value line) (Passing (· = D)) := by
  refine .succeeds D (fun ok => .printedUnless (.pure ⟨fun _ => rfl, rfl⟩)) (zero_add D).symm fun x hx => ?_
  obtain rfl : x = config := by simpa [Call.borrows] using hx
  exact hconfig

/-- The insertion of a value in a block. -/
theorem insertBlock_owned {α : Type} {f : Bool → Code α} {Q : α → Multiset Handle → List ClosureEvent → Prop}
    {block : Handle} (hconfig : config ∈ D) (key value : CStr) (h : ∀ ok, Owned (D + {block}) (f ok) Q) :
    Owned (D + {block}) (succeeds z (.configInsertJson5 config key value (some block)) >>= f) Q := by
  refine .succeeds (D + {block}) h (zero_add _).symm fun x hx => ?_
  obtain rfl | rfl : x = config ∨ x = block := by simpa [Call.borrows] using hx
  · exact Multiset.mem_add.mpr (.inl hconfig)
  · simp

theorem insertMode_owned (hconfig : config ∈ D) (mode : Option CStr) :
    Owned D (insertMode z config mode) (Passing (· = D)) := by
  cases mode with
  | none => exact .pure ⟨fun _ => rfl, rfl⟩
  | some mode =>
    refine .handle D fun buf _ => .access fun _ => insertBlock_owned z hconfig _ _ fun ok => .printedUnless ?_
    exact .perform D fun _ => .pure ⟨fun _ => rfl, rfl⟩

theorem listLoop_owned (values : List CStr) (text : CStr) (buf : Handle) (D : Multiset Handle) :
    Owned (D + {buf}) (listLoop z values text buf) fun b l es => l = D + {b} ∧ es = [] := by
  induction values generalizing text buf with
  | nil => exact .pure ⟨rfl, rfl⟩
  | cons value values ih =>
    refine .handle (D + {buf}) fun newbuf _ => .access fun _ => ?_
    exact .perform (D + {newbuf}) fun _ => ih _ newbuf

theorem parseZenohJsonListConfig_owned (hconfig : config ∈ D) (configKey : CStr) (values : List CStr) :
    Owned D (parseZenohJsonListConfig z config configKey values) (Passing (· = D)) := by
  refine .handle D fun buf _ => (listLoop_owned z values _ buf D).bind fun buf l es hl => ?_
  obtain ⟨rfl, rfl⟩ := hl
  refine .access fun _ => ?_
  cases values with
  | nil => exact .perform D fun _ => .pure ⟨fun _ => rfl, rfl⟩
  | cons value values =>
    refine .handle (D + {buf}) fun jsonList _ => .access fun _ => ?_
    refine insertBlock_owned z (Multiset.mem_add.mpr (.inl hconfig)) _ _ fun ok => ?_
    cases ok with
    | false => exact .access fun _ => .printed (.perform (D + {buf}) fun _ => .pure .failed)
    | true => exact .perform (D + {buf}) fun _ => .perform D fun _ => .pure ⟨fun _ => rfl, rfl⟩

theorem insertCfgs_owned (hconfig : config ∈ D) (cfg : List CfgPair) :
    Owned D (insertCfgs z config cfg) (Passing (· = D)) := by
  induction cfg with
  | nil => exact .pure ⟨fun _ => rfl, rfl⟩
  | cons p ps ih => exact .andThen (insertValue_owned z hconfig _ _ _) fun l hl => hl ▸ ih

theorem configFile_owned (path : Option CStr) :
    Owned 0 (configFile z path) fun r l es => es = [] ∧ ∀ config, r = some config → l = {config} := by
  have hsome : ∀ config config' : Handle,
      some config = some config' → (0 : Multiset Handle) + {config} = {config'} := by
    rintro config _ ⟨⟩
    exact zero_add _
  cases path with
  | some path =>
    refine .pointer 0 (.printed (.pure ⟨rfl, fun config h => by cases h⟩)) fun config _ => ?_
    exact .pure ⟨rfl, hsome config⟩
  | none => exact .handle 0 fun config _ => .pure ⟨rfl, hsome config⟩

/-- What `parse_zenoh_json_list_cfg` allocates stays live. -/
theorem parseZenohJsonListCfg_owned (hconfig : config ∈ D) (cfg : List CfgPair) :
    Owned D (parseZenohJsonListCfg z config cfg)
      (Passing fun l => ∃ buf : Handle, buf.kind = .block .cfgBuf ∧ l = D + {buf}) := by
  refine .handle D fun buf hbuf => ?_
  refine (insertCfgs_owned z (Multiset.mem_add.mpr (.inl hconfig)) cfg).weaken fun ok l es hl => ?_
  exact ⟨fun h => ⟨buf, hbuf, hl.1 h⟩, hl.2⟩

theorem insertScouting_owned (hconfig : config ∈ D) (noMulticastScouting : Bool) :
    Owned D (insertScouting z config noMulticastScouting) (Passing (· = D)) := by
  cases noMulticastScouting with
  | false => exact .pure ⟨fun _ => rfl, rfl⟩
  | true => exact insertValue_owned z hconfig _ _ _

theorem insertOptions_owned (options : SessionOptions) (config : Handle) :
    Owned {config} (insertOptions z options config)
      (Passing fun l => ∃ buf : Handle, buf.kind = .block .cfgBuf ∧ l = {config} + {buf}) := by
  have hconfig : config ∈ ({config} : Multiset Handle) := Multiset.mem_singleton_self config
  refine .andThen (insertMode_owned z hconfig _) fun l hl => ?_
  subst hl
  refine .andThen (parseZenohJsonListConfig_owned z hconfig _ _) fun l hl => ?_
  subst hl
  refine .andThen (parseZenohJsonListConfig_owned z hconfig _ _) fun l hl => ?_
  subst hl
  refine .andThen (parseZenohJsonListCfg_owned z hconfig _) fun l hl => ?_
  obtain ⟨buf, hbuf, rfl⟩ := hl
  refine (insertScouting_owned z (Multiset.mem_add.mpr (.inl hconfig)) _).weaken fun ok l es hl => ?_
  exact ⟨fun h => ⟨buf, hbuf, hl.1 h⟩, hl.2⟩

theorem parsePosArgs_owned (D : Multiset Handle) : Owned D (parsePosArgs z) (Leaving D) :=
  .handle D fun posArgv _ => .access fun _ => .perform D fun _ => .pure ⟨rfl, rfl⟩

/-- The configuration, and the block that is not freed. -/
def Parsed (r : Option Handle) (l : Multiset Handle) (es : List ClosureEvent) : Prop :=
  es = [] ∧ ∀ config, r = some config → ∃ buf : Handle, buf.kind = .block .cfgBuf ∧ l = {config} + {buf}

theorem Parsed.exited {l : Multiset Handle} : Parsed none l [] := ⟨rfl, fun config h => by cases h⟩

theorem parseBehind_owned (options : SessionOptions) (config : Handle) :
    Owned {config} (parseBehind z options config) Parsed := by
  refine (insertOptions_owned z options config).bind fun ok l es hl => ?_
  obtain ⟨hl, rfl⟩ := hl
  cases ok with
  | false => exact .pure .exited
  | true =>
    refine .leads (parsePosArgs_owned z l) fun _ => .pure ⟨rfl, fun config' h => ?_⟩
    obtain rfl := Option.some.inj h
    exact hl rfl

end ParseArgs

/-- Where `parse_args` does not exit, it leaves the configuration, and the block
that it does not free. -/
theorem parseArgs_owned (z : Zenoh) (options : SessionOptions) : Owned 0 (parseArgs z options) Parsed := by
  refine (configFile_owned z options.config).bind fun r l es hl => ?_
  obtain ⟨rfl, hl⟩ := hl
  cases r with
  | none => exact .pure .exited
  | some config =>
    obtain rfl := hl config rfl
    exact parseBehind_owned z options config

/-! ## Programs with `parse_args` -/

/-- What no program frees that calls `parse_args`. -/
def leaked : Multiset Kind := {.block .cfgBuf}

/-- A program whose `main` calls `parse_args`, which finds `options`, and goes on
with the configuration. -/
def Program.ofMain (options : SessionOptions) (main : Zenoh → Nat → Handle → Code Outcome) (keeps : Multiset Kind)
    (context : Bool) (owned : ∀ z n config, Owned {config} (main z n config) (Leaves 0 keeps context)) : Program where
  run z n := do
    match ← parseArgs z options with
    | none => pure .exited
    | some config => main z n config
  leaks := leaked
  keeps := keeps
  context := context
  owned z n := by
    refine (parseArgs_owned z options).bind fun r l es hl => ?_
    obtain ⟨rfl, hl⟩ := hl
    cases r with
    | none => exact .pure ⟨.inl rfl, (fun status h => by cases h), (fun h => by cases h)⟩
    | some config =>
      obtain ⟨buf, hbuf, rfl⟩ := hl config rfl
      refine (owned z n config).frame.weaken fun outcome l es hleaves => ?_
      obtain ⟨l, hleaves, rfl⟩ := hleaves
      show Leaves leaked keeps context outcome (l + {buf}) es
      have hkinds : (l + {buf} + contexts es).map Handle.kind = (l + contexts es).map Handle.kind + leaked := by
        rw [add_right_comm, Multiset.map_add, Multiset.map_singleton, hbuf]
        rfl
      refine ⟨hleaves.once, fun status h => ?_, fun h => ?_⟩
      · rw [hkinds, hleaves.returned status h, zero_add]
      · rw [hkinds, hleaves.inLoop h, zero_add, add_comm]

end ZenohFlatC.Handles
