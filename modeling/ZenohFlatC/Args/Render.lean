import ZenohFlatC.Args.Examples
import ZenohFlatC.Args.Queryable
import ZenohFlatC.Framework.Decimal

/-!
# Command lines written for given arguments

The command line of a session's settings (`SessionOptions.units`) and of a
program's own arguments, every value behind the long name of its option, as
`--name=value`. `readsBack_examples`: `parse_args` reads back what a line was
written for, whatever the values are. A number is written in decimal, and only
what an `int` is stored as can come back (`returnable_numbers_iff`).
-/

set_option linter.dupNamespace false

namespace ZenohFlatC.Args

open CStr (lit)

section

variable {ν : Type} [Options ν]

/-- A long name with a value. -/
abbrev LongValue (n : ν) : Prop := kind n = .value ∧ IsLong n

/-- `--name=v` -/
def inlineUnit (n : ν) (hn : LongValue n) (v : CStr) : OptUnit ν where
  name := n
  extra := lit ""
  arg := .inline v
  short h := absurd hn.2 h
  fits := ⟨hn.1, hn.2, List.not_mem_nil⟩

/-- `--name`, if it is set. -/
def flagUnits (n : ν) (hn : kind n = .flag) (b : Bool) : List (OptUnit ν) :=
  if b then [⟨n, lit "", .bare, fun _ => rfl, hn⟩] else []

/-- The option for each of the values. -/
def inlineUnits (n : ν) (hn : LongValue n) (vs : List CStr) : List (OptUnit ν) :=
  vs.map (inlineUnit n hn)

/-- Every unit has the name `n`, and has its value in its own token. -/
structure Written (n : ν) (us : List (OptUnit ν)) : Prop where
  name : ∀ u ∈ us, u.name = n
  inline : ∀ u ∈ us, u.sepValue = none

theorem written_inlineUnits (n : ν) (hn : LongValue n) (vs : List CStr) :
    Written n (inlineUnits n hn vs) where
  name u hu := by
    obtain ⟨v, -, rfl⟩ := List.mem_map.mp hu
    rfl
  inline u hu := by
    obtain ⟨v, -, rfl⟩ := List.mem_map.mp hu
    rfl

theorem written_flagUnits (n : ν) (hn : kind n = .flag) (b : Bool) : Written n (flagUnits n hn b) := by
  cases b with
  | false => exact ⟨fun u hu => absurd hu List.not_mem_nil, fun u hu => absurd hu List.not_mem_nil⟩
  | true => exact ⟨fun u hu => List.mem_singleton.mp hu ▸ rfl, fun u hu => List.mem_singleton.mp hu ▸ rfl⟩

variable [DecidableEq ν] {n : ν} {ns : List ν} {us vs : List (OptUnit ν)}

theorem filter_written (h : Written n us) : us.filter (named ns) = if n ∈ ns then us else [] := by
  split
  · exact List.filter_eq_self.mpr fun u hu => by simpa [h.name u hu]
  · exact List.filter_eq_nil_iff.mpr fun u hu => by simpa [h.name u hu]

@[simp] theorem filter_inlineUnits (hn : LongValue n) (vs : List CStr) :
    (inlineUnits n hn vs).filter (named ns) = if n ∈ ns then inlineUnits n hn vs else [] :=
  filter_written (written_inlineUnits n hn vs)

@[simp] theorem filter_flagUnits (hn : kind n = .flag) (b : Bool) :
    (flagUnits n hn b).filter (named ns) = if n ∈ ns then flagUnits n hn b else [] :=
  filter_written (written_flagUnits n hn b)

omit [DecidableEq ν] in
@[simp] theorem map_value_inlineUnits (hn : LongValue n) (vs : List CStr) :
    (inlineUnits n hn vs).map OptUnit.value = vs := by
  rw [inlineUnits, List.map_map]
  exact List.map_id vs

omit [DecidableEq ν] in
@[simp] theorem length_inlineUnits (hn : LongValue n) (vs : List CStr) :
    (inlineUnits n hn vs).length = vs.length := List.length_map ..

omit [DecidableEq ν] in
@[simp] theorem length_flagUnits (hn : kind n = .flag) (b : Bool) :
    (flagUnits n hn b).length = b.toNat := by
  cases b <;> rfl

omit [DecidableEq ν] in
@[simp] theorem head_flagUnits (hn : kind n = .flag) (b : Bool) :
    (flagUnits n hn b).head?.isSome = b := by
  cases b <;> rfl

theorem given_eq_head (ns : List ν) (us : List (OptUnit ν)) :
    given ns us = ((us.filter (named ns)).map OptUnit.value).head? := by
  rw [given, ← List.head?_filter, List.head?_map]

theorem once_iff_length {ns : List ν} {us : List (OptUnit ν)} :
    Once ns us ↔ (us.filter (named ns)).length ≤ 1 := by
  rw [Once, List.countP_eq_length_filter]

end

/-! ## The settings of a session -/

/-- The key and the value that `--cfg` gives. The key ends at the first colon. -/
structure CfgPair where
  key : CStr
  value : CStr
  key_colon : colon ∉ key.bytes

/-- `key:value` -/
def CfgPair.text (p : CfgPair) : CStr := p.key ++ lit ":" ++ p.value

/-- The insertion of the value. -/
def CfgPair.call (p : CfgPair) : ConfigCall := .insertJson5 p.key p.value

theorem cfgCall_text (p : CfgPair) : cfgCall p.text = some p.call := by
  have hbytes : p.text.bytes = p.key.bytes ++ colon :: p.value.bytes := by
    simp only [CfgPair.text, CStr.bytes_append, List.append_assoc]
    rfl
  have hlen : p.text.strlen - (p.text.drop p.key.strlen).strlen = p.key.strlen := by
    simp only [CStr.strlen, CStr.bytes_drop, hbytes, List.length_drop, List.length_append, List.length_cons]
    omega
  rw [cfgCall, CStr.strchr_eq_drop p.key_colon hbytes, Option.map_some, hlen, CfgPair.call]
  congr 2
  · ext1
    rw [CStr.bytes_take, hbytes, CStr.strlen, List.take_left]
  · ext1
    rw [CStr.bytes_drop, CStr.bytes_drop, hbytes, CStr.strlen, List.drop_left, List.drop_one, List.tail_cons]

/-- What the options common to the examples set. -/
structure SessionOptions where
  config : Option CStr
  mode : Option CStr
  connect : List CStr
  listen : List CStr
  cfg : List CfgPair
  noMulticastScouting : Bool

namespace SessionOptions

variable {ω : Type} [DecidableEq ω] [OwnNames ω]

theorem longValue_config : LongValue (.config : Name ω) := ⟨rfl, (by decide : 1 < (lit "config").strlen)⟩

theorem longValue_mode : LongValue (.mode : Name ω) := ⟨rfl, (by decide : 1 < (lit "mode").strlen)⟩

theorem longValue_connect : LongValue (.connect : Name ω) := ⟨rfl, (by decide : 1 < (lit "connect").strlen)⟩

theorem longValue_listen : LongValue (.listen : Name ω) := ⟨rfl, (by decide : 1 < (lit "listen").strlen)⟩

theorem longValue_cfg : LongValue (.cfg : Name ω) := ⟨rfl, (by decide : 1 < (lit "cfg").strlen)⟩

theorem kind_noMulticastScouting : kind (.noMulticastScouting : Name ω) = .flag := rfl

/-- The option units for the settings. -/
def units (s : SessionOptions) : List (OptUnit (Name ω)) :=
  inlineUnits .config longValue_config s.config.toList ++ inlineUnits .mode longValue_mode s.mode.toList ++
    inlineUnits .connect longValue_connect s.connect ++ inlineUnits .listen longValue_listen s.listen ++
    inlineUnits .cfg longValue_cfg (s.cfg.map CfgPair.text) ++
    flagUnits .noMulticastScouting kind_noMulticastScouting s.noMulticastScouting

/-- The calls that configure the session so. -/
def calls (s : SessionOptions) : List ConfigCall :=
  fileCalls s.config ++ modeCalls s.mode ++ listCalls (lit "connect/endpoints") s.connect ++
    listCalls (lit "listen/endpoints") s.listen ++ s.cfg.map CfgPair.call ++
    if s.noMulticastScouting then [.insertJson5 (lit "scouting/multicast/enabled") (lit "false")] else []

variable {us : List (OptUnit (Name ω))} {ns : List (Name ω)}

/-- The settings have no unit of a program's own. -/
theorem filter_units_own (s : SessionOptions) (h : ∀ n ∈ Name.common, n ∉ ns) :
    s.units.filter (named ns) = [] := by
  simp only [Name.common, List.forall_mem_cons] at h
  obtain ⟨-, hconfig, -, hmode, -, hconnect, -, hlisten, hcfg, hscouting, -⟩ := h
  simp [units, hconfig, hmode, hconnect, hlisten, hcfg, hscouting]

theorem sepValue_units (s : SessionOptions) : ∀ u ∈ s.units (ω := ω), u.sepValue = none := by
  simp only [units, List.forall_mem_append]
  exact ⟨⟨⟨⟨⟨(written_inlineUnits ..).inline, (written_inlineUnits ..).inline⟩,
    (written_inlineUnits ..).inline⟩, (written_inlineUnits ..).inline⟩,
    (written_inlineUnits ..).inline⟩, (written_flagUnits ..).inline⟩

/-- Units of a program's own in front of the settings have none of the common
options. -/
theorem filter_behind (s : SessionOptions) (ns : List (Name ω)) (hown : ∀ u ∈ us, u.name ∉ Name.common)
    (h : ∀ n ∈ ns, n ∈ Name.common) : (us ++ s.units).filter (named ns) = s.units.filter (named ns) := by
  have hnone : us.filter (named ns) = [] :=
    List.filter_eq_nil_iff.mpr fun u hu hn => hown u hu (h _ (by simpa using hn))
  rw [List.filter_append, hnone, List.nil_append]

theorem colon_mem_text (p : CfgPair) : colon ∈ p.text.bytes := by
  simp only [CfgPair.text, CStr.bytes_append, List.mem_append]
  exact .inl (.inr (by decide))

/-- The steps for the common options accept the settings, behind units of the
program's own. -/
theorem fits_common (s : SessionOptions) (hown : ∀ u ∈ us, u.name ∉ Name.common) :
    ∀ t ∈ commonSteps, t.Fits (us ++ s.units) := by
  simp only [commonSteps, List.forall_mem_cons, ScanStep.Fits, once_iff_length, valuesOf]
  rw [s.filter_behind [.c, .config] hown (by simp [Name.common]),
    s.filter_behind [.m, .mode] hown (by simp [Name.common]),
    s.filter_behind [.cfg] hown (by simp [Name.common]),
    s.filter_behind [.noMulticastScouting] hown (by simp [Name.common])]
  refine ⟨?_, ?_, trivial, trivial, ?_, ?_, List.forall_mem_nil _⟩
  · cases hc : s.config <;> simp [units, hc]
  · cases hm : s.mode <;> simp [units, hm]
  · intro v hv
    obtain ⟨p, -, rfl⟩ : ∃ p ∈ s.cfg, p.text = v := by simpa [units] using hv
    exact colon_mem_text p
  · cases hn : s.noMulticastScouting <;> simp [units, flagUnits, hn]

theorem commonCalls_units (s : SessionOptions) (hown : ∀ u ∈ us, u.name ∉ Name.common) :
    commonCalls (us ++ s.units) = s.calls := by
  have hscouting : scoutingCalls ((s.units (ω := ω)).filter (named [.noMulticastScouting]) |>.map
      OptUnit.value).head? =
      if s.noMulticastScouting then [.insertJson5 (lit "scouting/multicast/enabled") (lit "false")] else [] := by
    cases hn : s.noMulticastScouting <;> simp [units, flagUnits, hn, scoutingCalls]
  simp only [commonCalls, given_eq_head, valuesOf]
  rw [s.filter_behind [.c, .config] hown (by simp [Name.common]),
    s.filter_behind [.m, .mode] hown (by simp [Name.common]),
    s.filter_behind [.e] hown (by simp [Name.common]), s.filter_behind [.connect] hown (by simp [Name.common]),
    s.filter_behind [.l] hown (by simp [Name.common]), s.filter_behind [.listen] hown (by simp [Name.common]),
    s.filter_behind [.cfg] hown (by simp [Name.common]),
    s.filter_behind [.noMulticastScouting] hown (by simp [Name.common]), hscouting]
  simp [units, calls, cfgCall_text]

/-- A value with a colon is the text of a pair. -/
theorem exists_pair {v : CStr} (h : colon ∈ v.bytes) : ∃ p : CfgPair, p.text = v := by
  obtain ⟨pos, hpos⟩ := Option.ne_none_iff_exists'.mp fun hnone => CStr.strchr_eq_none.mp hnone h
  obtain ⟨key, hkey, hbytes⟩ := CStr.strchr_eq_some hpos
  refine ⟨⟨key, pos.drop 1, hkey⟩, CStr.ext ?_⟩
  rw [hbytes, CfgPair.text, CStr.bytes_append, CStr.bytes_append, List.append_assoc]
  rfl

theorem exists_pairs {vs : List CStr} (h : ∀ v ∈ vs, colon ∈ v.bytes) :
    ∃ ps : List CfgPair, ps.map CfgPair.call = vs.filterMap cfgCall := by
  induction vs with
  | nil => exact ⟨[], rfl⟩
  | cons v vs ih =>
    obtain ⟨hv, hvs⟩ := List.forall_mem_cons.mp h
    obtain ⟨p, rfl⟩ := exists_pair hv
    obtain ⟨ps, hps⟩ := ih hvs
    exact ⟨p :: ps, by rw [List.map_cons, hps, List.filterMap_cons_some (cfgCall_text p)]⟩

/-- Whatever units a line has, if each `--cfg` value has a colon, they say what
some settings say. -/
theorem exists_options (hcolon : ∀ v ∈ valuesOf .cfg us, colon ∈ v.bytes) :
    ∃ s : SessionOptions, s.calls = commonCalls us := by
  obtain ⟨ps, hps⟩ := exists_pairs hcolon
  refine ⟨⟨given [.c, .config] us, given [.m, .mode] us, valuesOf .e us ++ valuesOf .connect us,
    valuesOf .l us ++ valuesOf .listen us, ps, (given [.noMulticastScouting] us).isSome⟩, ?_⟩
  rw [calls, commonCalls, hps]
  cases given [.noMulticastScouting] us <;> rfl

end SessionOptions

/-! ## Programs -/

/-- A program reads back what a line was written for: on the line for `x` and
for any settings it returns `x`, having configured its session with these
settings, exactly if the configuration accepts them. -/
def ReadsBack {α β : Type} (parseArgs : ConfigApi → Prog α) (line : β → SessionOptions → List CStr)
    (val : β → α) : Prop :=
  ∀ (api : ConfigApi) (prog : CStr) (x : β) (s : SessionOptions),
    (∃ σ', parseArgs api (.start (prog :: line x s)) = .ok (val x) σ' ∧ σ'.calls = s.calls) ↔
      api.Succeed [] s.calls

section

variable {ω : Type} [DecidableEq ω] [OwnNames ω] {α β : Type}

/-- The arguments of the units, with those of the settings behind them. -/
def lineOf (own : β → List (OptUnit (Name ω))) (x : β) (s : SessionOptions) : List CStr :=
  (own x ++ s.units).flatMap OptUnit.tokens

/-- The units are of a program's own, with their values in their own tokens. -/
def Own (us : List (OptUnit (Name ω))) : Prop := ∀ u ∈ us, u.name ∉ Name.common ∧ u.sepValue = none

theorem Own.append {us vs : List (OptUnit (Name ω))} (hu : Own us) (hv : Own vs) : Own (us ++ vs) :=
  List.forall_mem_append.mpr ⟨hu, hv⟩

theorem Own.of_written {n : ω} {us : List (OptUnit (Name ω))} (h : Written (.own n) us) : Own us :=
  fun u hu => ⟨by rw [h.name u hu]; simp [Name.common], h.inline u hu⟩

theorem own_inlineUnits {n : ω} {hn : LongValue (.own n : Name ω)} {vs : List CStr} :
    Own (inlineUnits (.own n) hn vs) := .of_written (written_inlineUnits ..)

theorem own_flagUnits {n : ω} {hn : kind (.own n : Name ω) = .flag} {b : Bool} :
    Own (flagUnits (.own n) hn b) := .of_written (written_flagUnits ..)

section

variable {us : List (OptUnit (Name ω))} (s : SessionOptions)

/-- Behind units of a program's own, the settings add none of its own names. -/
theorem filter_own {ns : List (Name ω)} (h : ∀ n ∈ ns, n ∉ Name.common) :
    (us ++ s.units).filter (named ns) = us.filter (named ns) := by
  rw [List.filter_append, s.filter_units_own fun n hn hns => h n hns hn, List.append_nil]

@[simp] theorem given_own_pair (i j : ω) : given [.own i, .own j] (us ++ s.units) = given [.own i, .own j] us := by
  rw [given_eq_head, given_eq_head, filter_own s (by simp [Name.common])]

@[simp] theorem given_own (i : ω) : given [.own i] (us ++ s.units) = given [.own i] us := by
  rw [given_eq_head, given_eq_head, filter_own s (by simp [Name.common])]

theorem ScanStep.fits_own {t : ScanStep (Name ω)} (h : ∀ n ∈ t.names, n ∉ Name.common) :
    t.Fits (us ++ s.units) ↔ t.Fits us := by
  cases t with
  | help i j => exact Iff.rfl
  | arg i j =>
    have hown : ∀ n ∈ [i, j], n ∉ Name.common := h
    show Once [i, j] _ ↔ Once [i, j] us
    rw [once_iff_length, once_iff_length, filter_own s hown]
  | flag n =>
    have hown : ∀ i ∈ [n], i ∉ Name.common := h
    show Once [n] _ ↔ Once [n] us
    rw [once_iff_length, once_iff_length, filter_own s hown]
  | list i j => exact Iff.rfl
  | pairs n =>
    have hown : ∀ i ∈ [n], i ∉ Name.common := h
    show (∀ v ∈ valuesOf n _, _) ↔ ∀ v ∈ valuesOf n us, _
    rw [valuesOf, filter_own s hown, valuesOf]

end

/-- The units are written for the program's own options, its scans take them,
and they are all that it reads. -/
structure Writes (steps : List (ScanStep (Name ω))) (argsOf : List (OptUnit (Name ω)) → Option α)
    (own : β → List (OptUnit (Name ω))) (val : β → α) : Prop where
  isOwn : ∀ x, Own (own x)
  names : ∀ t ∈ steps, ∀ n ∈ t.names, n ∉ Name.common
  reads : ∀ us (s : SessionOptions), argsOf (us ++ s.units) = argsOf us
  fits : ∀ x, ∀ t ∈ steps, t.Fits (own x)
  args : ∀ x, argsOf (own x) = some (val x)

theorem readsBack_of_parsesExactly {parseArgs : ConfigApi → Prog α} {steps : List (ScanStep (Name ω))}
    {argsOf : List (OptUnit (Name ω)) → Option α} {own : β → List (OptUnit (Name ω))} {val : β → α}
    (hw : Writes steps argsOf own val) (h : ParsesExactly parseArgs (steps ++ commonSteps) argsOf) :
    ReadsBack parseArgs (lineOf own) val := by
  intro api prog x s
  have hname : ∀ u ∈ own x, u.name ∉ Name.common := fun u hu => (hw.isOwn x u hu).1
  have hcalls := s.commonCalls_units hname
  have hinline : Dashless (own x ++ s.units) := by
    intro u hu v hv
    have hnone : u.sepValue = none :=
      (List.mem_append.mp hu).elim (fun hu => (hw.isOwn x u hu).2) (s.sepValue_units u)
    rw [hnone] at hv
    cases hv
  have hfits : ∀ t ∈ steps, t.Fits (own x ++ s.units) := fun t ht =>
    (ScanStep.fits_own s (hw.names t ht)).mpr (hw.fits x t ht)
  have haccepts : Accepts (steps ++ commonSteps) (own x ++ s.units) :=
    ⟨List.forall_mem_append.mpr ⟨hfits, s.fits_common hname⟩, hinline.unshadowed _⟩
  have hexact := h api prog (lineOf own x s) (val x) s.calls
  rw [hexact]
  constructor
  · rintro ⟨us, hus, -, -, hok, -⟩
    rwa [← units_inj hus, hcalls] at hok
  · intro hok
    exact ⟨own x ++ s.units, rfl, haccepts, (hw.reads _ s).trans (hw.args x), by rwa [hcalls], hcalls.symm⟩

end

/-! ## `z_put`, `z_delete`, `z_pub`, `z_sub`, `z_queryable`, `z_info` -/

namespace Put

/-- The options for the arguments. -/
def ownUnits (x : Args) : List (OptUnit (Name PutOpt)) :=
  inlineUnits (.own .key) (by decide) [x.keyexpr] ++ inlineUnits (.own .payload) (by decide) [x.value]

theorem writes : Writes [.help .h .help, .arg (.own .k) (.own .key), .arg (.own .p) (.own .payload)]
    argsOf ownUnits id where
  isOwn x := own_inlineUnits.append own_inlineUnits
  names := by decide
  reads us s := by simp [argsOf]
  fits x := by simp [ScanStep.Fits, once_iff_length, ownUnits]
  args x := by simp [argsOf, given_eq_head, ownUnits]

end Put

namespace Delete

/-- The options for the arguments. -/
def ownUnits (x : Args) : List (OptUnit (Name KeyOpt)) :=
  inlineUnits (.own .key) (by decide) [x.keyexpr]

theorem writes : Writes [.help .h .help, .arg (.own .k) (.own .key)] argsOf ownUnits id where
  isOwn x := own_inlineUnits
  names := by decide
  reads us s := by simp [argsOf]
  fits x := by simp [ScanStep.Fits, once_iff_length, ownUnits]
  args x := by simp [argsOf, given_eq_head, ownUnits]

end Delete

namespace Pub

/-- The options for the arguments. -/
def ownUnits (x : Args) : List (OptUnit (Name PubOpt)) :=
  inlineUnits (.own .key) (by decide) [x.keyexpr] ++ inlineUnits (.own .payload) (by decide) [x.value] ++
    inlineUnits (.own .attach) (by decide) x.attachment.toList ++
    flagUnits (.own .addMatchingListener) (by decide) x.addMatchingListener

theorem writes : Writes [.help .h .help, .arg (.own .k) (.own .key), .arg (.own .p) (.own .payload),
    .arg (.own .a) (.own .attach), .flag (.own .addMatchingListener)] argsOf ownUnits id where
  isOwn x := ((own_inlineUnits.append own_inlineUnits).append own_inlineUnits).append own_flagUnits
  names := by decide
  reads us s := by simp [argsOf]
  fits x := by simp [ScanStep.Fits, once_iff_length, ownUnits, Option.length_toList_le, Bool.toNat_le]
  args x := by simp [argsOf, given_eq_head, ownUnits]

end Pub

namespace Sub

/-- The options for the arguments. -/
def ownUnits (x : Args) : List (OptUnit (Name KeyOpt)) :=
  inlineUnits (.own .key) (by decide) [x.keyexpr]

theorem writes : Writes [.help .h .help, .arg (.own .k) (.own .key)] argsOf ownUnits id where
  isOwn x := own_inlineUnits
  names := by decide
  reads us s := by simp [argsOf]
  fits x := by simp [ScanStep.Fits, once_iff_length, ownUnits]
  args x := by simp [argsOf, given_eq_head, ownUnits]

end Sub

namespace Queryable

/-- The options for the arguments. -/
def ownUnits (x : Args) : List (OptUnit (Name QueryableOpt)) :=
  inlineUnits (.own .key) (by decide) [x.keyexpr] ++ inlineUnits (.own .payload) (by decide) [x.value] ++
    flagUnits (.own .complete) (by decide) x.complete

theorem writes : Writes [.help .h .help, .arg (.own .k) (.own .key), .arg (.own .p) (.own .payload),
    .flag (.own .complete)] (fun us => some (argsOf us)) ownUnits id where
  isOwn x := (own_inlineUnits.append own_inlineUnits).append own_flagUnits
  names := by decide
  reads us s := by simp [argsOf]
  fits x := by simp [ScanStep.Fits, once_iff_length, ownUnits, Bool.toNat_le]
  args x := by simp [argsOf, given_eq_head, ownUnits]

end Queryable

namespace Info

theorem writes : Writes [.help .h .help] (fun _ => some ())
    (fun _ : Unit => ([] : List (OptUnit (Name Empty)))) id where
  isOwn _ _ h := absurd h List.not_mem_nil
  names := by decide
  reads _ _ := rfl
  fits _ := List.forall_mem_singleton.mpr trivial
  args _ := rfl

end Info

/-! ## `z_get` and `z_sub_thr`, which are given numbers -/

namespace Get

/-- What `z_get` can be asked for: the timeout is an `int`. -/
structure Request where
  selector : CStr
  value : Option CStr
  target : QueryTarget
  timeoutMs : Int32
  deriving DecidableEq

/-- The arguments that `parse_args` returns for it. -/
def Request.args (x : Request) : Args where
  selector := x.selector
  value := x.value
  target := x.target
  timeoutMs := x.timeoutMs.toInt64.toUInt64

/-- The name of a target. -/
def targetName : QueryTarget → CStr
  | .bestMatching => lit "BEST_MATCHING"
  | .all => lit "ALL"
  | .allComplete => lit "ALL_COMPLETE"

theorem targetOf_targetName (t : QueryTarget) : targetOf (targetName t) = some t := by
  cases t <;> decide +kernel

/-- The options for the arguments. -/
def ownUnits (x : Request) : List (OptUnit (Name GetOpt)) :=
  inlineUnits (.own .selector) (by decide) [x.selector] ++
    inlineUnits (.own .payload) (by decide) x.value.toList ++
    inlineUnits (.own .timeout) (by decide) [.signed x.timeoutMs.toInt] ++
    inlineUnits (.own .target) (by decide) [targetName x.target]

theorem writes : Writes [.help .h .help, .arg (.own .s) (.own .selector), .arg (.own .p) (.own .payload),
    .arg (.own .o) (.own .timeout), .arg (.own .t) (.own .target)] argsOf ownUnits Request.args where
  isOwn x := ((own_inlineUnits.append own_inlineUnits).append own_inlineUnits).append own_inlineUnits
  names := by decide
  reads us s := by simp [argsOf]
  fits x := by simp [ScanStep.Fits, once_iff_length, ownUnits, Option.length_toList_le]
  args x := by simp [argsOf, given_eq_head, ownUnits, Request.args, targetOf_targetName, CStr.atoi_signed]

end Get

namespace SubThr

/-- What `z_sub_thr` can be asked for: its counts are `int`s. -/
structure Request where
  samples : Int32
  numMessages : Int32
  deriving DecidableEq

/-- The arguments that `parse_args` returns for it. -/
def Request.args (x : Request) : Args where
  samples := x.samples.toInt64.toUInt64
  numMessages := x.numMessages.toInt64.toUInt64

/-- The options for the arguments. -/
def ownUnits (x : Request) : List (OptUnit (Name SubThrOpt)) :=
  inlineUnits (.own .samples) (by decide) [.signed x.samples.toInt] ++
    inlineUnits (.own .number) (by decide) [.signed x.numMessages.toInt]

theorem writes : Writes [.help .h .help, .arg (.own .s) (.own .samples), .arg (.own .n) (.own .number)]
    argsOf ownUnits Request.args where
  isOwn x := own_inlineUnits.append own_inlineUnits
  names := by decide
  reads us s := by simp [argsOf]
  fits x := by simp [ScanStep.Fits, once_iff_length, ownUnits]
  args x := by simp [argsOf, given_eq_head, ownUnits, Request.args, CStr.atoi_signed]

end SubThr

/-- Whatever the arguments of a program and the settings of its session are, on
the line written for them the program returns these arguments and configures
its session with these settings, exactly if the configuration accepts them. -/
theorem readsBack_examples :
    ReadsBack Put.parseArgs (lineOf Put.ownUnits) id ∧ ReadsBack Delete.parseArgs (lineOf Delete.ownUnits) id ∧
      ReadsBack Pub.parseArgs (lineOf Pub.ownUnits) id ∧ ReadsBack Sub.parseArgs (lineOf Sub.ownUnits) id ∧
      ReadsBack Queryable.parseArgs (lineOf Queryable.ownUnits) id ∧
      ReadsBack Info.parseArgs (lineOf fun _ : Unit => ([] : List (OptUnit (Name Empty)))) id ∧
      ReadsBack Get.parseArgs (lineOf Get.ownUnits) Get.Request.args ∧
      ReadsBack SubThr.parseArgs (lineOf SubThr.ownUnits) SubThr.Request.args :=
  ⟨readsBack_of_parsesExactly Put.writes Put.parsesExactly,
    readsBack_of_parsesExactly Delete.writes Delete.parsesExactly,
    readsBack_of_parsesExactly Pub.writes Pub.parsesExactly,
    readsBack_of_parsesExactly Sub.writes Sub.parsesExactly,
    readsBack_of_parsesExactly Queryable.writes Queryable.parsesExactly,
    readsBack_of_parsesExactly Info.writes Info.parsesExactly,
    readsBack_of_parsesExactly Get.writes Get.parsesExactly,
    readsBack_of_parsesExactly SubThr.writes SubThr.parsesExactly⟩

/-- `z_put` on `a`, with a payload that begins with `-` and holds `=`. -/
example : lineOf Put.ownUnits ⟨lit "a", lit "-x=1"⟩ ⟨none, some (lit "client"), [lit "tcp/h:1"], [], [], true⟩ =
    [lit "--key=a", lit "--payload=-x=1", lit "--mode=client", lit "--connect=tcp/h:1",
      lit "--no-multicast-scouting"] := by
  decide +kernel

/-! ## Which arguments a run can have -/

/-- The numbers of 64 bits that an `int` is stored as. -/
theorem exists_toUInt64_iff {u : UInt64} :
    (∃ i : Int32, i.toInt64.toUInt64 = u) ↔ u.toNat < 2 ^ 31 ∨ 2 ^ 64 - 2 ^ 31 ≤ u.toNat := by
  constructor
  · rintro ⟨i, rfl⟩
    have hstored := toNat_toUInt64 i
    have hlt := i.toInt_lt
    have hle := i.le_toInt
    omega
  · intro h
    have hlt := u.toNat_lt
    -- the `int` that is stored as `u`
    have hstored : ∀ v : Int, -2 ^ 31 ≤ v → v < 2 ^ 31 → v % 2 ^ 64 = u.toNat →
        ∃ i : Int32, i.toInt64.toUInt64 = u := by
      intro v hle hv hmod
      refine ⟨Int32.ofInt v, UInt64.toNat_inj.mp (Int.ofNat_inj.mp ?_)⟩
      rw [toNat_toUInt64, Int32.toInt_ofInt_of_le hle hv, hmod]
    rcases h with h | h
    · exact hstored u.toNat (by omega) (by omega) (by omega)
    · exact hstored (u.toNat - 2 ^ 64) (by omega) (by omega) (by omega)

/-- What `atoi` gives, or an `int` by default, is stored from an `int`. -/
theorem stored_int {u : UInt64} {d : Int32} (v : Option CStr) (hd : d.toInt64.toUInt64 = u) :
    ∃ i : Int32, i.toInt64.toUInt64 = (v.map fun v => v.atoi.toInt64.toUInt64).getD u := by
  cases v with
  | none => exact ⟨d, hd⟩
  | some v => exact ⟨v.atoi, rfl⟩

/-- Some run returns `x`. -/
def Returnable {α : Type} (parseArgs : ConfigApi → Prog α) (x : α) : Prop :=
  ∃ (api : ConfigApi) (prog : CStr) (args : List CStr) (σ' : Proc),
    parseArgs api (.start (prog :: args)) = .ok x σ'

section

variable {ω : Type} [DecidableEq ω] [OwnNames ω] {α β : Type}

/-- What is written can be returned. -/
theorem ReadsBack.returnable {parseArgs : ConfigApi → Prog α} {line : β → SessionOptions → List CStr}
    {val : β → α} (h : ReadsBack parseArgs line val) (x : β) : Returnable parseArgs (val x) := by
  obtain ⟨σ', hrun, -⟩ := (h .alwaysOk (lit "") x ⟨none, none, [], [], [], false⟩).mpr
    (ConfigApi.alwaysOk_succeed _ _)
  exact ⟨_, _, _, _, hrun⟩

/-- The calls for an accepted line are those of some settings. -/
theorem ParsesExactly.options {parseArgs : ConfigApi → Prog α} {steps : List (ScanStep (Name ω))}
    {argsOf : List (OptUnit (Name ω)) → Option α} (h : ParsesExactly parseArgs steps argsOf)
    (hcfg : .pairs .cfg ∈ steps) {api : ConfigApi} {prog : CStr} {args : List CStr} {x : α} {σ : Proc}
    (hrun : parseArgs api (.start (prog :: args)) = .ok x σ) : ∃ s : SessionOptions, s.calls = σ.calls := by
  obtain ⟨us, -, hacc, -, -, hcalls⟩ := (h api prog args x σ.calls).mp ⟨σ, hrun, rfl⟩
  rw [hcalls]
  exact SessionOptions.exists_options (hacc.fits _ hcfg)

/-- What is returned is read off option units. -/
theorem ParsesExactly.units {parseArgs : ConfigApi → Prog α} {steps : List (ScanStep (Name ω))}
    {argsOf : List (OptUnit (Name ω)) → Option α} (h : ParsesExactly parseArgs steps argsOf) {x : α}
    (hx : Returnable parseArgs x) : ∃ us, argsOf us = some x := by
  obtain ⟨api, prog, args, σ', hrun⟩ := hx
  obtain ⟨us, -, -, hus, -⟩ := (h api prog args x σ'.calls).mp ⟨σ', hrun, rfl⟩
  exact ⟨us, hus⟩

end

/-- `z_get` can be run with a timeout, whatever its other arguments, exactly if
an `int` is stored as it; and so can `z_sub_thr` with its counts. -/
theorem returnable_numbers_iff :
    (∀ x : Get.Args, Returnable Get.parseArgs x ↔
      x.timeoutMs.toNat < 2 ^ 31 ∨ 2 ^ 64 - 2 ^ 31 ≤ x.timeoutMs.toNat) ∧
    ∀ x : SubThr.Args, Returnable SubThr.parseArgs x ↔
      (x.samples.toNat < 2 ^ 31 ∨ 2 ^ 64 - 2 ^ 31 ≤ x.samples.toNat) ∧
      (x.numMessages.toNat < 2 ^ 31 ∨ 2 ^ 64 - 2 ^ 31 ≤ x.numMessages.toNat) := by
  refine ⟨fun x => ?_, fun x => ?_⟩
  · rw [← exists_toUInt64_iff]
    constructor
    · intro h
      obtain ⟨us, hus⟩ := Get.parsesExactly.units h
      obtain ⟨target, -, hx⟩ := Option.bind_eq_some_iff.mp hus
      cases hx
      exact stored_int (d := 10000) _ rfl
    · rintro ⟨i, hi⟩
      have hx : Get.Request.args ⟨x.selector, x.value, x.target, i⟩ = x := by
        rw [Get.Request.args, hi]
      exact hx ▸ ReadsBack.returnable (readsBack_of_parsesExactly Get.writes Get.parsesExactly) _
  · rw [← exists_toUInt64_iff, ← exists_toUInt64_iff]
    constructor
    · intro h
      obtain ⟨us, hus⟩ := SubThr.parsesExactly.units h
      cases hus
      exact ⟨stored_int (d := 10) _ rfl, stored_int (d := 1000000) _ rfl⟩
    · rintro ⟨⟨i, hi⟩, j, hj⟩
      have hx : SubThr.Request.args ⟨i, j⟩ = x := by
        rw [SubThr.Request.args, hi, hj]
      exact hx ▸ ReadsBack.returnable (readsBack_of_parsesExactly SubThr.writes SubThr.parsesExactly) _

end ZenohFlatC.Args
