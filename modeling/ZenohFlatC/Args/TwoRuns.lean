import ZenohFlatC.Args.Accept

/-!
# Two command lines that differ in a value

A value that a scan passes over is compared with the scan's own name, so a
value can be taken for an option (`value_taken_for_option`). Where neither
command line has such a value (`Unshadowed`), a value of `-k`, `-p`, `-c` or
`-m` is opaque to the scanner: replacing it changes what its own option
receives, and nothing else (`replaced_value`). Such a command line is accepted,
or exits at its first `--cfg` value without a colon (`parseArgs_exits`).
-/

namespace ZenohFlatC.Args

open CStr (lit)

variable {ν : Type} [Options ν] [DecidableEq ν]

/-- The loop of `parse_zenoh_json_list_cfg` up to the first value without a
colon, where it exits. -/
theorem cfgLoop_exits {r : Nat} {n : ν} (hn : r ≤ rank n) (hk : kind n = .value) {vs ws : List CStr}
    {w : CStr} (hcolon : ∀ v ∈ vs, colon ∈ v.bytes) (hw : colon ∉ w.bytes) {k : Nat} {σ : Proc}
    {a : Line ν} (h : At r σ a) (hclear : Clear n (without [n] a.units))
    (hvalues : valuesOf n a.units = vs ++ w :: ws) (hlen : vs.length < k) :
    ∃ σ', cfgLoop .alwaysOk (text n) k σ = .error (.cfgWithoutColon w) σ' ∧
      σ'.calls = a.calls ++ vs.filterMap cfgCall := by
  obtain ⟨k, rfl⟩ := Nat.exists_eq_succ_of_ne_zero (Nat.ne_of_gt (Nat.zero_lt_of_lt hlen))
  induction vs generalizing k σ a with
  | nil =>
    obtain ⟨us', hscan, -, -⟩ := scan_first hclear hvalues
    have hrel : scanRel n a (some w) ⟨us', a.calls⟩ := ⟨hscan, rfl⟩
    obtain ⟨σ₁, hrun, h₁⟩ := (parseSingle_mirrors hn hk).run h hrel
    refine ⟨σ₁, (bind_of_ok hrun).trans (bind_of_error ?_), by simpa using h₁.calls⟩
    rw [insertCfg, CStr.strchr_eq_none.mpr hw]
    rfl
  | cons v vs ih =>
    obtain ⟨us', hscan, hvalues', hleft⟩ := scan_first hclear hvalues
    have hv : colon ∈ v.bytes := hcolon v List.mem_cons_self
    obtain ⟨c, hc⟩ := Option.isSome_iff_exists.mp (cfgCall_isSome.mpr hv)
    have hrel : scanRel n a (some v) ⟨us', a.calls⟩ := ⟨hscan, rfl⟩
    obtain ⟨σ₁, hrun, h₁⟩ := (parseSingle_mirrors hn hk).run h hrel
    have hins : colon ∈ v.bytes ∧ callsRel .alwaysOk (cfgCall v).toList ⟨us', a.calls⟩ ()
        ⟨us', a.calls ++ (cfgCall v).toList⟩ := ⟨hv, ConfigApi.alwaysOk_succeed _ _, rfl⟩
    obtain ⟨σ₂, hrun₂, h₂⟩ := (insertCfg_mirrors .alwaysOk v).run h₁ hins
    have hlen : vs.length < k := Nat.lt_of_succ_lt_succ hlen
    obtain ⟨j, rfl⟩ := Nat.exists_eq_succ_of_ne_zero (Nat.ne_of_gt (Nat.zero_lt_of_lt hlen))
    obtain ⟨σ', hloop, hcalls⟩ := ih (fun v hv => hcolon v (List.mem_cons_of_mem _ hv)) h₂
      (by rwa [hleft]) hvalues' j hlen
    refine ⟨σ', (bind_of_ok hrun).trans ((bind_of_ok hrun₂).trans hloop), ?_⟩
    rw [hcalls, hc, List.filterMap_cons_some hc, List.append_assoc]
    rfl

namespace Queryable

/-- The first `--cfg` value without a colon ends `parse_args`, after the calls
for the options before it. -/
theorem parseArgs_exits (prog : CStr) {us : List (OptUnit Opt)} (honce : ∀ ns ∈ Opt.once, Once ns us)
    (hsafe : Unshadowed us) {vs ws : List CStr} {w : CStr} (hvalues : valuesOf .cfg us = vs ++ w :: ws)
    (hcolon : ∀ v ∈ vs, colon ∈ v.bytes) (hw : colon ∉ w.bytes) :
    ∃ σ', parseArgs .alwaysOk (.start (prog :: us.flatMap OptUnit.tokens)) =
        .error (.cfgWithoutColon w) σ' ∧ σ'.calls = sessionCalls us ++ vs.filterMap cfgCall := by
  obtain ⟨⟨hh, hhelp⟩, ck, cp, cc, cf, cm, ce, cl, ccfg, -⟩ := (unshadowed_iff _).mp hsafe
  simp only [Opt.once, List.forall_mem_cons] at honce
  obtain ⟨ok, op, oc, of, om, -, -⟩ := honce
  have hok := ConfigApi.alwaysOk_succeed
  obtain ⟨σ₁, e₁, h₁⟩ := (checkHelp_mirrors (h := Opt.h) rfl rfl rfl rfl).run (x := ()) (at_start_units prog us)
    ⟨⟨hh, hhelp⟩, rfl⟩
  obtain ⟨σ₂, e₂, h₂⟩ := (parseArg_mirrors (s := Opt.k) (l := .key) rfl rfl rfl rfl defaultKeyexpr).run h₁
    ⟨⟨ok, ck⟩, rfl, rfl⟩
  rw [without_k] at h₂
  obtain ⟨σ₃, e₃, h₃⟩ := (parseArg_mirrors (s := Opt.p) (l := .payload) rfl rfl rfl rfl defaultValue).run h₂
    ⟨⟨(once_remaining us (by decide)).mpr op, cp⟩, rfl, rfl⟩
  rw [without_p] at h₃
  obtain ⟨σ₄, e₄, h₄⟩ := (checkFlag_mirrors (n := Opt.complete) rfl rfl).run h₃
    ⟨⟨(once_remaining us (by decide)).mpr oc, cc⟩, rfl, rfl⟩
  rw [without_complete] at h₄
  obtain ⟨σ₅, e₅, h₅⟩ := (parseConfigFile_mirrors (s := Opt.c) (l := .config) .alwaysOk rfl rfl rfl rfl rfl
    rfl).run (x := ()) h₄ ⟨⟨(once_remaining us (by decide)).mpr of, cf⟩, hok _ _, rfl⟩
  rw [without_c] at h₅
  obtain ⟨σ₆, e₆, h₆⟩ := (parseMode_mirrors (s := Opt.m) (l := .mode) .alwaysOk rfl rfl rfl rfl rfl
    rfl).run (x := ()) h₅ ⟨⟨(once_remaining us (by decide)).mpr om, cm⟩, hok _ _, rfl⟩
  rw [without_m] at h₆
  obtain ⟨σ₇, e₇, h₇⟩ := (parseZenohJsonListConfig_mirrors (s := Opt.e) (l := .connect) .alwaysOk
    (lit "connect/endpoints") rfl rfl rfl rfl).run (x := ()) h₆ ⟨by rwa [without_e], hok _ _, rfl⟩
  rw [without_e] at h₇
  obtain ⟨σ₈, e₈, h₈⟩ := (parseZenohJsonListConfig_mirrors (s := Opt.l) (l := .listen) .alwaysOk
    (lit "listen/endpoints") rfl rfl rfl rfl).run (x := ()) h₇ ⟨by rwa [without_l], hok _ _, rfl⟩
  rw [without_l] at h₈
  have hlen : vs.length < σ₈.argv.length + 1 := by
    have hunits : (valuesOf .cfg (remaining .cfg us)).length ≤ (remaining .cfg us).length := by
      rw [valuesOf, List.length_map]
      exact List.length_filter_le _ _
    have hslots : (remaining .cfg us).length ≤ σ₈.argv.length := h₈.length_le
    rw [valuesOf_remaining us (by decide), hvalues, List.length_append] at hunits
    omega
  obtain ⟨σ', hloop, hcalls⟩ := cfgLoop_exits (n := Opt.cfg) (by decide) rfl hcolon hw h₈
    (by rwa [without_cfg]) (by rwa [valuesOf_remaining us (by decide)]) hlen
  have hcfg : parseZenohJsonListCfg .alwaysOk (lit "cfg") σ₈ = .error (.cfgWithoutColon w) σ' :=
    (bind_of_ok rfl).trans hloop
  have hcommon : parseZenohCommonArgs .alwaysOk σ₄ = .error (.cfgWithoutColon w) σ' :=
    (bind_of_ok e₅).trans ((bind_of_ok e₆).trans ((bind_of_ok e₇).trans ((bind_of_ok e₈).trans
      (bind_of_error hcfg))))
  refine ⟨σ', (bind_of_ok e₁).trans ((bind_of_ok e₂).trans ((bind_of_ok e₃).trans
    ((bind_of_ok e₄).trans (bind_of_error hcommon)))), ?_⟩
  rw [hcalls]
  simp (disch := decide) only [given_remaining, valuesOf_remaining]
  rfl

/-! ## The units around a value -/

section

variable {A B : List (OptUnit Opt)} {u : OptUnit Opt} {ns : List Opt}

theorem given_middle (hu : u.name ∈ ns) (honce : Once ns (A ++ u :: B)) :
    given ns (A ++ u :: B) = some u.value :=
  given_first (fun a ha => (once_first hu).mp honce a (List.mem_append_left _ ha)) hu

theorem given_around (hu : u.name ∉ ns) : given ns (A ++ u :: B) = given ns (A ++ B) := by
  rw [given, given, List.find?_append, List.find?_append, List.find?_cons_of_neg (by simpa using hu)]

theorem valuesOf_around {n : Opt} (hu : u.name ≠ n) :
    valuesOf n (A ++ u :: B) = valuesOf n (A ++ B) := by
  rw [valuesOf_append, valuesOf_append, valuesOf, valuesOf, valuesOf,
    List.filter_cons_of_neg (by simpa using hu)]

theorem once_around {v : OptUnit Opt} (hname : v.name = u.name) :
    Once ns (A ++ v :: B) ↔ Once ns (A ++ u :: B) := by
  have hnamed : named ns v = named ns u := by rw [named, named, hname]
  rw [Once, Once, List.countP_append, List.countP_append, List.countP_cons, List.countP_cons, hnamed]

end

/-! ## Two runs -/

/-- The options that are given once, with a value. -/
def Opt.single : List Opt := [.k, .key, .p, .payload, .c, .config, .m, .mode]

/-- The results agree, but for what `n` received: `v` and `v'`. -/
def ArgsAgree (n : Opt) (v v' : CStr) (x x' : Args) : Prop :=
  (if n ∈ [Opt.k, .key] then x.keyexpr = v ∧ x'.keyexpr = v' else x.keyexpr = x'.keyexpr) ∧
  (if n ∈ [Opt.p, .payload] then x.value = v ∧ x'.value = v' else x.value = x'.value) ∧
  x.complete = x'.complete

/-- The calls made for the value of `n`. -/
def callsFor (n : Opt) (v : CStr) : List ConfigCall :=
  if n ∈ [Opt.c, .config] then fileCalls (some v) else if n ∈ [Opt.m, .mode] then modeCalls (some v) else []

/-- The calls agree, but for those for the value of `n`: `v` and `v'`. -/
def CallsAgree (n : Opt) (v v' : CStr) (cs cs' : List ConfigCall) : Prop :=
  ∃ before after, cs = before ++ callsFor n v ++ after ∧ cs' = before ++ callsFor n v' ++ after

namespace CallsAgree

variable {n : Opt} {v v' : CStr} {cs cs' : List ConfigCall}

theorem self : CallsAgree n v v' (callsFor n v) (callsFor n v') :=
  ⟨[], [], by simp only [List.nil_append, List.append_nil], by simp only [List.nil_append, List.append_nil]⟩

theorem same (h : callsFor n v = []) (h' : callsFor n v' = []) : CallsAgree n v v' cs cs :=
  ⟨cs, [], by simp only [h, List.append_nil], by simp only [h', List.append_nil]⟩

theorem append (h : CallsAgree n v v' cs cs') (ds : List ConfigCall) :
    CallsAgree n v v' (cs ++ ds) (cs' ++ ds) := by
  obtain ⟨before, after, rfl, rfl⟩ := h
  exact ⟨before, after ++ ds, by simp only [List.append_assoc], by simp only [List.append_assoc]⟩

theorem prepend (h : CallsAgree n v v' cs cs') (ds : List ConfigCall) :
    CallsAgree n v v' (ds ++ cs) (ds ++ cs') := by
  obtain ⟨before, after, rfl, rfl⟩ := h
  exact ⟨ds ++ before, after, by simp only [List.append_assoc], by simp only [List.append_assoc]⟩

end CallsAgree

/-- Both runs return, or both exit for the same reason; and they agree, but
for what `n` received: `v` and `v'`. -/
def SameOutcome (n : Opt) (v v' : CStr) (r r' : EStateM.Result Exit Proc Args) : Prop :=
  ((∃ x x', returned r = some x ∧ returned r' = some x' ∧ ArgsAgree n v v' x x') ∨
    ∃ e, exited r = some e ∧ exited r' = some e) ∧
  CallsAgree n v v' (endState r).calls (endState r').calls

section

variable {A B : List (OptUnit Opt)} {u u' : OptUnit Opt} {ns : List Opt}

/-- What an option with the names `ns` is given, with one unit or the other. -/
theorem given_agree (hname : u'.name = u.name) (honce : Once ns (A ++ u :: B)) :
    if u.name ∈ ns then given ns (A ++ u :: B) = some u.value ∧ given ns (A ++ u' :: B) = some u'.value
    else given ns (A ++ u :: B) = given ns (A ++ u' :: B) := by
  split
  · rename_i hu
    exact ⟨given_middle hu honce, given_middle (by rwa [hname]) ((once_around hname).mpr honce)⟩
  · rename_i hu
    rw [given_around hu, given_around (by rwa [hname])]

/-- The values of a repeated option do not depend on the unit. -/
theorem valuesOf_agree (hname : u'.name = u.name) (hn : u.name ∈ Opt.single) {n : Opt}
    (hrep : n ∈ Opt.repeated) : valuesOf n (A ++ u :: B) = valuesOf n (A ++ u' :: B) := by
  have hne : ∀ i ∈ Opt.single, ∀ j ∈ Opt.repeated, i ≠ j := by decide
  have hu := hne u.name hn n hrep
  rw [valuesOf_around hu, valuesOf_around (by rwa [hname])]

theorem argsOf_agree (hname : u'.name = u.name) (hn : u.name ∈ Opt.single)
    (honce : ∀ ns ∈ Opt.once, Once ns (A ++ u :: B)) :
    ArgsAgree u.name u.value u'.value (argsOf (A ++ u :: B)) (argsOf (A ++ u' :: B)) := by
  have hk := given_agree hname (honce [.k, .key] (by decide))
  have hp := given_agree hname (honce [.p, .payload] (by decide))
  have hc := given_agree hname (honce [.complete] (by decide))
  have hcomplete : u.name ∉ [Opt.complete] := by
    have hnot : ∀ i ∈ Opt.single, i ∉ [Opt.complete] := by decide
    exact hnot u.name hn
  rw [if_neg hcomplete] at hc
  refine ⟨?_, ?_, ?_⟩
  · split at hk
    · rename_i h
      simp only [argsOf, hk.1, hk.2, Option.getD_some, h, if_true, and_self]
    · rename_i h
      simp only [argsOf, hk, h, if_false]
  · split at hp
    · rename_i h
      simp only [argsOf, hp.1, hp.2, Option.getD_some, h, if_true, and_self]
    · rename_i h
      simp only [argsOf, hp, h, if_false]
  · simp only [argsOf, hc]

theorem sessionCalls_agree (hname : u'.name = u.name) (hn : u.name ∈ Opt.single)
    (honce : ∀ ns ∈ Opt.once, Once ns (A ++ u :: B)) :
    CallsAgree u.name u.value u'.value (sessionCalls (A ++ u :: B)) (sessionCalls (A ++ u' :: B)) := by
  have hfile := given_agree hname (honce [.c, .config] (by decide))
  have hmode := given_agree hname (honce [.m, .mode] (by decide))
  have hvalues : ∀ n ∈ Opt.repeated, valuesOf n (A ++ u :: B) = valuesOf n (A ++ u' :: B) :=
    fun n hrep => valuesOf_agree hname hn hrep
  have hboth : ∀ i ∈ [Opt.c, .config], i ∉ [Opt.m, .mode] := by decide
  have hself : CallsAgree u.name u.value u'.value (callsFor u.name u.value) (callsFor u.name u'.value) :=
    .self
  unfold sessionCalls
  rw [hvalues .e (by decide), hvalues .connect (by decide), hvalues .l (by decide),
    hvalues .listen (by decide)]
  by_cases hc : u.name ∈ [Opt.c, .config]
  · rw [if_pos hc] at hfile
    rw [if_neg (hboth _ hc)] at hmode
    rw [callsFor, if_pos hc, callsFor, if_pos hc] at hself
    rw [hfile.1, hfile.2, hmode]
    exact ((hself.append _).append _).append _
  · rw [if_neg hc] at hfile
    rw [callsFor, if_neg hc, callsFor, if_neg hc] at hself
    rw [hfile]
    by_cases hm : u.name ∈ [Opt.m, .mode]
    · rw [if_pos hm] at hmode
      rw [if_pos hm, if_pos hm] at hself
      rw [hmode.1, hmode.2]
      exact ((hself.prepend _).append _).append _
    · rw [if_neg hm] at hmode
      rw [hmode]
      exact .same (by rw [callsFor, if_neg hc, if_neg hm]) (by rw [callsFor, if_neg hc, if_neg hm])

end

theorem value_of_sepValue {u : OptUnit Opt} {v : CStr} (h : u.sepValue = some v) : u.value = v := by
  unfold OptUnit.sepValue at h
  unfold OptUnit.value
  cases harg : u.arg <;> rw [harg] at h <;> cases h
  rfl

/-- On two command lines that differ in one separate value of an option that
is given once, where no scan passes over a value that looks like its own name:
both are accepted or both exit for the same reason; the option receives its
own value on each, and all else is the same. -/
theorem replaced_value (prog : CStr) (A B : List (OptUnit Opt)) (u u' : OptUnit Opt) {v v' : CStr}
    (hname : u'.name = u.name) (hn : u.name ∈ Opt.single) (hv : u.sepValue = some v)
    (hv' : u'.sepValue = some v') (honce : ∀ ns ∈ Opt.once, Once ns (A ++ u :: B))
    (h : Unshadowed (A ++ u :: B)) (h' : Unshadowed (A ++ u' :: B)) :
    SameOutcome u.name v v'
      (parseArgs .alwaysOk (.start (prog :: (A ++ u :: B).flatMap OptUnit.tokens)))
      (parseArgs .alwaysOk (.start (prog :: (A ++ u' :: B).flatMap OptUnit.tokens))) := by
  obtain rfl := value_of_sepValue hv
  obtain rfl := value_of_sepValue hv'
  have honce' : ∀ ns ∈ Opt.once, Once ns (A ++ u' :: B) := fun ns hns =>
    (once_around hname).mpr (honce ns hns)
  have hcfg := valuesOf_agree (A := A) (B := B) hname hn (n := .cfg) (by decide)
  have hsession := sessionCalls_agree hname hn honce
  by_cases hcolon : ∀ v ∈ valuesOf .cfg (A ++ u :: B), colon ∈ v.bytes
  · have hcolon' := hcolon
    rw [hcfg] at hcolon'
    have hok := ConfigApi.alwaysOk_succeed []
    obtain ⟨σ, hrun, hcalls⟩ := (parseArgs_ok_iff .alwaysOk prog _ _ _).mpr
      ⟨A ++ u :: B, rfl, ⟨honce, hcolon, h⟩, hok _, rfl, rfl⟩
    obtain ⟨σ', hrun', hcalls'⟩ := (parseArgs_ok_iff .alwaysOk prog _ _ _).mpr
      ⟨A ++ u' :: B, rfl, ⟨honce', hcolon', h'⟩, hok _, rfl, rfl⟩
    rw [hrun, hrun']
    refine ⟨.inl ⟨_, _, rfl, rfl, argsOf_agree hname hn honce⟩, ?_⟩
    have hscouting := given_agree hname (honce [.noMulticastScouting] (by decide))
    have hnot : ∀ i ∈ Opt.single, i ∉ [Opt.noMulticastScouting] := by decide
    rw [if_neg (hnot _ hn)] at hscouting
    show CallsAgree _ _ _ σ.calls σ'.calls
    rw [hcalls, hcalls', configCalls, configCalls, hcfg, hscouting]
    exact (hsession.append _).append _
  · -- the first value without a colon, on both lines
    obtain ⟨w, hfind⟩ : ∃ w, (valuesOf .cfg (A ++ u :: B)).find? (fun v => colon ∉ v.bytes) = some w := by
      rw [← Option.isSome_iff_exists, List.find?_isSome]
      simpa using hcolon
    obtain ⟨hw, vs, ws, hvalues, hvs⟩ := List.find?_eq_some_iff_append.mp hfind
    have hw : colon ∉ w.bytes := of_decide_eq_true hw
    have hvs : ∀ v ∈ vs, colon ∈ v.bytes := fun v hv => by simpa using hvs v hv
    obtain ⟨σ, hrun, hcalls⟩ := parseArgs_exits prog honce h hvalues hvs hw
    obtain ⟨σ', hrun', hcalls'⟩ := parseArgs_exits prog honce' h' (hcfg ▸ hvalues) hvs hw
    rw [hrun, hrun']
    refine ⟨.inr ⟨_, rfl, rfl⟩, ?_⟩
    show CallsAgree _ _ _ σ.calls σ'.calls
    rw [hcalls, hcalls']
    exact hsession.append _

/-- `-k a` and `-k -b`: each receives its own value. -/
theorem replaced_value_dash : SameOutcome .k (lit "a") (lit "-b")
    (parseArgs .alwaysOk (.start [lit "z_queryable", lit "-k", lit "a"]))
    (parseArgs .alwaysOk (.start [lit "z_queryable", lit "-k", lit "-b"])) := by
  -- neither value looks like an option
  have hsafe : ∀ v : CStr, (∀ n ∈ Opt.all, recognises (text n) v = false) →
      Unshadowed ([] ++ ⟨.k, lit "", .apart v, by decide, ⟨rfl, by decide⟩⟩ :: []) := by
    intro v hv n _ u hu w hw
    obtain rfl := List.mem_singleton.mp (passed_remaining_subset n _ hu)
    cases hw
    exact hv n (Opt.mem_all n)
  exact replaced_value (lit "z_queryable") [] [] ⟨.k, lit "", .apart (lit "a"), by decide, by decide⟩
    ⟨.k, lit "", .apart (lit "-b"), by decide, by decide⟩ rfl (by decide) rfl rfl (by decide)
    (hsafe _ (by decide)) (hsafe _ (by decide))

/-- A value that looks like an option of an earlier scan is taken for it: the
value `-h` of `-k`; or, where the value `-k` of `-e` is, other values change
what follows. -/
theorem value_taken_for_option :
    (returned (parseArgs .alwaysOk (.start [lit "z_queryable", lit "-k", lit "a"])) =
        some ⟨lit "a", defaultValue, false⟩ ∧
      exited (parseArgs .alwaysOk (.start [lit "z_queryable", lit "-k", lit "-h"])) = some .help) ∧
    exited (parseArgs .alwaysOk (.start [lit "z_queryable", lit "-e", lit "-k", lit "-k", lit "a"])) =
        some (.shortWithoutValue (lit "e")) ∧
    exited (parseArgs .alwaysOk (.start [lit "z_queryable", lit "-e", lit "-k", lit "-k", lit "-m"])) =
        some (.shortWithoutValue (lit "m")) := by
  decide +kernel

end Queryable

end ZenohFlatC.Args
