import ZenohFlatC.Args.CommonStages

/-!
# The names of an example, and those common to all

Every `parse_args` of the examples scans for the help options, then for the
options of its own program, then for those common to all (`Name`). What a
program adds is a list of own names, in the order of its scans (`OwnNames`);
that no name is taken for another is checked on the whole list.

A program's scans are made in steps (`ScanStep`). A command line is accepted
(`Accepts`) if an option is given once unless it may be repeated, a `--cfg`
value has a colon, and no step passes over a value that looks like one of its
names (`Unshadowed`). `parseZenohCommonArgs_mirrors` is what
`parse_zenoh_common_args` does on the units that the steps before it left.
-/

namespace ZenohFlatC.Args

open CStr (lit)

/-- The names that a program scans for, in this order. -/
inductive Name (ω : Type) where
  | h | help
  | own (n : ω)
  | c | config | m | mode | e | connect | l | listen | cfg | noMulticastScouting
  deriving DecidableEq

namespace Name

variable {ω : Type}

def textWith (t : ω → CStr) : Name ω → CStr
  | h => lit "h"
  | help => lit "help"
  | own n => t n
  | c => lit "c"
  | config => lit "config"
  | m => lit "m"
  | mode => lit "mode"
  | e => lit "e"
  | connect => lit "connect"
  | l => lit "l"
  | listen => lit "listen"
  | cfg => lit "cfg"
  | noMulticastScouting => lit "no-multicast-scouting"

/-- The names of the options common to the examples. -/
def common : List (Name ω) := [c, config, m, mode, e, connect, l, listen, cfg, noMulticastScouting]

/-- All the names, in the order of the scans. -/
def allWith (names : List ω) : List (Name ω) := [h, help] ++ names.map own ++ common

end Name

/-- The options of a program's own, in the order of its scans. -/
class OwnNames (ω : Type) [DecidableEq ω] where
  text : ω → CStr
  kind : ω → Kind
  all : List ω
  mem_all : ∀ n, n ∈ all
  kind_own : ∀ n ∈ all, kind n ≠ .help
  text_pos : ∀ i ∈ Name.allWith all, 0 < (Name.textWith text i).strlen
  text_equals : ∀ i ∈ Name.allWith all, equals ∉ (Name.textWith text i).bytes
  text_inj : ∀ i ∈ Name.allWith all, ∀ j ∈ Name.allWith all,
    Name.textWith text i = Name.textWith text j → i = j
  text_unambiguous : ∀ i ∈ Name.allWith all, ∀ j ∈ Name.allWith all, 1 < (Name.textWith text i).strlen →
    (Name.textWith text i).bytes <+: (Name.textWith text j).bytes → i = j

namespace Name

variable {ω : Type} [DecidableEq ω] [OwnNames ω]

def kind : Name ω → Kind
  | h | help => .help
  | own n => OwnNames.kind n
  | noMulticastScouting => .flag
  | c | config | m | mode | e | connect | l | listen | cfg => .value

/-- The rank of the first of the common options. -/
def firstCommon (ω : Type) [DecidableEq ω] [OwnNames ω] : Nat := 2 + (OwnNames.all (ω := ω)).length

/-- The place of a name in the order of the scans. -/
def rank (n : Name ω) : Nat :=
  match n with
  | h => 0
  | help => 1
  | own n => 2 + OwnNames.all.idxOf n
  | c => firstCommon ω
  | config => firstCommon ω + 1
  | m => firstCommon ω + 2
  | mode => firstCommon ω + 3
  | e => firstCommon ω + 4
  | connect => firstCommon ω + 5
  | l => firstCommon ω + 6
  | listen => firstCommon ω + 7
  | cfg => firstCommon ω + 8
  | noMulticastScouting => firstCommon ω + 9

theorem mem_all (n : Name ω) : n ∈ allWith OwnNames.all := by
  cases n with
  | own n => simp [allWith, OwnNames.mem_all n]
  | _ => simp [allWith, common]

theorem idxOf_lt (n : ω) : OwnNames.all.idxOf n < (OwnNames.all (ω := ω)).length :=
  List.idxOf_lt_length_of_mem (OwnNames.mem_all n)

theorem rank_unique {i j : Name ω} (hij : rank i = rank j) : i = j := by
  cases i with
  | own i =>
    have hi := idxOf_lt i
    cases j with
    | own j =>
      have hidx : OwnNames.all.idxOf i = OwnNames.all.idxOf j := Nat.add_left_cancel hij
      rw [(List.idxOf_inj (OwnNames.mem_all i)).mp hidx]
    | _ => simp only [rank, firstCommon] at hij; omega
  | _ =>
    cases j with
    | own j =>
      have hj := idxOf_lt j
      simp only [rank, firstCommon] at hij
      omega
    | _ => first | rfl | (simp only [rank, firstCommon] at hij; omega)

instance : Options (Name ω) where
  text := textWith OwnNames.text
  kind := kind
  rank := rank
  rank_inj := rank_unique
  text_pos n := OwnNames.text_pos n (mem_all n)
  text_equals n := OwnNames.text_equals n (mem_all n)
  text_inj := OwnNames.text_inj _ (mem_all _) _ (mem_all _)
  text_unambiguous := OwnNames.text_unambiguous _ (mem_all _) _ (mem_all _)

end Name

/-! ## The steps of a program, on a command line of units -/

/-- A step of `parse_args` that scans for options. -/
inductive ScanStep (ν : Type) where
  /-- `_Z_CHECK_HELP` -/
  | help (s l : ν)
  /-- `_Z_PARSE_ARG` -/
  | arg (s l : ν)
  /-- `_Z_CHECK_FLAG` -/
  | flag (n : ν)
  /-- `parse_zenoh_json_list_config` -/
  | list (s l : ν)
  /-- `parse_zenoh_json_list_cfg` -/
  | pairs (n : ν)

section

variable {ν : Type} [Options ν] [DecidableEq ν]

/-- The names of the units that the step takes. -/
def ScanStep.names : ScanStep ν → List ν
  | help _ _ => []
  | arg s l | list s l => [s, l]
  | flag n | pairs n => [n]

/-- The units are what the step takes: it is given once, unless it may be
repeated, and a `--cfg` value has a colon. -/
def ScanStep.Fits (us : List (OptUnit ν)) : ScanStep ν → Prop
  | help _ _ | list _ _ => True
  | arg s l => Once [s, l] us
  | flag n => Once [n] us
  | pairs n => ∀ v ∈ valuesOf n us, colon ∈ v.bytes

instance (us : List (OptUnit ν)) : DecidablePred (ScanStep.Fits us)
  | .help _ _ | .list _ _ => isTrue trivial
  | .arg s l => inferInstanceAs (Decidable (Once [s, l] us))
  | .flag n => inferInstanceAs (Decidable (Once [n] us))
  | .pairs n => inferInstanceAs (Decidable (∀ v ∈ valuesOf n us, _))

/-- The scans of the step pass over no value that looks like the name they are
for. -/
def ScanStep.Sees (us : List (OptUnit ν)) : ScanStep ν → Prop
  | help s l => Clear s us ∧ Clear l us
  | arg s l => PairClear s l us
  | flag n => Clear n (ahead n us)
  | list s l => Clear s (without [s] us) ∧ Clear l (without [s, l] us)
  | pairs n => Clear n (without [n] us)

/-- The units that the steps leave. -/
def leftover : List (ScanStep ν) → List (OptUnit ν) → List (OptUnit ν)
  | [], us => us
  | s :: steps, us => leftover steps (without s.names us)

/-- No step passes over a value, written as an argument of its own, that looks
like one of its names. -/
def Unshadowed : List (ScanStep ν) → List (OptUnit ν) → Prop
  | [], _ => True
  | s :: steps, us => s.Sees us ∧ Unshadowed steps (without s.names us)

/-- The command lines that the steps accept. -/
structure Accepts (steps : List (ScanStep ν)) (us : List (OptUnit ν)) : Prop where
  fits : ∀ s ∈ steps, s.Fits us
  unshadowed : Unshadowed steps us

theorem accepts_iff {steps : List (ScanStep ν)} {us : List (OptUnit ν)} :
    Accepts steps us ↔ (∀ s ∈ steps, s.Fits us) ∧ Unshadowed steps us :=
  ⟨fun h => ⟨h.fits, h.unshadowed⟩, fun h => ⟨h.1, h.2⟩⟩

section

variable {n : ν} {ns ms : List ν} {us : List (OptUnit ν)}

theorem filter_named_without (h : ∀ n ∈ ns, n ∉ ms) :
    (without ms us).filter (named ns) = us.filter (named ns) := by
  rw [without, List.filter_filter]
  refine List.filter_congr fun u _ => ?_
  by_cases hu : u.name ∈ ns
  · simp [named, hu, h u.name hu]
  · simp [named, hu]

theorem given_without (h : ∀ n ∈ ns, n ∉ ms) : given ns (without ms us) = given ns us := by
  rw [given, given, ← List.head?_filter, ← List.head?_filter, filter_named_without h]

theorem once_without (h : ∀ n ∈ ns, n ∉ ms) : Once ns (without ms us) ↔ Once ns us := by
  rw [Once, Once, List.countP_eq_length_filter, List.countP_eq_length_filter, filter_named_without h]

theorem valuesOf_without (h : n ∉ ms) : valuesOf n (without ms us) = valuesOf n us := by
  rw [valuesOf, valuesOf, filter_named_without (by simpa using h)]

@[simp] theorem without_nil : without [] us = us := without_of_not_mem fun _ _ => List.not_mem_nil

theorem without_subset : without ns us ⊆ us := List.filter_subset_self _

theorem mem_leftover {steps : List (ScanStep ν)} {u : OptUnit ν} :
    u ∈ leftover steps us ↔ u ∈ us ∧ ∀ s ∈ steps, u.name ∉ s.names := by
  induction steps generalizing us with
  | nil => simp [leftover]
  | cons s steps ih => rw [leftover, ih, mem_without, List.forall_mem_cons, and_assoc]

/-- Where every name is that of a step, no unit is left. -/
theorem leftover_eq_nil {steps : List (ScanStep ν)} (h : ∀ u ∈ us, ∃ s ∈ steps, u.name ∈ s.names) :
    leftover steps us = [] := by
  refine List.eq_nil_iff_forall_not_mem.mpr fun u hu => ?_
  obtain ⟨hus, hnot⟩ := mem_leftover.mp hu
  obtain ⟨s, hs, hname⟩ := h u hus
  exact hnot s hs hname

end

/-- No value that is an argument of its own begins with `-`. -/
def Dashless (us : List (OptUnit ν)) : Prop :=
  ∀ u ∈ us, ∀ v, u.sepValue = some v → v.charAt 0 ≠ dash

theorem dash_of_recognises {opt a : CStr} (h : recognises opt a = true) : a.charAt 0 = dash := by
  unfold recognises at h
  split at h
  · simp only [Bool.and_eq_true, decide_eq_true_eq] at h
    exact h.2.1
  · simp only [Bool.and_eq_true, decide_eq_true_eq] at h
    exact h.1.2.2.2.1

omit [DecidableEq ν] in
theorem Dashless.subset {us vs : List (OptUnit ν)} (h : Dashless us) (hsub : vs ⊆ us) : Dashless vs :=
  fun u hu => h u (hsub hu)

omit [DecidableEq ν] in
theorem Dashless.clear {us : List (OptUnit ν)} (h : Dashless us) (n : ν) : Clear n us :=
  fun u hu v hv => Bool.eq_false_iff.mpr fun hr => h u hu v hv (dash_of_recognises hr)

theorem Dashless.sees {us : List (OptUnit ν)} (h : Dashless us) (s : ScanStep ν) : s.Sees us := by
  cases s with
  | help s l => exact ⟨h.clear s, h.clear l⟩
  | arg s l => exact ⟨(h.clear s).subset (ahead_subset _ _), fun _ => (h.clear l).subset (ahead_subset _ _)⟩
  | flag n => exact (h.clear n).subset (ahead_subset _ _)
  | list s l => exact ⟨(h.clear s).subset without_subset, (h.clear l).subset without_subset⟩
  | pairs n => exact (h.clear n).subset without_subset

/-- A value that does not begin with `-` looks like no name. -/
theorem Dashless.unshadowed {us : List (OptUnit ν)} (h : Dashless us) (steps : List (ScanStep ν)) :
    Unshadowed steps us := by
  induction steps generalizing us with
  | nil => trivial
  | cons s steps ih => exact ⟨h.sees s, ih (h.subset without_subset)⟩

end

/-! ## The steps for a program's own options -/

section

variable {ω : Type} [DecidableEq ω] [OwnNames ω] {α : Type} {r : Nat}

/-- `_Z_CHECK_HELP`, where no help is asked for. -/
theorem help_step : Mirrors (At (ν := Name ω) r) checkHelp (fun a x a' =>
    ((ScanStep.help Name.h Name.help).Fits a.units ∧ (ScanStep.help Name.h Name.help).Sees a.units) ∧
      some () = some x ∧ a' = ⟨without (ScanStep.help Name.h (Name.help (ω := ω))).names a.units, a.calls⟩)
    (At r) := by
  have hhelp : Mirrors (At r) checkHelp (fun (a : Line (Name ω)) _ a' =>
      (Clear .h a.units ∧ Clear .help a.units) ∧ a' = a) (At r) := checkHelp_mirrors rfl rfl rfl rfl
  refine hhelp.of_iff fun a x a' => ?_
  simp only [ScanStep.Fits, ScanStep.Sees, ScanStep.names, without_nil, true_and]

variable {s l n : ω}

/-- `_Z_PARSE_ARG` with a function that may exit. -/
theorem arg_step {func : CStr → Prog α} (conv : CStr → Option α) (err : CStr → Exit) (d : α)
    (hfunc : ∀ v, func v = (conv v).elim (throw (err v)) pure)
    (hs : rank (.own s : Name ω) = r) (hl : rank (.own l : Name ω) = r + 1)
    (hks : kind (.own s : Name ω) = .value) (hkl : kind (.own l : Name ω) = .value) :
    Mirrors (At (ν := Name ω) r) (parseArg (OwnNames.text s) (OwnNames.text l) func d) (fun a x a' =>
      ((ScanStep.arg (.own s) (.own l)).Fits a.units ∧ (ScanStep.arg (.own s) (.own l)).Sees a.units) ∧
        (given [.own s, .own l] a.units).elim (some d) conv = some x ∧
        a' = ⟨without (ScanStep.arg (.own s) (Name.own l)).names a.units, a.calls⟩) (At (r + 2)) := by
  have hfind := pairRel_once hs hl (findArg_pair (by omega) (by omega) hks hkl)
  have hpure : ∀ z : α, Mirrors (At (ν := Name ω) (r + 2)) (pure z : Prog α)
      (fun a x a' => some z = some x ∧ a' = a) (At (r + 2)) := fun z => (Mirrors.pure z).of_iff fun a x a' => by
    rw [pureRel, Option.some.injEq, eq_comm]
  refine (hfind.bind (Q := fun y a x a' => y.elim (some d) conv = some x ∧ a' = a) (U := At (r + 2))
    fun y => ?_).of_iff fun a x a' => ?_
  · cases y with
    | none => exact hpure d
    | some v =>
      simp only [hfunc, Option.elim_some]
      cases hv : conv v with
      | some z => exact hpure z
      | none => exact .throw _ _ fun a x a' h => by cases h.1
  simp only [thenRel, onceRel, ScanStep.Fits, ScanStep.Sees, ScanStep.names]
  constructor
  · rintro ⟨y, _, ⟨h, rfl, rfl⟩, hx, rfl⟩
    exact ⟨h, hx, rfl⟩
  · rintro ⟨h, hx, rfl⟩
    exact ⟨_, _, ⟨h, rfl, rfl⟩, hx, rfl⟩

/-- `_Z_CHECK_FLAG`. -/
theorem flag_step (hn : rank (.own n : Name ω) = r) (hk : kind (.own n : Name ω) = .flag) :
    Mirrors (At (ν := Name ω) r) (checkFlag (OwnNames.text n)) (fun a x a' =>
      ((ScanStep.flag (.own n)).Fits a.units ∧ (ScanStep.flag (.own n)).Sees a.units) ∧
        some (given [.own n] a.units).isSome = some x ∧
        a' = ⟨without (ScanStep.flag (Name.own n)).names a.units, a.calls⟩) (At (r + 1)) := by
  refine (checkFlag_mirrors hn hk).of_iff fun a x a' => ?_
  simp only [ScanStep.Fits, ScanStep.Sees, ScanStep.names, Option.some.injEq]
  rw [eq_comm (a := x)]

end

/-! ## `parse_zenoh_common_args` -/

section

variable {ω : Type} [DecidableEq ω] [OwnNames ω]

/-- The steps of `parse_zenoh_common_args`. -/
def commonSteps : List (ScanStep (Name ω)) :=
  [.arg .c .config, .arg .m .mode, .list .e .connect, .list .l .listen, .pairs .cfg, .flag .noMulticastScouting]

/-- The calls made for the options common to the examples. -/
def commonCalls (us : List (OptUnit (Name ω))) : List ConfigCall :=
  fileCalls (given [.c, .config] us) ++ modeCalls (given [.m, .mode] us) ++
    listCalls (lit "connect/endpoints") (valuesOf .e us ++ valuesOf .connect us) ++
    listCalls (lit "listen/endpoints") (valuesOf .l us ++ valuesOf .listen us) ++
    (valuesOf .cfg us).filterMap cfgCall ++ scoutingCalls (given [.noMulticastScouting] us)

/-- The units are accepted, the calls for them succeed, and both are taken. -/
def commonRel (api : ConfigApi) (a : Line (Name ω)) (_ : Unit) (a' : Line (Name ω)) : Prop :=
  Accepts commonSteps a.units ∧ api.Succeed a.calls (commonCalls a.units) ∧
    a' = ⟨leftover commonSteps a.units, a.calls ++ commonCalls a.units⟩

theorem parseZenohCommonArgs_mirrors (api : ConfigApi) : Mirrors (At (ν := Name ω) (Name.firstCommon ω))
    (parseZenohCommonArgs api) (commonRel (ω := ω) api) (At (Name.firstCommon ω + 10)) := by
  have hfile := parseConfigFile_mirrors (s := (.c : Name ω)) (l := .config) api rfl rfl rfl rfl rfl rfl
  have hmode := parseMode_mirrors (s := (.m : Name ω)) (l := .mode) api rfl rfl rfl rfl rfl rfl
  have hconnect := parseZenohJsonListConfig_mirrors (s := (.e : Name ω)) (l := .connect) api
    (lit "connect/endpoints") rfl rfl rfl rfl
  have hlisten := parseZenohJsonListConfig_mirrors (s := (.l : Name ω)) (l := .listen) api
    (lit "listen/endpoints") rfl rfl rfl rfl
  have hcfg := parseZenohJsonListCfg_mirrors (n := (.cfg : Name ω)) api rfl rfl
  have hscouting := parseNoMulticastScouting_mirrors (n := (.noMulticastScouting : Name ω)) api rfl rfl rfl
  have hsteps := hfile.bind fun _ => hmode.bind fun _ => hconnect.bind fun _ => hlisten.bind fun _ =>
    hcfg.bind fun _ => hscouting
  refine hsteps.of_iff fun a x a' => ?_
  -- each step has one result, and what it asks of its units is what they say
  simp only [thenRel, optionRel, listRel, pairsRel, scoutingRel, exists_and_left, exists_eq_left, and_assoc,
    exists_const]
  simp (disch := simp) only [once_without, given_without, valuesOf_without]
  simp only [commonRel, accepts_iff, commonSteps, List.forall_mem_cons, ScanStep.Fits, Unshadowed,
    ScanStep.Sees, leftover, ScanStep.names, commonCalls, ConfigApi.succeed_append, List.append_assoc,
    List.not_mem_nil, false_imp_iff, implies_true, and_true, true_and, and_assoc]
  constructor
  · rintro ⟨of, cf, sf, om, cm, sm, ce, cconnect, se, cl, clisten, sl, ccfg, colon, scfg, on, cn, sn, ha'⟩
    exact ⟨of, om, colon, on, cf, cm, ce, cconnect, cl, clisten, ccfg, cn, sf, sm, se, sl, scfg, sn, ha'⟩
  · rintro ⟨of, om, colon, on, cf, cm, ce, cconnect, cl, clisten, ccfg, cn, sf, sm, se, sl, scfg, sn, ha'⟩
    exact ⟨of, cf, sf, om, cm, sm, ce, cconnect, se, cl, clisten, sl, ccfg, colon, scfg, on, cn, sn, ha'⟩

/-! ## A whole `parse_args` -/

variable {α β : Type} {r r' : Nat}

/-- The names of the steps `T` are none of those of `s`. -/
abbrev Apart {ν : Type} (s : ScanStep ν) (T : List (ScanStep ν)) : Prop := ∀ t ∈ T, ∀ n ∈ t.names, n ∉ s.names

theorem ScanStep.fits_without {t : ScanStep (Name ω)} {ms : List (Name ω)} {us : List (OptUnit (Name ω))}
    (h : ∀ n ∈ t.names, n ∉ ms) : t.Fits (without ms us) ↔ t.Fits us := by
  cases t with
  | help i j => exact Iff.rfl
  | arg i j => exact once_without h
  | flag i => exact once_without h
  | list i j => exact Iff.rfl
  | pairs i => rw [Fits, Fits, valuesOf_without (h i List.mem_cons_self)]

/-- A step, and the steps behind it, which meet the units that it left. -/
theorem accepts_cons {s : ScanStep (Name ω)} {T : List (ScanStep (Name ω))} {us : List (OptUnit (Name ω))}
    (h : Apart s T) :
    Accepts (s :: T) us ↔ (s.Fits us ∧ s.Sees us) ∧ Accepts T (without s.names us) := by
  have hfits : (∀ t ∈ T, t.Fits us) ↔ ∀ t ∈ T, t.Fits (without s.names us) :=
    forall₂_congr fun t ht => (ScanStep.fits_without (h t ht)).symm
  rw [accepts_iff, accepts_iff, List.forall_mem_cons, hfits, Unshadowed]
  tauto

/-- The calls for the common options are the same without those of other names. -/
theorem commonCalls_without {ms : List (Name ω)} {us : List (OptUnit (Name ω))}
    (h : ∀ n ∈ Name.common, n ∉ ms) : commonCalls (without ms us) = commonCalls us := by
  simp only [Name.common, List.forall_mem_cons] at h
  obtain ⟨hc, hconfig, hm, hmode, he, hconnect, hl, hlisten, hcfg, hscouting, -⟩ := h
  simp only [commonCalls, valuesOf_without he, valuesOf_without hconnect, valuesOf_without hl,
    valuesOf_without hlisten, valuesOf_without hcfg]
  rw [given_without (by simp [hc, hconfig]), given_without (by simp [hm, hmode]),
    given_without (by simp [hscouting])]

/-- The units are accepted by the steps, which leave none, the calls for the
common options succeed, and `f` is read off the units. -/
def programRel (api : ConfigApi) (steps : List (ScanStep (Name ω))) (f : List (OptUnit (Name ω)) → Option α)
    (a : Line (Name ω)) (x : α) (a' : Line (Name ω)) : Prop :=
  Accepts steps a.units ∧ f a.units = some x ∧ api.Succeed a.calls (commonCalls a.units) ∧
    leftover steps a.units = [] ∧ a' = ⟨[], a.calls ++ commonCalls a.units⟩

/-- The end of every `parse_args`. -/
theorem programRel_common (api : ConfigApi) (x : α) : Mirrors (At (ν := Name ω) (Name.firstCommon ω))
    (do parseZenohCommonArgs api; checkNothingLeft; pure x) (programRel api commonSteps fun _ => some x)
    Done := by
  have hend := (parseZenohCommonArgs_mirrors (ω := ω) api).bind fun _ => checkNothingLeft_mirrors.bind
    fun _ => Mirrors.pure x
  refine hend.of_iff fun a y a' => ?_
  simp only [thenRel, commonRel, pureRel, programRel, Option.some.injEq]
  constructor
  · rintro ⟨-, _, ⟨hacc, hok, rfl⟩, -, _, ⟨hnil, rfl⟩, rfl, rfl⟩
    exact ⟨hacc, rfl, hok, hnil, congrArg (Line.mk · _) hnil⟩
  · rintro ⟨hacc, rfl, hok, hnil, rfl⟩
    exact ⟨(), _, ⟨hacc, hok, rfl⟩, (), _, ⟨hnil, rfl⟩, rfl, congrArg (Line.mk · _) hnil.symm⟩

/-- A step, and what follows it, which reads the units of other names. -/
theorem programRel_cons {api : ConfigApi} {s : ScanStep (Name ω)} {T : List (ScanStep (Name ω))} {p : Prog α}
    {q : α → Prog β} {f : List (OptUnit (Name ω)) → Option α} {g : α → List (OptUnit (Name ω)) → Option β}
    (hp : Mirrors (At r) p (fun a x a' => (s.Fits a.units ∧ s.Sees a.units) ∧ f a.units = some x ∧
      a' = ⟨without s.names a.units, a.calls⟩) (At r'))
    (hq : ∀ x, Mirrors (At r') (q x) (programRel api T (g x)) Done) (hapart : Apart s T)
    (hown : ∀ n ∈ Name.common, n ∉ s.names) (hg : ∀ x us, g x (without s.names us) = g x us) :
    Mirrors (At r) (p >>= q) (programRel api (s :: T) fun us => (f us).bind fun x => g x us) Done := by
  refine (hp.bind hq).of_iff fun a y a' => ?_
  simp only [thenRel, programRel, accepts_cons hapart, leftover, Option.bind_eq_some_iff]
  constructor
  · rintro ⟨x, _, ⟨hs, hx, rfl⟩, hT, hy, hok, hnil, rfl⟩
    rw [hg] at hy
    rw [commonCalls_without hown] at hok ⊢
    exact ⟨⟨hs, hT⟩, ⟨x, hx, hy⟩, hok, hnil, rfl⟩
  · rintro ⟨⟨hs, hT⟩, ⟨x, hx, hy⟩, hok, hnil, rfl⟩
    refine ⟨x, _, ⟨hs, hx, rfl⟩, hT, by rwa [hg], ?_, hnil, ?_⟩
    · rwa [commonCalls_without hown]
    · rw [commonCalls_without hown]

theorem programRel_help {api : ConfigApi} {T : List (ScanStep (Name ω))} {q : Prog β}
    {g : List (OptUnit (Name ω)) → Option β} (hq : Mirrors (At r) q (programRel api T g) Done) :
    Mirrors (At r) (checkHelp >>= fun _ => q) (programRel api (.help .h .help :: T) g) Done :=
  programRel_cons (f := fun _ => some ()) (g := fun _ => g) help_step (fun _ => hq)
    (fun _ _ _ _ => List.not_mem_nil) (fun _ _ => List.not_mem_nil)
    fun _ us => by rw [ScanStep.names, without_nil]

section

variable {s l n : ω} {api : ConfigApi} {T : List (ScanStep (Name ω))} {q : α → Prog β}
  {g : α → List (OptUnit (Name ω)) → Option β}

theorem programRel_arg {func : CStr → Prog α} (conv : CStr → Option α) (err : CStr → Exit) {d : α}
    (hq : ∀ x, Mirrors (At (r + 2)) (q x) (programRel api T (g x)) Done)
    (hfunc : ∀ v, func v = (conv v).elim (throw (err v)) pure)
    (hs : rank (.own s : Name ω) = r) (hl : rank (.own l : Name ω) = r + 1)
    (hks : kind (.own s : Name ω) = .value) (hkl : kind (.own l : Name ω) = .value)
    (hapart : Apart (.arg (.own s) (.own l)) T)
    (hg : ∀ x us, g x (without [.own s, .own l] us) = g x us) :
    Mirrors (At r) (parseArg (OwnNames.text s) (OwnNames.text l) func d >>= q)
      (programRel api (.arg (.own s) (.own l) :: T) fun us =>
        ((given [.own s, .own l] us).elim (some d) conv).bind fun x => g x us) Done :=
  programRel_cons (arg_step conv err d hfunc hs hl hks hkl) hq hapart (by simp [Name.common, ScanStep.names]) hg

/-- The same with a function that does not exit. -/
theorem programRel_conv {d : α} (conv : CStr → α)
    (hq : ∀ x, Mirrors (At (r + 2)) (q x) (programRel api T (g x)) Done)
    (hs : rank (.own s : Name ω) = r) (hl : rank (.own l : Name ω) = r + 1)
    (hks : kind (.own s : Name ω) = .value) (hkl : kind (.own l : Name ω) = .value)
    (hapart : Apart (.arg (.own s) (.own l)) T)
    (hg : ∀ x us, g x (without [.own s, .own l] us) = g x us) :
    Mirrors (At r) (parseArg (OwnNames.text s) (OwnNames.text l) (fun v => pure (conv v)) d >>= q)
      (programRel api (.arg (.own s) (.own l) :: T) fun us =>
        g (((given [.own s, .own l] us).map conv).getD d) us) Done := by
  have h := programRel_arg (fun v => some (conv v)) (fun _ => .help) (d := d) hq (fun _ => rfl) hs hl hks hkl
    hapart hg
  have hread : ∀ us : List (OptUnit (Name ω)), ((given [.own s, .own l] us).elim (some d) fun v => some (conv v)) =
      some (((given [.own s, .own l] us).map conv).getD d) := fun us => by
    cases given [.own s, .own l] us <;> rfl
  simpa only [hread, Option.bind_some, Option.elim_some] using h

/-- The same for a text. -/
theorem programRel_text {d : CStr} {q : CStr → Prog β} {g : CStr → List (OptUnit (Name ω)) → Option β}
    (hq : ∀ x, Mirrors (At (r + 2)) (q x) (programRel api T (g x)) Done)
    (hs : rank (.own s : Name ω) = r) (hl : rank (.own l : Name ω) = r + 1)
    (hks : kind (.own s : Name ω) = .value) (hkl : kind (.own l : Name ω) = .value)
    (hapart : Apart (.arg (.own s) (.own l)) T)
    (hg : ∀ x us, g x (without [.own s, .own l] us) = g x us) :
    Mirrors (At r) (parseArg (OwnNames.text s) (OwnNames.text l) pure d >>= q)
      (programRel api (.arg (.own s) (.own l) :: T) fun us => g ((given [.own s, .own l] us).getD d) us) Done := by
  have h := programRel_conv (d := d) id hq hs hl hks hkl hapart hg
  simpa only [Option.map_id, id_eq] using h

/-- The same with `NULL` for the default. -/
theorem programRel_str {q : Option CStr → Prog β} {g : Option CStr → List (OptUnit (Name ω)) → Option β}
    (hq : ∀ x, Mirrors (At (r + 2)) (q x) (programRel api T (g x)) Done)
    (hs : rank (.own s : Name ω) = r) (hl : rank (.own l : Name ω) = r + 1)
    (hks : kind (.own s : Name ω) = .value) (hkl : kind (.own l : Name ω) = .value)
    (hapart : Apart (.arg (.own s) (.own l)) T)
    (hg : ∀ x us, g x (without [.own s, .own l] us) = g x us) :
    Mirrors (At r) (parseStr (OwnNames.text s) (OwnNames.text l) >>= q)
      (programRel api (.arg (.own s) (.own l) :: T) fun us => g (given [.own s, .own l] us) us) Done := by
  have h := programRel_conv (d := none) some hq hs hl hks hkl hapart hg
  have hread : ∀ us : List (OptUnit (Name ω)), ((given [.own s, .own l] us).map some).getD none =
      given [.own s, .own l] us := fun us => by
    cases given [.own s, .own l] us <;> rfl
  simpa only [parseStr, hread] using h

theorem programRel_flag {q : Bool → Prog β} {g : Bool → List (OptUnit (Name ω)) → Option β}
    (hq : ∀ x, Mirrors (At (r + 1)) (q x) (programRel api T (g x)) Done)
    (hn : rank (.own n : Name ω) = r) (hk : kind (.own n : Name ω) = .flag)
    (hapart : Apart (.flag (.own n)) T) (hg : ∀ x us, g x (without [.own n] us) = g x us) :
    Mirrors (At r) (checkFlag (OwnNames.text n) >>= q)
      (programRel api (.flag (.own n) :: T) fun us => g (given [.own n] us).isSome us) Done :=
  programRel_cons (f := fun us => some (given [.own n] us).isSome) (flag_step hn hk) hq hapart
    (by simp [Name.common, ScanStep.names]) hg

end

/-- No unit is one of the help options. -/
theorem OptUnit.name_ne_help (u : OptUnit (Name ω)) : u.name ≠ .h ∧ u.name ≠ .help := by
  have hfits := u.fits
  constructor <;> intro hn <;> cases harg : u.arg <;> rw [harg, hn] at hfits
  · cases hfits
  · cases hfits.1
  · cases hfits.1
  · cases hfits
  · cases hfits.1
  · cases hfits.1

/-- The process as it starts, on a command line of units. -/
theorem at_start_units (prog : CStr) (us : List (OptUnit (Name ω))) :
    At 2 (.start (prog :: us.flatMap OptUnit.tokens)) ⟨us, []⟩ where
  tiled := .of_blocks us
  calls := rfl
  ranks u _ := by
    obtain ⟨hh, hhelp⟩ := u.name_ne_help
    cases hname : u.name with
    | h => exact absurd hname hh
    | help => exact absurd hname hhelp
    | _ => simp only [rank, Name.rank, Name.firstCommon]; omega

/-- A program returns exactly on the command lines of option units that the
steps accept, with what `argsOf` reads off the units, having made the calls for
the common options. -/
def ParsesExactly (parseArgs : ConfigApi → Prog α) (steps : List (ScanStep (Name ω)))
    (argsOf : List (OptUnit (Name ω)) → Option α) : Prop :=
  ∀ (api : ConfigApi) (prog : CStr) (args : List CStr) (x : α) (cs : List ConfigCall),
    (∃ σ', parseArgs api (.start (prog :: args)) = .ok x σ' ∧ σ'.calls = cs) ↔
      ∃ us, args = us.flatMap OptUnit.tokens ∧ Accepts steps us ∧ argsOf us = some x ∧
        api.Succeed [] (commonCalls us) ∧ cs = commonCalls us

theorem parsesExactly_of_mirrors {parseArgs : ConfigApi → Prog α} {steps : List (ScanStep (Name ω))}
    {argsOf : List (OptUnit (Name ω)) → Option α} (hcover : ∀ n : ω, ∃ s ∈ steps, .own n ∈ s.names)
    (hcommon : commonSteps ⊆ steps)
    (h : ∀ api, Mirrors (At 2) (parseArgs api) (programRel api steps argsOf) Done) :
    ParsesExactly parseArgs steps argsOf := by
  have hcovers : ∀ u : OptUnit (Name ω), ∃ s ∈ steps, u.name ∈ s.names := by
    intro u
    obtain ⟨hh, hhelp⟩ := u.name_ne_help
    have hstep : ∀ n : Name ω, n ∈ Name.common → ∃ s ∈ steps, n ∈ s.names := fun n hn => by
      have hin : ∃ s ∈ commonSteps (ω := ω), n ∈ s.names := by
        simp only [Name.common, List.mem_cons, List.not_mem_nil, or_false] at hn
        rcases hn with rfl | rfl | rfl | rfl | rfl | rfl | rfl | rfl | rfl | rfl <;>
          simp [commonSteps, ScanStep.names]
      obtain ⟨s, hs, hmem⟩ := hin
      exact ⟨s, hcommon hs, hmem⟩
    cases hname : u.name with
    | h => exact absurd hname hh
    | help => exact absurd hname hhelp
    | own n => exact hcover n
    | _ => exact hstep _ (by simp [Name.common])
  intro api prog args x cs
  constructor
  · rintro ⟨σ', hrun, rfl⟩
    have hdone : Done σ' (⟨[], σ'.calls⟩ : Line (Name ω)) := ⟨rfl, rfl⟩
    obtain ⟨⟨us, calls⟩, hat, hacc, hx, hok, -, ha'⟩ := (h api).back hrun hdone
    have hnone : [] = calls := hat.calls
    subst hnone
    exact ⟨us, hat.tiled.eq_blocks, hacc, hx, hok, congrArg Line.calls ha'⟩
  · rintro ⟨us, rfl, hacc, hx, hok, rfl⟩
    obtain ⟨σ', hrun, hdone⟩ := (h api).run (at_start_units prog us)
      ⟨hacc, hx, hok, leftover_eq_nil fun u _ => hcovers u, rfl⟩
    exact ⟨σ', hrun, hdone.calls⟩

end

end ZenohFlatC.Args
