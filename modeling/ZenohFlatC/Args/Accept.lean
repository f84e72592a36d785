import ZenohFlatC.Args.Examples

/-!
# The command lines that `z_queryable` accepts

`z_queryable`'s `parse_args` returns exactly on the command lines that are
option units, cut from left to right with nothing left over, that it accepts
(`Accepts`): an option is given once unless it may be repeated, a `--cfg` value
has a colon, and no scan meets a value that looks like its own name
(`Unshadowed`). What a scan meets is told here name by name; that this is what
the steps of the program meet is `unshadowed_iff_steps`. `parseArgs_ok_iff` is
`parsesExactly` for `Accepts`, with what `parse_args` returns (`argsOf`) and the
calls that it makes (`configCalls`).
-/

namespace ZenohFlatC.Args.Queryable

open CStr (lit)

/-- The names that `parse_args` scans for, in this order. -/
abbrev Opt := Name QueryableOpt

instance : DecidableEq Opt := inferInstanceAs (DecidableEq (Name QueryableOpt))

namespace Opt

@[match_pattern] abbrev h : Opt := Name.h
@[match_pattern] abbrev help : Opt := Name.help
@[match_pattern] abbrev k : Opt := .own .k
@[match_pattern] abbrev key : Opt := .own .key
@[match_pattern] abbrev p : Opt := .own .p
@[match_pattern] abbrev payload : Opt := .own .payload
@[match_pattern] abbrev complete : Opt := .own .complete
@[match_pattern] abbrev c : Opt := Name.c
@[match_pattern] abbrev config : Opt := Name.config
@[match_pattern] abbrev m : Opt := Name.m
@[match_pattern] abbrev mode : Opt := Name.mode
@[match_pattern] abbrev e : Opt := Name.e
@[match_pattern] abbrev connect : Opt := Name.connect
@[match_pattern] abbrev l : Opt := Name.l
@[match_pattern] abbrev listen : Opt := Name.listen
@[match_pattern] abbrev cfg : Opt := Name.cfg
@[match_pattern] abbrev noMulticastScouting : Opt := Name.noMulticastScouting

/-- All the names. -/
def all : List Opt := Name.allWith OwnNames.all

theorem mem_all (n : Opt) : n ∈ all := Name.mem_all n

/-- The short name of an option whose long name is scanned for only if the
short one was not found. -/
def shortOf : Opt → Option Opt
  | key => some k
  | payload => some p
  | config => some c
  | mode => some m
  | h | help | k | p | complete | c | m | e | connect | l | listen | cfg | noMulticastScouting => none

/-- The options that may be given once, with their names. -/
def once : List (List Opt) :=
  [[k, key], [p, payload], [complete], [c, config], [m, mode], [noMulticastScouting]]

/-- The options that may be repeated. -/
def repeated : List Opt := [e, connect, l, listen, cfg]

end Opt

/-- The units that the scans for `n` pass over: of a repeated option, all
others; otherwise those ahead of the first. -/
def passed (n : Opt) (us : List (OptUnit Opt)) : List (OptUnit Opt) :=
  if n ∈ Opt.repeated then without [n] us else ahead n us

theorem passed_remaining_subset (n : Opt) (us : List (OptUnit Opt)) : passed n (remaining n us) ⊆ us := by
  intro u hu
  unfold passed at hu
  split at hu
  · exact (List.mem_filter.mp (mem_without.mp hu).1).1
  · exact (List.mem_filter.mp (ahead_subset n _ hu)).1

/-- The program scans for `n`: it does not for a long name where it found the
short one, unless the option may be repeated. -/
def Scanned (n : Opt) (us : List (OptUnit Opt)) : Prop :=
  ∀ i ∈ n.shortOf, ∀ u ∈ us, u.name ≠ i

/-- The scans for `n` pass over no value that looks like `n`. -/
def Safe (n : Opt) (us : List (OptUnit Opt)) : Prop :=
  Scanned n us → Clear n (passed n (remaining n us))

/-- No scan passes over a value, written as an argument of its own, that looks
like the name it is for. -/
def Unshadowed (us : List (OptUnit Opt)) : Prop := ∀ n, Safe n us

/-- The command lines that `parse_args` accepts, if the configuration does. -/
structure Accepts (us : List (OptUnit Opt)) : Prop where
  once : ∀ ns ∈ Opt.once, Once ns us
  colon : ∀ v ∈ valuesOf .cfg us, colon ∈ v.bytes
  unshadowed : Unshadowed us

/-- The calls made for the configuration's file, the mode and the endpoints. -/
def sessionCalls (us : List (OptUnit Opt)) : List ConfigCall :=
  fileCalls (given [.c, .config] us) ++ modeCalls (given [.m, .mode] us) ++
    listCalls (lit "connect/endpoints") (valuesOf .e us ++ valuesOf .connect us) ++
    listCalls (lit "listen/endpoints") (valuesOf .l us ++ valuesOf .listen us)

/-- The calls made for the options common to the examples. -/
def configCalls (us : List (OptUnit Opt)) : List ConfigCall :=
  sessionCalls us ++ (valuesOf .cfg us).filterMap cfgCall ++ scoutingCalls (given [.noMulticastScouting] us)

/-! ## The scans in their order -/

section

variable (us : List (OptUnit Opt))

/-- The units left for the scans from `j` on, once those of some names are gone. -/
theorem remaining_next (i j : Opt) (ns : List Opt)
    (h : ∀ n ∈ Opt.all, rank j ≤ rank n ↔ rank i ≤ rank n ∧ n ∉ ns) :
    without ns (remaining i us) = remaining j us :=
  without_remaining us fun u _ => h u.name (Opt.mem_all _)

theorem remaining_first (i : Opt) (hi : ∀ n ∈ Opt.all, n ≠ .h → n ≠ .help → rank i ≤ rank n) :
    remaining i us = us := by
  refine List.filter_eq_self.mpr fun u _ => ?_
  exact decide_eq_true (hi u.name (Opt.mem_all _) u.name_ne_help.1 u.name_ne_help.2)

/-- The scans for the two names of an option that may be given once. -/
theorem pairClear_iff (i j : Opt) (hi : i.shortOf = none) (hj : j.shortOf = some i)
    (hir : i ∉ Opt.repeated) (hjr : j ∉ Opt.repeated) (hrank : rank j = rank i + 1) :
    PairClear i j (remaining i us) ↔ Safe i us ∧ Safe j us := by
  have hscanned : Scanned i us := by
    intro n hn
    rw [hi] at hn
    cases hn
  have hshort : Scanned j us ↔ ∀ u ∈ us, u.name ≠ i := by
    rw [Scanned, hj]
    simp
  have hnone : (∀ u ∈ remaining i us, u.name ≠ i) ↔ ∀ u ∈ us, u.name ≠ i := by
    constructor
    · intro h u hu hn
      exact h u (List.mem_filter.mpr ⟨hu, by simp [hn]⟩) hn
    · exact fun h u hu => h u (List.mem_filter.mp hu).1
  rw [PairClear, hnone, Safe, Safe, hshort, passed, if_neg hir, passed, if_neg hjr]
  refine and_congr ⟨fun h _ => h, fun h => h hscanned⟩ (forall_congr' fun hus => ?_)
  have hsame : remaining i us = remaining j us := by
    refine List.filter_congr fun u hu => ?_
    have hne : rank u.name ≠ rank i := fun e => hus u hu (rank_inj e)
    have : rank i ≤ rank u.name ↔ rank j ≤ rank u.name := by omega
    simp only [this]
  rw [hsame]

/-- The scan for an option with one name that may be given once. -/
theorem ahead_safe (i : Opt) (hi : i.shortOf = none) (hir : i ∉ Opt.repeated) :
    Clear i (ahead i (remaining i us)) ↔ Safe i us := by
  rw [Safe, passed, if_neg hir]
  refine ⟨fun h _ => h, fun h => h ?_⟩
  intro n hn
  rw [hi] at hn
  cases hn

/-- The scans for the help options, of which there is no unit. -/
theorem help_safe (i : Opt) (hi : i.shortOf = none) (hir : i ∉ Opt.repeated)
    (hrank : ∀ n ∈ Opt.all, n ≠ .h → n ≠ .help → rank i ≤ rank n) (hn : ∀ u ∈ us, u.name ≠ i) :
    Clear i us ↔ Safe i us := by
  have hsafe := ahead_safe us i hi hir
  rwa [remaining_first us i hrank, ahead_of_not_mem hn] at hsafe

/-- The scans for an option that may be repeated. -/
theorem without_safe (i : Opt) (hi : i.shortOf = none) (hir : i ∈ Opt.repeated) :
    Clear i (without [i] (remaining i us)) ↔ Safe i us := by
  rw [Safe, passed, if_pos hir]
  refine ⟨fun h _ => h, fun h => h ?_⟩
  intro n hn
  rw [hi] at hn
  cases hn

end

/-! ## The steps of the program -/

section

variable (us : List (OptUnit Opt))

theorem without_k : without [.k, .key] us = remaining .p us := by
  conv_lhs => rw [← remaining_first us .k (by decide)]
  exact remaining_next us .k .p _ (by decide)

theorem without_p : without [.p, .payload] (remaining .p us) = remaining .complete us :=
  remaining_next us _ _ _ (by decide)

theorem without_complete : without [.complete] (remaining .complete us) = remaining .c us :=
  remaining_next us _ _ _ (by decide)

theorem without_c : without [.c, .config] (remaining .c us) = remaining .m us :=
  remaining_next us _ _ _ (by decide)

theorem without_m : without [.m, .mode] (remaining .m us) = remaining .e us :=
  remaining_next us _ _ _ (by decide)

theorem without_e : without [.e, .connect] (remaining .e us) = remaining .l us :=
  remaining_next us _ _ _ (by decide)

theorem without_l : without [.l, .listen] (remaining .l us) = remaining .cfg us :=
  remaining_next us _ _ _ (by decide)

theorem without_cfg : without [.cfg] (remaining .cfg us) = remaining .noMulticastScouting us :=
  remaining_next us _ _ _ (by decide)

/-- What the scans pass over, in their order. -/
theorem unshadowed_iff : Unshadowed us ↔
    (Clear .h us ∧ Clear .help us) ∧ PairClear .k .key us ∧ PairClear .p .payload (remaining .p us) ∧
    Clear .complete (ahead .complete (remaining .complete us)) ∧
    PairClear .c .config (remaining .c us) ∧ PairClear .m .mode (remaining .m us) ∧
    (Clear .e (without [.e] (remaining .e us)) ∧ Clear .connect (remaining .l us)) ∧
    (Clear .l (without [.l] (remaining .l us)) ∧ Clear .listen (remaining .cfg us)) ∧
    Clear .cfg (remaining .noMulticastScouting us) ∧
    Clear .noMulticastScouting (ahead .noMulticastScouting (remaining .noMulticastScouting us)) := by
  have hk := pairClear_iff us .k .key rfl rfl (by decide) (by decide) rfl
  rw [remaining_first us .k (by decide)] at hk
  have hconnect := without_safe us .connect rfl (by decide)
  rw [remaining_next us .connect .l _ (by decide)] at hconnect
  have hlisten := without_safe us .listen rfl (by decide)
  rw [remaining_next us .listen .cfg _ (by decide)] at hlisten
  have hcfg := without_safe us .cfg rfl (by decide)
  rw [without_cfg] at hcfg
  rw [help_safe us .h rfl (by decide) (by decide) fun u _ => u.name_ne_help.1,
    help_safe us .help rfl (by decide) (by decide) fun u _ => u.name_ne_help.2, hk,
    pairClear_iff us .p .payload rfl rfl (by decide) (by decide) rfl,
    ahead_safe us .complete rfl (by decide),
    pairClear_iff us .c .config rfl rfl (by decide) (by decide) rfl,
    pairClear_iff us .m .mode rfl rfl (by decide) (by decide) rfl,
    without_safe us .e rfl (by decide), hconnect, without_safe us .l rfl (by decide), hlisten, hcfg,
    ahead_safe us .noMulticastScouting rfl (by decide)]
  constructor
  · intro h
    exact ⟨⟨h _, h _⟩, ⟨h _, h _⟩, ⟨h _, h _⟩, h _, ⟨h _, h _⟩, ⟨h _, h _⟩, ⟨h _, h _⟩, ⟨h _, h _⟩, h _, h _⟩
  · rintro ⟨⟨h1, h2⟩, ⟨h3, h4⟩, ⟨h5, h6⟩, h7, ⟨h8, h9⟩, ⟨h10, h11⟩, ⟨h12, h13⟩, ⟨h14, h15⟩, h16, h17⟩ n
    cases n with
    | own n => cases n <;> assumption
    | _ => assumption

theorem unshadowed_iff_steps : Unshadowed us ↔ Args.Unshadowed steps us := by
  rw [unshadowed_iff]
  simp only [steps, commonSteps, Args.Unshadowed, ScanStep.Sees, ScanStep.names, without_nil, without_k, without_p,
    without_complete, without_c, without_m, without_e, without_l, without_cfg, and_true]

theorem accepts_iff_steps : Accepts us ↔ Args.Accepts steps us := by
  have hfits : (∀ s ∈ steps, s.Fits us) ↔
      (∀ ns ∈ Opt.once, Once ns us) ∧ ∀ v ∈ valuesOf .cfg us, colon ∈ v.bytes := by
    simp only [steps, commonSteps, Opt.once, List.forall_mem_cons, ScanStep.Fits]
    tauto
  rw [Args.accepts_iff, hfits, ← unshadowed_iff_steps]
  exact ⟨fun h => ⟨⟨h.once, h.colon⟩, h.unshadowed⟩, fun h => ⟨h.1.1, h.1.2, h.2⟩⟩

end

/-- `parse_args` returns exactly on the command lines that it accepts, with
what they say, having made the calls they say. -/
theorem parseArgs_ok_iff (api : ConfigApi) (prog : CStr) (args : List CStr) (x : Args)
    (cs : List ConfigCall) :
    (∃ σ', parseArgs api (.start (prog :: args)) = .ok x σ' ∧ σ'.calls = cs) ↔
      ∃ us, args = us.flatMap OptUnit.tokens ∧ Accepts us ∧ api.Succeed [] (configCalls us) ∧
        x = argsOf us ∧ cs = configCalls us := by
  refine (parsesExactly api prog args x cs).trans (exists_congr fun us => ?_)
  rw [accepts_iff_steps us, Option.some.injEq, eq_comm (a := argsOf us)]
  exact ⟨fun ⟨h, hacc, hx, hok, hcs⟩ => ⟨h, hacc, hok, hx, hcs⟩,
    fun ⟨h, hacc, hok, hx, hcs⟩ => ⟨h, hacc, hx, hok, hcs⟩⟩

/-! ## Command lines without surprises -/

/-- A value that does not begin with `-` looks like no name. -/
theorem unshadowed_of_dashless {us : List (OptUnit Opt)} (h : Dashless us) : Unshadowed us :=
  fun n _ => (h.subset (passed_remaining_subset n us)).clear n

/-- Every command line of option units is parsed, in any order: with each
option given once that is not to be repeated, no value of its own that begins
with `-`, and a colon in each `--cfg` value, `parse_args` returns what the
units say, and makes the calls they say, in the order of the scans. -/
theorem parseArgs_complete (prog : CStr) (us : List (OptUnit Opt))
    (honce : ∀ ns ∈ Opt.once, Once ns us) (hdash : Dashless us) (hcolon : ∀ v ∈ valuesOf .cfg us, colon ∈ v.bytes) :
    ∃ σ', parseArgs .alwaysOk (.start (prog :: us.flatMap OptUnit.tokens)) = .ok (argsOf us) σ' ∧
      σ'.calls = configCalls us :=
  (parseArgs_ok_iff _ _ _ _ _).mpr ⟨us, rfl, ⟨honce, hcolon, unshadowed_of_dashless hdash⟩,
    ConfigApi.alwaysOk_succeed _ _, rfl, rfl⟩

/-- `--connect=b --complete -k "" -e a --cfg m:1` -/
theorem parseArgs_complete_five : ∃ σ',
    parseArgs .alwaysOk (.start [lit "z_queryable", lit "--connect=b", lit "--complete", lit "-k", lit "",
      lit "-e", lit "a", lit "--cfg", lit "m:1"]) = .ok ⟨lit "", defaultValue, true⟩ σ' ∧
    σ'.calls = [.default, .insertJson5 (lit "connect/endpoints") (lit "['a','b']"),
      .insertJson5 (lit "m") (lit "1")] := by
  let us : List (OptUnit Opt) := [⟨.connect, lit "", .inline (lit "b"), by decide, by decide⟩,
    ⟨.complete, lit "", .bare, by decide, by decide⟩, ⟨.k, lit "", .apart (lit ""), by decide, by decide⟩,
    ⟨.e, lit "", .apart (lit "a"), by decide, by decide⟩, ⟨.cfg, lit "", .apart (lit "m:1"), by decide, by decide⟩]
  have hdash : Dashless us := by
    simp [us, Dashless, OptUnit.sepValue]
    decide
  exact parseArgs_complete (lit "z_queryable") us (by decide) hdash (by decide)

end ZenohFlatC.Args.Queryable
