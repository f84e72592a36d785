import ZenohFlatC.Args.JsonList
import ZenohFlatC.Args.Scan

/-!
# The steps of `parse_args` on a command line of units

What each step of `parse_args` does to the units left on the command line and
to the calls made on the configuration (`Line`), in both directions
(`Mirrors`). Names are scanned for in the order of their ranks: before a step
`argv` holds units whose ranks are `r` or more (`At r`), and after it those of
its names are gone.
-/

namespace ZenohFlatC.Args

open CStr (lit)

variable {ν : Type} [Options ν]

/-- The units left on the command line, and the calls made. -/
structure Line (ν : Type) [Options ν] where
  units : List (OptUnit ν)
  calls : List ConfigCall

/-- The process whose `argv` holds the units, all of rank `r` or more. -/
structure At (r : Nat) (σ : Proc) (a : Line ν) : Prop where
  tiled : Tiled OptUnit.tokens (σ.argv.drop 1) a.units
  calls : σ.calls = a.calls
  ranks : ∀ u ∈ a.units, r ≤ rank u.name

theorem At.log {r : Nat} {σ : Proc} {a : Line ν} (h : At r σ a) (ws : List Access) : At r (σ.log ws) a :=
  ⟨h.tiled, h.calls, h.ranks⟩

theorem At.of_log {r : Nat} {σ : Proc} {a : Line ν} {ws : List Access} (h : At r (σ.log ws) a) :
    At r σ a :=
  ⟨h.tiled, h.calls, h.ranks⟩

/-- The units are no more than the slots they are in. -/
theorem At.length_le {r : Nat} {σ : Proc} {a : Line ν} (h : At r σ a) :
    a.units.length ≤ σ.argv.length := by
  have hle := h.tiled.length_le fun u => List.cons_ne_nil _ _
  rw [List.length_drop] at hle
  omega

/-! ## `parse_opt` -/

/-- A scan for `n`. -/
def scanRel (n : ν) (a : Line ν) (x : Option CStr) (a' : Line ν) : Prop :=
  Scan n a.units x a'.units ∧ a'.calls = a.calls

/-- `parse_opt` scans the slots behind the program's name. -/
theorem parseOpt_ok_iff {opt : CStr} {optHasValue : Bool} {σ σ' : Proc} {x : Option CStr} :
    parseOpt opt optHasValue σ = .ok x σ' ↔
      ∃ S', parseOptFrom opt optHasValue (σ.argv.drop 1) = .ok (x, S') ∧
        σ' = { σ with argv := σ.argv.take 1 ++ S' } := by
  obtain ⟨argv, calls, accesses⟩ := σ
  cases argv with
  | nil =>
    constructor
    · intro h
      cases h
      exact ⟨[], rfl, rfl⟩
    · rintro ⟨S', h, rfl⟩
      cases h
      rfl
  | cons prog args =>
    simp only [parseOpt, List.drop_one, List.tail_cons]
    cases parseOptFrom opt optHasValue args with
    | error e => simp
    | ok res =>
      constructor
      · intro h
        cases h
        exact ⟨res.2, rfl, rfl⟩
      · rintro ⟨S', h, rfl⟩
        cases h
        rfl

/-- The slots after a scan, behind the program's name. -/
theorem drop_take_append {α : Type} {l S : List α} (h : l.drop 1 = [] → S = []) :
    (l.take 1 ++ S).drop 1 = S := by
  cases l with
  | nil => rw [h rfl]; rfl
  | cons x l => rfl

theorem parseOptFrom_length {opt : CStr} {optHasValue : Bool} {S S' : List Slot} {x : Option CStr}
    (h : parseOptFrom opt optHasValue S = .ok (x, S')) : S = [] → S' = [] := by
  rintro rfl
  cases h
  rfl

/-- `parse_opt` does a scan, and nothing else. -/
theorem parseOpt_mirrors {r : Nat} {n : ν} (hr : r ≤ rank n) (hk : kind n ≠ .help) :
    Mirrors (At r) (parseOpt (text n) (takesValue n)) (scanRel n) (At r) where
  run := by
    intro σ a a' x h hscan
    obtain ⟨hscan, hcalls⟩ := hscan
    obtain ⟨S', hrun, htiled⟩ := hscan.run h.tiled
    refine ⟨_, parseOpt_ok_iff.mpr ⟨S', hrun, rfl⟩, ?_, ?_, fun u hu => h.ranks u (hscan.subset hu)⟩
    · rwa [drop_take_append (parseOptFrom_length hrun)]
    · rw [hcalls, ← h.calls]
  back := by
    intro σ σ' a' x e h
    obtain ⟨S', hrun, rfl⟩ := parseOpt_ok_iff.mp e
    have htiled' := h.tiled
    rw [drop_take_append (parseOptFrom_length hrun)] at htiled'
    obtain ⟨us, htiled, hscan⟩ := Scan.back (fun e => absurd e hk) hrun htiled'
    refine ⟨⟨us, σ.calls⟩, ⟨htiled, rfl, fun u hu => ?_⟩, hscan, h.calls.symm⟩
    rcases hscan.mem_before hu with hu | hu
    · exact h.ranks u hu
    · exact hu ▸ hr

/-- The scan for a name that exits where it is found: no value may look like it. -/
theorem parseOpt_help {r : Nat} {n : ν} (hk : kind n = .help) {σ : Proc} {a : Line ν} (h : At r σ a) :
    parseOpt (text n) false σ = .ok none σ ↔ Clear n a.units := by
  have hnames : ∀ u ∈ a.units, u.name ≠ n := by
    rintro u - rfl
    have hfits := u.fits
    cases harg : u.arg <;> rw [harg] at hfits <;> simp only [Arg.Fits, hk] at hfits
    · cases hfits
    · cases hfits.1
    · cases hfits.1
  have hcells := not_recognised_iff (n := n) h.tiled
  rw [parseOpt_ok_iff]
  constructor
  · rintro ⟨S', hrun, -⟩
    rcases parseOptFrom_ok hrun with ⟨-, -, hn⟩ | ⟨_, _, _, _, _, _, _, _, _, e, _⟩
    · exact (hcells.mp hn).2
    · cases e
  · intro hc
    refine ⟨σ.argv.drop 1, parseOptFrom_none (hcells.mpr ⟨hnames, hc⟩), ?_⟩
    rw [List.take_append_drop]

theorem parseOpt_none {opt : CStr} {optHasValue : Bool} {σ σ' : Proc}
    (h : parseOpt opt optHasValue σ = .ok none σ') : σ' = σ := by
  obtain ⟨S', hrun, rfl⟩ := parseOpt_ok_iff.mp h
  rcases parseOptFrom_ok hrun with ⟨-, rfl, -⟩ | ⟨_, _, _, _, _, _, _, _, _, e, _⟩
  · rw [List.take_append_drop]
  · cases e

/-! ## The macros -/

/-- `_Z_CHECK_HELP`, where no help is asked for. -/
theorem checkHelp_mirrors {r : Nat} {h help : ν} (hh : text h = lit "h") (hhelp : text help = lit "help")
    (hk : kind h = .help) (hk' : kind help = .help) : Mirrors (At r) checkHelp
      (fun (a : Line ν) _ a' => (Clear h a.units ∧ Clear help a.units) ∧ a' = a) (At r) where
  run := by
    rintro σ a a' x hat ⟨⟨hc, hc'⟩, rfl⟩
    have e := (parseOpt_help hk hat).mpr hc
    have e' := (parseOpt_help hk' hat).mpr hc'
    rw [hh] at e
    rw [hhelp] at e'
    exact ⟨σ, (bind_of_ok e).trans (bind_of_ok e'), hat⟩
  back := by
    intro σ σ' a' x hrun hat
    obtain ⟨y, σ₁, e, hrun₁⟩ := bind_ok_iff.mp hrun
    cases y with
    | some _ => cases hrun₁
    | none =>
      obtain rfl := parseOpt_none e
      obtain ⟨y, σ₂, e', hrun₂⟩ := bind_ok_iff.mp hrun₁
      cases y with
      | some _ => cases hrun₂
      | none =>
        obtain rfl := parseOpt_none e'
        obtain ⟨-, rfl⟩ := pure_ok_iff.mp hrun₂
        rw [← hh] at e
        rw [← hhelp] at e'
        exact ⟨a', hat, ⟨(parseOpt_help hk hat).mp e, (parseOpt_help hk' hat).mp e'⟩, rfl⟩

/-- The scans of `_Z_PARSE_ARG`. -/
def pairRel (s l : ν) (a : Line ν) (x : Option CStr) (a' : Line ν) : Prop :=
  PairScan s l a.units x a'.units ∧ a'.calls = a.calls

theorem findArg_pair {r : Nat} {s l : ν} (hs : r ≤ rank s) (hl : r ≤ rank l) (hks : kind s = .value)
    (hkl : kind l = .value) : Mirrors (At r) (findArg (text s) (text l)) (pairRel s l) (At r) := by
  have hscan : ∀ n : ν, r ≤ rank n → kind n = .value →
      Mirrors (At r) (parseOpt (text n) true) (scanRel n) (At r) := fun n hr hk => by
    have htakes : takesValue n = true := decide_eq_true hk
    rw [← htakes]
    exact parseOpt_mirrors hr (by rw [hk]; decide)
  refine ((hscan s hs hks).bind (Q := fun y => y.elim (scanRel l) fun v => pureRel (some v))
    (U := At r) fun y => ?_).congr (fun _ _ h => h) ?_ ?_
  · cases y with
    | none => exact hscan l hl hkl
    | some v => exact .pure _
  · rintro σ a x a' - ⟨⟨v, rfl, h⟩ | ⟨hnone, h⟩, hcalls⟩
    · exact ⟨⟨some v, a', ⟨h, hcalls⟩, rfl, rfl⟩, fun _ h => h⟩
    · exact ⟨⟨none, a, ⟨hnone, rfl⟩, h, hcalls⟩, fun _ h => h⟩
  · rintro σ σ' a x a' - - ⟨y, a₁, ⟨h, hcalls⟩, hrest⟩
    cases y with
    | none =>
      obtain ⟨hscan, hcalls'⟩ := hrest
      have hsame : a₁ = a := by
        obtain ⟨us, calls⟩ := a
        obtain ⟨us₁, calls₁⟩ := a₁
        cases hcalls
        cases h
        rfl
      subst hsame
      exact ⟨.inr ⟨h, hscan⟩, hcalls'⟩
    | some v =>
      obtain ⟨rfl, rfl⟩ := hrest
      exact ⟨.inl ⟨v, rfl, h⟩, hcalls⟩

/-- `_Z_PARSE_ARG` with `NULL` for its default. -/
theorem parseStr_pair {r : Nat} {s l : ν} (hs : r ≤ rank s) (hl : r ≤ rank l)
    (hks : kind s = .value) (hkl : kind l = .value) :
    Mirrors (At r) (parseStr (text s) (text l)) (pairRel s l) (At r) := by
  rw [parseStr_findArg]
  exact findArg_pair hs hl hks hkl

/-! ## Options that may be given once -/

section

variable {r : Nat} {s l n : ν}

/-- The units of rank `r` or more without those of ranks `r` and `r + 1`. -/
theorem At.without_pair (hs : rank s = r) (hl : rank l = r + 1) {σ : Proc} {a : Line ν} :
    At (r + 2) σ a ↔ At r σ a ∧ ∀ u ∈ a.units, u.name ∉ [s, l] := by
  constructor
  · intro h
    refine ⟨⟨h.tiled, h.calls, fun u hu => Nat.le_trans (Nat.le_add_right r 2) (h.ranks u hu)⟩,
      fun u hu hmem => ?_⟩
    have := h.ranks u hu
    simp only [List.mem_cons, List.not_mem_nil, or_false] at hmem
    rcases hmem with e | e <;> rw [e] at this <;> omega
  · rintro ⟨h, hnot⟩
    refine ⟨h.tiled, h.calls, fun u hu => ?_⟩
    have hr := h.ranks u hu
    have hne := hnot u hu
    simp only [List.mem_cons, List.not_mem_nil, or_false, not_or] at hne
    have hne1 : rank u.name ≠ r := fun e => hne.1 (rank_inj (e.trans hs.symm))
    have hne2 : rank u.name ≠ r + 1 := fun e => hne.2 (rank_inj (e.trans hl.symm))
    omega

/-- The units of rank `r` or more without those of rank `r`. -/
theorem At.without_one (hn : rank n = r) {σ : Proc} {a : Line ν} :
    At (r + 1) σ a ↔ At r σ a ∧ ∀ u ∈ a.units, u.name ∉ [n] := by
  constructor
  · intro h
    refine ⟨⟨h.tiled, h.calls, fun u hu => Nat.le_trans (Nat.le_add_right r 1) (h.ranks u hu)⟩,
      fun u hu hmem => ?_⟩
    have := h.ranks u hu
    rw [List.mem_singleton.mp hmem] at this
    omega
  · rintro ⟨h, hnot⟩
    refine ⟨h.tiled, h.calls, fun u hu => ?_⟩
    have hr := h.ranks u hu
    have hne : rank u.name ≠ r := fun e => hnot u hu (by simpa using rank_inj (e.trans hn.symm))
    omega

variable [DecidableEq ν]

/-- An option that is given once at most, taken with the units of its names. -/
def onceRel (s l : ν) (a : Line ν) (x : Option CStr) (a' : Line ν) : Prop :=
  (Once [s, l] a.units ∧ PairClear s l a.units) ∧ x = given [s, l] a.units ∧
    a' = ⟨without [s, l] a.units, a.calls⟩

/-- The scans leave none of the units exactly where the option was given once. -/
theorem pairRel_once (hs : rank s = r) (hl : rank l = r + 1) {p : Prog (Option CStr)}
    (hp : Mirrors (At r) p (pairRel s l) (At r)) : Mirrors (At r) p (onceRel s l) (At (r + 2)) := by
  refine hp.congr (fun σ a h => ((At.without_pair hs hl).mp h).1) ?_ ?_
  · rintro σ a x a' - ⟨⟨honce, hclear⟩, hx, rfl⟩
    obtain ⟨hpair, hleft⟩ := pairScan_iff.mpr ⟨honce, hclear, hx, rfl⟩
    exact ⟨⟨hpair, rfl⟩, fun σ' h => (At.without_pair hs hl).mpr ⟨h, hleft⟩⟩
  · rintro σ σ' a x a' - h' ⟨hpair, hcalls⟩
    obtain ⟨honce, hclear, hx, hus⟩ := pairScan_iff.mp ⟨hpair, ((At.without_pair hs hl).mp h').2⟩
    refine ⟨⟨honce, hclear⟩, hx, ?_⟩
    rw [← hus, ← hcalls]

/-- `_Z_PARSE_ARG` with a default. -/
theorem parseArg_mirrors (hs : rank s = r) (hl : rank l = r + 1) (hks : kind s = .value)
    (hkl : kind l = .value) (d : CStr) : Mirrors (At r) (parseArg (text s) (text l) pure d)
      (fun a x a' => (Once [s, l] a.units ∧ PairClear s l a.units) ∧
        x = (given [s, l] a.units).getD d ∧ a' = ⟨without [s, l] a.units, a.calls⟩) (At (r + 2)) := by
  have hfind := pairRel_once hs hl (findArg_pair (by omega) (by omega) hks hkl)
  refine (hfind.bind (Q := fun y => pureRel (y.getD d)) (U := At (r + 2)) fun y => ?_).congr
    (fun _ _ h => h) ?_ ?_
  · cases y <;> exact .pure _
  · rintro σ a x a' - ⟨h, rfl, rfl⟩
    exact ⟨⟨_, _, ⟨h, rfl, rfl⟩, rfl, rfl⟩, fun _ h => h⟩
  · rintro σ σ' a x a' - - ⟨y, a₁, ⟨h, rfl, rfl⟩, rfl, rfl⟩
    exact ⟨h, rfl, rfl⟩

/-- `_Z_CHECK_FLAG`. -/
theorem checkFlag_mirrors (hn : rank n = r) (hk : kind n = .flag) : Mirrors (At r) (checkFlag (text n))
      (fun a x a' => (Once [n] a.units ∧ Clear n (ahead n a.units)) ∧
        x = (given [n] a.units).isSome ∧ a' = ⟨without [n] a.units, a.calls⟩) (At (r + 1)) := by
  have hscan : Mirrors (At r) (parseOpt (text n) false) (scanRel n) (At r) := by
    have htakes : takesValue n = false := by rw [takesValue, hk]; rfl
    rw [← htakes]
    exact parseOpt_mirrors (by omega) (by rw [hk]; decide)
  refine (hscan.bind (Q := fun y => pureRel y.isSome) (U := At r) fun y => .pure _).congr
    (fun σ a h => ((At.without_one hn).mp h).1) ?_ ?_
  · rintro σ a x a' - ⟨⟨honce, hclear⟩, rfl, rfl⟩
    obtain ⟨hscan, hleft⟩ := scan_iff.mpr ⟨honce, hclear, rfl, rfl⟩
    exact ⟨⟨_, ⟨_, a.calls⟩, ⟨hscan, rfl⟩, rfl, rfl⟩, fun σ' h => (At.without_one hn).mpr ⟨h, hleft⟩⟩
  · rintro σ σ' a x a' - h' ⟨y, a₁, ⟨hscan, hcalls⟩, rfl, rfl⟩
    obtain ⟨honce, hclear, rfl, hus⟩ := scan_iff.mp ⟨hscan, ((At.without_one hn).mp h').2⟩
    refine ⟨⟨honce, hclear⟩, rfl, ?_⟩
    rw [← hus, ← hcalls]

end

end ZenohFlatC.Args
