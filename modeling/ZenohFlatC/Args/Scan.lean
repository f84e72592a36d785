import ZenohFlatC.Args.Units

/-!
# Scans of a command line of units

What a scan for a name does to the units that `argv` holds (`Scan`): it takes
the first unit of that name, or none if there is none; and it passes over the
units ahead of that one, so none of their values may look like its name
(`Clear`). `parseOpt` mirrors it (`parseOpt_mirrors`), in both directions:
where a scan returned, and the units it left are known, so are the units it
began with.

From that: scans for an option that may be given once, under two names
(`pairScan_iff`), and the loop that takes all the units of a name
(`collect_scan_iff`) or of two (`collect_pairScan_iff`).
-/

namespace ZenohFlatC.Args

open CStr (lit)

variable {ν : Type} [Options ν]

/-- No value that is an argument of its own is recognised by the scan for `n`. -/
def Clear (n : ν) (us : List (OptUnit ν)) : Prop :=
  ∀ u ∈ us, ∀ v, u.sepValue = some v → recognises (text n) v = false

theorem Clear.subset {n : ν} {us vs : List (OptUnit ν)} (h : Clear n us) (hs : vs ⊆ us) : Clear n vs :=
  fun u hu => h u (hs hu)

theorem clear_append {n : ν} {us vs : List (OptUnit ν)} :
    Clear n (us ++ vs) ↔ Clear n us ∧ Clear n vs := List.forall_mem_append

/-- A scan for `n`: the units before it, its result, and the units left. -/
inductive Scan (n : ν) : List (OptUnit ν) → Option CStr → List (OptUnit ν) → Prop
  | absent {us : List (OptUnit ν)} (hn : ∀ u ∈ us, u.name ≠ n) (hc : Clear n us) : Scan n us none us
  | found {us vs : List (OptUnit ν)} {u : OptUnit ν} (hn : ∀ u ∈ us, u.name ≠ n) (hc : Clear n us)
      (hu : u.name = n) : Scan n (us ++ u :: vs) (some u.value) (us ++ vs)

/-- The slots that hold the units have none that `n` recognises. -/
theorem not_recognised_iff {n : ν} {S : List Slot} {us : List (OptUnit ν)}
    (h : Tiled OptUnit.tokens S us) : (∀ a, some a ∈ S → recognises (text n) a = false) ↔
      (∀ u ∈ us, u.name ≠ n) ∧ Clear n us := by
  constructor
  · intro hS
    have hmem : ∀ u ∈ us, ∀ a ∈ u.tokens, recognises (text n) a = false :=
      fun u hu a ha => hS a (h.mem_iff.mpr ⟨u, hu, ha⟩)
    refine ⟨fun u hu hn => ?_, fun u hu v hv => ?_⟩
    · have := hmem u hu u.token List.mem_cons_self
      rw [(recognises_token n u).mpr hn] at this
      cases this
    · exact hmem u hu v (List.mem_cons_of_mem _ (Option.mem_toList.mpr hv))
  · rintro ⟨hn, hc⟩ a ha
    obtain ⟨u, hu, hua⟩ := h.mem_iff.mp ha
    rcases List.mem_cons.mp hua with rfl | hv
    · exact Bool.eq_false_iff.mpr fun hr => hn u hu ((recognises_token n u).mp hr)
    · exact hc u hu a (Option.mem_toList.mp hv)

/-- A scan, run on slots that hold the units. -/
theorem Scan.run {n : ν} {us us' : List (OptUnit ν)} {x : Option CStr} (hs : Scan n us x us')
    {S : List Slot} (h : Tiled OptUnit.tokens S us) :
    ∃ S', parseOptFrom (text n) (takesValue n) S = .ok (x, S') ∧ Tiled OptUnit.tokens S' us' := by
  cases hs with
  | absent hn hc => exact ⟨S, parseOptFrom_none ((not_recognised_iff h).mpr ⟨hn, hc⟩), h⟩
  | @found us vs u hn hc hu =>
    subst hu
    obtain ⟨S₁, S₂, rfl, h₁, h₂⟩ := h.split
    refine ⟨S₁ ++ (List.replicate u.tokens.length none ++ S₂), ?_, h₁.remove h₂ _⟩
    have hrec : recognises (text u.name) u.token = true := (recognises_token _ u).mpr rfl
    show parseOptFrom _ _ (S₁ ++ some u.token :: (u.sepValue.toList.map some ++ S₂)) = _
    rw [parseOptFrom_hit _ ((not_recognised_iff h₁).mpr ⟨hn, hc⟩) hrec, hit_token]
    rfl

/-- A scan that returned, read backwards: the units it began with. -/
theorem Scan.back {n : ν} {S S' : List Slot} {x : Option CStr} (hk : kind n = .help → x = none)
    (hrun : parseOptFrom (text n) (takesValue n) S = .ok (x, S')) {us' : List (OptUnit ν)}
    (h : Tiled OptUnit.tokens S' us') : ∃ us, Tiled OptUnit.tokens S us ∧ Scan n us x us' := by
  rcases parseOptFrom_ok hrun with ⟨rfl, rfl, hn⟩ | ⟨S₁, a, S₂, value, T, rfl, hn, ha, hT, rfl, rfl⟩
  · obtain ⟨hname, hclear⟩ := (not_recognised_iff h).mp hn
    exact ⟨us', h, .absent hname hclear⟩
  · have hk : kind n ≠ .help := fun e => by cases hk e
    obtain ⟨u, S₃, rfl, rfl, hS, rfl⟩ := unit_of_hit hk ha hT
    have hpos : 0 < u.tokens.length := Nat.succ_pos _
    obtain ⟨us, vs, rfl, h₁, h₂⟩ := h.insert u hpos
    obtain ⟨hname, hclear⟩ := (not_recognised_iff h₁).mp hn
    rw [hS]
    exact ⟨us ++ u :: vs, h₂, .found hname hclear rfl⟩

theorem Scan.mem_before {n : ν} {us us' : List (OptUnit ν)} {x : Option CStr} (hs : Scan n us x us')
    {u : OptUnit ν} (hu : u ∈ us) : u ∈ us' ∨ u.name = n := by
  cases hs with
  | absent => exact .inl hu
  | found _ _ hname =>
    rw [List.mem_append, List.mem_cons] at hu
    rw [List.mem_append]
    rcases hu with hu | rfl | hu
    · exact .inl (.inl hu)
    · exact .inr hname
    · exact .inl (.inr hu)

theorem Scan.subset {n : ν} {us us' : List (OptUnit ν)} {x : Option CStr} (hs : Scan n us x us') :
    us' ⊆ us := by
  cases hs with
  | absent => exact List.Subset.refl _
  | found => intro u hu; simp only [List.mem_append, List.mem_cons] at hu ⊢; tauto

/-! ## Scans in sequence -/

/-- The scans of `_Z_PARSE_ARG`: for the short name and, if there is none,
for the long one. -/
def PairScan (s l : ν) (us : List (OptUnit ν)) (x : Option CStr) (us' : List (OptUnit ν)) : Prop :=
  (∃ v, x = some v ∧ Scan s us (some v) us') ∨ (Scan s us none us ∧ Scan l us x us')

/-- A scan made until it returns `NULL`: the units before, the values, and the
units left. -/
inductive Collect (R : List (OptUnit ν) → Option CStr → List (OptUnit ν) → Prop) :
    List (OptUnit ν) → List CStr → List (OptUnit ν) → Prop
  | stop {us us' : List (OptUnit ν)} (h : R us none us') : Collect R us [] us'
  | more {us us₁ us' : List (OptUnit ν)} {v : CStr} {vs : List CStr} (h : R us (some v) us₁)
      (hs : Collect R us₁ vs us') : Collect R us (v :: vs) us'

/-- With no unit of the short name left, the scans for two names are scans for
the long one. -/
theorem collect_pairScan_long {s l : ν} {us us' : List (OptUnit ν)} {vs : List CStr}
    (hs : ∀ u ∈ us, u.name ≠ s) (hc : Clear s us) :
    Collect (PairScan s l) us vs us' ↔ Collect (Scan l) us vs us' := by
  constructor
  · intro h
    induction h with
    | @stop us us' h =>
      rcases h with ⟨v, h, -⟩ | ⟨-, h⟩
      · cases h
      · exact .stop h
    | @more us us₁ us' v vs h _ ih =>
      rcases h with ⟨w, -, h⟩ | ⟨-, h⟩
      · cases h with
        | found _ _ hu => exact absurd hu (hs _ (by simp))
      · have hsub := h.subset
        exact .more h (ih (fun u hu => hs u (hsub hu)) (hc.subset hsub))
  · intro h
    induction h with
    | stop h => exact .stop (.inr ⟨.absent hs hc, h⟩)
    | more h _ ih =>
      have hsub := h.subset
      exact .more (.inr ⟨.absent hs hc, h⟩) (ih (fun u hu => hs u (hsub hu)) (hc.subset hsub))

/-- The scans for two names are all those for the first, then all those for
the second. -/
theorem collect_pairScan {s l : ν} {us us' : List (OptUnit ν)} {vs : List CStr} :
    Collect (PairScan s l) us vs us' ↔ ∃ vs₁ us₁ vs₂, Collect (Scan s) us vs₁ us₁ ∧
      Collect (Scan l) us₁ vs₂ us' ∧ vs = vs₁ ++ vs₂ := by
  constructor
  · intro h
    induction h with
    | @stop us us' h =>
      rcases h with ⟨v, h, -⟩ | ⟨hs, hl⟩
      · cases h
      · exact ⟨[], us, [], .stop hs, .stop hl, rfl⟩
    | @more us us₁ us' v vs h hrest ih =>
      rcases h with ⟨w, e, h⟩ | ⟨hs, hl⟩
      · cases e
        obtain ⟨vs₁, us₂, vs₂, h₁, h₂, rfl⟩ := ih
        exact ⟨v :: vs₁, us₂, vs₂, .more h h₁, h₂, rfl⟩
      · have hscan := hs
        cases hs with
        | absent hn hc =>
          have hsub := hl.subset
          rw [collect_pairScan_long (fun u hu => hn u (hsub hu)) (hc.subset hsub)] at hrest
          exact ⟨[], us, v :: vs, .stop hscan, .more hl hrest, rfl⟩
  · rintro ⟨vs₁, us₁, vs₂, h₁, h₂, rfl⟩
    induction h₁ with
    | stop h =>
      cases h with
      | absent hn hc => exact (collect_pairScan_long hn hc).mpr h₂
    | more h _ ih => exact .more (.inl ⟨_, rfl, h⟩) (ih h₂)

/-! ## Units by their names -/

section

variable [DecidableEq ν]

/-- The unit has one of the names. -/
def named (ns : List ν) (u : OptUnit ν) : Bool := u.name ∈ ns

/-- The units ahead of the first one that is named so. -/
def ahead (n : ν) (us : List (OptUnit ν)) : List (OptUnit ν) := us.takeWhile (!named [n] ·)

/-- The value of the first unit that is named so. -/
def given (ns : List ν) (us : List (OptUnit ν)) : Option CStr := (us.find? (named ns)).map OptUnit.value

/-- The values of the units that are named so, in order. -/
def valuesOf (n : ν) (us : List (OptUnit ν)) : List CStr := (us.filter (named [n])).map OptUnit.value

/-- The units that are not named so. -/
def without (ns : List ν) (us : List (OptUnit ν)) : List (OptUnit ν) := us.filter (!named ns ·)

/-- At most one unit is named so. -/
def Once (ns : List ν) (us : List (OptUnit ν)) : Prop := us.countP (named ns) ≤ 1

instance (ns : List ν) (us : List (OptUnit ν)) : Decidable (Once ns us) :=
  inferInstanceAs (Decidable (_ ≤ 1))

@[simp] theorem named_eq_true {ns : List ν} {u : OptUnit ν} : named ns u = true ↔ u.name ∈ ns :=
  decide_eq_true_iff

@[simp] theorem named_eq_false {ns : List ν} {u : OptUnit ν} : named ns u = false ↔ u.name ∉ ns :=
  decide_eq_false_iff_not

theorem mem_without {ns : List ν} {us : List (OptUnit ν)} {u : OptUnit ν} :
    u ∈ without ns us ↔ u ∈ us ∧ u.name ∉ ns := by simp [without]

theorem ahead_subset (n : ν) (us : List (OptUnit ν)) : ahead n us ⊆ us :=
  (List.takeWhile_prefix _).subset

/-- Either no unit has the name, or there is a first one that has it. -/
theorem first_named (n : ν) (us : List (OptUnit ν)) : (∀ u ∈ us, u.name ≠ n) ∨
    ∃ vs u ws, us = vs ++ u :: ws ∧ (∀ v ∈ vs, v.name ≠ n) ∧ u.name = n := by
  induction us with
  | nil => exact .inl (by simp)
  | cons u us ih =>
    by_cases hu : u.name = n
    · exact .inr ⟨[], u, us, rfl, by simp, hu⟩
    · rcases ih with h | ⟨vs, w, ws, rfl, h, hw⟩
      · exact .inl (List.forall_mem_cons.mpr ⟨hu, h⟩)
      · exact .inr ⟨u :: vs, w, ws, rfl, List.forall_mem_cons.mpr ⟨hu, h⟩, hw⟩

section

variable {n : ν} {ns : List ν} {us vs : List (OptUnit ν)} {u : OptUnit ν}

theorem ahead_of_not_mem (h : ∀ u ∈ us, u.name ≠ n) : ahead n us = us :=
  List.takeWhile_eq_self_iff.mpr fun u hu => by simpa using h u hu

theorem ahead_first (h : ∀ u ∈ us, u.name ≠ n) (hu : u.name = n) : ahead n (us ++ u :: vs) = us := by
  rw [ahead, List.takeWhile_append_of_pos fun u hu => by simpa using h u hu,
    List.takeWhile_cons_of_neg (by simpa using hu), List.append_nil]

theorem given_of_not_mem (h : ∀ u ∈ us, u.name ∉ ns) : given ns us = none := by
  rw [given, List.find?_eq_none.mpr fun u hu => by simpa using h u hu, Option.map_none]

theorem given_first (h : ∀ u ∈ us, u.name ∉ ns) (hu : u.name ∈ ns) :
    given ns (us ++ u :: vs) = some u.value := by
  rw [given, List.find?_append, List.find?_eq_none.mpr fun u hu => by simpa using h u hu,
    Option.none_or, List.find?_cons_of_pos (by simpa using hu), Option.map_some]

theorem valuesOf_of_not_mem (h : ∀ u ∈ us, u.name ≠ n) : valuesOf n us = [] := by
  rw [valuesOf, List.filter_eq_nil_iff.mpr fun u hu => by simpa using h u hu, List.map_nil]

theorem valuesOf_append : valuesOf n (us ++ vs) = valuesOf n us ++ valuesOf n vs := by
  rw [valuesOf, List.filter_append, List.map_append, valuesOf, valuesOf]

theorem valuesOf_first (h : ∀ u ∈ us, u.name ≠ n) (hu : u.name = n) :
    valuesOf n (us ++ u :: vs) = u.value :: valuesOf n (us ++ vs) := by
  have htail : valuesOf n (u :: vs) = u.value :: valuesOf n vs := by
    rw [valuesOf, List.filter_cons_of_pos (by simpa using hu), List.map_cons, valuesOf]
  rw [valuesOf_append, valuesOf_append, valuesOf_of_not_mem h, htail, List.nil_append, List.nil_append]

theorem without_of_not_mem (h : ∀ u ∈ us, u.name ∉ ns) : without ns us = us :=
  List.filter_eq_self.mpr fun u hu => by simpa using h u hu

theorem without_append : without ns (us ++ vs) = without ns us ++ without ns vs :=
  List.filter_append ..

theorem without_first (hu : u.name ∈ ns) : without ns (us ++ u :: vs) = without ns (us ++ vs) := by
  have htail : without ns (u :: vs) = without ns vs := List.filter_cons_of_neg (by simpa using hu)
  rw [without_append, without_append, htail]

theorem once_of_not_mem (h : ∀ u ∈ us, u.name ∉ ns) : Once ns us := by
  rw [Once, List.countP_eq_zero.mpr fun u hu => by simpa using h u hu]
  exact Nat.zero_le 1

/-- With at most one unit named so, and here it is, the others are not. -/
theorem once_first (hu : u.name ∈ ns) : Once ns (us ++ u :: vs) ↔ ∀ u ∈ us ++ vs, u.name ∉ ns := by
  have hcount : (us ++ u :: vs).countP (named ns) = (us ++ vs).countP (named ns) + 1 := by
    rw [List.countP_append, List.countP_cons_of_pos (by simpa using hu), List.countP_append]
    omega
  have hone : Once ns (us ++ u :: vs) ↔ (us ++ vs).countP (named ns) = 0 := by
    rw [Once, hcount]
    omega
  rw [hone, List.countP_eq_zero]
  simp only [named_eq_true]

end

/-! ## Options that may be given once -/

/-- The scans pass over no value that looks like one of the names. -/
def PairClear (s l : ν) (us : List (OptUnit ν)) : Prop :=
  Clear s (ahead s us) ∧ ((∀ u ∈ us, u.name ≠ s) → Clear l (ahead l us))

/-- The scans for an option under its two names leave none of it exactly if it
is given once at most; then they return its value, if it is given. -/
theorem pairScan_iff {s l : ν} {us us' : List (OptUnit ν)} {x : Option CStr} :
    PairScan s l us x us' ∧ (∀ u ∈ us', u.name ∉ [s, l]) ↔
      Once [s, l] us ∧ PairClear s l us ∧ x = given [s, l] us ∧ us' = without [s, l] us := by
  have hs : s ∈ [s, l] := List.mem_cons_self
  have hl : l ∈ [s, l] := by simp
  constructor
  · rintro ⟨⟨v, rfl, hscan⟩ | ⟨hnone, hscan⟩, hleft⟩
    · cases hscan with
      | @found us vs u hn hc hu =>
        have hmem : u.name ∈ [s, l] := hu ▸ hs
        have hus : ∀ u ∈ us, u.name ∉ [s, l] := fun u hu => hleft u (List.mem_append_left _ hu)
        refine ⟨(once_first hmem).mpr hleft, ⟨?_, fun h => absurd hu (h u (by simp))⟩,
          (given_first hus hmem).symm, ?_⟩
        · rwa [ahead_first hn hu]
        · rw [without_first hmem, without_of_not_mem hleft]
    · cases hnone with
      | absent hns hcs =>
        cases hscan with
        | absent hnl hcl =>
          refine ⟨once_of_not_mem hleft, ⟨?_, fun _ => ?_⟩, (given_of_not_mem hleft).symm,
            (without_of_not_mem hleft).symm⟩
          · rwa [ahead_of_not_mem hns]
          · rwa [ahead_of_not_mem hnl]
        | @found us vs u hn hc hu =>
          have hmem : u.name ∈ [s, l] := hu ▸ hl
          have hus : ∀ u ∈ us, u.name ∉ [s, l] := fun u hu => hleft u (List.mem_append_left _ hu)
          refine ⟨(once_first hmem).mpr hleft, ⟨?_, fun _ => ?_⟩, (given_first hus hmem).symm, ?_⟩
          · rwa [ahead_of_not_mem hns]
          · rwa [ahead_first hn hu]
          · rw [without_first hmem, without_of_not_mem hleft]
  · rintro ⟨honce, ⟨hcs, hcl⟩, rfl, rfl⟩
    refine ⟨?_, fun u hu => (mem_without.mp hu).2⟩
    rcases first_named s us with hns | ⟨vs, u, ws, rfl, hn, hu⟩
    · rw [ahead_of_not_mem hns] at hcs
      have hcl := hcl hns
      refine .inr ⟨.absent hns hcs, ?_⟩
      rcases first_named l us with hnl | ⟨vs, u, ws, rfl, hn, hu⟩
      · have hleft : ∀ u ∈ us, u.name ∉ [s, l] := fun u hu => by simp [hns u hu, hnl u hu]
        rw [ahead_of_not_mem hnl] at hcl
        rw [given_of_not_mem hleft, without_of_not_mem hleft]
        exact .absent hnl hcl
      · have hmem : u.name ∈ [s, l] := hu ▸ hl
        have hleft := (once_first hmem).mp honce
        rw [ahead_first hn hu] at hcl
        rw [given_first (fun u hu => hleft u (List.mem_append_left _ hu)) hmem, without_first hmem,
          without_of_not_mem hleft]
        exact .found hn hcl hu
    · have hmem : u.name ∈ [s, l] := hu ▸ hs
      have hleft := (once_first hmem).mp honce
      rw [ahead_first hn hu] at hcs
      rw [given_first (fun u hu => hleft u (List.mem_append_left _ hu)) hmem, without_first hmem,
        without_of_not_mem hleft]
      exact .inl ⟨_, rfl, .found hn hcs hu⟩

/-- The same for an option with one name. -/
theorem scan_iff {n : ν} {us us' : List (OptUnit ν)} {x : Option CStr} :
    Scan n us x us' ∧ (∀ u ∈ us', u.name ∉ [n]) ↔
      Once [n] us ∧ Clear n (ahead n us) ∧ x = given [n] us ∧ us' = without [n] us := by
  have hnamed : named [n, n] = named (ν := ν) [n] := by
    funext u
    simp [named]
  have hscan : PairScan n n us x us' ↔ Scan n us x us' := by
    constructor
    · rintro (⟨v, rfl, h⟩ | ⟨-, h⟩) <;> exact h
    · intro h
      cases h with
      | absent hn hc => exact .inr ⟨.absent hn hc, .absent hn hc⟩
      | found hn hc hu => exact .inl ⟨_, rfl, .found hn hc hu⟩
  have hclear : PairClear n n us ↔ Clear n (ahead n us) := ⟨And.left, fun h => ⟨h, fun _ => h⟩⟩
  have hpair : PairScan n n us x us' ∧ (∀ u ∈ us', u.name ∉ [n, n]) ↔
      Once [n, n] us ∧ PairClear n n us ∧ x = given [n, n] us ∧ us' = without [n, n] us := pairScan_iff
  rw [hscan, hclear, Once, given, without, hnamed, ← Once, ← given, ← without] at hpair
  simpa only [List.mem_cons, List.not_mem_nil, or_self, or_false] using hpair

/-! ## Options that may be repeated -/

/-- A scan takes the first of the values, and passes over units of other names. -/
theorem scan_first {n : ν} {us : List (OptUnit ν)} (hc : Clear n (without [n] us)) {v : CStr}
    {vs : List CStr} (hv : valuesOf n us = v :: vs) : ∃ us', Scan n us (some v) us' ∧
      valuesOf n us' = vs ∧ without [n] us' = without [n] us := by
  rcases first_named n us with hn | ⟨ws, u, xs, rfl, hn, hu⟩
  · rw [valuesOf_of_not_mem hn] at hv
    cases hv
  · have hmem : u.name ∈ [n] := by simpa using hu
    have hws : ∀ u ∈ ws, u.name ∉ [n] := fun u hu => by simpa using hn u hu
    rw [valuesOf_first hn hu] at hv
    obtain ⟨rfl, rfl⟩ := List.cons_eq_cons.mp hv
    have hcw : Clear n ws := by
      rw [without_first hmem, without_append, clear_append, without_of_not_mem hws] at hc
      exact hc.1
    exact ⟨ws ++ xs, .found hn hcw hu, rfl, (without_first hmem).symm⟩

theorem collect_scan (n : ν) {us : List (OptUnit ν)} (hc : Clear n (without [n] us)) :
    Collect (Scan n) us (valuesOf n us) (without [n] us) := by
  generalize hvs : valuesOf n us = vs
  induction vs generalizing us with
  | nil =>
    have hn : ∀ u ∈ us, u.name ≠ n := by
      intro u hu hname
      have hmem : u.value ∈ valuesOf n us :=
        List.mem_map_of_mem (List.mem_filter.mpr ⟨hu, by simpa using hname⟩)
      rw [hvs] at hmem
      cases hmem
    have hleft : ∀ u ∈ us, u.name ∉ [n] := fun u hu => by simpa using hn u hu
    rw [without_of_not_mem hleft] at hc ⊢
    exact .stop (.absent hn hc)
  | cons v vs ih =>
    obtain ⟨us', hscan, hvs', hleft⟩ := scan_first hc hvs
    rw [← hleft] at hc ⊢
    exact .more hscan (ih hc hvs')

/-- The scans for one name take all its units, and pass over all others. -/
theorem collect_scan_iff {n : ν} {us us' : List (OptUnit ν)} {vs : List CStr} :
    Collect (Scan n) us vs us' ↔
      Clear n (without [n] us) ∧ vs = valuesOf n us ∧ us' = without [n] us := by
  constructor
  · intro h
    induction h with
    | @stop us us' h =>
      cases h with
      | absent hn hc =>
        have hleft : ∀ u ∈ us, u.name ∉ [n] := fun u hu => by simpa using hn u hu
        rw [without_of_not_mem hleft]
        exact ⟨hc, (valuesOf_of_not_mem hn).symm, rfl⟩
    | more h _ ih =>
      cases h with
      | @found us ws u hn hc hu =>
        obtain ⟨hclear, rfl, rfl⟩ := ih
        have hmem : u.name ∈ [n] := by simpa using hu
        exact ⟨by rwa [without_first hmem], (valuesOf_first hn hu).symm, (without_first hmem).symm⟩
  · rintro ⟨hc, rfl, rfl⟩
    exact collect_scan n hc

/-- The scans for two names take all the units of the first, then all those of
the second. -/
theorem collect_pairScan_iff {s l : ν} (hsl : s ≠ l) {us us' : List (OptUnit ν)} {vs : List CStr} :
    Collect (PairScan s l) us vs us' ↔
      Clear s (without [s] us) ∧ Clear l (without [s, l] us) ∧
        vs = valuesOf s us ++ valuesOf l us ∧ us' = without [s, l] us := by
  have hwithout : without [l] (without [s] us) = without [s, l] us := by
    simp only [without, List.filter_filter]
    congr 1
    funext u
    simp [named, Bool.and_comm]
  have hvalues : valuesOf l (without [s] us) = valuesOf l us := by
    simp only [valuesOf, without, List.filter_filter]
    congr 2
    funext u
    by_cases hu : u.name = l <;> simp [named, hu, hsl.symm]
  simp only [collect_pairScan, collect_scan_iff]
  constructor
  · rintro ⟨_, _, _, ⟨hs, rfl, rfl⟩, ⟨hl, rfl, rfl⟩, rfl⟩
    rw [hwithout] at hl ⊢
    rw [hvalues]
    exact ⟨hs, hl, rfl, rfl⟩
  · rintro ⟨hs, hl, rfl, rfl⟩
    exact ⟨_, _, _, ⟨hs, rfl, rfl⟩, ⟨by rwa [hwithout], rfl, hwithout.symm⟩, by rw [hvalues]⟩

/-! ## The units that a scan meets -/

/-- The units left when the program scans for `n`. -/
def remaining (n : ν) (us : List (OptUnit ν)) : List (OptUnit ν) :=
  us.filter fun u => rank n ≤ rank u.name

section

variable {n : ν} {ns : List ν} (us : List (OptUnit ν))

theorem filter_named_remaining (h : ∀ m ∈ ns, rank n ≤ rank m) :
    (remaining n us).filter (named ns) = us.filter (named ns) := by
  rw [remaining, List.filter_filter]
  refine List.filter_congr fun u _ => ?_
  by_cases hu : u.name ∈ ns
  · simp [h u.name hu]
  · simp [named, hu]

theorem given_remaining (h : ∀ m ∈ ns, rank n ≤ rank m) : given ns (remaining n us) = given ns us := by
  rw [given, given, ← List.head?_filter, ← List.head?_filter, filter_named_remaining us h]

theorem once_remaining (h : ∀ m ∈ ns, rank n ≤ rank m) : Once ns (remaining n us) ↔ Once ns us := by
  rw [Once, Once, List.countP_eq_length_filter, List.countP_eq_length_filter,
    filter_named_remaining us h]

theorem valuesOf_remaining {m : ν} (h : rank n ≤ rank m) : valuesOf m (remaining n us) = valuesOf m us := by
  rw [valuesOf, valuesOf, filter_named_remaining us (by simpa using h)]

/-- The units left without those of some names are those left for a later scan. -/
theorem without_remaining {m : ν} (h : ∀ u ∈ us, rank m ≤ rank u.name ↔ rank n ≤ rank u.name ∧ u.name ∉ ns) :
    without ns (remaining n us) = remaining m us := by
  rw [without, remaining, List.filter_filter, remaining]
  refine List.filter_congr fun u hu => ?_
  have := h u hu
  by_cases hm : rank m ≤ rank u.name <;> simp [named, hm] <;> grind

end

end

end ZenohFlatC.Args
