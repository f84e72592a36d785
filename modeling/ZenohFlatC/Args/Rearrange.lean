import ZenohFlatC.Args.Render

/-!
# Command lines that say the same

The options of a command line may stand in any order, and an option may be
spelled in any way (`-k v`, `--key v`, `--key=v`). What counts is which values
each scan takes, and in which order (`ScanStep.values`): those of the repeated
`-e` come before those of `--connect`, wherever they stand.

`rearranged_examples`: of two command lines that give each scan the same values
`parse_args` returns the same, having made the same calls, or returns on none
of them, as long as no value that is an argument of its own begins with `-`.
-/

set_option linter.dupNamespace false

namespace ZenohFlatC.Args

open CStr (lit)

section

variable {ν : Type} [Options ν] [DecidableEq ν]

/-- The values that a step takes, in the order in which it takes them. -/
def ScanStep.values (us : List (OptUnit ν)) : ScanStep ν → List CStr
  | help _ _ => []
  | arg s l => (us.filter (named [s, l])).map OptUnit.value
  | flag n | pairs n => valuesOf n us
  | list s l => valuesOf s us ++ valuesOf l us

/-- The steps take the same values. -/
def SameValues (steps : List (ScanStep ν)) (us vs : List (OptUnit ν)) : Prop :=
  ∀ s ∈ steps, s.values us = s.values vs

instance (steps : List (ScanStep ν)) (us vs : List (OptUnit ν)) : Decidable (SameValues steps us vs) :=
  inferInstanceAs (Decidable (∀ s ∈ steps, _ = _))

theorem once_congr {ns : List ν} {us vs : List (OptUnit ν)}
    (h : (us.filter (named ns)).map OptUnit.value = (vs.filter (named ns)).map OptUnit.value) :
    Once ns us ↔ Once ns vs := by
  have hlen := congrArg List.length h
  rw [List.length_map, List.length_map] at hlen
  rw [once_iff_length, once_iff_length, hlen]

theorem ScanStep.fits_congr {s : ScanStep ν} {us vs : List (OptUnit ν)} (h : s.values us = s.values vs) :
    s.Fits us ↔ s.Fits vs := by
  cases s with
  | help s l => exact Iff.rfl
  | arg s l => exact once_congr h
  | flag n => exact once_congr h
  | list s l => exact Iff.rfl
  | pairs n =>
    show (∀ v ∈ valuesOf n us, colon ∈ v.bytes) ↔ ∀ v ∈ valuesOf n vs, colon ∈ v.bytes
    rw [show valuesOf n us = valuesOf n vs from h]

namespace SameValues

variable {steps : List (ScanStep ν)} {us vs : List (OptUnit ν)} {s l n : ν}

theorem symm (h : SameValues steps us vs) : SameValues steps vs us := fun s hs => (h s hs).symm

theorem subset {steps' : List (ScanStep ν)} (h : SameValues steps us vs) (hsub : steps' ⊆ steps) :
    SameValues steps' us vs := fun s hs => h s (hsub hs)

theorem given_arg (h : SameValues steps us vs) (hs : .arg s l ∈ steps) : given [s, l] us = given [s, l] vs := by
  rw [given_eq_head, given_eq_head, show List.map _ _ = _ from h _ hs]
  rfl

theorem given_flag (h : SameValues steps us vs) (hs : .flag n ∈ steps) : given [n] us = given [n] vs := by
  rw [given_eq_head, given_eq_head, show List.map _ _ = _ from h _ hs]
  rfl

theorem list (h : SameValues steps us vs) (hs : .list s l ∈ steps) :
    valuesOf s us ++ valuesOf l us = valuesOf s vs ++ valuesOf l vs := h _ hs

theorem pairs (h : SameValues steps us vs) (hs : .pairs n ∈ steps) : valuesOf n us = valuesOf n vs := h _ hs

/-- The steps accept both command lines, or none of them. -/
theorem accepts (h : SameValues steps us vs) (hvs : Dashless vs) (hacc : Accepts steps us) : Accepts steps vs where
  fits s hs := (ScanStep.fits_congr (h s hs)).mp (hacc.fits s hs)
  unshadowed := hvs.unshadowed steps

end SameValues

end

section

variable {ω : Type} [DecidableEq ω] [OwnNames ω] {α : Type}

theorem SameValues.commonCalls {us vs : List (OptUnit (Name ω))} (h : SameValues commonSteps us vs) :
    Args.commonCalls us = Args.commonCalls vs := by
  unfold Args.commonCalls
  rw [h.given_arg (s := .c) (l := .config) (by simp [commonSteps]),
    h.given_arg (s := .m) (l := .mode) (by simp [commonSteps]),
    h.list (s := .e) (l := .connect) (by simp [commonSteps]),
    h.list (s := .l) (l := .listen) (by simp [commonSteps]),
    h.pairs (n := .cfg) (by simp [commonSteps]), h.given_flag (n := .noMulticastScouting) (by simp [commonSteps])]

/-- What `parse_args` returns, and the calls it makes, are told by the values
that the steps take. -/
def OrderFree (parseArgs : ConfigApi → Prog α) (steps : List (ScanStep (Name ω))) : Prop :=
  ∀ (api : ConfigApi) (prog prog' : CStr) (us vs : List (OptUnit (Name ω))), Dashless us → Dashless vs →
    SameValues steps us vs → ∀ (x : α) (cs : List ConfigCall),
    (∃ σ', parseArgs api (.start (prog :: us.flatMap OptUnit.tokens)) = .ok x σ' ∧ σ'.calls = cs) ↔
      ∃ σ', parseArgs api (.start (prog' :: vs.flatMap OptUnit.tokens)) = .ok x σ' ∧ σ'.calls = cs

theorem orderFree_of_parsesExactly {parseArgs : ConfigApi → Prog α} {steps : List (ScanStep (Name ω))}
    {argsOf : List (OptUnit (Name ω)) → Option α} (h : ParsesExactly parseArgs steps argsOf)
    (hcommon : commonSteps ⊆ steps)
    (hargs : ∀ us vs, SameValues steps us vs → argsOf us = argsOf vs) : OrderFree parseArgs steps := by
  have himp : ∀ (api : ConfigApi) (prog prog' : CStr) (us vs : List (OptUnit (Name ω))), Dashless vs →
      SameValues steps us vs → ∀ (x : α) (cs : List ConfigCall),
      (∃ σ', parseArgs api (.start (prog :: us.flatMap OptUnit.tokens)) = .ok x σ' ∧ σ'.calls = cs) →
        ∃ σ', parseArgs api (.start (prog' :: vs.flatMap OptUnit.tokens)) = .ok x σ' ∧ σ'.calls = cs := by
    intro api prog prog' us vs hvs hsame x cs hrun
    obtain ⟨us', hus, hacc, hx, hok, hcs⟩ := (h api prog _ x cs).mp hrun
    obtain rfl := units_inj hus
    have hcalls := (hsame.subset hcommon).commonCalls
    refine (h api prog' _ x cs).mpr ⟨vs, rfl, hsame.accepts hvs hacc, ?_, ?_, ?_⟩
    · rw [← hargs us vs hsame, hx]
    · rw [← hcalls]
      exact hok
    · rw [hcs, hcalls]
  intro api prog prog' us vs hus hvs hsame x cs
  exact ⟨himp api prog prog' us vs hvs hsame x cs, himp api prog' prog vs us hus hsame.symm x cs⟩

end

/-! ## The programs -/

theorem Put.orderFree : OrderFree Put.parseArgs Put.steps := by
  refine orderFree_of_parsesExactly Put.parsesExactly (fun s hs => by simp [Put.steps, hs]) fun us vs h => ?_
  unfold Put.argsOf
  rw [h.given_arg (s := .own .k) (l := .own .key) (by simp [Put.steps]),
    h.given_arg (s := .own .p) (l := .own .payload) (by simp [Put.steps])]

theorem Delete.orderFree : OrderFree Delete.parseArgs Delete.steps := by
  refine orderFree_of_parsesExactly Delete.parsesExactly (fun s hs => by simp [Delete.steps, hs])
    fun us vs h => ?_
  unfold Delete.argsOf
  rw [h.given_arg (s := .own .k) (l := .own .key) (by simp [Delete.steps])]

theorem Pub.orderFree : OrderFree Pub.parseArgs Pub.steps := by
  refine orderFree_of_parsesExactly Pub.parsesExactly (fun s hs => by simp [Pub.steps, hs]) fun us vs h => ?_
  unfold Pub.argsOf
  rw [h.given_arg (s := .own .k) (l := .own .key) (by simp [Pub.steps]),
    h.given_arg (s := .own .p) (l := .own .payload) (by simp [Pub.steps]),
    h.given_arg (s := .own .a) (l := .own .attach) (by simp [Pub.steps]),
    h.given_flag (n := .own .addMatchingListener) (by simp [Pub.steps])]

theorem Sub.orderFree : OrderFree Sub.parseArgs Sub.steps := by
  refine orderFree_of_parsesExactly Sub.parsesExactly (fun s hs => by simp [Sub.steps, hs]) fun us vs h => ?_
  unfold Sub.argsOf
  rw [h.given_arg (s := .own .k) (l := .own .key) (by simp [Sub.steps])]

theorem Queryable.orderFree : OrderFree Queryable.parseArgs Queryable.steps := by
  refine orderFree_of_parsesExactly Queryable.parsesExactly (fun s hs => by simp [Queryable.steps, hs])
    fun us vs h => ?_
  unfold Queryable.argsOf
  rw [h.given_arg (s := .own .k) (l := .own .key) (by simp [Queryable.steps]),
    h.given_arg (s := .own .p) (l := .own .payload) (by simp [Queryable.steps]),
    h.given_flag (n := .own .complete) (by simp [Queryable.steps])]

theorem Info.orderFree : OrderFree Info.parseArgs Info.steps :=
  orderFree_of_parsesExactly Info.parsesExactly (fun s hs => by simp [Info.steps, hs]) fun _ _ _ => rfl

theorem Get.orderFree : OrderFree Get.parseArgs Get.steps := by
  refine orderFree_of_parsesExactly Get.parsesExactly (fun s hs => by simp [Get.steps, hs]) fun us vs h => ?_
  unfold Get.argsOf
  rw [h.given_arg (s := .own .s) (l := .own .selector) (by simp [Get.steps]),
    h.given_arg (s := .own .p) (l := .own .payload) (by simp [Get.steps]),
    h.given_arg (s := .own .o) (l := .own .timeout) (by simp [Get.steps]),
    h.given_arg (s := .own .t) (l := .own .target) (by simp [Get.steps])]

theorem SubThr.orderFree : OrderFree SubThr.parseArgs SubThr.steps := by
  refine orderFree_of_parsesExactly SubThr.parsesExactly (fun s hs => by simp [SubThr.steps, hs])
    fun us vs h => ?_
  unfold SubThr.argsOf
  rw [h.given_arg (s := .own .s) (l := .own .samples) (by simp [SubThr.steps]),
    h.given_arg (s := .own .n) (l := .own .number) (by simp [SubThr.steps])]

/-- Each of these eight programs does the same on two command lines that give
each of its scans the same values, in whatever order and spelling. -/
theorem rearranged_examples :
    OrderFree Put.parseArgs Put.steps ∧ OrderFree Delete.parseArgs Delete.steps ∧
      OrderFree Pub.parseArgs Pub.steps ∧ OrderFree Sub.parseArgs Sub.steps ∧
      OrderFree Queryable.parseArgs Queryable.steps ∧ OrderFree Info.parseArgs Info.steps ∧
      OrderFree Get.parseArgs Get.steps ∧ OrderFree SubThr.parseArgs SubThr.steps :=
  ⟨Put.orderFree, Delete.orderFree, Pub.orderFree, Sub.orderFree, Queryable.orderFree, Info.orderFree,
    Get.orderFree, SubThr.orderFree⟩

/-- `-e x -p hi -k a --connect=y` and `--connect=y --key=a --payload hi -e x`. -/
theorem rearranged_examples_put : ∃ σ', Put.parseArgs .alwaysOk (.start
      [lit "z_put", lit "--connect=y", lit "--key=a", lit "--payload", lit "hi", lit "-e", lit "x"]) =
        .ok ⟨lit "a", lit "hi"⟩ σ' ∧
      σ'.calls = [.default, .insertJson5 (lit "connect/endpoints") (lit "['x','y']")] := by
  let us : List (OptUnit (Name PutOpt)) := [⟨.e, lit "", .apart (lit "x"), fun _ => rfl, by decide⟩,
    ⟨.own .p, lit "", .apart (lit "hi"), fun _ => rfl, by decide⟩,
    ⟨.own .k, lit "", .apart (lit "a"), fun _ => rfl, by decide⟩, inlineUnit .connect (by decide) (lit "y")]
  have hus : Dashless us := by
    simp [us, Dashless, OptUnit.sepValue, inlineUnit]
    decide
  have hfirst := (Put.parsesExactly .alwaysOk (lit "z_put") _ ⟨lit "a", lit "hi"⟩
    [.default, .insertJson5 (lit "connect/endpoints") (lit "['x','y']")]).mpr
    ⟨us, rfl, ⟨by decide, hus.unshadowed _⟩, by decide, ConfigApi.alwaysOk_succeed _ _, by decide⟩
  refine (rearranged_examples.1 .alwaysOk (lit "z_put") (lit "z_put") us
    [inlineUnit .connect (by decide) (lit "y"), inlineUnit (.own .key) (by decide) (lit "a"),
      ⟨.own .payload, lit "", .apart (lit "hi"), fun _ => rfl, by decide⟩,
      ⟨.e, lit "", .apart (lit "x"), fun _ => rfl, by decide⟩] hus ?_ (by decide) _ _).mp hfirst
  simp [Dashless, OptUnit.sepValue, inlineUnit]
  decide

end ZenohFlatC.Args
