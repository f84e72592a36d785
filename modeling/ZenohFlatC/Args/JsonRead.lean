import ZenohFlatC.Args.JsonList
import ZenohFlatC.Framework.Json5

/-!
# What the list of a repeated endpoint option denotes

The values are put between quotes as they are, with no escape. So the list,
read as JSON5, is the list of the values exactly if they are plain: if none
has a quote, a backslash or a newline (`endpoints_denote_iff`). A value with a
quote can read as two (`endpoints_split`).
-/

namespace ZenohFlatC.Args

open CStr (lit)
open Json5 (Plain Follow apostrophe comma bracket readStrings readElements)

/-- The end of the text of a list, with its first quote in front. -/
theorem commaSeparated_head (vs : List CStr) (h : vs ≠ []) :
    ∃ t, (commaSeparated vs).bytes ++ [bracket] = apostrophe :: t := by
  rcases vs with _ | ⟨v, _ | ⟨w, vs⟩⟩
  · exact absurd rfl h
  · exact ⟨_, rfl⟩
  · exact ⟨_, rfl⟩

theorem commaSeparated_last (v : CStr) : (commaSeparated [v]).bytes ++ [bracket] =
    apostrophe :: (v.bytes ++ apostrophe :: [bracket]) := by
  show apostrophe :: v.bytes ++ [apostrophe] ++ [bracket] = _
  simp

theorem commaSeparated_next (v w : CStr) (vs : List CStr) :
    (commaSeparated (v :: w :: vs)).bytes ++ [bracket] = apostrophe :: (v.bytes ++
      apostrophe :: comma :: ((commaSeparated (w :: vs)).bytes ++ [bracket])) := by
  show apostrophe :: v.bytes ++ [apostrophe] ++ [comma] ++ (commaSeparated (w :: vs)).bytes ++
    [bracket] = _
  simp

/-- The elements read as the values exactly if these are plain. -/
theorem readElements_commaSeparated {vs : List CStr} (hvs : vs ≠ []) {n : Nat} (hn : vs.length ≤ n) :
    readElements n ((commaSeparated vs).bytes ++ [bracket]) = some (vs.map CStr.bytes) ↔
      ∀ v ∈ vs, Plain v.bytes := by
  induction vs generalizing n with
  | nil => exact absurd rfl hvs
  | cons v vs ih =>
    rw [List.length_cons] at hn
    obtain ⟨n, rfl⟩ := Nat.exists_eq_succ_of_ne_zero (show n ≠ 0 by omega)
    have hn : vs.length ≤ n := by omega
    cases vs with
    | nil =>
      rw [commaSeparated_last, List.map_cons, Json5.readElements_quoted .last,
        Json5.readNext_last, List.forall_mem_singleton]
      exact and_iff_left rfl
    | cons w vs =>
      obtain ⟨t, ht⟩ := commaSeparated_head (w :: vs) (by simp)
      have hfollow : Follow (comma :: ((commaSeparated (w :: vs)).bytes ++ [bracket])) := by
        rw [ht]
        exact .next t
      have hrest : (readElements n ((commaSeparated (w :: vs)).bytes ++ [bracket])).map
          (v.bytes :: ·) = some (v.bytes :: (w :: vs).map CStr.bytes) ↔ ∀ v ∈ w :: vs, Plain v.bytes := by
        rw [← ih (by simp) hn, Option.map_eq_some_iff]
        constructor
        · rintro ⟨outs, h, e⟩
          rw [h, (List.cons_eq_cons.mp e).2]
        · intro h
          exact ⟨_, h, rfl⟩
      rw [commaSeparated_next, List.map_cons, Json5.readElements_quoted hfollow,
        Json5.readNext_comma, hrest, List.forall_mem_cons (a := v)]

theorem commaSeparated_length (vs : List CStr) : vs.length ≤ (commaSeparated vs).strlen + 1 := by
  induction vs with
  | nil => exact Nat.zero_le _
  | cons v vs ih =>
    cases vs with
    | nil => exact Nat.le_add_left 1 _
    | cons w vs =>
      rw [commaSeparated, CStr.strlen_append, CStr.strlen_append, List.length_cons]
      have : (lit ",").strlen = 1 := by rfl
      omega

/-- The list reads as the values exactly if these are plain. -/
theorem readStrings_jsonListText {vs : List CStr} (hvs : vs ≠ []) :
    readStrings (jsonListText vs).bytes = some (vs.map CStr.bytes) ↔ ∀ v ∈ vs, Plain v.bytes := by
  have htext : (jsonListText vs).bytes =
      '['.toUInt8 :: ((commaSeparated vs).bytes ++ [bracket]) := by rfl
  rw [htext, Json5.readStrings_array]
  refine readElements_commaSeparated hvs ?_
  have := commaSeparated_length vs
  rw [List.length_append, List.length_singleton]
  exact this

/-- In every run of `parse_zenoh_json_list_config` that collects values, the
text it inserts denotes the array of these values exactly if none of them has
a quote, a backslash or a newline. -/
theorem endpoints_denote_iff (api : ConfigApi) (optShort optLong configKey : CStr) {σ σ' : Proc}
    {vs : List CStr} (h : collectValues optShort optLong (σ.argv.length + 1) σ = .ok vs σ')
    (hvs : vs ≠ []) :
    ∃ text, (endState (parseZenohJsonListConfig api optShort optLong configKey σ)).calls =
        σ.calls ++ [.insertJson5 configKey text] ∧
      (readStrings text.bytes = some (vs.map CStr.bytes) ↔ ∀ v ∈ vs, Plain v.bytes) := by
  refine ⟨jsonListText vs, ?_, readStrings_jsonListText hvs⟩
  obtain ⟨ws, hrun⟩ := parseZenohJsonListConfig_eq api optShort optLong configKey σ
  have hkeeps := (collectValues_onArgv optShort optLong (σ.argv.length + 1)).keeps σ
  rw [h] at hrun hkeeps
  have hcalls : σ'.calls = σ.calls := hkeeps.1
  rw [hrun.2, if_neg hvs, ← hcalls]
  cases api.insertJson5 σ'.calls configKey (jsonListText vs) <;> rfl

/-- `-e a`: the list denotes `a`. -/
theorem endpoints_denote_iff_one : ∃ text,
    (endState (parseZenohJsonListConfig .alwaysOk (lit "e") (lit "connect") (lit "connect/endpoints")
      (.start [lit "z_queryable", lit "-e", lit "a"]))).calls =
        [.insertJson5 (lit "connect/endpoints") text] ∧
      readStrings text.bytes = some [ascii "a"] := by
  let start := Proc.start [lit "z_queryable", lit "-e", lit "a"]
  have hrun : collectValues (lit "e") (lit "connect") (start.argv.length + 1) start =
      .ok [lit "a"] ⟨[some (lit "z_queryable"), none, none], [], []⟩ := by rfl
  obtain ⟨text, hcalls, hread⟩ := endpoints_denote_iff .alwaysOk (lit "e") (lit "connect")
    (lit "connect/endpoints") hrun (by decide)
  exact ⟨text, hcalls, hread.mpr (by decide)⟩

/-- `-e "a','b"`: one value, which reads as the two of `-e a -e b`. -/
theorem endpoints_split :
    (endState (parseZenohJsonListConfig .alwaysOk (lit "e") (lit "connect") (lit "connect/endpoints")
      (.start [lit "z_queryable", lit "-e", lit "a','b"]))).calls =
        [.insertJson5 (lit "connect/endpoints") (lit "['a','b']")] ∧
    (endState (parseZenohJsonListConfig .alwaysOk (lit "e") (lit "connect") (lit "connect/endpoints")
      (.start [lit "z_queryable", lit "-e", lit "a", lit "-e", lit "b"]))).calls =
        [.insertJson5 (lit "connect/endpoints") (lit "['a','b']")] ∧
    readStrings (lit "['a','b']").bytes = some [ascii "a", ascii "b"] ∧
    readStrings (lit "['a','b']").bytes ≠ some [(lit "a','b").bytes] := by
  refine ⟨by rfl, by rfl, by decide +kernel, by decide +kernel⟩

end ZenohFlatC.Args
