import Mathlib.Data.Set.Image
import ZenohFlatC.Framework.Codes

/-!
# The names that `build.rs` gives C types

The name-mangling rules of `generate_flat_bindings`: the base of a Rust type
(`mangleRustType`), the C type made of a base (`mangleTypeName`), and the
struct of a callback, made of the bases of its arguments (`mangleCallback`).
`snake_case` is prebindgen's, and a parameter.

The bases of a callback are joined by the underscore that is inside a base as
well, the callback without arguments has the name of one with a `drop`, and
`closure_` may begin a base. `namesDistinct_iff` says for which types the names
differ all the same.
-/

namespace ZenohFlatC.BuildRs

open Codes (Dangling)

/-- `short.strip_prefix('Z').unwrap_or(short)` -/
def stripZ (short : String) : String :=
  match short.toList with
  | 'Z' :: rest => String.ofList rest
  | _ => short

/-- `mangle_rust_type`: the base of a Rust type. -/
def mangleRustType (snakeCase : String → String) (short : String) : String :=
  match short with
  | "KeyExpr" | "ZKeyExpr" => "keyexpr"
  | "ZBytes" | "ZZBytes" => "zbytes"
  | "ZenohId" | "ZZenohId" => "zenoh_id"
  | "WhatAmI" => "whatami"
  | other => snakeCase (stripZ other)

/-- `mangle_type_name` -/
def mangleTypeName (base : String) : String := "z_" ++ base ++ "_t"

/-- `mangle_callback` -/
def mangleCallback (bases : List String) : String :=
  if bases.isEmpty then "z_closure_drop_t" else "z_closure_" ++ "_".intercalate bases ++ "_t"

/-- The C names of a set of types, and of the callbacks with arguments in it,
do not collide. -/
structure NamesDistinct (snakeCase : String → String) (types : Set String) : Prop where
  callbacks (xs ys : List String) : (∀ x ∈ xs, x ∈ types) → (∀ y ∈ ys, y ∈ types) →
    mangleCallback (xs.map (mangleRustType snakeCase)) = mangleCallback (ys.map (mangleRustType snakeCase)) →
    xs.map (mangleRustType snakeCase) = ys.map (mangleRustType snakeCase)
  types (xs : List String) (short : String) : (∀ x ∈ xs, x ∈ types) → short ∈ types →
    mangleCallback (xs.map (mangleRustType snakeCase)) ≠ mangleTypeName (mangleRustType snakeCase short)

/-- The bases of a set of types. -/
def bases (snakeCase : String → String) (types : Set String) : Set String := mangleRustType snakeCase '' types

/-- The words of a base, which underscores separate. -/
def words (base : String) : List (List Char) := base.toList.splitOn '_'

/-! ## The part of a callback's name that is its own -/

/-- What is between `z_closure_` and `_t` in the name of a callback. -/
def closureName (bs : List String) : String := if bs.isEmpty then "drop" else "_".intercalate bs

theorem mangleCallback_eq (bs : List String) : mangleCallback bs = "z_closure_" ++ closureName bs ++ "_t" := by
  unfold mangleCallback closureName
  split
  · rfl
  · rfl

theorem mangleCallback_inj {bs cs : List String} :
    mangleCallback bs = mangleCallback cs ↔ closureName bs = closureName cs := by
  rw [mangleCallback_eq, mangleCallback_eq, String.append_left_inj, String.append_right_inj]

theorem mangleCallback_eq_typeName {bs : List String} {b : String} :
    mangleCallback bs = mangleTypeName b ↔ b = "closure_" ++ closureName bs := by
  have hprefix : "z_closure_" = "z_" ++ "closure_" := by decide
  rw [mangleCallback_eq, mangleTypeName, String.append_left_inj, hprefix, String.append_assoc,
    String.append_right_inj]
  exact eq_comm

theorem closureName_nil : closureName [] = "drop" := rfl

theorem closureName_of_ne_nil {bs : List String} (h : bs ≠ []) : closureName bs = "_".intercalate bs :=
  if_neg fun hnil => h (List.isEmpty_iff.mp hnil)

/-- The joined bases, as characters. -/
theorem intercalate_inj {bs cs : List String} :
    "_".intercalate bs = "_".intercalate cs ↔
      ['_'].intercalate (bs.map String.toList) = ['_'].intercalate (cs.map String.toList) := by
  rw [← String.toList_inj, String.toList_intercalate, String.toList_intercalate]
  rfl

/-- Bases are joined to `drop` if they are `drop` alone. -/
theorem intercalate_eq_drop {bs : List String} (h : bs ≠ []) : "_".intercalate bs = "drop" ↔ bs = ["drop"] := by
  refine ⟨fun he => ?_, fun he => he ▸ rfl⟩
  have hlist : ['_'].intercalate (bs.map String.toList) = "drop".toList := by
    rw [← he, String.toList_intercalate]
    rfl
  have hsingle := Codes.intercalate_eq_of_not_mem (by simpa using h) (by decide) hlist
  exact (List.map_inj_right fun _ _ => String.toList_inj.mp).mp hsingle

/-! ## The names over a set of bases -/

section

variable {B : Set String}

/-- Lists of bases are joined to different names if and only if the words of
the bases are uniquely decodable. -/
theorem joined_inj_iff :
    (∀ bs cs : List String, bs ≠ [] → cs ≠ [] → (∀ b ∈ bs, b ∈ B) → (∀ c ∈ cs, c ∈ B) →
        "_".intercalate bs = "_".intercalate cs → bs = cs) ↔
      ¬Dangling (words '' B) [] := by
  have hwords : words '' B = List.splitOn '_' '' (String.toList '' B) :=
    (Set.image_image (List.splitOn '_') String.toList B).symm
  rw [hwords, ← Codes.uniquelyDecodable_iff (Codes.nil_not_mem_splitOn _), ← Codes.intercalate_inj_iff]
  refine ⟨fun h xs ys hxne hyne hx hy he => ?_, fun h bs cs hbne hcne hb hc he => ?_⟩
  · obtain ⟨bs, hb, rfl⟩ := Codes.exists_map_eq hx
    obtain ⟨cs, hc, rfl⟩ := Codes.exists_map_eq hy
    rw [h bs cs (by simpa using hxne) (by simpa using hyne) hb hc (intercalate_inj.mpr he)]
  · have hmap := h _ _ (by simpa using hbne) (by simpa using hcne)
      (List.forall_mem_map.mpr fun b hbs => ⟨b, hb b hbs, rfl⟩)
      (List.forall_mem_map.mpr fun c hcs => ⟨c, hc c hcs, rfl⟩) (intercalate_inj.mp he)
    exact (List.map_inj_right fun _ _ => String.toList_inj.mp).mp hmap

/-- The names of the callbacks differ. -/
theorem callbacks_inj_iff :
    (∀ bs cs : List String, (∀ b ∈ bs, b ∈ B) → (∀ c ∈ cs, c ∈ B) →
        mangleCallback bs = mangleCallback cs → bs = cs) ↔
      ¬Dangling (words '' B) [] ∧ "drop" ∉ B := by
  rw [← joined_inj_iff]
  refine ⟨fun h => ⟨fun bs cs hbne hcne hb hc he => h bs cs hb hc ?_, fun hdrop => ?_⟩, fun ⟨h, hdrop⟩ => ?_⟩
  · rw [mangleCallback_inj, closureName_of_ne_nil hbne, closureName_of_ne_nil hcne, he]
  · have hnil := h [] ["drop"] (fun _ hb => absurd hb List.not_mem_nil) (List.forall_mem_singleton.mpr hdrop)
      (mangleCallback_inj.mpr rfl)
    exact List.cons_ne_nil _ _ hnil.symm
  · -- No callback with arguments has the name of the one without.
    have differ {bs : List String} (hne : bs ≠ []) (hb : ∀ b ∈ bs, b ∈ B)
        (he : closureName bs = closureName []) : False := by
      rw [closureName_of_ne_nil hne, closureName_nil, intercalate_eq_drop hne] at he
      exact hdrop (hb "drop" (he ▸ List.mem_singleton_self _))
    intro bs cs hb hc he
    rw [mangleCallback_inj] at he
    by_cases hbne : bs = []
    · by_cases hcne : cs = []
      · rw [hbne, hcne]
      · exact (differ hcne hc (hbne ▸ he.symm)).elim
    · by_cases hcne : cs = []
      · exact (differ hbne hb (hcne ▸ he)).elim
      · rw [closureName_of_ne_nil hbne, closureName_of_ne_nil hcne] at he
        exact h bs cs hbne hcne hb hc he

/-- No callback has the name of a type. -/
theorem callbacks_ne_types_iff :
    (∀ (bs : List String) (b : String), (∀ c ∈ bs, c ∈ B) → b ∈ B → mangleCallback bs ≠ mangleTypeName b) ↔
      ∀ b ∈ B, b ≠ "closure_drop" ∧
        ∀ bs : List String, bs ≠ [] → (∀ c ∈ bs, c ∈ B) → b ≠ "closure_" ++ "_".intercalate bs := by
  refine ⟨fun h b hb => ⟨fun he => ?_, fun bs hne hbs he => ?_⟩, fun h bs b hbs hb he => ?_⟩
  · exact h [] b (fun _ hc => absurd hc List.not_mem_nil) hb (mangleCallback_eq_typeName.mpr he)
  · exact h bs b hbs hb (mangleCallback_eq_typeName.mpr (by rw [closureName_of_ne_nil hne, he]))
  · rw [mangleCallback_eq_typeName] at he
    by_cases hne : bs = []
    · exact (h b hb).1 (by rw [he, hne]; rfl)
    · exact (h b hb).2 bs hne hbs (by rw [he, closureName_of_ne_nil hne])

end

/-! ## The names over a set of types -/

theorem namesDistinct_bases {snakeCase : String → String} {types : Set String} :
    NamesDistinct snakeCase types ↔
      (∀ bs cs : List String, (∀ b ∈ bs, b ∈ bases snakeCase types) → (∀ c ∈ cs, c ∈ bases snakeCase types) →
        mangleCallback bs = mangleCallback cs → bs = cs) ∧
      ∀ (bs : List String) (b : String), (∀ c ∈ bs, c ∈ bases snakeCase types) → b ∈ bases snakeCase types →
        mangleCallback bs ≠ mangleTypeName b := by
  have inBases {xs : List String} (hx : ∀ x ∈ xs, x ∈ types) :
      ∀ b ∈ xs.map (mangleRustType snakeCase), b ∈ bases snakeCase types :=
    List.forall_mem_map.mpr fun x hxs => ⟨x, hx x hxs, rfl⟩
  refine ⟨fun h => ⟨fun bs cs hb hc he => ?_, fun bs b hbs hb => ?_⟩, fun ⟨hcallbacks, htypes⟩ => ⟨?_, ?_⟩⟩
  · obtain ⟨xs, hx, rfl⟩ := Codes.exists_map_eq hb
    obtain ⟨ys, hy, rfl⟩ := Codes.exists_map_eq hc
    exact h.callbacks xs ys hx hy he
  · obtain ⟨xs, hx, rfl⟩ := Codes.exists_map_eq hbs
    obtain ⟨short, hshort, rfl⟩ := hb
    exact h.types xs short hx hshort
  · exact fun xs ys hx hy he => hcallbacks _ _ (inBases hx) (inBases hy) he
  · exact fun xs short hx hshort => htypes _ _ (inBases hx) ⟨short, hshort, rfl⟩

/-- The names do not collide if and only if no two lists of bases have the same
words, no base is `drop`, and none is `closure_` before `drop` or joined bases. -/
theorem namesDistinct_iff (snakeCase : String → String) (types : Set String) :
    NamesDistinct snakeCase types ↔
      ¬Dangling (words '' bases snakeCase types) [] ∧ "drop" ∉ bases snakeCase types ∧
        ∀ b ∈ bases snakeCase types, b ≠ "closure_drop" ∧
          ∀ bs : List String, bs ≠ [] → (∀ c ∈ bs, c ∈ bases snakeCase types) →
            b ≠ "closure_" ++ "_".intercalate bs := by
  rw [namesDistinct_bases, callbacks_inj_iff, callbacks_ne_types_iff, and_assoc]

/-- Lower case, with an underscore before each capital. -/
def snakeTail (cs : List Char) : List Char :=
  cs.flatMap fun c => if c.isUpper then ['_', c.toLower] else [c]

/-- `CamelCase` to `camel_case`. -/
def camelToSnake (s : String) : String :=
  match s.toList with
  | [] => ""
  | c :: cs => String.ofList (c.toLower :: snakeTail cs)

/-- Three of the declared types, whose bases are `reply`, `error` and
`reply_error`: a callback with a `ReplyError` has the name of one with a
`Reply` and an `Error`. -/
theorem replyError_collides :
    ¬∀ types : Set String, Set.InjOn (mangleRustType camelToSnake) types → NamesDistinct camelToSnake types := by
  intro h
  have hdistinct : Set.InjOn (mangleRustType camelToSnake) {"Reply", "Error", "ReplyError"} := by
    rintro x (rfl | rfl | rfl) y (rfl | rfl | rfl) he
    all_goals first | rfl | exact absurd he (by decide)
  have hsame := (h _ hdistinct).callbacks ["ReplyError"] ["Reply", "Error"] (by simp) (by simp) (by decide)
  exact absurd hsame (by decide)

end ZenohFlatC.BuildRs
