import ZenohFlatC.Args.Accept

/-!
# The order of the endpoints

A repeated option is collected under its short name first: its values are all
those behind `-e`, in the order of the command line, and then all those behind
`--connect`, in theirs (`endpoints_collected`). Spelled both ways, they are
not in the order of the command line (`endpoints_reordered`).
-/

namespace ZenohFlatC.Args.Queryable

open CStr (lit)

/-- What `parse_zenoh_json_list_config` collects from units whose values do
not look like its names, and the call it makes. -/
theorem collect_endpoints {i j : Opt} (hij : i ≠ j) (hi : kind i = .value) (hj : kind j = .value)
    {σ : Proc} {us : List (OptUnit Opt)} (htiled : Tiled OptUnit.tokens (σ.argv.drop 1) us)
    (hdash : Dashless us) (api : ConfigApi) (configKey : CStr) :
    (∃ σ', collectValues (text i) (text j) (σ.argv.length + 1) σ =
      .ok (valuesOf i us ++ valuesOf j us) σ') ∧
    (endState (parseZenohJsonListConfig api (text i) (text j) configKey σ)).calls =
      σ.calls ++ listCalls configKey (valuesOf i us ++ valuesOf j us) := by
  have hat : At 0 σ (⟨us, σ.calls⟩ : Line Opt) := ⟨htiled, rfl, fun _ _ => Nat.zero_le _⟩
  have hclear : ∀ (n : Opt) (ns : List Opt), Clear n (without ns us) := fun n ns =>
    (hdash.subset without_subset).clear n
  have hcollect := (collect_pairScan_iff hij).mpr ⟨hclear i [i], hclear j [i, j], rfl, rfl⟩
  have hlen : (valuesOf i us ++ valuesOf j us).length < σ.argv.length + 1 :=
    Nat.lt_succ_of_le ((hcollect.length_le fun _ _ _ h => h.length).trans hat.length_le)
  have hrel : collectRel i j ⟨us, σ.calls⟩ (valuesOf i us ++ valuesOf j us)
      ⟨without [i, j] us, σ.calls⟩ := ⟨hcollect, rfl⟩
  obtain ⟨σ', hrun, h'⟩ := (collectValues_mirrors (Nat.zero_le _) (Nat.zero_le _) hi hj
    (σ.argv.length + 1)).run hat ⟨hlen, hrel⟩
  refine ⟨⟨σ', hrun⟩, ?_⟩
  obtain ⟨ws, hspec⟩ := parseZenohJsonListConfig_eq api (text i) (text j) configKey σ
  rw [hrun] at hspec
  have hcalls : σ'.calls = σ.calls := h'.calls
  rw [hspec.2, listCalls, ← hcalls]
  split
  · exact (List.append_nil _).symm
  · split <;> rfl

/-- On every command line of option units whose separate values do not begin
with `-`, whatever units are already gone from it, the endpoints collected are
those behind the short name, in order, and then those behind the long name,
in order, each once; and they are the list that is inserted. -/
theorem endpoints_collected {σ : Proc} {us : List (OptUnit Opt)}
    (htiled : Tiled OptUnit.tokens (σ.argv.drop 1) us) (hdash : Dashless us) (api : ConfigApi)
    (configKey : CStr) :
    ((∃ σ', collectValues (lit "e") (lit "connect") (σ.argv.length + 1) σ =
        .ok (valuesOf .e us ++ valuesOf .connect us) σ') ∧
      (endState (parseZenohJsonListConfig api (lit "e") (lit "connect") configKey σ)).calls =
        σ.calls ++ listCalls configKey (valuesOf .e us ++ valuesOf .connect us)) ∧
    (∃ σ', collectValues (lit "l") (lit "listen") (σ.argv.length + 1) σ =
        .ok (valuesOf .l us ++ valuesOf .listen us) σ') ∧
      (endState (parseZenohJsonListConfig api (lit "l") (lit "listen") configKey σ)).calls =
        σ.calls ++ listCalls configKey (valuesOf .l us ++ valuesOf .listen us) :=
  ⟨collect_endpoints (i := .e) (j := .connect) (by decide) rfl rfl htiled hdash api configKey,
    collect_endpoints (i := .l) (j := .listen) (by decide) rfl rfl htiled hdash api configKey⟩

/-- `--connect a -e b`: the endpoints are `b` and `a`. -/
theorem endpoints_collected_two : ∃ σ', collectValues (lit "e") (lit "connect") 6
    (.start [lit "z_queryable", lit "--connect", lit "a", lit "-e", lit "b"]) =
      .ok [lit "b", lit "a"] σ' := by
  let us : List (OptUnit Opt) := [⟨.connect, lit "", .apart (lit "a"), by decide, by decide⟩,
    ⟨.e, lit "", .apart (lit "b"), by decide, by decide⟩]
  have hdash : Dashless us := by
    simp [us, Dashless, OptUnit.sepValue]
    decide
  have htiled : Tiled OptUnit.tokens
      ((Proc.start [lit "z_queryable", lit "--connect", lit "a", lit "-e", lit "b"]).argv.drop 1) us :=
    .of_blocks us
  exact (endpoints_collected htiled hdash .alwaysOk (lit "connect/endpoints")).1.1

/-- `--connect a -e b`, whose endpoints are not in this order. -/
theorem endpoints_reordered :
    returned (collectValues (lit "e") (lit "connect") 6
      (.start [lit "z_queryable", lit "--connect", lit "a", lit "-e", lit "b"])) =
        some [lit "b", lit "a"] ∧
    (endState (parseZenohJsonListConfig .alwaysOk (lit "e") (lit "connect") (lit "connect/endpoints")
      (.start [lit "z_queryable", lit "--connect", lit "a", lit "-e", lit "b"]))).calls =
        [.insertJson5 (lit "connect/endpoints") (lit "['b','a']")] := by
  decide +kernel

end ZenohFlatC.Args.Queryable
