import ZenohFlatC.Args.Accept

/-!
# What is accepted outside the grammar

The grammar of the command line (`Grammar`) has options spelled exactly. A
long name is compared on its own length, so `parse_args` also accepts a
command line with text behind a long name; it accepts nothing else that is
outside the grammar (`parseArgs_grammar_iff`).
-/

namespace ZenohFlatC.Args.Queryable

open CStr (lit)

/-- The command line is a sequence of options, each spelled exactly, and each
given once unless it may be repeated. -/
def Grammar (args : List CStr) : Prop :=
  ∃ us : List (OptUnit Opt), args = us.flatMap OptUnit.tokens ∧ (∀ u ∈ us, u.Exact) ∧
    ∀ ns ∈ Opt.once, Once ns us

/-- The command line is one that `parse_args` accepts, but for text behind the
name of one of its options. -/
def Loose (api : ConfigApi) (args : List CStr) : Prop :=
  ∃ us : List (OptUnit Opt), args = us.flatMap OptUnit.tokens ∧ Accepts us ∧
    api.Succeed [] (configCalls us) ∧ ∃ u ∈ us, ¬u.Exact

/-- A command line is cut in one way, so text behind a name is outside the
grammar. -/
theorem not_grammar (us : List (OptUnit Opt)) {u : OptUnit Opt} (hu : u ∈ us) (hloose : ¬u.Exact) :
    ¬Grammar (us.flatMap OptUnit.tokens) := by
  rintro ⟨vs, hvs, hexact, -⟩
  rw [units_inj hvs] at hu
  exact hloose (hexact u hu)

/-- What `parse_args` accepts is in the grammar exactly if no option has text
behind its name. -/
theorem parseArgs_grammar_iff (api : ConfigApi) (prog : CStr) (args : List CStr) :
    ((∃ x σ', parseArgs api (.start (prog :: args)) = .ok x σ') → Grammar args) ↔ ¬Loose api args := by
  constructor
  · rintro h ⟨us, rfl, hacc, hok, u, hu, hloose⟩
    have hreturns := (parseArgs_ok_iff api prog _ _ _).mpr ⟨us, rfl, hacc, hok, rfl, rfl⟩
    obtain ⟨σ', hrun, -⟩ := hreturns
    exact not_grammar us hu hloose (h ⟨_, σ', hrun⟩)
  · rintro h ⟨x, σ', hrun⟩
    obtain ⟨us, rfl, hacc, hok, -, -⟩ := (parseArgs_ok_iff api prog args x σ'.calls).mp ⟨σ', hrun, rfl⟩
    refine ⟨us, rfl, fun u hu => ?_, hacc.once⟩
    by_contra hloose
    exact h ⟨us, rfl, hacc, hok, u, hu, hloose⟩

/-- `--keyfoo a` is taken for `--key a`, and `--complete=x` for `--complete`. -/
theorem keyfoo_accepted :
    (returned (parseArgs .alwaysOk (.start [lit "z_queryable", lit "--keyfoo", lit "a"])) =
        some ⟨lit "a", defaultValue, false⟩ ∧ ¬Grammar [lit "--keyfoo", lit "a"]) ∧
    returned (parseArgs .alwaysOk (.start [lit "z_queryable", lit "--complete=x"])) =
        some ⟨defaultKeyexpr, defaultValue, true⟩ ∧ ¬Grammar [lit "--complete=x"] := by
  refine ⟨⟨by decide +kernel, ?_⟩, by decide +kernel, ?_⟩
  · exact not_grammar [⟨.key, lit "foo", .apart (lit "a"), by decide, by decide⟩]
      List.mem_cons_self (by decide)
  · exact not_grammar [⟨.complete, lit "=x", .bare, by decide, by decide⟩]
      List.mem_cons_self (by decide)

end ZenohFlatC.Args.Queryable
