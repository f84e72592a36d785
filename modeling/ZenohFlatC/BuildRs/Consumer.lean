import ZenohFlatC.BuildRs.Publish
import ZenohFlatC.Framework.Cpp

/-!
# What C code sees of the features

The examples and the tests choose the arguments of some calls by
`#if defined(ZENOH_FLAT_UNSTABLE_API)`. The macro comes from
`zenoh_flat_configure.h`, and the function that is called from `zenoh_flat.h`.

`consumer_agrees`: after any sequence of builds, if the last one that opened
`zenoh_flat_configure.h` for writing wrote all of it, C code that includes the
headers sees the features of this build; these are the features of
`zenoh_flat.h` too, as long as no build opened one of the headers only.
-/

namespace ZenohFlatC.BuildRs

/-- The include guard. -/
def guard : List Char := "ZENOH_FLAT_CONFIGURE_H".toList

/-- What `#if defined(ZENOH_FLAT_UNSTABLE_API)` asks for. -/
def unstableApi : List Char := "ZENOH_FLAT_UNSTABLE_API".toList

def sharedMemory : List Char := "ZENOH_FLAT_SHARED_MEMORY".toList

/-- The lines inside the include guard. -/
def configureLines (f : Features) : List Directive :=
  .text :: (if "unstable" ∈ f then [.define unstableApi] else []) ++
    (if "shared-memory" ∈ f then [.define sharedMemory] else []) ++ [.text]

theorem directives_configureBody (f : Features) :
    directives (configureBody f) =
      .text :: .ifndef guard :: .define guard :: configureLines f ++ [.endif, .text] := by
  -- the characters of each literal, once for the four cases
  have hhead : ("/* Generated by zenoh-flat-c build.rs — feature configuration. Do not edit. */\n").toList = _ :=
    String.toList_ofList
  have hguard : ("#ifndef ZENOH_FLAT_CONFIGURE_H\n#define ZENOH_FLAT_CONFIGURE_H\n\n").toList = _ :=
    String.toList_ofList
  have hunstable : ("#define ZENOH_FLAT_UNSTABLE_API 1\n").toList = _ := String.toList_ofList
  have hshared : ("#define ZENOH_FLAT_SHARED_MEMORY 1\n").toList = _ := String.toList_ofList
  have hend : ("\n#endif /* ZENOH_FLAT_CONFIGURE_H */\n").toList = _ := String.toList_ofList
  have hempty : ("").toList = [] := rfl
  unfold directives configureBody configureLines
  split_ifs
  all_goals
    rw [String.toList_append, String.toList_append, String.toList_append, String.toList_append, hhead,
      hguard, hend]
  · rw [hunstable, hshared]
    decide +kernel
  · rw [hunstable, hempty]
    decide +kernel
  · rw [hempty, hshared]
    decide +kernel
  · rw [hempty]
    decide +kernel

theorem guarded_configure (f : Features) : Guarded (configureBody f) guard (configureLines f) where
  lines := directives_configureBody f
  plain := by
    unfold configureLines
    split_ifs <;> decide

theorem mem_configureLines (f : Features) (name : List Char) :
    name ∈ (configureLines f).filterMap Directive.defines ↔
      name = unstableApi ∧ "unstable" ∈ f ∨ name = sharedMemory ∧ "shared-memory" ∈ f := by
  unfold configureLines
  split_ifs <;> simp [Directive.defines, eq_comm, *]

/-- What C code sees of `zenoh_flat_configure.h` for the features `f`. -/
theorem mem_includeHeader (f : Features) {macros : List (List Char)} (hguard : guard ∉ macros)
    (name : List Char) :
    name ∈ includeHeader (configureBody f) macros ↔
      (name = unstableApi ∧ "unstable" ∈ f ∨ name = sharedMemory ∧ "shared-memory" ∈ f) ∨
      name = guard ∨ name ∈ macros := by
  rw [(guarded_configure f).include_first hguard, List.mem_append, List.mem_reverse, mem_configureLines,
    List.mem_cons]

/-! ## Sequences of builds -/

/-- The text of a header, if its bytes are a text. -/
def File.text (h : File) : Option String := String.fromUTF8? h.bytes

theorem File.whole_text (f : Features) (text : String) : (File.whole f text).text = some text :=
  dif_pos text.isValidUTF8

variable (paths : Paths) (cbindgen : Features → String)

/-- The build opens `zenoh_flat.h` for writing. -/
def Build.opensFlat (b : Build) : Bool := (b.flat cbindgen).isSome

/-- The build opens `zenoh_flat_configure.h` for writing. -/
def Build.opensConfigure (b : Build) : Bool := b.configure.isSome

/-- The last build that opened `zenoh_flat_configure.h` for writing. -/
def lastOpening (builds : List Build) : Option Build := (builds.filter Build.opensConfigure).getLast?

/-- The features of the last build that opened `zenoh_flat_configure.h` for
writing, after builds from headers for `f`. -/
def seenFeatures (builds : List Build) (f : Features) : Features :=
  ((lastOpening builds).map Build.features).getD f

theorem getLast?_filterMap (made : Build → Option File) (builds : List Build) :
    (builds.filterMap made).getLast? = (builds.filter fun b => (made b).isSome).getLast?.bind made := by
  induction builds using List.reverseRecOn with
  | nil => rfl
  | append_singleton builds b ih =>
    rw [List.filterMap_append, List.filter_append]
    cases hb : made b with
    | none => simp [hb, ih]
    | some h => simp [hb]

theorem Build.flat_of_opens {b : Build} (hopens : b.opensFlat cbindgen) (hwhole : b.faults.flat = none) :
    b.flat cbindgen = some (flatFor cbindgen b.features) := by
  unfold opensFlat Build.flat at *
  cases hpanics : b.faults.panic with
  | some e => simp [hpanics] at hopens
  | none => simp [madeFlat, hwhole, publish]

theorem Build.configure_of_opens {b : Build} (hopens : b.opensConfigure) (hwhole : b.faults.configure = none) :
    b.configure = some (configureFor b.features) := by
  unfold opensConfigure Build.configure at *
  cases hpanics : b.faults.panic with
  | some e => simp [hpanics] at hopens
  | none => simp [madeConfigure, hwhole, publish]

theorem configure_seen {builds : List Build} {d : Include} {f : Features} (hd : d.configure = configureFor f)
    (hwhole : ∀ b, lastOpening builds = some b → b.faults.configure = none) :
    (runBuilds paths cbindgen builds d).configure = configureFor (seenFeatures builds f) := by
  rw [runBuilds_configure, getLast?_filterMap, hd]
  show ((lastOpening builds).bind Build.configure).getD _ = _
  unfold seenFeatures
  cases hlast : lastOpening builds with
  | none => rfl
  | some b =>
    have hopens : b.opensConfigure := (List.mem_filter.mp (List.mem_of_getLast? hlast)).2
    rw [Option.bind_some, Build.configure_of_opens hopens (hwhole b hlast)]
    rfl

theorem flat_seen {builds : List Build} {d : Include} {f : Features} (hd : d.flat = flatFor cbindgen f)
    (hboth : ∀ b ∈ builds, b.opensFlat cbindgen = b.opensConfigure)
    (hwhole : ∀ b, lastOpening builds = some b → b.faults.flat = none) :
    (runBuilds paths cbindgen builds d).flat = flatFor cbindgen (seenFeatures builds f) := by
  have hlasts : (builds.filter fun b => (b.flat cbindgen).isSome).getLast? = lastOpening builds :=
    congrArg List.getLast? (List.filter_congr hboth)
  rw [runBuilds_flat, getLast?_filterMap, hd, hlasts]
  unfold seenFeatures
  cases hlast : lastOpening builds with
  | none => rfl
  | some b =>
    have hmem := List.mem_filter.mp (List.mem_of_getLast? hlast)
    have hopens : b.opensFlat cbindgen := (hboth b hmem.1).trans hmem.2
    rw [Option.bind_some, Build.flat_of_opens cbindgen hopens (hwhole b hlast)]
    rfl

/-- After any sequence of builds of which the last to open
`zenoh_flat_configure.h` for writing wrote all of it: the macros that C code
sees are its own, the guard, and the ones for the features of that build;
including the header again adds none. As long as every build opened both headers
for writing or none of them, and that build wrote all of `zenoh_flat.h`, this
header is for the same features. -/
theorem consumer_agrees (builds : List Build) {d : Include} {f : Features}
    (hconfigure : d.configure = configureFor f) (hflat : d.flat = flatFor cbindgen f)
    (hwhole : ∀ b, lastOpening builds = some b → b.faults.configure = none)
    {macros : List (List Char)} (hguard : guard ∉ macros) :
    let after := runBuilds paths cbindgen builds d
    (∃ header, after.configure.text = some header ∧
      (∀ name, name ∈ includeHeader header macros ↔
        (name = unstableApi ∧ "unstable" ∈ seenFeatures builds f ∨
          name = sharedMemory ∧ "shared-memory" ∈ seenFeatures builds f) ∨
        name = guard ∨ name ∈ macros) ∧
      includeHeader header (includeHeader header macros) = includeHeader header macros) ∧
    ((∀ b ∈ builds, b.opensFlat cbindgen = b.opensConfigure) →
      (∀ b, lastOpening builds = some b → b.faults.flat = none) →
      after.flat = flatFor cbindgen (seenFeatures builds f)) := by
  intro after
  have hafter : after.configure = configureFor (seenFeatures builds f) :=
    configure_seen paths cbindgen hconfigure hwhole
  refine ⟨⟨configureBody (seenFeatures builds f), ?_, fun name => ?_, ?_⟩, flat_seen paths cbindgen hflat⟩
  · rw [hafter]
    exact File.whole_text _ _
  · exact mem_includeHeader _ hguard name
  · refine (guarded_configure _).include_again ?_
    exact (mem_includeHeader _ hguard _).mpr (.inr (.inl rfl))

/-- The second build cannot open `zenoh_flat_configure.h`. -/
theorem consumer_agrees_unwritten :
    let cbindgen := fun f : Features => if "unstable" ∈ f then "reliability" else ""
    ∃ header, (runBuilds ⟨"zenoh_flat.rs", "out/zenoh_flat.h", "include/zenoh_flat.h"⟩ cbindgen
      [⟨["unstable"], .none⟩, ⟨[], { Faults.none with configure := some ⟨"Permission denied", none⟩ }⟩]
      ⟨flatFor cbindgen [], configureFor []⟩).configure.text = some header ∧
      unstableApi ∈ includeHeader header [] := by
  intro cbindgen
  obtain ⟨⟨header, htext, hmacros, -⟩, -⟩ := consumer_agrees
    ⟨"zenoh_flat.rs", "out/zenoh_flat.h", "include/zenoh_flat.h"⟩ cbindgen
    [⟨["unstable"], .none⟩, ⟨[], { Faults.none with configure := some ⟨"Permission denied", none⟩ }⟩]
    (d := ⟨flatFor cbindgen [], configureFor []⟩) (f := []) rfl rfl
    (fun b hb => by cases hb; rfl) (by simp : guard ∉ [])
  exact ⟨header, htext, (hmacros unstableApi).mpr (.inl (.inl ⟨rfl, by decide⟩))⟩

end ZenohFlatC.BuildRs
