import Mathlib.Data.List.Induction
import ZenohFlatC.Framework.Exec

/-!
# The published headers

`build.rs` publishes two headers in `include/`, `zenoh_flat.h` and
`zenoh_flat_configure.h`. `main` is one run of the build script, which may
panic; `runBuilds` is a sequence of builds, each with its features and its
failures (`Faults`). A header is its bytes and the features it was written for.
What prebindgen and cbindgen generate is a parameter, a text for each feature
set. A write or a copy truncates its target before it writes, so that one that
fails leaves the target as it was or cut short (`Failure`).

* `main_finishes`, `main_panics`: what one build does. A step that fails
  prints a warning; a build that panics does so before it opens a header;
* `runBuilds_flat`, `runBuilds_configure`: after any sequence of builds, a
  header is what the last build that opened it for writing made of it.
-/

namespace ZenohFlatC.BuildRs

/-- The features of a build, by their names in `Cargo.toml`. -/
abbrev Features := List String

/-- A header: the features it was written for, and its bytes. -/
structure File where
  features : Features
  bytes : ByteArray

/-- All of the text. -/
def File.whole (f : Features) (text : String) : File := ⟨f, text.toUTF8⟩

/-- The first `n` bytes, behind which the write failed. -/
def File.cut (h : File) (n : Nat) : File := { h with bytes := h.bytes.extract 0 n }

/-- `include/`. -/
structure Include where
  flat : File
  configure : File

/-- A step that fails to write its header. -/
structure Failure where
  error : String
  /-- `none` if the header was not opened for writing; else it was truncated,
  and so many bytes were written. -/
  written : Option Nat
  deriving DecidableEq, Repr

/-- What becomes of a header that is to be replaced by `new`; `none` if it is
not opened for writing. -/
def publish (new : File) : Option Failure → Option File
  | none => some new
  | some failure => failure.written.map new.cut

/-- The failure of each step. -/
structure Faults where
  /-- The panic of `generate_flat_bindings`. -/
  bindings : Option String
  /-- cbindgen. -/
  header : Option String
  /-- The panic of cbindgen's `write_to_file`. -/
  headerFile : Option String
  /-- The copy of `zenoh_flat.h` into `include/`. -/
  copy : Option Failure
  /-- The write of `zenoh_flat_configure.h`. -/
  configure : Option Failure
  deriving DecidableEq, Repr

/-- No step fails. -/
def Faults.none : Faults := ⟨.none, .none, .none, .none, .none⟩

/-- The failure by which `zenoh_flat.h` is not published. Where cbindgen fails,
there is no copy. -/
def Faults.flat (faults : Faults) : Option Failure :=
  match faults.header with
  | some e => some ⟨e, .none⟩
  | .none => faults.copy

/-- The panic of the build. Where cbindgen fails, there is no `write_to_file`. -/
def Faults.panic (faults : Faults) : Option String :=
  match faults.bindings, faults.header with
  | some message, _ => some message
  | .none, some _ => .none
  | .none, .none => faults.headerFile

structure Build where
  features : Features
  faults : Faults
  deriving DecidableEq, Repr

/-- The paths in the messages of the script. -/
structure Paths where
  bindings : String
  header : String
  stable : String

/-- `include/`, and the lines printed. -/
structure World where
  dir : Include
  out : List String

/-- Code that may panic, with a message. -/
abbrev Script := EStateM String World

def println (line : String) : Script Unit := fun w => .ok () { w with out := w.out ++ [line] }

variable (paths : Paths) (cbindgen : Features → String)

/-- `generate_flat_bindings`. -/
def generateFlatBindings (b : Build) : Script Unit :=
  match b.faults.bindings with
  | some message => throw message
  | none => println ("cargo:warning=Generated bindings at: " ++ paths.bindings)

/-- cbindgen's `write_to_file`, to a directory of the build's own. -/
def writeToFile : Option String → Script Unit
  | some message => throw message
  | none => pure ()

/-- `zenoh_flat.h` for the features `f`. -/
def flatFor (f : Features) : File := .whole f (cbindgen f)

/-- `std::fs::copy`, to `include/zenoh_flat.h`; the error, if it fails. -/
def copyFlat (h : File) (failure : Option Failure) : Script (Option String) := fun w =>
  .ok (failure.map Failure.error) { w with dir.flat := (publish h failure).getD w.dir.flat }

def headerFailed (e : String) : String := "cargo:warning=Failed to generate C headers: " ++ e

def copyFailed (e : String) : String := "cargo:warning=Failed to copy header to include/: " ++ e

/-- `generate_c_headers`. -/
def generateCHeaders (b : Build) : Script Unit :=
  match b.faults.header with
  | some e => println (headerFailed e)
  | none => do
    writeToFile b.faults.headerFile
    match ← copyFlat (flatFor cbindgen b.features) b.faults.copy with
    | some e => println (copyFailed e)
    | none => pure ()
    -- printed also where the copy failed
    println ("cargo:warning=Generated C headers at: " ++ paths.header ++ " (and " ++ paths.stable ++ ")")

/-- The text of `zenoh_flat_configure.h`. -/
def configureBody (f : Features) : String :=
  "/* Generated by zenoh-flat-c build.rs — feature configuration. Do not edit. */\n" ++
    "#ifndef ZENOH_FLAT_CONFIGURE_H\n#define ZENOH_FLAT_CONFIGURE_H\n\n" ++
    (if "unstable" ∈ f then "#define ZENOH_FLAT_UNSTABLE_API 1\n" else "") ++
    (if "shared-memory" ∈ f then "#define ZENOH_FLAT_SHARED_MEMORY 1\n" else "") ++
    "\n#endif /* ZENOH_FLAT_CONFIGURE_H */\n"

/-- `zenoh_flat_configure.h` for the features `f`. -/
def configureFor (f : Features) : File := .whole f (configureBody f)

/-- `std::fs::write`, to `include/zenoh_flat_configure.h`; the error, if it
fails. -/
def writeConfigure (h : File) (failure : Option Failure) : Script (Option String) := fun w =>
  .ok (failure.map Failure.error) { w with dir.configure := (publish h failure).getD w.dir.configure }

def writeFailed (e : String) : String := "cargo:warning=Failed to write zenoh_flat_configure.h: " ++ e

/-- `generate_configure_header`. -/
def generateConfigureHeader (b : Build) : Script Unit := do
  match ← writeConfigure (configureFor b.features) b.faults.configure with
  | some e => println (writeFailed e)
  | none => pure ()

/-- `main`. -/
def main (b : Build) : Script Unit := do
  generateFlatBindings paths b
  generateCHeaders paths cbindgen b
  generateConfigureHeader b

/-- `include/` after a build. -/
def runBuild (d : Include) (b : Build) : Include := (endState (main paths cbindgen b ⟨d, []⟩)).dir

/-- `include/` after a sequence of builds. -/
def runBuilds (builds : List Build) (d : Include) : Include := builds.foldl (runBuild paths cbindgen) d

/-! ## One build -/

/-- What a build that does not panic makes of `zenoh_flat.h`; `none` if it does
not open it for writing. -/
def Build.madeFlat (b : Build) : Option File := publish (flatFor cbindgen b.features) b.faults.flat

/-- What a build that does not panic makes of `zenoh_flat_configure.h`. -/
def Build.madeConfigure (b : Build) : Option File := publish (configureFor b.features) b.faults.configure

theorem generateFlatBindings_eq {b : Build} (h : b.faults.bindings = none) (w : World) :
    ∃ line, generateFlatBindings paths b w = .ok () ⟨w.dir, w.out ++ [line]⟩ := by
  simp only [generateFlatBindings, h]
  exact ⟨_, rfl⟩

/-- A build that panics leaves both headers as they were. -/
theorem main_panics {b : Build} {e : String} (h : b.faults.panic = some e) (w : World) :
    ∃ lines, main paths cbindgen b w = .error e ⟨w.dir, w.out ++ lines⟩ := by
  cases hbindings : b.faults.bindings with
  | some message =>
    simp only [Faults.panic, hbindings, Option.some.injEq] at h
    have hrun : generateFlatBindings paths b w = .error e w := by
      simp only [generateFlatBindings, hbindings, h]
      rfl
    refine ⟨[], ?_⟩
    rw [main, bind_of_error hrun, List.append_nil]
  | none =>
    obtain ⟨line, hrun⟩ := generateFlatBindings_eq paths hbindings w
    cases hheader : b.faults.header with
    | some e' => simp only [Faults.panic, hbindings, hheader, reduceCtorEq] at h
    | none =>
      simp only [Faults.panic, hbindings, hheader] at h
      refine ⟨[line], ?_⟩
      rw [main, bind_of_ok hrun]
      refine bind_of_error ?_
      simp only [generateCHeaders, hheader]
      refine bind_of_error ?_
      rw [h]
      rfl

theorem generateCHeaders_eq {b : Build} (hbindings : b.faults.bindings = none) (h : b.faults.panic = none)
    (w : World) :
    ∃ lines, generateCHeaders paths cbindgen b w = .ok ()
        ⟨{ w.dir with flat := (b.madeFlat cbindgen).getD w.dir.flat }, w.out ++ lines⟩ ∧
      ∀ failure, b.faults.flat = some failure →
        headerFailed failure.error ∈ lines ∨ copyFailed failure.error ∈ lines := by
  let generated := "cargo:warning=Generated C headers at: " ++ paths.header ++ " (and " ++ paths.stable ++ ")"
  unfold Build.madeFlat generateCHeaders
  cases hheader : b.faults.header with
  | some e =>
    have hflat : b.faults.flat = some ⟨e, none⟩ := by simp only [Faults.flat, hheader]
    refine ⟨[headerFailed e], by rw [hflat]; rfl, fun failure h => ?_⟩
    obtain rfl := Option.some.inj (hflat.symm.trans h)
    exact .inl (by simp)
  | none =>
    have hflat : b.faults.flat = b.faults.copy := by simp only [Faults.flat, hheader]
    have hfile : b.faults.headerFile = none := by simpa only [Faults.panic, hbindings, hheader] using h
    have hwritten : writeToFile b.faults.headerFile w = .ok () w := by
      rw [hfile]
      rfl
    simp only [bind_of_ok hwritten]
    rw [hflat]
    cases b.faults.copy with
    | some failure =>
      refine ⟨[copyFailed failure.error, generated], ?_, fun failure' h => ?_⟩
      · rw [List.append_cons]
        rfl
      · obtain rfl := Option.some.inj h
        exact .inr (by simp)
    | none => exact ⟨[generated], rfl, by simp⟩

theorem generateConfigureHeader_eq (b : Build) (w : World) :
    ∃ lines, generateConfigureHeader b w = .ok ()
        ⟨{ w.dir with configure := b.madeConfigure.getD w.dir.configure }, w.out ++ lines⟩ ∧
      ∀ failure, b.faults.configure = some failure → writeFailed failure.error ∈ lines := by
  unfold Build.madeConfigure generateConfigureHeader
  cases b.faults.configure with
  | some failure =>
    refine ⟨[writeFailed failure.error], rfl, fun failure' h => ?_⟩
    obtain rfl := Option.some.inj h
    simp
  | none => exact ⟨[], by rw [List.append_nil]; rfl, by simp⟩

/-- What a build that does not panic leaves behind: of each header what the
step that publishes it made of it. A step that fails is printed. -/
theorem main_finishes {b : Build} (h : b.faults.panic = none) (w : World) :
    ∃ lines, main paths cbindgen b w = .ok ()
        ⟨{ flat := (b.madeFlat cbindgen).getD w.dir.flat
           configure := b.madeConfigure.getD w.dir.configure },
          w.out ++ lines⟩ ∧
      (∀ failure, b.faults.flat = some failure →
        headerFailed failure.error ∈ lines ∨ copyFailed failure.error ∈ lines) ∧
      ∀ failure, b.faults.configure = some failure → writeFailed failure.error ∈ lines := by
  have hnone : b.faults.bindings = none := by
    cases hbindings : b.faults.bindings with
    | some message => simp only [Faults.panic, hbindings, reduceCtorEq] at h
    | none => rfl
  obtain ⟨line, hbindings⟩ := generateFlatBindings_eq paths hnone w
  obtain ⟨lines, hheaders, hflat⟩ := generateCHeaders_eq paths cbindgen hnone h ⟨w.dir, w.out ++ [line]⟩
  obtain ⟨lines', hconfigure, hconf⟩ := generateConfigureHeader_eq b
    ⟨{ w.dir with flat := (b.madeFlat cbindgen).getD w.dir.flat }, w.out ++ [line] ++ lines⟩
  refine ⟨[line] ++ lines ++ lines', ?_, fun failure hf => ?_, fun failure hc => ?_⟩
  · rw [main, bind_of_ok hbindings, bind_of_ok hheaders, hconfigure]
    simp only [List.append_assoc]
  · exact (hflat failure hf).imp (fun hm => by simp [hm]) (fun hm => by simp [hm])
  · have hm := hconf failure hc
    simp [hm]

/-! ## Sequences of builds -/

/-- What the build leaves of `zenoh_flat.h`; `none` if it does not open it for
writing. -/
def Build.flat (b : Build) : Option File := if b.faults.panic.isSome then none else b.madeFlat cbindgen

/-- What the build leaves of `zenoh_flat_configure.h`. -/
def Build.configure (b : Build) : Option File := if b.faults.panic.isSome then none else b.madeConfigure

theorem runBuild_eq (d : Include) (b : Build) :
    runBuild paths cbindgen d b =
      { flat := (b.flat cbindgen).getD d.flat, configure := b.configure.getD d.configure } := by
  unfold runBuild Build.flat Build.configure
  cases hpanic : b.faults.panic with
  | some e =>
    obtain ⟨lines, hrun⟩ := main_panics paths cbindgen hpanic ⟨d, []⟩
    rw [hrun]
    rfl
  | none =>
    obtain ⟨lines, hrun, -, -⟩ := main_finishes paths cbindgen hpanic ⟨d, []⟩
    rw [hrun]
    rfl

theorem foldl_last (made : Build → Option File) (builds : List Build) (h : File) :
    builds.foldl (fun h b => (made b).getD h) h = (builds.filterMap made).getLast?.getD h := by
  induction builds using List.reverseRecOn with
  | nil => rfl
  | append_singleton builds b ih =>
    rw [List.foldl_append, ih, List.filterMap_append, List.foldl_cons, List.foldl_nil]
    cases hb : made b with
    | none => simp [hb]
    | some h' => simp [hb]

theorem runBuilds_eq (builds : List Build) (d : Include) :
    runBuilds paths cbindgen builds d =
      { flat := builds.foldl (fun h b => (b.flat cbindgen).getD h) d.flat
        configure := builds.foldl (fun h b => b.configure.getD h) d.configure } := by
  induction builds generalizing d with
  | nil => rfl
  | cons b builds ih =>
    show runBuilds paths cbindgen builds (runBuild paths cbindgen d b) = _
    rw [ih, runBuild_eq]
    rfl

theorem runBuilds_flat (builds : List Build) (d : Include) :
    (runBuilds paths cbindgen builds d).flat =
      (builds.filterMap (Build.flat cbindgen)).getLast?.getD d.flat := by
  rw [runBuilds_eq, ← foldl_last]

theorem runBuilds_configure (builds : List Build) (d : Include) :
    (runBuilds paths cbindgen builds d).configure =
      (builds.filterMap Build.configure).getLast?.getD d.configure := by
  rw [runBuilds_eq, ← foldl_last]

/-! ## The headers and the build -/

/-- After any sequence of builds: a build that finishes leaves each header for
its features, unless the step that publishes the header failed. Then a warning
with the error is printed, and the header is as it was, if it was not opened
for writing, or else so much of the header for the build's features as was
written. A build that panics leaves both as they were. -/
theorem headers_published (builds : List Build) (b : Build) (d : Include) :
    let before := runBuilds paths cbindgen builds d
    (∀ w, main paths cbindgen b ⟨before, []⟩ = .ok () w →
      (b.faults.flat = none ∧ w.dir.flat = flatFor cbindgen b.features ∨
        ∃ failure, b.faults.flat = some failure ∧
          (headerFailed failure.error ∈ w.out ∨ copyFailed failure.error ∈ w.out) ∧
          w.dir.flat = (failure.written.map (flatFor cbindgen b.features).cut).getD before.flat) ∧
      (b.faults.configure = none ∧ w.dir.configure = configureFor b.features ∨
        ∃ failure, b.faults.configure = some failure ∧ writeFailed failure.error ∈ w.out ∧
          w.dir.configure = (failure.written.map (configureFor b.features).cut).getD before.configure)) ∧
    ∀ e w, main paths cbindgen b ⟨before, []⟩ = .error e w → w.dir = before := by
  intro before
  cases hpanic : b.faults.panic with
  | some message =>
    obtain ⟨lines, hrun⟩ := main_panics paths cbindgen hpanic ⟨before, []⟩
    rw [hrun]
    exact ⟨by simp, fun e w h => by cases h; rfl⟩
  | none =>
    obtain ⟨lines, hrun, hflat, hconf⟩ := main_finishes paths cbindgen hpanic ⟨before, []⟩
    rw [hrun]
    refine ⟨fun w h => ?_, by simp⟩
    cases h
    unfold Build.madeFlat Build.madeConfigure
    refine ⟨?_, ?_⟩
    · cases hf : b.faults.flat with
      | none => exact .inl ⟨rfl, rfl⟩
      | some failure => exact .inr ⟨failure, rfl, hflat failure hf, rfl⟩
    · cases hc : b.faults.configure with
      | none => exact .inl ⟨rfl, rfl⟩
      | some failure => exact .inr ⟨failure, rfl, hconf failure hc, rfl⟩

/-- The copy fails in a build with another feature set than the build before:
the script finishes, and the headers are for two feature sets. -/
theorem header_stale :
    ¬∀ (paths : Paths) (cbindgen : Features → String) (builds : List Build) (b : Build) (d : Include)
      (w : World), main paths cbindgen b ⟨runBuilds paths cbindgen builds d, []⟩ = .ok () w →
      w.dir.flat.features = b.features ∧ w.dir.configure.features = b.features := by
  intro h
  have hstale := h ⟨"zenoh_flat.rs", "out/zenoh_flat.h", "include/zenoh_flat.h"⟩
    (fun f => if "unstable" ∈ f then "reliability" else "")
    [⟨["stats"], .none⟩]
    ⟨["stats", "unstable"], { Faults.none with copy := some ⟨"Permission denied", none⟩ }⟩
    ⟨configureFor [], configureFor []⟩ _ rfl
  exact absurd hstale.1 (by decide)

end ZenohFlatC.BuildRs
