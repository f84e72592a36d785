import ZenohFlatC.Handles.Loops

/-!
# The tests of key expressions and sessions

A test is aborted where an `assert` fails, and else releases all that it was
given (`TestCase`). A `main` runs its tests one after the other.
-/

namespace ZenohFlatC.Handles

open CStr (lit)

/-- A function of a test. -/
structure TestCase where
  /-- `false` if an `assert` aborts it. -/
  run : Zenoh → Code Bool
  owned : ∀ z, Owned 0 (run z) (Passing (· = 0))

/-- A `main` that calls the functions one after the other. -/
def runTests (z : Zenoh) : List TestCase → Code Outcome
  | [] => pure (.returned 0)
  | t :: ts => do
    match ← t.run z with
    | false => pure .aborted
    | true => runTests z ts

theorem runTests_owned (z : Zenoh) (ts : List TestCase) : Owned 0 (runTests z ts) (Leaves 0 0 false) := by
  induction ts with
  | nil => exact .pure .clean
  | cons t ts ih =>
    refine (t.owned z).bind fun returned l es hl => ?_
    obtain ⟨hl, rfl⟩ := hl
    cases returned with
    | false => exact .pure .aborted
    | true =>
      obtain rfl := hl rfl
      exact ih

/-- The program that runs them. -/
def Program.ofTests (ts : List TestCase) : Program where
  run z _ := runTests z ts
  leaks := 0
  keeps := 0
  context := false
  owned z _ := runTests_owned z ts

namespace SessionTest

/-- `test_open_drop`. -/
def testOpenDrop : TestCase where
  run z := do
    let config ← handle z .configDefault
    match ← pointer z (.zOpen config) with
    | none => pure false
    | some s =>
      let _ ← perform z (.sessionDrop s)
      pure true
  owned z := by
    refine .handle 0 fun config _ => .pointer 0 (.pure .failed) fun s _ => ?_
    exact .perform 0 fun _ => .pure ⟨fun _ => rfl, rfl⟩

/-- `main`. -/
def program : Program := .ofTests [testOpenDrop, testOpenDrop]

end SessionTest

namespace KeyexprTest

/-- The `assert` on the text of a key expression, which is dropped behind it. -/
def dropWithText (z : Zenoh) (ke : Handle) (expected : CStr) : Code Bool := do
  let (s, string) ← text z (.keyexprToString ke)
  let _ ← perform z (.access [s])
  match decide (string = expected) with
  | false => pure false
  | true =>
    let _ ← perform z (.free s)
    let _ ← perform z (.keyexprDrop ke)
    pure true

theorem dropWithText_owned (z : Zenoh) (ke : Handle) (expected : CStr) (D : Multiset Handle) :
    Owned (D + {ke}) (dropWithText z ke expected) (Passing (· = D)) := by
  refine .text (D + {ke}) fun s string => .access fun _ => ?_
  cases decide (string = expected) with
  | false => exact .pure .failed
  | true => exact .perform (D + {ke}) fun _ => .perform D fun _ => .pure ⟨fun _ => rfl, rfl⟩

/-- `test_create`. -/
def testCreate : TestCase where
  run z := do
    match ← pointer z (.keyexprTryFrom (lit "a/b/c")) with
    | none => pure false
    | some ke =>
      let _ ← perform z (.keyexprDrop ke)
      let bad ← pointer z (.keyexprTryFrom (lit "a/**/**"))
      pure bad.isNone
  owned z := by
    refine .pointer 0 (.pure .failed) fun ke _ => .perform 0 fun _ => ?_
    exact .pointer 0 (.pure ⟨fun _ => rfl, rfl⟩) fun bad _ => .pure .failed

/-- `test_to_string`. -/
def testToString : TestCase where
  run z := do
    match ← pointer z (.keyexprTryFrom (lit "a/b/c")) with
    | none => pure false
    | some ke => dropWithText z ke (lit "a/b/c")
  owned z := .pointer 0 (.pure .failed) fun ke _ => dropWithText_owned z ke _ 0

/-- `test_relations`, without the unstable API. -/
def testRelations : TestCase where
  run z := do
    let pattern ← pointer z (.keyexprTryFrom (lit "a/*/c"))
    let exact' ← pointer z (.keyexprTryFrom (lit "a/b/c"))
    match pattern, exact' with
    | some pattern, some exact' =>
      match ← succeeds z (.keyexprIntersects pattern exact') with
      | false => pure false
      | true =>
        match ← succeeds z (.keyexprIncludes pattern exact') with
        | false => pure false
        | true =>
          match ← succeeds z (.keyexprIncludes exact' pattern) with
          | true => pure false
          | false =>
            let _ ← perform z (.keyexprDrop pattern)
            let _ ← perform z (.keyexprDrop exact')
            pure true
    | _, _ => pure false
  owned z := by
    refine .unchecked 0 fun pattern => .unchecked (0 + pattern.elim 0 ({·})) fun exact' => ?_
    match pattern, exact' with
    | none, _ | some _, none => exact .pure .failed
    | some pattern, some exact' =>
      refine .succeeds (0 + {pattern} + {exact'}) fun ok => ?_
      cases ok with
      | false => exact .pure .failed
      | true =>
        refine .succeeds (0 + {pattern} + {exact'}) fun ok => ?_
        cases ok with
        | false => exact .pure .failed
        | true =>
          refine .succeeds (0 + {pattern} + {exact'}) fun ok => ?_
          cases ok with
          | true => exact .pure .failed
          | false => exact .perform {exact'} fun _ => .perform 0 fun _ => .pure ⟨fun _ => rfl, rfl⟩

/-- `test_autocanonize`. -/
def testAutocanonize : TestCase where
  run z := do
    match ← pointer z (.keyexprAutocanonize (lit "a/**/**/c")) with
    | none => pure false
    | some ke => dropWithText z ke (lit "a/**/c")
  owned z := .pointer 0 (.pure .failed) fun ke _ => dropWithText_owned z ke _ 0

/-- `z_keyexpr_drop`, which does nothing to `NULL`. -/
def dropIfSome (z : Zenoh) : Option Handle → Code Unit
  | none => pure ()
  | some ke => do
    let _ ← perform z (.keyexprDrop ke)

/-- `test_concat_join`. -/
def testConcatJoin : TestCase where
  run z := do
    let a ← pointer z (.keyexprTryFrom (lit "a/b"))
    match ← pointer z (.keyexprJoin a (lit "c/d")) with
    | none => pure false
    | some joined =>
      match ← dropWithText z joined (lit "a/b/c/d") with
      | false => pure false
      | true =>
        dropIfSome z a
        pure true
  owned z := by
    refine .unchecked 0 fun a => .pointer (0 + a.elim 0 ({·})) (.pure .failed) (fun joined _ => ?_)
      (zero_add _).symm fun x hx => by rwa [zero_add]
    refine (dropWithText_owned z joined _ _).bind fun returned l es hl => ?_
    obtain ⟨hl, rfl⟩ := hl
    cases returned with
    | false => exact .pure .failed
    | true =>
      obtain rfl := hl rfl
      cases a with
      | none => exact .pure ⟨fun _ => rfl, rfl⟩
      | some a => exact .perform 0 fun _ => .pure ⟨fun _ => rfl, rfl⟩

/-- `main`. -/
def program : Program := .ofTests [testCreate, testToString, testRelations, testAutocanonize, testConcatJoin]

end KeyexprTest

end ZenohFlatC.Handles
