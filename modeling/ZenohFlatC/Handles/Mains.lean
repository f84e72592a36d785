import ZenohFlatC.Args.Examples
import ZenohFlatC.Handles.ParseArgs

/-!
# The `main`s of the examples
-/

namespace ZenohFlatC.Handles

open CStr (lit)

/-- The bytes of a text, where there is one. -/
def sliceOf (z : Zenoh) : Option CStr → Code (Option Handle)
  | none => pure none
  | some v => do
    let h ← handle z (.zbytesFromSlice v.bytes none)
    pure (some h)

theorem Owned.sliceOf {β : Type} {z : Zenoh} {v : Option CStr} {L : Multiset Handle}
    {Q : β → Multiset Handle → List ClosureEvent → Prop} {f : Option Handle → Code β} (hnone : Owned L (f none) Q)
    (hsome : ∀ h, Owned (L + {h}) (f (some h)) Q) : Owned L (Handles.sliceOf z v >>= f) Q := by
  cases v with
  | none => exact hnone
  | some v => exact .handle (f := fun h => f (some h)) L fun h _ => hsome h

/-! ## `z_put` and `z_delete` -/

namespace Put

/-- `main`, behind `parse_args`. -/
def main (z : Zenoh) (args : Args.Put.Args) (config : Handle) : Code Int := do
  print (lit "Opening session...\n")
  match ← pointer z (.zOpen config) with
  | none =>
    print (lit "Unable to open session!\n")
    pure (-1)
  | some s =>
    print (lit "Putting Data ('" ++ args.keyexpr ++ lit "': '" ++ args.value ++ lit "')...\n")
    match ← pointer z (.keyexprTryFrom args.keyexpr) with
    | none =>
      print (args.keyexpr ++ lit " is not a valid key expression\n")
      let _ ← perform z (.sessionDrop s)
      pure (-1)
    | some ke =>
      let payload ← handle z (.zbytesFromSlice args.value.bytes none)
      let ok ← succeeds z (.sessionPut s ke payload)
      printUnless ok (lit "Put failed...\n")
      let _ ← perform z (.keyexprDrop ke)
      let _ ← perform z (.sessionDrop s)
      pure 0

/-- The program, where `parse_args` finds `args` and `options`. -/
def program (args : Args.Put.Args) (options : Args.SessionOptions) : Program :=
  .ofMain options (fun z _ config => .returned <$> main z args config) 0 false fun z _ config => by
    refine .map (.printed (.pointer 0 (.printed (.pure .clean)) fun s _ => .printed ?_))
    refine .pointer {s} (.printed (.perform 0 fun _ => .pure .clean)) fun ke _ => ?_
    refine .handle ({s} + {ke}) fun payload _ => .succeeds ({s} + {ke}) fun ok => .printedUnless ?_
    exact .perform {s} fun _ => .perform 0 fun _ => .pure .clean

end Put

namespace Delete

/-- `main`, behind `parse_args`. -/
def main (z : Zenoh) (args : Args.Delete.Args) (config : Handle) : Code Int := do
  print (lit "Opening session...\n")
  match ← pointer z (.zOpen config) with
  | none =>
    print (lit "Unable to open session!\n")
    pure (-1)
  | some s =>
    print (lit "Deleting resources matching '" ++ args.keyexpr ++ lit "'...\n")
    match ← pointer z (.keyexprTryFrom args.keyexpr) with
    | none =>
      print (args.keyexpr ++ lit " is not a valid key expression\n")
      let _ ← perform z (.sessionDrop s)
      pure (-1)
    | some ke =>
      let ok ← succeeds z (.sessionDelete s ke)
      printUnless ok (lit "Delete failed...\n")
      let _ ← perform z (.keyexprDrop ke)
      let _ ← perform z (.sessionDrop s)
      pure 0

/-- The program, where `parse_args` finds `args` and `options`. -/
def program (args : Args.Delete.Args) (options : Args.SessionOptions) : Program :=
  .ofMain options (fun z _ config => .returned <$> main z args config) 0 false fun z _ config => by
    refine .map (.printed (.pointer 0 (.printed (.pure .clean)) fun s _ => .printed ?_))
    refine .pointer {s} (.printed (.perform 0 fun _ => .pure .clean)) fun ke _ => ?_
    refine .succeeds ({s} + {ke}) fun ok => .printedUnless ?_
    exact .perform {s} fun _ => .perform 0 fun _ => .pure .clean

end Delete

/-! ## `z_get` -/

namespace Get

/-- `'?'` -/
def question : UInt8 := '?'.toUInt8

/-- The key expression of a selector: what is in front of its first `?`, where
`main` writes the terminator. -/
def keyOf (selector : CStr) : CStr :=
  (selector.strchr question).elim selector fun params => selector.take (selector.strlen - params.strlen)

/-- The parameters of a selector: what is behind its first `?`. -/
def paramsOf (selector : CStr) : Option CStr := (selector.strchr question).map (·.drop 1)

/-- `main`, behind `parse_args`. The wait for `on_close` makes no call. -/
def main (z : Zenoh) (args : Args.Get.Args) (config : Handle) : Code Int := do
  let keStr := keyOf args.selector
  print (lit "Opening session...\n")
  match ← pointer z (.zOpen config) with
  | none =>
    print (lit "Unable to open session!\n")
    pure (-1)
  | some s =>
    match ← pointer z (.keyexprTryFrom keStr) with
    | none =>
      print (keStr ++ lit " is not a valid key expression\n")
      let _ ← perform z (.sessionDrop s)
      pure (-1)
    | some ke =>
      let payload ← sliceOf z args.value
      -- `args.selector` was cut at its `?`
      print (lit "Sending Query '" ++ keStr ++ lit "'...\n")
      let ok ← succeeds z (.sessionGet s ke (paramsOf args.selector) args.sessionTimeout args.target payload)
      let _ ← perform z (.keyexprDrop ke)
      printUnless ok (lit "Get failed...\n")
      let _ ← perform z (.sessionDrop s)
      pure 0

/-- The program, where `parse_args` finds `args` and `options`. -/
def program (args : Args.Get.Args) (options : Args.SessionOptions) : Program :=
  .ofMain options (fun z _ config => .returned <$> main z args config) 0 false fun z _ config => by
    refine .map (.printed (.pointer 0 (.printed (.pure .clean)) fun s _ => ?_))
    refine .pointer {s} (.printed (.perform 0 fun _ => .pure .clean)) fun ke _ => .sliceOf ?_ fun payload => ?_
    · refine .printed (.handingOver none ({s} + {ke}) fun ok => .perform {s} fun _ => .printedUnless ?_)
      exact .perform 0 fun _ => .pure (.cleanAfter rfl (by cases ok <;> rfl))
    · refine .printed (.handingOver none ({s} + {ke}) fun ok => .perform {s} fun _ => .printedUnless ?_)
      exact .perform 0 fun _ => .pure (.cleanAfter rfl (by cases ok <;> rfl))

end Get

/-! ## `z_info` and `z_scout` -/

namespace Info

/-- `print_zid`. -/
def printZid (z : Zenoh) (id : Option (Handle × Nat)) : Code Unit := do
  let (s, line) ← text z (.zenohIdToString id)
  let _ ← perform z (.access [s])
  print (line ++ lit "\n")
  let _ ← perform z (.free s)

/-- The loop of `print_zid_array`, from index `i` on. -/
def printZids (z : Zenoh) (ids : Handle) : Nat → Nat → Code Unit
  | _, 0 => pure ()
  | i, n + 1 => do
    print (lit "  ")
    printZid z (some (ids, i))
    printZids z ids (i + 1) n

/-- `print_zid_array`. -/
def printZidArray (z : Zenoh) (label : CStr) (ids : Handle) (len : Nat) : Code Unit := do
  print (label ++ lit ":\n")
  printZids z ids 0 len
  let _ ← perform z (.free ids)

/-- `main`, behind `parse_args`. -/
def main (z : Zenoh) (config : Handle) : Code Int := do
  print (lit "Opening session...\n")
  match ← pointer z (.zOpen config) with
  | none =>
    print (lit "Unable to open session!\n")
    pure (-1)
  | some s =>
    let _ ← perform z (.sessionZid s)
    print (lit "own id: ")
    printZid z none
    let (routers, n) ← array z (.sessionRoutersZid s)
    printZidArray z (lit "routers ids") routers n
    let (peers, n) ← array z (.sessionPeersZid s)
    printZidArray z (lit "peers ids") peers n
    let _ ← perform z (.sessionDrop s)
    pure 0

theorem printZid_owned (z : Zenoh) (id : Option (Handle × Nat)) {D : Multiset Handle}
    (h : ∀ p, id = some p → p.1 ∈ D) : Owned D (printZid z id) (Leaving D) := by
  have hborrow : ∀ x ∈ (Call.zenohIdToString id).borrows, x ∈ D := by
    intro x hx
    cases id with
    | none => exact absurd hx (Multiset.notMem_zero x)
    | some p =>
      obtain rfl : x = p.1 := Multiset.mem_singleton.mp hx
      exact h p rfl
  refine .text D (fun s line => .access fun _ => .printed (.perform D fun _ => ?_)) (zero_add D).symm hborrow
  exact .pure ⟨rfl, rfl⟩

theorem printZids_owned (z : Zenoh) {ids : Handle} {D : Multiset Handle} (h : ids ∈ D) (i n : Nat) :
    Owned D (printZids z ids i n) (Leaving D) := by
  induction n generalizing i with
  | zero => exact .pure ⟨rfl, rfl⟩
  | succ n ih =>
    refine .printed (.leads (printZid_owned z _ fun p hp => ?_) fun _ => ih (i + 1))
    obtain rfl := Option.some.inj hp
    exact h

theorem printZidArray_owned (z : Zenoh) (label : CStr) (ids : Handle) (len : Nat) (D : Multiset Handle) :
    Owned (D + {ids}) (printZidArray z label ids len) (Leaving D) :=
  .printed (.leads (printZids_owned z (by simp) 0 len) fun _ => .perform D fun _ => .pure ⟨rfl, rfl⟩)

/-- The program, where `parse_args` finds `options`. -/
def program (options : Args.SessionOptions) : Program :=
  .ofMain options (fun z _ config => .returned <$> main z config) 0 false fun z _ config => by
    refine .map (.printed (.pointer 0 (.printed (.pure .clean)) fun s _ => ?_))
    refine .perform {s} fun _ => .printed (.leads (printZid_owned z none fun p hp => by cases hp) fun _ => ?_)
    refine .array {s} fun routers n => .leads (printZidArray_owned z _ routers n {s}) fun _ => ?_
    refine .array {s} fun peers n => .leads (printZidArray_owned z _ peers n {s}) fun _ => ?_
    exact .perform 0 fun _ => .pure .clean

end Info

namespace Scout

/-- `main`. -/
def main (z : Zenoh) : Code Int := do
  let config ← handle z .configDefault
  print (lit "Scouting...\n")
  let scout ← pointer z (.scout 7 config)
  let _ ← perform z (.configDrop config)
  match scout with
  | none =>
    print (lit "Unable to start scouting.\n")
    pure (-1)
  | some scout =>
    let _ ← perform z (.scoutDrop scout)
    pure 0

/-- The program. -/
def program : Program where
  run z _ := .returned <$> main z
  leaks := 0
  keeps := 0
  context := false
  owned z _ := by
    refine .map (.handle 0 fun config _ => .printed ?_)
    refine .handOver none (0 + {config}) ?_ fun scout _ => ?_
    · exact .perform 0 fun _ => .printed (.pure (.cleanAfter rfl rfl))
    · exact .perform {scout} fun _ => .perform 0 fun _ => .pure (.cleanAfter rfl rfl)

end Scout

end ZenohFlatC.Handles
