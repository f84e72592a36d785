import ZenohFlatC.Framework.Decimal
import ZenohFlatC.Handles.Mains

/-!
# The `main`s that loop, and the leak test

The `main`s of `z_pub`, `z_pub_thr`, `z_sub`, `z_queryable` and `z_sub_thr` do
not return from their loops, so that the calls behind the loops are not made. A
`main` returns before its loop, or is in it after some rounds, where it keeps
the handles that the next rounds use.

The leak test's `main` returns, or is aborted by an `assert`.
-/

namespace ZenohFlatC.Handles

open CStr (lit)

/-! ## `z_pub` -/

namespace Pub

/-- What `snprintf` leaves in `buf`, from `"[%4d] %s"`. -/
def message (idx : Nat) (value : CStr) : CStr :=
  (Buffer.snprintf 256 (lit "[" ++ (CStr.signed idx).padded 4 ++ lit "] " ++ value) (by decide)).str

/-- `n` rounds of the loop, from `idx` on. -/
def rounds (z : Zenoh) (args : Args.Pub.Args) (pub : Handle) : Nat → Nat → Code Unit
  | _, 0 => pure ()
  | idx, n + 1 => do
    let buf := message idx args.value
    print (lit "Putting Data ('" ++ args.keyexpr ++ lit "': '" ++ buf ++ lit "')...\n")
    let payload ← handle z (.zbytesFromSlice buf.bytes none)
    let attachment ← sliceOf z args.attachment
    let _ ← perform z (.publisherPut pub payload attachment)
    rounds z args pub (idx + 1) n

/-- `main`, behind `parse_args`, up to the end of the `n`-th round. -/
def main (z : Zenoh) (args : Args.Pub.Args) (n : Nat) (config : Handle) : Code Outcome := do
  print (lit "Opening session...\n")
  match ← pointer z (.zOpen config) with
  | none =>
    print (lit "Unable to open session!\n")
    pure (.returned (-1))
  | some s =>
    print (lit "Declaring Publisher on '" ++ args.keyexpr ++ lit "'...\n")
    match ← pointer z (.keyexprTryFrom args.keyexpr) with
    | none =>
      print (args.keyexpr ++ lit " is not a valid key expression\n")
      let _ ← perform z (.sessionDrop s)
      pure (.returned (-1))
    | some ke =>
      match ← pointer z (.sessionDeclarePublisher s (some ke) none none none) with
      | none =>
        print (lit "Unable to declare Publisher for key expression!\n")
        let _ ← perform z (.sessionDrop s)
        pure (.returned (-1))
      | some pub =>
        printUnless (!args.addMatchingListener)
          (lit "Warning: --add-matching-listener is not supported by zenoh-flat-c yet and will be ignored.\n")
        print (lit "Press CTRL-C to quit...\n")
        rounds z args pub 0 n
        pure .inLoop

theorem rounds_owned (z : Zenoh) (args : Args.Pub.Args) {pub : Handle} {D : Multiset Handle} (h : pub ∈ D)
    (idx n : Nat) : Owned D (rounds z args pub idx n) (Leaving D) := by
  induction n generalizing idx with
  | zero => exact .pure ⟨rfl, rfl⟩
  | succ n ih =>
    have hborrow : ∀ payload attachment, ∀ x ∈ (Call.publisherPut pub payload attachment).borrows, x ∈ D := by
      intro payload attachment x hx
      obtain rfl : x = pub := Multiset.mem_singleton.mp hx
      exact h
    refine .printed (.handle D fun payload _ => .sliceOf ?_ fun attachment => ?_)
    · exact .perform D (fun _ => ih (idx + 1)) (add_comm D {payload}) (hborrow payload none)
    · refine .perform D (fun _ => ih (idx + 1)) ?_ (hborrow payload (some attachment))
      show D + {payload} + {attachment} = {payload} + {attachment} + 0 + D
      abel

/-- The program, where `parse_args` finds `args` and `options`. -/
def program (args : Args.Pub.Args) (options : Args.SessionOptions) : Program :=
  .ofMain options (main · args) {.session, .publisher} false fun z n config => by
    refine .printed (.pointer 0 (.printed (.pure .clean)) fun s hs => .printed ?_)
    refine .pointer {s} (.printed (.perform 0 fun _ => .pure .clean)) fun ke _ => ?_
    refine .pointer {s} (.printed (.perform 0 fun _ => .pure .clean)) fun pub hpub => .printedUnless (.printed ?_)
    refine .leads (rounds_owned z args (by simp) 0 n) fun _ => .pure (.looping ?_)
    rw [Multiset.map_add, Multiset.map_singleton, Multiset.map_singleton, hs, hpub]
    rfl

end Pub

/-! ## `z_pub_thr` -/

namespace PubThr

/-- The bytes that `main` writes to `value`. -/
def bytes (size : UInt32) : List UInt8 := (List.range size.toNat).map fun i => UInt8.ofNat (i % 10)

/-- `n` rounds of the loop. -/
def rounds (z : Zenoh) (pub payload : Handle) : Nat → Code Unit
  | 0 => pure ()
  | n + 1 => do
    let toSend ← handle z (.zbytesClone payload)
    let _ ← perform z (.publisherPut pub toSend none)
    rounds z pub payload n

/-- `main`, behind `parse_args`, up to the end of the `n`-th round. -/
def main (z : Zenoh) (args : Args.PubThr.Args) (n : Nat) (config : Handle) : Code Outcome := do
  let value ← handle z (.malloc .value args.size.toNat)
  let _ ← perform z (.access [value])
  match ← pointer z (.zOpen config) with
  | none =>
    print (lit "Unable to open session!\n")
    let _ ← perform z (.free value)
    pure (.returned (-1))
  | some s =>
    let ke ← pointer z (.keyexprTryFrom (lit "test/thr"))
    match ← pointer z (.sessionDeclarePublisher s ke (some .block) (some args.priority) (some args.express)) with
    | none =>
      print (lit "Unable to declare publisher for key expression!\n")
      let _ ← perform z (.sessionDrop s)
      let _ ← perform z (.free value)
      pure (.returned (-1))
    | some pub =>
      let payload ← handle z (.zbytesFromSlice (bytes args.size) (some value))
      print (lit "Press CTRL-C to quit...\n")
      rounds z pub payload n
      pure .inLoop

theorem rounds_owned (z : Zenoh) {pub payload : Handle} {D : Multiset Handle} (hpub : pub ∈ D)
    (hpayload : payload ∈ D) (n : Nat) : Owned D (rounds z pub payload n) (Leaving D) := by
  induction n with
  | zero => exact .pure ⟨rfl, rfl⟩
  | succ n ih =>
    refine .handle D (fun toSend _ => .perform D (fun _ => ih) (add_comm D {toSend}) ?_) (zero_add D).symm ?_
    · intro x hx
      obtain rfl : x = pub := Multiset.mem_singleton.mp hx
      exact hpub
    · intro x hx
      obtain rfl : x = payload := Multiset.mem_singleton.mp hx
      exact hpayload

/-- The program, where `parse_args` finds `args` and `options`. -/
def program (args : Args.PubThr.Args) (options : Args.SessionOptions) : Program :=
  .ofMain options (main · args) {.block .value, .session, .publisher, .zbytes} false fun z n config => by
    refine .handle {config} fun value hvalue => .access fun _ => ?_
    refine .pointer {value} (.printed (.perform 0 fun _ => .pure .clean)) fun s hs => ?_
    refine .unchecked ({value} + {s}) fun ke => .pointer ({value} + {s}) ?_ fun pub hpub => ?_
    · exact .printed (.perform {value} fun _ => .perform 0 fun _ => .pure .clean)
    · refine .handle ({value} + {s} + {pub}) fun payload hpayload => .printed ?_
      refine .leads (rounds_owned z (by simp) (by simp) n) fun _ => .pure (.looping ?_)
      simp only [Multiset.map_add, Multiset.map_singleton, hvalue, hs, hpub, hpayload]
      rfl

end PubThr

/-! ## `z_sub` and `z_queryable` -/

namespace Sub

/-- `main`, behind `parse_args`, which sleeps in its loop. -/
def main (z : Zenoh) (args : Args.Sub.Args) (config : Handle) : Code Outcome := do
  print (lit "Opening session...\n")
  match ← pointer z (.zOpen config) with
  | none =>
    print (lit "Unable to open session!\n")
    pure (.returned (-1))
  | some s =>
    match ← pointer z (.keyexprTryFrom args.keyexpr) with
    | none =>
      print (args.keyexpr ++ lit " is not a valid key expression\n")
      let _ ← perform z (.sessionDrop s)
      pure (.returned (-1))
    | some ke =>
      print (lit "Declaring Subscriber on '" ++ args.keyexpr ++ lit "'...\n")
      match ← pointer z (.sessionDeclareSubscriber s (some ke) none) with
      | none =>
        print (lit "Unable to declare subscriber.\n")
        let _ ← perform z (.sessionDrop s)
        pure (.returned (-1))
      | some _ =>
        print (lit "Press CTRL-C to quit...\n")
        pure .inLoop

/-- The program, where `parse_args` finds `args` and `options`. -/
def program (args : Args.Sub.Args) (options : Args.SessionOptions) : Program :=
  .ofMain options (fun z _ => main z args) {.session, .subscriber} false fun z _ config => by
    refine .printed (.pointer 0 (.printed (.pure .clean)) fun s hs => ?_)
    refine .pointer {s} (.printed (.perform 0 fun _ => .pure .clean)) fun ke _ => .printed ?_
    refine .handOver none {s} ?_ fun sub hsub => .printed (.pure (.loopingAfter rfl ?_))
    · exact .printed (.perform 0 fun _ => .pure (.cleanAfter rfl rfl))
    · show Multiset.map _ ({s} + {sub} + 0) = _
      rw [add_zero, Multiset.map_add, Multiset.map_singleton, Multiset.map_singleton, hs, hsub]
      rfl

end Sub

namespace Queryable

/-- `main`, behind `parse_args`, which sleeps in its loop. -/
def main (z : Zenoh) (args : Args.Queryable.Args) (config : Handle) : Code Outcome := do
  print (lit "Opening session...\n")
  match ← pointer z (.zOpen config) with
  | none =>
    print (lit "Unable to open session!\n")
    pure (.returned (-1))
  | some s =>
    match ← pointer z (.keyexprTryFrom args.keyexpr) with
    | none =>
      print (args.keyexpr ++ lit " is not a valid key expression\n")
      let _ ← perform z (.sessionDrop s)
      pure (.returned (-1))
    | some ke =>
      print (lit "Declaring Queryable on '" ++ args.keyexpr ++ lit "'...\n")
      match ← pointer z (.sessionDeclareQueryable s ke args.complete) with
      | none =>
        print (lit "Unable to create queryable.\n")
        let _ ← perform z (.sessionDrop s)
        pure (.returned (-1))
      | some _ =>
        print (lit "Press CTRL-C to quit...\n")
        pure .inLoop

/-- The program, where `parse_args` finds `args` and `options`. -/
def program (args : Args.Queryable.Args) (options : Args.SessionOptions) : Program :=
  .ofMain options (fun z _ => main z args) {.session, .queryable} false fun z _ config => by
    refine .printed (.pointer 0 (.printed (.pure .clean)) fun s hs => ?_)
    refine .pointer {s} (.printed (.perform 0 fun _ => .pure .clean)) fun ke _ => .printed ?_
    refine .handOver none {s} ?_ fun qable hqable => .printed (.pure (.loopingAfter rfl ?_))
    · exact .printed (.perform 0 fun _ => .pure (.cleanAfter rfl rfl))
    · show Multiset.map _ ({s} + {qable} + 0) = _
      rw [add_zero, Multiset.map_add, Multiset.map_singleton, Multiset.map_singleton, hs, hqable]
      rfl

end Queryable

/-! ## `z_sub_thr` -/

namespace SubThr

/-- `sizeof(z_stats_t)`. -/
def sizeofStats : Nat := 72

/-- `z_stats_make`. -/
def zStatsMake (z : Zenoh) : Code Handle := do
  let stats ← handle z (.malloc .stats sizeofStats)
  let _ ← perform z (.access [stats])
  pure stats

/-- `main`, behind `parse_args`, which sleeps in its loop. The closure owns
`context`, which its `drop` frees. -/
def main (z : Zenoh) (config : Handle) : Code Outcome := do
  match ← pointer z (.zOpen config) with
  | none =>
    print (lit "Unable to open session!\n")
    pure (.returned (-1))
  | some s =>
    let ke ← pointer z (.keyexprTryFrom (lit "test/thr"))
    let context ← zStatsMake z
    match ← pointer z (.sessionDeclareSubscriber s ke (some context)) with
    | none =>
      print (lit "Unable to create subscriber.\n")
      let _ ← perform z (.sessionDrop s)
      pure (.returned (-1))
    | some _ =>
      print (lit "Press CTRL-C to quit...\n")
      pure .inLoop

theorem zStatsMake_owned (z : Zenoh) (D : Multiset Handle) :
    Owned D (zStatsMake z) fun stats l es => stats.kind = .block .stats ∧ l = D + {stats} ∧ es = [] :=
  .handle D fun stats hstats => .access fun _ => .pure ⟨hstats, rfl, rfl⟩

/-- The program, where `parse_args` finds `options`. -/
def program (options : Args.SessionOptions) : Program :=
  .ofMain options (fun z _ => main z) {.session, .subscriber, .block .stats} true fun z _ config => by
    refine .pointer 0 (.printed (.pure .clean)) fun s hs => .unchecked {s} fun ke => ?_
    refine (zStatsMake_owned z _).bind fun context l es hl => ?_
    obtain ⟨hcontext, rfl, rfl⟩ := hl
    refine .handOver (some context) {s} ?_ fun sub hsub => .printed (.pure (.loopingAfter rfl ?_))
    · exact .printed (.perform 0 fun _ => .pure (.cleanAfter rfl rfl))
    · show Multiset.map _ ({s} + {sub} + ({context} + 0)) = _
      simp only [add_zero, Multiset.map_add, Multiset.map_singleton, hs, hsub, hcontext]
      rfl

end SubThr

/-! ## The leak test -/

namespace LeakTest

/-- `KEYEXPR`. -/
def keyexpr : CStr := lit "demo/example/zenoh-flat-c-leak-test"

/-- `VALUE`. -/
def value : CStr := lit "leak-test-payload"

/-- `N_MSGS`. -/
def nMsgs : Nat := 5

/-- The loop over the messages, with `n` to go: whether it was not aborted. -/
def puts (z : Zenoh) (pub : Handle) : Nat → Code Bool
  | 0 => pure true
  | n + 1 => do
    let payload ← handle z (.zbytesFromSlice value.bytes none)
    match ← succeeds z (.publisherPut pub payload none) with
    | true => puts z pub n
    | false => pure false

/-- `main`, which finds `received` in `g_received` in the end. -/
def main (z : Zenoh) (received : Nat) : Code Outcome := do
  let config ← handle z .configDefault
  let pubSession ← pointer z (.zOpen config)
  let config ← handle z .configDefault
  let subSession ← pointer z (.zOpen config)
  match pubSession, subSession with
  | some pubSession, some subSession =>
    let subKe ← pointer z (.keyexprTryFrom keyexpr)
    match ← pointer z (.sessionDeclareSubscriber subSession subKe none) with
    | none => pure .aborted
    | some sub =>
      let pubKe ← pointer z (.keyexprTryFrom keyexpr)
      let priority := Args.PubThr.defaultPriority
      match ← pointer z (.sessionDeclarePublisher pubSession pubKe (some .block) (some priority) (some false)) with
      | none => pure .aborted
      | some pub =>
        match ← puts z pub nMsgs with
        | false => pure .aborted
        | true =>
          let _ ← perform z (.publisherDrop pub)
          let _ ← perform z (.subscriberDrop sub)
          let _ ← perform z (.sessionDrop pubSession)
          let _ ← perform z (.sessionDrop subSession)
          print (lit "received " ++ CStr.signed received ++ lit " sample(s)\n")
          pure (.returned (if 0 < received then 0 else 1))
  | _, _ => pure .aborted

theorem puts_owned (z : Zenoh) {pub : Handle} {D : Multiset Handle} (h : pub ∈ D) (n : Nat) :
    Owned D (puts z pub n) (Leaving D) := by
  induction n with
  | zero => exact .pure ⟨rfl, rfl⟩
  | succ n ih =>
    refine .handle D fun payload _ => .succeeds D (fun ok => ?_) (add_comm D {payload}) ?_
    · cases ok with
      | true => exact ih
      | false => exact .pure ⟨rfl, rfl⟩
    · intro x hx
      obtain rfl : x = pub := Multiset.mem_singleton.mp hx
      exact h

/-- The program, which was aborted or finds `received` in `g_received`. -/
def program (received : Nat) : Program where
  run z _ := main z received
  leaks := 0
  keeps := 0
  context := false
  owned z _ := by
    refine .handle 0 fun config _ => .unchecked 0 fun pubSession => ?_
    refine .handle (0 + pubSession.elim 0 ({·})) fun config _ => ?_
    refine .unchecked (0 + pubSession.elim 0 ({·})) fun subSession => ?_
    match pubSession, subSession with
    | none, _ | some _, none => exact .pure .aborted
    | some pubSession, some subSession =>
      refine .unchecked ({pubSession} + {subSession}) fun subKe => ?_
      refine .handOver none ({pubSession} + {subSession}) (.pure .abortedAfter) fun sub _ => ?_
      refine .unchecked ({pubSession} + {subSession} + {sub}) fun pubKe => ?_
      refine .pointer ({pubSession} + {subSession} + {sub}) (.pure .abortedAfter) fun pub _ => ?_
      refine .leads (puts_owned z (by simp) nMsgs) fun ok => ?_
      match ok with
      | false => exact .pure .abortedAfter
      | true =>
        refine .perform ({pubSession} + {subSession} + {sub}) fun _ => ?_
        refine .perform ({pubSession} + {subSession}) fun _ => .perform {subSession} fun _ => ?_
        exact .perform 0 fun _ => .printed (.pure (.cleanAfter rfl rfl))

end LeakTest

end ZenohFlatC.Handles
