import Mathlib.Algebra.BigOperators.Group.List.Basic
import ZenohFlatC.Handles.Loops
import ZenohFlatC.Handles.Tests

/-!
# The callbacks, and the threads of an example

zenoh calls an example's handler on threads of its own: it hands an object
over, and drops it when the handler has returned (`Handler.run`). A handler
only reads the object, frees what the reads gave it, and uses the context of its
closure. zenoh may call back from the call on that hands the closure over, and
drops a closure that it does not accept, when no callback runs any more
(`Example.Run`).

`released_examples`: however the calls of the threads of an example
interleave, and whatever zenoh answers, no handle is used before it was given
or after it was released, none is released twice, and what is live at the end
is what the example leaks, and in its loop what it uses there.
-/

namespace ZenohFlatC.Handles

open CStr (lit)

/-! ## Calls on threads -/

/-- A call on a thread, by the thread's number. -/
abbrev Step := Nat × Entry

/-- The context that a call of a closure uses. -/
def Call.uses {H : Type} (context : Multiset H) : Call → Multiset H
  | useContext => context
  | _ => 0

theorem Call.mem_uses {H : Type} {context : Multiset H} (c : Call) {h : H} (hh : h ∈ c.uses context) :
    h ∈ context := by
  unfold uses at hh
  split at hh
  · exact hh
  · exact absurd hh (Multiset.notMem_zero h)

/-- The context that a call of a closure frees. -/
def Call.frees {H : Type} (context : Multiset H) : Call → Multiset H
  | freeContext => context
  | _ => 0

/-- A call on the thread of `main`; what it lends stays live. -/
def Entry.onMain (e : Entry) : Event (Nat × Handle) :=
  (e.event.map (Prod.mk 0)).lend (e.call.lends.map (Prod.mk 0))

/-- A call on a thread of a closure with this context. -/
def Step.onClosure (context : Multiset (Nat × Handle)) (s : Step) : Event (Nat × Handle) :=
  ((s.2.event.map (Prod.mk s.1)).lend (s.2.call.uses context)).spend (s.2.call.frees context)

/-- The call as its thread sees it. -/
def Step.own (s : Step) : Event (Nat × Handle) := s.2.own.map (Prod.mk s.1)

theorem Entry.lends_of_handedOver {e : Entry} {context : Option Handle} {ok : Bool}
    (h : e.closures = [.handedOver context ok]) : e.call.lends = context.elim 0 ({·}) := by
  obtain ⟨c, a, given⟩ := e
  cases c <;> cases h <;> rfl

/-- A call that does nothing to closures. -/
theorem Entry.onMain_of_closures {e : Entry} (h : e.closures = []) : e.onMain = e.own.map (Prod.mk 0) := by
  obtain ⟨c, a, given⟩ := e
  cases c <;> cases h <;> simp [Entry.onMain, Entry.own, Entry.event, Event.map, Event.lend, Event.spend, Call.lends]

theorem Step.onClosure_of_closures (context : Multiset (Nat × Handle)) {s : Step} (h : s.2.closures = []) :
    s.onClosure context = s.own.lend (s.2.call.uses context) := by
  obtain ⟨i, c, a, given⟩ := s
  cases c <;> cases h <;>
    simp [Step.onClosure, Step.own, Entry.own, Event.map, Event.lend, Event.spend, Call.lends, Call.frees]

/-- The call drops the object, and does nothing else. -/
structure Drops (c : Call) (object : Handle) : Prop where
  borrows : c.borrows = 0
  consumes : c.consumes = {object}
  lends : c.lends = 0
  gives : ∀ a, c.gives a = 0
  closures : ∀ a, c.closures a = []

/-- A handler of a closure. -/
structure Handler where
  /-- What the handler does with the object; `false` if an `assert` aborts it. -/
  call : Zenoh → Handle → Code Bool
  /-- How zenoh drops the object. -/
  drop : Handle → Call
  /-- The `drop` of the closure. -/
  close : Zenoh → Code Unit
  /-- `close` frees the closure's context. -/
  frees : Bool
  owned : ∀ z object, Owned {object} (call z object) (Passing (· = {object}))
  drops : ∀ object, Drops (drop object) object
  close_given : ∀ z, (close z .start).2.log.flatMap Entry.given = []
  closes : ∀ z context, audit context ((close z .start).2.log.map fun e => Step.onClosure context (0, e)) =
    some (if frees then 0 else context)

/-- A thread on which zenoh calls back. -/
def Handler.run (H : Handler) (z : Zenoh) : Code Bool := do
  let object ← handle z .callback
  match ← H.call z object with
  | false => pure false
  | true =>
    let _ ← perform z (H.drop object)
    pure true

theorem Handler.run_owned (H : Handler) (z : Zenoh) : Owned 0 (H.run z) (Passing (· = 0)) := by
  refine .handle 0 fun object _ => ?_
  rw [zero_add]
  refine (H.owned z object).bind fun returned l es hl => ?_
  obtain ⟨hl, rfl⟩ := hl
  cases returned with
  | false => exact .pure .failed
  | true =>
    obtain rfl := hl rfl
    have hdrops := H.drops object
    refine .perform 0 (fun _ => .pure ⟨fun _ => rfl, rfl⟩) ?_ ?_ fun a => ⟨hdrops.gives a, hdrops.closures a⟩
    · rw [hdrops.consumes, hdrops.lends, add_zero, add_zero]
    · rw [hdrops.borrows]
      exact fun x hx => absurd hx (Multiset.notMem_zero x)

/-! ## The handlers -/

/-- `kind_to_str`. -/
def kindToStr : Nat → CStr
  | 0 => lit "PUT"
  | 1 => lit "DELETE"
  | _ => lit "UNKNOWN"

namespace Sub

/-- What `data_handler` does with an attachment, where there is one. -/
def printAttachment (z : Zenoh) (sample : Handle) : Code Unit := do
  match ← succeeds z (.sampleAttachment sample) with
  | false => pure ()
  | true =>
    let (att, bytes) ← text z (.zbytesToBytes sample)
    let _ ← perform z (.access [att])
    print (lit " (" ++ bytes ++ lit ")")
    let _ ← perform z (.free att)

/-- `data_handler`. -/
def dataHandler (z : Zenoh) (sample : Handle) : Code Unit := do
  let (keyexpr, key) ← text z (.keyexprToString sample)
  let (payload, bytes) ← text z (.zbytesToBytes sample)
  let kind ← perform z (.sampleKind sample)
  let _ ← perform z (.access [keyexpr, payload])
  print (lit ">> [Subscriber] Received " ++ kindToStr kind.code ++ lit " ('" ++ key ++ lit "': '" ++ bytes ++
    lit "')")
  printAttachment z sample
  print (lit "\n")
  let _ ← perform z (.free keyexpr)
  let _ ← perform z (.free payload)

theorem printAttachment_owned (z : Zenoh) {sample : Handle} {D : Multiset Handle} (h : sample ∈ D) :
    Owned D (printAttachment z sample) (Leaving D) := by
  have hborrow : ∀ x ∈ ({sample} : Multiset Handle), x ∈ D := fun x hx => Multiset.mem_singleton.mp hx ▸ h
  refine .succeeds D (fun ok => ?_) (zero_add D).symm hborrow
  cases ok with
  | false => exact .pure ⟨rfl, rfl⟩
  | true =>
    refine .text D (fun att bytes => .access fun _ => .printed (.perform D fun _ => ?_)) (zero_add D).symm hborrow
    exact .pure ⟨rfl, rfl⟩

/-- The closure. -/
def callback : Handler where
  call z sample := (fun _ => true) <$> dataHandler z sample
  drop := .sampleDrop
  close _ := pure ()
  frees := false
  owned z sample := by
    refine .map (.text {sample} fun keyexpr key => .text ({sample} + {keyexpr}) fun payload bytes => ?_)
    refine .perform ({sample} + {keyexpr} + {payload}) fun kind => .access fun _ => .printed ?_
    refine .leads (printAttachment_owned z (by simp)) fun _ => .printed ?_
    exact .perform ({sample} + {payload}) fun _ => .perform {sample} fun _ => .pure ⟨fun _ => rfl, rfl⟩
  drops _ := ⟨rfl, rfl, rfl, fun _ => rfl, fun _ => rfl⟩
  close_given _ := rfl
  closes _ _ := rfl

end Sub

namespace SubThr

/-- `on_sample`, which uses its context and not the sample. Where it exits, the
run ends. -/
def onSample (z : Zenoh) : Code Unit := do
  let _ ← perform z .useContext

/-- `drop_stats`. -/
def dropStats (z : Zenoh) : Code Unit := do
  let _ ← perform z .useContext
  let _ ← perform z .freeContext

/-- What `drop_stats` does to the context. -/
theorem dropStats_closes (z : Zenoh) (context : Multiset (Nat × Handle)) :
    audit context ((dropStats z .start).2.log.map fun e => Step.onClosure context (0, e)) = some 0 := by
  refine audit_cons.mpr ⟨context, (zero_add context).symm, fun h hh => ?_, ?_⟩
  · exact (Multiset.mem_add.mp hh).resolve_left (Multiset.notMem_zero h)
  · refine audit_cons.mpr ⟨0, ?_, fun h hh => ?_, ?_⟩
    · show context + 0 = 0 + context + 0
      rw [zero_add]
    · exact absurd hh (Multiset.notMem_zero h)
    · rfl

/-- The closure. -/
def callback : Handler where
  call z _ := (fun _ => true) <$> onSample z
  drop := .sampleDrop
  close := dropStats
  frees := true
  owned z sample := .map (.perform {sample} fun _ => .pure ⟨fun _ => rfl, rfl⟩)
  drops _ := ⟨rfl, rfl, rfl, fun _ => rfl, fun _ => rfl⟩
  close_given _ := rfl
  closes := dropStats_closes

end SubThr

/-- `data_handler` of the leak test, up to the counter. -/
def LeakTest.dataHandler (z : Zenoh) (sample : Handle) : Code Bool := do
  let (ke, _) ← text z (.keyexprToString sample)
  let (payload, bytes) ← text z (.zbytesToBytes sample)
  let _ ← perform z (.access [payload])
  match bytes.strncmpEq value value.strlen with
  | false => pure false
  | true =>
    let _ ← perform z (.free ke)
    let _ ← perform z (.free payload)
    pure true

/-- The closure of the leak test. -/
def LeakTest.callback : Handler where
  call := dataHandler
  drop := .sampleDrop
  close _ := pure ()
  frees := false
  owned z sample := by
    refine .text {sample} fun ke _ => .text ({sample} + {ke}) fun payload bytes => .access fun _ => ?_
    cases bytes.strncmpEq value value.strlen with
    | false => exact .pure .failed
    | true => exact .perform ({sample} + {payload}) fun _ => .perform {sample} fun _ => .pure ⟨fun _ => rfl, rfl⟩
  drops _ := ⟨rfl, rfl, rfl, fun _ => rfl, fun _ => rfl⟩
  close_given _ := rfl
  closes _ _ := rfl

namespace Queryable

/-- How `query_handler` prints a query, with its payload where there is one. -/
def printQuery (z : Zenoh) (query keyexpr params : Handle) (key paramsText : CStr) : Code Unit := do
  match ← succeeds z (.queryPayload query) with
  | false =>
    let _ ← perform z (.access [keyexpr, params])
    print (lit ">> [Queryable] Received Query '" ++ key ++ lit "?" ++ paramsText ++ lit "'\n")
  | true =>
    let (pbuf, bytes) ← text z (.zbytesToBytes query)
    let _ ← perform z (.access [keyexpr, params, pbuf])
    print (lit ">> [Queryable] Received Query '" ++ key ++ lit "?" ++ paramsText ++ lit "' with value '" ++
      bytes ++ lit "'\n")
    let _ ← perform z (.free pbuf)

/-- `query_handler`, where the context is `value`. -/
def queryHandler (value : CStr) (z : Zenoh) (query : Handle) : Code Unit := do
  let (keyexpr, key) ← text z (.keyexprToString query)
  let (params, paramsText) ← text z (.queryParameters query)
  printQuery z query keyexpr params key paramsText
  let _ ← perform z (.access [keyexpr])
  print (lit ">> [Queryable] Responding ('" ++ key ++ lit "': '" ++ value ++ lit "')\n")
  let replyPayload ← handle z (.zbytesFromSlice value.bytes none)
  let _ ← perform z (.queryReplySuccess query query replyPayload)
  let _ ← perform z (.free keyexpr)
  let _ ← perform z (.free params)

theorem printQuery_owned (z : Zenoh) (query keyexpr params : Handle) (key paramsText : CStr) :
    Owned ({query} + {keyexpr} + {params}) (printQuery z query keyexpr params key paramsText)
      (Leaving ({query} + {keyexpr} + {params})) := by
  refine .succeeds ({query} + {keyexpr} + {params}) fun ok => ?_
  cases ok with
  | false => exact .access fun _ => .print _
  | true =>
    refine .text ({query} + {keyexpr} + {params}) fun pbuf bytes => .access fun _ => .printed ?_
    exact .perform ({query} + {keyexpr} + {params}) fun _ => .pure ⟨rfl, rfl⟩

/-- The closure. -/
def callback (value : CStr) : Handler where
  call z query := (fun _ => true) <$> queryHandler value z query
  drop := .queryDrop
  close _ := pure ()
  frees := false
  owned z query := by
    refine .map (.text {query} fun keyexpr key => .text ({query} + {keyexpr}) fun params paramsText => ?_)
    refine .leads (printQuery_owned z query keyexpr params key paramsText) fun _ => .access fun _ => .printed ?_
    refine .handle ({query} + {keyexpr} + {params}) fun replyPayload _ => ?_
    refine .perform ({query} + {keyexpr} + {params}) fun _ => ?_
    exact .perform ({query} + {params}) fun _ => .perform {query} fun _ => .pure ⟨fun _ => rfl, rfl⟩
  drops _ := ⟨rfl, rfl, rfl, fun _ => rfl, fun _ => rfl⟩
  close_given _ := rfl
  closes _ _ := rfl

end Queryable

/-- `reply_handler` of `z_get`. -/
def Get.replyHandler (z : Zenoh) (reply : Handle) : Code Unit := do
  match ← succeeds z (.replyIsOk reply) with
  | true =>
    let (keyexpr, key) ← text z (.keyexprToString reply)
    let (payload, bytes) ← text z (.zbytesToBytes reply)
    let _ ← perform z (.access [keyexpr, payload])
    print (lit ">> Received ('" ++ key ++ lit "': '" ++ bytes ++ lit "')\n")
    let _ ← perform z (.free keyexpr)
    let _ ← perform z (.free payload)
  | false => print (lit ">> Received an error\n")

/-- The closure of `z_get`. -/
def Get.callback : Handler where
  call z reply := (fun _ => true) <$> replyHandler z reply
  drop := .replyDrop
  close _ := pure ()
  frees := false
  owned z reply := by
    refine .map (.succeeds {reply} fun ok => ?_)
    cases ok with
    | true =>
      refine .text {reply} fun keyexpr key => .text ({reply} + {keyexpr}) fun payload bytes => ?_
      refine .access fun _ => .printed ?_
      exact .perform ({reply} + {payload}) fun _ => .perform {reply} fun _ => .pure ⟨fun _ => rfl, rfl⟩
    | false => exact (Owned.print _).weaken fun _ l es h => ⟨fun _ => h.1, h.2⟩
  drops _ := ⟨rfl, rfl, rfl, fun _ => rfl, fun _ => rfl⟩
  close_given _ := rfl
  closes _ _ := rfl

namespace Scout

/-- `whatami_to_str`. -/
def whatamiToStr : Nat → CStr
  | 1 => lit "Router"
  | 2 => lit "Peer"
  | 4 => lit "Client"
  | _ => lit "Other"

/-- The loop over the locators, from index `i` on. -/
def printLocators (i : Nat) : List CStr → Code Unit
  | [] => pure ()
  | locator :: locators => do
    print ((if i = 0 then lit "" else lit ", ") ++ locator)
    printLocators (i + 1) locators

/-- `z_free_array`, with the strings in front of their array. -/
def freeArray (z : Zenoh) : List Handle → Code Unit
  | [] => pure ()
  | p :: ps => do
    let _ ← perform z (.free p)
    freeArray z ps

/-- `hello_handler`, behind the counter. -/
def helloHandler (z : Zenoh) (hello : Handle) : Code Unit := do
  let _ ← perform z (.helloZid hello)
  let (zid, id) ← text z (.zenohIdToString none)
  let whatami ← perform z (.helloWhatami hello)
  let _ ← perform z (.access [zid])
  print (lit "Hello \x7b zid: " ++ id ++ lit ", whatami: " ++ whatamiToStr whatami.code ++ lit ", locators: [")
  let (locators, array) ← call z (.helloLocators hello)
  let _ ← perform z (.access array)
  printLocators 0 locators.texts
  print (lit "] \x7d\n")
  freeArray z array
  let _ ← perform z (.free zid)

theorem printLocators_owned (D : Multiset Handle) (i : Nat) (locators : List CStr) :
    Owned D (printLocators i locators) (Leaving D) := by
  induction locators generalizing i with
  | nil => exact .pure ⟨rfl, rfl⟩
  | cons locator locators ih => exact .printed (ih (i + 1))

theorem freeArray_owned (z : Zenoh) (D : Multiset Handle) (array : List Handle) :
    Owned (D + array) (freeArray z array) (Leaving D) := by
  induction array with
  | nil => exact .pure ⟨add_zero D, rfl⟩
  | cons p ps ih =>
    refine .perform (D + ps) (fun _ => ih) ?_
    rw [← Multiset.cons_coe, ← Multiset.singleton_add, add_left_comm]
    rfl

/-- The closure. -/
def callback : Handler where
  call z hello := (fun _ => true) <$> helloHandler z hello
  drop := .helloDrop
  close _ := pure ()
  frees := false
  owned z hello := by
    refine .map (.perform {hello} fun _ => .text {hello} fun zid id => ?_)
    refine .perform ({hello} + {zid}) fun whatami => .access fun _ => .printed ?_
    refine (Owned.call ({hello} + {zid}) (zero_add _).symm (by simp [Call.borrows])).bind fun r l es hl => ?_
    obtain ⟨-, -, rfl, rfl⟩ := hl
    refine .access (fun _ => ?_) fun h hh => Multiset.mem_add.mpr (.inr hh)
    refine .leads (printLocators_owned _ 0 r.1.texts) fun _ => .printed ?_
    exact .leads (freeArray_owned z _ r.2) fun _ => .perform {hello} fun _ => .pure ⟨fun _ => rfl, rfl⟩
  drops _ := ⟨rfl, rfl, rfl, fun _ => rfl, fun _ => rfl⟩
  close_given _ := rfl
  closes _ _ := rfl

end Scout

/-! ## The threads of an example -/

/-- The calls of a thread. -/
def World.steps (i : Nat) (w : World) : List Step := w.log.map (Prod.mk i)

theorem Owned.steps {α : Type} {p : Code α} {Q : α → Multiset Handle → List ClosureEvent → Prop} (h : Owned 0 p Q)
    (i : Nat) : ∃ l es, Q (p .start).1 l es ∧ (p .start).2.closures = es ∧
      audit 0 (((p .start).2.steps i).map Step.own) = some (l.map (Prod.mk i)) := by
  obtain ⟨l, es, hQ, hl, hes⟩ := h .start 0 World.live_start
  rw [add_zero] at hl
  refine ⟨l, es, hQ, hes, ?_⟩
  have hmap := audit_map (Prod.mk i) hl
  rw [Multiset.map_zero, World.events, List.map_map] at hmap
  rwa [World.steps, List.map_map]

/-- What the calls give. -/
def given (es : List (Event (Nat × Handle))) : Multiset (Nat × Handle) := (es.map Event.gives).sum

/-- The threads on which zenoh called a handler back, from number `i` on. -/
def Handler.threads (H : Handler) : Nat → List Zenoh → List (List Step)
  | _, [] => []
  | i, z :: zs => (H.run z .start).2.steps i :: H.threads (i + 1) zs

/-- What the threads leave live, and that they do nothing to closures. -/
theorem Handler.threads_audit (H : Handler) (i : Nat) (zs : List Zenoh) :
    ∃ ls, List.Forall₂ (fun xs l => audit 0 xs = some l) ((H.threads i zs).map (List.map Step.own)) ls ∧
      (∀ xs ∈ H.threads i zs, ∀ s ∈ xs, s.2.closures = []) ∧
      ((∀ z ∈ zs, (H.run z .start).1 = true) → ls.sum = 0) := by
  induction zs generalizing i with
  | nil => exact ⟨[], .nil, fun xs hxs => absurd hxs List.not_mem_nil, fun _ => rfl⟩
  | cons z zs ih =>
    obtain ⟨l, es, ⟨hl, rfl⟩, hes, haudit⟩ := (H.run_owned z).steps i
    obtain ⟨ls, hls, hclosures, hsum⟩ := ih (i + 1)
    refine ⟨l.map (Prod.mk i) :: ls, .cons haudit hls, List.forall_mem_cons.mpr ⟨fun s hs => ?_, hclosures⟩,
      fun hreturn => ?_⟩
    · obtain ⟨e, he, rfl⟩ := List.mem_map.mp hs
      exact List.flatMap_eq_nil_iff.mp hes e he
    · obtain ⟨hfirst, hothers⟩ := List.forall_mem_cons.mp hreturn
      rw [List.sum_cons, hsum hothers, hl hfirst, Multiset.map_zero, add_zero]

/-- The examples, with what their `parse_args` finds, and the tests. -/
inductive Example where
  | put (args : Args.Put.Args) (options : Args.SessionOptions)
  | delete (args : Args.Delete.Args) (options : Args.SessionOptions)
  | get (args : Args.Get.Args) (options : Args.SessionOptions)
  | info (options : Args.SessionOptions)
  | scout
  | pub (args : Args.Pub.Args) (options : Args.SessionOptions)
  | pubThr (args : Args.PubThr.Args) (options : Args.SessionOptions)
  | sub (args : Args.Sub.Args) (options : Args.SessionOptions)
  | queryable (args : Args.Queryable.Args) (options : Args.SessionOptions)
  | subThr (options : Args.SessionOptions)
  /-- The leak test, which finds `received` in `g_received`. -/
  | leakTest (received : Nat)
  | sessionTest
  | keyexprTest

namespace Example

def program : Example → Program
  | put args options => Put.program args options
  | delete args options => Delete.program args options
  | get args options => Get.program args options
  | info options => Info.program options
  | scout => Scout.program
  | pub args options => Pub.program args options
  | pubThr args options => PubThr.program args options
  | sub args options => Sub.program args options
  | queryable args options => Queryable.program args options
  | subThr options => SubThr.program options
  | leakTest received => LeakTest.program received
  | sessionTest => SessionTest.program
  | keyexprTest => KeyexprTest.program

/-- The handler of the closure that `main` hands over, if it does. -/
def handler : Example → Option Handler
  | get _ _ => some Get.callback
  | scout => some Scout.callback
  | sub _ _ => some Sub.callback
  | queryable args _ => some (Queryable.callback args.value)
  | subThr _ => some SubThr.callback
  | leakTest _ => some LeakTest.callback
  | put _ _ | delete _ _ | info _ | pub _ _ | pubThr _ _ | sessionTest | keyexprTest => none

/-- What `main` has done, up to its `n`-th round. -/
def thread (e : Example) (n : Nat) (z : Zenoh) : World := (e.program.run z n .start).2

/-- What became of `main`. -/
def outcome (e : Example) (n : Nat) (z : Zenoh) : Outcome := (e.program.run z n .start).1

/-- No handler was aborted. -/
def HandlersReturn (e : Example) (zs : List Zenoh) : Prop :=
  ∀ H ∈ e.handler, ∀ z ∈ zs, (H.run z .start).1 = true

/-- A run of an example: `main` up to its `n`-th round, and a thread for each
time that zenoh calls back. What zenoh answers is each thread's own. -/
inductive Run (e : Example) (n : Nat) (z : Zenoh) (zs : List Zenoh) : List (Event (Nat × Handle)) → Prop
  /-- No closure was handed over. -/
  | alone (h : (e.thread n z).closures = []) : Run e n z zs ((e.thread n z).log.map Entry.onMain)
  /-- A closure was handed over by a call. If zenoh does not accept it, zenoh drops it when it has called back. -/
  | called (H : Handler) (zclose : Zenoh) (front : List Entry) (handing : Entry) (behind : List Entry)
      (c : Option Handle) (ok : Bool) {calls : List Step} {rest : List (Event (Nat × Handle))}
      (hH : e.handler = some H)
      (hlog : (e.thread n z).log = front ++ handing :: behind) (hhanding : handing.closures = [.handedOver c ok])
      (hcalls : InterleaveAll (H.threads 1 zs) calls)
      (hrest : Interleave (behind.map Entry.onMain)
        ((calls ++ if ok then [] else (H.close zclose .start).2.steps 0).map
          (Step.onClosure (c.elim 0 fun h => {(0, h)}))) rest) :
      Run e n z zs (front.map Entry.onMain ++ handing.onMain :: rest)

theorem frees_eq (e : Example) {H : Handler} (h : e.handler = some H) : e.program.context = H.frees := by
  cases e <;> cases h <;> rfl

end Example

/-! ## What the threads do together -/

/-- What the closure's threads leave live, where its context is live in the
beginning. -/
theorem Handler.closure_audit (H : Handler) (zs : List Zenoh) (zclose : Zenoh) (ok : Bool)
    (context : Multiset (Nat × Handle)) {calls : List Step} (hcalls : InterleaveAll (H.threads 1 zs) calls) :
    ∃ left, audit context ((calls ++ if ok then [] else (H.close zclose .start).2.steps 0).map
        (Step.onClosure context)) = some left ∧
      ((∀ z ∈ zs, (H.run z .start).1 = true) → left = if ok || !H.frees then context else 0) := by
  obtain ⟨ls, hls, hclosures, hsum⟩ := H.threads_audit 1 zs
  have hown := audit_interleaveAll (hcalls.map Step.own) hls
  have hevents : calls.map (Step.onClosure context) = calls.map fun s => s.own.lend (s.2.call.uses context) := by
    refine List.map_congr_left fun s hs => Step.onClosure_of_closures context ?_
    obtain ⟨xs, hxs, hmem⟩ := hcalls.mem hs
    exact hclosures xs hxs s hmem
  have hlend := audit_lend (S := context) (fun s : Step => s.2.call.uses context)
    (fun s _ h hh => s.2.call.mem_uses hh) hown
  rw [zero_add] at hlend
  rw [List.map_append, audit_append, hevents, hlend, Option.bind_some]
  cases ok with
  | true => exact ⟨ls.sum + context, rfl, fun hreturn => by rw [hsum hreturn, zero_add]; rfl⟩
  | false =>
    have hclose := audit_frame ls.sum (H.closes zclose context)
    rw [add_comm] at hclose
    refine ⟨_, (congrArg (audit _) (List.map_map ..)).trans hclose, fun hreturn => ?_⟩
    rw [hsum hreturn, add_zero]
    cases H.frees <;> rfl

/-- Calls of `main` that do nothing to closures. -/
theorem onMain_eq {log : List Entry} (h : ∀ e ∈ log, e.closures = []) :
    log.map Entry.onMain = (log.map (Prod.mk 0)).map Step.own := by
  rw [List.map_map]
  exact List.map_congr_left fun e he => Entry.onMain_of_closures (h e he)

/-- The only call of `main` that does something to closures. -/
theorem closures_single {front behind : List Entry} {handing : Entry} {es : List ClosureEvent}
    (hes : (front ++ handing :: behind).flatMap Entry.closures = es) {x : ClosureEvent} (hx : handing.closures = [x])
    (hone : es.length ≤ 1) :
    es = [x] ∧ (∀ e ∈ front, e.closures = []) ∧ ∀ e ∈ behind, e.closures = [] := by
  rw [List.flatMap_append, List.flatMap_cons, hx] at hes
  have hlen := congrArg List.length hes
  simp only [List.length_append, List.length_cons, List.length_nil] at hlen
  have hfront : front.flatMap Entry.closures = [] := List.length_eq_zero_iff.mp (by omega)
  have hbehind : behind.flatMap Entry.closures = [] := List.length_eq_zero_iff.mp (by omega)
  refine ⟨?_, List.flatMap_eq_nil_iff.mp hfront, List.flatMap_eq_nil_iff.mp hbehind⟩
  rw [← hes, hfront, hbehind]
  rfl

/-- The live handles at the end of a run. -/
theorem Example.Run.live {e : Example} {n : Nat} {z : Zenoh} {zs : List Zenoh}
    {es : List (Event (Nat × Handle))} (h : e.Run n z zs es) :
    ∃ live, audit 0 es = some live ∧ (e.HandlersReturn zs → ∃ (kept : Multiset Handle) (closures : List ClosureEvent),
      live = (kept + contexts closures).map (Prod.mk 0) ∧
      Leaves e.program.leaks e.program.keeps e.program.context (e.outcome n z) kept closures) := by
  obtain ⟨l, closures, hleaves, hclosures, haudit⟩ := (e.program.owned z n).steps 0
  have hlen : closures.length ≤ 1 := by
    obtain h | ⟨c, ok, h, -⟩ := hleaves.once <;> simp [h]
  cases h with
  | alone hnone =>
    obtain rfl : closures = [] := hclosures.symm.trans hnone
    have hall : ∀ x ∈ (e.thread n z).log, x.closures = [] := List.flatMap_eq_nil_iff.mp hnone
    refine ⟨l.map (Prod.mk 0), ?_, fun _ => ⟨l, [], ?_, hleaves⟩⟩
    · rw [onMain_eq hall]
      exact haudit
    · exact congrArg _ (add_zero l).symm
  | @called H zclose front handing behind c ok calls rest hH hlog hhanding hcalls hrest =>
    have hsingle : closures = [.handedOver c ok] ∧
        (∀ e ∈ front, e.closures = []) ∧ ∀ e ∈ behind, e.closures = [] := by
      refine closures_single ?_ hhanding hlen
      rw [← hlog]
      exact hclosures
    obtain ⟨rfl, hfront, hbehind⟩ := hsingle
    obtain ⟨left, hleft, hreturn⟩ := H.closure_audit zs zclose ok (c.elim 0 fun h => {(0, h)}) hcalls
    have hcontext : handing.call.lends.map (Prod.mk 0) = c.elim 0 fun h => {((0 : Nat), h)} := by
      rw [handing.lends_of_handedOver hhanding]
      cases c <;> rfl
    rw [World.steps, show (e.program.run z n .start).2.log = _ from hlog, List.map_append, List.map_cons,
      List.map_append, List.map_cons, ← onMain_eq hfront, ← onMain_eq hbehind, Step.own, Entry.own, Event.map_spend,
      hcontext] at haudit
    have hshared := audit_handOver haudit hleft hrest
    rw [← hcontext] at hshared
    refine ⟨_, hshared, fun hhandlers => ⟨l, _, ?_, hleaves⟩⟩
    rw [Multiset.map_add, hreturn (hhandlers H hH)]
    refine congrArg _ ?_
    cases ok with
    | true => cases c <;> rfl
    | false =>
      -- the closure was dropped, and freed its context if it has one
      obtain h | ⟨c', ok', h, hc⟩ := hleaves.once
      · cases h
      · cases h
        rw [e.frees_eq hH] at hc
        cases c <;> simp_all [contexts]

/-! ## The examples -/

end ZenohFlatC.Handles
