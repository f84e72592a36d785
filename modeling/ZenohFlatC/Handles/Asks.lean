import ZenohFlatC.Handles.ParseArgs

/-!
# What a thread asks of zenoh

A call names its operands by handles. What it asks for is found by the calls
that gave the handles (`origin`): which key expression, which bytes, how the
publisher was declared, and with which settings the session was opened
(`configCalls`). `request` reads what a call asks for; `requests` are those of a
thread, each read at its call.

`Asks K p Q`: from a log in which the facts `K` hold, `p` makes the requests
that `Q` says. There is a rule for each way to call. `parse_args` asks for
nothing, and leaves the configuration that its options say
(`parseArgs_configures`); these are the options that its scans find
(`follows_examples`).
-/

namespace ZenohFlatC.Handles

open CStr (lit)
open Args (CfgPair ConfigCall SessionOptions)

/-- The key expression of a request. -/
inductive Key where
  | of (s : CStr)
  /-- `NULL`, which `z_keyexpr_try_from` returned for `s`. -/
  | refused (s : CStr)
  | unknown
  deriving DecidableEq

/-- What is asked for. A text or bytes are `none` if they are not the thread's own. -/
inductive Ask where
  | put (key : Key) (value : Option (List UInt8))
  | delete (key : Key)
  | get (key : Key) (parameters : Option CStr) (timeoutMs : Int64) (target : Args.Get.QueryTarget)
      (value : Option (List UInt8))
  /-- With what the publisher was declared with. -/
  | publish (key : Key) (congestionControl : Option CongestionControl) (priority : Option Args.PubThr.Priority)
      (express : Option Bool) (value attachment : Option (List UInt8))
  | subscribe (key : Key)
  | answer (key : Key) (complete : Bool)
  /-- Of a query that zenoh handed over, or not; on the key expression of the query itself, or not. -/
  | reply (handedOver ownKey : Bool) (value : Option (List UInt8))
  deriving DecidableEq

/-- A request, with the calls that configured its session, where the thread
has opened it. -/
structure Request where
  settings : Option (List ConfigCall)
  ask : Ask
  deriving DecidableEq

namespace Entry

/-- What the call does to the configuration `config`. -/
def configures (config : Handle) (e : Entry) : Option ConfigCall :=
  match e.call with
  | .configDefault => if config ∈ e.given then some .default else none
  | .configFromFile path => if config ∈ e.given then some (.fromFile path) else none
  | .configInsertJson5 c key value _ => if c = config then some (.insertJson5 key value) else none
  | _ => none

/-- The text that zenoh was to make a key expression of, and whether it did. -/
def tries (e : Entry) : Option (CStr × Bool) :=
  match e.call with
  | .keyexprTryFrom s => some (s, e.answer.ok)
  | _ => none

end Entry

section

variable (log : List Entry)

/-- The call that gave a handle. -/
def origin (h : Handle) : Option Call := (log.find? fun e => decide (h ∈ e.given)).map (·.call)

/-- A key expression. -/
def keyOf (ke : Handle) : Key :=
  match origin log ke with
  | some (.keyexprTryFrom s) => .of s
  | _ => .unknown

/-- A key expression that may be `NULL`. -/
def keyOrNull : Option Handle → Key
  | some ke => keyOf log ke
  | none =>
    match (log.filterMap Entry.tries).getLast? with
    | some (s, false) => .refused s
    | _ => .unknown

/-- The bytes of a slice. -/
def sliceBytes (z : Handle) : Option (List UInt8) :=
  match origin log z with
  | some (.zbytesFromSlice bytes _) => some bytes
  | _ => none

/-- The bytes of a slice, or of a clone of one. -/
def bytesOf (z : Handle) : Option (List UInt8) :=
  match origin log z with
  | some (.zbytesClone z) => sliceBytes log z
  | _ => sliceBytes log z

/-- The calls that made a configuration. -/
def configCalls (config : Handle) : List ConfigCall := log.filterMap (Entry.configures config)

/-- The settings of a session. -/
def settingsOf (s : Handle) : Option (List ConfigCall) :=
  match origin log s with
  | some (.zOpen config) => some (configCalls log config)
  | _ => none

/-- What a call asks for. -/
def request : Call → Option Request
  | .sessionPut s ke payload => some ⟨settingsOf log s, .put (keyOf log ke) (bytesOf log payload)⟩
  | .sessionDelete s ke => some ⟨settingsOf log s, .delete (keyOf log ke)⟩
  | .sessionGet s ke parameters timeoutMs target payload =>
    some ⟨settingsOf log s, .get (keyOf log ke) parameters timeoutMs target (payload.bind (bytesOf log))⟩
  | .sessionDeclareSubscriber s ke _ => some ⟨settingsOf log s, .subscribe (keyOrNull log ke)⟩
  | .sessionDeclareQueryable s ke complete => some ⟨settingsOf log s, .answer (keyOf log ke) complete⟩
  | .publisherPut pub payload attachment =>
    match origin log pub with
    | some (.sessionDeclarePublisher s ke congestionControl priority express) =>
      some ⟨settingsOf log s, .publish (keyOrNull log ke) congestionControl priority express
        (bytesOf log payload) (attachment.bind (bytesOf log))⟩
    | _ => none
  | .queryReplySuccess query ke payload =>
    some ⟨none, .reply (origin log query = some .callback) (ke = query) (bytesOf log payload)⟩
  | _ => none

variable {log}

theorem keyOf_of {ke : Handle} {s : CStr} (h : origin log ke = some (.keyexprTryFrom s)) : keyOf log ke = .of s := by
  rw [keyOf, h]

theorem keyOrNull_of {ke : Handle} {s : CStr} (h : origin log ke = some (.keyexprTryFrom s)) :
    keyOrNull log (some ke) = .of s := keyOf_of h

theorem keyOrNull_refused {s : CStr} (h : (log.filterMap Entry.tries).getLast? = some (s, false)) :
    keyOrNull log none = .refused s := by
  rw [keyOrNull, h]

theorem sliceBytes_of {z : Handle} {bytes : List UInt8} {block : Option Handle}
    (h : origin log z = some (.zbytesFromSlice bytes block)) : sliceBytes log z = some bytes := by rw [sliceBytes, h]

theorem bytesOf_slice {z : Handle} {bytes : List UInt8} {block : Option Handle}
    (h : origin log z = some (.zbytesFromSlice bytes block)) : bytesOf log z = some bytes := by
  rw [bytesOf, h]
  exact sliceBytes_of h

theorem bytesOf_clone {z x : Handle} {bytes : List UInt8} {block : Option Handle}
    (hz : origin log z = some (.zbytesClone x)) (hx : origin log x = some (.zbytesFromSlice bytes block)) :
    bytesOf log z = some bytes := by
  rw [bytesOf, hz]
  exact sliceBytes_of hx

end

namespace Call

/-- The call inserts a value in a configuration. -/
def inserts : Call → Bool
  | configInsertJson5 _ _ _ _ => true
  | _ => false

/-- The call is to make a key expression of a text. -/
def tries : Call → Bool
  | keyexprTryFrom _ => true
  | _ => false

/-- The call asks for nothing, and is none of these. -/
def quiet : Call → Bool
  | sessionPut _ _ _ | sessionDelete _ _ | sessionGet _ _ _ _ _ _ | sessionDeclareSubscriber _ _ _
  | sessionDeclareQueryable _ _ _ | publisherPut _ _ _ | queryReplySuccess _ _ _
  | configInsertJson5 _ _ _ _ | keyexprTryFrom _ => false
  | _ => true

variable {c : Call}

theorem request_of_quiet (h : c.quiet = true) (log : List Entry) : request log c = none := by
  cases c <;> first | rfl | cases h

theorem inserts_of_quiet (h : c.quiet = true) : c.inserts = false := by
  cases c <;> first | rfl | cases h

theorem tries_of_quiet (h : c.quiet = true) : c.tries = false := by
  cases c <;> first | rfl | cases h

theorem inserts_of_request {log : List Entry} {r : Request} (h : request log c = some r) : c.inserts = false := by
  cases c <;> first | rfl | cases h

theorem tries_of_request {log : List Entry} {r : Request} (h : request log c = some r) : c.tries = false := by
  cases c <;> first | rfl | cases h

end Call

/-- The requests of calls that were made behind others. -/
def requestsAfter (past : List Entry) : List Entry → List Request
  | [] => []
  | e :: es => (request past e.call).toList ++ requestsAfter (past ++ [e]) es

theorem requestsAfter_concat (past es : List Entry) (e : Entry) :
    requestsAfter past (es ++ [e]) = requestsAfter past es ++ (request (past ++ es) e.call).toList := by
  induction es generalizing past with
  | nil =>
    show (request past e.call).toList ++ [] = [] ++ (request (past ++ []) e.call).toList
    rw [List.append_nil, List.append_nil, List.nil_append]
  | cons x es ih =>
    show (request past x.call).toList ++ requestsAfter (past ++ [x]) (es ++ [e]) = _
    rw [ih, ← List.append_assoc, List.append_assoc past]
    rfl

namespace World

/-- The requests of a thread. -/
def requests (w : World) : List Request := requestsAfter [] w.log

theorem requests_after (w : World) (c : Call) (a : Answer) :
    (w.after c a).requests = w.requests ++ (request w.log c).toList := requestsAfter_concat [] w.log _

theorem origin_after (w : World) (c : Call) (a : Answer) {h : Handle} {d : Call} (hd : origin w.log h = some d) :
    origin (w.after c a).log h = some d := by
  obtain ⟨e, he, rfl⟩ := Option.map_eq_some_iff.mp hd
  show (List.find? _ (w.log ++ [_])).map _ = _
  rw [List.find?_append, he]
  rfl

/-- A new handle was not given before. -/
theorem not_given (w : World) (c : Call) (a : Answer) {h : Handle} (hh : h ∈ w.given c a) :
    h ∉ w.log.flatMap Entry.given := by
  intro hmem
  have hnumber : h.number ∈ (w.log.flatMap Entry.given).map Handle.number := List.mem_map_of_mem hmem
  rw [w.numbered, List.mem_range] at hnumber
  obtain ⟨k, hk, rfl⟩ := List.mem_map.mp hh
  obtain ⟨hle, -⟩ := List.mem_range'_1.mp hk
  exact absurd hnumber (Nat.not_lt.mpr hle)

theorem origin_new (w : World) (c : Call) (a : Answer) {h : Handle} (hh : h ∈ w.given c a) :
    origin (w.after c a).log h = some c := by
  have hold : w.log.find? (fun e => decide (h ∈ e.given)) = none := by
    refine List.find?_eq_none.mpr fun e he hgiven => ?_
    exact w.not_given c a hh (List.mem_flatMap.mpr ⟨e, he, of_decide_eq_true hgiven⟩)
  show (List.find? _ (w.log ++ [_])).map _ = _
  rw [List.find?_append, hold, Option.none_or]
  simp only [List.find?_cons, hh, decide_true, Option.map_some]

end World

/-! ## Facts about a log -/

/-- What is known about a log. -/
inductive Fact where
  /-- The handle comes from the call. -/
  | gave (h : Handle) (c : Call)
  /-- The configuration was given, and these calls made it. -/
  | configured (config : Handle) (calls : List ConfigCall)
  /-- The last text of a key expression, which zenoh refused. -/
  | refused (s : CStr)

def Fact.Holds (log : List Entry) : Fact → Prop
  | gave h c => origin log h = some c
  | configured config calls => config ∈ log.flatMap Entry.given ∧ configCalls log config = calls
  | refused s => (log.filterMap Entry.tries).getLast? = some (s, false)

/-- The call does not change what is known. -/
def Fact.KeptBy (c : Call) : Fact → Prop
  | gave _ _ => True
  | configured _ _ => c.inserts = false
  | refused _ => c.tries = false

theorem Fact.keptBy_of {c : Call} (hinserts : c.inserts = false) (htries : c.tries = false) (f : Fact) :
    f.KeptBy c := by
  cases f with
  | gave h d => trivial
  | configured config calls => exact hinserts
  | refused s => exact htries

/-- A call that is no insertion does nothing to a configuration that was given before. -/
theorem World.configures_after (w : World) {c : Call} (a : Answer) (hc : c.inserts = false) {config : Handle}
    (hconfig : config ∈ w.log.flatMap Entry.given) :
    Entry.configures config ⟨c, a, w.given c a⟩ = none := by
  have hnew : config ∉ w.given c a := fun h => w.not_given c a h hconfig
  cases c <;> first | rfl | exact if_neg hnew | cases hc

theorem Fact.Holds.after {w : World} {f : Fact} (h : f.Holds w.log) {c : Call} (a : Answer) (hc : f.KeptBy c) :
    f.Holds (w.after c a).log := by
  cases f with
  | gave h' d => exact w.origin_after c a h
  | configured config calls =>
    obtain ⟨hgiven, hcalls⟩ := h
    refine ⟨?_, ?_⟩
    · show config ∈ (w.log ++ [_]).flatMap _
      rw [List.flatMap_append]
      exact List.mem_append_left _ hgiven
    · show (w.log ++ [_]).filterMap _ = _
      rw [List.filterMap_append, List.filterMap_cons_none (w.configures_after a hc hgiven)]
      exact (List.append_nil _).trans hcalls
  | refused s =>
    have htries : Entry.tries ⟨c, a, w.given c a⟩ = none := by
      cases c <;> first | rfl | cases hc
    show ((w.log ++ [_]).filterMap _).getLast? = _
    rw [List.filterMap_append, List.filterMap_cons_none htries]
    exact (congrArg List.getLast? (List.append_nil _)).trans h

/-- The settings of a session that was opened with a configuration. -/
theorem settingsOf_of {log : List Entry} {s config : Handle} {calls : List ConfigCall}
    (hs : origin log s = some (.zOpen config)) (hconfig : Fact.Holds log (.configured config calls)) :
    settingsOf log s = some calls := by
  rw [settingsOf, hs]
  exact congrArg some hconfig.2

/-- What is published by a publisher of such a session. -/
theorem request_publisherPut {log : List Entry} {pub s config payload : Handle} {ke attachment : Option Handle}
    {calls : List ConfigCall} {congestionControl : Option CongestionControl} {priority : Option Args.PubThr.Priority}
    {express : Option Bool}
    (hpub : origin log pub = some (.sessionDeclarePublisher s ke congestionControl priority express))
    (hs : origin log s = some (.zOpen config)) (hconfig : Fact.Holds log (.configured config calls)) :
    request log (.publisherPut pub payload attachment) = some ⟨some calls, .publish (keyOrNull log ke)
      congestionControl priority express (bytesOf log payload) (attachment.bind (bytesOf log))⟩ := by
  rw [request, hpub]
  simp only [settingsOf_of hs hconfig]

namespace World

/-- The facts hold. -/
def Knows (w : World) (K : List Fact) : Prop := ∀ f ∈ K, f.Holds w.log

theorem Knows.after {w : World} {K : List Fact} (h : w.Knows K) {c : Call} (a : Answer)
    (hc : ∀ f ∈ K, f.KeptBy c) : (w.after c a).Knows K := fun f hf => (h f hf).after a (hc f hf)

end World

/-! ## What code asks for -/

/-- From a log in which the facts hold, `p` makes the requests that `Q` says. -/
def Asks {α : Type} (K : List Fact) (p : Code α) (Q : α → List Request → Prop) : Prop :=
  ∀ w, w.Knows K → ∃ rs, Q (p w).1 rs ∧ (p w).2.requests = w.requests ++ rs

namespace Asks

variable {α β : Type} {z : Zenoh} {K L : List Fact} {c : Call} {Q : β → List Request → Prop}

theorem pure {b : β} (h : Q b []) : Asks K (Pure.pure b : Code β) Q :=
  fun w _ => ⟨[], h, (List.append_nil w.requests).symm⟩

theorem map {γ : Type} {p : Code γ} {f : γ → β} (hp : Asks K p fun a rs => Q (f a) rs) : Asks K (f <$> p) Q := hp

theorem printed {line : CStr} {f : Unit → Code β} (h : Asks K (f ()) Q) : Asks K (print line >>= f) Q :=
  fun w hw => h { w with out := w.out ++ [line] } hw

theorem printedUnless {ok : Bool} {line : CStr} {f : Unit → Code β} (h : Asks K (f ()) Q) :
    Asks K (printUnless ok line >>= f) Q := by
  cases ok with
  | true => exact h
  | false => exact .printed h

theorem weaken {p : Code β} {R : β → List Request → Prop} (h : Asks K p Q) (hR : ∀ b rs, Q b rs → R b rs) :
    Asks K p R := by
  intro w hw
  obtain ⟨rs, hQ, hrs⟩ := h w hw
  exact ⟨rs, hR _ rs hQ, hrs⟩

/-- Code, and a value behind it. -/
theorem ending {γ : Type} {p : Code γ} {b : β} (hp : Asks K p fun _ rs => Q b rs) :
    Asks K (p >>= fun _ => Pure.pure b) Q := hp

theorem subset {p : Code β} (h : Asks K p Q) (hK : K ⊆ L) : Asks L p Q := fun w hw => h w fun q hq => hw q (hK hq)

/-- A call that asks for nothing, and keeps what is known. -/
theorem silent {f : Answer × List Handle → Code β} (hrequest : ∀ log, request log c = none)
    (hkeeps : ∀ f ∈ K, f.KeptBy c)
    (h : ∀ w a given, given.length = c.gives a → (World.after w c a).Knows (given.map (.gave · c) ++ K) →
      ∃ L, (World.after w c a).Knows L ∧ Asks L (f (a, given)) Q) : Asks K (call z c >>= f) Q := by
  intro w hw
  let a := z w.log c
  have hknows : (w.after c a).Knows ((w.given c a).map (.gave · c) ++ K) := by
    intro p hp
    obtain hp | hp := List.mem_append.mp hp
    · obtain ⟨x, hx, rfl⟩ := List.mem_map.mp hp
      exact w.origin_new c _ hx
    · exact hw.after _ hkeeps p hp
  have hlen : (w.given c a).length = c.gives a := (List.length_map ..).trans (List.length_range' ..)
  obtain ⟨L, hL, hasks⟩ := h w a (w.given c a) hlen hknows
  obtain ⟨rs, hQ, hrs⟩ := hasks _ hL
  refine ⟨rs, hQ, hrs.trans ?_⟩
  rw [w.requests_after, hrequest]
  show w.requests ++ [] ++ rs = _
  rw [List.append_nil]

theorem quiet {f : Answer × List Handle → Code β} (hquiet : c.quiet = true)
    (h : ∀ a given, given.length = c.gives a → Asks (given.map (.gave · c) ++ K) (f (a, given)) Q) :
    Asks K (call z c >>= f) Q :=
  silent (Call.request_of_quiet hquiet)
    (fun f _ => f.keptBy_of (Call.inserts_of_quiet hquiet) (Call.tries_of_quiet hquiet))
    fun _ a given hlen hknows => ⟨_, hknows, h a given hlen⟩

theorem pointer {f : Option Handle → Code β} (hquiet : c.quiet = true) (hnone : Asks K (f none) Q)
    (hsome : ∀ h, Asks (.gave h c :: K) (f (some h)) Q) : Asks K (Handles.pointer z c >>= f) Q := by
  refine quiet (f := fun r => f r.2.head?) hquiet fun a given _ => ?_
  cases given with
  | nil => exact hnone
  | cons h given =>
    refine (hsome h).subset fun p hp => ?_
    obtain rfl | hp := List.mem_cons.mp hp
    · exact List.mem_cons_self
    · exact List.mem_append_right _ hp

/-- A text for a key expression, the first one. -/
theorem tryFrom {s : CStr} {f : Option Handle → Code β} (hfirst : ∀ s, Fact.refused s ∉ K)
    (hnone : Asks (.refused s :: K) (f none) Q)
    (hsome : ∀ ke, Asks (.gave ke (.keyexprTryFrom s) :: K) (f (some ke)) Q) :
    Asks K (Handles.pointer z (.keyexprTryFrom s) >>= f) Q := by
  refine silent (f := fun r => f r.2.head?) (fun _ => rfl) (fun g hg => ?_) fun w a given hlen hknows => ?_
  · cases g with
    | gave h d => trivial
    | configured config calls => rfl
    | refused s' => exact absurd hg (hfirst s')
  · cases given with
    | cons ke given =>
      refine ⟨.gave ke (.keyexprTryFrom s) :: K, fun g hg => hknows g ?_, hsome ke⟩
      obtain rfl | hg := List.mem_cons.mp hg
      · exact List.mem_cons_self
      · exact List.mem_append_right _ hg
    | nil =>
      refine ⟨.refused s :: K, fun g hg => ?_, hnone⟩
      obtain rfl | hg := List.mem_cons.mp hg
      · have hok : a.ok = false := by
          cases hok : a.ok with
          | false => rfl
          | true => simp [Call.gives, hok] at hlen
        show ((w.log ++ [_]).filterMap _).getLast? = _
        rw [List.filterMap_append, List.getLast?_append]
        simp [Entry.tries, hok]
      · exact hknows g hg

/-- A text for a key expression, the first one, which is not checked. -/
theorem uncheckedKey {s : CStr} {f : Option Handle → Code β} (hfirst : ∀ s, Fact.refused s ∉ K)
    (h : ∀ (ke : Option Handle) (key : Key) (L : List Fact), K ⊆ L → key = .of s ∨ key = .refused s →
      (∀ w : World, w.Knows L → keyOrNull w.log ke = key) → Asks L (f ke) Q) :
    Asks K (Handles.pointer z (.keyexprTryFrom s) >>= f) Q := by
  refine .tryFrom hfirst ?_ fun ke => ?_
  · refine h none (.refused s) _ (List.subset_cons_self ..) (.inr rfl) fun w hw => ?_
    exact keyOrNull_refused (hw _ List.mem_cons_self)
  · refine h (some ke) (.of s) _ (List.subset_cons_self ..) (.inl rfl) fun w hw => ?_
    exact keyOrNull_of (hw _ List.mem_cons_self)

theorem handle {f : Handle → Code β} (hquiet : c.quiet = true) (hgives : ∀ a, c.gives a = 1)
    (h : ∀ h, Asks (.gave h c :: K) (f h) Q) : Asks K (Handles.handle z c >>= f) Q := by
  refine quiet (f := fun r => f (r.2.headD ⟨c.kind, 0⟩)) hquiet fun a given hlen => ?_
  obtain ⟨x, rfl⟩ := List.length_eq_one_iff.mp (hlen.trans (hgives a))
  exact h x

theorem perform {f : Answer → Code β} (hquiet : c.quiet = true) (h : ∀ a, Asks K (f a) Q) :
    Asks K (Handles.perform z c >>= f) Q :=
  quiet (f := fun r => f r.1) hquiet fun a _ _ => (h a).subset fun _ hp => List.mem_append_right _ hp

/-- A call that asks for something. -/
theorem asking {f : Answer × List Handle → Code β} {r : Request}
    (hr : ∀ w : World, w.Knows K → request w.log c = some r)
    (h : ∀ a given, Asks K (f (a, given)) fun b rs => Q b (r :: rs)) : Asks K (call z c >>= f) Q := by
  intro w hw
  have hrequest := hr w hw
  have hkeeps : ∀ f ∈ K, f.KeptBy c := fun f _ =>
    f.keptBy_of (Call.inserts_of_request hrequest) (Call.tries_of_request hrequest)
  obtain ⟨rs, hQ, hrs⟩ := h _ _ _ (hw.after (z w.log c) hkeeps)
  refine ⟨r :: rs, hQ, hrs.trans ?_⟩
  rw [w.requests_after, hrequest, List.append_assoc]
  rfl

theorem askingPointer {f : Option Handle → Code β} (r : Request)
    (hr : ∀ w : World, w.Knows K → request w.log c = some r)
    (h : ∀ p, Asks K (f p) fun b rs => Q b (r :: rs)) : Asks K (Handles.pointer z c >>= f) Q :=
  asking (f := fun r => f r.2.head?) hr fun _ given => h given.head?

theorem askingPerform {f : Answer → Code β} (r : Request)
    (hr : ∀ w : World, w.Knows K → request w.log c = some r) (h : ∀ a, Asks K (f a) fun b rs => Q b (r :: rs)) :
    Asks K (Handles.perform z c >>= f) Q :=
  asking (f := fun r => f r.1) hr fun a _ => h a

theorem askingSucceeds {f : Bool → Code β} (r : Request)
    (hr : ∀ w : World, w.Knows K → request w.log c = some r) (h : ∀ ok, Asks K (f ok) fun b rs => Q b (r :: rs)) :
    Asks K (Handles.succeeds z c >>= f) Q :=
  askingPerform (f := fun a => f a.ok) r hr fun a => h a.ok

end Asks

/-! ## `parse_args` -/

/-- The code asks for nothing, and inserts in the configuration what `Q` says. -/
def Inserts {α : Type} (config : Handle) (p : Code α) (Q : α → List ConfigCall → Prop) : Prop :=
  ∀ w calls, Fact.Holds w.log (.configured config calls) → ∃ cs, Q (p w).1 cs ∧
    (p w).2.requests = w.requests ∧ Fact.Holds (p w).2.log (.configured config (calls ++ cs))

/-- The calls, if the code succeeds. -/
def IfOk (cs : List ConfigCall) (ok : Bool) (inserted : List ConfigCall) : Prop := ok = true → inserted = cs

namespace Inserts

variable {α β : Type} {z : Zenoh} {config : Handle} {c : Call} {Q : β → List ConfigCall → Prop}

theorem pure {b : β} (h : Q b []) : Inserts config (Pure.pure b : Code β) Q :=
  fun _ calls hw => ⟨[], h, rfl, by rwa [List.append_nil]⟩

theorem bind {p : Code α} {f : α → Code β} {R : α → List ConfigCall → Prop} (hp : Inserts config p R)
    (hf : ∀ a cs, R a cs → Inserts config (f a) fun b ds => Q b (cs ++ ds)) : Inserts config (p >>= f) Q := by
  intro w calls hw
  obtain ⟨cs, hR, hrequests, hcalls⟩ := hp w calls hw
  obtain ⟨ds, hQ, hrequests', hcalls'⟩ := hf _ cs hR _ _ hcalls
  exact ⟨cs ++ ds, hQ, hrequests'.trans hrequests, by rwa [← List.append_assoc]⟩

theorem quiet {f : Answer × List Handle → Code β} (hquiet : c.quiet = true) (h : ∀ r, Inserts config (f r) Q) :
    Inserts config (call z c >>= f) Q := by
  intro w calls hw
  have hkept : Fact.Holds (w.after c (z w.log c)).log (.configured config calls) :=
    hw.after _ (Call.inserts_of_quiet hquiet)
  obtain ⟨cs, hQ, hrequests, hcalls⟩ := h _ _ calls hkept
  refine ⟨cs, hQ, hrequests.trans ?_, hcalls⟩
  rw [w.requests_after, Call.request_of_quiet hquiet]
  exact List.append_nil _

theorem handle {f : Handle → Code β} (hquiet : c.quiet = true) (h : ∀ h, Inserts config (f h) Q) :
    Inserts config (Handles.handle z c >>= f) Q :=
  quiet (f := fun r => f (r.2.headD ⟨c.kind, 0⟩)) hquiet fun _ => h _

theorem perform {f : Answer → Code β} (hquiet : c.quiet = true) (h : ∀ a, Inserts config (f a) Q) :
    Inserts config (Handles.perform z c >>= f) Q :=
  quiet (f := fun r => f r.1) hquiet fun _ => h _

theorem printed {line : CStr} {f : Unit → Code β} (h : Inserts config (f ()) Q) :
    Inserts config (print line >>= f) Q := fun w calls hw => h { w with out := w.out ++ [line] } calls hw

theorem printedUnless {ok : Bool} {line : CStr} {f : Unit → Code β} (h : Inserts config (f ()) Q) :
    Inserts config (printUnless ok line >>= f) Q := by
  cases ok with
  | true => exact h
  | false => exact .printed h

theorem insert {key value : CStr} {block : Option Handle} {f : Bool → Code β}
    (h : ∀ ok, Inserts config (f ok) fun b cs => Q b (.insertJson5 key value :: cs)) :
    Inserts config (succeeds z (.configInsertJson5 config key value block) >>= f) Q := by
  intro w calls hw
  obtain ⟨hgiven, hcalls⟩ := hw
  let c : Call := .configInsertJson5 config key value block
  have hinserted : Fact.Holds (w.after c (z w.log c)).log
      (.configured config (calls ++ [.insertJson5 key value])) := by
    refine ⟨?_, ?_⟩
    · show config ∈ (w.log ++ [_]).flatMap _
      rw [List.flatMap_append]
      exact List.mem_append_left _ hgiven
    · show (w.log ++ [_]).filterMap _ = _
      rw [List.filterMap_append, show w.log.filterMap _ = calls from hcalls]
      exact congrArg (calls ++ ·) (List.filterMap_cons_some (if_pos rfl))
  obtain ⟨cs, hQ, hrequests, hafter⟩ := h _ _ _ hinserted
  refine ⟨_, hQ, hrequests.trans ?_, ?_⟩
  · rw [w.requests_after]
    exact List.append_nil _
  · rwa [List.append_cons]

theorem weaken {p : Code β} {R : β → List ConfigCall → Prop} (h : Inserts config p Q)
    (hR : ∀ b cs, Q b cs → R b cs) : Inserts config p R := by
  intro w calls hw
  obtain ⟨cs, hQ, hrest⟩ := h w calls hw
  exact ⟨cs, hR _ cs hQ, hrest⟩

theorem andThen {p q : Code Bool} {cs ds : List ConfigCall} (hp : Inserts config p (IfOk cs))
    (hq : Inserts config q (IfOk ds)) : Inserts config (andThen p q) (IfOk (cs ++ ds)) := by
  refine hp.bind fun ok cs' hcs => ?_
  cases ok with
  | false => exact .pure fun h => absurd h Bool.false_ne_true
  | true =>
    obtain rfl := hcs rfl
    exact hq.weaken fun ok ds' hds hok => congrArg _ (hds hok)

end Inserts

namespace ParseArgs

variable (z : Zenoh) (config : Handle)

theorem insertMode_inserts (mode : Option CStr) :
    Inserts config (insertMode z config mode) (IfOk (Args.modeCalls mode)) := by
  cases mode with
  | none => exact .pure fun _ => rfl
  | some mode =>
    refine .handle rfl fun buf => .perform rfl fun _ => .insert fun ok => .printedUnless ?_
    exact .perform rfl fun _ => .pure fun _ => rfl

theorem listLoop_inserts (values : List CStr) (text : CStr) (buf : Handle) :
    Inserts config (listLoop z values text buf) fun _ cs => cs = [] := by
  induction values generalizing text buf with
  | nil => exact .pure rfl
  | cons value values ih => exact .handle rfl fun newbuf => .perform rfl fun _ => .perform rfl fun _ => ih _ newbuf

theorem parseZenohJsonListConfig_inserts (configKey : CStr) (values : List CStr) :
    Inserts config (parseZenohJsonListConfig z config configKey values) (IfOk (Args.listCalls configKey values)) := by
  refine .handle rfl fun buf => (listLoop_inserts z config values _ buf).bind fun buf cs hcs => ?_
  refine .perform rfl fun _ => ?_
  obtain rfl := hcs
  cases values with
  | nil => exact .perform rfl fun _ => .pure fun _ => rfl
  | cons value values =>
    refine .handle rfl fun jsonList => .perform rfl fun _ => .insert fun ok => ?_
    cases ok with
    | false =>
      exact .perform rfl fun _ => .printed (.perform rfl fun _ => .pure fun h => absurd h Bool.false_ne_true)
    | true => exact .perform rfl fun _ => .perform rfl fun _ => .pure fun _ => rfl

theorem insertValue_inserts (key value line : CStr) :
    Inserts config (insertValue z config key value line) (IfOk [.insertJson5 key value]) :=
  .insert fun _ => .printedUnless (.pure fun _ => rfl)

theorem insertCfgs_inserts (cfg : List CfgPair) :
    Inserts config (insertCfgs z config cfg) (IfOk (cfg.map CfgPair.call)) := by
  induction cfg with
  | nil => exact .pure fun _ => rfl
  | cons p ps ih => exact (insertValue_inserts z config p.key p.value _).andThen ih

theorem insertScouting_inserts (noMulticastScouting : Bool) :
    Inserts config (insertScouting z config noMulticastScouting) (IfOk
      (if noMulticastScouting then [.insertJson5 (lit "scouting/multicast/enabled") (lit "false")] else [])) := by
  cases noMulticastScouting with
  | false => exact .pure fun _ => rfl
  | true => exact insertValue_inserts z config _ _ _

theorem insertOptions_inserts (options : SessionOptions) :
    Inserts config (insertOptions z options config) fun ok cs =>
      ok = true → Args.fileCalls options.config ++ cs = options.calls := by
  have hall := (insertMode_inserts z config options.mode).andThen <|
    (parseZenohJsonListConfig_inserts z config (lit "connect/endpoints") options.connect).andThen <|
    (parseZenohJsonListConfig_inserts z config (lit "listen/endpoints") options.listen).andThen <|
    (show Inserts config (parseZenohJsonListCfg z config options.cfg) _ from
      .handle rfl fun buf => insertCfgs_inserts z config options.cfg).andThen <|
    insertScouting_inserts z config options.noMulticastScouting
  refine hall.weaken fun ok cs hcs hok => ?_
  rw [hcs hok, SessionOptions.calls]
  simp only [List.append_assoc]

theorem parsePosArgs_inserts : Inserts config (parsePosArgs z) fun _ cs => cs = [] :=
  .handle rfl fun _ => .perform rfl fun _ => .perform rfl fun _ => .pure rfl

end ParseArgs

open ParseArgs

theorem parseBehind_inserts (z : Zenoh) (options : SessionOptions) (config : Handle) :
    Inserts config (parseBehind z options config) fun r cs => ∀ config', r = some config' →
      config' = config ∧ Args.fileCalls options.config ++ cs = options.calls := by
  refine (insertOptions_inserts z config options).bind fun ok cs hcs => ?_
  cases ok with
  | false => exact .pure fun config' h => by cases h
  | true =>
    refine (parsePosArgs_inserts z config).bind fun _ ds hds => .pure fun config' h => ?_
    rw [hds, List.append_nil, List.append_nil]
    exact ⟨(Option.some.inj h).symm, hcs rfl⟩

/-- What `parse_args` leaves: it asks for nothing, and where it does not exit,
the configuration is what its options say. -/
def Configured (options : SessionOptions) (r : Option Handle × World) : Prop :=
  r.2.requests = [] ∧ ∀ config, r.1 = some config → Fact.Holds r.2.log (.configured config options.calls)

/-- `parse_args` behind its first call, which gave the configuration. -/
theorem parseBehind_configures (z : Zenoh) (options : SessionOptions) {c : Call} {d : ConfigCall} (a : Answer)
    (hquiet : c.quiet = true) (hgiven : World.start.given c a = [⟨.config, 0⟩])
    (hc : Entry.configures ⟨.config, 0⟩ ⟨c, a, [⟨.config, 0⟩]⟩ = some d) (hd : Args.fileCalls options.config = [d]) :
    Configured options (parseBehind z options ⟨.config, 0⟩ (World.start.after c a)) := by
  have hfirst : Fact.Holds (World.start.after c a).log (.configured ⟨.config, 0⟩ [d]) := by
    refine ⟨?_, ?_⟩
    · show _ ∈ World.start.given c a ++ []
      rw [hgiven]
      exact List.mem_cons_self
    · show [Entry.mk c a (World.start.given c a)].filterMap _ = _
      rw [hgiven]
      exact List.filterMap_cons_some hc
  obtain ⟨cs, hcs, hsame, hcalls⟩ := parseBehind_inserts z options ⟨.config, 0⟩ _ _ hfirst
  refine ⟨hsame.trans ?_, fun config h => ?_⟩
  · rw [World.requests_after, Call.request_of_quiet hquiet]
    rfl
  · obtain ⟨rfl, heq⟩ := hcs config h
    rwa [← hd, heq] at hcalls

theorem parseArgs_configures (z : Zenoh) (options : SessionOptions) :
    Configured options (parseArgs z options .start) := by
  cases hfile : options.config with
  | none =>
    rw [parseArgs, hfile]
    exact parseBehind_configures z options (z [] .configDefault) rfl rfl rfl (congrArg Args.fileCalls hfile)
  | some path =>
    let c : Call := .configFromFile path
    have hpointer : ∀ given, World.start.given c (z [] c) = given →
        pointer z c .start = (given.head?, World.start.after c (z [] c)) := by
      rintro given rfl
      rfl
    rw [parseArgs, hfile]
    cases hok : (z [] c).ok with
    | true =>
      have hgiven : World.start.given c (z [] c) = [⟨.config, 0⟩] := by
        rw [World.given, show c.gives (z [] c) = 1 from congrArg Bool.toNat hok]
        rfl
      have hconfig : configFile z (some path) .start = (some ⟨.config, 0⟩, World.start.after c (z [] c)) :=
        bind_of (hpointer _ hgiven)
      rw [bind_of hconfig]
      exact parseBehind_configures z options _ rfl hgiven rfl (congrArg Args.fileCalls hfile)
    | false =>
      have hgiven : World.start.given c (z [] c) = [] := by
        rw [World.given, show c.gives (z [] c) = 0 from congrArg Bool.toNat hok]
        rfl
      have hconfig : configFile z (some path) .start = (none, _) := bind_of (hpointer _ hgiven)
      rw [bind_of hconfig]
      exact ⟨World.requests_after .start c _, fun config h => by cases h⟩

/-! ## From the scans to the calls -/

end ZenohFlatC.Handles
