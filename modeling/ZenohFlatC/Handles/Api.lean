import Mathlib.Tactic.Abel
import ZenohFlatC.Args.Numbers
import ZenohFlatC.Framework.Ledger

/-!
# The calls of the examples, and who owns what

The calls that the examples make on `zenoh_flat.h` and the allocator (`Call`),
with what each borrows, consumes and gives: a `const` pointer is borrowed, as
are the configuration that a value is inserted in and the object whose reply is
sent; another pointer is consumed; a handle that is returned is the caller's. A
pointer into an object is known by the object's handle. The uses that the code
itself makes of a block or a text are calls too (`access`). What zenoh answers
is a parameter (`Zenoh`), which may depend on all the calls before.

A closure that is handed over takes its context along, if it has a `drop` of its
own (`lends`); a closure that is not accepted is dropped.

`Owned L p Q`: where the handles `L` are live, `p` uses live handles only, and
leaves handles live that meet `Q`, with the closures that it handed over;
others, which it does not know, stay as they are. There is a rule for each way
to call.
-/

namespace ZenohFlatC.Handles

open CStr (lit)

/-- The blocks that the examples allocate, by the variables that hold them. -/
inductive Block where
  /-- `buf` of `parse_zenoh_common_args`. -/
  | modeBuf
  /-- `buf` and `newbuf` of `parse_zenoh_json_list_config`. -/
  | listBuf
  /-- `json_list` of `parse_zenoh_json_list_config`. -/
  | jsonList
  /-- `buf` of `parse_zenoh_json_list_cfg`. -/
  | cfgBuf
  /-- `pos_argv` of `parse_pos_args`. -/
  | posArgv
  /-- `value` of `z_pub_thr`. -/
  | value
  /-- `stats` of `z_sub_thr`. -/
  | stats
  deriving DecidableEq

/-- What a handle is of. -/
inductive Kind where
  | config | session | keyexpr | publisher | subscriber | queryable | scout | zbytes
  /-- A text or an array, which is allocated for the caller. -/
  | text
  /-- What zenoh hands over to a callback. -/
  | argument
  | block (b : Block)
  deriving DecidableEq

/-- A handle, by the number of handles that its thread was given before. -/
structure Handle where
  kind : Kind
  number : Nat
  deriving DecidableEq

/-- `z_congestion_control_t`. -/
inductive CongestionControl where
  | drop | block
  deriving DecidableEq

/-- A call into the library, or into the allocator. -/
inductive Call where
  /-- The library calls back, and hands the argument over. -/
  | callback
  | configDefault
  | configFromFile (path : CStr)
  /-- Of a value in a block, or of one that is not. -/
  | configInsertJson5 (config : Handle) (key value : CStr) (block : Option Handle)
  | configDrop (this : Handle)
  | zOpen (config : Handle)
  | sessionDrop (this : Handle)
  | keyexprTryFrom (s : CStr)
  | keyexprDrop (this : Handle)
  | keyexprToString (ke : Handle)
  | keyexprAutocanonize (s : CStr)
  | keyexprJoin (a : Option Handle) (b : CStr)
  | keyexprIntersects (a b : Handle)
  | keyexprIncludes (a b : Handle)
  | sessionPut (session keyExpr payload : Handle)
  | sessionDelete (session keyExpr : Handle)
  | sessionGet (session keyExpr : Handle) (parameters : Option CStr) (timeoutMs : Int64)
      (target : Args.Get.QueryTarget) (payload : Option Handle)
  | sessionDeclarePublisher (session : Handle) (keyExpr : Option Handle)
      (congestionControl : Option CongestionControl) (priority : Option Args.PubThr.Priority)
      (express : Option Bool)
  /-- With the context of a closure that has a `drop`, and so owns it. -/
  | sessionDeclareSubscriber (session : Handle) (keyExpr context : Option Handle)
  | sessionDeclareQueryable (session keyExpr : Handle) (complete : Bool)
  | publisherPut (publisher payload : Handle) (attachment : Option Handle)
  | publisherDrop (this : Handle)
  | subscriberDrop (this : Handle)
  | sessionZid (session : Handle)
  | sessionRoutersZid (session : Handle)
  | sessionPeersZid (session : Handle)
  /-- Of a `z_zenoh_id_t`, which owns nothing: by its text, or by its place in an array. -/
  | zenohIdToString (array : Option (Handle × Nat))
  /-- Of bytes in a block, or of those of a string that is never freed. -/
  | zbytesFromSlice (bytes : List UInt8) (block : Option Handle)
  | zbytesToBytes (z : Handle)
  | zbytesClone (z : Handle)
  | sampleKind (s : Handle)
  | sampleAttachment (s : Handle)
  | sampleDrop (this : Handle)
  | replyIsOk (r : Handle)
  | replyDrop (this : Handle)
  | queryParameters (q : Handle)
  | queryPayload (q : Handle)
  | queryReplySuccess (query keyExpr payload : Handle)
  | queryDrop (this : Handle)
  | helloZid (h : Handle)
  | helloWhatami (h : Handle)
  | helloLocators (h : Handle)
  | helloDrop (this : Handle)
  | scout (whatami : Nat) (config : Handle)
  | scoutDrop (this : Handle)
  | malloc (b : Block) (size : Nat)
  | calloc (b : Block) (size : Nat)
  | free (p : Handle)
  /-- The code reads or writes blocks or texts. -/
  | access (blocks : List Handle)
  /-- The code of a closure reads or writes the closure's context. -/
  | useContext
  /-- The `drop` of a closure frees the closure's context. -/
  | freeContext
  deriving DecidableEq

/-- What a call answers: whether the pointer that it returns is not `NULL`, or
the `bool`; an enumeration's constant; the texts in it. -/
structure Answer where
  ok : Bool
  code : Nat
  texts : List CStr
  deriving DecidableEq

/-- The text of an answer. -/
def Answer.text (a : Answer) : CStr := a.texts.headD (lit "")

namespace Call

/-- The handles that a call borrows. -/
def borrows : Call → Multiset Handle
  | keyexprToString h | sessionZid h | sessionRoutersZid h | sessionPeersZid h
  | zbytesToBytes h | zbytesClone h | sampleKind h | sampleAttachment h | replyIsOk h | queryParameters h
  | queryPayload h | helloZid h | helloWhatami h | helloLocators h | scout _ h
  | sessionDeclarePublisher h _ _ _ _ | sessionDeclareSubscriber h _ _ | sessionDeclareQueryable h _ _
  | publisherPut h _ _ | zenohIdToString (some (h, _)) | zbytesFromSlice _ (some h) => {h}
  | sessionPut s ke _ | sessionDelete s ke | sessionGet s ke _ _ _ _ | queryReplySuccess s ke _
  | keyexprIntersects s ke | keyexprIncludes s ke => {s, ke}
  | keyexprJoin a _ => a.elim 0 ({·})
  | configInsertJson5 config _ _ block => {config} + block.elim 0 ({·})
  | access blocks => blocks
  | _ => 0

/-- The handles that a call consumes. -/
def consumes : Call → Multiset Handle
  | configDrop h | zOpen h | sessionDrop h | keyexprDrop h | sessionPut _ _ h
  | sessionDeclareQueryable _ h _ | publisherDrop h | subscriberDrop h | sampleDrop h | replyDrop h
  | queryReplySuccess _ _ h | queryDrop h | helloDrop h | scoutDrop h | free h => {h}
  | sessionGet _ _ _ _ _ payload => payload.elim 0 ({·})
  | sessionDeclarePublisher _ ke _ _ _ | sessionDeclareSubscriber _ ke _ => ke.elim 0 ({·})
  | publisherPut _ payload attachment => {payload} + attachment.elim 0 ({·})
  | _ => 0

/-- The context that a closure takes along. -/
def lends : Call → Multiset Handle
  | sessionDeclareSubscriber _ _ context => context.elim 0 ({·})
  | _ => 0

/-- What a call gives. -/
def kind : Call → Kind
  | configDefault | configFromFile _ => .config
  | zOpen _ => .session
  | keyexprTryFrom _ | keyexprAutocanonize _ | keyexprJoin _ _ => .keyexpr
  | sessionDeclarePublisher _ _ _ _ _ => .publisher
  | sessionDeclareSubscriber _ _ _ => .subscriber
  | sessionDeclareQueryable _ _ _ => .queryable
  | scout _ _ => .scout
  | zbytesFromSlice _ _ | zbytesClone _ => .zbytes
  | callback => .argument
  | malloc b _ | calloc b _ => .block b
  | _ => .text

/-- How many handles a call gives. -/
def gives (a : Answer) : Call → Nat
  | callback | configDefault | keyexprToString _ | zenohIdToString _ | zbytesFromSlice _ _ | zbytesToBytes _
  | zbytesClone _ | queryParameters _ | sessionRoutersZid _ | sessionPeersZid _ | malloc _ _ | calloc _ _ => 1
  | configFromFile _ | zOpen _ | keyexprTryFrom _ | keyexprAutocanonize _ | keyexprJoin _ _
  | sessionDeclarePublisher _ _ _ _ _ | sessionDeclareSubscriber _ _ _ | sessionDeclareQueryable _ _ _
  | scout _ _ => a.ok.toNat
  | helloLocators _ => if a.ok then a.texts.length + 1 else 0
  | _ => 0

end Call

/-- What becomes of a closure. -/
inductive ClosureEvent where
  | handedOver (context : Option Handle) (accepted : Bool)
  | freed
  deriving DecidableEq

/-- What a call does to closures. -/
def Call.closures (a : Answer) : Call → List ClosureEvent
  | sessionGet _ _ _ _ _ _ | sessionDeclareQueryable _ _ _ | scout _ _ => [.handedOver none a.ok]
  | sessionDeclareSubscriber _ _ context => [.handedOver context a.ok]
  | freeContext => [.freed]
  | _ => []

/-- A call that was made. -/
structure Entry where
  call : Call
  answer : Answer
  given : List Handle
  deriving DecidableEq

namespace Entry

def event (e : Entry) : Event Handle := ⟨e.call.borrows, e.call.consumes, e.given⟩

/-- The call as its thread sees it. -/
def own (e : Entry) : Event Handle := e.event.spend e.call.lends

def closures (e : Entry) : List ClosureEvent := e.call.closures e.answer

end Entry

/-- What a thread has done: its calls, and what it printed. -/
structure World where
  log : List Entry
  out : List CStr
  /-- No handle was given twice. -/
  numbered : (log.flatMap Entry.given).map Handle.number = List.range (log.flatMap Entry.given).length

namespace World

def start : World := ⟨[], [], rfl⟩

/-- The number of the next handle. -/
def next (w : World) : Nat := (w.log.flatMap Entry.given).length

/-- The handles that a call gives. -/
def given (w : World) (c : Call) (a : Answer) : List Handle := (List.range' w.next (c.gives a)).map (Handle.mk c.kind)

/-- The world after a call. -/
def after (w : World) (c : Call) (a : Answer) : World where
  log := w.log ++ [⟨c, a, w.given c a⟩]
  out := w.out
  numbered := by
    rw [List.flatMap_append, List.flatMap_singleton, List.map_append, w.numbered, List.length_append, given,
      List.map_map, List.length_map, List.length_range', List.range_eq_range', List.range_eq_range']
    show List.range' 0 w.next ++ (List.range' w.next _).map id = _
    rw [List.map_id, ← List.range'_append_1, Nat.zero_add]
    rfl

/-- The calls, as the thread sees them. -/
def events (w : World) : List (Event Handle) := w.log.map Entry.own

/-- What the thread did to closures. -/
def closures (w : World) : List ClosureEvent := w.log.flatMap Entry.closures

/-- The live handles. -/
def Live (w : World) (live : Multiset Handle) : Prop := audit 0 w.events = some live

theorem live_start : start.Live 0 := rfl

end World

/-- What zenoh answers to a call, after the others. -/
abbrev Zenoh := List Entry → Call → Answer

/-- The code of a thread. -/
abbrev Code := StateM World

section

variable (z : Zenoh)

/-- A call, with the handles that it gives. -/
def call (c : Call) : Code (Answer × List Handle) := fun w =>
  ((z w.log c, w.given c (z w.log c)), w.after c (z w.log c))

/-- A call that returns a pointer, which may be `NULL`. -/
def pointer (c : Call) : Code (Option Handle) := do
  let (_, given) ← call z c
  pure given.head?

/-- A call that returns a handle. -/
def handle (c : Call) : Code Handle := do
  let (_, given) ← call z c
  pure (given.headD ⟨c.kind, 0⟩)

/-- A call that returns a text of the caller's own. -/
def text (c : Call) : Code (Handle × CStr) := do
  let (a, given) ← call z c
  pure (given.headD ⟨c.kind, 0⟩, a.text)

/-- A call that returns an array of the caller's own, and its length. -/
def array (c : Call) : Code (Handle × Nat) := do
  let (a, given) ← call z c
  pure (given.headD ⟨c.kind, 0⟩, a.texts.length)

/-- A call that gives no handle. -/
def perform (c : Call) : Code Answer := do
  let (a, _) ← call z c
  pure a

/-- A call that says whether it succeeded. -/
def succeeds (c : Call) : Code Bool := do
  let a ← perform z c
  pure a.ok

end

/-- Code behind code that has run. -/
theorem bind_of {α β : Type} {p : Code α} {f : α → Code β} {w w' : World} {a : α} (h : p w = (a, w')) :
    (p >>= f) w = f a w' := by
  show f (p w).1 (p w).2 = _
  rw [h]

/-- `printf`. -/
def print (line : CStr) : Code Unit := fun w => ((), { w with out := w.out ++ [line] })

/-- `if (!ok)`, a line printed. -/
def printUnless (ok : Bool) (line : CStr) : Code Unit := if ok then pure () else print line

/-! ## Ownership of code -/

/-- Where `L` is live, among others, `p` uses live handles only, leaves what
meets `Q` in place of `L`, and did to closures what meets `Q`. -/
def Owned {α : Type} (L : Multiset Handle) (p : Code α) (Q : α → Multiset Handle → List ClosureEvent → Prop) : Prop :=
  ∀ w others, w.Live (L + others) →
    ∃ l es, Q (p w).1 l es ∧ (p w).2.Live (l + others) ∧ (p w).2.closures = w.closures ++ es

/-- `D` is live, and nothing was done to closures. -/
def Leaving {α : Type} (D : Multiset Handle) (_ : α) (l : Multiset Handle) (es : List ClosureEvent) : Prop :=
  l = D ∧ es = []

/-- Where the code succeeded, what is live meets `R`; nothing was done to
closures. -/
def Passing (R : Multiset Handle → Prop) (ok : Bool) (l : Multiset Handle) (es : List ClosureEvent) : Prop :=
  (ok = true → R l) ∧ es = []

theorem Passing.failed {R : Multiset Handle → Prop} {l : Multiset Handle} : Passing R false l [] :=
  ⟨fun h => absurd h Bool.false_ne_true, rfl⟩

namespace Owned

variable {α β : Type} {L D : Multiset Handle} {p : Code α} {R : α → Multiset Handle → List ClosureEvent → Prop}
  {Q : β → Multiset Handle → List ClosureEvent → Prop}

theorem pure {b : β} (h : Q b L []) : Owned L (Pure.pure b : Code β) Q :=
  fun w _ hw => ⟨L, [], h, hw, (List.append_nil w.closures).symm⟩

theorem bind {f : α → Code β} (hp : Owned L p R)
    (hf : ∀ a l es, R a l es → Owned l (f a) fun b l' es' => Q b l' (es ++ es')) : Owned L (p >>= f) Q := by
  intro w others hw
  obtain ⟨l, es, hR, hl, hes⟩ := hp w others hw
  obtain ⟨l', es', hQ, hl', hes'⟩ := hf _ l es hR _ others hl
  refine ⟨l', es ++ es', hQ, hl', hes'.trans ?_⟩
  rw [hes, List.append_assoc]

theorem weaken {S : α → Multiset Handle → List ClosureEvent → Prop} (hp : Owned L p R)
    (h : ∀ a l es, R a l es → S a l es) : Owned L p S := by
  intro w others hw
  obtain ⟨l, es, hR, hl, hes⟩ := hp w others hw
  exact ⟨l, es, h _ l es hR, hl, hes⟩

theorem map {f : α → β} (hp : Owned L p fun a l es => Q (f a) l es) : Owned L (f <$> p) Q := hp

/-- More that `p` does not know. -/
theorem frame (hp : Owned L p R) : Owned (L + D) p fun a l es => ∃ l', R a l' es ∧ l = l' + D := by
  intro w others hw
  obtain ⟨l, es, hR, hl, hes⟩ := hp w (D + others) (by rwa [← add_assoc])
  exact ⟨l + D, es, ⟨l, hR, rfl⟩, by rwa [add_assoc], hes⟩

theorem print (line : CStr) : Owned L (Handles.print line) (Leaving L) :=
  fun w _ hw => ⟨L, [], ⟨rfl, rfl⟩, hw, (List.append_nil w.closures).symm⟩

variable {z : Zenoh} {c : Call}

/-- What a call consumes or lends is gone, what it borrows is among the rest. -/
theorem call (D : Multiset Handle) (hL : L = c.consumes + c.lends + D) (hborrow : ∀ h ∈ c.borrows, h ∈ D) :
    Owned L (Handles.call z c) fun r l es =>
      r.2.length = c.gives r.1 ∧ (∀ h ∈ r.2, h.kind = c.kind) ∧ l = D + r.2 ∧ es = c.closures r.1 := by
  intro w others hw
  refine ⟨_, _, ⟨?_, fun h hh => ?_, rfl, rfl⟩, ?_, ?_⟩
  · show (List.map _ _).length = _
    rw [List.length_map, List.length_range']
    rfl
  · obtain ⟨n, -, rfl⟩ := List.mem_map.mp hh
    rfl
  · show audit 0 ((w.log ++ [_]).map Entry.own) = _
    rw [List.map_append, audit_append, show audit 0 (w.log.map Entry.own) = some (L + others) from hw]
    refine audit_cons.mpr ⟨D + others, ?_, fun h hh => Multiset.mem_add.mpr (.inl (hborrow h hh)), ?_⟩
    · rw [hL, add_assoc]
      rfl
    · rw [add_right_comm]
      rfl
  · show List.flatMap _ (w.log ++ [_]) = _
    rw [List.flatMap_append, List.flatMap_singleton]
    rfl

/-- One handle or none, and what follows. -/
theorem given {f : Option Handle → Code β} (D : Multiset Handle)
    (hnone : ∀ a : Answer, a.ok = false → Owned D (f none) fun b l es => Q b l (c.closures a ++ es))
    (hsome : ∀ h (a : Answer), h.kind = c.kind → a.ok = true →
      Owned (D + {h}) (f (some h)) fun b l es => Q b l (c.closures a ++ es))
    (hL : L = c.consumes + c.lends + D) (hborrow : ∀ h ∈ c.borrows, h ∈ D) (hgives : ∀ a, c.gives a = a.ok.toNat) :
    Owned L (Handles.pointer z c >>= f) Q := by
  refine (call D hL hborrow).bind (f := fun r : Answer × List Handle => f r.2.head?) ?_
  rintro ⟨a, given⟩ l es ⟨hlen, hkind, rfl, rfl⟩
  replace hlen : given.length = a.ok.toNat := hlen.trans (hgives a)
  match given, hlen, hok : a.ok with
  | [], _, false =>
    show Owned (D + ((0 : Multiset Handle))) (f none) _
    rw [add_zero]
    exact hnone a hok
  | [h], _, true => exact hsome h a (hkind h List.mem_cons_self) hok
  | [], hlen, true => cases hok ▸ hlen
  | _ :: _, hlen, false => cases hok ▸ hlen
  | _ :: _ :: _, hlen, true => cases hok ▸ hlen

/-- A pointer that may be `NULL`, and what follows it. -/
theorem pointer {f : Option Handle → Code β} (D : Multiset Handle) (hnone : Owned D (f none) Q)
    (hsome : ∀ h, h.kind = c.kind → Owned (D + {h}) (f (some h)) Q)
    (hL : L = c.consumes + c.lends + D := by
      simp only [Call.consumes, Call.lends, Option.elim, add_zero, zero_add] <;> abel)
    (hborrow : ∀ h ∈ c.borrows, h ∈ D := by simp [Call.borrows])
    (hgives : ∀ a, c.gives a = a.ok.toNat ∧ c.closures a = [] := by exact fun _ => ⟨rfl, rfl⟩) :
    Owned L (Handles.pointer z c >>= f) Q := by
  refine given D (fun a _ => ?_) (fun h a hkind _ => ?_) hL hborrow fun a => (hgives a).1
  · rwa [(hgives a).2]
  · rw [(hgives a).2]
    exact hsome h hkind

/-- A closure is handed over with its context, for a pointer that may be `NULL`. -/
theorem handOver {f : Option Handle → Code β} (context : Option Handle) (D : Multiset Handle)
    (hnone : Owned D (f none) fun b l es => Q b l (.handedOver context false :: es))
    (hsome : ∀ h, h.kind = c.kind →
      Owned (D + {h}) (f (some h)) fun b l es => Q b l (.handedOver context true :: es))
    (hL : L = c.consumes + c.lends + D := by
      simp only [Call.consumes, Call.lends, Option.elim, add_zero, zero_add] <;> abel)
    (hborrow : ∀ h ∈ c.borrows, h ∈ D := by simp [Call.borrows])
    (hgives : ∀ a, c.gives a = a.ok.toNat ∧ c.closures a = [.handedOver context a.ok] := by
      exact fun _ => ⟨rfl, rfl⟩) :
    Owned L (Handles.pointer z c >>= f) Q := by
  refine given D (fun a hok => ?_) (fun h a hkind hok => ?_) hL hborrow fun a => (hgives a).1
  · rwa [(hgives a).2, hok]
  · rw [(hgives a).2, hok]
    exact hsome h hkind

/-- A pointer that is passed on, `NULL` or not. -/
theorem unchecked {f : Option Handle → Code β} (D : Multiset Handle)
    (h : ∀ p : Option Handle, Owned (D + p.elim 0 ({·})) (f p) Q)
    (hL : L = c.consumes + c.lends + D := by
      simp only [Call.consumes, Call.lends, Option.elim, add_zero, zero_add] <;> abel)
    (hborrow : ∀ h ∈ c.borrows, h ∈ D := by simp [Call.borrows])
    (hgives : ∀ a, c.gives a = a.ok.toNat ∧ c.closures a = [] := by exact fun _ => ⟨rfl, rfl⟩) :
    Owned L (Handles.pointer z c >>= f) Q := by
  refine .pointer D ?_ (fun x _ => h (some x)) hL hborrow hgives
  have hnone := h none
  rwa [show D + (none : Option Handle).elim 0 ({·}) = D from add_zero D] at hnone

/-- One handle, and what follows it. -/
theorem one {γ : Type} {f : γ → Code β} (D : Multiset Handle) {g : Answer × List Handle → γ}
    (hL : L = c.consumes + c.lends + D) (hborrow : ∀ h ∈ c.borrows, h ∈ D)
    (hgives : ∀ a, c.gives a = 1 ∧ c.closures a = [])
    (h : ∀ h a, h.kind = c.kind → Owned (D + {h}) (f (g (a, [h]))) Q) :
    Owned L (Handles.call z c >>= fun r => f (g r)) Q := by
  refine (call D hL hborrow).bind ?_
  rintro ⟨a, given⟩ l es ⟨hlen, hkind, rfl, rfl⟩
  obtain ⟨x, rfl⟩ := List.length_eq_one_iff.mp (hlen.trans (hgives a).1)
  rw [(hgives a).2]
  exact h x a (hkind x List.mem_cons_self)

theorem handle {f : Handle → Code β} (D : Multiset Handle) (h : ∀ h, h.kind = c.kind → Owned (D + {h}) (f h) Q)
    (hL : L = c.consumes + c.lends + D := by
      simp only [Call.consumes, Call.lends, Option.elim, add_zero, zero_add] <;> abel)
    (hborrow : ∀ h ∈ c.borrows, h ∈ D := by simp [Call.borrows])
    (hgives : ∀ a, c.gives a = 1 ∧ c.closures a = [] := by exact fun _ => ⟨rfl, rfl⟩) :
    Owned L (Handles.handle z c >>= f) Q :=
  one (g := fun r => r.2.headD ⟨c.kind, 0⟩) D hL hborrow hgives fun x _ hx => h x hx

theorem text {f : Handle × CStr → Code β} (D : Multiset Handle) (h : ∀ h t, Owned (D + {h}) (f (h, t)) Q)
    (hL : L = c.consumes + c.lends + D := by
      simp only [Call.consumes, Call.lends, Option.elim, add_zero, zero_add] <;> abel)
    (hborrow : ∀ h ∈ c.borrows, h ∈ D := by simp [Call.borrows])
    (hgives : ∀ a, c.gives a = 1 ∧ c.closures a = [] := by exact fun _ => ⟨rfl, rfl⟩) :
    Owned L (Handles.text z c >>= f) Q :=
  one (g := fun r => (r.2.headD ⟨c.kind, 0⟩, r.1.text)) D hL hborrow hgives fun x a _ => h x a.text

theorem array {f : Handle × Nat → Code β} (D : Multiset Handle) (h : ∀ h n, Owned (D + {h}) (f (h, n)) Q)
    (hL : L = c.consumes + c.lends + D := by
      simp only [Call.consumes, Call.lends, Option.elim, add_zero, zero_add] <;> abel)
    (hborrow : ∀ h ∈ c.borrows, h ∈ D := by simp [Call.borrows])
    (hgives : ∀ a, c.gives a = 1 ∧ c.closures a = [] := by exact fun _ => ⟨rfl, rfl⟩) :
    Owned L (Handles.array z c >>= f) Q :=
  one (g := fun r => (r.2.headD ⟨c.kind, 0⟩, r.1.texts.length)) D hL hborrow hgives fun x a _ => h x a.texts.length

/-- No handle, and what follows. -/
theorem nothing {f : Answer → Code β} (D : Multiset Handle)
    (h : ∀ a, Owned D (f a) fun b l es => Q b l (c.closures a ++ es)) (hL : L = c.consumes + c.lends + D)
    (hborrow : ∀ h ∈ c.borrows, h ∈ D) (hgives : ∀ a, c.gives a = 0) : Owned L (Handles.perform z c >>= f) Q := by
  refine (call D hL hborrow).bind (f := fun r : Answer × List Handle => f r.1) ?_
  rintro ⟨a, given⟩ l es ⟨hlen, -, rfl, rfl⟩
  obtain rfl := List.length_eq_zero_iff.mp (hlen.trans (hgives a))
  show Owned (D + ((0 : Multiset Handle))) (f a) _
  rw [add_zero]
  exact h a

theorem perform {f : Answer → Code β} (D : Multiset Handle) (h : ∀ a, Owned D (f a) Q)
    (hL : L = c.consumes + c.lends + D := by
      simp only [Call.consumes, Call.lends, Option.elim, add_zero, zero_add] <;> abel)
    (hborrow : ∀ h ∈ c.borrows, h ∈ D := by simp [Call.borrows])
    (hgives : ∀ a, c.gives a = 0 ∧ c.closures a = [] := by exact fun _ => ⟨rfl, rfl⟩) :
    Owned L (Handles.perform z c >>= f) Q := by
  refine nothing D (fun a => ?_) hL hborrow fun a => (hgives a).1
  rw [(hgives a).2]
  exact h a

theorem succeeds {f : Bool → Code β} (D : Multiset Handle) (h : ∀ ok, Owned D (f ok) Q)
    (hL : L = c.consumes + c.lends + D := by
      simp only [Call.consumes, Call.lends, Option.elim, add_zero, zero_add] <;> abel)
    (hborrow : ∀ h ∈ c.borrows, h ∈ D := by simp [Call.borrows])
    (hgives : ∀ a, c.gives a = 0 ∧ c.closures a = [] := by exact fun _ => ⟨rfl, rfl⟩) :
    Owned L (Handles.succeeds z c >>= f) Q :=
  perform (f := fun a => f a.ok) D (fun a => h a.ok) hL hborrow hgives

/-- A closure is handed over with its context. -/
theorem handingOver {f : Bool → Code β} (context : Option Handle) (D : Multiset Handle)
    (h : ∀ ok, Owned D (f ok) fun b l es => Q b l (.handedOver context ok :: es))
    (hL : L = c.consumes + c.lends + D := by
      simp only [Call.consumes, Call.lends, Option.elim, add_zero, zero_add] <;> abel)
    (hborrow : ∀ h ∈ c.borrows, h ∈ D := by simp [Call.borrows])
    (hgives : ∀ a, c.gives a = 0 ∧ c.closures a = [.handedOver context a.ok] := by
      exact fun _ => ⟨rfl, rfl⟩) :
    Owned L (Handles.succeeds z c >>= f) Q := by
  refine nothing (f := fun a => f a.ok) D (fun a => ?_) hL hborrow fun a => (hgives a).1
  rw [(hgives a).2]
  exact h a.ok

/-- A use of blocks or texts, and what follows it. -/
theorem access {blocks : List Handle} {f : Answer → Code β} (h : ∀ a, Owned L (f a) Q)
    (hblocks : ∀ h ∈ blocks, h ∈ L := by simp) : Owned L (Handles.perform z (.access blocks) >>= f) Q :=
  perform L h (zero_add L).symm (fun x hx => hblocks x hx)

/-- Code that leaves what is known, and what follows it. -/
theorem leads {f : α → Code β} (hp : Owned L p (Leaving D)) (h : ∀ a, Owned D (f a) Q) :
    Owned L (p >>= f) Q := by
  refine hp.bind fun a l es hl => ?_
  obtain ⟨rfl, rfl⟩ := hl
  exact h a

/-- A line printed, and what follows it. -/
theorem printed {line : CStr} {f : Unit → Code β} (h : Owned L (f ()) Q) :
    Owned L (Handles.print line >>= f) Q :=
  (print line).leads fun _ => h

theorem printedUnless {ok : Bool} {line : CStr} {f : Unit → Code β} (h : Owned L (f ()) Q) :
    Owned L (Handles.printUnless ok line >>= f) Q := by
  cases ok with
  | true => exact h
  | false => exact .printed h

end Owned

/-! ## Programs -/

/-- What became of `main`. -/
inductive Outcome where
  | returned (status : Int)
  /-- It is in its loop. -/
  | inLoop
  /-- `parse_args` called `exit`. -/
  | exited
  /-- An `assert` failed. -/
  | aborted
  deriving DecidableEq

/-- The contexts that closures keep which were handed over. -/
def contexts (es : List ClosureEvent) : Multiset Handle :=
  (es.map fun | .handedOver context true => context.elim 0 ({·}) | _ => (0 : Multiset Handle)).sum

/-- What is live with an outcome, in `main` or as a closure's context: `leaks`
when it has returned, and `keeps` too in its loop. A closure is handed over once
at most, and has a context exactly if `context`. -/
structure Leaves (leaks keeps : Multiset Kind) (context : Bool) (outcome : Outcome) (live : Multiset Handle)
    (es : List ClosureEvent) : Prop where
  once : es = [] ∨ ∃ c ok, es = [.handedOver c ok] ∧ c.isSome = context
  returned : ∀ status, outcome = .returned status → (live + contexts es).map Handle.kind = leaks
  inLoop : outcome = .inLoop → (live + contexts es).map Handle.kind = leaks + keeps

namespace Leaves

variable {keeps : Multiset Kind} {context : Bool} {status : Int} {live : Multiset Handle}
  {c : Option Handle} {ok : Bool}

/-- `main` has returned, and has handed no closure over. -/
theorem clean : Leaves 0 keeps context (.returned status) 0 [] :=
  ⟨.inl rfl, fun _ _ => rfl, fun h => by cases h⟩

/-- `main` has returned, and the closure that it handed over keeps no context. -/
theorem cleanAfter (hc : c.isSome = context) (h : contexts [.handedOver c ok] = 0) :
    Leaves 0 keeps context (.returned status) 0 [.handedOver c ok] := by
  refine ⟨.inr ⟨c, ok, rfl, hc⟩, fun _ _ => ?_, fun h => by cases h⟩
  rw [h]
  rfl

/-- `main` is in its loop, and has handed no closure over. -/
theorem looping (h : live.map Handle.kind = keeps) : Leaves 0 keeps context .inLoop live [] := by
  refine ⟨.inl rfl, (fun _ h => by cases h), fun _ => ?_⟩
  rw [zero_add, ← h]
  exact congrArg _ (add_zero live)

/-- `main` is in its loop, and has handed a closure over. -/
theorem loopingAfter (hc : c.isSome = context) (h : (live + contexts [.handedOver c ok]).map Handle.kind = keeps) :
    Leaves 0 keeps context .inLoop live [.handedOver c ok] :=
  ⟨.inr ⟨c, ok, rfl, hc⟩, (fun _ h => by cases h), fun _ => h.trans (zero_add keeps).symm⟩

/-- `main` was aborted, and had handed no closure over. -/
theorem aborted {leaks : Multiset Kind} : Leaves leaks keeps context .aborted live [] :=
  ⟨.inl rfl, (fun _ h => by cases h), (fun h => by cases h)⟩

/-- `main` was aborted, and had handed a closure over that has no context. -/
theorem abortedAfter {leaks : Multiset Kind} : Leaves leaks keeps false .aborted live [.handedOver none ok] :=
  ⟨.inr ⟨none, ok, rfl, rfl⟩, (fun _ h => by cases h), (fun h => by cases h)⟩

end Leaves

/-- A program, which releases all that it was given, but for what it leaks. -/
structure Program where
  /-- The thread of `main`, up to a round of its loop. -/
  run : Zenoh → Nat → Code Outcome
  /-- What `main` does not release. -/
  leaks : Multiset Kind
  /-- What `main` uses in its loop. -/
  keeps : Multiset Kind
  /-- The closure has a context of its own. -/
  context : Bool
  owned : ∀ z n, Owned 0 (run z n) (Leaves leaks keeps context)

end ZenohFlatC.Handles
