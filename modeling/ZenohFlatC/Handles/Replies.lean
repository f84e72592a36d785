import ZenohFlatC.Handles.Callbacks
import ZenohFlatC.Handles.Requests

/-!
# What the callbacks ask of zenoh

`Silent p`: whatever zenoh answers, `p` asks for nothing. The handlers of the
examples are silent, but for that of `z_queryable`.

`answered_examples`: a thread on which zenoh calls back asks for nothing, and
on that of `z_queryable` each query is answered once, on its own key
expression, with the value of the command line.
-/

namespace ZenohFlatC.Handles

open CStr (lit)

/-- The code asks for nothing, and what was known before it holds behind it. -/
def Silent {α : Type} (p : Code α) : Prop :=
  ∀ w, (p w).2.requests = w.requests ∧ ∀ K, w.Knows K → (p w).2.Knows K

namespace Silent

variable {α β : Type} {z : Zenoh} {c : Call}

theorem pure {b : β} : Silent (Pure.pure b : Code β) := fun _ => ⟨rfl, fun _ hK => hK⟩

theorem print (line : CStr) : Silent (Handles.print line) := fun _ => ⟨rfl, fun _ hK => hK⟩

theorem bind {p : Code α} {f : α → Code β} (hp : Silent p) (h : ∀ a, Silent (f a)) : Silent (p >>= f) := by
  intro w
  obtain ⟨hrs, hknows⟩ := hp w
  obtain ⟨hrs', hknows'⟩ := h (p w).1 (p w).2
  exact ⟨hrs'.trans hrs, fun K hK => hknows' K (hknows K hK)⟩

theorem map {p : Code α} (f : α → β) (hp : Silent p) : Silent (f <$> p) := hp

theorem call (h : c.quiet = true) : Silent (Handles.call z c) := by
  refine fun w => ⟨?_, fun K hK => hK.after (z w.log c) fun f _ => ?_⟩
  · show (w.after c (z w.log c)).requests = w.requests
    rw [w.requests_after, Call.request_of_quiet h]
    exact List.append_nil _
  · exact f.keptBy_of (Call.inserts_of_quiet h) (Call.tries_of_quiet h)

theorem text (h : c.quiet = true) : Silent (Handles.text z c) := .bind (.call h) fun _ => .pure

theorem perform (h : c.quiet = true) : Silent (Handles.perform z c) := .bind (.call h) fun _ => .pure

theorem succeeds (h : c.quiet = true) : Silent (Handles.succeeds z c) := .bind (.perform h) fun _ => .pure

/-- A line printed, and silent code behind it. -/
theorem printed {line : CStr} {f : Unit → Code β} (h : Silent (f ())) : Silent (Handles.print line >>= f) :=
  .bind (.print line) fun _ => h

/-- A call without a handle, and silent code behind it. -/
theorem performed {f : Answer → Code β} (hquiet : c.quiet = true) (h : ∀ a, Silent (f a)) :
    Silent (Handles.perform z c >>= f) := .bind (.perform hquiet) h

end Silent

/-- Silent code, and what follows. -/
theorem Asks.behind {α β : Type} {K : List Fact} {p : Code α} {f : α → Code β} {Q : β → List Request → Prop}
    (hp : Silent p) (h : ∀ a, Asks K (f a) Q) : Asks K (p >>= f) Q := by
  intro w hw
  obtain ⟨hsame, hknows⟩ := hp w
  obtain ⟨rs, hQ, hrs⟩ := h (p w).1 (p w).2 (hknows K hw)
  exact ⟨rs, hQ, hrs.trans (congrArg (· ++ rs) hsame)⟩

/-- Code, and silent code behind it. -/
theorem Asks.thenSilent {α β : Type} {K : List Fact} {p : Code α} {f : α → Code β} {R : List Request → Prop}
    (hp : Asks K p fun _ rs => R rs) (h : ∀ a, Silent (f a)) : Asks K (p >>= f) fun _ rs => R rs := by
  intro w hw
  obtain ⟨rs, hR, hrs⟩ := hp w hw
  exact ⟨rs, hR, (h (p w).1 (p w).2).1.trans hrs⟩

theorem Silent.asks {α : Type} {p : Code α} (h : Silent p) (K : List Fact) : Asks K p fun _ rs => rs = [] :=
  fun w _ => ⟨[], rfl, (h w).1.trans (List.append_nil _).symm⟩

/-! ## The handlers -/

theorem Sub.printAttachment_silent (z : Zenoh) (sample : Handle) : Silent (printAttachment z sample) := by
  refine .bind (.succeeds rfl) fun ok => ?_
  cases ok with
  | false => exact .pure
  | true =>
    refine .bind (.text rfl) fun att => .performed rfl fun _ => .printed ?_
    exact .performed rfl fun _ => .pure

theorem Sub.dataHandler_silent (z : Zenoh) (sample : Handle) : Silent (dataHandler z sample) := by
  refine .bind (.text rfl) fun keyexpr => .bind (.text rfl) fun payload => .performed rfl fun kind => ?_
  refine .performed rfl fun _ => .printed (.bind (printAttachment_silent z sample) fun _ => .printed ?_)
  exact .performed rfl fun _ => .performed rfl fun _ => .pure

theorem SubThr.onSample_silent (z : Zenoh) : Silent (onSample z) := .performed rfl fun _ => .pure

theorem LeakTest.dataHandler_silent (z : Zenoh) (sample : Handle) : Silent (dataHandler z sample) := by
  refine .bind (.text rfl) fun ke => .bind (.text rfl) fun payload => .performed rfl fun _ => ?_
  cases payload.2.strncmpEq value value.strlen with
  | false => exact .pure
  | true => exact .performed rfl fun _ => .performed rfl fun _ => .pure

theorem Get.replyHandler_silent (z : Zenoh) (reply : Handle) : Silent (replyHandler z reply) := by
  refine .bind (.succeeds rfl) fun ok => ?_
  cases ok with
  | false => exact .print _
  | true =>
    refine .bind (.text rfl) fun keyexpr => .bind (.text rfl) fun payload => .performed rfl fun _ => .printed ?_
    exact .performed rfl fun _ => .performed rfl fun _ => .pure

theorem Scout.printLocators_silent (i : Nat) (locators : List CStr) : Silent (printLocators i locators) := by
  induction locators generalizing i with
  | nil => exact .pure
  | cons locator locators ih => exact .printed (ih (i + 1))

theorem Scout.freeArray_silent (z : Zenoh) (array : List Handle) : Silent (freeArray z array) := by
  induction array with
  | nil => exact .pure
  | cons p ps ih => exact .performed rfl fun _ => ih

theorem Scout.helloHandler_silent (z : Zenoh) (hello : Handle) : Silent (helloHandler z hello) := by
  refine .performed rfl fun _ => .bind (.text rfl) fun zid => .performed rfl fun whatami => .performed rfl fun _ => ?_
  refine .printed (.bind (.call rfl) fun locators => .performed rfl fun _ => ?_)
  refine .bind (printLocators_silent 0 _) fun _ => .printed (.bind (freeArray_silent z _) fun _ => ?_)
  exact .performed rfl fun _ => .pure

theorem Queryable.printQuery_silent (z : Zenoh) (query keyexpr params : Handle) (key paramsText : CStr) :
    Silent (printQuery z query keyexpr params key paramsText) := by
  refine .bind (.succeeds rfl) fun ok => ?_
  cases ok with
  | false => exact .performed rfl fun _ => .print _
  | true =>
    refine .bind (.text rfl) fun pbuf => .performed rfl fun _ => .printed ?_
    exact .performed rfl fun _ => .pure

/-- The reply to a query. -/
def Queryable.reply (value : CStr) : Request := ⟨none, .reply true true (some value.bytes)⟩

/-- `query_handler` answers the query once. -/
theorem Queryable.queryHandler_asks (value : CStr) (z : Zenoh) {query : Handle} {K : List Fact}
    (hquery : .gave query .callback ∈ K) : Asks K (queryHandler value z query) fun _ rs => rs = [reply value] := by
  refine .behind (.text rfl) fun keyexpr => .behind (.text rfl) fun params => ?_
  refine .behind (printQuery_silent z query _ _ _ _) fun _ => .perform rfl fun _ => .printed ?_
  refine .handle rfl (fun _ => rfl) fun payload => .askingPerform (reply value) (fun w hw => ?_) fun _ => ?_
  · obtain ⟨hpayload, hK⟩ := List.forall_mem_cons.mp hw
    have horigin : origin w.log query = some .callback := hK _ hquery
    rw [request, horigin, bytesOf_slice hpayload]
    simp only [decide_true, reply]
  · exact .perform rfl fun _ => .perform rfl fun _ => .pure rfl

/-! ## The threads -/

/-- What a thread asks for on which zenoh calls back. -/
def Handler.requests (H : Handler) (z : Zenoh) : List Request := (H.run z .start).2.requests

theorem Handler.requests_of {H : Handler} {rs : List Request} (hdrop : ∀ object, (H.drop object).quiet = true)
    (hcall : ∀ z object, Asks [.gave object .callback] (H.call z object) fun _ rs' => rs' = rs) (z : Zenoh) :
    H.requests z = rs := by
  have hrun : Asks [] (H.run z) fun _ rs' => rs' = rs := by
    refine .handle rfl (fun _ => rfl) fun object => (hcall z object).thenSilent fun returned => ?_
    cases returned with
    | false => exact .pure
    | true => exact .performed (hdrop object) fun _ => .pure
  obtain ⟨rs', rfl, hrs⟩ := hrun .start fun f hf => absurd hf List.not_mem_nil
  exact hrs

theorem Handler.requests_of_silent {H : Handler} (hdrop : ∀ object, (H.drop object).quiet = true)
    (hcall : ∀ z object, Silent (H.call z object)) (z : Zenoh) : H.requests z = [] :=
  requests_of hdrop (fun z object => (hcall z object).asks _) z

/-- What an example asks for on a thread on which zenoh calls back. -/
def Example.calledBack (e : Example) (z : Zenoh) : List Request := e.handler.elim [] fun H => H.requests z

/-- What it is to ask for there. -/
def Example.replies : Example → List Request
  | queryable args _ => [Queryable.reply args.value]
  | _ => []

/-- Whatever zenoh answers, the thread of a callback asks for nothing, but that
of `z_queryable`, which answers the query that zenoh handed over, on the query's
own key expression, once, with the value of the command line. -/
theorem answered_examples (e : Example) (z : Zenoh) : e.calledBack z = e.replies := by
  cases e with
  | get args options =>
    exact Handler.requests_of_silent (H := Get.callback) (fun _ => rfl)
      (fun z reply => .map _ (Get.replyHandler_silent z reply)) z
  | scout =>
    exact Handler.requests_of_silent (H := Scout.callback) (fun _ => rfl)
      (fun z hello => .map _ (Scout.helloHandler_silent z hello)) z
  | sub args options =>
    exact Handler.requests_of_silent (H := Sub.callback) (fun _ => rfl)
      (fun z sample => .map _ (Sub.dataHandler_silent z sample)) z
  | queryable args options =>
    exact Handler.requests_of (H := Queryable.callback args.value) (fun _ => rfl)
      (fun z query => .map (Queryable.queryHandler_asks args.value z List.mem_cons_self)) z
  | subThr options =>
    exact Handler.requests_of_silent (H := SubThr.callback) (fun _ => rfl)
      (fun z _ => .map _ (SubThr.onSample_silent z)) z
  | leakTest received =>
    exact Handler.requests_of_silent (H := LeakTest.callback) (fun _ => rfl) LeakTest.dataHandler_silent z
  | put args options => rfl
  | delete args options => rfl
  | info options => rfl
  | pub args options => rfl
  | pubThr args options => rfl
  | sessionTest => rfl
  | keyexprTest => rfl

end ZenohFlatC.Handles
