import ZenohFlatC.Handles.Asks
import ZenohFlatC.Handles.Loops

/-!
# What the examples ask of zenoh

`requests_examples`: an example asks for what its command line says, each time
in a session with the command line's settings, or, if it fails before, for
nothing. A publisher asks with the congestion control, the priority and the
`express` that it was declared with. `published_numbered` is about the messages
of `z_pub`.
-/

namespace ZenohFlatC.Handles

open CStr (lit)
open Args (SessionOptions)

namespace Asks

variable {β : Type} {z : Zenoh} {K : List Fact} {Q : β → List Request → Prop}

theorem sliceOf {v : Option CStr} {f : Option Handle → Code β} (hnone : v = none → Asks K (f none) Q)
    (hsome : ∀ t h, v = some t → Asks (.gave h (.zbytesFromSlice t.bytes none) :: K) (f (some h)) Q) :
    Asks K (Handles.sliceOf z v >>= f) Q := by
  cases v with
  | none => exact hnone rfl
  | some t => exact .handle (f := fun h => f (some h)) rfl (fun _ => rfl) fun h => hsome t h rfl

end Asks

/-! ## The programs -/

/-- The requests of a program. -/
def Program.requests (p : Program) (z : Zenoh) (n : Nat) : List Request := (p.run z n .start).2.requests

/-- Whatever zenoh answers, the program makes the requests that `asked` allows,
for the number of rounds and the outcome. -/
def Program.Asks (p : Program) (asked : Nat → Outcome → List Request → Prop) : Prop :=
  ∀ z n, asked n (p.run z n .start).1 (p.requests z n)

theorem Program.asks_ofMain {options : SessionOptions} {main : Zenoh → Nat → Handle → Code Outcome}
    {keeps : Multiset Kind} {context : Bool}
    {owned : ∀ z n config, Owned {config} (main z n config) (Leaves 0 keeps context)}
    {asked : Nat → Outcome → List Request → Prop} (hexited : ∀ n, asked n .exited [])
    (hmain : ∀ z n config, Handles.Asks [.configured config options.calls] (main z n config) (asked n)) :
    (Program.ofMain options main keeps context owned).Asks asked := by
  intro z n
  obtain ⟨hrequests, hconfigured⟩ := parseArgs_configures z options
  cases hr : (parseArgs z options .start).1 with
  | none =>
    have hrun : (Program.ofMain options main keeps context owned).run z n .start =
        (.exited, (parseArgs z options .start).2) := bind_of (Prod.ext hr rfl)
    rw [Program.requests, hrun]
    show asked n .exited (parseArgs z options .start).2.requests
    rw [hrequests]
    exact hexited n
  | some config =>
    have hrun : (Program.ofMain options main keeps context owned).run z n .start =
        main z n config (parseArgs z options .start).2 := bind_of (Prod.ext hr rfl)
    obtain ⟨rs, hasked, hrs⟩ := hmain z n config (parseArgs z options .start).2 fun f hf => by
      obtain rfl := List.mem_singleton.mp hf
      exact hconfigured config hr
    rw [Program.requests, hrun, hrs, hrequests]
    exact hasked

/-- All of `rs` if `main` ended so, and else nothing. -/
def When (done : Outcome) (rs : List Request) (outcome : Outcome) (asked : List Request) : Prop :=
  asked = if outcome = done then rs else []

/-- `r`, which is asked for before `main` is in its loop. -/
def Before (r : Request) (outcome : Outcome) (asked : List Request) : Prop :=
  asked = [r] ∨ asked = [] ∧ outcome ≠ .inLoop

theorem Before.failed {r : Request} {status : Int} : Before r (.returned status) [] := .inr ⟨rfl, fun h => by cases h⟩

theorem Before.exited {r : Request} : Before r .exited [] := .inr ⟨rfl, fun h => by cases h⟩

/-! ## `z_put`, `z_delete` and `z_get` -/

/-- What `z_put` asks for. -/
def Put.asked (args : Args.Put.Args) (options : SessionOptions) : Request :=
  ⟨some options.calls, .put (.of args.keyexpr) (some args.value.bytes)⟩

/-- What `z_delete` asks for. -/
def Delete.asked (args : Args.Delete.Args) (options : SessionOptions) : Request :=
  ⟨some options.calls, .delete (.of args.keyexpr)⟩

/-- What `z_get` asks for. -/
def Get.asked (args : Args.Get.Args) (options : SessionOptions) : Request :=
  ⟨some options.calls, .get (.of (Get.keyOf args.selector)) (Get.paramsOf args.selector) args.sessionTimeout
    args.target (args.value.map (·.bytes))⟩

theorem Put.asks (args : Args.Put.Args) (options : SessionOptions) :
    (Put.program args options).Asks fun _ => When (.returned 0) [asked args options] := by
  refine Program.asks_ofMain (fun _ => rfl) fun z _ config => .map (.printed ?_)
  refine .pointer rfl (.printed (.pure rfl)) fun s => .printed ?_
  refine .tryFrom (by simp) (.printed (.perform rfl fun _ => .pure rfl)) fun ke => ?_
  refine .handle rfl (fun _ => rfl) fun payload => ?_
  refine .askingSucceeds (asked args options) (fun w hw => ?_) fun ok => ?_
  · obtain ⟨hpayload, hke, hs, hconfig, -⟩ : _ ∧ _ ∧ _ ∧ _ ∧ _ := by
      simpa only [World.Knows, List.forall_mem_cons] using hw
    rw [request, settingsOf_of hs hconfig, keyOf_of hke, bytesOf_slice hpayload]
    rfl
  · exact .printedUnless (.perform rfl fun _ => .perform rfl fun _ => .pure rfl)

theorem Delete.asks (args : Args.Delete.Args) (options : SessionOptions) :
    (Delete.program args options).Asks fun _ => When (.returned 0) [asked args options] := by
  refine Program.asks_ofMain (fun _ => rfl) fun z _ config => .map (.printed ?_)
  refine .pointer rfl (.printed (.pure rfl)) fun s => .printed ?_
  refine .tryFrom (by simp) (.printed (.perform rfl fun _ => .pure rfl)) fun ke => ?_
  refine .askingSucceeds (asked args options) (fun w hw => ?_) fun ok => ?_
  · obtain ⟨hke, hs, hconfig, -⟩ : _ ∧ _ ∧ _ ∧ _ := by
      simpa only [World.Knows, List.forall_mem_cons] using hw
    rw [request, settingsOf_of hs hconfig, keyOf_of hke]
    rfl
  · exact .printedUnless (.perform rfl fun _ => .perform rfl fun _ => .pure rfl)

theorem Get.asks (args : Args.Get.Args) (options : SessionOptions) :
    (Get.program args options).Asks fun _ => When (.returned 0) [asked args options] := by
  refine Program.asks_ofMain (fun _ => rfl) fun z _ config => .map (.printed ?_)
  refine .pointer rfl (.printed (.pure rfl)) fun s => ?_
  refine .tryFrom (by simp) (.printed (.perform rfl fun _ => .pure rfl)) fun ke => ?_
  refine .sliceOf (fun hnone => .printed ?_) fun t payload hsome => .printed ?_
  · refine .askingSucceeds (asked args options) (fun w hw => ?_) fun ok => .perform rfl fun _ => ?_
    · obtain ⟨hke, hs, hconfig, -⟩ : _ ∧ _ ∧ _ ∧ _ := by
        simpa only [World.Knows, List.forall_mem_cons] using hw
      rw [request, settingsOf_of hs hconfig, keyOf_of hke, asked, hnone]
      rfl
    · exact .printedUnless (.perform rfl fun _ => .pure rfl)
  · refine .askingSucceeds (asked args options) (fun w hw => ?_) fun ok => .perform rfl fun _ => ?_
    · obtain ⟨hpayload, hke, hs, hconfig, -⟩ : _ ∧ _ ∧ _ ∧ _ ∧ _ := by
        simpa only [World.Knows, List.forall_mem_cons] using hw
      rw [request, settingsOf_of hs hconfig, keyOf_of hke, Option.bind_some, bytesOf_slice hpayload, asked, hsome]
      rfl
    · exact .printedUnless (.perform rfl fun _ => .pure rfl)

/-! ## The publishers -/

/-- What `z_pub` asks for in round `i`. -/
def Pub.asked (args : Args.Pub.Args) (options : SessionOptions) (i : Nat) : Request :=
  ⟨some options.calls, .publish (.of args.keyexpr) none none none (some (Pub.message i args.value).bytes)
    (args.attachment.map (·.bytes))⟩

/-- What `z_pub_thr` asks for in each round. -/
def PubThr.asked (args : Args.PubThr.Args) (options : SessionOptions) (key : Key) : Request :=
  ⟨some options.calls, .publish key (some .block) (some args.priority) (some args.express)
    (some (PubThr.bytes args.size)) none⟩

/-- In each of `n` rounds from `i` on, `z_pub` asks for its message. -/
theorem Pub.rounds_asks (z : Zenoh) (args : Args.Pub.Args) (options : SessionOptions) {config s ke pub : Handle}
    {K : List Fact} (hpub : .gave pub (.sessionDeclarePublisher s (some ke) none none none) ∈ K)
    (hke : .gave ke (.keyexprTryFrom args.keyexpr) ∈ K) (hs : .gave s (.zOpen config) ∈ K)
    (hconfig : .configured config options.calls ∈ K) (i n : Nat) :
    Handles.Asks K (rounds z args pub i n) fun _ rs => rs = (List.range' i n).map (asked args options) := by
  induction n generalizing i with
  | zero => exact .pure rfl
  | succ n ih =>
    have hnext : ∀ L, K ⊆ L → Handles.Asks L (rounds z args pub (i + 1) n) fun _ rs =>
        asked args options i :: rs = (List.range' i (n + 1)).map (asked args options) := fun L hL =>
      ((ih (i + 1)).weaken fun _ rs h => congrArg (_ :: ·) h).subset hL
    refine .printed (.handle rfl (fun _ => rfl) fun payload => ?_)
    refine .sliceOf (fun hnone => ?_) fun t attachment hsome => ?_
    · refine .askingPerform (asked args options i) (fun w hw => ?_) fun _ => hnext _ (List.subset_cons_self ..)
      obtain ⟨hpayload, hK⟩ := List.forall_mem_cons.mp hw
      rw [request_publisherPut (hK _ hpub) (hK _ hs) (hK _ hconfig), keyOrNull_of (hK _ hke), bytesOf_slice hpayload,
        asked, hnone]
      rfl
    · refine .askingPerform (asked args options i) (fun w hw => ?_) fun _ => hnext _ fun p hp => .tail _ (.tail _ hp)
      obtain ⟨hattachment, hpayload, hK⟩ : _ ∧ _ ∧ _ := by
        rwa [World.Knows, List.forall_mem_cons, List.forall_mem_cons] at hw
      rw [request_publisherPut (hK _ hpub) (hK _ hs) (hK _ hconfig), keyOrNull_of (hK _ hke), bytesOf_slice hpayload,
        Option.bind_some, bytesOf_slice hattachment, asked, hsome]
      rfl

theorem Pub.asks (args : Args.Pub.Args) (options : SessionOptions) : (Pub.program args options).Asks fun n =>
    When .inLoop ((List.range n).map (asked args options)) := by
  refine Program.asks_ofMain (fun _ => rfl) fun z n config => .printed ?_
  refine .pointer rfl (.printed (.pure rfl)) fun s => .printed ?_
  refine .tryFrom (by simp) (.printed (.perform rfl fun _ => .pure rfl)) fun ke => ?_
  refine .pointer rfl (.printed (.perform rfl fun _ => .pure rfl)) fun pub => .printedUnless (.printed (.ending ?_))
  refine .weaken (rounds_asks z args options (.head _) (.tail _ (.head _)) (.tail _ (.tail _ (.head _)))
    (.tail _ (.tail _ (.tail _ (.head [])))) 0 n) fun _ rs h => ?_
  rw [When, if_pos rfl, h, List.range_eq_range']

/-- In each of `n` rounds, `z_pub_thr` asks for the same. -/
theorem PubThr.rounds_asks (z : Zenoh) (args : Args.PubThr.Args) (options : SessionOptions) {key : Key}
    {config s value pub payload : Handle} {ke : Option Handle} {K : List Fact}
    (hpub : .gave pub (.sessionDeclarePublisher s ke (some .block) (some args.priority) (some args.express)) ∈ K)
    (hpayload : .gave payload (.zbytesFromSlice (bytes args.size) (some value)) ∈ K)
    (hke : ∀ w : World, w.Knows K → keyOrNull w.log ke = key) (hs : .gave s (.zOpen config) ∈ K)
    (hconfig : .configured config options.calls ∈ K) (n : Nat) :
    Handles.Asks K (rounds z pub payload n) fun _ rs => rs = List.replicate n (asked args options key) := by
  induction n with
  | zero => exact .pure rfl
  | succ n ih =>
    refine .handle rfl (fun _ => rfl) fun toSend => ?_
    refine .askingPerform (asked args options key) (fun w hw => ?_) fun _ => ?_
    · obtain ⟨htoSend, hK⟩ := List.forall_mem_cons.mp hw
      rw [request_publisherPut (hK _ hpub) (hK _ hs) (hK _ hconfig), hke w hK, bytesOf_clone htoSend (hK _ hpayload)]
      rfl
    · exact (ih.weaken fun _ rs h => congrArg (_ :: ·) h).subset (List.subset_cons_self ..)

theorem PubThr.asks (args : Args.PubThr.Args) (options : SessionOptions) :
    (PubThr.program args options).Asks fun n outcome rs =>
      ∃ key, (key = .of (lit "test/thr") ∨ key = .refused (lit "test/thr")) ∧
        When .inLoop (List.replicate n (asked args options key)) outcome rs := by
  refine Program.asks_ofMain (fun _ => ⟨_, .inl rfl, rfl⟩) fun z n config => ?_
  refine .handle rfl (fun _ => rfl) fun value => .perform rfl fun _ => ?_
  refine .pointer rfl (.printed (.perform rfl fun _ => .pure ⟨_, .inl rfl, rfl⟩)) fun s => ?_
  refine .uncheckedKey (by simp) fun ke key L hL hkey hke => .pointer rfl ?_ fun pub => ?_
  · exact .printed (.perform rfl fun _ => .perform rfl fun _ => .pure ⟨_, .inl rfl, rfl⟩)
  · refine .handle rfl (fun _ => rfl) fun payload => .printed (.ending ?_)
    refine .weaken (rounds_asks z args options (.tail _ (.head L)) (.head _)
      (fun w hw => hke w fun p hp => hw p (.tail _ (.tail _ hp))) (.tail _ (.tail _ (hL (.head _))))
      (.tail _ (.tail _ (hL (.tail _ (.tail _ (.head [])))))) n) fun _ rs h => ⟨key, hkey, ?_⟩
    rw [When, if_pos rfl, h]

/-! ## `z_sub`, `z_queryable` and `z_sub_thr` -/

/-- What `z_sub` asks for. -/
def Sub.asked (args : Args.Sub.Args) (options : SessionOptions) : Request :=
  ⟨some options.calls, .subscribe (.of args.keyexpr)⟩

/-- What `z_queryable` asks for. -/
def Queryable.asked (args : Args.Queryable.Args) (options : SessionOptions) : Request :=
  ⟨some options.calls, .answer (.of args.keyexpr) args.complete⟩

/-- What `z_sub_thr` asks for. -/
def SubThr.asked (options : SessionOptions) (key : Key) : Request := ⟨some options.calls, .subscribe key⟩

theorem Sub.asks (args : Args.Sub.Args) (options : SessionOptions) :
    (Sub.program args options).Asks fun _ => Before (asked args options) := by
  refine Program.asks_ofMain (fun _ => .exited) fun z n config => .printed ?_
  refine .pointer rfl (.printed (.pure .failed)) fun s => ?_
  refine .tryFrom (by simp) (.printed (.perform rfl fun _ => .pure .failed)) fun ke => ?_
  refine .printed (.askingPointer (asked args options) (fun w hw => ?_) fun sub => ?_)
  · obtain ⟨hke, hs, hconfig, -⟩ : _ ∧ _ ∧ _ ∧ _ := by
      simpa only [World.Knows, List.forall_mem_cons] using hw
    rw [request, settingsOf_of hs hconfig, keyOrNull_of hke]
    rfl
  · cases sub with
    | none => exact .printed (.perform rfl fun _ => .pure (.inl rfl))
    | some sub => exact .printed (.pure (.inl rfl))

theorem Queryable.asks (args : Args.Queryable.Args) (options : SessionOptions) :
    (Queryable.program args options).Asks fun _ => Before (asked args options) := by
  refine Program.asks_ofMain (fun _ => .exited) fun z n config => .printed ?_
  refine .pointer rfl (.printed (.pure .failed)) fun s => ?_
  refine .tryFrom (by simp) (.printed (.perform rfl fun _ => .pure .failed)) fun ke => ?_
  refine .printed (.askingPointer (asked args options) (fun w hw => ?_) fun qable => ?_)
  · obtain ⟨hke, hs, hconfig, -⟩ : _ ∧ _ ∧ _ ∧ _ := by
      simpa only [World.Knows, List.forall_mem_cons] using hw
    rw [request, settingsOf_of hs hconfig, keyOf_of hke]
    rfl
  · cases qable with
    | none => exact .printed (.perform rfl fun _ => .pure (.inl rfl))
    | some qable => exact .printed (.pure (.inl rfl))

theorem SubThr.zStatsMake_asks {β : Type} {z : Zenoh} {K : List Fact} {f : Handle → Code β}
    {Q : β → List Request → Prop}
    (h : ∀ stats, Handles.Asks (.gave stats (.malloc .stats sizeofStats) :: K) (f stats) Q) :
    Handles.Asks K (zStatsMake z >>= f) Q :=
  .handle (f := fun stats => perform z (.access [stats]) >>= fun _ => f stats) rfl (fun _ => rfl) fun stats =>
    .perform rfl fun _ => h stats

theorem SubThr.asks (options : SessionOptions) : (SubThr.program options).Asks fun _ outcome rs =>
    ∃ key, (key = .of (lit "test/thr") ∨ key = .refused (lit "test/thr")) ∧
      Before (asked options key) outcome rs := by
  refine Program.asks_ofMain (fun _ => ⟨_, .inl rfl, .exited⟩) fun z n config => ?_
  refine .pointer rfl (.printed (.pure ⟨_, .inl rfl, .failed⟩)) fun s => ?_
  refine .uncheckedKey (by simp) fun ke key L hL hkey hke => zStatsMake_asks fun context => ?_
  refine .askingPointer (asked options key) (fun w hw => ?_) fun sub => ?_
  · obtain ⟨-, hK⟩ := List.forall_mem_cons.mp hw
    rw [request, settingsOf_of (hK _ (hL (.head _))) (hK _ (hL (.tail _ (.head [])))), hke w hK]
    rfl
  · cases sub with
    | none => exact .printed (.perform rfl fun _ => .pure ⟨key, hkey, .inl rfl⟩)
    | some sub => exact .printed (.pure ⟨key, hkey, .inl rfl⟩)

namespace Pub

/-- What is in front of the value in the message of round `i`. -/
def header (i : Nat) : CStr := lit "[" ++ (CStr.signed i).padded 4 ++ lit "] "

variable {i : Nat} (value : CStr)

theorem signed_natCast (i : Nat) : CStr.signed i = CStr.decimal i := if_neg (Int.not_lt.mpr (Int.natCast_nonneg i))

/-- An `int` has ten digits at most. -/
theorem strlen_header (hi : i < 2 ^ 31) : (header i).strlen ≤ 13 := by
  have hdigits : (CStr.decimal i).strlen ≤ 10 := (CStr.strlen_decimal_le_iff (by decide)).mpr (by omega)
  rw [header, CStr.strlen_append, CStr.strlen_append, CStr.strlen_padded, signed_natCast]
  show 1 + max 4 (CStr.decimal i).strlen + 2 ≤ 13
  omega

theorem bytes_message (i : Nat) :
    (message i value).bytes = ((header i).bytes ++ value.bytes).take 255 := rfl

theorem strlen_message (i : Nat) : (message i value).strlen ≤ 255 := by
  rw [CStr.strlen, bytes_message, List.length_take]
  omega

/-- The message has the number, and what fits of the value. -/
theorem message_eq (hi : i < 2 ^ 31) : message i value = header i ++ value.take (255 - (header i).strlen) := by
  have hheader := strlen_header hi
  refine CStr.ext ?_
  rw [bytes_message, List.take_append, List.take_of_length_le (by rw [← CStr.strlen]; omega)]
  rfl

theorem atoi_message (hi : i < 2 ^ 31) : ((message i value).drop 1).atoi.toInt = i := by
  have hdrop : (message i value).drop 1 =
      (CStr.decimal i).padded 4 ++ (lit "] " ++ value.take (255 - (header i).strlen)) := by
    rw [message_eq value hi, header, signed_natCast, CStr.append_assoc, CStr.append_assoc]
    rfl
  have hrest : ∀ c ∈ (lit "] " ++ value.take (255 - (header i).strlen)).bytes.head?, isDigit c = false := by
    rintro c ⟨⟩
    decide
  rw [hdrop, CStr.atoi, CStr.strtol_padded i 4 hrest, Int32.toInt_ofInt]
  show (min (i : Int) (2 ^ 63 - 1)).bmod (2 ^ 32) = i
  rw [CStr.Decimal.bmod_eq]
  omega

/-- A value is whole in its message if both fit in the buffer. -/
theorem message_whole_iff : message i value = header i ++ value ↔ (header i).strlen + value.strlen ≤ 255 := by
  rw [← CStr.strlen_append]
  constructor
  · intro h
    rw [← h]
    exact strlen_message value i
  · intro h
    exact CStr.ext (List.take_of_length_le h)

theorem asked_inj {args : Args.Pub.Args} {options : SessionOptions} {j : Nat} (hi : i < 2 ^ 31) (hj : j < 2 ^ 31)
    (h : asked args options i = asked args options j) : i = j := by
  injection h with _ h
  injection h with _ _ _ _ h _
  have hmessage : message i args.value = message j args.value := CStr.ext (Option.some.inj h)
  have hatoi := atoi_message args.value hi
  rw [hmessage, atoi_message args.value hj] at hatoi
  omega

end Pub

/-- No message of `z_pub` is asked for twice. The message of a round has the
round's number, which `atoi` reads behind the bracket, fits in the buffer, and
has the whole value if that fits behind the number. -/
theorem published_numbered (args : Args.Pub.Args) (options : SessionOptions) (z : Zenoh) (n : Nat)
    (hn : n ≤ 2 ^ 31) : ((Pub.program args options).requests z n).Nodup ∧
    ∀ (i : Nat) (r : Request), ((Pub.program args options).requests z n)[i]? = some r → ∃ text : CStr,
      r = ⟨some options.calls,
        .publish (.of args.keyexpr) none none none (some text.bytes) (args.attachment.map (·.bytes))⟩ ∧
      text.strlen ≤ 255 ∧ (text.drop 1).atoi.toInt = i ∧
      (text = Pub.header i ++ args.value ↔ (Pub.header i).strlen + args.value.strlen ≤ 255) := by
  rw [Pub.asks args options z n]
  split
  · refine ⟨List.Nodup.map_on (fun i hi j hj h => ?_) List.nodup_range, fun i r hr => ?_⟩
    · rw [List.mem_range] at hi hj
      exact Pub.asked_inj (by omega) (by omega) h
    · rw [List.getElem?_map, Option.map_eq_some_iff] at hr
      obtain ⟨j, hj, rfl⟩ := hr
      obtain ⟨hlt, rfl⟩ := List.getElem?_eq_some_iff.mp hj
      rw [List.length_range] at hlt
      rw [List.getElem_range]
      exact ⟨Pub.message i args.value, rfl, Pub.strlen_message _ i, Pub.atoi_message _ (by omega),
        Pub.message_whole_iff _⟩
  · exact ⟨List.nodup_nil, fun i r hr => by cases hr⟩

theorem published_numbered_third : ∃ text : CStr, (text.drop 1).atoi.toInt = 2 ∧
    ((Pub.program ⟨lit "demo/pub", lit "Pub", none, false⟩ ⟨none, none, [], [], [], false⟩).requests
        (fun _ _ => ⟨true, 0, []⟩) 3)[2]? =
      some ⟨some [.default], .publish (.of (lit "demo/pub")) none none none (some text.bytes) none⟩ := by
  obtain ⟨-, hthird⟩ := published_numbered ⟨lit "demo/pub", lit "Pub", none, false⟩ ⟨none, none, [], [], [], false⟩
    (fun _ _ => ⟨true, 0, []⟩) 3 (by decide)
  have hasked : ((Pub.program ⟨lit "demo/pub", lit "Pub", none, false⟩ ⟨none, none, [], [], [], false⟩).requests
      (fun _ _ => ⟨true, 0, []⟩) 3)[2]? =
    some (Pub.asked ⟨lit "demo/pub", lit "Pub", none, false⟩ ⟨none, none, [], [], [], false⟩ 2) := by decide +kernel
  obtain ⟨text, htext, -, hatoi, -⟩ := hthird 2 _ hasked
  exact ⟨text, hatoi, hasked.trans (congrArg some htext)⟩

end ZenohFlatC.Handles
