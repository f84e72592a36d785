import ZenohFlatC.Args.Names
import ZenohFlatC.Args.Numbers
import ZenohFlatC.Args.Queryable

/-!
# The command lines of the other examples

`parse_args` of `z_put`, `z_delete`, `z_pub`, `z_sub` and `z_info` (those of
`z_get` and `z_sub_thr` are with their numbers), and the option units that
each of the seven programs accepts.

The steps of a program are put together from its last one
(`programRel_common`), each in front of those behind it.
`parsesExactly_examples`: each `parse_args` returns exactly on the command
lines of option units that its steps accept, with what the units say, having
made the calls for the common options.
-/

set_option linter.dupNamespace false

namespace ZenohFlatC.Args

open CStr (lit)

/-! ## `z_put` -/

namespace Put

/-- `DEFAULT_KEYEXPR`. -/
def defaultKeyexpr : CStr := lit "demo/example/zenoh-c-put"

/-- `DEFAULT_VALUE`. -/
def defaultValue : CStr := lit "Put from C!"

/-- `struct args_t`. -/
structure Args where
  keyexpr : CStr
  value : CStr
  deriving DecidableEq

/-- `parse_args`. -/
def parseArgs (api : ConfigApi) : Prog Args := do
  checkHelp
  let keyexpr ← parseArg (lit "k") (lit "key") pure defaultKeyexpr
  let value ← parseArg (lit "p") (lit "payload") pure defaultValue
  parseZenohCommonArgs api
  checkNothingLeft
  pure { keyexpr, value }

end Put

/-! ## `z_delete` -/

namespace Delete

/-- `DEFAULT_KEYEXPR`. -/
def defaultKeyexpr : CStr := lit "demo/example/zenoh-c-put"

/-- `struct args_t`. -/
structure Args where
  keyexpr : CStr
  deriving DecidableEq

/-- `parse_args`. -/
def parseArgs (api : ConfigApi) : Prog Args := do
  checkHelp
  let keyexpr ← parseArg (lit "k") (lit "key") pure defaultKeyexpr
  parseZenohCommonArgs api
  checkNothingLeft
  pure { keyexpr }

end Delete

/-! ## `z_pub` -/

namespace Pub

/-- `DEFAULT_KEYEXPR`. -/
def defaultKeyexpr : CStr := lit "demo/example/zenoh-c-pub"

/-- `DEFAULT_VALUE`. -/
def defaultValue : CStr := lit "Pub from C!"

/-- `struct args_t`. -/
structure Args where
  keyexpr : CStr
  value : CStr
  attachment : Option CStr
  addMatchingListener : Bool
  deriving DecidableEq

/-- `parse_args`. -/
def parseArgs (api : ConfigApi) : Prog Args := do
  checkHelp
  let keyexpr ← parseArg (lit "k") (lit "key") pure defaultKeyexpr
  let value ← parseArg (lit "p") (lit "payload") pure defaultValue
  let attachment ← parseStr (lit "a") (lit "attach")
  let addMatchingListener ← checkFlag (lit "add-matching-listener")
  parseZenohCommonArgs api
  checkNothingLeft
  pure { keyexpr, value, attachment, addMatchingListener }

end Pub

/-! ## `z_sub` -/

namespace Sub

/-- `DEFAULT_KEYEXPR`. -/
def defaultKeyexpr : CStr := lit "demo/example/**"

/-- `struct args_t`. -/
structure Args where
  keyexpr : CStr
  deriving DecidableEq

/-- `parse_args`. -/
def parseArgs (api : ConfigApi) : Prog Args := do
  checkHelp
  let keyexpr ← parseArg (lit "k") (lit "key") pure defaultKeyexpr
  parseZenohCommonArgs api
  checkNothingLeft
  pure { keyexpr }

end Sub

/-! ## `z_info` -/

namespace Info

/-- `parse_args`. -/
def parseArgs (api : ConfigApi) : Prog Unit := do
  checkHelp
  parseZenohCommonArgs api
  checkNothingLeft

end Info

/-! ## The own options of each program -/

/-- The own names of `z_put`. -/
inductive PutOpt where
  | k | key | p | payload
  deriving DecidableEq

instance : OwnNames PutOpt where
  text
    | .k => lit "k"
    | .key => lit "key"
    | .p => lit "p"
    | .payload => lit "payload"
  kind _ := .value
  all := [.k, .key, .p, .payload]
  mem_all n := by cases n <;> decide
  kind_own := by decide
  text_pos := by decide
  text_equals := by decide
  text_inj := by decide +kernel
  text_unambiguous := by decide +kernel

/-- The own names of `z_delete` and of `z_sub`. -/
inductive KeyOpt where
  | k | key
  deriving DecidableEq

instance : OwnNames KeyOpt where
  text
    | .k => lit "k"
    | .key => lit "key"
  kind _ := .value
  all := [.k, .key]
  mem_all n := by cases n <;> decide
  kind_own := by decide
  text_pos := by decide
  text_equals := by decide
  text_inj := by decide +kernel
  text_unambiguous := by decide +kernel

/-- The own names of `z_pub`. -/
inductive PubOpt where
  | k | key | p | payload | a | attach | addMatchingListener
  deriving DecidableEq

instance : OwnNames PubOpt where
  text
    | .k => lit "k"
    | .key => lit "key"
    | .p => lit "p"
    | .payload => lit "payload"
    | .a => lit "a"
    | .attach => lit "attach"
    | .addMatchingListener => lit "add-matching-listener"
  kind
    | .addMatchingListener => .flag
    | .k | .key | .p | .payload | .a | .attach => .value
  all := [.k, .key, .p, .payload, .a, .attach, .addMatchingListener]
  mem_all n := by cases n <;> decide
  kind_own := by decide
  text_pos := by decide
  text_equals := by decide
  text_inj := by decide +kernel
  text_unambiguous := by decide +kernel

/-- The own names of `z_queryable`. -/
inductive QueryableOpt where
  | k | key | p | payload | complete
  deriving DecidableEq

instance : OwnNames QueryableOpt where
  text
    | .k => lit "k"
    | .key => lit "key"
    | .p => lit "p"
    | .payload => lit "payload"
    | .complete => lit "complete"
  kind
    | .complete => .flag
    | .k | .key | .p | .payload => .value
  all := [.k, .key, .p, .payload, .complete]
  mem_all n := by cases n <;> decide
  kind_own := by decide
  text_pos := by decide
  text_equals := by decide
  text_inj := by decide +kernel
  text_unambiguous := by decide +kernel

/-- The own names of `z_get`. -/
inductive GetOpt where
  | s | selector | p | payload | o | timeout | t | target
  deriving DecidableEq

instance : OwnNames GetOpt where
  text
    | .s => lit "s"
    | .selector => lit "selector"
    | .p => lit "p"
    | .payload => lit "payload"
    | .o => lit "o"
    | .timeout => lit "timeout"
    | .t => lit "t"
    | .target => lit "target"
  kind _ := .value
  all := [.s, .selector, .p, .payload, .o, .timeout, .t, .target]
  mem_all n := by cases n <;> decide
  kind_own := by decide
  text_pos := by decide
  text_equals := by decide
  text_inj := by decide +kernel
  text_unambiguous := by decide +kernel

/-- The own names of `z_sub_thr`. -/
inductive SubThrOpt where
  | s | samples | n | number
  deriving DecidableEq

instance : OwnNames SubThrOpt where
  text
    | .s => lit "s"
    | .samples => lit "samples"
    | .n => lit "n"
    | .number => lit "number"
  kind _ := .value
  all := [.s, .samples, .n, .number]
  mem_all i := by cases i <;> decide
  kind_own := by decide
  text_pos := by decide
  text_equals := by decide
  text_inj := by decide +kernel
  text_unambiguous := by decide +kernel

/-- `z_info` has no own names. -/
instance : OwnNames Empty where
  text n := nomatch n
  kind n := nomatch n
  all := []
  mem_all n := nomatch n
  kind_own := by decide
  text_pos := by decide
  text_equals := by decide
  text_inj := by decide +kernel
  text_unambiguous := by decide +kernel

/-! ## What each program accepts -/

namespace Put

/-- The scans of `parse_args`, in their order. -/
def steps : List (ScanStep (Name PutOpt)) :=
  .help .h .help :: .arg (.own .k) (.own .key) :: .arg (.own .p) (.own .payload) :: commonSteps

/-- What `parse_args` returns. -/
def argsOf (us : List (OptUnit (Name PutOpt))) : Option Args := some {
  keyexpr := (given [.own .k, .own .key] us).getD defaultKeyexpr
  value := (given [.own .p, .own .payload] us).getD defaultValue }

theorem parsesExactly : ParsesExactly parseArgs steps argsOf := by
  refine parsesExactly_of_mirrors (fun n => ?_) (fun s hs => by simp [steps, hs]) fun api => ?_
  · cases n <;> simp [steps, ScanStep.names]
  · have hvalue := fun keyexpr => programRel_text (s := PutOpt.p) (l := .payload) (d := defaultValue)
      (fun value => programRel_common (ω := PutOpt) api (Args.mk keyexpr value)) rfl rfl rfl rfl (by decide)
      fun _ _ => rfl
    exact programRel_help (programRel_text (s := PutOpt.k) (l := .key) (d := defaultKeyexpr) hvalue
      rfl rfl rfl rfl (by decide) fun _ _ => by rw [given_without (by decide)])

end Put

namespace Delete

/-- The scans of `parse_args`, in their order. -/
def steps : List (ScanStep (Name KeyOpt)) := .help .h .help :: .arg (.own .k) (.own .key) :: commonSteps

/-- What `parse_args` returns. -/
def argsOf (us : List (OptUnit (Name KeyOpt))) : Option Args := some {
  keyexpr := (given [.own .k, .own .key] us).getD defaultKeyexpr }

theorem parsesExactly : ParsesExactly parseArgs steps argsOf := by
  refine parsesExactly_of_mirrors (fun n => ?_) (fun s hs => by simp [steps, hs]) fun api => ?_
  · cases n <;> simp [steps, ScanStep.names]
  · exact programRel_help (programRel_text (s := KeyOpt.k) (l := .key) (d := defaultKeyexpr)
      (fun keyexpr => programRel_common (ω := KeyOpt) api (Args.mk keyexpr)) rfl rfl rfl rfl (by decide)
      fun _ _ => rfl)

end Delete

namespace Pub

/-- The scans of `parse_args`, in their order. -/
def steps : List (ScanStep (Name PubOpt)) :=
  .help .h .help :: .arg (.own .k) (.own .key) :: .arg (.own .p) (.own .payload) ::
    .arg (.own .a) (.own .attach) :: .flag (.own .addMatchingListener) :: commonSteps

/-- What `parse_args` returns. -/
def argsOf (us : List (OptUnit (Name PubOpt))) : Option Args := some {
  keyexpr := (given [.own .k, .own .key] us).getD defaultKeyexpr
  value := (given [.own .p, .own .payload] us).getD defaultValue
  attachment := given [.own .a, .own .attach] us
  addMatchingListener := (given [.own .addMatchingListener] us).isSome }

theorem parsesExactly : ParsesExactly parseArgs steps argsOf := by
  refine parsesExactly_of_mirrors (fun n => ?_) (fun s hs => by simp [steps, hs]) fun api => ?_
  · cases n <;> simp [steps, ScanStep.names]
  · have hflag := fun keyexpr value attachment => programRel_flag (n := PubOpt.addMatchingListener)
      (fun flag => programRel_common (ω := PubOpt) api (Args.mk keyexpr value attachment flag)) rfl rfl
      (by decide) fun _ _ => rfl
    have hattach := fun keyexpr value => programRel_str (s := PubOpt.a) (l := .attach) (hflag keyexpr value)
      rfl rfl rfl rfl (by decide) fun _ _ => by rw [given_without (by decide)]
    have hvalue := fun keyexpr => programRel_text (s := PubOpt.p) (l := .payload) (d := defaultValue)
      (hattach keyexpr) rfl rfl rfl rfl (by decide) fun _ _ => by
        rw [given_without (by decide), given_without (by decide)]
    exact programRel_help (programRel_text (s := PubOpt.k) (l := .key) (d := defaultKeyexpr) hvalue
      rfl rfl rfl rfl (by decide) fun _ _ => by
        rw [given_without (by decide), given_without (by decide), given_without (by decide)])

end Pub

namespace Sub

/-- The scans of `parse_args`, in their order. -/
def steps : List (ScanStep (Name KeyOpt)) := .help .h .help :: .arg (.own .k) (.own .key) :: commonSteps

/-- What `parse_args` returns. -/
def argsOf (us : List (OptUnit (Name KeyOpt))) : Option Args := some {
  keyexpr := (given [.own .k, .own .key] us).getD defaultKeyexpr }

theorem parsesExactly : ParsesExactly parseArgs steps argsOf := by
  refine parsesExactly_of_mirrors (fun n => ?_) (fun s hs => by simp [steps, hs]) fun api => ?_
  · cases n <;> simp [steps, ScanStep.names]
  · exact programRel_help (programRel_text (s := KeyOpt.k) (l := .key) (d := defaultKeyexpr)
      (fun keyexpr => programRel_common (ω := KeyOpt) api (Args.mk keyexpr)) rfl rfl rfl rfl (by decide)
      fun _ _ => rfl)

end Sub

namespace Info

/-- The scans of `parse_args`, in their order. -/
def steps : List (ScanStep (Name Empty)) := .help .h .help :: commonSteps

theorem parsesExactly : ParsesExactly parseArgs steps fun _ => some () := by
  refine parsesExactly_of_mirrors (fun n => nomatch n) (fun s hs => by simp [steps, hs]) fun api => ?_
  have hcommon := programRel_common (ω := Empty) api ()
  rw [bind_pure_unit] at hcommon
  exact programRel_help hcommon

end Info

namespace Queryable

/-- The scans of `parse_args`, in their order. -/
def steps : List (ScanStep (Name QueryableOpt)) :=
  .help .h .help :: .arg (.own .k) (.own .key) :: .arg (.own .p) (.own .payload) :: .flag (.own .complete) ::
    commonSteps

/-- What `parse_args` returns. -/
def argsOf (us : List (OptUnit (Name QueryableOpt))) : Args where
  keyexpr := (given [.own .k, .own .key] us).getD defaultKeyexpr
  value := (given [.own .p, .own .payload] us).getD defaultValue
  complete := (given [.own .complete] us).isSome

theorem parsesExactly : ParsesExactly parseArgs steps fun us => some (argsOf us) := by
  refine parsesExactly_of_mirrors (fun n => ?_) (fun s hs => by simp [steps, hs]) fun api => ?_
  · cases n <;> simp [steps, ScanStep.names]
  · have hflag := fun keyexpr value => programRel_flag (n := QueryableOpt.complete)
      (fun flag => programRel_common (ω := QueryableOpt) api (Args.mk keyexpr value flag)) rfl rfl
      (by decide) fun _ _ => rfl
    have hvalue := fun keyexpr => programRel_text (s := QueryableOpt.p) (l := .payload) (d := defaultValue)
      (hflag keyexpr) rfl rfl rfl rfl (by decide) fun _ _ => by rw [given_without (by decide)]
    exact programRel_help (programRel_text (s := QueryableOpt.k) (l := .key) (d := defaultKeyexpr) hvalue
      rfl rfl rfl rfl (by decide) fun _ _ => by rw [given_without (by decide), given_without (by decide)])

end Queryable

namespace Get

/-- The scans of `parse_args`, in their order. -/
def steps : List (ScanStep (Name GetOpt)) :=
  .help .h .help :: .arg (.own .s) (.own .selector) :: .arg (.own .p) (.own .payload) ::
    .arg (.own .o) (.own .timeout) :: .arg (.own .t) (.own .target) :: commonSteps

/-- The targets by their names. -/
def targetOf (arg : CStr) : Option QueryTarget :=
  if arg = lit "BEST_MATCHING" then some .bestMatching
  else if arg = lit "ALL" then some .all
  else if arg = lit "ALL_COMPLETE" then some .allComplete
  else none

theorem parseQueryTarget_eq (arg : CStr) :
    parseQueryTarget arg = (targetOf arg).elim (throw (.queryTarget arg)) pure := by
  unfold parseQueryTarget targetOf
  split_ifs <;> rfl

/-- What `parse_args` returns, if the target is one. -/
def argsOf (us : List (OptUnit (Name GetOpt))) : Option Args :=
  ((given [.own .t, .own .target] us).elim (some .bestMatching) targetOf).bind fun target => some {
    selector := (given [.own .s, .own .selector] us).getD defaultSelector
    value := given [.own .p, .own .payload] us
    target
    timeoutMs := ((given [.own .o, .own .timeout] us).map fun v => v.atoi.toInt64.toUInt64).getD defaultTimeoutMs }

theorem parsesExactly : ParsesExactly parseArgs steps argsOf := by
  refine parsesExactly_of_mirrors (fun n => ?_) (fun s hs => by simp [steps, hs]) fun api => ?_
  · cases n <;> simp [steps, ScanStep.names]
  · have htarget := fun selector value timeoutMs => programRel_arg (s := GetOpt.t) (l := .target)
      (d := .bestMatching) targetOf .queryTarget
      (fun target => programRel_common (ω := GetOpt) api (Args.mk selector value target timeoutMs))
      parseQueryTarget_eq rfl rfl rfl rfl (by decide) fun _ _ => rfl
    have htimeout := fun selector value => programRel_conv (s := GetOpt.o) (l := .timeout)
      (d := defaultTimeoutMs) (fun v => v.atoi.toInt64.toUInt64) (htarget selector value) rfl rfl rfl rfl
      (by decide) fun _ _ => by rw [given_without (by decide)]
    have hvalue := fun selector => programRel_str (s := GetOpt.p) (l := .payload) (htimeout selector)
      rfl rfl rfl rfl (by decide) fun _ _ => by rw [given_without (by decide), given_without (by decide)]
    exact programRel_help (programRel_text (s := GetOpt.s) (l := .selector) (d := defaultSelector) hvalue
      rfl rfl rfl rfl (by decide) fun _ _ => by
        rw [given_without (by decide), given_without (by decide), given_without (by decide)])

end Get

namespace SubThr

/-- The scans of `parse_args`, in their order. -/
def steps : List (ScanStep (Name SubThrOpt)) :=
  .help .h .help :: .arg (.own .s) (.own .samples) :: .arg (.own .n) (.own .number) :: commonSteps

/-- What `parse_args` returns. -/
def argsOf (us : List (OptUnit (Name SubThrOpt))) : Option Args := some {
  samples := ((given [.own .s, .own .samples] us).map fun v => v.atoi.toInt64.toUInt64).getD defaultMeasurements
  numMessages := ((given [.own .n, .own .number] us).map fun v => v.atoi.toInt64.toUInt64).getD defaultMessages }

theorem parsesExactly : ParsesExactly parseArgs steps argsOf := by
  refine parsesExactly_of_mirrors (fun i => ?_) (fun s hs => by simp [steps, hs]) fun api => ?_
  · cases i <;> simp [steps, ScanStep.names]
  · have hnumber := fun samples => programRel_conv (s := SubThrOpt.n) (l := .number) (d := defaultMessages)
      (fun v => v.atoi.toInt64.toUInt64)
      (fun numMessages => programRel_common (ω := SubThrOpt) api (Args.mk samples numMessages)) rfl rfl rfl rfl
      (by decide) fun _ _ => rfl
    exact programRel_help (programRel_conv (s := SubThrOpt.s) (l := .samples) (d := defaultMeasurements)
      (fun v => v.atoi.toInt64.toUInt64) hnumber rfl rfl rfl rfl (by decide) fun _ _ => by
        rw [given_without (by decide)])

end SubThr

/-- Each of these seven programs returns exactly on the command lines of option
units that its scans accept, with what the units say. -/
theorem parsesExactly_examples :
    ParsesExactly Put.parseArgs Put.steps Put.argsOf ∧ ParsesExactly Delete.parseArgs Delete.steps Delete.argsOf ∧
      ParsesExactly Pub.parseArgs Pub.steps Pub.argsOf ∧ ParsesExactly Sub.parseArgs Sub.steps Sub.argsOf ∧
      (ParsesExactly Info.parseArgs Info.steps fun _ => some ()) ∧
      ParsesExactly Get.parseArgs Get.steps Get.argsOf ∧
      ParsesExactly SubThr.parseArgs SubThr.steps SubThr.argsOf :=
  ⟨Put.parsesExactly, Delete.parsesExactly, Pub.parsesExactly, Sub.parsesExactly, Info.parsesExactly,
    Get.parsesExactly, SubThr.parsesExactly⟩

end ZenohFlatC.Args
