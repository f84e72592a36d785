import ZenohFlatC.Args.Common
import ZenohFlatC.Framework.Atoi

/-!
# The numbers on the command lines

`parse_args` of `z_get`, `z_sub_thr` and `z_pub_thr`, which read numbers with
`atoi` and store them in wider or unsigned types. `Gives` says which text an
option or argument is given: the one that its own scan takes, in a run of
`parse_args` up to it.

`numbers_exact_iff`: on a command line that is accepted, what is stored is what
the text says if and only if the text is a decimal numeral in the range that
survives the conversions. Nothing rejects the other texts, `parse_priority`'s
check of the range apart.
-/

set_option linter.dupNamespace false

namespace ZenohFlatC.Args

open CStr (lit)

/-! ## `z_get` -/

namespace Get

/-- `z_query_target_t`. -/
inductive QueryTarget
  | bestMatching
  | all
  | allComplete
  deriving DecidableEq

/-- `DEFAULT_SELECTOR`. -/
def defaultSelector : CStr := lit "demo/example/**"

/-- `DEFAULT_TIMEOUT_MS`. -/
def defaultTimeoutMs : UInt64 := 10000

/-- `struct args_t`. -/
structure Args where
  selector : CStr
  value : Option CStr
  target : QueryTarget
  timeoutMs : UInt64
  deriving DecidableEq

/-- `parse_query_target`. -/
def parseQueryTarget (arg : CStr) : Prog QueryTarget :=
  if arg = lit "BEST_MATCHING" then pure .bestMatching
  else if arg = lit "ALL" then pure .all
  else if arg = lit "ALL_COMPLETE" then pure .allComplete
  else throw (.queryTarget arg)

/-- `atoi`, stored in a `uint64_t`. -/
def parseTimeout (arg : CStr) : Prog UInt64 := pure arg.atoi.toInt64.toUInt64

/-- `parse_args`. -/
def parseArgs (api : ConfigApi) : Prog Args := do
  checkHelp
  let selector ← parseArg (lit "s") (lit "selector") pure defaultSelector
  let value ← parseStr (lit "p") (lit "payload")
  let timeoutMs ← parseArg (lit "o") (lit "timeout") parseTimeout defaultTimeoutMs
  let target ← parseArg (lit "t") (lit "target") parseQueryTarget .bestMatching
  parseZenohCommonArgs api
  checkNothingLeft
  pure { selector, value, target, timeoutMs }

/-- The `timeout_ms` that `main` passes to `z_session_get`. -/
def Args.sessionTimeout (args : Args) : Int64 := args.timeoutMs.toInt64

/-- The seconds that `main` adds to the time for its own deadline. -/
def Args.waitBound (args : Args) : Int64 := (args.timeoutMs / 1000).toInt64 + 2

/-- The value of `-o`. -/
def givenTimeout : Prog (Option CStr) := do
  checkHelp
  let _ ← parseArg (lit "s") (lit "selector") pure defaultSelector
  let _ ← parseStr (lit "p") (lit "payload")
  findArg (lit "o") (lit "timeout")

/-- The timeout is the number that `s` says, for the session too, and `main`
waits for it and two seconds more at most. -/
structure TimeoutExact (s : CStr) (args : Args) : Prop where
  stored : s.Decimal args.timeoutMs.toNat
  passed : args.sessionTimeout.toInt = args.timeoutMs.toNat
  waits : args.timeoutMs.toNat ≤ 1000 * args.waitBound.toInt
  waits_le : 1000 * args.waitBound.toInt ≤ args.timeoutMs.toNat + 2000

end Get

/-! ## `z_sub_thr` -/

namespace SubThr

/-- `args_t`. -/
structure Args where
  samples : UInt64
  numMessages : UInt64
  deriving DecidableEq

/-- `DEFAULT_MEASUREMENTS`. -/
def defaultMeasurements : UInt64 := 10

/-- `DEFAULT_MESSAGES`. -/
def defaultMessages : UInt64 := 1000000

/-- `atoi`, stored in an `unsigned long`. -/
def parseCount (arg : CStr) : Prog UInt64 := pure arg.atoi.toInt64.toUInt64

/-- `parse_args`. -/
def parseArgs (api : ConfigApi) : Prog Args := do
  checkHelp
  let samples ← parseArg (lit "s") (lit "samples") parseCount defaultMeasurements
  let numMessages ← parseArg (lit "n") (lit "number") parseCount defaultMessages
  parseZenohCommonArgs api
  checkNothingLeft
  pure { samples, numMessages }

/-- The value of `-s`. -/
def givenSamples : Prog (Option CStr) := do
  checkHelp
  findArg (lit "s") (lit "samples")

/-- The value of `-n`. -/
def givenNumber : Prog (Option CStr) := do
  checkHelp
  let _ ← parseArg (lit "s") (lit "samples") parseCount defaultMeasurements
  findArg (lit "n") (lit "number")

end SubThr

/-! ## `z_pub_thr` -/

namespace PubThr

/-- The first constant of `z_priority_t`. -/
def realTime : Int32 := 1

/-- The last constant of `z_priority_t`. -/
def background : Int32 := 7

/-- `z_priority_t`: its constants are the numbers from `RealTime` to `Background`. -/
structure Priority where
  value : Int32
  realTime_le : realTime ≤ value
  le_background : value ≤ background
  deriving DecidableEq

/-- `DEFAULT_PRIORITY`: `Data`. -/
def defaultPriority : Priority := ⟨5, by decide, by decide⟩

/-- `struct args_t`. -/
structure Args where
  size : UInt32
  priority : Priority
  express : Bool
  deriving DecidableEq

/-- `parse_priority`. -/
def parsePriority (arg : CStr) : Prog Priority :=
  let p := arg.atoi
  if h : p < realTime ∨ p > background then throw (.priority arg)
  else pure ⟨p, Int32.not_lt.mp (not_or.mp h).1, Int32.not_lt.mp (not_or.mp h).2⟩

/-- The end of `parse_args`: one positional argument, and nothing else, is left. -/
def parsePositional : Prog CStr := do
  match checkUnknownOpts (← get).argv with
  | some arg => throw (.unknownOption arg)
  | none => match ← parsePosArgs 1 with
    | none => throw .additionalPositional
    | some posArgs => match posArgs.head? with
      | some (some arg) => pure arg
      | _ => throw .payloadSize

/-- `parse_args`. -/
def parseArgs (api : ConfigApi) : Prog Args := do
  checkHelp
  let priority ← parseArg (lit "p") (lit "priority") parsePriority defaultPriority
  let express ← checkFlag (lit "express")
  parseZenohCommonArgs api
  let arg ← parsePositional
  pure { size := arg.atoi.toUInt32, priority, express }

/-- The value of `-p`. -/
def givenPriority : Prog (Option CStr) := do
  checkHelp
  findArg (lit "p") (lit "priority")

/-- The payload's size. -/
def givenSize (api : ConfigApi) : Prog (Option CStr) := do
  checkHelp
  let _ ← parseArg (lit "p") (lit "priority") parsePriority defaultPriority
  let _ ← checkFlag (lit "express")
  parseZenohCommonArgs api
  let arg ← parsePositional
  pure (some arg)

end PubThr

/-! ## The text that is given -/

/-- A scan takes `s`. -/
def Gives (scan : Prog (Option CStr)) (σ : Proc) (s : CStr) : Prop := returned (scan σ) = some (some s)

instance (scan : Prog (Option CStr)) (σ : Proc) (s : CStr) : Decidable (Gives scan σ s) :=
  inferInstanceAs (Decidable (returned (scan σ) = some (some s)))

section

variable {api : ConfigApi} {σ σ' : Proc} {s : CStr}

theorem parseArg_given {α : Type} {idShort idLong : CStr} (func : CStr → Prog α) (defaultValue : α)
    (h : findArg idShort idLong σ = .ok (some s) σ') :
    parseArg idShort idLong func defaultValue σ = func s σ' := bind_of_ok h

theorem Get.stored_timeout {args : Get.Args} (hgives : Gives Get.givenTimeout σ s)
    (h : returned (Get.parseArgs api σ) = some args) : args.timeoutMs = s.atoi.toInt64.toUInt64 := by
  obtain ⟨σ₄, hgives⟩ := returned_eq_some.mp hgives
  obtain ⟨σ', h⟩ := returned_eq_some.mp h
  obtain ⟨⟨⟩, σ₁, hhelp, hgives⟩ := bind_ok_iff.mp hgives
  obtain ⟨selector, σ₂, hselector, hgives⟩ := bind_ok_iff.mp hgives
  obtain ⟨value, σ₃, hvalue, hfind⟩ := bind_ok_iff.mp hgives
  have htimeout := parseArg_given parseTimeout defaultTimeoutMs hfind
  have h := (bind_of_ok hhelp).symm.trans h
  have h := (bind_of_ok hselector).symm.trans h
  have h := (bind_of_ok hvalue).symm.trans h
  have h := (bind_of_ok htimeout).symm.trans h
  obtain ⟨target, σ₅, -, h⟩ := bind_ok_iff.mp h
  obtain ⟨⟨⟩, σ₆, -, h⟩ := bind_ok_iff.mp h
  obtain ⟨⟨⟩, σ₇, -, h⟩ := bind_ok_iff.mp h
  obtain ⟨rfl, -⟩ := pure_ok_iff.mp h
  rfl

theorem SubThr.stored_samples {args : SubThr.Args} (hgives : Gives SubThr.givenSamples σ s)
    (h : returned (SubThr.parseArgs api σ) = some args) : args.samples = s.atoi.toInt64.toUInt64 := by
  obtain ⟨σ₂, hgives⟩ := returned_eq_some.mp hgives
  obtain ⟨σ', h⟩ := returned_eq_some.mp h
  obtain ⟨⟨⟩, σ₁, hhelp, hfind⟩ := bind_ok_iff.mp hgives
  have hsamples := parseArg_given parseCount defaultMeasurements hfind
  have h := (bind_of_ok hhelp).symm.trans h
  have h := (bind_of_ok hsamples).symm.trans h
  obtain ⟨numMessages, σ₃, -, h⟩ := bind_ok_iff.mp h
  obtain ⟨⟨⟩, σ₄, -, h⟩ := bind_ok_iff.mp h
  obtain ⟨⟨⟩, σ₅, -, h⟩ := bind_ok_iff.mp h
  obtain ⟨rfl, -⟩ := pure_ok_iff.mp h
  rfl

theorem SubThr.stored_numMessages {args : SubThr.Args} (hgives : Gives SubThr.givenNumber σ s)
    (h : returned (SubThr.parseArgs api σ) = some args) : args.numMessages = s.atoi.toInt64.toUInt64 := by
  obtain ⟨σ₃, hgives⟩ := returned_eq_some.mp hgives
  obtain ⟨σ', h⟩ := returned_eq_some.mp h
  obtain ⟨⟨⟩, σ₁, hhelp, hgives⟩ := bind_ok_iff.mp hgives
  obtain ⟨samples, σ₂, hsamples, hfind⟩ := bind_ok_iff.mp hgives
  have hnumber := parseArg_given parseCount defaultMessages hfind
  have h := (bind_of_ok hhelp).symm.trans h
  have h := (bind_of_ok hsamples).symm.trans h
  have h := (bind_of_ok hnumber).symm.trans h
  obtain ⟨⟨⟩, σ₄, -, h⟩ := bind_ok_iff.mp h
  obtain ⟨⟨⟩, σ₅, -, h⟩ := bind_ok_iff.mp h
  obtain ⟨rfl, -⟩ := pure_ok_iff.mp h
  rfl

theorem PubThr.parsePriority_ok {priority : Priority} (h : parsePriority s σ = .ok priority σ') :
    priority.value = s.atoi := by
  unfold parsePriority at h
  by_cases hrange : s.atoi < realTime ∨ s.atoi > background
  · rw [dif_pos hrange] at h
    cases h
  · rw [dif_neg hrange] at h
    obtain ⟨rfl, -⟩ := pure_ok_iff.mp h
    rfl

theorem PubThr.stored_priority {args : PubThr.Args} (hgives : Gives PubThr.givenPriority σ s)
    (h : returned (PubThr.parseArgs api σ) = some args) : args.priority.value = s.atoi := by
  obtain ⟨σ₂, hgives⟩ := returned_eq_some.mp hgives
  obtain ⟨σ', h⟩ := returned_eq_some.mp h
  obtain ⟨⟨⟩, σ₁, hhelp, hfind⟩ := bind_ok_iff.mp hgives
  have h := (bind_of_ok hhelp).symm.trans h
  obtain ⟨priority, σ₃, hpriority, h⟩ := bind_ok_iff.mp h
  rw [parseArg_given parsePriority defaultPriority hfind] at hpriority
  obtain ⟨express, σ₄, -, h⟩ := bind_ok_iff.mp h
  obtain ⟨⟨⟩, σ₅, -, h⟩ := bind_ok_iff.mp h
  obtain ⟨arg, σ₆, -, h⟩ := bind_ok_iff.mp h
  obtain ⟨rfl, -⟩ := pure_ok_iff.mp h
  exact parsePriority_ok hpriority

theorem PubThr.stored_size {args : PubThr.Args} (hgives : Gives (PubThr.givenSize api) σ s)
    (h : returned (PubThr.parseArgs api σ) = some args) : args.size = s.atoi.toUInt32 := by
  obtain ⟨σ₅, hgives⟩ := returned_eq_some.mp hgives
  obtain ⟨σ', h⟩ := returned_eq_some.mp h
  obtain ⟨⟨⟩, σ₁, hhelp, hgives⟩ := bind_ok_iff.mp hgives
  obtain ⟨priority, σ₂, hpriority, hgives⟩ := bind_ok_iff.mp hgives
  obtain ⟨express, σ₃, hexpress, hgives⟩ := bind_ok_iff.mp hgives
  obtain ⟨⟨⟩, σ₄, hcommon, hgives⟩ := bind_ok_iff.mp hgives
  obtain ⟨arg, σ₅', harg, hgives⟩ := bind_ok_iff.mp hgives
  obtain ⟨hs, rfl⟩ := pure_ok_iff.mp hgives
  obtain rfl : arg = s := Option.some.inj hs
  have h := (bind_of_ok hhelp).symm.trans h
  have h := (bind_of_ok hpriority).symm.trans h
  have h := (bind_of_ok hexpress).symm.trans h
  have h := (bind_of_ok hcommon).symm.trans h
  have h := (bind_of_ok harg).symm.trans h
  obtain ⟨rfl, -⟩ := pure_ok_iff.mp h
  rfl

end

/-! ## What is stored -/

theorem Get.toInt_waitBound (args : Get.Args) (h : args.timeoutMs.toNat < 2 ^ 63) :
    args.waitBound.toInt = args.timeoutMs.toNat / 1000 + 2 := by
  have hdiv : (args.timeoutMs / 1000).toNat = args.timeoutMs.toNat / 1000 := UInt64.toNat_div ..
  have hsecs : (args.timeoutMs / 1000).toInt64.toInt = (args.timeoutMs / 1000).toNat := toInt_toInt64 (by omega)
  have hsum : args.waitBound.toInt = ((args.timeoutMs / 1000).toInt64.toInt + 2).bmod (2 ^ 64) :=
    Int64.toInt_add ..
  rw [hsum, hsecs, hdiv, Int.bmod_eq_of_le]
  · omega
  · omega
  · omega

/-- The timeout is exact if and only if it is the numeral of a non-negative `int`. -/
theorem Get.timeoutExact_iff {s : CStr} {args : Get.Args} (hstored : args.timeoutMs = s.atoi.toInt64.toUInt64) :
    TimeoutExact s args ↔ ∃ v, s.Decimal v ∧ v < 2 ^ 31 := by
  refine ⟨fun h => ⟨_, h.stored, ?_⟩, fun ⟨v, hv, hlt⟩ => ?_⟩
  · have hrange := h.stored.toUInt64_iff
    rw [← hstored] at hrange
    have hpassed := h.passed
    have hlong := args.sessionTimeout.toInt_lt
    omega
  · have hvalue : args.timeoutMs.toNat = v := by
      rw [hstored]
      exact hv.toUInt64_iff.mpr (.inl hlt)
    have hbound := toInt_waitBound args (by omega)
    refine ⟨hvalue ▸ hv, toInt_toInt64 (by omega), ?_, ?_⟩
    · omega
    · omega

theorem toUInt64_exact_iff {s : CStr} :
    s.Decimal s.atoi.toInt64.toUInt64.toNat ↔ ∃ v, s.Decimal v ∧ (v < 2 ^ 31 ∨ v = 2 ^ 64 - 1) :=
  CStr.Decimal.iff_exists fun _ hv => hv.toUInt64_iff

theorem toUInt32_exact_iff {s : CStr} :
    s.Decimal s.atoi.toUInt32.toNat ↔ ∃ v, s.Decimal v ∧ v < 2 ^ 32 :=
  CStr.Decimal.iff_exists fun _ hv => hv.toUInt32_iff

theorem toInt_exact_iff {s : CStr} :
    (∃ v : Nat, s.Decimal v ∧ s.atoi.toInt = v) ↔ ∃ v, s.Decimal v ∧ v < 2 ^ 31 :=
  ⟨fun ⟨v, hv, h⟩ => ⟨v, hv, hv.toInt_atoi_iff.mp h⟩, fun ⟨v, hv, h⟩ => ⟨v, hv, hv.toInt_atoi_iff.mpr h⟩⟩

/-- Of the command lines that are accepted, the numbers stored are those that
the texts given say where these are decimal numerals of a non-negative `int`:
of an `unsigned int`, for the size, and of the largest `unsigned long` too, for
the counts of `z_sub_thr`. -/
theorem numbers_exact_iff (api : ConfigApi) (σ : Proc) (s : CStr) :
    (∀ args, returned (Get.parseArgs api σ) = some args → Gives Get.givenTimeout σ s →
        (Get.TimeoutExact s args ↔ ∃ v, s.Decimal v ∧ v < 2 ^ 31)) ∧
      (∀ args, returned (SubThr.parseArgs api σ) = some args → Gives SubThr.givenSamples σ s →
        (s.Decimal args.samples.toNat ↔ ∃ v, s.Decimal v ∧ (v < 2 ^ 31 ∨ v = 2 ^ 64 - 1))) ∧
      (∀ args, returned (SubThr.parseArgs api σ) = some args → Gives SubThr.givenNumber σ s →
        (s.Decimal args.numMessages.toNat ↔ ∃ v, s.Decimal v ∧ (v < 2 ^ 31 ∨ v = 2 ^ 64 - 1))) ∧
      (∀ args, returned (PubThr.parseArgs api σ) = some args → Gives (PubThr.givenSize api) σ s →
        (s.Decimal args.size.toNat ↔ ∃ v, s.Decimal v ∧ v < 2 ^ 32)) ∧
      ∀ args, returned (PubThr.parseArgs api σ) = some args → Gives PubThr.givenPriority σ s →
        ((∃ v : Nat, s.Decimal v ∧ args.priority.value.toInt = v) ↔ ∃ v, s.Decimal v ∧ v < 2 ^ 31) := by
  refine ⟨fun args h hgives => ?_, fun args h hgives => ?_, fun args h hgives => ?_, fun args h hgives => ?_,
    fun args h hgives => ?_⟩
  · exact Get.timeoutExact_iff (Get.stored_timeout hgives h)
  · rw [SubThr.stored_samples hgives h]
    exact toUInt64_exact_iff
  · rw [SubThr.stored_numMessages hgives h]
    exact toUInt64_exact_iff
  · rw [PubThr.stored_size hgives h]
    exact toUInt32_exact_iff
  · rw [PubThr.stored_priority hgives h]
    exact toInt_exact_iff

/-- The process of a command line. -/
def commandLine (args : List String) : Proc := .start (args.map lit)

/-- A timeout of 500, 5 measurements of 64 messages, and messages of 64 bytes
with priority 3. -/
theorem numbers_exact_iff_ints :
    Get.TimeoutExact (lit "500") ⟨Get.defaultSelector, none, .bestMatching, 500⟩ ∧
      (lit "5").Decimal 5 ∧ (lit "64").Decimal 64 ∧ (lit "64").Decimal 64 ∧
      ∃ v : Nat, (lit "3").Decimal v ∧ (3 : Int32).toInt = v := by
  let get := commandLine ["z_get", "-o", "500"]
  let sub := commandLine ["z_sub_thr", "-s", "5", "--number=64"]
  let pub := commandLine ["z_pub_thr", "64", "-p", "3"]
  refine ⟨?_, ?_, ?_, ?_, ?_⟩
  · exact ((numbers_exact_iff .alwaysOk get (lit "500")).1 _ (by decide +kernel) (by decide +kernel)).mpr
      ⟨500, .of_all (by decide) (by decide) (by decide), by omega⟩
  · exact ((numbers_exact_iff .alwaysOk sub (lit "5")).2.1 ⟨5, 64⟩ (by decide +kernel) (by decide +kernel)).mpr
      ⟨5, .of_all (by decide) (by decide) (by decide), by omega⟩
  · exact ((numbers_exact_iff .alwaysOk sub (lit "64")).2.2.1 ⟨5, 64⟩ (by decide +kernel)
      (by decide +kernel)).mpr ⟨64, .of_all (by decide) (by decide) (by decide), by omega⟩
  · exact ((numbers_exact_iff .alwaysOk pub (lit "64")).2.2.2.1 ⟨64, ⟨3, by decide, by decide⟩, false⟩
      (by decide +kernel) (by decide +kernel)).mpr ⟨64, .of_all (by decide) (by decide) (by decide), by omega⟩
  · exact ((numbers_exact_iff .alwaysOk pub (lit "3")).2.2.2.2 ⟨64, ⟨3, by decide, by decide⟩, false⟩
      (by decide +kernel) (by decide +kernel)).mpr ⟨3, .of_all (by decide) (by decide) (by decide), by omega⟩

/-- `z_get -o abc` is accepted with a timeout of 0, and `z_get -o -1` with one
of 2^64 - 1. -/
theorem timeout_abc :
    (returned (Get.parseArgs .alwaysOk (commandLine ["z_get", "-o", "abc"])) =
        some ⟨Get.defaultSelector, none, .bestMatching, 0⟩ ∧
      Gives Get.givenTimeout (commandLine ["z_get", "-o", "abc"]) (lit "abc") ∧
      ¬Get.TimeoutExact (lit "abc") ⟨Get.defaultSelector, none, .bestMatching, 0⟩) ∧
    returned (Get.parseArgs .alwaysOk (commandLine ["z_get", "-o", "-1"])) =
        some ⟨Get.defaultSelector, none, .bestMatching, 18446744073709551615⟩ ∧
      Gives Get.givenTimeout (commandLine ["z_get", "-o", "-1"]) (lit "-1") ∧
      ¬Get.TimeoutExact (lit "-1") ⟨Get.defaultSelector, none, .bestMatching, 18446744073709551615⟩ := by
  refine ⟨⟨by decide +kernel, by decide +kernel, fun h => ?_⟩, by decide +kernel, by decide +kernel, fun h => ?_⟩
  · exact absurd h.stored.all (by decide)
  · exact absurd h.stored.all (by decide)

end ZenohFlatC.Args
