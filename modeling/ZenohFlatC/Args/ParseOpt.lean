import ZenohFlatC.Framework.CStr
import ZenohFlatC.Framework.Exec

/-!
# The option scanner of the examples

What `examples/parse_args.h` does to `argv`. The state of a process (`Proc`)
is its `argv`, whose slots `parse_opt` sets to `NULL` as it takes them, with
the calls it made on its configuration and the writes it made to buffers; a
process exits with an `Exit`, which has the text it prints and its status.

* `parseOpt`: `parse_opt`. It scans the slots after the program name
  (`parseOptFrom`) for the first one that its test (`recognises`) accepts, and
  there returns or exits (`hit`): `parseOptFrom_none`, `parseOptFrom_append`
  and `parseOptFrom_hit` run it, `parseOptFrom_ok` says all that a scan that
  returned did.
* `recognises_short`, `recognises_long`: the test, without the indices. A long
  name is compared on its own length only, so anything may follow it.
* `checkUnknownOpts`, `parsePosArgs`: the two sweeps over what is left.
-/

namespace ZenohFlatC.Args

open CStr (lit)

/-- A slot of `argv`: `NULL` once an option was taken from it. -/
abbrev Slot := Option CStr

/-- A call on the session's configuration. -/
inductive ConfigCall where
  | fromFile (path : CStr)
  | default
  | insertJson5 (key value : CStr)
  deriving DecidableEq

/-- The state of a process: `argv`, whose slot 0 is the program's name, the
calls made on the configuration and the writes made to buffers. -/
structure Proc where
  argv : List Slot
  calls : List ConfigCall
  accesses : List Access
  deriving DecidableEq

/-- The process as it starts. -/
def Proc.start (argv : List CStr) : Proc := ⟨argv.map some, [], []⟩

/-- The ways to exit. -/
inductive Exit where
  | help
  | shortWithoutValue (opt : CStr)
  | longWithoutValue (opt : CStr)
  | configFile (path : CStr)
  | insertMode (mode : CStr)
  | insertList (value key : CStr)
  | cfgWithoutColon (arg : CStr)
  | insertCfg (value key : CStr)
  | multicastScouting
  | unknownOption (arg : CStr)
  | positional
  | queryTarget (arg : CStr)
  | priority (arg : CStr)
  | additionalPositional
  | payloadSize
  /-- Not an exit of the program: a loop of the model was given too few rounds. -/
  | rounds
  deriving DecidableEq

/-- The status passed to `exit`. -/
def Exit.status : Exit → Int
  | .help => 1
  | _ => -1

/-- The line printed before the exit (`help` prints the program's usage). -/
def Exit.message : Exit → Option CStr
  | .help | .rounds => none
  | .shortWithoutValue opt => some (lit "Option -" ++ opt ++ lit " given without a value\n")
  | .longWithoutValue opt => some (lit "Option --" ++ opt ++ lit " given without a value\n")
  | .configFile path => some (lit "Couldn't read configuration from file `" ++ path ++ lit "`\n")
  | .insertMode mode => some (lit "Couldn't insert value `" ++ mode ++
      lit "` at `mode`. Value must be one of: 'client', 'peer' or 'router'\n")
  | .insertList value key | .insertCfg value key => some (lit "Couldn't insert value `" ++ value ++
      lit "` in configuration at `" ++ key ++ lit "`\n")
  | .cfgWithoutColon arg => some (lit "--cfg` argument: expected KEY:VALUE pair, got " ++ arg ++ lit " ")
  | .multicastScouting => some (lit "Couldn't disable multicast-scouting.\n")
  | .unknownOption arg => some (lit "Unknown option " ++ arg ++ lit "\n")
  | .positional => some (lit "Unexpected positional arguments\n")
  | .queryTarget arg => some (lit "Unsupported query target value [" ++ arg ++ lit "]\n")
  | .priority arg => some (lit "Unsupported priority value [" ++ arg ++ lit "]\n")
  | .additionalPositional => some (lit "Unexpected additional positional arguments\n")
  | .payloadSize => some (lit "<PAYLOAD_SIZE> argument is required\n")

/-- A program: it returns, or exits. -/
abbrev Prog := EStateM Exit Proc

/-- `'-'` -/
def dash : UInt8 := '-'.toUInt8

/-- `'='` -/
def equals : UInt8 := '='.toUInt8

/-! ## `parse_opt` -/

/-- The loop of `parse_opt`, on the slots from index `i` on: what it returns
or exits with, and what it leaves in these slots. -/
def parseOptFrom (opt : CStr) (optHasValue : Bool) : List Slot → Except Exit (Option CStr × List Slot)
  | [] => .ok (none, [])
  | none :: rest => (parseOptFrom opt optHasValue rest).map (Prod.map id (none :: ·))
  | some a :: rest =>
    let next := (parseOptFrom opt optHasValue rest).map (Prod.map id (some a :: ·))
    let len := a.strlen
    if len < 2 then next
    else if opt.strlen = 1 then
      if a.charAt 0 = dash ∧ a.charAt 1 = opt.charAt 0 ∧ a.charAt 2 = 0 then
        if !optHasValue then .ok (some opt, none :: rest)
        else match rest with
          | some value :: rest => .ok (some value, none :: none :: rest)
          | [] | none :: _ => .error (.shortWithoutValue opt)
      else next
    else if 1 < opt.strlen ∧ 3 < len ∧ a.charAt 0 = dash ∧ a.charAt 1 = dash then
      if (a.drop 2).strncmpEq opt opt.strlen then
        if !optHasValue then .ok (some opt, none :: rest)
        else match a.strchr equals with
          | some pos => .ok (some (pos.drop 1), none :: rest)
          | none => match rest with
            | some value :: rest => .ok (some value, none :: none :: rest)
            | [] | none :: _ => .error (.longWithoutValue opt)
      else next
    else next

/-- `parse_opt`. -/
def parseOpt (opt : CStr) (optHasValue : Bool) : Prog (Option CStr) := fun σ =>
  match σ.argv with
  | [] => .ok none σ
  | prog :: args => match parseOptFrom opt optHasValue args with
    | .ok (value, args) => .ok value { σ with argv := prog :: args }
    | .error e => .error e σ

/-- The test of `parse_opt` on a slot. -/
def recognises (opt a : CStr) : Bool :=
  if opt.strlen = 1 then
    !(a.strlen < 2) && (a.charAt 0 = dash ∧ a.charAt 1 = opt.charAt 0 ∧ a.charAt 2 = 0)
  else
    !(a.strlen < 2) && (1 < opt.strlen ∧ 3 < a.strlen ∧ a.charAt 0 = dash ∧ a.charAt 1 = dash) &&
      (a.drop 2).strncmpEq opt opt.strlen

/-- The value written in the option's own slot, after the `=` of a long name. -/
def inlineValue (opt a : CStr) : Option CStr :=
  if opt.strlen = 1 then none else (a.strchr equals).map (·.drop 1)

/-- How `parse_opt` exits at an option whose value is missing. -/
def withoutValue (opt : CStr) : Exit :=
  if opt.strlen = 1 then .shortWithoutValue opt else .longWithoutValue opt

/-- What `parse_opt` does at a slot it recognises, given the slots behind it. -/
def hit (opt : CStr) (optHasValue : Bool) (a : CStr) (rest : List Slot) :
    Except Exit (CStr × List Slot) :=
  if !optHasValue then .ok (opt, none :: rest)
  else match inlineValue opt a with
    | some value => .ok (value, none :: rest)
    | none => match rest with
      | some value :: rest => .ok (value, none :: none :: rest)
      | [] | none :: _ => .error (withoutValue opt)

theorem parseOptFrom_cons (opt : CStr) (optHasValue : Bool) (a : CStr) (rest : List Slot) :
    parseOptFrom opt optHasValue (some a :: rest) =
      if recognises opt a then (hit opt optHasValue a rest).map (Prod.map some id)
      else (parseOptFrom opt optHasValue rest).map (Prod.map id (some a :: ·)) := by
  conv_lhs => unfold parseOptFrom
  simp only [recognises, hit, inlineValue, withoutValue]
  by_cases hlen : a.strlen < 2
  · simp [hlen]
  by_cases hopt : opt.strlen = 1
  · by_cases hs : a.charAt 0 = dash ∧ a.charAt 1 = opt.charAt 0 ∧ a.charAt 2 = 0
    · cases optHasValue
      · simp [hlen, hopt, hs, Except.map]
      · rcases rest with _ | ⟨_ | v, rest⟩ <;> simp [hlen, hopt, hs, Except.map]
    · simp [hlen, hopt, hs]
  · by_cases hl : 1 < opt.strlen ∧ 3 < a.strlen ∧ a.charAt 0 = dash ∧ a.charAt 1 = dash
    · by_cases hp : (a.drop 2).strncmpEq opt opt.strlen = true
      · cases optHasValue
        · simp [hlen, hopt, hl, hp, Except.map]
        · cases hc : a.strchr equals with
          | some pos => simp [hlen, hopt, hl, hp, Except.map]
          | none => rcases rest with _ | ⟨_ | v, rest⟩ <;> simp [hlen, hopt, hl, hp, Except.map]
      · simp [hlen, hopt, hp]
    · simp [hlen, hopt, hl]

/-- The scan steps over slots it does not recognise. -/
theorem parseOptFrom_append {opt : CStr} (optHasValue : Bool) {S : List Slot} (T : List Slot)
    (h : ∀ a, some a ∈ S → recognises opt a = false) :
    parseOptFrom opt optHasValue (S ++ T) =
      (parseOptFrom opt optHasValue T).map (Prod.map id (S ++ ·)) := by
  induction S with
  | nil =>
    rw [List.nil_append]
    cases parseOptFrom opt optHasValue T <;> rfl
  | cons x S ih =>
    have ih := ih fun a ha => h a (List.mem_cons_of_mem _ ha)
    cases x with
    | none =>
      rw [List.cons_append, parseOptFrom, ih]
      cases parseOptFrom opt optHasValue T <;> rfl
    | some a =>
      rw [List.cons_append, parseOptFrom_cons, h a List.mem_cons_self, ih]
      cases parseOptFrom opt optHasValue T <;> rfl

/-- With no slot to recognise, the scan returns `NULL` and changes nothing. -/
theorem parseOptFrom_none {opt : CStr} {optHasValue : Bool} {S : List Slot}
    (h : ∀ a, some a ∈ S → recognises opt a = false) :
    parseOptFrom opt optHasValue S = .ok (none, S) := by
  have := parseOptFrom_append optHasValue [] h
  rwa [List.append_nil, parseOptFrom, Except.map, Prod.map, List.append_nil] at this

/-- At the first slot it recognises, the scan ends. -/
theorem parseOptFrom_hit {opt : CStr} {optHasValue : Bool} {S : List Slot} {a : CStr} (T : List Slot)
    (h : ∀ b, some b ∈ S → recognises opt b = false) (ha : recognises opt a = true) :
    parseOptFrom opt optHasValue (S ++ some a :: T) =
      (hit opt optHasValue a T).map (Prod.map some (S ++ ·)) := by
  rw [parseOptFrom_append _ _ h, parseOptFrom_cons, if_pos ha]
  cases hit opt optHasValue a T <;> rfl

theorem except_map_ok_iff {ε α β : Type} {f : α → β} {x : Except ε α} {b : β} :
    x.map f = .ok b ↔ ∃ a, x = .ok a ∧ f a = b := by
  cases x <;> simp [Except.map]

/-- A scan that returned: it recognised nothing, or did what `hit` does at the
first slot it recognises. -/
theorem parseOptFrom_ok {opt : CStr} {optHasValue : Bool} {S S' : List Slot} {r : Option CStr}
    (h : parseOptFrom opt optHasValue S = .ok (r, S')) :
    (r = none ∧ S' = S ∧ ∀ a, some a ∈ S → recognises opt a = false) ∨
    ∃ S₁ a S₂ value T, S = S₁ ++ some a :: S₂ ∧ (∀ b, some b ∈ S₁ → recognises opt b = false) ∧
      recognises opt a = true ∧ hit opt optHasValue a S₂ = .ok (value, T) ∧
      r = some value ∧ S' = S₁ ++ T := by
  induction S generalizing r S' with
  | nil =>
    cases h
    exact .inl ⟨rfl, rfl, by simp⟩
  | cons x S ih =>
    by_cases hx : ∃ a, x = some a ∧ recognises opt a = true
    · obtain ⟨a, rfl, ha⟩ := hx
      rw [parseOptFrom_cons, if_pos ha, except_map_ok_iff] at h
      obtain ⟨⟨value, T⟩, hT, e⟩ := h
      cases e
      exact .inr ⟨[], a, S, value, T, rfl, by simp, ha, hT, rfl, rfl⟩
    · -- the slot is stepped over, and stays in front of what the rest becomes
      have hskip : ∀ b, some b ∈ [x] → recognises opt b = false := by
        intro b hb
        rw [List.mem_singleton] at hb
        exact Bool.eq_false_iff.mpr fun hr => hx ⟨b, hb.symm, hr⟩
      have e := parseOptFrom_append optHasValue S hskip
      rw [List.singleton_append] at e
      rw [e, except_map_ok_iff] at h
      obtain ⟨⟨r, S''⟩, h, e⟩ := h
      cases e
      rcases ih h with ⟨rfl, rfl, hn⟩ | ⟨S₁, a, S₂, value, T, rfl, hn, ha, hT, rfl, rfl⟩
      · refine .inl ⟨rfl, rfl, fun b hb => ?_⟩
        rcases List.mem_cons.mp hb with hb | hb
        · exact hskip b (hb ▸ List.mem_singleton_self _)
        · exact hn b hb
      · refine .inr ⟨x :: S₁, a, S₂, value, T, rfl, fun b hb => ?_, ha, hT, rfl, rfl⟩
        rcases List.mem_cons.mp hb with hb | hb
        · exact hskip b (hb ▸ List.mem_singleton_self _)
        · exact hn b hb

/-- What `hit` leaves, and which slots it empties: the option's own and, when
the value was written apart, the next. -/
theorem hit_ok {opt : CStr} {optHasValue : Bool} {a value : CStr} {rest T : List Slot}
    (h : hit opt optHasValue a rest = .ok (value, T)) :
    (optHasValue = false ∧ value = opt ∧ T = none :: rest) ∨
    (optHasValue = true ∧ inlineValue opt a = some value ∧ T = none :: rest) ∨
    ∃ rest', optHasValue = true ∧ inlineValue opt a = none ∧ rest = some value :: rest' ∧
      T = none :: none :: rest' := by
  unfold hit at h
  cases optHasValue with
  | false => cases h; exact .inl ⟨rfl, rfl, rfl⟩
  | true =>
    simp only [Bool.not_true, Bool.false_eq_true, if_false] at h
    cases hv : inlineValue opt a with
    | some v => simp only [hv] at h; cases h; exact .inr (.inl ⟨rfl, rfl, rfl⟩)
    | none =>
      rcases rest with _ | ⟨_ | v, rest⟩ <;> simp only [hv] at h <;> cases h
      exact .inr (.inr ⟨rest, rfl, rfl, rfl, rfl⟩)

/-! ## The test, without the indices -/

/-- A one-letter name is recognised as `-x` and nothing else. -/
theorem recognises_short {opt a : CStr} (hopt : opt.strlen = 1) :
    recognises opt a = true ↔ a = lit "-" ++ opt := by
  obtain ⟨c, hc⟩ := List.length_eq_one_iff.mp hopt
  have hdash : (lit "-").bytes = [dash] := rfl
  rw [recognises, if_pos hopt, CStr.ext_iff, CStr.bytes_append, hc, hdash]
  simp only [CStr.charAt_eq_zero]
  obtain ⟨as, hnul⟩ := a
  simp only [CStr.strlen, CStr.charAt, hc]
  rcases as with _ | ⟨x, _ | ⟨y, _ | ⟨z, as⟩⟩⟩ <;> simp

/-- A longer name is recognised as `--name`, whatever follows it. -/
theorem recognises_long {opt a : CStr} (hopt : 1 < opt.strlen) :
    recognises opt a = true ↔ ∃ u : CStr, a = lit "--" ++ opt ++ u := by
  rw [recognises, if_neg (by omega)]
  simp only [Bool.and_eq_true, decide_eq_true_eq, Bool.not_eq_true', decide_eq_false_iff_not,
    CStr.strncmpEq_iff]
  constructor
  · rintro ⟨⟨-, -, hlen, h0, h1⟩, u, hu⟩
    refine ⟨u, CStr.ext ?_⟩
    have hb := congrArg CStr.bytes hu
    obtain ⟨as, hnul⟩ := a
    simp only [CStr.strlen, CStr.charAt] at hlen h0 h1
    rcases as with _ | ⟨x, _ | ⟨y, as⟩⟩
    · simp at hlen
    · simp at hlen
    · simp only [List.getD_cons_zero, List.getD_cons_succ] at h0 h1
      simp only [CStr.bytes_drop, List.drop_succ_cons, List.drop_zero] at hb
      subst h0 h1 hb
      rfl
  · rintro ⟨u, rfl⟩
    have hlen : (lit "--" ++ opt ++ u).strlen = 2 + opt.strlen + u.strlen := by
      rw [CStr.strlen_append, CStr.strlen_append]; rfl
    refine ⟨⟨by omega, hopt, by omega, rfl, rfl⟩, u, CStr.ext rfl⟩

theorem inlineValue_short {opt a : CStr} (hopt : opt.strlen = 1) : inlineValue opt a = none :=
  if_pos hopt

/-- A long name with `=` behind it, the first one of the slot. -/
theorem inlineValue_long {opt x v : CStr} (hopt : opt.strlen ≠ 1) (hx : equals ∉ x.bytes) :
    inlineValue opt (x ++ lit "=" ++ v) = some v := by
  obtain ⟨p, hp, rfl⟩ := CStr.strchr_append_cons (y := v) (s := x ++ lit "=" ++ v) hx (by simp; rfl)
  rw [inlineValue, if_neg hopt, hp, Option.map_some]

/-- A value written in the option's slot is the text after its first `=`. -/
theorem inlineValue_eq_some {opt a value : CStr} (h : inlineValue opt a = some value) :
    opt.strlen ≠ 1 ∧ ∃ x : CStr, equals ∉ x.bytes ∧ a = x ++ lit "=" ++ value := by
  unfold inlineValue at h
  split at h
  · cases h
  · rename_i hopt
    obtain ⟨p, hp, rfl⟩ := Option.map_eq_some_iff.mp h
    obtain ⟨x, hx, e⟩ := CStr.strchr_eq_some hp
    exact ⟨hopt, x, hx, CStr.ext (by rw [e]; simp; rfl)⟩

theorem inlineValue_long_none {opt a : CStr} (hopt : opt.strlen ≠ 1) (ha : equals ∉ a.bytes) :
    inlineValue opt a = none := by
  rw [inlineValue, if_neg hopt, CStr.strchr_eq_none.mpr ha, Option.map_none]

/-! ## The sweeps over what is left -/

/-- The loop of `check_unknown_opts`. -/
def checkUnknownOptsFrom : List Slot → Option CStr
  | [] => none
  | none :: rest => checkUnknownOptsFrom rest
  | some a :: rest => if a.charAt 0 = dash then some a else checkUnknownOptsFrom rest

/-- `check_unknown_opts`: the first slot left that begins with `-`. -/
def checkUnknownOpts (argv : List Slot) : Option CStr := checkUnknownOptsFrom (argv.drop 1)

/-- The loop of `parse_pos_args`: the arguments so far are in `posArgv`, and
there were `posArgc` of them. Every write is recorded. -/
def parsePosArgsFrom (nbArgs : Nat) : List Slot → List Slot → Nat → Prog (Option (List Slot))
  | [], posArgv, _ => pure (some posArgv)
  | none :: rest, posArgv, posArgc => parsePosArgsFrom nbArgs rest posArgv posArgc
  | some a :: rest, posArgv, posArgc =>
    let posArgc := posArgc + 1
    if posArgc > nbArgs then pure none
    else do
      modify fun σ => { σ with accesses := σ.accesses ++ [.store nbArgs (posArgc - 1)] }
      parsePosArgsFrom nbArgs rest (posArgv.set (posArgc - 1) (some a)) posArgc

/-- `parse_pos_args`: the arguments left in an array of `nbArgs` (`calloc`
succeeds), or `NULL` if they are more. -/
def parsePosArgs (nbArgs : Nat) : Prog (Option (List Slot)) := do
  let argv := (← get).argv
  parsePosArgsFrom nbArgs (argv.drop 1) (List.replicate nbArgs none) 0

end ZenohFlatC.Args
