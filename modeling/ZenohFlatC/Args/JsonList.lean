import Mathlib.Algebra.GroupWithZero.Nat
import ZenohFlatC.Args.Common

/-!
# The list built for a repeated endpoint option

`parse_zenoh_json_list_config` builds a JSON list from the values of a
repeated option, in buffers whose sizes it computes itself. `collectValues` is
its loop without the buffers: the values, in the order they are found. With
them, `parseZenohJsonListConfig_eq` says all that the function does: no write
is out of bounds and no output is cut, and one insertion is made, of
`jsonListText`, unless there is no value (`jsonList_untruncated`).
-/

namespace ZenohFlatC.Args

open CStr (lit)

/-- The values that the loop of `parse_zenoh_json_list_config` collects. -/
def collectValues (optShort optLong : CStr) : Nat → Prog (List CStr)
  | 0 => throw .rounds
  | n + 1 => do
    match ← parseStr optShort optLong with
    | none => pure []
    | some value => do
      let values ← collectValues optShort optLong n
      pure (value :: values)

/-! ## Programs that only see `argv` -/

@[simp] theorem Proc.log_argv (σ : Proc) (ws : List Access) : (σ.log ws).argv = σ.argv := rfl

@[simp] theorem Proc.log_calls (σ : Proc) (ws : List Access) : (σ.log ws).calls = σ.calls := rfl

@[simp] theorem Proc.log_nil (σ : Proc) : σ.log [] = σ := by simp [Proc.log]

@[simp] theorem Proc.log_log (σ : Proc) (ws xs : List Access) :
    (σ.log ws).log xs = σ.log (ws ++ xs) := by simp [Proc.log]

/-- The result of a run on `σ.argv`, as one on `σ`. -/
def inProc {α : Type} (σ : Proc) : EStateM.Result Exit (List Slot) α → EStateM.Result Exit Proc α
  | .ok a argv => .ok a { σ with argv }
  | .error e argv => .error e { σ with argv }

/-- A program that reads and writes `argv` and nothing else. -/
def OnArgv {α : Type} (p : Prog α) : Prop :=
  ∃ q : EStateM Exit (List Slot) α, ∀ σ, p σ = inProc σ (q σ.argv)

namespace OnArgv

variable {α β : Type} {p : Prog α} {f : α → Prog β}

theorem pure (a : α) : OnArgv (Pure.pure a : Prog α) := ⟨Pure.pure a, fun _ => rfl⟩

theorem throw (e : Exit) : OnArgv (MonadExcept.throw e : Prog α) := ⟨MonadExcept.throw e, fun _ => rfl⟩

theorem bind (hp : OnArgv p) (hf : ∀ a, OnArgv (f a)) : OnArgv (p >>= f) := by
  obtain ⟨q, hq⟩ := hp
  choose g hg using hf
  refine ⟨q >>= g, fun σ => ?_⟩
  cases e : q σ.argv with
  | ok a argv => rw [bind_of_ok e, bind_of_ok ((hq σ).trans (congrArg (inProc σ) e)), hg]; rfl
  | error x argv => rw [bind_of_error e, bind_of_error ((hq σ).trans (congrArg (inProc σ) e))]; rfl

/-- It makes no calls on the configuration and no writes to buffers. -/
theorem keeps (hp : OnArgv p) (σ : Proc) :
    (endState (p σ)).calls = σ.calls ∧ (endState (p σ)).accesses = σ.accesses := by
  obtain ⟨q, hq⟩ := hp
  rw [hq]
  cases q σ.argv <;> exact ⟨rfl, rfl⟩

theorem log_ok (hp : OnArgv p) {σ σ' : Proc} {a : α} (h : p σ = .ok a σ') (ws : List Access) :
    p (σ.log ws) = .ok a (σ'.log ws) := by
  obtain ⟨q, hq⟩ := hp
  rw [hq, Proc.log_argv] at *
  cases e : q σ.argv <;> rw [e] at h <;> cases h
  rfl

theorem log_error (hp : OnArgv p) {σ σ' : Proc} {e : Exit} (h : p σ = .error e σ') (ws : List Access) :
    p (σ.log ws) = .error e (σ'.log ws) := by
  obtain ⟨q, hq⟩ := hp
  rw [hq, Proc.log_argv] at *
  cases e' : q σ.argv <;> rw [e'] at h <;> cases h
  rfl

end OnArgv

/-- `parseOpt`, on `argv` alone. -/
def parseOptArgv (opt : CStr) (optHasValue : Bool) : EStateM Exit (List Slot) (Option CStr) := fun argv =>
  match argv with
  | [] => .ok none argv
  | prog :: args => match parseOptFrom opt optHasValue args with
    | .ok (value, args) => .ok value (prog :: args)
    | .error e => .error e argv

theorem parseOpt_onArgv (opt : CStr) (optHasValue : Bool) : OnArgv (parseOpt opt optHasValue) := by
  refine ⟨parseOptArgv opt optHasValue, fun σ => ?_⟩
  obtain ⟨argv, calls, accesses⟩ := σ
  unfold parseOpt parseOptArgv
  cases argv with
  | nil => rfl
  | cons prog args =>
    dsimp only
    cases parseOptFrom opt optHasValue args <;> rfl

theorem findArg_onArgv (idShort idLong : CStr) : OnArgv (findArg idShort idLong) := by
  refine (parseOpt_onArgv _ _).bind fun r => ?_
  cases r with
  | none => exact parseOpt_onArgv _ _
  | some v => exact .pure _

theorem parseStr_onArgv (optShort optLong : CStr) : OnArgv (parseStr optShort optLong) := by
  rw [parseStr_findArg]
  exact findArg_onArgv optShort optLong

theorem collectValues_onArgv (optShort optLong : CStr) (n : Nat) :
    OnArgv (collectValues optShort optLong n) := by
  induction n with
  | zero => exact .throw _
  | succ n ih =>
    refine (parseStr_onArgv _ _).bind fun r => ?_
    cases r with
    | none => exact .pure _
    | some v => exact ih.bind fun vs => .pure _

/-! ## The text -/

/-- `'v'` -/
def quoted (v : CStr) : CStr := lit "'" ++ v ++ lit "'"

/-- The values quoted, with a comma behind each. -/
def elements : List CStr → CStr
  | [] => lit ""
  | v :: vs => quoted v ++ lit "," ++ elements vs

/-- The values quoted, with a comma between two. -/
def commaSeparated : List CStr → CStr
  | [] => lit ""
  | [v] => quoted v
  | v :: w :: vs => quoted v ++ lit "," ++ commaSeparated (w :: vs)

/-- The list as JSON: `['v1','v2']`. -/
def jsonListText (vs : List CStr) : CStr := lit "[" ++ commaSeparated vs ++ lit "]"

theorem elements_eq {vs : List CStr} (h : vs ≠ []) : elements vs = commaSeparated vs ++ lit "," := by
  induction vs with
  | nil => exact absurd rfl h
  | cons v vs ih =>
    cases vs with
    | nil => exact CStr.ext (List.append_nil _)
    | cons w vs =>
      rw [elements, ih (by simp), commaSeparated]
      simp only [CStr.append_assoc]

theorem elements_strlen (vs : List CStr) :
    (elements vs).strlen = (vs.map fun v => v.strlen + 3).sum := by
  induction vs with
  | nil => rfl
  | cons v vs ih =>
    simp only [elements, quoted, CStr.strlen_append, ih, List.map_cons, List.sum_cons]
    have h1 : (lit "'").strlen = 1 := rfl
    have h2 : (lit ",").strlen = 1 := rfl
    omega

/-! ## One round of the loops -/

section

variable {optShort optLong : CStr} {n : Nat} {σ σ₁ σ₂ : Proc}

theorem collectValues_error {e : Exit} (hp : parseStr optShort optLong σ = .error e σ₁) :
    collectValues optShort optLong (n + 1) σ = .error e σ₁ := bind_of_error hp

theorem collectValues_none (hp : parseStr optShort optLong σ = .ok none σ₁) :
    collectValues optShort optLong (n + 1) σ = .ok [] σ₁ := bind_of_ok hp

theorem collectValues_some {v : CStr} {vs : List CStr}
    (hp : parseStr optShort optLong σ = .ok (some v) σ₁)
    (hc : collectValues optShort optLong n σ₁ = .ok vs σ₂) :
    collectValues optShort optLong (n + 1) σ = .ok (v :: vs) σ₂ :=
  (bind_of_ok hp).trans (bind_of_ok hc)

theorem collectValues_some_error {v : CStr} {e : Exit}
    (hp : parseStr optShort optLong σ = .ok (some v) σ₁)
    (hc : collectValues optShort optLong n σ₁ = .error e σ₂) :
    collectValues optShort optLong (n + 1) σ = .error e σ₂ :=
  (bind_of_ok hp).trans (bind_of_error hc)

/-- A round of the loop that finds a value: the buffer made for it holds the
old one's text and the value, uncut. -/
theorem jsonListLoop_some (buf : Buffer) {v : CStr}
    (hp : parseStr optShort optLong σ = .ok (some v) σ₁) :
    ∃ newbuf : Buffer, newbuf.str = buf.str ++ (quoted v ++ lit ",") ∧
      jsonListLoop optShort optLong (n + 1) buf σ = jsonListLoop optShort optLong n newbuf
        (σ₁.log [.snprintf (newbuf.str.strlen + 1) newbuf.str.strlen]) := by
  let out := buf.str ++ lit "'" ++ v ++ lit "',"
  have hlen : out.strlen + 1 = buf.str.strlen + v.strlen + 4 := by
    simp only [out, CStr.strlen_append]
    show buf.str.strlen + 1 + v.strlen + 2 + 1 = _
    omega
  have hstr : (Buffer.snprintf (buf.str.strlen + v.strlen + 4) out (Nat.succ_pos _)).str = out :=
    Buffer.snprintf_str (by omega)
  refine ⟨.snprintf (buf.str.strlen + v.strlen + 4) out (Nat.succ_pos _), ?_, ?_⟩
  · rw [hstr]
    simp only [out, quoted, CStr.append_assoc]
    rfl
  · rw [hstr, hlen]
    exact (bind_of_ok hp).trans (bind_of_ok rfl)

end

/-! ## The loop and the function -/

/-- Every write is in bounds and cuts nothing, and the sums computed for the
sizes are at most `n`. -/
structure WritesOk (ws : List Access) (n : Nat) : Prop where
  inBounds : ∀ w ∈ ws, w.InBounds
  sums : ∀ size len, .snprintf size len ∈ ws → size ≤ n

theorem WritesOk.nil (n : Nat) : WritesOk [] n := ⟨by simp, by simp⟩

theorem WritesOk.append {ws xs : List Access} {n : Nat} (h : WritesOk ws n) (k : WritesOk xs n) :
    WritesOk (ws ++ xs) n where
  inBounds w hw := (List.mem_append.mp hw).elim (h.inBounds w) (k.inBounds w)
  sums size len hw := (List.mem_append.mp hw).elim (h.sums size len) (k.sums size len)

theorem WritesOk.snprintf {len n : Nat} (h : len < n) : WritesOk [.snprintf (len + 1) len] n where
  inBounds w hw := List.mem_singleton.mp hw ▸ Nat.lt_succ_self len
  sums size l hw := by
    cases List.mem_singleton.mp hw
    exact h

theorem WritesOk.mono {ws : List Access} {m n : Nat} (h : WritesOk ws m) (hmn : m ≤ n) :
    WritesOk ws n :=
  ⟨h.inBounds, fun size len hw => (h.sums size len hw).trans hmn⟩

/-- The loop: the values that `collectValues` finds, appended to `buf`. -/
theorem jsonListLoop_eq (optShort optLong : CStr) (n : Nat) (buf : Buffer) (σ : Proc) :
    ∃ ws : List Access, match collectValues optShort optLong n σ with
      | .ok vs σ' => WritesOk ws (buf.str.strlen + (elements vs).strlen + 1) ∧ ∃ buf' : Buffer,
          buf'.str = buf.str ++ elements vs ∧
          jsonListLoop optShort optLong n buf σ = .ok buf' (σ'.log ws)
      | .error e σ' => (∀ w ∈ ws, w.InBounds) ∧
          jsonListLoop optShort optLong n buf σ = .error e (σ'.log ws) := by
  induction n generalizing buf σ with
  | zero => exact ⟨[], by simp, by rw [Proc.log_nil]; rfl⟩
  | succ n ih =>
    cases hp : parseStr optShort optLong σ with
    | error e σ₁ =>
      rw [collectValues_error hp]
      exact ⟨[], by simp, (bind_of_error hp).trans (by rw [Proc.log_nil])⟩
    | ok r σ₁ =>
      cases r with
      | none =>
        rw [collectValues_none hp]
        exact ⟨[], .nil _, buf, CStr.ext (List.append_nil _).symm,
          (bind_of_ok hp).trans (by rw [Proc.log_nil]; rfl)⟩
      | some v =>
        obtain ⟨newbuf, hstr, hstep⟩ := jsonListLoop_some (n := n) buf hp
        obtain ⟨ws, hrec⟩ := ih newbuf (σ₁.log [.snprintf (newbuf.str.strlen + 1) newbuf.str.strlen])
        have hon := collectValues_onArgv optShort optLong n
        refine ⟨.snprintf (newbuf.str.strlen + 1) newbuf.str.strlen :: ws, ?_⟩
        cases hc : collectValues optShort optLong n σ₁ with
        | error e σ₂ =>
          rw [hon.log_error hc] at hrec
          simp only [Proc.log_log, List.singleton_append] at hrec
          rw [collectValues_some_error hp hc]
          exact ⟨List.forall_mem_cons.mpr ⟨Nat.lt_succ_self _, hrec.1⟩, hstep.trans hrec.2⟩
        | ok vs σ₂ =>
          rw [hon.log_ok hc] at hrec
          simp only [Proc.log_log, List.singleton_append] at hrec
          obtain ⟨hws, buf', hbuf', e⟩ := hrec
          rw [collectValues_some hp hc]
          have hlen := congrArg CStr.strlen hstr
          rw [CStr.strlen_append] at hlen
          have hel : (elements (v :: vs)).strlen = (quoted v ++ lit ",").strlen + (elements vs).strlen := by
            rw [elements, CStr.strlen_append _ (elements vs)]
          refine ⟨(WritesOk.snprintf (by omega)).append (hws.mono (by omega)), buf', ?_, hstep.trans e⟩
          rw [hbuf', hstr, elements, CStr.append_assoc]

/-- With at least one value, the comma behind the last one is cut off. -/
theorem elements_take {vs : List CStr} (h : vs ≠ []) :
    (elements vs).take ((elements vs).strlen - 1) = commaSeparated vs := by
  ext1
  rw [elements_eq h, CStr.bytes_take, CStr.strlen_append]
  exact List.take_left

/-- What follows a call that may fail. -/
def exitUnless (e : Exit) : Bool → Prog Unit
  | true => pure ()
  | false => throw e

/-- The insertion of a list that is not empty. -/
theorem insertList_eq (api : ConfigApi) (configKey : CStr) {buf : Buffer} {vs : List CStr}
    (hvs : vs ≠ []) (hstr : buf.str = elements vs) (σ : Proc) :
    ∃ ws : List Access, WritesOk ws ((elements vs).strlen + 2) ∧ insertList api configKey buf σ =
      if api.insertJson5 σ.calls configKey (jsonListText vs) then
        .ok () ((σ.log ws).call (.insertJson5 configKey (jsonListText vs)))
      else .error (.insertList (jsonListText vs) configKey)
        ((σ.log ws).call (.insertJson5 configKey (jsonListText vs))) := by
  have hlen : (elements vs).strlen = (commaSeparated vs).strlen + 1 := by
    rw [elements_eq hvs, CStr.strlen_append]
    rfl
  have htext : lit "[" ++ (buf.terminate (buf.str.strlen - 1)).str ++ lit "]" = jsonListText vs := by
    show lit "[" ++ buf.str.take (buf.str.strlen - 1) ++ lit "]" = _
    rw [hstr, elements_take hvs, jsonListText]
  have hsize : buf.str.strlen - 1 + 3 = (jsonListText vs).strlen + 1 := by
    simp only [jsonListText, CStr.strlen_append, hstr, hlen]
    show _ = 1 + (commaSeparated vs).strlen + 1 + 1
    omega
  let list := Buffer.snprintf (buf.str.strlen - 1 + 3)
    (lit "[" ++ (buf.terminate (buf.str.strlen - 1)).str ++ lit "]") (Nat.succ_pos _)
  have hlist : list.str = jsonListText vs := by
    rw [← htext]
    exact Buffer.snprintf_str (by rw [htext]; omega)
  refine ⟨[.store buf.cap (buf.str.strlen - 1),
    .snprintf ((jsonListText vs).strlen + 1) (jsonListText vs).strlen], ⟨?_, ?_⟩, ?_⟩
  · have := buf.fits
    exact List.forall_mem_cons.mpr ⟨show _ < _ by omega, List.forall_mem_singleton.mpr (Nat.lt_succ_self _)⟩
  · intro size len hw
    simp only [List.mem_cons, reduceCtorEq, false_or, List.not_mem_nil, or_false,
      Access.snprintf.injEq] at hw
    rw [hstr] at hsize
    omega
  · have hins : insertList api configKey buf σ =
        (zConfigInsertJson5 api configKey list.str >>= exitUnless (.insertList list.str configKey))
        (σ.log [.store buf.cap (buf.str.strlen - 1), .snprintf (buf.str.strlen - 1 + 3)
          (lit "[" ++ (buf.terminate (buf.str.strlen - 1)).str ++ lit "]").strlen]) := by
      rw [insertList]
      dsimp only
      rw [if_pos (by rw [hstr, hlen]; exact Nat.succ_pos _)]
      refine (bind_of_ok rfl).trans ((bind_of_ok rfl).trans ?_)
      rw [Proc.log_log]
      rfl
    rw [hins, hlist, hsize, htext]
    refine (bind_of_ok rfl).trans ?_
    rw [Proc.log_calls]
    cases api.insertJson5 σ.calls configKey (jsonListText vs) <;> rfl

/-- What `parse_zenoh_json_list_config` does, whatever `argv` holds: it
collects its values or exits where the option scanner does, and if there are
any it inserts their list, and exits if the insertion fails. All its writes
are in bounds and cut nothing; the sums for the sizes are at most the values'
lengths, 3 more for each and 2 more, so they do not wrap if these do not. -/
theorem parseZenohJsonListConfig_eq (api : ConfigApi) (optShort optLong configKey : CStr) (σ : Proc) :
    ∃ ws : List Access, match collectValues optShort optLong (σ.argv.length + 1) σ with
      | .error e σ' => (∀ w ∈ ws, w.InBounds) ∧
          parseZenohJsonListConfig api optShort optLong configKey σ = .error e (σ'.log ws)
      | .ok vs σ' => WritesOk ws ((vs.map fun v => v.strlen + 3).sum + 2) ∧
          parseZenohJsonListConfig api optShort optLong configKey σ =
            if vs = [] then .ok () (σ'.log ws)
            else if api.insertJson5 σ'.calls configKey (jsonListText vs) then
              .ok () ((σ'.log ws).call (.insertJson5 configKey (jsonListText vs)))
            else .error (.insertList (jsonListText vs) configKey)
              ((σ'.log ws).call (.insertJson5 configKey (jsonListText vs))) := by
  obtain ⟨ws, hloop⟩ := jsonListLoop_eq optShort optLong (σ.argv.length + 1) .calloc1 σ
  cases hc : collectValues optShort optLong (σ.argv.length + 1) σ with
  | error e σ₁ =>
    rw [hc] at hloop
    exact ⟨ws, hloop.1, (bind_of_ok rfl).trans (bind_of_error hloop.2)⟩
  | ok vs σ₁ =>
    rw [hc] at hloop
    obtain ⟨hws, buf, hstr, hrun⟩ := hloop
    replace hstr : buf.str = elements vs := hstr.trans (CStr.ext (List.nil_append _))
    replace hws : WritesOk ws ((vs.map fun v => v.strlen + 3).sum + 2) := by
      refine hws.mono ?_
      rw [elements_strlen]
      show 0 + _ + 1 ≤ _
      omega
    by_cases hvs : vs = []
    · subst hvs
      refine ⟨ws, hws, ?_⟩
      rw [if_pos rfl]
      refine (bind_of_ok rfl).trans ((bind_of_ok hrun).trans ?_)
      rw [insertList]
      dsimp only
      rw [if_neg (by rw [hstr]; decide)]
      rfl
    · obtain ⟨xs, hxs, hins⟩ := insertList_eq api configKey hvs hstr (σ₁.log ws)
      rw [elements_strlen] at hxs
      refine ⟨ws ++ xs, hws.append hxs, ?_⟩
      rw [if_neg hvs, ← Proc.log_log]
      exact (bind_of_ok rfl).trans ((bind_of_ok hrun).trans hins)

/-- The list is exact, whatever `argv` holds: each write of the function is in
its buffer and each `snprintf` writes its whole output, also in a run that
exits. If it collected `vs`, the sums for the sizes are at most as given, and
one insertion was made, of all of `vs`, or none if there is no value. -/
theorem jsonList_untruncated (api : ConfigApi) (optShort optLong configKey : CStr) (σ : Proc) :
    ∃ ws : List Access,
      (endState (parseZenohJsonListConfig api optShort optLong configKey σ)).accesses =
        σ.accesses ++ ws ∧
      (∀ w ∈ ws, w.InBounds) ∧
      ∀ vs σ', collectValues optShort optLong (σ.argv.length + 1) σ = .ok vs σ' →
        (∀ size len, .snprintf size len ∈ ws → size ≤ (vs.map fun v => v.strlen + 3).sum + 2) ∧
        (endState (parseZenohJsonListConfig api optShort optLong configKey σ)).calls =
          σ.calls ++ (if vs = [] then [] else [.insertJson5 configKey (jsonListText vs)]) := by
  obtain ⟨ws, hrun⟩ := parseZenohJsonListConfig_eq api optShort optLong configKey σ
  have hkeeps := (collectValues_onArgv optShort optLong (σ.argv.length + 1)).keeps σ
  refine ⟨ws, ?_⟩
  cases hc : collectValues optShort optLong (σ.argv.length + 1) σ with
  | error e σ₁ =>
    rw [hc] at hrun hkeeps
    have hacc : σ₁.accesses = σ.accesses := hkeeps.2
    refine ⟨?_, hrun.1, fun vs σ' h => by cases h⟩
    rw [hrun.2, ← hacc]
    rfl
  | ok vs σ₁ =>
    rw [hc] at hrun hkeeps
    obtain ⟨hws, hrun⟩ := hrun
    have hcalls : σ₁.calls = σ.calls := hkeeps.1
    have hacc : σ₁.accesses = σ.accesses := hkeeps.2
    have hend : (endState (parseZenohJsonListConfig api optShort optLong configKey σ)).accesses =
          σ.accesses ++ ws ∧
        (endState (parseZenohJsonListConfig api optShort optLong configKey σ)).calls =
          σ.calls ++ (if vs = [] then [] else [.insertJson5 configKey (jsonListText vs)]) := by
      rw [hrun, ← hacc, ← hcalls]
      by_cases hvs : vs = []
      · rw [if_pos hvs, if_pos hvs]
        exact ⟨rfl, (List.append_nil _).symm⟩
      · rw [if_neg hvs, if_neg hvs]
        cases api.insertJson5 σ₁.calls configKey (jsonListText vs) <;> exact ⟨rfl, rfl⟩
    refine ⟨hend.1, hws.inBounds, fun vs' σ' h => ?_⟩
    cases h
    exact ⟨hws.sums, hend.2⟩

/-- `-e a --connect ""`: the list is `['a','']`. -/
theorem jsonList_untruncated_two : ∃ ws : List Access, (∀ w ∈ ws, w.InBounds) ∧
    (endState (parseZenohJsonListConfig .alwaysOk (lit "e") (lit "connect")
      (lit "connect/endpoints")
      (.start [lit "z_get", lit "-e", lit "a", lit "--connect", lit ""]))).calls =
      [.insertJson5 (lit "connect/endpoints") (lit "['a','']")] := by
  obtain ⟨ws, -, hws, hcollected⟩ := jsonList_untruncated .alwaysOk (lit "e")
    (lit "connect") (lit "connect/endpoints")
    (.start [lit "z_get", lit "-e", lit "a", lit "--connect", lit ""])
  have hrun : collectValues (lit "e") (lit "connect") 6
      (.start [lit "z_get", lit "-e", lit "a", lit "--connect", lit ""]) =
      .ok [lit "a", lit ""] ⟨[some (lit "z_get"), none, none, none, none], [], []⟩ := by rfl
  exact ⟨ws, hws, (hcollected _ _ hrun).2⟩

end ZenohFlatC.Args
