import ZenohFlatC.Args.ParseOpt
import ZenohFlatC.Framework.Tiled

/-!
# Command lines as sequences of options

The options of a program (`Options`) are the names it scans for, in the order
in which it does. An option unit (`OptUnit`) is an option on the command line
as the scanner takes it: its name's token, with what is behind the name in it
(`extra`), and its value. A unit is `Exact` if nothing is behind the name.

Names are not ambiguous: a name's token is recognised by no other name
(`recognises_token`), so what a scan meets that it should not is always a
value written as an argument of its own (`OptUnit.sepValue`). `hit_token` and
`unit_of_hit` are what a scan does at a unit's token, and the unit at what a
scan has taken. A command line is cut into units in one way (`units_inj`).
-/

namespace ZenohFlatC.Args

open CStr (lit)

/-- What a name is to the program. -/
inductive Kind where
  | help
  | flag
  | value
  deriving DecidableEq

/-- The names that a program scans `argv` for, and their order. -/
class Options (ν : Type) where
  text : ν → CStr
  kind : ν → Kind
  rank : ν → Nat
  rank_inj : ∀ {m n}, rank m = rank n → m = n
  text_pos : ∀ n, 0 < (text n).strlen
  text_equals : ∀ n, equals ∉ (text n).bytes
  text_inj : ∀ {m n}, text m = text n → m = n
  /-- No long name begins with another one. -/
  text_unambiguous : ∀ {m n}, 1 < (text m).strlen → (text m).bytes <+: (text n).bytes → m = n

export Options (text kind rank rank_inj text_pos text_equals text_inj text_unambiguous)

/-- How the value of an option is written. -/
inductive Arg where
  /-- A flag, with no value. -/
  | bare
  /-- `-x v` or `--name v` -/
  | apart (v : CStr)
  /-- `--name=v` -/
  | inline (v : CStr)
  deriving DecidableEq

variable {ν : Type} [Options ν]

/-- A name longer than one letter. -/
abbrev IsLong (n : ν) : Prop := 1 < (text n).strlen

/-- The dashes in front of a name. -/
def dashes (n : ν) : CStr := if IsLong n then lit "--" else lit "-"

/-- What an argument needs of its option, and of the text behind its name. -/
def Arg.Fits (n : ν) (extra : CStr) : Arg → Prop
  | .bare => kind n = .flag
  | .apart _ => kind n = .value ∧ equals ∉ extra.bytes
  | .inline _ => kind n = .value ∧ IsLong n ∧ equals ∉ extra.bytes

instance (n : ν) (extra : CStr) : DecidablePred (Arg.Fits n extra)
  | .bare => inferInstanceAs (Decidable (kind n = .flag))
  | .apart _ => inferInstanceAs (Decidable (_ ∧ _))
  | .inline _ => inferInstanceAs (Decidable (_ ∧ _))

/-- An option as the scanner takes it from the command line. -/
structure OptUnit (ν : Type) [Options ν] where
  name : ν
  /-- What is behind the name in its token. -/
  extra : CStr
  arg : Arg
  short : ¬IsLong name → extra = lit ""
  fits : arg.Fits name extra

namespace OptUnit

/-- The name with its dashes and what is behind it. -/
def head (u : OptUnit ν) : CStr := dashes u.name ++ text u.name ++ u.extra

/-- The token of the name. -/
def token (u : OptUnit ν) : CStr :=
  match u.arg with
  | .inline v => u.head ++ lit "=" ++ v
  | .bare | .apart _ => u.head

/-- The value, where it is an argument of its own. -/
def sepValue (u : OptUnit ν) : Option CStr :=
  match u.arg with
  | .apart v => some v
  | .bare | .inline _ => none

/-- The arguments of the unit. -/
def tokens (u : OptUnit ν) : List CStr := u.token :: u.sepValue.toList

/-- What `parse_opt` returns for it: its value, or the name of a flag. -/
def value (u : OptUnit ν) : CStr :=
  match u.arg with
  | .apart v | .inline v => v
  | .bare => text u.name

/-- Nothing is behind the name. -/
def Exact (u : OptUnit ν) : Prop := u.extra = lit ""

instance : DecidablePred (Exact (ν := ν)) := fun u => inferInstanceAs (Decidable (u.extra = lit ""))

end OptUnit

/-! ## Names are not ambiguous -/

theorem strlen_eq_one {n : ν} (h : ¬IsLong n) : (text n).strlen = 1 := by
  have := text_pos n
  omega

/-- The token of a unit is recognised by its own name and by no other. -/
theorem recognises_token (m : ν) (u : OptUnit ν) : recognises (text m) u.token = true ↔ u.name = m := by
  -- the token is the name between the dashes and a rest that is empty for a short name
  have htoken : ∃ rest : CStr, u.token = dashes u.name ++ text u.name ++ rest ∧
      (¬IsLong u.name → rest = lit "") := by
    obtain ⟨n, x, arg, hs, hf⟩ := u
    cases arg with
    | bare => exact ⟨x, rfl, hs⟩
    | apart v => exact ⟨x, rfl, hs⟩
    | inline v =>
      refine ⟨x ++ lit "=" ++ v, ?_, fun h => absurd hf.2.1 h⟩
      simp only [OptUnit.token, OptUnit.head, CStr.append_assoc]
  obtain ⟨rest, hrest, hshort⟩ := htoken
  have hlen : ∀ s : CStr, u.token = s → (dashes u.name).strlen + (text u.name).strlen + rest.strlen =
      s.strlen := by
    intro s h
    rw [← h, hrest, CStr.strlen_append, CStr.strlen_append]
  have hdash : (lit "-").strlen = 1 := by rfl
  have hdashes : (lit "--").strlen = 2 := by rfl
  have hpos := text_pos u.name
  have hposm := text_pos m
  by_cases hm : IsLong m
  · rw [recognises_long hm]
    by_cases hu : IsLong u.name
    · rw [hrest, dashes, if_pos hu]
      constructor
      · rintro ⟨y, h⟩
        have hb : (text u.name).bytes ++ rest.bytes = (text m).bytes ++ y.bytes := by
          have := congrArg CStr.bytes h
          simpa only [CStr.bytes_append, List.append_assoc, List.append_cancel_left_eq] using this
        rcases List.append_eq_append_iff.mp hb with ⟨z, hz, -⟩ | ⟨z, hz, -⟩
        · exact text_unambiguous hu ⟨z, hz.symm⟩
        · exact (text_unambiguous hm ⟨z, hz.symm⟩).symm
      · rintro rfl
        exact ⟨rest, rfl⟩
    · constructor
      · rintro ⟨y, h⟩
        have := hlen _ h
        rw [dashes, if_neg hu, hshort hu, CStr.strlen_append, CStr.strlen_append] at this
        have hnil : (lit "").strlen = 0 := by rfl
        have hone := strlen_eq_one hu
        omega
      · rintro rfl
        exact absurd hm hu
  · rw [recognises_short (strlen_eq_one hm)]
    by_cases hu : IsLong u.name
    · constructor
      · intro h
        have := hlen _ h
        rw [dashes, if_pos hu, CStr.strlen_append] at this
        have hone := strlen_eq_one hm
        omega
      · rintro rfl
        exact absurd hu hm
    · rw [hrest, dashes, if_neg hu, hshort hu]
      have hnil : lit "-" ++ text u.name ++ lit "" = lit "-" ++ text u.name :=
        CStr.ext (List.append_nil _)
      rw [hnil]
      constructor
      · intro h
        have hb := congrArg CStr.bytes h
        exact text_inj (CStr.ext (List.append_cancel_left hb))
      · rintro rfl
        rfl

/-! ## What a scan takes -/

/-- The name is scanned for with a value. -/
def takesValue (n : ν) : Bool := kind n = .value

theorem dashes_equals (n : ν) : equals ∉ (dashes n).bytes := by
  unfold dashes
  split <;> decide

theorem head_equals {u : OptUnit ν} (h : equals ∉ u.extra.bytes) : equals ∉ u.head.bytes := by
  simp only [OptUnit.head, CStr.bytes_append, List.mem_append, not_or]
  exact ⟨⟨dashes_equals _, text_equals _⟩, h⟩

/-- At the token of a unit the scan for its name takes the whole unit. -/
theorem hit_token (u : OptUnit ν) (T : List Slot) :
    hit (text u.name) (takesValue u.name) u.token (u.sepValue.toList.map some ++ T) =
      .ok (u.value, List.replicate u.tokens.length none ++ T) := by
  obtain ⟨n, x, arg, hs, hf⟩ := u
  cases arg with
  | bare =>
    have hk : takesValue n = false := by rw [takesValue, show kind n = .flag from hf]; rfl
    simp only [hk, hit]
    rfl
  | apart v =>
    have hk : takesValue n = true := decide_eq_true hf.1
    have hin : inlineValue (text n) (OptUnit.head ⟨n, x, .apart v, hs, hf⟩) = none := by
      by_cases hn : IsLong n
      · exact inlineValue_long_none (Nat.ne_of_gt hn) (head_equals hf.2)
      · exact inlineValue_short (strlen_eq_one hn)
    simp only [hk, hit, OptUnit.token, hin]
    rfl
  | inline v =>
    have hk : takesValue n = true := decide_eq_true hf.1
    have hin : inlineValue (text n) (OptUnit.head ⟨n, x, .inline v, hs, hf⟩ ++ lit "=" ++ v) = some v :=
      inlineValue_long (Nat.ne_of_gt hf.2.1) (head_equals hf.2.2)
    simp only [hk, hit, OptUnit.token, hin]
    rfl

/-- A slot that a name recognises is the name between its dashes and a rest. -/
theorem token_of_recognises {n : ν} {a : CStr} (h : recognises (text n) a = true) :
    ∃ x : CStr, a = dashes n ++ text n ++ x ∧ (¬IsLong n → x = lit "") := by
  by_cases hn : IsLong n
  · obtain ⟨x, hx⟩ := (recognises_long hn).mp h
    exact ⟨x, by rw [dashes, if_pos hn, hx], fun h => absurd hn h⟩
  · refine ⟨lit "", ?_, fun _ => rfl⟩
    rw [dashes, if_neg hn, (recognises_short (strlen_eq_one hn)).mp h]
    exact CStr.ext (List.append_nil _).symm

/-- What a scan has taken is a unit. -/
theorem unit_of_hit {n : ν} {a value : CStr} {S T : List Slot} (hk : kind n ≠ .help)
    (ha : recognises (text n) a = true) (h : hit (text n) (takesValue n) a S = .ok (value, T)) :
    ∃ (u : OptUnit ν) (S' : List Slot), u.name = n ∧ u.value = value ∧
      some a :: S = u.tokens.map some ++ S' ∧ T = List.replicate u.tokens.length none ++ S' := by
  obtain ⟨x, rfl, hshort⟩ := token_of_recognises ha
  rcases hit_ok h with ⟨hv, rfl, rfl⟩ | ⟨hv, hin, rfl⟩ | ⟨S', hv, hin, rfl, rfl⟩
  · have hflag : kind n = .flag := by
      have := of_decide_eq_false hv
      cases hkind : kind n <;> simp_all
    exact ⟨⟨n, x, .bare, hshort, hflag⟩, S, rfl, rfl, rfl, rfl⟩
  · have hvalue : kind n = .value := of_decide_eq_true hv
    obtain ⟨hlong, y, hy, e⟩ := inlineValue_eq_some hin
    have hlong : IsLong n := by
      have := text_pos n
      omega
    -- the first `=` is behind the name
    have hname : equals ∉ (dashes n ++ text n).bytes := by
      rw [CStr.bytes_append, List.mem_append, not_or]
      exact ⟨dashes_equals n, text_equals n⟩
    have hb : y.bytes ++ equals :: value.bytes = (dashes n ++ text n).bytes ++ x.bytes := by
      have := congrArg CStr.bytes e.symm
      rw [CStr.bytes_append, CStr.bytes_append, List.append_assoc] at this
      exact this
    obtain ⟨z, hz, hx⟩ := append_of_not_mem hb hname
    have hzy : equals ∉ z := fun hm => hy (by rw [hz]; exact List.mem_append_right _ hm)
    have hz0 : 0 ∉ z := fun hm => y.nulFree (by rw [hz]; exact List.mem_append_right _ hm)
    refine ⟨⟨n, ⟨z, hz0⟩, .inline value, fun h => absurd hlong h, hvalue, hlong, hzy⟩, S, rfl, rfl, ?_, rfl⟩
    have htoken : dashes n ++ text n ++ x = dashes n ++ text n ++ ⟨z, hz0⟩ ++ lit "=" ++ value := by
      refine CStr.ext ?_
      rw [CStr.bytes_append, hx]
      simp only [CStr.bytes_append, List.append_assoc]
      rfl
    rw [htoken]
    rfl
  · have hvalue : kind n = .value := of_decide_eq_true hv
    have hx : equals ∉ x.bytes := by
      by_cases hn : IsLong n
      · rw [inlineValue, if_neg (Nat.ne_of_gt hn), Option.map_eq_none_iff, CStr.strchr_eq_none] at hin
        exact fun hm => hin (List.mem_append_right _ hm)
      · rw [hshort hn]
        decide
    exact ⟨⟨n, x, .apart value, hshort, hvalue, hx⟩, S', rfl, rfl, rfl, rfl⟩

/-! ## A command line is cut in one way -/

/-- The first `=` splits a token in one way. -/
theorem inline_inj {x y v w : CStr} (hx : equals ∉ x.bytes) (hy : equals ∉ y.bytes)
    (h : x ++ lit "=" ++ v = y ++ lit "=" ++ w) : x = y ∧ v = w := by
  have hb : x.bytes ++ equals :: v.bytes = y.bytes ++ equals :: w.bytes := by
    have := congrArg CStr.bytes h
    simp only [CStr.bytes_append, List.append_assoc] at this
    exact this
  obtain ⟨z, hz, hw⟩ := append_of_not_mem hb hy
  cases z with
  | nil =>
    rw [List.append_nil] at hz
    rw [List.nil_append] at hw
    exact ⟨CStr.ext hz, CStr.ext (List.cons_eq_cons.mp hw).2.symm⟩
  | cons c z =>
    obtain ⟨rfl, -⟩ := List.cons_eq_cons.mp hw
    exact absurd (hz ▸ List.mem_append_right _ List.mem_cons_self) hx

/-- A unit is known from its first token and, if it takes one, the next. -/
theorem unit_inj {u v : OptUnit ν} {S T : List CStr} (h : u.tokens ++ S = v.tokens ++ T) :
    u = v ∧ S = T := by
  have htoken : u.token = v.token := (List.cons_eq_cons.mp h).1
  have hname : v.name = u.name :=
    (recognises_token u.name v).mp (htoken ▸ (recognises_token u.name u).mpr rfl)
  obtain ⟨n, x, arg, hs, hf⟩ := u
  obtain ⟨n', y, arg', hs', hf'⟩ := v
  have hname : n' = n := hname
  subst hname
  have hcancel : ∀ x y : CStr, dashes n' ++ text n' ++ x = dashes n' ++ text n' ++ y → x = y := by
    intro x y h
    exact CStr.ext (List.append_cancel_left (congrArg CStr.bytes h))
  have hrest := (List.cons_eq_cons.mp h).2
  -- the name says whether there is a value, and the token whether it is its own argument
  have hkinds : ∀ {i j : Kind}, kind n' = i → kind n' = j → i = j := fun hi hj => hi.symm.trans hj
  have hequals : ∀ {z s t : CStr}, equals ∉ z.bytes → dashes n' ++ text n' ++ z ≠ s ++ lit "=" ++ t := by
    intro z s t hz e
    have hmem : equals ∈ (s ++ lit "=" ++ t).bytes := by
      simp only [CStr.bytes_append, List.mem_append]
      exact .inl (.inr List.mem_cons_self)
    rw [← e] at hmem
    simp only [CStr.bytes_append, List.mem_append] at hmem
    rcases hmem with (hm | hm) | hm
    · exact dashes_equals n' hm
    · exact text_equals n' hm
    · exact hz hm
  cases arg with
  | bare =>
    cases arg' with
    | bare =>
      obtain rfl := hcancel _ _ htoken
      exact ⟨rfl, hrest⟩
    | apart w => cases hkinds hf hf'.1
    | inline w => cases hkinds hf hf'.1
  | apart v =>
    cases arg' with
    | bare => cases hkinds hf' hf.1
    | apart w =>
      obtain rfl := hcancel _ _ htoken
      obtain ⟨rfl, rfl⟩ := List.cons_eq_cons.mp hrest
      exact ⟨rfl, rfl⟩
    | inline w => exact absurd htoken (hequals hf.2)
  | inline v =>
    cases arg' with
    | bare => cases hkinds hf' hf.1
    | apart w => exact absurd htoken.symm (hequals hf'.2)
    | inline w =>
      have hx := head_equals (u := ⟨n', x, .inline v, hs, hf⟩) hf.2.2
      have hy := head_equals (u := ⟨n', y, .inline w, hs', hf'⟩) hf'.2.2
      obtain ⟨hxy, rfl⟩ := inline_inj hx hy htoken
      obtain rfl := hcancel _ _ hxy
      exact ⟨rfl, hrest⟩

/-- A command line is cut into units in one way at most. -/
theorem units_inj {us vs : List (OptUnit ν)} (h : us.flatMap OptUnit.tokens = vs.flatMap OptUnit.tokens) :
    us = vs := by
  induction us generalizing vs with
  | nil =>
    cases vs with
    | nil => rfl
    | cons v vs => cases h
  | cons u us ih =>
    cases vs with
    | nil => cases h
    | cons v vs =>
      rw [List.flatMap_cons, List.flatMap_cons] at h
      obtain ⟨rfl, hrest⟩ := unit_inj h
      rw [ih hrest]

end ZenohFlatC.Args
