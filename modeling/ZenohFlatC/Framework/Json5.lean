import Mathlib.Algebra.Group.Nat.Defs
import ZenohFlatC.Framework.CStr

/-!
# Reading JSON5 arrays of strings

A reader for the part of JSON5 that arrays of strings need, over the bytes of
a UTF-8 text: blanks and comments, strings in either quotes with their
escapes, and arrays of them. `readStrings` gives the strings' bytes, or
nothing where the text is not an array of strings. A byte of a character
outside ASCII stands for itself, but for the line separators U+2028 and U+2029
behind a backslash, and the blanks.

A text between single quotes reads as itself exactly if none of its bytes
means anything to the reader (`Plain`): `readString_plain`,
`readString_quoted`.
-/

namespace ZenohFlatC.Json5

/-- `'\''` -/
def apostrophe : UInt8 := '\''.toUInt8

/-- `'\\'` -/
def backslash : UInt8 := '\\'.toUInt8

/-- `','` -/
def comma : UInt8 := ','.toUInt8

/-- `']'` -/
def bracket : UInt8 := ']'.toUInt8

/-- Line feed or carriage return. -/
def isNewline (c : UInt8) : Bool := c == '\n'.toUInt8 || c == '\r'.toUInt8

/-! ## Escapes -/

/-- The value of a hexadecimal digit. -/
def hexDigit (c : UInt8) : Option Nat :=
  if '0'.toUInt8 ≤ c ∧ c ≤ '9'.toUInt8 then some (c.toNat - 48)
  else if 'a'.toUInt8 ≤ c ∧ c ≤ 'f'.toUInt8 then some (c.toNat - 87)
  else if 'A'.toUInt8 ≤ c ∧ c ≤ 'F'.toUInt8 then some (c.toNat - 55)
  else none

/-- The number that hexadecimal digits write. -/
def hexNumber (ds : List UInt8) : Option Nat :=
  ds.foldlM (fun n d => (hexDigit d).map (16 * n + ·)) 0

/-- The bytes of the character with code point `n`. -/
def codePoint (n : Nat) : List UInt8 := String.utf8EncodeChar (Char.ofNat n)

/-- The escape of a character by its number, `x` or `u` already read: a pair
of surrogates is one character, and one alone is none. -/
def numberEscape (digits : Nat) (s : List UInt8) : Option (List UInt8 × List UInt8) :=
  if s.length < digits then none
  else match hexNumber (s.take digits) with
    | none => none
    | some n =>
      let s := s.drop digits
      if 0xD800 ≤ n ∧ n < 0xDC00 then
        if s.take 2 = [backslash, 'u'.toUInt8] ∧ 6 ≤ s.length then
          match hexNumber ((s.drop 2).take 4) with
          | none => none
          | some m =>
            if 0xDC00 ≤ m ∧ m < 0xE000 then
              some (codePoint (0x10000 + (n - 0xD800) * 0x400 + (m - 0xDC00)), s.drop 6)
            else none
        else none
      else if 0xDC00 ≤ n ∧ n < 0xE000 then none
      else some (codePoint n, s)

/-- The character that a letter behind a backslash stands for. -/
def letterEscape (c : UInt8) : UInt8 :=
  if c = 'b'.toUInt8 then 8
  else if c = 'f'.toUInt8 then 12
  else if c = 'n'.toUInt8 then 10
  else if c = 'r'.toUInt8 then 13
  else if c = 't'.toUInt8 then 9
  else if c = 'v'.toUInt8 then 11
  else c

/-- What the escape at the head of `s` stands for, its backslash already read,
and what follows it. -/
def escape : List UInt8 → Option (List UInt8 × List UInt8)
  | [] => none
  | c :: s =>
    -- a line continued on the next one
    if c = '\n'.toUInt8 then some ([], s)
    else if c = '\r'.toUInt8 then
      if s.head? = some '\n'.toUInt8 then some ([], s.drop 1) else some ([], s)
    else if c = 0xE2 ∧ (s.take 2 = [0x80, 0xA8] ∨ s.take 2 = [0x80, 0xA9]) then some ([], s.drop 2)
    else if c = 'x'.toUInt8 then numberEscape 2 s
    else if c = 'u'.toUInt8 then numberEscape 4 s
    else if '1'.toUInt8 ≤ c ∧ c ≤ '9'.toUInt8 then none
    else if c = '0'.toUInt8 then
      match s with
      | [] => some ([0], [])
      | d :: s => if '0'.toUInt8 ≤ d ∧ d ≤ '9'.toUInt8 then none else some ([0], d :: s)
    else some ([letterEscape c], s)

/-! ## Strings -/

/-- The string at the head of the text, its opening `quote` already read, and
what follows its closing one. -/
def readString (quote : UInt8) : Nat → List UInt8 → Option (List UInt8 × List UInt8)
  | 0, _ => none
  | _ + 1, [] => none
  | n + 1, c :: s =>
    if c = quote then some ([], s)
    else if isNewline c then none
    else if c = backslash then
      match escape s with
      | none => none
      | some (o, s) => (readString quote n s).map (Prod.map (o ++ ·) id)
    else (readString quote n s).map (Prod.map (c :: ·) id)

/-! ## Arrays -/

/-- The blanks of more than one byte: U+00A0, U+FEFF, the line separators and
the spaces of Unicode. -/
def wideBlanks : List (List UInt8) :=
  [[0xC2, 0xA0], [0xEF, 0xBB, 0xBF], [0xE2, 0x80, 0xA8], [0xE2, 0x80, 0xA9], [0xE1, 0x9A, 0x80],
    [0xE2, 0x80, 0xAF], [0xE2, 0x81, 0x9F], [0xE3, 0x80, 0x80]] ++
  (List.range 11).map fun i => [0xE2, 0x80, UInt8.ofNat (0x80 + i)]

/-- A blank of one byte. -/
def isBlank (c : UInt8) : Bool := c == ' '.toUInt8 || (9 ≤ c && c ≤ 13)

/-- The text behind a comment that ends with its line. -/
def skipLine : List UInt8 → List UInt8
  | [] => []
  | c :: s => if isNewline c || [[0xE2, 0x80, 0xA8], [0xE2, 0x80, 0xA9]].contains ((c :: s).take 3)
    then c :: s else skipLine s

/-- The text behind a comment that ends with `*/`. -/
def skipBlock : List UInt8 → Option (List UInt8)
  | [] => none
  | c :: s => if c = '*'.toUInt8 ∧ s.head? = some '/'.toUInt8 then some (s.drop 1) else skipBlock s

/-- The text behind the blanks and comments at its head. -/
def skipBlanks : Nat → List UInt8 → Option (List UInt8)
  | 0, s => some s
  | _ + 1, [] => some []
  | n + 1, c :: s =>
    if isBlank c then skipBlanks n s
    else match wideBlanks.find? (·.isPrefixOf (c :: s)) with
      | some w => skipBlanks n ((c :: s).drop w.length)
      | none =>
        if c = '/'.toUInt8 ∧ s.head? = some '/'.toUInt8 then skipBlanks n (skipLine s)
        else if c = '/'.toUInt8 ∧ s.head? = some '*'.toUInt8 then
          match skipBlock (s.drop 1) with
          | some s => skipBlanks n s
          | none => none
        else some (c :: s)

/-- Only blanks are left. -/
def atEnd (s : List UInt8) : Bool := skipBlanks s.length s == some []

/-- The rest of an array behind its element `out`: a comma and `more`, or its
end. -/
def readNext (more : List UInt8 → Option (List (List UInt8))) (out s : List UInt8) :
    Option (List (List UInt8)) :=
  match skipBlanks s.length s with
  | some (c :: s) =>
    if c = comma then (more s).map (out :: ·)
    else if c = bracket ∧ atEnd s then some [out]
    else none
  | some [] | none => none

/-- The rest of an array of strings, behind its opening bracket or a comma. -/
def readElements : Nat → List UInt8 → Option (List (List UInt8))
  | 0, _ => none
  | n + 1, s =>
    match skipBlanks s.length s with
    | some (c :: s) =>
      if c = bracket ∧ atEnd s then some []
      else if c = apostrophe ∨ c = '"'.toUInt8 then
        (readString c s.length s).bind fun r => readNext (readElements n) r.1 r.2
      else none
    | some [] | none => none

/-- The strings of the array that the text denotes. -/
def readStrings (s : List UInt8) : Option (List (List UInt8)) :=
  match skipBlanks s.length s with
  | some (c :: s) => if c = '['.toUInt8 then readElements s.length s else none
  | some [] | none => none

/-! ## What an escape takes of the text -/

theorem hexDigit_some {c : UInt8} {n : Nat} (h : hexDigit c = some n) : n < 16 ∧ c ≠ apostrophe := by
  refine ⟨?_, fun hc => ?_⟩
  · simp only [hexDigit, UInt8.le_iff_toNat_le] at h
    have h9 : '9'.toUInt8.toNat = 57 := rfl
    have hf : 'f'.toUInt8.toNat = 102 := rfl
    have hF : 'F'.toUInt8.toNat = 70 := rfl
    split at h
    · cases h; omega
    · split at h
      · cases h; omega
      · split at h <;> cases h
        omega
  · have hnone : hexDigit apostrophe = none := by decide
    rw [hc, hnone] at h
    cases h

/-- A hexadecimal number is bounded by its length. -/
theorem hexNumber_some {ds : List UInt8} {n : Nat} (h : hexNumber ds = some n) :
    n < 16 ^ ds.length ∧ apostrophe ∉ ds := by
  have key : ∀ ds : List UInt8, ∀ m k, ds.foldlM (fun n d => (hexDigit d).map (16 * n + ·)) m = some k →
      k < 16 ^ ds.length * (m + 1) ∧ apostrophe ∉ ds := by
    intro ds
    induction ds with
    | nil =>
      intro m k h
      cases h
      simp
    | cons d ds ih =>
      intro m k h
      rw [List.foldlM_cons, Option.bind_eq_bind, Option.bind_eq_some_iff] at h
      obtain ⟨m', hm', h⟩ := h
      obtain ⟨v, hv, rfl⟩ := Option.map_eq_some_iff.mp hm'
      obtain ⟨hlt, hne⟩ := hexDigit_some hv
      obtain ⟨hk, hnot⟩ := ih _ _ h
      refine ⟨Nat.lt_of_lt_of_le hk ?_, by simp [hne.symm, hnot]⟩
      rw [List.length_cons, Nat.pow_succ, Nat.mul_assoc]
      exact Nat.mul_le_mul_left _ (by omega)
  have := key ds 0 n h
  rwa [Nat.zero_add, Nat.mul_one] at this

theorem codePoint_length_le (n : Nat) : (codePoint n).length ≤ 4 := by
  rw [codePoint, String.length_utf8EncodeChar]
  exact Char.utf8Size_le_four _

/-- A character of the basic plane has three bytes at most. -/
theorem codePoint_length_basic {n : Nat} (h : n < 0x10000) : (codePoint n).length ≤ 3 := by
  rw [codePoint, String.length_utf8EncodeChar]
  have hval : (Char.ofNat n).val.toNat ≤ n := by
    by_cases hvalid : n.isValidChar
    · rw [Char.ofNat, dif_pos hvalid]
      exact Nat.le_refl n
    · rw [Char.ofNat, dif_neg hvalid]
      exact Nat.zero_le n
  have hne : (Char.ofNat n).utf8Size ≠ 4 := fun h4 => by
    rw [Char.utf8Size_eq_four_iff, UInt32.lt_iff_toNat_lt] at h4
    have : UInt32.toNat 0xffff = 0xffff := rfl
    omega
  have := Char.utf8Size_le_four (Char.ofNat n)
  omega

/-- The digits of a number's escape: none of them is a quote, and they are at
least as many as the bytes of the character but one. -/
theorem numberEscape_some {digits : Nat} {s s' o : List UInt8} (hd : 2 ≤ digits ∧ digits ≤ 4)
    (h : numberEscape digits s = some (o, s')) :
    ∃ w, s = w ++ s' ∧ o.length ≤ w.length + 1 ∧ apostrophe ∉ w := by
  unfold numberEscape at h
  split at h
  · cases h
  rename_i hlen
  cases hn : hexNumber (s.take digits) with
  | none => rw [hn] at h; cases h
  | some n =>
    rw [hn] at h
    obtain ⟨hlt, hnot⟩ := hexNumber_some hn
    rw [List.length_take, Nat.min_eq_left (by omega)] at hlt
    dsimp only at h
    split at h
    · -- a pair of surrogates
      split at h
      · rename_i hlow
        cases hm : hexNumber (((s.drop digits).drop 2).take 4) with
        | none => rw [hm] at h; cases h
        | some m =>
          rw [hm] at h
          dsimp only at h
          split at h
          swap
          · cases h
          obtain ⟨-, hnot'⟩ := hexNumber_some hm
          obtain ⟨rfl, rfl⟩ := Prod.mk.inj (Option.some.inj h)
          refine ⟨s.take digits ++ ((s.drop digits).take 2 ++ ((s.drop digits).drop 2).take 4), ?_,
            Nat.le_trans (codePoint_length_le _) ?_, ?_⟩
          · conv_lhs => rw [← List.take_append_drop digits s, ← List.take_append_drop 2 (s.drop digits),
              ← List.take_append_drop 4 ((s.drop digits).drop 2)]
            simp only [List.append_assoc, List.drop_drop, Nat.reduceAdd, Nat.add_assoc]
          · simp only [List.length_append, List.length_take, List.length_drop]
            simp only [List.length_drop] at hlow
            omega
          · rw [hlow.1]
            simp only [List.mem_append, not_or]
            exact ⟨hnot, by decide, hnot'⟩
      · cases h
    · split at h <;> cases h
      refine ⟨s.take digits, (List.take_append_drop _ _).symm, ?_, hnot⟩
      have hbasic : n < 0x10000 :=
        Nat.lt_of_lt_of_le hlt (Nat.pow_le_pow_right (by decide) hd.2)
      have := codePoint_length_basic hbasic
      rw [List.length_take]
      omega

/-- An escape stands for no more bytes than are written behind its backslash,
and takes no quote of the text but the one it escapes. -/
theorem escape_some {s s' o : List UInt8} (h : escape s = some (o, s')) :
    ∃ w, s = w ++ s' ∧ w ≠ [] ∧ o.length ≤ w.length ∧
      (apostrophe ∉ w ∨ w = [apostrophe] ∧ o = [apostrophe]) := by
  cases s with
  | nil => cases h
  | cons c s =>
    simp only [escape] at h
    split at h
    · rename_i hc
      cases h
      exact ⟨[c], rfl, by simp, by simp, .inl (by rw [hc]; decide)⟩
    split at h
    · rename_i hc
      split at h <;> cases h
      · rename_i hs
        obtain ⟨s, rfl⟩ := List.head?_eq_some_iff.mp hs
        exact ⟨[c, '\n'.toUInt8], rfl, by simp, by simp, .inl (by rw [hc]; decide)⟩
      · exact ⟨[c], rfl, by simp, by simp, .inl (by rw [hc]; decide)⟩
    split at h
    · rename_i hc
      cases h
      refine ⟨c :: s.take 2, by simp, by simp, by simp, .inl ?_⟩
      rw [hc.1]
      rcases hc.2 with e | e <;> rw [e] <;> decide
    split at h
    · rename_i hc
      obtain ⟨w, rfl, hlen, hnot⟩ := numberEscape_some (by decide) h
      exact ⟨c :: w, rfl, by simp, hlen, .inl (by
        rw [List.mem_cons, not_or, hc]; exact ⟨by decide, hnot⟩)⟩
    split at h
    · rename_i hc
      obtain ⟨w, rfl, hlen, hnot⟩ := numberEscape_some (by decide) h
      exact ⟨c :: w, rfl, by simp, hlen, .inl (by
        rw [List.mem_cons, not_or, hc]; exact ⟨by decide, hnot⟩)⟩
    split at h
    · cases h
    split at h
    · rename_i hc
      cases s with
      | nil => cases h; exact ⟨[c], rfl, by simp, by simp, .inl (by rw [hc]; decide)⟩
      | cons d s =>
        dsimp only at h
        split at h <;> cases h
        exact ⟨[c], rfl, by simp, by simp, .inl (by rw [hc]; decide)⟩
    · cases h
      refine ⟨[c], rfl, by simp, by simp, ?_⟩
      by_cases hq : c = apostrophe
      · exact .inr (by subst hq; exact ⟨rfl, by decide⟩)
      · exact .inl (by simpa using Ne.symm hq)

/-! ## A text between single quotes -/

theorem map_fst_some {α β : Type} {f : α → α} {x : Option (α × β)} {out : α} {rest : β}
    (h : x.map (Prod.map f id) = some (out, rest)) : ∃ o, x = some (o, rest) ∧ f o = out := by
  obtain ⟨⟨o, rest'⟩, rfl, e⟩ := Option.map_eq_some_iff.mp h
  cases e
  exact ⟨o, rfl, rfl⟩

/-- No byte of the text means anything between single quotes. -/
def Plain (v : List UInt8) : Prop :=
  ∀ c ∈ v, c ≠ apostrophe ∧ c ≠ backslash ∧ isNewline c = false

instance : DecidablePred Plain := fun v =>
  List.decidableBAll (fun c => c ≠ apostrophe ∧ c ≠ backslash ∧ isNewline c = false) v

theorem plain_cons {c : UInt8} {v : List UInt8} :
    Plain (c :: v) ↔ (c ≠ apostrophe ∧ c ≠ backslash ∧ isNewline c = false) ∧ Plain v :=
  List.forall_mem_cons

/-- A plain text between quotes reads as itself. -/
theorem readString_plain {v : List UInt8} (hv : Plain v) (t : List UInt8) {n : Nat} (hn : v.length < n) :
    readString apostrophe n (v ++ apostrophe :: t) = some (v, t) := by
  induction v generalizing n with
  | nil =>
    obtain ⟨n, rfl⟩ := Nat.exists_eq_succ_of_ne_zero (Nat.ne_of_gt hn)
    rw [List.nil_append, readString, if_pos rfl]
  | cons c v ih =>
    obtain ⟨⟨hq, hb, hl⟩, hv⟩ := plain_cons.mp hv
    rw [List.length_cons] at hn
    obtain ⟨n, rfl⟩ := Nat.exists_eq_succ_of_ne_zero (Nat.ne_of_gt (Nat.zero_lt_of_lt hn))
    rw [List.cons_append, readString, if_neg hq, if_neg (by rw [hl]; decide), if_neg hb,
      ih hv (by omega)]
    rfl

/-- What may follow the closing quote of an element of an array: its end, or a
comma and the next element. -/
inductive Follow : List UInt8 → Prop
  | last : Follow [bracket]
  | next (t : List UInt8) : Follow (comma :: apostrophe :: t)

/-- The string that begins where a closing quote was escaped is a comma. -/
theorem readString_follow {n : Nat} {t out rest : List UInt8} (ht : Follow t)
    (h : readString apostrophe n t = some (out, rest)) : out = [comma] := by
  cases ht with
  | last =>
    rcases n with _ | _ | n
    · cases h
    · cases h
    · revert h
      rw [readString, if_neg (by decide), if_neg (by decide), if_neg (by decide), readString]
      rintro ⟨⟩
  | next t =>
    rcases n with _ | _ | n
    · cases h
    · cases h
    · rw [readString, if_neg (by decide), if_neg (by decide), if_neg (by decide), readString,
        if_pos rfl] at h
      cases h
      rfl

/-- What is read from a text between single quotes: the text, if it is plain;
or less; or, where its last byte escapes the closing quote, something that
ends with a comma. -/
theorem readString_quoted {n : Nat} {v t out rest : List UInt8} (ht : Follow t)
    (h : readString apostrophe n (v ++ apostrophe :: t) = some (out, rest)) :
    (Plain v ∧ out = v ∧ rest = t) ∨ out.length < v.length ∨
      (out.getLast? = some comma ∧ v.getLast? = some backslash) := by
  induction n generalizing v out with
  | zero => cases h
  | succ n ih =>
    cases v with
    | nil =>
      rw [List.nil_append, readString, if_pos rfl] at h
      cases h
      exact .inl ⟨by simp [Plain], rfl, rfl⟩
    | cons c v =>
      rw [List.cons_append, readString] at h
      split at h
      · cases h
        exact .inr (.inl (Nat.succ_pos _))
      rename_i hq
      split at h
      · cases h
      rename_i hl
      split at h
      · rename_i hb
        cases he : escape (v ++ apostrophe :: t) with
        | none => rw [he] at h; cases h
        | some r =>
          obtain ⟨o, s'⟩ := r
          rw [he] at h
          obtain ⟨out', h', rfl⟩ := map_fst_some h
          obtain ⟨w, hw, hne, hlen, hquote⟩ := escape_some he
          -- the escape ends before the closing quote, or takes it
          have hin : (∃ v', v = w ++ v' ∧ s' = v' ++ apostrophe :: t) ∨ v = [] ∧ s' = t := by
            rcases hquote with hquote | ⟨rfl, rfl⟩
            · exact .inl (append_of_not_mem hw hquote)
            · cases v with
              | nil => exact .inr ⟨rfl, (List.cons_eq_cons.mp hw).2.symm⟩
              | cons d v =>
                obtain ⟨rfl, rfl⟩ := List.cons_eq_cons.mp hw
                exact .inl ⟨v, rfl, rfl⟩
          rcases hin with ⟨v', rfl, rfl⟩ | ⟨rfl, rfl⟩
          · have hpos := List.length_pos_iff.mpr hne
            rcases ih h' with ⟨-, rfl, rfl⟩ | hlt | ⟨ho, hv⟩
            · refine .inr (.inl ?_)
              simp only [List.length_append, List.length_cons]
              omega
            · refine .inr (.inl ?_)
              simp only [List.length_append, List.length_cons]
              omega
            · refine .inr (.inr ⟨?_, ?_⟩)
              · rw [List.getLast?_append, ho]; rfl
              · rw [List.getLast?_cons, List.getLast?_append, hv]; rfl
          · rw [readString_follow ht h']
            exact .inr (.inr ⟨List.getLast?_concat, congrArg some hb⟩)
      · rename_i hb
        obtain ⟨out', h', rfl⟩ := map_fst_some h
        rcases ih h' with ⟨hv, rfl, rfl⟩ | hlt | ⟨ho, hv⟩
        · exact .inl ⟨plain_cons.mpr ⟨⟨hq, hb, by simpa using hl⟩, hv⟩, rfl, rfl⟩
        · exact .inr (.inl (Nat.succ_lt_succ hlt))
        · refine .inr (.inr ⟨?_, ?_⟩)
          · rw [List.getLast?_cons, ho]; rfl
          · rw [List.getLast?_cons, hv]; rfl

/-- A text between quotes is read as itself only if it is plain. -/
theorem plain_of_readString {n : Nat} {v t rest : List UInt8} (ht : Follow t)
    (h : readString apostrophe n (v ++ apostrophe :: t) = some (v, rest)) : Plain v ∧ rest = t := by
  rcases readString_quoted ht h with ⟨hv, -, rfl⟩ | hlt | ⟨ho, hv⟩
  · exact ⟨hv, rfl⟩
  · exact absurd hlt (Nat.lt_irrefl _)
  · rw [ho] at hv
    exact absurd hv (by decide)

/-! ## An array of texts between single quotes -/

theorem skipBlanks_self {c : UInt8} (hc : c ∈ [apostrophe, comma, bracket, '['.toUInt8]) (n : Nat)
    (s : List UInt8) : skipBlanks n (c :: s) = some (c :: s) := by
  cases n with
  | zero => rfl
  | succ n =>
    simp only [List.mem_cons, List.not_mem_nil, or_false] at hc
    rcases hc with rfl | rfl | rfl | rfl <;> rfl

theorem readStrings_array (s : List UInt8) :
    readStrings ('['.toUInt8 :: s) = readElements s.length s := by
  rw [readStrings, skipBlanks_self (by simp)]
  rfl

theorem readElements_string (n : Nat) (s : List UInt8) : readElements (n + 1) (apostrophe :: s) =
    (readString apostrophe s.length s).bind fun r => readNext (readElements n) r.1 r.2 := by
  rw [readElements, skipBlanks_self (by simp)]
  rfl

theorem readNext_cons {more : List UInt8 → Option (List (List UInt8))} {out s v : List UInt8}
    {outs : List (List UInt8)} (h : readNext more out s = some (v :: outs)) : out = v := by
  unfold readNext at h
  split at h
  · split at h
    · obtain ⟨_, -, e⟩ := Option.map_eq_some_iff.mp h
      exact (List.cons_eq_cons.mp e).1
    · split at h <;> cases h
      rfl
  · cases h
  · cases h

/-- The text between quotes at the head of an array is read as itself exactly
if it is plain. -/
theorem readElements_quoted {n : Nat} {v t : List UInt8} {outs : List (List UInt8)} (ht : Follow t) :
    readElements (n + 1) (apostrophe :: (v ++ apostrophe :: t)) = some (v :: outs) ↔
      Plain v ∧ readNext (readElements n) v t = some (v :: outs) := by
  rw [readElements_string]
  constructor
  · intro h
    obtain ⟨⟨out, rest⟩, hr, hnext⟩ := Option.bind_eq_some_iff.mp h
    obtain rfl := readNext_cons hnext
    obtain ⟨hv, rfl⟩ := plain_of_readString ht hr
    exact ⟨hv, hnext⟩
  · rintro ⟨hv, h⟩
    rw [readString_plain hv t (by simp only [List.length_append, List.length_cons]; omega)]
    exact h

theorem readNext_last (more : List UInt8 → Option (List (List UInt8))) (v : List UInt8) :
    readNext more v [bracket] = some [v] := rfl

theorem readNext_comma (more : List UInt8 → Option (List (List UInt8))) (v s : List UInt8) :
    readNext more v (comma :: s) = (more s).map (v :: ·) := by
  rw [readNext, skipBlanks_self (by simp)]
  rfl

end ZenohFlatC.Json5
