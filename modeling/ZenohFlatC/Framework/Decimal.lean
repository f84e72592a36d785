import ZenohFlatC.Framework.Atoi

/-!
# Numbers in decimal

What `%d` writes (`CStr.signed`), from the digits of core's `Nat.toDigits`.
`atoi` reads every `int` back from it (`CStr.atoi_signed`).
-/

namespace ZenohFlatC

theorem toNat_of_isDigit {c : Char} (h : c.isDigit = true) : 48 ≤ c.toNat ∧ c.toNat ≤ 57 :=
  Char.isDigit_iff_toNat.mp h

/-- A digit has the same number as a byte. -/
theorem toNat_toUInt8_of_isDigit {c : Char} (h : c.isDigit = true) : c.toUInt8.toNat = c.toNat := by
  have hbounds := toNat_of_isDigit h
  have hsmall : c.toNat < 2 ^ 8 := by omega
  exact Nat.mod_eq_of_lt hsmall

/-- The decimal digits of a number. -/
def decimalDigits (n : Nat) : List UInt8 := (Nat.toDigits 10 n).map Char.toUInt8

theorem isDigit_of_mem_decimalDigits {n : Nat} {d : UInt8} (h : d ∈ decimalDigits n) : isDigit d = true := by
  obtain ⟨c, hc, rfl⟩ := List.mem_map.mp h
  have hdigit := Nat.isDigit_of_mem_toDigits (by decide) (by decide) hc
  rw [isDigit, Bool.and_eq_true, decide_eq_true_eq, decide_eq_true_eq, UInt8.le_iff_toNat_le,
    UInt8.le_iff_toNat_le, toNat_toUInt8_of_isDigit hdigit]
  exact toNat_of_isDigit hdigit

theorem decimalDigits_ne_nil (n : Nat) : decimalDigits n ≠ [] := by
  simp [decimalDigits, Nat.toDigits_ne_nil]

theorem digitsValue_decimalDigits (n : Nat) : digitsValue (decimalDigits n) = n := by
  have hstep : ∀ (sofar : Nat), ∀ c ∈ Nat.toDigits 10 n,
      10 * sofar + (c.toUInt8.toNat - 48) = 10 * sofar + (c.toNat - '0'.toNat) := by
    intro sofar c hc
    rw [toNat_toUInt8_of_isDigit (Nat.isDigit_of_mem_toDigits (by decide) (by decide) hc)]
    rfl
  rw [digitsValue, decimalDigits, List.foldl_map, List.foldl_ext _ _ _ hstep, ← Nat.ofDigitChars_eq_foldl,
    Nat.ofDigitChars_ten_toDigits]

theorem takeWhile_decimalDigits (n : Nat) : (decimalDigits n).takeWhile isDigit = decimalDigits n :=
  List.takeWhile_eq_self_iff.mpr fun _ => isDigit_of_mem_decimalDigits

namespace CStr

/-- `%u` of a number. -/
def decimal (n : Nat) : CStr :=
  ⟨decimalDigits n, fun h => absurd (isDigit_of_mem_decimalDigits h) (by decide)⟩

/-- `%d` of a number. -/
def signed (i : Int) : CStr := if i < 0 then lit "-" ++ decimal i.natAbs else decimal i.natAbs

/-- `s` at the right of a field of this width. -/
def padded (s : CStr) (width : Nat) : CStr := ⟨List.replicate (width - s.strlen) 32 ++ s.bytes, by
  rw [List.mem_append, not_or]
  exact ⟨fun h => absurd (List.eq_of_mem_replicate h) (by decide), s.nulFree⟩⟩

theorem decimal_decimal (n : Nat) : (decimal n).Decimal n :=
  ⟨decimalDigits_ne_nil n, fun _ => isDigit_of_mem_decimalDigits, digitsValue_decimalDigits n⟩

theorem strtol_signed (i : Int) : (signed i).strtol = clampLong i := by
  unfold signed
  split
  · rename_i hneg
    -- a minus sign is no blank
    show strtolFrom (minus :: decimalDigits i.natAbs) = clampLong i
    rw [strtolFrom, if_pos rfl, takeWhile_decimalDigits, digitsValue_decimalDigits]
    congr 1
    omega
  · rename_i hpos
    rw [(decimal_decimal i.natAbs).strtol, clampLong]
    omega

/-- `atoi` reads back the `int` that `%d` writes. -/
theorem atoi_signed (i : Int32) : (signed i.toInt).atoi = i := by
  have hlt := i.toInt_lt
  have hle := i.le_toInt
  have hclamp : clampLong i.toInt = i.toInt := by
    rw [clampLong]
    omega
  rw [atoi, strtol_signed, hclamp, Int32.ofInt_toInt]

theorem strlen_decimal_le_iff {n k : Nat} (hk : 0 < k) : (decimal n).strlen ≤ k ↔ n < 10 ^ k := by
  show (decimalDigits n).length ≤ k ↔ _
  rw [decimalDigits, List.length_map, Nat.length_toDigits_le_iff (by decide) hk]

theorem strlen_padded (s : CStr) (width : Nat) : (s.padded width).strlen = max width s.strlen := by
  show (List.replicate _ _ ++ s.bytes).length = _
  rw [List.length_append, List.length_replicate]
  show width - s.strlen + s.strlen = _
  omega

/-- `strtol` reads back a number in a field, in front of a byte that is no digit. -/
theorem strtol_padded (n width : Nat) {rest : CStr} (hrest : ∀ c ∈ rest.bytes.head?, isDigit c = false) :
    ((decimal n).padded width ++ rest).strtol = min (n : Int) (2 ^ 63 - 1) := by
  have hblanks : ∀ c ∈ List.replicate (width - (decimal n).strlen) (32 : UInt8), isSpace c = true := by
    intro c hc
    obtain rfl := List.eq_of_mem_replicate hc
    decide
  have hstop : rest.bytes.takeWhile isDigit = [] := by
    match hbytes : rest.bytes with
    | [] => rfl
    | c :: _ =>
      have hc := hrest c (by rw [hbytes]; rfl)
      rw [List.takeWhile_cons_of_neg (by rw [hc]; exact Bool.false_ne_true)]
  show strtolFrom ((List.replicate _ 32 ++ decimalDigits n ++ rest.bytes).dropWhile isSpace) = _
  rw [List.append_assoc, List.dropWhile_append_of_pos hblanks]
  match hdigits : decimalDigits n, decimalDigits_ne_nil n with
  | d :: ds, _ =>
    have hall : ∀ c ∈ d :: ds, isDigit c = true := fun c hc => isDigit_of_mem_decimalDigits (hdigits ▸ hc)
    obtain ⟨hminus, hplus⟩ := ne_sign_of_isDigit (hall d List.mem_cons_self)
    have hspace := isSpace_of_isDigit (hall d List.mem_cons_self)
    rw [List.cons_append, List.dropWhile_cons_of_neg (by rw [hspace]; exact Bool.false_ne_true), strtolFrom,
      if_neg hminus, if_neg hplus, ← List.cons_append, List.takeWhile_append_of_pos hall, hstop, List.append_nil,
      ← hdigits, digitsValue_decimalDigits, clampLong]
    omega

end CStr

end ZenohFlatC
