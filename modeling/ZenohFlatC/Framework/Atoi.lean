import Mathlib.Algebra.Group.Int.Defs
import Mathlib.Algebra.Group.Nat.Defs
import Mathlib.Data.List.TakeWhile
import ZenohFlatC.Framework.CStr

/-!
# `atoi`

`strtol` reads blanks, a sign and the longest row of decimal digits, which may
be empty, and stops at the ends of `long`; `atoi` is the low 32 bits of it.
Conversions of an `int` to wider and unsigned types are stated on integers
(`toNat_toUInt64`, `toNat_toUInt32`). Together they say which decimal numerals
(`Decimal`) survive: `toInt_atoi_iff`, `toUInt64_iff`, `toUInt32_iff`.
-/

namespace ZenohFlatC

/-- `isspace(c)` -/
def isSpace (c : UInt8) : Bool := c = 32 || (9 ≤ c && c ≤ 13)

/-- `isdigit(c)` -/
def isDigit (c : UInt8) : Bool := 48 ≤ c && c ≤ 57

/-- `'+'` -/
def plus : UInt8 := '+'.toUInt8

/-- `'-'` -/
def minus : UInt8 := '-'.toUInt8

/-- The number that decimal digits write. -/
def digitsValue (ds : List UInt8) : Nat := ds.foldl (fun n d => 10 * n + (d.toNat - 48)) 0

/-- The nearest `long`. -/
def clampLong (v : Int) : Int := max (-2 ^ 63) (min v (2 ^ 63 - 1))

/-- `strtol`, behind the blanks. -/
def strtolFrom : List UInt8 → Int
  | [] => 0
  | c :: rest =>
    if c = minus then clampLong (-digitsValue (rest.takeWhile isDigit))
    else if c = plus then clampLong (digitsValue (rest.takeWhile isDigit))
    else clampLong (digitsValue ((c :: rest).takeWhile isDigit))

namespace CStr

/-- `strtol(s, NULL, 10)` -/
def strtol (s : CStr) : Int := strtolFrom (s.bytes.dropWhile isSpace)

/-- `atoi(s)` -/
def atoi (s : CStr) : Int32 := Int32.ofInt s.strtol

/-- `s` is the decimal numeral of `v`. -/
structure Decimal (s : CStr) (v : Nat) : Prop where
  nonempty : s.bytes ≠ []
  digits : ∀ c ∈ s.bytes, isDigit c = true
  value : digitsValue s.bytes = v

end CStr

theorem isDigit_bounds {c : UInt8} (h : isDigit c = true) : 48 ≤ c.toNat ∧ c.toNat ≤ 57 := by
  simp only [isDigit, Bool.and_eq_true, decide_eq_true_eq, UInt8.le_iff_toNat_le] at h
  exact h

theorem isSpace_of_isDigit {c : UInt8} (h : isDigit c = true) : isSpace c = false := by
  have hc := isDigit_bounds h
  have hspace : c ≠ 32 := by
    rintro rfl
    exact absurd hc.1 (by decide)
  have hhigh : ¬c ≤ 13 := by
    rw [UInt8.le_iff_toNat_le]
    have hthirteen : (13 : UInt8).toNat = 13 := rfl
    omega
  simp [isSpace, hspace, hhigh]

theorem ne_sign_of_isDigit {c : UInt8} (h : isDigit c = true) : c ≠ minus ∧ c ≠ plus := by
  have hc := isDigit_bounds h
  refine ⟨?_, ?_⟩
  · rintro rfl
    exact absurd hc.1 (by decide)
  · rintro rfl
    exact absurd hc.1 (by decide)

/-- `strtol` of digits. -/
theorem strtolFrom_digits {ds : List UInt8} (hne : ds ≠ []) (h : ∀ c ∈ ds, isDigit c = true) :
    strtolFrom ds = clampLong (digitsValue ds) := by
  match ds, hne, h with
  | c :: rest, _, h =>
    obtain ⟨hminus, hplus⟩ := ne_sign_of_isDigit (h c List.mem_cons_self)
    rw [strtolFrom, if_neg hminus, if_neg hplus, List.takeWhile_eq_self_iff.mpr h]

theorem dropWhile_digits {ds : List UInt8} (h : ∀ c ∈ ds, isDigit c = true) : ds.dropWhile isSpace = ds := by
  match ds, h with
  | [], _ => rfl
  | c :: rest, h =>
    have hspace := isSpace_of_isDigit (h c List.mem_cons_self)
    rw [List.dropWhile_cons_of_neg (by rw [hspace]; exact Bool.false_ne_true)]

namespace CStr.Decimal

variable {s : CStr} {v : Nat}

theorem all (h : s.Decimal v) : s.bytes.all isDigit = true := List.all_eq_true.mpr h.digits

theorem of_all (hne : s.bytes ≠ []) (h : s.bytes.all isDigit = true) (hv : digitsValue s.bytes = v) :
    s.Decimal v := ⟨hne, List.all_eq_true.mp h, hv⟩

theorem strtol (h : s.Decimal v) : s.strtol = min (v : Int) (2 ^ 63 - 1) := by
  rw [CStr.strtol, dropWhile_digits h.digits, strtolFrom_digits h.nonempty h.digits, h.value, clampLong]
  omega

theorem toInt_atoi (h : s.Decimal v) : s.atoi.toInt = (min (v : Int) (2 ^ 63 - 1)).bmod (2 ^ 32) := by
  rw [atoi, Int32.toInt_ofInt, h.strtol]
  rfl

end CStr.Decimal

/-! ## Conversions -/

/-- `int` to `unsigned long` is modulo `2^64`. -/
theorem toNat_toUInt64 (i : Int32) : (i.toInt64.toUInt64.toNat : Int) = i.toInt % 2 ^ 64 := by
  have hword : i.toInt64.toInt = (i.toInt64.toUInt64.toNat : Int).bmod (2 ^ 64) := BitVec.toInt_eq_toNat_bmod ..
  have hlt := i.toInt64.toUInt64.toNat_lt
  rw [← Int32.toInt_toInt64, hword]
  have hmod := Int.bmod_emod (x := i.toInt64.toUInt64.toNat) (m := 2 ^ 64)
  omega

/-- `int` to `unsigned int` is modulo `2^32`. -/
theorem toNat_toUInt32 (i : Int32) : (i.toUInt32.toNat : Int) = i.toInt % 2 ^ 32 := by
  have hword : i.toInt = (i.toUInt32.toNat : Int).bmod (2 ^ 32) := BitVec.toInt_eq_toNat_bmod ..
  have hlt := i.toUInt32.toNat_lt
  rw [hword]
  have hmod := Int.bmod_emod (x := i.toUInt32.toNat) (m := 2 ^ 32)
  omega

/-- `uint64_t` to `int64_t`, where it fits. -/
theorem toInt_toInt64 {u : UInt64} (h : u.toNat < 2 ^ 63) : u.toInt64.toInt = u.toNat := by
  have hword : u.toInt64.toInt = (u.toNat : Int).bmod (2 ^ 64) := BitVec.toInt_eq_toNat_bmod ..
  rw [hword, Int.bmod_eq_of_le]
  · omega
  · omega

/-! ## What is stored -/

namespace CStr.Decimal

variable {s : CStr} {v : Nat}

/-- The low 32 bits of a number, as an `int`. -/
theorem bmod_eq (x : Int) :
    x.bmod (2 ^ 32) = if x % 2 ^ 32 < 2 ^ 31 then x % 2 ^ 32 else x % 2 ^ 32 - 2 ^ 32 := by
  rw [Int.bmod_def]
  rfl

/-- `atoi` of a numeral, stored in 64 bits without a sign. From `2^63` on it is
-1, which is the one number above an `int` that is stored as it is. -/
theorem toUInt64_iff (h : s.Decimal v) : s.atoi.toInt64.toUInt64.toNat = v ↔ v < 2 ^ 31 ∨ v = 2 ^ 64 - 1 := by
  have hstored := toNat_toUInt64 s.atoi
  rw [h.toInt_atoi, bmod_eq] at hstored
  split at hstored
  · omega
  · omega

/-- `atoi` of a numeral, stored in 32 bits without a sign. -/
theorem toUInt32_iff (h : s.Decimal v) : s.atoi.toUInt32.toNat = v ↔ v < 2 ^ 32 := by
  have hstored := toNat_toUInt32 s.atoi
  rw [h.toInt_atoi, bmod_eq] at hstored
  split at hstored
  · omega
  · omega

theorem toInt_atoi_iff (h : s.Decimal v) : s.atoi.toInt = v ↔ v < 2 ^ 31 := by
  have hvalue := h.toInt_atoi
  rw [bmod_eq] at hvalue
  split at hvalue
  · omega
  · omega

/-- A number that is right for some numerals is what `s` says if `s` is one of
them. -/
theorem iff_exists {n : Nat} {P : Nat → Prop} (h : ∀ v, s.Decimal v → (n = v ↔ P v)) :
    s.Decimal n ↔ ∃ v, s.Decimal v ∧ P v := by
  refine ⟨fun hn => ⟨n, hn, (h n hn).mp rfl⟩, fun ⟨v, hv, hP⟩ => ?_⟩
  rw [(h v hv).mpr hP]
  exact hv

end CStr.Decimal

end ZenohFlatC
