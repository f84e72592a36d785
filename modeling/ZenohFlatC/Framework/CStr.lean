import Mathlib.Data.List.Basic
import Mathlib.Data.List.TakeWhile

/-!
# C strings and the buffers that hold them

A C string (`CStr`) is the bytes before its terminator, so none of them is
NUL; `charAt` reads it as C does, terminator included. The `string.h`
functions are stated on it: `strlen`, `strncmp` (only whether it returns 0),
`strchr`. A buffer (`Buffer`) is a block from the allocator that holds a C
string; its field `fits` says that the terminator is inside the block, and
`Buffer.snprintf`, which cuts what does not fit, keeps it. What a write needs
of its buffer is recorded apart (`Access`), so that a program's writes can be
stated to be in bounds.
-/

namespace ZenohFlatC

/-- The bytes of an ASCII literal. -/
def ascii (s : String) : List UInt8 := s.toList.map Char.toUInt8

/-- A part without `c` ends before the `c`. -/
theorem append_of_not_mem {α : Type} {c : α} {v t w s : List α} (h : v ++ c :: t = w ++ s)
    (hw : c ∉ w) : ∃ v', v = w ++ v' ∧ s = v' ++ c :: t := by
  rcases List.append_eq_append_iff.mp h with ⟨a, rfl, ha⟩ | ⟨v', rfl, rfl⟩
  · cases a with
    | nil => exact ⟨[], by simp, ha.symm⟩
    | cons x a =>
      obtain ⟨rfl, -⟩ := List.cons_eq_cons.mp ha
      simp at hw
  · exact ⟨v', rfl, rfl⟩

/-- A C string: the bytes before the terminator. -/
@[ext]
structure CStr where
  bytes : List UInt8
  nulFree : 0 ∉ bytes
  deriving DecidableEq

namespace CStr

/-- A string literal, up to its first NUL. -/
def lit (s : String) : CStr :=
  ⟨(ascii s).takeWhile (· ≠ 0), fun h => by simpa using List.mem_takeWhile_imp h⟩

instance : Append CStr := ⟨fun s t => ⟨s.bytes ++ t.bytes, by simp [s.nulFree, t.nulFree]⟩⟩

@[simp] theorem bytes_append (s t : CStr) : (s ++ t).bytes = s.bytes ++ t.bytes := rfl

theorem append_assoc (s t u : CStr) : s ++ t ++ u = s ++ (t ++ u) := by
  ext1; simp

/-- `strlen(s)`. -/
def strlen (s : CStr) : Nat := s.bytes.length

/-- `s[i]`, the terminator included. -/
def charAt (s : CStr) (i : Nat) : UInt8 := s.bytes.getD i 0

/-- `s + n`: the string from byte `n` on. -/
def drop (s : CStr) (n : Nat) : CStr := ⟨s.bytes.drop n, fun h => s.nulFree (List.mem_of_mem_drop h)⟩

/-- The string cut at byte `n` (`s[n] = 0`). -/
def take (s : CStr) (n : Nat) : CStr := ⟨s.bytes.take n, fun h => s.nulFree (List.mem_of_mem_take h)⟩

/-- `strncmp(s, t, n) == 0`. -/
def strncmpEq (s t : CStr) (n : Nat) : Bool := s.bytes.take n == t.bytes.take n

/-- The index of the first `c`, if the string has one. -/
def indexOf? (s : CStr) (c : UInt8) : Option Nat := s.bytes.findIdx? (· == c)

/-- `strchr(s, c)`, for `c` other than the terminator. -/
def strchr (s : CStr) (c : UInt8) : Option CStr := (s.indexOf? c).map s.drop

@[simp] theorem strlen_append (s t : CStr) : (s ++ t).strlen = s.strlen + t.strlen :=
  List.length_append

@[simp] theorem bytes_drop (s : CStr) (n : Nat) : (s.drop n).bytes = s.bytes.drop n := rfl

@[simp] theorem bytes_take (s : CStr) (n : Nat) : (s.take n).bytes = s.bytes.take n := rfl

theorem charAt_eq_zero {s : CStr} {i : Nat} : s.charAt i = 0 ↔ s.strlen ≤ i := by
  simp only [charAt, strlen, List.getD_eq_getElem?_getD]
  constructor
  · intro h
    by_contra hi
    rw [List.getElem?_eq_getElem (by omega), Option.getD_some] at h
    exact s.nulFree (h ▸ List.getElem_mem _)
  · intro h
    rw [List.getElem?_eq_none h, Option.getD_none]

/-- A string equals another if it reads the same, terminator included. -/
theorem strncmpEq_iff {s t : CStr} : s.strncmpEq t t.strlen = true ↔ ∃ u : CStr, s = t ++ u := by
  simp only [strncmpEq, strlen, beq_iff_eq, List.take_length]
  constructor
  · intro h
    refine ⟨s.drop t.strlen, CStr.ext ?_⟩
    rw [bytes_append, bytes_drop, strlen, ← h, List.length_take]
    have hle := congrArg List.length h
    rw [List.length_take] at hle
    rw [Nat.min_eq_left (by omega), List.take_append_drop]
  · rintro ⟨u, rfl⟩
    rw [bytes_append, List.take_left]

/-- `strchr` finds the first `c` of a string. -/
theorem strchr_eq_drop {x y s : CStr} {c : UInt8} (hx : c ∉ x.bytes)
    (hs : s.bytes = x.bytes ++ c :: y.bytes) : s.strchr c = some (s.drop x.strlen) := by
  have hnone : x.bytes.findIdx? (· == c) = none :=
    List.findIdx?_eq_none_iff.mpr fun b hb => beq_eq_false_iff_ne.mpr fun e => hx (e ▸ hb)
  have hi : s.indexOf? c = some x.strlen := by
    rw [indexOf?, hs, List.findIdx?_append, hnone, List.findIdx?_cons]
    simp [strlen]
  rw [strchr, hi, Option.map_some]

/-- `strchr` at the first `c` of a string. -/
theorem strchr_append_cons {x y s : CStr} {c : UInt8} (hx : c ∉ x.bytes)
    (hs : s.bytes = x.bytes ++ c :: y.bytes) : ∃ p, s.strchr c = some p ∧ p.drop 1 = y := by
  refine ⟨s.drop x.strlen, strchr_eq_drop hx hs, CStr.ext ?_⟩
  rw [bytes_drop, bytes_drop, hs, strlen, List.drop_left, List.drop_one, List.tail_cons]

theorem strchr_eq_none {s : CStr} {c : UInt8} : s.strchr c = none ↔ c ∉ s.bytes := by
  rw [strchr, Option.map_eq_none_iff, indexOf?, List.findIdx?_eq_none_iff]
  simp only [beq_eq_false_iff_ne, ne_eq]
  exact ⟨fun h hc => h c hc rfl, fun h b hb e => h (e ▸ hb)⟩

/-- What `strchr` finds splits the string at its first `c`. -/
theorem strchr_eq_some {s p : CStr} {c : UInt8} (h : s.strchr c = some p) :
    ∃ x : CStr, c ∉ x.bytes ∧ s.bytes = x.bytes ++ c :: (p.drop 1).bytes := by
  rw [strchr, Option.map_eq_some_iff] at h
  obtain ⟨i, hi, rfl⟩ := h
  rw [indexOf?, List.findIdx?_eq_some_iff_getElem] at hi
  obtain ⟨hlt, hc, hmin⟩ := hi
  refine ⟨s.take i, fun hm => ?_, ?_⟩
  · rw [bytes_take, List.mem_take_iff_getElem] at hm
    obtain ⟨j, hj, e⟩ := hm
    exact absurd (beq_iff_eq.mpr e) (hmin j (by omega))
  · rw [bytes_take, bytes_drop, bytes_drop, List.drop_drop, ← beq_iff_eq.mp hc,
      ← List.drop_eq_getElem_cons hlt, List.take_append_drop]

end CStr

/-! ## Buffers -/

/-- A block of `cap` bytes that holds a C string. -/
structure Buffer where
  cap : Nat
  str : CStr
  fits : str.strlen < cap

/-- A write to a buffer, with what it needs of it. -/
inductive Access where
  /-- `snprintf` with room for `size` bytes and an output of `len`. -/
  | snprintf (size len : Nat)
  /-- A store to index `idx` of an array of `cap` elements. -/
  | store (cap idx : Nat)
  deriving DecidableEq

/-- The write is inside its buffer, and `snprintf` cuts nothing: its output
and the terminator fit. -/
def Access.InBounds : Access → Prop
  | .snprintf size len => len < size
  | .store cap idx => idx < cap

instance : DecidablePred Access.InBounds
  | .snprintf size len => inferInstanceAs (Decidable (len < size))
  | .store cap idx => inferInstanceAs (Decidable (idx < cap))

namespace Buffer

/-- `calloc(1, 1)`. -/
def calloc1 : Buffer := ⟨1, .lit "", by decide⟩

/-- `malloc(size)` and `snprintf(buf, size, …)` of an output `out`: at most
`size - 1` bytes of it are written, and the terminator. That `snprintf` fails on
an output of more than `INT_MAX` bytes is left out. -/
def snprintf (size : Nat) (out : CStr) (h : 0 < size) : Buffer :=
  ⟨size, out.take (size - 1), by simp only [CStr.strlen, CStr.bytes_take, List.length_take]; omega⟩

/-- `buf[i] = '\0'`. -/
def terminate (b : Buffer) (i : Nat) : Buffer :=
  ⟨b.cap, b.str.take i, by
    have := b.fits
    simp only [CStr.strlen, CStr.bytes_take, List.length_take] at this ⊢
    omega⟩

/-- With room for it, `snprintf` writes its whole output. -/
theorem snprintf_str {size : Nat} {out : CStr} (h : out.strlen < size) :
    (snprintf size out (Nat.zero_lt_of_lt h)).str = out := by
  ext1
  exact List.take_of_length_le (by simp only [CStr.strlen] at h; omega)

end Buffer

end ZenohFlatC
