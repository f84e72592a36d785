import Mathlib.Data.List.Basic

/-!
# Headers with an include guard

The C preprocessor on the directives of a header, one a line: `#ifndef`,
`#define` and `#endif`. `include` is what a `#include` makes of the macros that
are defined.

`include_first`, `include_again`: a header with an include guard (`Guarded`)
defines its macros where it is included first, and nothing later.
-/

namespace ZenohFlatC

/-- What a line of a header is to the preprocessor. -/
inductive Directive where
  | ifndef (name : List Char)
  | define (name : List Char)
  | endif
  | text
  deriving DecidableEq

namespace Directive

/-- The directive of a line. -/
def ofLine (line : List Char) : Directive :=
  match line.splitOn ' ' with
  | [] => text
  | word :: words =>
    if word = "#ifndef".toList then ifndef (words.headD [])
    else if word = "#define".toList then define (words.headD [])
    else if word = "#endif".toList then endif
    else text

/-- The macro that a line defines. -/
def defines : Directive → Option (List Char)
  | define name => some name
  | _ => none

/-- A line that begins or ends no group. -/
def Plain : Directive → Prop
  | define _ | text => True
  | _ => False

instance : DecidablePred Plain
  | define _ | text => isTrue trivial
  | ifndef _ | endif => isFalse id

end Directive

/-- The preprocessor: the macros that are defined, and how many groups around a
line are skipped. -/
structure Cpp where
  macros : List (List Char)
  skipped : Nat

namespace Cpp

def step (s : Cpp) : Directive → Cpp
  | .ifndef name => if s.skipped = 0 ∧ name ∉ s.macros then s else { s with skipped := s.skipped + 1 }
  | .define name => if s.skipped = 0 then { s with macros := name :: s.macros } else s
  | .endif => { s with skipped := s.skipped - 1 }
  | .text => s

theorem foldl_skipped {body : List Directive} (h : ∀ d ∈ body, d.Plain) (macros : List (List Char)) (n : Nat) :
    body.foldl step ⟨macros, n + 1⟩ = ⟨macros, n + 1⟩ := by
  induction body with
  | nil => rfl
  | cons d body ih =>
    obtain ⟨hd, hbody⟩ := List.forall_mem_cons.mp h
    match d, hd with
    | .define _, _ | .text, _ => exact ih hbody

theorem foldl_taken {body : List Directive} (h : ∀ d ∈ body, d.Plain) (macros : List (List Char)) :
    body.foldl step ⟨macros, 0⟩ = ⟨(body.filterMap Directive.defines).reverse ++ macros, 0⟩ := by
  induction body generalizing macros with
  | nil => rfl
  | cons d body ih =>
    obtain ⟨hd, hbody⟩ := List.forall_mem_cons.mp h
    match d, hd with
    | .define name, _ =>
      have hcons : (Directive.define name :: body).filterMap Directive.defines =
        name :: body.filterMap Directive.defines := rfl
      show body.foldl step ⟨name :: macros, 0⟩ = _
      rw [ih hbody, hcons, List.reverse_cons, List.append_assoc]
      rfl
    | .text, _ => exact ih hbody macros

end Cpp

/-- The directives of a header. -/
def directives (header : String) : List Directive := (header.toList.splitOn '\n').map Directive.ofLine

/-- The macros after `#include` of a header. -/
def includeHeader (header : String) (macros : List (List Char)) : List (List Char) :=
  ((directives header).foldl Cpp.step ⟨macros, 0⟩).macros

/-- A header with the guard `guard`, around lines without groups. -/
structure Guarded (header : String) (guard : List Char) (body : List Directive) : Prop where
  lines : directives header = .text :: .ifndef guard :: .define guard :: body ++ [.endif, .text]
  plain : ∀ d ∈ body, d.Plain

namespace Guarded

variable {header : String} {guard : List Char} {body : List Directive} {macros : List (List Char)}

theorem include_first (h : Guarded header guard body) (hguard : guard ∉ macros) :
    includeHeader header macros = (body.filterMap Directive.defines).reverse ++ guard :: macros := by
  rw [includeHeader, h.lines, List.foldl_append]
  show (List.foldl Cpp.step
    (body.foldl Cpp.step ((Cpp.step ⟨macros, 0⟩ (.ifndef guard)).step (.define guard))) _).macros = _
  rw [Cpp.step, if_pos ⟨rfl, hguard⟩]
  show (List.foldl Cpp.step (body.foldl Cpp.step ⟨guard :: macros, 0⟩) _).macros = _
  rw [Cpp.foldl_taken h.plain]
  rfl

theorem include_again (h : Guarded header guard body) (hguard : guard ∈ macros) :
    includeHeader header macros = macros := by
  rw [includeHeader, h.lines, List.foldl_append]
  show (List.foldl Cpp.step
    (body.foldl Cpp.step ((Cpp.step ⟨macros, 0⟩ (.ifndef guard)).step (.define guard))) _).macros = _
  rw [Cpp.step, if_neg fun hnot => hnot.2 hguard]
  show (List.foldl Cpp.step (body.foldl Cpp.step ⟨macros, 0 + 1⟩) _).macros = _
  rw [Cpp.foldl_skipped h.plain]
  rfl

end Guarded

end ZenohFlatC
