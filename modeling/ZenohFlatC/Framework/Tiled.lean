import Mathlib.Data.List.Basic

/-!
# Lists of cells tiled by blocks

A list of cells, each empty (`none`) or full, is tiled by blocks (`Tiled`) if
its full cells are, left to right, the cells of the blocks (`render`), each
block in adjacent cells, with empty cells between blocks only. It is the state
of a sequence from which whole blocks are taken by emptying their cells: the
blocks left tile it. Taking a block out (`Tiled.remove`) and putting it back
where the cells were emptied (`Tiled.insert`) keep the tiling.
-/

namespace ZenohFlatC

variable {α β : Type}

/-- The cells are the blocks' cells, in order, with empty cells between blocks. -/
inductive Tiled (render : β → List α) : List (Option α) → List β → Prop
  | nil : Tiled render [] []
  | gap {S : List (Option α)} {bs : List β} : Tiled render S bs → Tiled render (none :: S) bs
  | tile {S : List (Option α)} {bs : List β} (b : β) : Tiled render S bs →
      Tiled render ((render b).map some ++ S) (b :: bs)

namespace Tiled

variable {render : β → List α}

theorem append {S T : List (Option α)} {bs cs : List β} (h : Tiled render S bs)
    (k : Tiled render T cs) : Tiled render (S ++ T) (bs ++ cs) := by
  induction h with
  | nil => exact k
  | gap _ ih => exact .gap ih
  | tile b _ ih => rw [List.append_assoc]; exact .tile b ih

/-- Blocks side by side. -/
theorem of_blocks (bs : List β) : Tiled render ((bs.flatMap render).map some) bs := by
  induction bs with
  | nil => exact .nil
  | cons b bs ih => rw [List.flatMap_cons, List.map_append]; exact .tile b ih

/-- Only full cells: the blocks are side by side. -/
theorem eq_blocks {l : List α} {bs : List β} (h : Tiled render (l.map some) bs) :
    l = bs.flatMap render := by
  generalize hS : l.map some = S at h
  induction h generalizing l with
  | nil => simpa using hS
  | gap _ _ => cases l <;> simp at hS
  | @tile S bs b _ ih =>
    obtain ⟨l₁, l₂, rfl, h₁, h₂⟩ := List.map_eq_append_iff.mp hS
    rw [List.flatMap_cons, ← ih h₂, (List.map_inj_right fun _ _ => Option.some.inj).mp h₁]

/-- Only empty cells: no blocks. -/
theorem of_empty {S : List (Option α)} (h : ∀ x ∈ S, x = none) : Tiled render S [] := by
  induction S with
  | nil => exact .nil
  | cons x S ih =>
    rw [h x List.mem_cons_self]
    exact .gap (ih fun y hy => h y (List.mem_cons_of_mem _ hy))

/-- The full cells are those of the blocks. -/
theorem mem_iff {S : List (Option α)} {bs : List β} (h : Tiled render S bs) {a : α} :
    some a ∈ S ↔ ∃ b ∈ bs, a ∈ render b := by
  induction h with
  | nil => simp
  | gap _ ih => simpa using ih
  | tile b _ ih => simp [ih]

/-- Every block is in cells of its own. -/
theorem length_le {S : List (Option α)} {bs : List β} (h : Tiled render S bs)
    (hne : ∀ b, render b ≠ []) : bs.length ≤ S.length := by
  induction h with
  | nil => simp
  | gap _ ih => simp only [List.length_cons]; omega
  | tile b _ ih =>
    have := List.length_pos_iff.mpr (hne b)
    simp only [List.length_append, List.length_map, List.length_cons]
    omega

/-- The cells of a block, and those before and after it. -/
theorem split {S : List (Option α)} {bs cs : List β} {b : β} (h : Tiled render S (bs ++ b :: cs)) :
    ∃ S₁ S₂, S = S₁ ++ ((render b).map some ++ S₂) ∧ Tiled render S₁ bs ∧ Tiled render S₂ cs := by
  generalize hl : bs ++ b :: cs = l at h
  induction h generalizing bs with
  | nil => simp at hl
  | gap _ ih =>
    obtain ⟨S₁, S₂, rfl, h₁, h₂⟩ := ih hl
    exact ⟨none :: S₁, S₂, rfl, .gap h₁, h₂⟩
  | @tile S l d h ih =>
    cases bs with
    | nil =>
      obtain ⟨rfl, rfl⟩ := List.cons_eq_cons.mp hl
      exact ⟨[], S, rfl, .nil, h⟩
    | cons d' bs =>
      obtain ⟨rfl, hl'⟩ := List.cons_eq_cons.mp hl
      obtain ⟨S₁, S₂, rfl, h₁, h₂⟩ := ih hl'
      exact ⟨(render d').map some ++ S₁, S₂, by rw [List.append_assoc], .tile d' h₁, h₂⟩

/-- Emptying the cells of a block takes it out. -/
theorem remove {S₁ S₂ : List (Option α)} {bs cs : List β} (h₁ : Tiled render S₁ bs)
    (h₂ : Tiled render S₂ cs) (n : Nat) :
    Tiled render (S₁ ++ (List.replicate n none ++ S₂)) (bs ++ cs) := by
  refine h₁.append ?_
  induction n with
  | zero => exact h₂
  | succ n ih => exact .gap ih

/-- A tiling splits at an empty cell. -/
theorem split_none {S T : List (Option α)} {bs : List β} (h : Tiled render (S ++ none :: T) bs) :
    ∃ bs₁ bs₂, bs = bs₁ ++ bs₂ ∧ Tiled render S bs₁ ∧ Tiled render T bs₂ := by
  generalize hS : S ++ none :: T = U at h
  induction h generalizing S with
  | nil => simp at hS
  | @gap U bs h ih =>
    cases S with
    | nil =>
      obtain ⟨-, rfl⟩ := List.cons_eq_cons.mp hS
      exact ⟨[], bs, rfl, .nil, h⟩
    | cons x S =>
      obtain ⟨rfl, hS'⟩ := List.cons_eq_cons.mp hS
      obtain ⟨bs₁, bs₂, rfl, h₁, h₂⟩ := ih hS'
      exact ⟨bs₁, bs₂, rfl, .gap h₁, h₂⟩
  | @tile U bs b h ih =>
    rcases List.append_eq_append_iff.mp hS with ⟨V, hb, hU⟩ | ⟨V, rfl, hU⟩
    · -- the empty cell would be one of the block's
      obtain ⟨_, l, -, -, hl⟩ := List.map_eq_append_iff.mp hb
      cases V with
      | nil =>
        obtain ⟨bs₁, bs₂, rfl, h₁, h₂⟩ := ih (S := []) hU
        refine ⟨b :: bs₁, bs₂, rfl, ?_, h₂⟩
        rw [List.append_nil] at hb
        rw [← hb, ← List.append_nil (List.map _ _)]
        exact .tile b h₁
      | cons x V =>
        obtain ⟨rfl, -⟩ := List.cons_eq_cons.mp hU
        cases l <;> simp at hl
    · obtain ⟨bs₁, bs₂, rfl, h₁, h₂⟩ := ih hU.symm
      exact ⟨b :: bs₁, bs₂, rfl, .tile b h₁, h₂⟩

/-- Emptied cells, filled with a block again. -/
theorem insert {S₁ S₂ : List (Option α)} {bs : List β} (b : β) {n : Nat} (hn : 0 < n)
    (h : Tiled render (S₁ ++ (List.replicate n none ++ S₂)) bs) :
    ∃ bs₁ bs₂, bs = bs₁ ++ bs₂ ∧ Tiled render S₁ bs₁ ∧
      Tiled render (S₁ ++ ((render b).map some ++ S₂)) (bs₁ ++ b :: bs₂) := by
  obtain ⟨n, rfl⟩ := Nat.exists_eq_succ_of_ne_zero (Nat.pos_iff_ne_zero.mp hn)
  rw [List.replicate_succ, List.cons_append] at h
  obtain ⟨bs₁, bs₂, rfl, h₁, h₂⟩ := h.split_none
  refine ⟨bs₁, bs₂, rfl, h₁, h₁.append (.tile b ?_)⟩
  clear hn h h₁
  induction n with
  | zero => exact h₂
  | succ n ih =>
    refine ih ?_
    rw [List.replicate_succ, List.cons_append] at h₂
    obtain ⟨cs₁, cs₂, rfl, hc₁, hc₂⟩ := h₂.split_none (S := [])
    exact hc₁.append hc₂

end Tiled

end ZenohFlatC
