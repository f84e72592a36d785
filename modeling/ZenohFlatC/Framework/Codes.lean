import Mathlib.InformationTheory.Coding.UniquelyDecodable

/-!
# Codes, and names joined of them

A code is a set of words; it is uniquely decodable if a text is the
concatenation of words of it in one way at most. The suffixes that are left
over when two concatenations are compared word by word (`Dangling`) decide it:
`uniquelyDecodable_iff`, the test of Sardinas and Patterson.

A list of texts joined by a separator is, cut at the separator again, the
concatenation of the texts cut at it (`splitOn_intercalate`). So the joined
texts of a set differ if and only if the cut ones are uniquely decodable
(`intercalate_inj_iff`).
-/

namespace ZenohFlatC.Codes

open InformationTheory (UniquelyDecodable)

variable {α : Type} {C : Set (List α)}

/-- What is left over when a concatenation of code words that does not begin
with the same word as another one is a prefix of it. -/
inductive Dangling (C : Set (List α)) : List α → Prop
  | start {c w : List α} : c ∈ C → w ≠ [] → c ++ w ∈ C → Dangling C w
  /-- The shorter one goes on past the longer one. -/
  | beyond {d w : List α} : Dangling C d → d ++ w ∈ C → Dangling C w
  /-- The shorter one goes on and stays the shorter one. -/
  | within {c w : List α} : c ∈ C → Dangling C (c ++ w) → Dangling C w

/-- Two concatenations of code words, the second longer by `d`, that do not
begin with the same word. -/
def Apart (C : Set (List α)) (d : List α) : Prop :=
  ∃ x y : List α, ∃ xs ys : List (List α), x ≠ y ∧ (∀ w ∈ x :: xs, w ∈ C) ∧ (∀ w ∈ y :: ys, w ∈ C) ∧
    (x :: xs).flatten ++ d = (y :: ys).flatten

theorem flatten_concat (xs : List (List α)) (c : List α) : (xs ++ [c]).flatten = xs.flatten ++ c := by
  rw [List.flatten_append, List.flatten_singleton]

theorem forall_mem_concat {xs : List (List α)} {c : List α} (h : ∀ w ∈ xs, w ∈ C) (hc : c ∈ C) :
    ∀ w ∈ xs ++ [c], w ∈ C := by
  intro w hw
  rcases List.mem_append.mp hw with hw | hw
  · exact h w hw
  · exact List.mem_singleton.mp hw ▸ hc

theorem Dangling.apart {d : List α} (h : Dangling C d) : Apart C d := by
  induction h with
  | @start c w hc hw hcw =>
    have hne : c ≠ c ++ w := fun he => hw (List.self_eq_append_right.mp he)
    exact ⟨c, c ++ w, [], [], hne, by simpa using hc, by simpa using hcw, by simp⟩
  | @beyond d w _ hd ih =>
    obtain ⟨x, y, xs, ys, hne, hx, hy, he⟩ := ih
    refine ⟨y, x, ys, xs ++ [d ++ w], hne.symm, hy, forall_mem_concat hx hd, ?_⟩
    rw [← he, ← List.cons_append, flatten_concat, List.append_assoc]
  | @within c w hc _ ih =>
    obtain ⟨x, y, xs, ys, hne, hx, hy, he⟩ := ih
    refine ⟨x, y, xs ++ [c], ys, hne, forall_mem_concat hx hc, hy, ?_⟩
    rw [← he, ← List.cons_append, flatten_concat, List.append_assoc]

/-- Two concatenations that end together, the one begun by a dangling suffix,
leave nothing over at their end. -/
theorem Dangling.nil (hC : [] ∉ C) {d : List α} (h : Dangling C d) {xs ys : List (List α)}
    (hx : ∀ w ∈ xs, w ∈ C) (hy : ∀ w ∈ ys, w ∈ C) (he : d ++ xs.flatten = ys.flatten) : Dangling C [] := by
  -- The induction is on the text that is left to compare.
  induction hlen : ys.flatten.length using Nat.strong_induction_on generalizing d xs ys with
  | _ n ih =>
    by_cases hd : d = []
    · exact hd ▸ h
    · match ys, hy, he, hlen with
      | [], _, he, _ => exact absurd (List.append_eq_nil_iff.mp he).1 hd
      | y :: ys, hy, he, hlen =>
        obtain ⟨hyC, hys⟩ := List.forall_mem_cons.mp hy
        have hne : y ≠ [] := fun hnil => hC (hnil ▸ hyC)
        have hypos := List.length_pos_iff.mpr hne
        have hdpos := List.length_pos_iff.mpr hd
        have hsum := congrArg List.length he
        rw [List.flatten_cons] at he hsum hlen
        simp only [List.length_append] at hsum hlen
        rcases List.append_eq_append_iff.mp he with ⟨w, rfl, hw⟩ | ⟨w, rfl, hw⟩
        · exact ih xs.flatten.length (by omega) (h.beyond hyC) hys hx hw.symm rfl
        · exact ih ys.flatten.length (by omega) (.within hyC h) hx hys hw.symm rfl

/-- A code is uniquely decodable if and only if no two concatenations of its
words end together after they have begun with different words. -/
theorem uniquelyDecodable_iff (hC : [] ∉ C) : UniquelyDecodable C ↔ ¬Dangling C [] := by
  refine ⟨fun h hnil => ?_, fun h xs => ?_⟩
  · obtain ⟨x, y, xs, ys, hne, hx, hy, he⟩ := hnil.apart
    rw [List.append_nil] at he
    exact hne (List.cons.inj (h _ _ hx hy he)).1
  · have differ {x : List α} {xs ys : List (List α)} {w : List α} (hx : x ∈ C) (hy : ∀ w ∈ ys, w ∈ C)
        (hxs : ∀ w ∈ xs, w ∈ C) (hxw : x ++ w ∈ C) (he : xs.flatten = w ++ ys.flatten) : w = [] :=
      Decidable.byContradiction fun hw => h ((Dangling.start hx hw hxw).nil hC hy hxs he.symm)
    induction xs with
    | nil =>
      intro ys _ hy he
      match ys, hy, he with
      | [], _, _ => rfl
      | y :: ys, hy, he =>
        have hnil : y = [] := (List.append_eq_nil_iff.mp he.symm).1
        exact absurd (hnil ▸ hy y List.mem_cons_self) hC
    | cons x xs ih =>
      intro ys hx hy he
      obtain ⟨hxC, hxs⟩ := List.forall_mem_cons.mp hx
      match ys, hy, he with
      | [], _, he =>
        have hnil : x = [] := (List.append_eq_nil_iff.mp he).1
        exact absurd (hnil ▸ hxC) hC
      | y :: ys, hy, he =>
        obtain ⟨hyC, hys⟩ := List.forall_mem_cons.mp hy
        rw [List.flatten_cons, List.flatten_cons] at he
        rcases List.append_eq_append_iff.mp he with ⟨w, rfl, hw⟩ | ⟨w, rfl, hw⟩
        · obtain rfl := differ hxC hys hxs hyC hw
          rw [List.append_nil, ih ys hxs hys hw]
        · obtain rfl := differ hyC hxs hys hxC hw
          rw [List.append_nil, ih ys hxs hys hw.symm]

/-! ## Joined texts -/

variable [BEq α] [LawfulBEq α] {sep : α}

/-- Joined texts, cut at the separator, are the texts cut at it. -/
theorem splitOn_intercalate {xs : List (List α)} (h : xs ≠ []) :
    ([sep].intercalate xs).splitOn sep = xs.flatMap (List.splitOn sep) := by
  induction xs with
  | nil => exact absurd rfl h
  | cons x xs ih =>
    match xs, ih with
    | [], _ => simp
    | y :: xs, ih =>
      have hcut := ih (List.cons_ne_nil y xs)
      rw [List.intercalate_cons_cons, List.append_assoc, List.singleton_append, List.splitOn_append_cons_self, hcut]
      rfl

/-- A text is found again in what it is cut into. -/
theorem splitOn_inj (sep : α) {x y : List α} : x.splitOn sep = y.splitOn sep ↔ x = y := by
  refine ⟨fun h => ?_, fun h => h ▸ rfl⟩
  have hx : [sep].intercalate (x.splitOn sep) = x := List.intercalate_splitOn sep
  rw [← hx, h, List.intercalate_splitOn]

/-- A list of elements of an image. -/
theorem exists_map_eq {β γ : Type} {f : β → γ} {T : Set β} {L : List γ} (h : ∀ y ∈ L, y ∈ f '' T) :
    ∃ xs : List β, (∀ x ∈ xs, x ∈ T) ∧ xs.map f = L := by
  induction L with
  | nil => exact ⟨[], by simp, rfl⟩
  | cons y L ih =>
    obtain ⟨⟨x, hx, rfl⟩, hL⟩ := List.forall_mem_cons.mp h
    obtain ⟨xs, hxs, rfl⟩ := ih hL
    exact ⟨x :: xs, List.forall_mem_cons.mpr ⟨hx, hxs⟩, rfl⟩

omit [LawfulBEq α] in
/-- No text is cut into nothing. -/
theorem nil_not_mem_splitOn (T : Set (List α)) : [] ∉ List.splitOn sep '' T := by
  rintro ⟨x, -, hx⟩
  exact List.splitOn_ne_nil sep x hx

/-- Different lists of texts are joined to different texts if and only if the
texts, cut at the separator, are uniquely decodable. -/
theorem intercalate_inj_iff {T : Set (List α)} :
    (∀ xs ys : List (List α), xs ≠ [] → ys ≠ [] → (∀ x ∈ xs, x ∈ T) → (∀ y ∈ ys, y ∈ T) →
        [sep].intercalate xs = [sep].intercalate ys → xs = ys) ↔
      UniquelyDecodable (List.splitOn sep '' T) := by
  refine ⟨fun h L₁ L₂ h₁ h₂ he => ?_, fun h xs ys hxne hyne hx hy he => ?_⟩
  · obtain ⟨xs, hx, rfl⟩ := exists_map_eq h₁
    obtain ⟨ys, hy, rfl⟩ := exists_map_eq h₂
    rw [← List.flatMap_def, ← List.flatMap_def] at he
    have empty {zs : List (List α)} (hz : zs.flatMap (List.splitOn sep) = []) : zs = [] := by
      match zs, hz with
      | [], _ => rfl
      | z :: zs, hz => exact absurd (List.append_eq_nil_iff.mp hz).1 (List.splitOn_ne_nil sep z)
    by_cases hxne : xs = []
    · rw [hxne] at he ⊢
      rw [empty he.symm]
    · have hyne : ys ≠ [] := fun hnil => hxne (empty (he.trans (by rw [hnil]; rfl)))
      rw [← splitOn_intercalate hxne, ← splitOn_intercalate hyne, splitOn_inj sep] at he
      rw [h xs ys hxne hyne hx hy he]
  · rw [← splitOn_inj sep, splitOn_intercalate hxne, splitOn_intercalate hyne, List.flatMap_def,
      List.flatMap_def] at he
    have hmap := h _ _ (List.forall_mem_map.mpr fun x hxs => ⟨x, hx x hxs, rfl⟩)
      (List.forall_mem_map.mpr fun y hys => ⟨y, hy y hys, rfl⟩) he
    exact (List.map_inj_right fun _ _ => (splitOn_inj sep).mp).mp hmap

/-- A text without a separator is joined of itself alone. -/
theorem intercalate_eq_of_not_mem {xs : List (List α)} {x : List α} (hne : xs ≠ []) (hx : sep ∉ x)
    (h : [sep].intercalate xs = x) : xs = [x] := by
  have hcut : xs.flatMap (List.splitOn sep) = [x] := by
    rw [← splitOn_intercalate hne, h, List.splitOn_eq_singleton hx]
  match xs, hne, h, hcut with
  | [y], _, h, _ => rw [← h, List.intercalate_singleton]
  | y :: z :: ys, _, _, hcut =>
    have hlen := congrArg List.length hcut
    have hypos := List.length_pos_iff.mpr (List.splitOn_ne_nil sep y)
    have hzpos := List.length_pos_iff.mpr (List.splitOn_ne_nil sep z)
    simp only [List.flatMap_cons, List.length_append, List.length_singleton] at hlen
    omega

end ZenohFlatC.Codes
