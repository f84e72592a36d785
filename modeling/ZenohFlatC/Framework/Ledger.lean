import Mathlib.Algebra.BigOperators.Group.Multiset.Basic
import Mathlib.Data.Multiset.AddSub

/-!
# Ledgers of live handles

A call borrows handles, consumes others and gives new ones (`Event`). `audit`
follows the handles that are live through a list of calls and fails at the
first call that uses a handle which is not live, or consumes one that it
borrows too; so a list that passes has no use of a handle behind its end, and
none is released twice. `post_iff` says what a call needs, without subtraction.

* `audit_lend`, `audit_frame`: more live handles do no harm, nor does their use;
* `audit_map`: nor does a renaming;
* `audit_interleave`, `audit_interleaveAll`: lists that pass, interleaved in
  any way, pass, and leave what they leave together;
* `audit_handOver`: from a call on that hands something over to others, their
  calls may interleave with those of the thread that called.
-/

namespace ZenohFlatC

variable {H K : Type} [DecidableEq H] [DecidableEq K]

/-- What a call does with handles. -/
@[ext]
structure Event (H : Type) where
  borrows : Multiset H
  consumes : Multiset H
  gives : Multiset H

namespace Event

/-- The live handles after the call, if the handles that it uses are live. -/
def post (e : Event H) (live : Multiset H) : Option (Multiset H) :=
  if e.consumes ≤ live ∧ ∀ h ∈ e.borrows, h ∈ live - e.consumes then some (live - e.consumes + e.gives) else none

theorem post_iff {e : Event H} {live live' : Multiset H} :
    e.post live = some live' ↔ ∃ rest, live = e.consumes + rest ∧ (∀ h ∈ e.borrows, h ∈ rest) ∧
      live' = rest + e.gives := by
  unfold post
  constructor
  · intro h
    split at h
    · rename_i huse
      obtain rfl := Option.some.inj h
      exact ⟨live - e.consumes, ((add_comm _ _).trans (Multiset.sub_add_cancel huse.1)).symm, huse.2, rfl⟩
    · cases h
  · rintro ⟨rest, rfl, hborrow, rfl⟩
    have hrest : e.consumes + rest - e.consumes = rest := by
      rw [add_comm, Multiset.add_sub_cancel_right]
    rw [hrest, if_pos ⟨Multiset.le_add_right .., hborrow⟩]

def map (f : H → K) (e : Event H) : Event K := ⟨e.borrows.map f, e.consumes.map f, e.gives.map f⟩

/-- A call that borrows the handles of `S` too. -/
def lend (S : Multiset H) (e : Event H) : Event H := { e with borrows := e.borrows + S }

/-- A call behind which the handles of `S` are not the caller's any more. -/
def spend (S : Multiset H) (e : Event H) : Event H := { e with consumes := e.consumes + S }

omit [DecidableEq H] [DecidableEq K] in
theorem map_spend (f : H → K) (S : Multiset H) (e : Event H) : (e.spend S).map f = (e.map f).spend (S.map f) :=
  Event.ext rfl (Multiset.map_add ..) rfl

end Event

/-- The live handles after the calls. -/
def audit (live : Multiset H) : List (Event H) → Option (Multiset H)
  | [] => some live
  | e :: es => (e.post live).bind fun live => audit live es

section

variable {live live' : Multiset H} {es fs gs : List (Event H)}

theorem audit_cons {e : Event H} : audit live (e :: es) = some live' ↔
    ∃ rest, live = e.consumes + rest ∧ (∀ h ∈ e.borrows, h ∈ rest) ∧ audit (rest + e.gives) es = some live' := by
  rw [audit, Option.bind_eq_some_iff]
  constructor
  · rintro ⟨mid, hpost, haudit⟩
    obtain ⟨rest, rfl, hborrow, rfl⟩ := Event.post_iff.mp hpost
    exact ⟨rest, rfl, hborrow, haudit⟩
  · rintro ⟨rest, rfl, hborrow, haudit⟩
    exact ⟨_, Event.post_iff.mpr ⟨rest, rfl, hborrow, rfl⟩, haudit⟩

theorem audit_append : audit live (es ++ fs) = (audit live es).bind fun live => audit live fs := by
  induction es generalizing live with
  | nil => rfl
  | cons e es ih =>
    rw [List.cons_append, audit, audit, Option.bind_assoc]
    exact Option.bind_congr fun mid _ => ih

/-- Calls that borrow live handles too. -/
theorem audit_lend {α : Type} {S : Multiset H} (more : α → Multiset H) {event : α → Event H} {xs : List α}
    (hmore : ∀ x ∈ xs, ∀ h ∈ more x, h ∈ S) (h : audit live (xs.map event) = some live') :
    audit (live + S) (xs.map fun x => (event x).lend (more x)) = some (live' + S) := by
  induction xs generalizing live with
  | nil =>
    obtain rfl := Option.some.inj h
    rfl
  | cons x xs ih =>
    obtain ⟨hx, hxs⟩ := List.forall_mem_cons.mp hmore
    obtain ⟨rest, rfl, hborrow, hrest⟩ := audit_cons.mp h
    refine audit_cons.mpr ⟨rest + S, add_assoc .., fun y hy => Multiset.mem_add.mpr ?_, ?_⟩
    · exact (Multiset.mem_add.mp hy).imp (hborrow y) (hx y)
    · rw [add_right_comm]
      exact ih hxs hrest

theorem audit_frame (more : Multiset H) (h : audit live es = some live') :
    audit (live + more) es = some (live' + more) := by
  have hmore : ∀ e ∈ es, ∀ h ∈ (0 : Multiset H), h ∈ more := fun _ _ h hh => absurd hh (Multiset.notMem_zero h)
  have hes : audit live (es.map id) = some live' := by rwa [List.map_id]
  have hlend := audit_lend (fun _ => 0) hmore hes
  simpa only [Event.lend, add_zero, id_eq, List.map_id'] using hlend

theorem audit_map (f : H → K) (h : audit live es = some live') :
    audit (live.map f) (es.map (Event.map f)) = some (live'.map f) := by
  induction es generalizing live with
  | nil =>
    obtain rfl := Option.some.inj h
    rfl
  | cons e es ih =>
    obtain ⟨rest, rfl, hborrow, hrest⟩ := audit_cons.mp h
    refine audit_cons.mpr ⟨rest.map f, Multiset.map_add .., fun x hx => ?_, ?_⟩
    · obtain ⟨y, hy, rfl⟩ := Multiset.mem_map.mp hx
      exact Multiset.mem_map_of_mem f (hborrow y hy)
    · have hih := ih hrest
      rwa [Multiset.map_add] at hih

end

/-! ## Interleavings -/

/-- The calls of two threads, each in its order. -/
inductive Interleave {α : Type} : List α → List α → List α → Prop
  | nil : Interleave [] [] []
  | left {x : α} {xs ys zs : List α} (h : Interleave xs ys zs) : Interleave (x :: xs) ys (x :: zs)
  | right {y : α} {xs ys zs : List α} (h : Interleave xs ys zs) : Interleave xs (y :: ys) (y :: zs)

/-- The calls of any number of threads. -/
inductive InterleaveAll {α : Type} : List (List α) → List α → Prop
  | nil : InterleaveAll [] []
  | cons {xs ys zs : List α} {xss : List (List α)} (hall : InterleaveAll xss ys) (h : Interleave xs ys zs) :
    InterleaveAll (xs :: xss) zs

section

variable {α : Type} {xs ys zs : List α}

theorem Interleave.alone (xs : List α) : Interleave xs [] xs := by
  induction xs with
  | nil => exact .nil
  | cons x xs ih => exact .left ih

theorem Interleave.map {β : Type} (f : α → β) (h : Interleave xs ys zs) :
    Interleave (xs.map f) (ys.map f) (zs.map f) := by
  induction h with
  | nil => exact .nil
  | left _ ih => exact .left ih
  | right _ ih => exact .right ih

theorem InterleaveAll.map {β : Type} (f : α → β) {xss : List (List α)} (h : InterleaveAll xss ys) :
    InterleaveAll (xss.map (List.map f)) (ys.map f) := by
  induction h with
  | nil => exact .nil
  | cons _ h ih => exact .cons ih (h.map f)

theorem Interleave.mem {z : α} (h : Interleave xs ys zs) (hz : z ∈ zs) : z ∈ xs ∨ z ∈ ys := by
  induction h with
  | nil => exact .inl hz
  | left _ ih =>
    obtain rfl | hz := List.mem_cons.mp hz
    · exact .inl List.mem_cons_self
    · exact (ih hz).imp_left (List.mem_cons_of_mem _)
  | right _ ih =>
    obtain rfl | hz := List.mem_cons.mp hz
    · exact .inr List.mem_cons_self
    · exact (ih hz).imp_right (List.mem_cons_of_mem _)

theorem InterleaveAll.mem {xss : List (List α)} (h : InterleaveAll xss ys) {y : α} (hy : y ∈ ys) :
    ∃ xs ∈ xss, y ∈ xs := by
  induction h with
  | nil => exact absurd hy List.not_mem_nil
  | cons _ h ih =>
    obtain hy | hy := h.mem hy
    · exact ⟨_, List.mem_cons_self, hy⟩
    · obtain ⟨xs, hxs, hmem⟩ := ih hy
      exact ⟨xs, List.mem_cons_of_mem _ hxs, hmem⟩

end

theorem audit_interleave {xs ys zs : List (Event H)} (h : Interleave xs ys zs) {l m l' m' : Multiset H}
    (hl : audit l xs = some l') (hm : audit m ys = some m') : audit (l + m) zs = some (l' + m') := by
  induction h generalizing l m with
  | nil =>
    obtain rfl := Option.some.inj hl
    obtain rfl := Option.some.inj hm
    rfl
  | left _ ih =>
    obtain ⟨rest, rfl, hborrow, hrest⟩ := audit_cons.mp hl
    refine audit_cons.mpr ⟨rest + m, add_assoc .., fun x hx => Multiset.mem_add.mpr (.inl (hborrow x hx)), ?_⟩
    rw [add_right_comm]
    exact ih hrest hm
  | right _ ih =>
    obtain ⟨rest, rfl, hborrow, hrest⟩ := audit_cons.mp hm
    refine audit_cons.mpr ⟨l + rest, add_left_comm .., fun x hx => Multiset.mem_add.mpr (.inr (hborrow x hx)), ?_⟩
    rw [add_assoc]
    exact ih hl hrest

/-- Threads that each pass. -/
theorem audit_interleaveAll {xss : List (List (Event H))} {ys : List (Event H)} {ls : List (Multiset H)}
    (h : InterleaveAll xss ys) (hall : List.Forall₂ (fun xs l => audit 0 xs = some l) xss ls) :
    audit 0 ys = some ls.sum := by
  induction h generalizing ls with
  | nil =>
    obtain rfl := List.forall₂_nil_left_iff.mp hall
    rfl
  | cons _ h ih =>
    obtain ⟨l, ls, hfirst, hothers, rfl⟩ := List.forall₂_cons_left_iff.mp hall
    rw [List.sum_cons]
    exact audit_interleave h hfirst (ih hothers)

/-- A thread spends `S` in a call; others, who then have `S`, run beside what it
does behind the call. -/
theorem audit_handOver {live live' : Multiset H} {S others : Multiset H} {e : Event H}
    {front behind shared rest : List (Event H)} (h : audit live (front ++ e.spend S :: behind) = some live')
    (hshared : audit S shared = some others) (hrest : Interleave behind shared rest) :
    audit live (front ++ e.lend S :: rest) = some (live' + others) := by
  rw [audit_append, Option.bind_eq_some_iff] at h ⊢
  obtain ⟨mid, hfront, hspend⟩ := h
  refine ⟨mid, hfront, ?_⟩
  obtain ⟨left, rfl, hborrow, hbehind⟩ := audit_cons.mp hspend
  refine audit_cons.mpr ⟨left + S, ?_, fun x hx => Multiset.mem_add.mpr ?_, ?_⟩
  · show e.consumes + S + left = e.consumes + (left + S)
    rw [add_assoc, add_comm S]
  · exact (Multiset.mem_add.mp hx).imp_left (hborrow x)
  · rw [add_right_comm]
    exact audit_interleave hrest hbehind hshared

end ZenohFlatC
