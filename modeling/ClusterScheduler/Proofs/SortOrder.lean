import ClusterScheduler.Proofs.SortPerm

/-!
# Sorting by a strict weak order

The sort is meant for a comparison `lt` that is a strict weak order: no element is below itself,
being below is transitive, and so is being not above. Such an order may hold on a part `S` of the
elements only (the rows being sorted, say), which is all the sort ever compares. A list is sorted
when no element is below one before it.

This module proves the small parts of the sort right: insertion and the four-element network put
their elements in order, the merge from the front of two sorted runs is sorted, and the merge from
the back writes the same sequence as the merge from the front, last element first.
-/

namespace ClusterScheduler

namespace Sorting

open scoped List

variable {α : Type}

/-- `lt` is a strict weak order on the elements satisfying `S`. -/
structure StrictWeakOn (lt : α → α → Bool) (S : α → Prop) : Prop where
  irrefl : ∀ {a}, S a → lt a a = false
  trans : ∀ {a b c}, S a → S b → S c → lt a b = true → lt b c = true → lt a c = true
  not_lt_trans : ∀ {a b c}, S a → S b → S c → lt b a = false → lt c b = false → lt c a = false

def Sorted (lt : α → α → Bool) (l : List α) : Prop := l.Pairwise fun a b => lt b a = false

namespace StrictWeakOn

variable {lt : α → α → Bool} {S : α → Prop} (hlt : StrictWeakOn lt S) {a b c : α}

include hlt

theorem asymm (ha : S a) (hb : S b) (hab : lt a b = true) : lt b a = false := by
  cases hba : lt b a
  · rfl
  · have := hlt.irrefl ha
    rw [hlt.trans ha hb ha hab hba] at this
    cases this

theorem lt_of_lt_of_not_lt (ha : S a) (hb : S b) (hc : S c) (hab : lt a b = true)
    (hcb : lt c b = false) : lt a c = true := by
  cases hac : lt a c
  · -- `b ≤ c ≤ a` would put `a` not below `b`
    rw [hlt.not_lt_trans hb hc ha hcb hac] at hab
    cases hab
  · rfl

theorem lt_of_not_lt_of_lt (ha : S a) (hb : S b) (hc : S c) (hba : lt b a = false)
    (hbc : lt b c = true) : lt a c = true := by
  cases hac : lt a c
  · rw [hlt.not_lt_trans hc ha hb hac hba] at hbc
    cases hbc
  · rfl

end StrictWeakOn

/-! ## Sorted lists -/

section Sorted

variable {lt : α → α → Bool}

@[simp] theorem sorted_nil : Sorted lt [] := List.Pairwise.nil

theorem sorted_cons {a : α} {l : List α} :
    Sorted lt (a :: l) ↔ (∀ b ∈ l, lt b a = false) ∧ Sorted lt l := List.pairwise_cons

theorem sorted_append {l₁ l₂ : List α} :
    Sorted lt (l₁ ++ l₂) ↔ Sorted lt l₁ ∧ Sorted lt l₂ ∧ ∀ a ∈ l₁, ∀ b ∈ l₂, lt b a = false :=
  List.pairwise_append

theorem Sorted.sublist {l₁ l₂ : List α} (h : Sorted lt l₂) (hsub : l₁.Sublist l₂) : Sorted lt l₁ :=
  List.Pairwise.sublist hsub h

theorem sorted_of_length_le_one {l : List α} (h : l.length ≤ 1) : Sorted lt l := by
  rcases l with _ | ⟨x, _ | ⟨y, t⟩⟩
  · exact sorted_nil
  · exact List.pairwise_singleton _ x
  · simp at h

theorem sorted_reverse {l : List α} : Sorted lt l.reverse ↔ l.Pairwise fun a b => lt a b = false :=
  List.pairwise_reverse

end Sorted

/-! ## Merging at the ends -/

section Ends

variable {lt : α → α → Bool}

theorem mergeFront_singleton_left {x : α} {ys : List α} (hys : ∀ y ∈ ys, lt y x = true) :
    mergeFront lt [x] ys = ys ++ [x] := by
  induction ys with
  | nil => simp
  | cons y ys ih =>
    rw [mergeFront_cons_cons, if_pos (hys y List.mem_cons_self),
      ih fun z hz => hys z (List.mem_cons_of_mem y hz), List.cons_append]

theorem mergeFront_singleton_right {y : α} {xs : List α} (hxs : ∀ x ∈ xs, lt y x = false) :
    mergeFront lt xs [y] = xs ++ [y] := by
  induction xs with
  | nil => simp
  | cons x xs ih =>
    rw [mergeFront_cons_cons, if_neg (by rw [hxs x List.mem_cons_self]; decide),
      ih fun z hz => hxs z (List.mem_cons_of_mem x hz), List.cons_append]

theorem mergeFront_append_left (x : α) {xs ys : List α} (hys : ∀ y ∈ ys, lt y x = true) :
    mergeFront lt (xs ++ [x]) ys = mergeFront lt xs ys ++ [x] := by
  fun_induction mergeFront lt xs ys with
  | case1 ys => rw [List.nil_append, mergeFront_singleton_left hys]
  | case2 xs h => simp
  | case3 x' xs y ys hyx ih =>
    rw [List.cons_append, mergeFront_cons_cons, if_pos hyx, ← List.cons_append,
      ih fun z hz => hys z (List.mem_cons_of_mem y hz), List.cons_append]
  | case4 x' xs y ys hyx ih =>
    rw [List.cons_append, mergeFront_cons_cons, if_neg hyx, ih hys, List.cons_append]

theorem mergeFront_append_right (y : α) {xs ys : List α} (hxs : ∀ x ∈ xs, lt y x = false) :
    mergeFront lt xs (ys ++ [y]) = mergeFront lt xs ys ++ [y] := by
  fun_induction mergeFront lt xs ys with
  | case1 ys => simp
  | case2 xs h => rw [List.nil_append, mergeFront_singleton_right hxs]
  | case3 x xs y' ys hyx ih =>
    rw [List.cons_append, mergeFront_cons_cons, if_pos hyx, ih hxs, List.cons_append]
  | case4 x xs y' ys hyx ih =>
    rw [List.cons_append, mergeFront_cons_cons, if_neg hyx, ← List.cons_append,
      ih fun z hz => hxs z (List.mem_cons_of_mem x hz), List.cons_append]

end Ends

variable {lt : α → α → Bool} {S : α → Prop} (hlt : StrictWeakOn lt S)

include hlt

/-! ## Insertion -/

theorem insertRev_desc {x : α} {l : List α} (hx : S x) (hl : ∀ y ∈ l, S y)
    (h : l.Pairwise fun a b => lt a b = false) :
    (insertRev lt x l).Pairwise fun a b => lt a b = false := by
  induction l with
  | nil => exact List.pairwise_singleton _ x
  | cons y ys ih =>
    have hy := hl y List.mem_cons_self
    have hys : ∀ z ∈ ys, S z := fun z hz => hl z (List.mem_cons_of_mem y hz)
    rw [List.pairwise_cons] at h
    simp only [insertRev]
    split
    · rename_i hxy
      refine List.pairwise_cons.2 ⟨fun z hz => ?_, ih hys h.2⟩
      rcases List.mem_cons.1 ((insertRev_perm lt x ys).mem_iff.1 hz) with rfl | hz
      · exact hlt.asymm hx hy hxy
      · exact h.1 z hz
    · rename_i hxy
      simp only [Bool.not_eq_true] at hxy
      refine List.pairwise_cons.2 ⟨fun z hz => ?_, List.pairwise_cons.2 h⟩
      rcases List.mem_cons.1 hz with rfl | hz
      · exact hxy
      · exact hlt.not_lt_trans (hys z hz) hy hx (h.1 z hz) hxy

theorem foldl_insertRev_desc (xs : List α) {acc : List α} (hS : ∀ x ∈ xs ++ acc, S x)
    (h : acc.Pairwise fun a b => lt a b = false) :
    (xs.foldl (fun acc x => insertRev lt x acc) acc).Pairwise fun a b => lt a b = false := by
  induction xs generalizing acc with
  | nil => exact h
  | cons x xs ih =>
    rw [List.foldl_cons]
    refine ih (fun z hz => ?_) (insertRev_desc hlt (hS x List.mem_cons_self)
      (fun z hz => hS z (by simp [hz])) h)
    rcases List.mem_append.1 hz with hz | hz
    · exact hS z (by simp [hz])
    · rcases List.mem_cons.1 ((insertRev_perm lt x acc).mem_iff.1 hz) with rfl | hz
      · exact hS z List.mem_cons_self
      · exact hS z (by simp [hz])

theorem extendRun_sorted {run rest : List α} (hrun : Sorted lt run) (hS : ∀ x ∈ run ++ rest, S x) :
    Sorted lt (extendRun lt run rest) := by
  unfold extendRun
  refine sorted_reverse.2 (foldl_insertRev_desc hlt rest (fun z hz => hS z ?_) ?_)
  · rw [List.mem_append, List.mem_reverse] at hz
    exact List.mem_append.2 hz.symm
  · exact sorted_reverse.1 (by rwa [List.reverse_reverse])

theorem insertionSort_sorted {xs : List α} (hS : ∀ x ∈ xs, S x) : Sorted lt (insertionSort lt xs) :=
  extendRun_sorted hlt sorted_nil hS

/-! ## The four-element network -/

theorem pair_sorted {x y : α} (hx : S x) (hy : S y) :
    lt (if lt y x then x else y) (if lt y x then y else x) = false := by
  cases hyx : lt y x
  · exact hyx
  · exact hlt.asymm hy hx hyx

theorem sorted_four {p q r s : α} (hq : S q) (hr : S r) (hqp : lt q p = false)
    (hrp : lt r p = false) (hsp : lt s p = false) (hsq : lt s q = false) (hsr : lt s r = false) :
    Sorted lt [p, if lt r q then r else q, if lt r q then q else r, s] := by
  have hmid := pair_sorted hlt hq hr
  cases hrq : lt r q <;> simp only [hrq, Bool.false_eq_true, if_false, if_true] at hmid ⊢ <;>
    simp [Sorted, hqp, hrp, hsp, hsq, hsr, hmid, hrq]

theorem sortFour_sorted {v0 v1 v2 v3 : α} (h0 : S v0) (h1 : S v1) (h2 : S v2) (h3 : S v3) :
    Sorted lt (sortFour lt v0 v1 v2 v3) := by
  have hab := pair_sorted hlt h0 h1
  have hcd := pair_sorted hlt h2 h3
  have ha : S (if lt v1 v0 then v1 else v0) := by split <;> assumption
  have hb : S (if lt v1 v0 then v0 else v1) := by split <;> assumption
  have hc : S (if lt v3 v2 then v3 else v2) := by split <;> assumption
  have hd : S (if lt v3 v2 then v2 else v3) := by split <;> assumption
  simp only [sortFour]
  generalize (if lt v1 v0 then v1 else v0) = a, (if lt v1 v0 then v0 else v1) = b,
    (if lt v3 v2 then v3 else v2) = c, (if lt v3 v2 then v2 else v3) = d at *
  -- the least is the lesser of the pairs' first elements, the greatest the greater of their last
  cases hca : lt c a <;> cases hdb : lt d b <;> simp only [Bool.false_eq_true, if_false, if_true]
  · exact sorted_four hlt hb hc hab hca (hlt.not_lt_trans ha hb hd hab hdb) hdb hcd
  · have hcb := hlt.lt_of_not_lt_of_lt hc hd hb hcd hdb
    exact sorted_four hlt hc hd hca (hlt.not_lt_trans ha hc hd hca hcd) hab
      (hlt.asymm hc hb hcb) (hlt.asymm hd hb hdb)
  · have hcb := hlt.lt_of_lt_of_not_lt hc ha hb hca hab
    exact sorted_four hlt ha hb (hlt.asymm hc ha hca) (hlt.asymm hc hb hcb) hcd
      (hlt.not_lt_trans ha hb hd hab hdb) hdb
  · have hcb := hlt.lt_of_lt_of_not_lt hc ha hb hca hab
    exact sorted_four hlt ha hd (hlt.asymm hc ha hca) hcd (hlt.asymm hc hb hcb) hab
      (hlt.asymm hd hb hdb)

/-! ## Merging -/

theorem mergeFront_sorted {xs ys : List α} (hxs : Sorted lt xs) (hys : Sorted lt ys)
    (hSx : ∀ z ∈ xs, S z) (hSy : ∀ z ∈ ys, S z) : Sorted lt (mergeFront lt xs ys) := by
  fun_induction mergeFront lt xs ys with
  | case1 ys => exact hys
  | case2 xs h => exact hxs
  | case3 x xs y ys hyx ih =>
    -- `y` is below `x`, which is not above anything after it
    have hx := hSx x List.mem_cons_self
    have hy := hSy y List.mem_cons_self
    have hxs' := sorted_cons.1 hxs
    have hys' := sorted_cons.1 hys
    refine sorted_cons.2 ⟨fun z hz => ?_,
      ih hxs hys'.2 hSx fun z hz => hSy z (List.mem_cons_of_mem y hz)⟩
    rcases List.mem_append.1 ((mergeFront_perm lt _ _).mem_iff.1 hz) with hz' | hz'
    · rcases List.mem_cons.1 hz' with rfl | hzx
      · exact hlt.asymm hy hx hyx
      · have hzS := hSx z hz'
        exact hlt.asymm hy hzS (hlt.lt_of_lt_of_not_lt hy hx hzS hyx (hxs'.1 z hzx))
    · exact hys'.1 z hz'
  | case4 x xs y ys hyx ih =>
    -- `x` is not above `y`, which is not above anything after it
    simp only [Bool.not_eq_true] at hyx
    have hx := hSx x List.mem_cons_self
    have hy := hSy y List.mem_cons_self
    have hxs' := sorted_cons.1 hxs
    have hys' := sorted_cons.1 hys
    refine sorted_cons.2 ⟨fun z hz => ?_,
      ih hxs'.2 hys (fun z hz => hSx z (List.mem_cons_of_mem x hz)) hSy⟩
    rcases List.mem_append.1 ((mergeFront_perm lt _ _).mem_iff.1 hz) with hz' | hz'
    · exact hxs'.1 z hz'
    · rcases List.mem_cons.1 hz' with rfl | hzy
      · exact hyx
      · exact hlt.not_lt_trans hx hy (hSy z hz') hyx (hys'.1 z hzy)

/-- Merging from the back two runs, given last element first, that are sorted writes the merge
from the front, last element first. -/
theorem reverse_mergeBackRev {xs ys : List α} (hxs : Sorted lt xs.reverse) (hys : Sorted lt ys.reverse)
    (hSx : ∀ z ∈ xs, S z) (hSy : ∀ z ∈ ys, S z) :
    (mergeBackRev lt xs ys).reverse = mergeFront lt xs.reverse ys.reverse := by
  fun_induction mergeBackRev lt xs ys with
  | case1 ys => simp
  | case2 xs h => simp
  | case3 x xs y ys hyx ih =>
    -- `x` is above `y`, hence above everything on the right
    have hx := hSx x List.mem_cons_self
    have hy := hSy y List.mem_cons_self
    rw [List.reverse_cons] at hxs hys
    rw [List.reverse_cons, ih (sorted_append.1 hxs).1 (by rwa [List.reverse_cons])
      (fun z hz => hSx z (List.mem_cons_of_mem x hz)) hSy, List.reverse_cons (a := x),
      mergeFront_append_left x]
    intro z hz
    rw [List.reverse_cons, List.mem_append, List.mem_singleton] at hz
    rcases hz with hz | rfl
    · have hyz := (sorted_append.1 hys).2.2 z hz y (List.mem_singleton_self y)
      exact hlt.lt_of_not_lt_of_lt (hSy z (List.mem_cons_of_mem y (List.mem_reverse.1 hz))) hy hx
        hyz hyx
    · exact hyx
  | case4 x xs y ys hyx ih =>
    -- `y` is not below `x`, hence not below anything on the left
    simp only [Bool.not_eq_true] at hyx
    have hx := hSx x List.mem_cons_self
    have hy := hSy y List.mem_cons_self
    rw [List.reverse_cons] at hys
    rw [List.reverse_cons, ih hxs (sorted_append.1 hys).1 hSx
      (fun z hz => hSy z (List.mem_cons_of_mem y hz)), List.reverse_cons (a := y),
      mergeFront_append_right y]
    intro z hz
    rw [List.reverse_cons] at hxs hz
    rw [List.mem_append, List.mem_singleton] at hz
    rcases hz with hz | rfl
    · have hxz := (sorted_append.1 hxs).2.2 z hz x (List.mem_singleton_self x)
      exact hlt.not_lt_trans (hSx z (List.mem_cons_of_mem x (List.mem_reverse.1 hz))) hx hy hxz hyx
    · exact hyx

theorem mergeBackRev_reverse_reverse {xs ys : List α} (hxs : Sorted lt xs) (hys : Sorted lt ys)
    (hSx : ∀ z ∈ xs, S z) (hSy : ∀ z ∈ ys, S z) :
    (mergeBackRev lt xs.reverse ys.reverse).reverse = mergeFront lt xs ys := by
  have h := reverse_mergeBackRev hlt (by rwa [List.reverse_reverse] : Sorted lt xs.reverse.reverse)
    (by rwa [List.reverse_reverse] : Sorted lt ys.reverse.reverse)
    (fun z hz => hSx z (List.mem_reverse.1 hz)) (fun z hz => hSy z (List.mem_reverse.1 hz))
  rwa [List.reverse_reverse, List.reverse_reverse] at h

theorem mergeRuns_eq {l r : List α} (hl : Sorted lt l) (hr : Sorted lt r) (hSl : ∀ z ∈ l, S z)
    (hSr : ∀ z ∈ r, S z) : mergeRuns lt l r = mergeFront lt l r := by
  unfold mergeRuns
  split
  · rename_i hempty
    rcases hempty with h | h
    · rw [List.isEmpty_iff.1 h, List.nil_append, mergeFront_nil_left]
    · rw [List.isEmpty_iff.1 h, List.append_nil, mergeFront_nil_right]
  · split
    · rfl
    · exact mergeBackRev_reverse_reverse hlt hl hr hSl hSr

end Sorting

end ClusterScheduler
