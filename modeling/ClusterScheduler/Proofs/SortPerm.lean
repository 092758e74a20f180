import ClusterScheduler.Sorting.Drift
import ClusterScheduler.Proofs.IdSetLaws

/-!
# The sort only moves elements

Whatever the comparison, a sort that ends without a fault returns a permutation of its input.
Each step is shown to rearrange what it is given: insertion, the four-element network, the merges,
the partition of the quicksort, the runs cut off the input and the stack on which they are joined.
The merge from both ends writes a prefix of each half from the front and a suffix of each half
from the back; its final check, that the two ends took each half whole between them, is what
makes its result a permutation.

Main statement: `sortBy_perm`.
-/

namespace ClusterScheduler

namespace Sorting

open scoped List

variable {α : Type} (lt : α → α → Bool)

/-! ## Insertion and the four-element network -/

theorem insertRev_perm (x : α) (l : List α) : insertRev lt x l ~ x :: l := by
  induction l with
  | nil => exact .refl _
  | cons y ys ih =>
    simp only [insertRev]
    split
    · exact (ih.cons y).trans (.swap x y ys)
    · exact .refl _

theorem foldl_insertRev_perm (rest acc : List α) :
    rest.foldl (fun acc x => insertRev lt x acc) acc ~ rest.reverse ++ acc := by
  induction rest generalizing acc with
  | nil => exact .refl _
  | cons x xs ih =>
    rw [List.foldl_cons, List.reverse_cons, List.append_assoc, List.singleton_append]
    exact (ih _).trans ((insertRev_perm lt x acc).append_left xs.reverse)

theorem extendRun_perm (run rest : List α) : extendRun lt run rest ~ run ++ rest := by
  have h := foldl_insertRev_perm lt rest run.reverse
  rw [← List.reverse_append] at h
  exact (List.reverse_perm _).trans (h.trans (List.reverse_perm _))

theorem insertionSort_perm (xs : List α) : insertionSort lt xs ~ xs := extendRun_perm lt [] xs

theorem extendRun_take_perm {l s : List α} {k : Nat} (hs : s ~ l.take k) :
    extendRun lt s (l.drop k) ~ l := by
  refine (extendRun_perm lt s _).trans ?_
  calc s ++ l.drop k ~ l.take k ++ l.drop k := hs.append_right _
    _ = l := List.take_append_drop k l

theorem pair_perm (c : Bool) (x y : α) : [if c then y else x, if c then x else y] ~ [x, y] := by
  cases c
  · exact .refl _
  · exact .swap x y []

theorem sortFour_perm (v0 v1 v2 v3 : α) : sortFour lt v0 v1 v2 v3 ~ [v0, v1, v2, v3] := by
  have hpairs : [if lt v1 v0 then v1 else v0, if lt v1 v0 then v0 else v1] ++
      [if lt v3 v2 then v3 else v2, if lt v3 v2 then v2 else v3] ~ [v0, v1] ++ [v2, v3] :=
    (pair_perm _ v0 v1).append (pair_perm _ v2 v3)
  simp only [sortFour]
  generalize (if lt v1 v0 then v1 else v0) = a, (if lt v1 v0 then v0 else v1) = b,
    (if lt v3 v2 then v3 else v2) = c, (if lt v3 v2 then v2 else v3) = d at hpairs ⊢
  refine (((pair_perm _ _ _).append_right _).cons _).trans (List.Perm.trans ?_ hpairs)
  -- the least and the greatest are taken from the ends of the two ordered pairs
  cases lt c a <;> cases lt d b <;> simp only [Bool.false_eq_true, if_false, if_true]
  · exact .refl _
  · exact (List.perm_append_singleton b [c, d]).cons a
  · exact List.perm_middle.symm
  · exact (((List.Perm.swap b d []).cons a).cons c).trans
      (List.perm_middle : [a, b] ++ c :: [d] ~ c :: ([a, b] ++ [d])).symm

/-! ## Merging -/

theorem frontSteps_perm (k : Nat) (xs ys : List α) :
    (frontSteps lt k xs ys).1 ~
      xs.take (frontSteps lt k xs ys).2.1 ++ ys.take (frontSteps lt k xs ys).2.2 := by
  fun_induction frontSteps lt k xs ys with
  | case1 k x xs y ys h rest ih =>
    simp only [List.take_succ_cons]
    exact (ih.cons y).trans List.perm_middle.symm
  | case2 k x xs y ys h rest ih =>
    simp only [List.take_succ_cons, List.cons_append]
    exact ih.cons x
  | case3 => simp

theorem backSteps_perm (k : Nat) (xs ys : List α) :
    (backSteps lt k xs ys).1 ~
      xs.take (backSteps lt k xs ys).2.1 ++ ys.take (backSteps lt k xs ys).2.2 := by
  fun_induction backSteps lt k xs ys with
  | case1 k x xs y ys h rest ih =>
    simp only [List.take_succ_cons, List.cons_append]
    exact ih.cons x
  | case2 k x xs y ys h rest ih =>
    simp only [List.take_succ_cons]
    exact (ih.cons y).trans List.perm_middle.symm
  | case3 => simp

theorem take_append_reverse_take_perm (l : List α) {i j : Nat} (h : i + j = l.length) :
    l.take i ++ l.reverse.take j ~ l := by
  rw [List.take_reverse, show l.length - j = i by omega]
  calc l.take i ++ (l.drop i).reverse ~ l.take i ++ l.drop i := (List.reverse_perm _).append_left _
    _ = l := List.take_append_drop i l

theorem take_getD_reverse_take_perm (l : List α) (d : α) {i j : Nat} (h : i + 1 + j = l.length) :
    l.take i ++ [l.getD i d] ++ l.reverse.take j ~ l := by
  have hi : i < l.length := by omega
  rw [List.take_reverse, show l.length - j = i + 1 by omega, List.getD_eq_getElem?_getD,
    List.getElem?_eq_getElem hi, Option.getD_some, List.append_assoc, List.singleton_append]
  calc l.take i ++ l[i] :: (l.drop (i + 1)).reverse ~ l.take i ++ l[i] :: l.drop (i + 1) :=
        ((List.reverse_perm _).cons _).append_left _
    _ = l := by rw [← List.drop_eq_getElem_cons hi, List.take_append_drop]

theorem halves_perm (ml mr : List α) {front back mid a b c d L R : List α}
    (hf : front ~ a ++ b) (hb : back ~ c ++ d) (hm : mid ~ ml ++ mr) (hL : a ++ ml ++ c ~ L)
    (hR : b ++ mr ++ d ~ R) : front ++ mid ++ back.reverse ~ L ++ R := by
  classical
  rw [List.perm_iff_count] at *
  intro x
  have := hf x; have := hb x; have := hm x; have := hL x; have := hR x
  simp only [List.count_append, List.count_reverse] at *
  omega

theorem mergeBoth_perm [Inhabited α] {lt : α → α → Bool} {v w : List α}
    (h : mergeBoth lt v = .ok w) : w ~ v := by
  have hf := frontSteps_perm lt (v.length / 2) (v.take (v.length / 2)) (v.drop (v.length / 2))
  have hb := backSteps_perm lt (v.length / 2) (v.take (v.length / 2)).reverse
    (v.drop (v.length / 2)).reverse
  have hL : (v.take (v.length / 2)).length = v.length / 2 := by simp only [List.length_take]; omega
  have hR : (v.drop (v.length / 2)).length = v.length - v.length / 2 := List.length_drop
  simp only [mergeBoth] at h
  rw [← List.take_append_drop (v.length / 2) v]
  generalize frontSteps lt (v.length / 2) (v.take (v.length / 2)) (v.drop (v.length / 2)) = front
    at hf h
  generalize backSteps lt (v.length / 2) (v.take (v.length / 2)).reverse
    (v.drop (v.length / 2)).reverse = back at hb h
  generalize v.take (v.length / 2) = L at *
  generalize v.drop (v.length / 2) = R at *
  obtain ⟨fo, fa, fb⟩ := front
  obtain ⟨bo, ba, bb⟩ := back
  dsimp only at hf hb h
  -- the middle element of an odd sequence comes from the half the front did not finish
  by_cases heven : v.length % 2 = 0
  · simp only [heven, if_true] at h
    split at h
    · cases h
      refine halves_perm [] [] hf hb (.refl _) ?_ ?_
      · rw [List.append_nil]; exact take_append_reverse_take_perm L (by omega)
      · rw [List.append_nil]; exact take_append_reverse_take_perm R (by omega)
    · cases h
  · by_cases hleft : fa < v.length / 2 - ba
    · simp only [heven, hleft, if_true, if_false] at h
      split at h
      · cases h
        refine halves_perm [L.getD fa default] [] hf hb (.refl _) ?_ ?_
        · exact take_getD_reverse_take_perm L default (by omega)
        · rw [List.append_nil]; exact take_append_reverse_take_perm R (by omega)
      · cases h
    · simp only [heven, hleft, if_false] at h
      split at h
      · cases h
        refine halves_perm [] [R.getD fb default] hf hb (.refl _) ?_ ?_
        · rw [List.append_nil]; exact take_append_reverse_take_perm L (by omega)
        · exact take_getD_reverse_take_perm R default (by omega)
      · cases h

@[simp] theorem mergeFront_nil_left (ys : List α) : mergeFront lt [] ys = ys := by
  rw [mergeFront]

@[simp] theorem mergeFront_nil_right (xs : List α) : mergeFront lt xs [] = xs := by
  cases xs <;> simp [mergeFront]

theorem mergeFront_cons_cons (x y : α) (xs ys : List α) :
    mergeFront lt (x :: xs) (y :: ys) =
      if lt y x then y :: mergeFront lt (x :: xs) ys else x :: mergeFront lt xs (y :: ys) := by
  rw [mergeFront]

@[simp] theorem mergeBackRev_nil_left (ys : List α) : mergeBackRev lt [] ys = ys := by
  rw [mergeBackRev]

@[simp] theorem mergeBackRev_nil_right (xs : List α) : mergeBackRev lt xs [] = xs := by
  cases xs <;> simp [mergeBackRev]

theorem mergeFront_perm (xs ys : List α) : mergeFront lt xs ys ~ xs ++ ys := by
  fun_induction mergeFront lt xs ys with
  | case1 ys => exact .refl _
  | case2 xs h => rw [List.append_nil]
  | case3 x xs y ys h ih => exact (ih.cons y).trans List.perm_middle.symm
  | case4 x xs y ys h ih => exact ih.cons x

theorem mergeBackRev_perm (xs ys : List α) : mergeBackRev lt xs ys ~ xs ++ ys := by
  fun_induction mergeBackRev lt xs ys with
  | case1 ys => exact .refl _
  | case2 xs h => rw [List.append_nil]
  | case3 x xs y ys h ih => exact ih.cons x
  | case4 x xs y ys h ih => exact (ih.cons y).trans List.perm_middle.symm

theorem mergeRuns_perm (l r : List α) : mergeRuns lt l r ~ l ++ r := by
  unfold mergeRuns
  split
  · exact .refl _
  · split
    · exact mergeFront_perm lt l r
    · calc (mergeBackRev lt l.reverse r.reverse).reverse ~ mergeBackRev lt l.reverse r.reverse :=
            List.reverse_perm _
        _ ~ l.reverse ++ r.reverse := mergeBackRev_perm lt _ _
        _ ~ l ++ r := (List.reverse_perm l).append (List.reverse_perm r)

/-! ## Short sequences -/

theorem sortEight_perm [Inhabited α] {lt : α → α → Bool} {v w : List α}
    (h : sortEight lt v = .ok w) : w ~ v := by
  unfold sortEight at h
  split at h
  · rename_i a b c d e f g k
    exact (mergeBoth_perm h).trans ((sortFour_perm lt a b c d).append (sortFour_perm lt e f g k))
  · cases h
    exact .refl _

theorem presortHalf_perm [Inhabited α] {lt : α → α → Bool} {n : Nat} {half : List α}
    {r : Nat × List α} (h : presortHalf lt n half = .ok r) : r.2 ~ half.take r.1 := by
  unfold presortHalf at h
  split at h
  · obtain ⟨sorted, hs, h⟩ := except_bind_eq_ok h
    cases h
    exact sortEight_perm hs
  · split at h
    · split at h
      · rename_i a b c d heq
        cases h
        rw [heq]
        exact sortFour_perm lt a b c d
      · cases h
        exact .refl _
    · cases h
      exact .refl _

theorem smallSort_perm [Inhabited α] {lt : α → α → Bool} {v w : List α}
    (h : smallSort lt v = .ok w) : w ~ v := by
  unfold smallSort at h
  split at h
  · cases h
    exact .refl _
  · obtain ⟨l0, hl0, h⟩ := except_bind_eq_ok h
    obtain ⟨r0, hr0, h⟩ := except_bind_eq_ok h
    refine (mergeBoth_perm h).trans (List.Perm.trans ?_ (.of_eq (List.take_append_drop (v.length / 2) v)))
    exact (extendRun_take_perm lt (presortHalf_perm hl0)).append
      (extendRun_take_perm lt (presortHalf_perm hr0))

/-! ## The quicksort -/

theorem partition_perm (v : List α) (pivot : Nat) (pivotLeft : Bool) (goesLeft : α → Bool) :
    (partition v pivot pivotLeft goesLeft).1 ++ (partition v pivot pivotLeft goesLeft).2 ~ v := by
  simp only [partition]
  rw [← List.map_append]
  refine ((List.filter_append_perm _ _).map Prod.fst).trans ?_
  rw [List.map_map]
  exact .of_eq (List.zipIdx_map_fst 0 v)

theorem mem_partition_fst {v : List α} {pivot : Nat} {pivotLeft : Bool} {goesLeft : α → Bool}
    {x : α} : x ∈ (partition v pivot pivotLeft goesLeft).1 ↔
      ∃ i, v[i]? = some x ∧ (if i = pivot then pivotLeft else goesLeft x) = true := by
  simp only [partition, List.mem_map, List.mem_filter, List.mem_zipIdx_iff_getElem?]
  constructor
  · rintro ⟨a, ⟨⟨b, hb, rfl⟩, ha⟩, rfl⟩
    exact ⟨b.2, hb, ha⟩
  · rintro ⟨i, hi, hgo⟩
    exact ⟨_, ⟨⟨(x, i), hi, rfl⟩, hgo⟩, rfl⟩

theorem mem_partition_snd {v : List α} {pivot : Nat} {pivotLeft : Bool} {goesLeft : α → Bool}
    {x : α} : x ∈ (partition v pivot pivotLeft goesLeft).2 ↔
      ∃ i, v[i]? = some x ∧ (if i = pivot then pivotLeft else goesLeft x) = false := by
  simp only [partition, List.mem_map, List.mem_filter, List.mem_zipIdx_iff_getElem?,
    Bool.not_eq_true']
  constructor
  · rintro ⟨a, ⟨⟨b, hb, rfl⟩, ha⟩, rfl⟩
    exact ⟨b.2, hb, ha⟩
  · rintro ⟨i, hi, hgo⟩
    exact ⟨_, ⟨⟨(x, i), hi, rfl⟩, hgo⟩, rfl⟩

/-! ## Runs and the stack -/

def stackElems (stack : List (Run α × Nat)) : List α := stack.reverse.flatMap fun e => e.1.elems

@[simp] theorem stackElems_nil : stackElems ([] : List (Run α × Nat)) = [] := rfl

@[simp] theorem stackElems_cons (e : Run α × Nat) (stack : List (Run α × Nat)) :
    stackElems (e :: stack) = stackElems stack ++ e.1.elems := by
  simp [stackElems]

def bottomRun (stack : List (Run α × Nat)) (prev : Run α) : Run α := (stack.map Prod.fst).getLastD prev

@[simp] theorem bottomRun_nil (prev : Run α) : bottomRun [] prev = prev := rfl

@[simp] theorem bottomRun_cons (e : Run α × Nat) (stack : List (Run α × Nat)) (prev : Run α) :
    bottomRun (e :: stack) prev = bottomRun stack e.1 := by
  rw [bottomRun, List.map_cons, List.getLastD_cons]
  rfl

theorem bottomRun_of_ne_nil {stack : List (Run α × Nat)} (h : stack ≠ []) (p q : Run α) :
    bottomRun stack p = bottomRun stack q := by
  obtain ⟨e, es, rfl⟩ := List.exists_cons_of_ne_nil h
  simp

theorem stackElems_eq_nil {stack : List (Run α × Nat)} {prev : Run α} (hlen : stack.length ≤ 1)
    (hbot : (bottomRun stack prev).elems = []) : stackElems stack = [] := by
  rcases stack with _ | ⟨e, _ | ⟨e', rest⟩⟩
  · rfl
  · simpa using hbot
  · simp at hlen

theorem takeRun_perm [Inhabited α] {lt : α → α → Bool} {eager : Bool} {rest : List α}
    {shape : Nat × Option Bool} {run : Run α} (h : takeRun lt eager rest shape = .ok run) :
    run.elems ~ rest.take shape.1 := by
  unfold takeRun at h
  split at h
  · cases h
    dsimp only
    split
    · exact List.reverse_perm _
    · exact .refl _
  · split at h
    · obtain ⟨sorted, hs, h⟩ := except_bind_eq_ok h
      cases h
      exact smallSort_perm hs
    · cases h
      exact .refl _

section Join

variable {join : Run α → Run α → Except Fault (Run α)}
  (hjoin : ∀ {l r m : Run α}, join l r = .ok m → m.elems ~ l.elems ++ r.elems)

include hjoin

theorem collapse_perm {stack : List (Run α × Nat)} {prev : Run α} {depth : Nat}
    {stack' : List (Run α × Nat)} {prev' : Run α}
    (h : collapse join stack prev depth = .ok (stack', prev')) :
    stackElems stack' ++ prev'.elems ~ stackElems stack ++ prev.elems := by
  fun_induction collapse join stack prev depth with
  | case1 prev depth =>
    cases h
    exact .refl _
  | case2 left d rest prev depth hstop =>
    cases h
    exact .refl _
  | case3 left d rest prev depth hjoin' ih =>
    obtain ⟨merged, hm, h⟩ := except_bind_eq_ok h
    refine (ih merged h).trans ?_
    rw [stackElems_cons, List.append_assoc]
    exact (hjoin hm).append_left _

end Join

theorem collapse_bottom {join : Run α → Run α → Except Fault (Run α)} {stack : List (Run α × Nat)}
    {prev : Run α} {depth : Nat} {stack' : List (Run α × Nat)} {prev' : Run α}
    (h : collapse join stack prev depth = .ok (stack', prev')) :
    bottomRun stack' prev' = bottomRun stack prev := by
  fun_induction collapse join stack prev depth with
  | case1 prev depth =>
    cases h
    rfl
  | case2 left d rest prev depth hstop =>
    cases h
    rfl
  | case3 left d rest prev depth hgo ih =>
    obtain ⟨merged, hm, h⟩ := except_bind_eq_ok h
    have hrest : rest ≠ [] := by
      simp only [Bool.or_eq_true, List.isEmpty_iff, decide_eq_true_eq, not_or] at hgo
      exact hgo.1
    rw [ih merged h, bottomRun_cons]
    exact bottomRun_of_ne_nil hrest merged left

theorem collapse_zero {join : Run α → Run α → Except Fault (Run α)} {stack : List (Run α × Nat)}
    {prev : Run α} {stack' : List (Run α × Nat)} {prev' : Run α}
    (h : collapse join stack prev 0 = .ok (stack', prev')) : stack'.length ≤ 1 := by
  generalize hdepth : 0 = depth at h
  fun_induction collapse join stack prev depth with
  | case1 prev depth =>
    cases h
    exact Nat.zero_le 1
  | case2 left d rest prev depth hstop =>
    cases h
    subst hdepth
    simp only [Bool.or_eq_true, List.isEmpty_iff, decide_eq_true_eq, Nat.not_lt_zero,
      or_false] at hstop
    simp [hstop]
  | case3 left d rest prev depth hgo ih =>
    obtain ⟨merged, hm, h⟩ := except_bind_eq_ok h
    exact ih merged hdepth h

section Scan

variable [Inhabited α] {join : Run α → Run α → Except Fault (Run α)}
  (hjoin : ∀ {l r m : Run α}, join l r = .ok m → m.elems ~ l.elems ++ r.elems)

include hjoin

/-- The run scan ends with the elements of the stack, of `prev` and of the rest of the input, as
long as the bottom run is the empty sentinel. -/
theorem scanRuns_perm {scale good : Nat} {eager : Bool} {stack : List (Run α × Nat)} {prev : Run α}
    {scan : Nat} {rest : List α} {last : Run α} (hbot : (bottomRun stack prev).elems = [])
    (h : scanRuns lt join scale good eager stack prev scan rest = .ok last) :
    last.elems ~ stackElems stack ++ prev.elems ++ rest := by
  fun_induction scanRuns lt join scale good eager stack prev scan rest generalizing last with
  | case1 stack prev scan =>
    obtain ⟨⟨stack', prev'⟩, hc, h⟩ := except_bind_eq_ok h
    cases h
    have hnil := stackElems_eq_nil (collapse_zero hc) (by rw [collapse_bottom hc]; exact hbot)
    have hp := collapse_perm hjoin hc
    rw [hnil, List.nil_append] at hp
    rw [List.append_nil]
    exact hp
  | case2 stack prev scan x xs shape =>
    rename_i ih
    obtain ⟨next, hnext, h⟩ := except_bind_eq_ok h
    obtain ⟨⟨stack', prev'⟩, hc, h⟩ := except_bind_eq_ok h
    have hbot' : (bottomRun ((prev', mergeTreeDepth (scan - prev.elems.length) scan
        (scan + next.elems.length) scale) :: stack') next).elems = [] := by
      rw [bottomRun_cons, collapse_bottom hc]
      exact hbot
    refine (ih next stack' prev' hbot' h).trans ?_
    rw [stackElems_cons]
    have hp := (collapse_perm hjoin hc).append_right (next.elems ++ (x :: xs).drop shape.1)
    have hn := ((takeRun_perm hnext).append_right ((x :: xs).drop shape.1)).append_left
      (stackElems stack ++ prev.elems)
    rw [List.take_append_drop] at hn
    simp only [List.append_assoc] at hp hn ⊢
    exact hp.trans hn

theorem mergeAllRuns_perm {eager : Bool} {v : List α} {last : Run α}
    (h : mergeAllRuns lt join eager v = .ok last) : last.elems ~ v :=
  scanRuns_perm lt hjoin rfl h

end Scan

theorem joinSorted_perm (l r : Run α) : (joinSorted lt l r).elems ~ l.elems ++ r.elems :=
  mergeRuns_perm lt l.elems r.elems

theorem joinRuns_perm {sortStretch : List α → Except Fault (List α)}
    (hsort : ∀ {w w' : List α}, sortStretch w = .ok w' → w' ~ w) {l r m : Run α}
    (h : joinRuns lt sortStretch l r = .ok m) : m.elems ~ l.elems ++ r.elems := by
  unfold joinRuns at h
  split at h
  · -- a stretch that is not sorted yet is sorted before the merge
    have hside : ∀ (s : Run α) {xs : List α},
        (if s.sorted then pure s.elems else sortStretch s.elems) = .ok xs → xs ~ s.elems := by
      intro s xs hs
      split at hs
      · cases hs
        exact .refl _
      · exact hsort hs
    dsimp only at h
    rw [except_ite_bind] at h
    obtain ⟨ls, hls, h⟩ := except_bind_eq_ok h
    rw [except_ite_bind] at h
    obtain ⟨rs, hrs, h⟩ := except_bind_eq_ok h
    cases h
    exact (mergeRuns_perm lt ls rs).trans ((hside l hls).append (hside r hrs))
  · cases h
    exact .refl _

theorem driftEager_perm [Inhabited α] {lt : α → α → Bool} {v w : List α}
    (h : driftEager lt v = .ok w) : w ~ v := by
  unfold driftEager at h
  split at h
  · cases h
    exact .refl _
  · obtain ⟨last, hlast, h⟩ := except_bind_eq_ok h
    cases h
    exact mergeAllRuns_perm lt (fun hm => by cases hm; exact joinSorted_perm lt _ _) hlast

theorem quick_perm [Inhabited α] {lt : α → α → Bool} {v : List α} {limit : Nat}
    {ancestor : Option α} {w : List α} (h : quick lt v limit ancestor = .ok w) : w ~ v := by
  fun_induction quick lt v limit ancestor generalizing w with
  | case1 v limit ancestor hsmall => exact smallSort_perm h
  | case2 v ancestor hsmall => exact driftEager_perm h
  | case3 v limit ancestor hsmall hlimit p pv repeated below hrep atMost =>
    rename_i ih
    obtain ⟨r, hr, h⟩ := except_bind_eq_ok h
    cases h
    exact ((ih hr).append_left atMost.1).trans (partition_perm v p true _)
  | case4 v limit ancestor hsmall hlimit p pv repeated below hrep =>
    rename_i ihr ihl
    obtain ⟨r, hr, h⟩ := except_bind_eq_ok h
    obtain ⟨l, hl, h⟩ := except_bind_eq_ok h
    cases h
    exact ((ihl hl).append (ihr hr)).trans (partition_perm v p false _)

theorem driftLazy_perm [Inhabited α] {lt : α → α → Bool} {v w : List α}
    (h : driftLazy lt v = .ok w) : w ~ v := by
  unfold driftLazy at h
  split at h
  · cases h
    exact .refl _
  · obtain ⟨last, hlast, h⟩ := except_bind_eq_ok h
    have hall := mergeAllRuns_perm lt (joinRuns_perm lt quick_perm) hlast
    split at h
    · cases h
      exact hall
    · exact (quick_perm h).trans hall

theorem sortBy_perm [Inhabited α] {lt : α → α → Bool} {v w : List α} (h : sortBy lt v = .ok w) :
    w ~ v := by
  unfold sortBy at h
  split at h
  · cases h
    exact insertionSort_perm lt v
  · split at h
    · exact driftEager_perm h
    · exact driftLazy_perm h

end Sorting

end ClusterScheduler
