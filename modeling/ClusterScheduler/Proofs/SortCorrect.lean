import ClusterScheduler.Proofs.SortMeet

/-!
# The sort sorts

For a comparison that is a strict weak order on the elements of the input, `sortBy` never stops on
a fault, and it returns the input sorted. With a strict total order there is one sorted
permutation only, so the result then depends on the elements alone, not on their order.

The runs cut off the input are sorted when they say so: a run found in the input ascends, or
strictly descends and is reversed, and an eager stretch is sorted at once. Joining keeps that,
since merging two sorted runs is the merge from the front. The quicksort keeps each partition's
sides apart: everything on the left is below the pivot and nothing on the right is; when the
elements not above the pivot are set aside unsorted, they are all equal to it under the order,
either because nothing is below the pivot or because the pivot repeats that of an enclosing
partition, below which nothing of the stretch lies.

Main statements: `sortBy_sorts` and `sortBy_eq_of_perm`.
-/

namespace ClusterScheduler

namespace Sorting

open scoped List

variable {α : Type} {lt : α → α → Bool} {S : α → Prop}

/-- A run of elements of `S`, in order when it says it is. -/
structure RunOk (lt : α → α → Bool) (S : α → Prop) (run : Run α) : Prop where
  mem : ∀ x ∈ run.elems, S x
  sorted : run.sorted = true → Sorted lt run.elems

/-! ## What joining keeps, the stack keeps -/

section Invariant

variable {P : Run α → Prop} {join : Run α → Run α → Except Fault (Run α)}
  (hjoin : ∀ {l r : Run α}, P l → P r → ∃ m, join l r = .ok m ∧ P m)

include hjoin

theorem collapse_ok (stack : List (Run α × Nat)) (prev : Run α) (depth : Nat)
    (hstack : ∀ e ∈ stack, P e.1) (hprev : P prev) :
    ∃ stack' prev', collapse join stack prev depth = .ok (stack', prev') ∧ (∀ e ∈ stack', P e.1) ∧
      P prev' := by
  fun_induction collapse join stack prev depth with
  | case1 prev depth => exact ⟨[], prev, rfl, hstack, hprev⟩
  | case2 left d rest prev depth hstop => exact ⟨_, prev, rfl, hstack, hprev⟩
  | case3 left d rest prev depth hgo ih =>
    obtain ⟨merged, hm, hPm⟩ := hjoin (hstack (left, d) List.mem_cons_self) hprev
    rw [hm, except_ok_bind]
    exact ih merged (fun e he => hstack e (List.mem_cons_of_mem _ he)) hPm

theorem scanRuns_ok [Inhabited α] {scale good : Nat} {eager : Bool}
    (htake : ∀ xs : List α, (∀ x ∈ xs, S x) →
      ∃ run, takeRun lt eager xs (runShape lt good eager xs) = .ok run ∧ P run)
    (stack : List (Run α × Nat)) (prev : Run α) (scan : Nat) (rest : List α)
    (hstack : ∀ e ∈ stack, P e.1) (hprev : P prev) (hrest : ∀ x ∈ rest, S x) :
    ∃ last, scanRuns lt join scale good eager stack prev scan rest = .ok last ∧ P last := by
  fun_induction scanRuns lt join scale good eager stack prev scan rest with
  | case1 stack prev scan =>
    obtain ⟨stack', prev', hc, -, hp⟩ := collapse_ok hjoin stack prev 0 hstack hprev
    rw [hc, except_ok_bind]
    exact ⟨prev', rfl, hp⟩
  | case2 stack prev scan x xs shape =>
    rename_i ih
    obtain ⟨next, hnext, hPn⟩ := htake (x :: xs) hrest
    rw [hnext, except_ok_bind]
    obtain ⟨stack', prev', hc, hst, hp⟩ := collapse_ok hjoin stack prev
      (mergeTreeDepth (scan - prev.elems.length) scan (scan + next.elems.length) scale) hstack hprev
    dsimp only
    rw [hc, except_ok_bind]
    refine ih next stack' prev' (fun e he => ?_) hPn fun z hz => hrest z (List.mem_of_mem_drop hz)
    rcases List.mem_cons.1 he with rfl | he
    · exact hp
    · exact hst e he

theorem mergeAllRuns_ok [Inhabited α] {eager : Bool} {v : List α}
    (htake : ∀ (good : Nat) (xs : List α), (∀ x ∈ xs, S x) →
      ∃ run, takeRun lt eager xs (runShape lt good eager xs) = .ok run ∧ P run)
    (hempty : P ⟨[], true⟩) (hv : ∀ x ∈ v, S x) :
    ∃ last, mergeAllRuns lt join eager v = .ok last ∧ P last :=
  scanRuns_ok hjoin (htake _) [] ⟨[], true⟩ 0 v (fun e he => by cases he) hempty hv

end Invariant

/-! ## The sides of a partition

Partitioning by "below the pivot" leaves on the left what is below it and on the right what is
not; partitioning by "not above the pivot" keeps on the left what is not above it and passes on
the rest. The pivot itself goes to the side the partition names for it.
-/

section Partition

variable {v : List α} {p : Nat} {pv x : α}

theorem getElem?_choosePivot [Inhabited α] (lt : α → α → Bool) (h : ¬ v.length ≤ 32) :
    v[choosePivot lt v.toArray]? = some (v.toArray.getD (choosePivot lt v.toArray) default) := by
  have hp := choosePivot_lt lt (v := v.toArray) (by simp only [List.size_toArray]; omega)
  simp only [List.size_toArray] at hp
  simp [Array.getD_eq_getD_getElem?, hp]

theorem mem_below_fst (hx : x ∈ (partition v p false fun y => lt y pv).1) :
    x ∈ v ∧ lt x pv = true := by
  obtain ⟨i, hi, hgo⟩ := mem_partition_fst.1 hx
  refine ⟨List.mem_of_getElem? hi, ?_⟩
  split at hgo
  · cases hgo
  · exact hgo

theorem mem_below_snd (hp : v[p]? = some pv) (hirr : lt pv pv = false)
    (hx : x ∈ (partition v p false fun y => lt y pv).2) : x ∈ v ∧ lt x pv = false := by
  obtain ⟨i, hi, hgo⟩ := mem_partition_snd.1 hx
  refine ⟨List.mem_of_getElem? hi, ?_⟩
  split at hgo
  · rename_i hip
    subst hip
    rw [hp, Option.some_inj] at hi
    rw [← hi]
    exact hirr
  · exact hgo

theorem mem_atMost_fst (hp : v[p]? = some pv) (hirr : lt pv pv = false)
    (hx : x ∈ (partition v p true fun y => !lt pv y).1) : x ∈ v ∧ lt pv x = false := by
  obtain ⟨i, hi, hgo⟩ := mem_partition_fst.1 hx
  refine ⟨List.mem_of_getElem? hi, ?_⟩
  split at hgo
  · rename_i hip
    subst hip
    rw [hp, Option.some_inj] at hi
    rw [← hi]
    exact hirr
  · simpa using hgo

theorem mem_atMost_snd (hx : x ∈ (partition v p true fun y => !lt pv y).2) :
    x ∈ v ∧ lt pv x = true := by
  obtain ⟨i, hi, hgo⟩ := mem_partition_snd.1 hx
  refine ⟨List.mem_of_getElem? hi, ?_⟩
  split at hgo
  · cases hgo
  · simpa using hgo

theorem not_lt_of_below_eq_nil (hp : v[p]? = some pv) (hirr : lt pv pv = false)
    (hbelow : (partition v p false fun y => lt y pv).1 = [])
    (hx : x ∈ (partition v p true fun y => !lt pv y).1) : lt x pv = false := by
  obtain ⟨i, hi, -⟩ := mem_partition_fst.1 hx
  by_cases hip : i = p
  · subst hip
    rw [hp, Option.some_inj] at hi
    rw [← hi]
    exact hirr
  · cases hxp : lt x pv
    · rfl
    · have hmem : x ∈ (partition v p false fun y => lt y pv).1 :=
        mem_partition_fst.2 ⟨i, hi, by simp [hip, hxp]⟩
      simp [hbelow] at hmem

end Partition

variable (hlt : StrictWeakOn lt S)

include hlt

/-! ## Runs found in the input -/

theorem sorted_cons_of_head {x y : α} {ys : List α} (hx : S x) (hys : ∀ z ∈ y :: ys, S z)
    (hyx : lt y x = false) (hs : Sorted lt (y :: ys)) : Sorted lt (x :: y :: ys) := by
  refine sorted_cons.2 ⟨fun z hz => ?_, hs⟩
  rcases List.mem_cons.1 hz with rfl | hz
  · exact hyx
  · exact hlt.not_lt_trans hx (hys y List.mem_cons_self) (hys z (List.mem_cons_of_mem y hz)) hyx
      ((sorted_cons.1 hs).1 z hz)

theorem descends_cons_of_head {x y : α} {ys : List α} (hx : S x) (hys : ∀ z ∈ y :: ys, S z)
    (hyx : lt y x = true) (hs : (y :: ys).Pairwise fun a b => lt b a = true) :
    (x :: y :: ys).Pairwise fun a b => lt b a = true := by
  refine List.pairwise_cons.2 ⟨fun z hz => ?_, hs⟩
  rcases List.mem_cons.1 hz with rfl | hz
  · exact hyx
  · exact hlt.trans (hys z (List.mem_cons_of_mem y hz)) (hys y List.mem_cons_self) hx
      ((List.pairwise_cons.1 hs).1 z hz) hyx

theorem runLength_sorted {p : α} {xs : List α} (hp : S p) (hxs : ∀ x ∈ xs, S x) :
    Sorted lt (p :: xs.take (runLength (fun p x => !lt x p) p xs)) := by
  induction xs generalizing p with
  | nil => exact sorted_of_length_le_one (by simp)
  | cons x xs ih =>
    simp only [runLength]
    split
    · rename_i hkeep
      have hxp : lt x p = false := by simpa using hkeep
      have htail := ih (hxs x List.mem_cons_self) fun z hz => hxs z (List.mem_cons_of_mem x hz)
      rw [Nat.add_comm, List.take_succ_cons]
      exact sorted_cons_of_head hlt hp
        (fun z hz => hxs z (((List.take_sublist _ xs).cons_cons x).subset hz)) hxp htail
    · exact sorted_of_length_le_one (by simp)

theorem runLength_descends {p : α} {xs : List α} (hp : S p) (hxs : ∀ x ∈ xs, S x) :
    (p :: xs.take (runLength (fun p x => lt x p) p xs)).Pairwise fun a b => lt b a = true := by
  induction xs generalizing p with
  | nil => exact List.pairwise_singleton _ p
  | cons x xs ih =>
    simp only [runLength]
    split
    · rename_i hxp
      have htail := ih (hxs x List.mem_cons_self) fun z hz => hxs z (List.mem_cons_of_mem x hz)
      rw [Nat.add_comm, List.take_succ_cons]
      exact descends_cons_of_head hlt hp
        (fun z hz => hxs z (((List.take_sublist _ xs).cons_cons x).subset hz)) hxp htail
    · exact List.pairwise_singleton _ p

theorem findRun_sorted {rest : List α} (hS : ∀ x ∈ rest, S x) :
    if (findRun lt rest).2 then Sorted lt (rest.take (findRun lt rest).1).reverse
    else Sorted lt (rest.take (findRun lt rest).1) := by
  unfold findRun
  split
  · rename_i x y rest
    have hx := hS x List.mem_cons_self
    have hy := hS y (List.mem_cons_of_mem x List.mem_cons_self)
    have hrest : ∀ z ∈ rest, S z := fun z hz =>
      hS z (List.mem_cons_of_mem x (List.mem_cons_of_mem y hz))
    split
    · -- a strictly descending run: `x` is above `y`, which is above the rest of the run
      rename_i hyx
      have hdesc := runLength_descends hlt hy hrest
      simp only [if_true]
      rw [show 2 + runLength (fun p x => lt x p) y rest =
        runLength (fun p x => lt x p) y rest + 1 + 1 by omega, List.take_succ_cons,
        List.take_succ_cons]
      have hrun : ∀ z ∈ x :: y :: rest.take (runLength (fun p x => lt x p) y rest), S z :=
        fun z hz => hS z ((((List.take_sublist _ rest).cons_cons y).cons_cons x).subset hz)
      exact sorted_reverse.2 (List.Pairwise.imp_of_mem
        (fun ha hb hba => hlt.asymm (hrun _ hb) (hrun _ ha) hba)
        (descends_cons_of_head hlt hx (fun z hz => hrun z (List.mem_cons_of_mem x hz)) hyx hdesc))
    · -- an ascending run: `x` is not above `y`, which is not above the rest of the run
      rename_i hyx
      simp only [Bool.not_eq_true] at hyx
      simp only [Bool.false_eq_true, if_false]
      rw [show 2 + runLength (fun p x => !lt x p) y rest =
        runLength (fun p x => !lt x p) y rest + 1 + 1 by omega, List.take_succ_cons,
        List.take_succ_cons]
      exact sorted_cons_of_head hlt hx
        (fun z hz => hS z (List.mem_cons_of_mem x (((List.take_sublist _ rest).cons_cons y).subset hz)))
        hyx (runLength_sorted hlt hy hrest)
  · rename_i hv
    simp only [Bool.false_eq_true, if_false, List.take_length]
    rcases rest with _ | ⟨a, _ | ⟨b, t⟩⟩
    · exact sorted_nil
    · exact List.pairwise_singleton _ a
    · exact (hv a b t rfl).elim

/-! ## Runs and joins -/

theorem takeRun_ok [Inhabited α] (eager : Bool) (good : Nat) {rest : List α}
    (hS : ∀ x ∈ rest, S x) :
    ∃ run, takeRun lt eager rest (runShape lt good eager rest) = .ok run ∧ RunOk lt S run ∧
      (eager = true → run.sorted = true) := by
  have hmem : ∀ k, ∀ x ∈ rest.take k, S x := fun k x hx => hS x (List.mem_of_mem_take hx)
  -- a stretch with no run found: sorted at once in eager mode, left unsorted otherwise
  have hnone : ∀ k, ∃ run, takeRun lt eager rest (k, none) = .ok run ∧ RunOk lt S run ∧
      (eager = true → run.sorted = true) := by
    intro k
    cases eager with
    | false => exact ⟨⟨rest.take k, false⟩, rfl, ⟨hmem k, fun h => (by cases h)⟩, fun h => (by cases h)⟩
    | true =>
      obtain ⟨w, hw, hsorted⟩ := smallSort_sorted hlt (hmem k)
      refine ⟨⟨w, true⟩, by simp only [takeRun, if_true, hw]; rfl, ⟨fun x hx => hmem k x ((smallSort_perm hw).subset hx),
        fun _ => hsorted⟩, fun _ => rfl⟩
  unfold runShape
  by_cases hg : good ≤ rest.length
  · simp only [hg, if_true]
    split
    · -- a run found in the input, reversed if it descends
      have hfound := findRun_sorted hlt hS
      refine ⟨_, rfl, ⟨fun x hx => ?_, fun _ => ?_⟩, fun _ => rfl⟩
      · dsimp only at hx
        split at hx
        · exact hmem _ x (List.mem_reverse.1 hx)
        · exact hmem _ x hx
      · dsimp only
        split <;> simp_all
    · split
      · exact hnone _
      · exact hnone _
  · simp only [hg, if_false]
    split
    · exact ⟨_, rfl, ⟨fun x hx => by simp at hx, fun _ => by simp⟩, fun _ => rfl⟩
    · split
      · exact hnone _
      · exact hnone _

theorem joinSorted_ok {l r : Run α} (hl : RunOk lt S l ∧ l.sorted = true)
    (hr : RunOk lt S r ∧ r.sorted = true) :
    RunOk lt S (joinSorted lt l r) ∧ (joinSorted lt l r).sorted = true := by
  have hls := hl.1.sorted hl.2
  have hrs := hr.1.sorted hr.2
  refine ⟨⟨fun x hx => ?_, fun _ => ?_⟩, rfl⟩
  · rcases List.mem_append.1 ((joinSorted_perm lt l r).subset hx) with hx | hx
    · exact hl.1.mem x hx
    · exact hr.1.mem x hx
  · simp only [joinSorted]
    rw [mergeRuns_eq hlt hls hrs hl.1.mem hr.1.mem]
    exact mergeFront_sorted hlt hls hrs hl.1.mem hr.1.mem

theorem driftEager_sorted [Inhabited α] {v : List α} (hS : ∀ x ∈ v, S x) :
    ∃ w, driftEager lt v = .ok w ∧ Sorted lt w := by
  unfold driftEager
  split
  · exact ⟨v, rfl, sorted_of_length_le_one (by omega)⟩
  · obtain ⟨last, hlast, hok, hsorted⟩ := mergeAllRuns_ok (P := fun run => RunOk lt S run ∧ run.sorted = true)
      (fun hl hr => ⟨_, rfl, joinSorted_ok hlt hl hr⟩)
      (fun good xs hxs => by
        obtain ⟨run, hrun, hok, hs⟩ := takeRun_ok hlt true good hxs
        exact ⟨run, hrun, hok, hs rfl⟩)
      ⟨⟨fun x hx => (by cases hx), fun _ => sorted_nil⟩, rfl⟩ hS
    rw [hlast, except_ok_bind]
    exact ⟨_, rfl, hok.sorted hsorted⟩

/-! ## Quicksort and the whole sort -/

theorem quick_sorted [Inhabited α] {v : List α} {limit : Nat} {ancestor : Option α}
    (hS : ∀ x ∈ v, S x) (hanc : ∀ a, ancestor = some a → S a ∧ ∀ y ∈ v, lt y a = false) :
    ∃ w, quick lt v limit ancestor = .ok w ∧ Sorted lt w := by
  fun_induction quick lt v limit ancestor with
  | case1 => exact smallSort_sorted hlt hS
  | case2 => exact driftEager_sorted hlt hS
  | case3 v limit ancestor hsmall hlim p pv repeated below hrep atMost ih =>
    have hpv := getElem?_choosePivot lt hsmall
    have hSpv : S pv := hS pv (List.mem_of_getElem? hpv)
    have hirr := hlt.irrefl hSpv
    have hequiv : ∀ x ∈ atMost.1, lt x pv = false ∧ lt pv x = false := by
      intro x hx
      obtain ⟨hxv, hpx⟩ := mem_atMost_fst hpv hirr hx
      refine ⟨?_, hpx⟩
      simp only [Bool.or_eq_true, List.isEmpty_iff] at hrep
      rcases hrep with hrep | hrep
      · -- the pivot repeats an enclosing pivot, below which nothing of the stretch lies
        cases ancestor with
        | none => simp [repeated] at hrep
        | some a =>
          obtain ⟨hSa, hbelow⟩ := hanc a rfl
          have hap : lt a pv = false := by simpa [repeated] using hrep
          exact hlt.not_lt_trans hSpv hSa (hS x hxv) hap (hbelow x hxv)
      · exact not_lt_of_below_eq_nil hpv hirr hrep hx
    obtain ⟨r, hr, hrs⟩ := ih (fun x hx => hS x (mem_atMost_snd hx).1) (fun a ha => by cases ha)
    rw [hr, except_ok_bind]
    refine ⟨_, rfl, sorted_append.2 ⟨?_, hrs, fun a ha b hb => ?_⟩⟩
    · refine List.pairwise_of_forall_mem_list fun a ha b hb => ?_
      exact hlt.not_lt_trans (hS a (mem_atMost_fst hpv hirr ha).1) hSpv
        (hS b (mem_atMost_fst hpv hirr hb).1) (hequiv a ha).2 (hequiv b hb).1
    · have hb' := mem_atMost_snd ((quick_perm hr).subset hb)
      have ha' := mem_atMost_fst hpv hirr ha
      exact hlt.asymm (hS a ha'.1) (hS b hb'.1)
        (hlt.lt_of_not_lt_of_lt (hS a ha'.1) hSpv (hS b hb'.1) ha'.2 hb'.2)
  | case4 v limit ancestor hsmall hlim p pv repeated below hrep ihr ihl =>
    have hpv := getElem?_choosePivot lt hsmall
    have hSpv : S pv := hS pv (List.mem_of_getElem? hpv)
    have hirr := hlt.irrefl hSpv
    obtain ⟨r, hr, hrs⟩ := ihr (fun x hx => hS x (mem_below_snd hpv hirr hx).1)
      (fun a ha => by
        cases ha
        exact ⟨hSpv, fun y hy => (mem_below_snd hpv hirr hy).2⟩)
    obtain ⟨l, hl, hls⟩ := ihl (fun x hx => hS x (mem_below_fst hx).1)
      (fun a ha => ⟨(hanc a ha).1, fun y hy => (hanc a ha).2 y (mem_below_fst hy).1⟩)
    rw [hr, except_ok_bind, hl, except_ok_bind]
    refine ⟨_, rfl, sorted_append.2 ⟨hls, hrs, fun a ha b hb => ?_⟩⟩
    have ha' := mem_below_fst ((quick_perm hl).subset ha)
    have hb' := mem_below_snd hpv hirr ((quick_perm hr).subset hb)
    exact hlt.asymm (hS a ha'.1) (hS b hb'.1)
      (hlt.lt_of_lt_of_not_lt (hS a ha'.1) hSpv (hS b hb'.1) ha'.2 hb'.2)


theorem joinRuns_ok {sortStretch : List α → Except Fault (List α)}
    (hstretch : ∀ w : List α, (∀ x ∈ w, S x) → ∃ w', sortStretch w = .ok w' ∧ Sorted lt w')
    (hperm : ∀ {w w' : List α}, sortStretch w = .ok w' → w' ~ w) {l r : Run α}
    (hl : RunOk lt S l) (hr : RunOk lt S r) :
    ∃ m, joinRuns lt sortStretch l r = .ok m ∧ RunOk lt S m := by
  -- a side that is not sorted yet is sorted before the merge
  have hside : ∀ s : Run α, RunOk lt S s → ∃ xs,
      (if s.sorted then pure s.elems else sortStretch s.elems) = .ok xs ∧ xs ~ s.elems ∧
        Sorted lt xs := by
    intro s hs
    by_cases hsorted : s.sorted = true
    · exact ⟨s.elems, by simp only [hsorted, if_true]; rfl, .refl _, hs.sorted hsorted⟩
    · obtain ⟨xs, hxs, hsort⟩ := hstretch s.elems hs.mem
      exact ⟨xs, by simp only [hsorted, Bool.false_eq_true, if_false, hxs], hperm hxs, hsort⟩
  unfold joinRuns
  split
  · obtain ⟨ls, hls, hlp, hlsort⟩ := hside l hl
    obtain ⟨rs, hrs, hrp, hrsort⟩ := hside r hr
    have hSl : ∀ x ∈ ls, S x := fun x hx => hl.mem x (hlp.subset hx)
    have hSr : ∀ x ∈ rs, S x := fun x hx => hr.mem x (hrp.subset hx)
    dsimp only
    rw [except_ite_bind, hls, except_ok_bind, except_ite_bind, hrs, except_ok_bind]
    refine ⟨_, rfl, ⟨fun x hx => ?_, fun _ => ?_⟩⟩
    · rcases List.mem_append.1 ((mergeRuns_perm lt ls rs).subset hx) with hx | hx
      · exact hSl x hx
      · exact hSr x hx
    · dsimp only
      rw [mergeRuns_eq hlt hlsort hrsort hSl hSr]
      exact mergeFront_sorted hlt hlsort hrsort hSl hSr
  · refine ⟨_, rfl, ⟨fun x hx => ?_, fun h => (by cases h)⟩⟩
    rcases List.mem_append.1 hx with hx | hx
    · exact hl.mem x hx
    · exact hr.mem x hx

theorem driftLazy_sorted [Inhabited α] {v : List α} (hS : ∀ x ∈ v, S x) :
    ∃ w, driftLazy lt v = .ok w ∧ Sorted lt w := by
  have hquick : ∀ (w : List α) (limit : Nat), (∀ x ∈ w, S x) →
      ∃ w', quick lt w limit none = .ok w' ∧ Sorted lt w' := fun w _ hw =>
    quick_sorted hlt hw fun a ha => (by cases ha)
  unfold driftLazy
  split
  · exact ⟨v, rfl, sorted_of_length_le_one (by omega)⟩
  · obtain ⟨last, hlast, hok⟩ := mergeAllRuns_ok (P := RunOk lt S)
      (fun hl hr => joinRuns_ok hlt (fun w hw => hquick w (2 * Nat.log2 (w.length ||| 1)) hw)
        quick_perm hl hr)
      (fun good xs hxs => by
        obtain ⟨run, hrun, hok, -⟩ := takeRun_ok hlt false good hxs
        exact ⟨run, hrun, hok⟩)
      ⟨fun x hx => (by cases hx), fun _ => sorted_nil⟩ hS
    dsimp only
    rw [hlast, except_ok_bind]
    split
    · rename_i hsorted
      exact ⟨_, rfl, hok.sorted hsorted⟩
    · exact hquick _ _ hok.mem

/-- For a comparison that is a strict weak order on the elements, the sort ends without a fault
and returns its input in order. -/
theorem sortBy_sorts [Inhabited α] {v : List α} (hS : ∀ x ∈ v, S x) :
    ∃ w, sortBy lt v = .ok w ∧ w ~ v ∧ Sorted lt w := by
  have hsorted : ∃ w, sortBy lt v = .ok w ∧ Sorted lt w := by
    unfold sortBy
    split
    · exact ⟨_, rfl, insertionSort_sorted hlt hS⟩
    · split
      · exact driftEager_sorted hlt hS
      · exact driftLazy_sorted hlt hS
  obtain ⟨w, hw, hws⟩ := hsorted
  exact ⟨w, hw, sortBy_perm hw, hws⟩

theorem sortBy_eq_of_perm [Inhabited α] {v v' : List α} (hS : ∀ x ∈ v, S x)
    (htotal : ∀ a b, S a → S b → lt a b = false → lt b a = false → a = b) (hperm : v ~ v') :
    sortBy lt v = sortBy lt v' := by
  obtain ⟨w, hw, hwp, hws⟩ := sortBy_sorts hlt hS
  obtain ⟨w', hw', hwp', hws'⟩ := sortBy_sorts hlt fun x hx => hS x (hperm.symm.subset hx)
  rw [hw, hw']
  -- both results are sorted permutations of the same elements, and under a total order there
  -- is one such permutation only
  congr 1
  refine List.Perm.eq_of_pairwise (fun a b ha hb hba hab => ?_) hws hws' (hwp.trans (hperm.trans hwp'.symm))
  exact htotal a b (hS a (hwp.subset ha)) (hS b (hperm.symm.subset (hwp'.subset hb))) hab hba

end Sorting

end ClusterScheduler
